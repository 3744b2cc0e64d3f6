/-
TaskTimer.Task.Id — task identifiers: 128 bits with a textual form.

An identifier is written as 32 hexadecimal digits in lower case, in groups of 8, 4, 4, 4 and 12
that hyphens separate. Four forms are read: that one, the same in braces or behind `urn:uuid:`,
and the digits alone without hyphens; letters may be of either case throughout.
-/
import TaskTimer.Text.Digits

namespace TaskTimer

/-- The identifier of a task. -/
structure TaskId where
  bits : BitVec 128
deriving DecidableEq

namespace TaskId

/-- The lengths of the groups of digits. -/
def groups : List Nat := [8, 4, 4, 4, 12]

/-- Puts hyphens between groups of the given lengths; the last group is what remains. -/
def hyphenate : List Nat → List Char → List Char
  | [], cs => cs
  | [_], cs => cs
  | n :: ns, cs => cs.take n ++ '-' :: hyphenate ns (cs.drop n)

/-- Takes out the hyphens between groups of the given lengths, if they are where they belong. -/
def unhyphenate? : List Nat → List Char → Option (List Char)
  | [], cs => some cs
  | [_], cs => some cs
  | n :: ns, cs =>
    match cs.drop n with
    | '-' :: rest => (unhyphenate? ns rest).map (cs.take n ++ ·)
    | _ => none

/-- The identifier with exactly these 32 digits. -/
def ofDigits? (cs : List Char) : Option TaskId :=
  if cs.length = 32 then (Digits.ofHex? 0 cs).map (fun n => ⟨BitVec.ofNat 128 n⟩) else none

/-- The identifier written in hyphenated groups. -/
def ofGroups? (cs : List Char) : Option TaskId :=
  (unhyphenate? groups cs).bind ofDigits?

/-- What stands before the groups in the form of a name, in lower case. -/
def urnHead : List Char := "urn:uuid:".toList

/-- The identifier that a text denotes in any of the four forms. -/
def ofText? (s : String) : Option TaskId :=
  match s.toList with
  | '\x7b' :: cs => if cs.getLast? = some '\x7d' then ofGroups? cs.dropLast else none
  | cs =>
    if (cs.take urnHead.length).map Char.toLower = urnHead then
      ofGroups? (cs.drop urnHead.length)
    else if cs.length = 32 then ofDigits? cs
    else ofGroups? cs

/-- The identifier in hyphenated groups, in lower case. -/
def text (id : TaskId) : String :=
  String.ofList (hyphenate groups (Digits.hex 32 id.bits.toNat))

/-- The identifier in debugging text. -/
def debug (id : TaskId) : String := "TaskId(" ++ id.text ++ ")"

/-- The version that the identifier carries in its thirteenth digit. -/
def version (id : TaskId) : Nat := (id.bits.toNat >>> 76) % 16

/-- The `n`-th of a series of identifiers, of version 7 as for identifiers that are ordered by
the time of their making. -/
def ofSerial (n : Nat) : TaskId :=
  ⟨BitVec.ofNat 128 ((7 <<< 76) + (2 <<< 62) + n % (1 <<< 62))⟩

/-- Identifiers of a series are all of version 7. -/
theorem version_ofSerial (n : Nat) : (ofSerial n).version = 7 := by
  simp only [version, ofSerial, BitVec.toNat_ofNat, Nat.shiftLeft_eq, Nat.shiftRight_eq_div_pow]
  omega

end TaskId

end TaskTimer
