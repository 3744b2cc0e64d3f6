/-
TaskTimer.Text.Digits — natural numbers written out, in base ten and in base sixteen.

`decimal` writes the shortest numeral of a number. `hex` writes a numeral of a given width, and
`hexShort` the shortest one; hexadecimal digits are written in lower case and read in either.
-/

namespace TaskTimer

namespace Digits

/-- The digit for a value below sixteen, in lower case. -/
def ofValue (n : Nat) : Char :=
  if n < 10 then Char.ofNat (48 + n) else Char.ofNat (87 + n)

/-- The value of a digit, in either case, if it is one in base sixteen. -/
def value? (c : Char) : Option Nat :=
  if 48 ≤ c.toNat ∧ c.toNat ≤ 57 then some (c.toNat - 48)
  else if 97 ≤ c.toNat ∧ c.toNat ≤ 102 then some (c.toNat - 87)
  else if 65 ≤ c.toNat ∧ c.toNat ≤ 70 then some (c.toNat - 55)
  else none

/-- The number without leading zeros, in base ten. -/
def decimal (n : Nat) : List Char :=
  if n < 10 then [ofValue n] else decimal (n / 10) ++ [ofValue (n % 10)]

/-- The last `width` digits of the number in base sixteen. -/
def hex : (width : Nat) → (n : Nat) → List Char
  | 0, _ => []
  | width + 1, n => hex width (n / 16) ++ [ofValue (n % 16)]

/-- The number without leading zeros, in base sixteen. -/
def hexShort (n : Nat) : List Char :=
  if n < 16 then [ofValue n] else hexShort (n / 16) ++ [ofValue (n % 16)]

/-- The number that a run of base-sixteen digits denotes, read on from `acc`. -/
def ofHex? (acc : Nat) : List Char → Option Nat
  | [] => some acc
  | c :: r =>
    match value? c with
    | some v => ofHex? (16 * acc + v) r
    | none => none

/-- The value of a digit is what it was written for. -/
theorem value?_ofValue {n : Nat} (h : n < 16) : value? (ofValue n) = some n := by
  have : ∀ m : Fin 16, value? (ofValue m.val) = some m.val := by decide
  exact this ⟨n, h⟩

/-- A numeral of fixed width has that many digits. -/
theorem length_hex (width n : Nat) : (hex width n).length = width := by
  induction width generalizing n with
  | zero => rfl
  | succ width ih => simp [hex, ih]

end Digits

end TaskTimer
