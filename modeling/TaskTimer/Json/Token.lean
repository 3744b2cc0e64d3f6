/-
TaskTimer.Json.Token — JSON text cut into tokens.

The four blanks of JSON separate tokens and mean nothing else. A string token is read in two
stages: `stringUnits` cuts out the characters and escapes up to the closing quotation mark, and
`joinUnits` puts surrogates together, which fails on an unpaired one. A string without a text
is still a token, for the place it stands in may be one that no one looks at.
-/
import TaskTimer.Json.Basic

namespace TaskTimer.Json

/-- A token of JSON text. -/
inductive Token where
  | openArray
  | closeArray
  | openObject
  | closeObject
  | comma
  | colon
  | null
  | bool (b : Bool)
  | num (n : JsonNumber)
  | str (s : Option String)
deriving DecidableEq

/-- One piece of a string: a character, or the code unit that an escape names. -/
inductive StringUnit where
  | char (c : Char)
  | code (n : Nat)
deriving DecidableEq

/-- The number that four hexadecimal digits denote. -/
def hex4? (a b c d : Char) : Option Nat := Digits.ofHex? 0 [a, b, c, d]

/-- The character that an escape by one letter stands for. -/
def unescape? : Char → Option Char
  | '"' => some '"'
  | '\\' => some '\\'
  | '/' => some '/'
  | 'b' => some (Char.ofNat 8)
  | 'f' => some (Char.ofNat 12)
  | 'n' => some '\n'
  | 'r' => some '\r'
  | 't' => some '\t'
  | _ => none

/-- Cuts off the pieces of a string up to its closing quotation mark. A bare control character
is an error, and so is an escape that is not one. -/
def stringUnits : List Char → Option (List StringUnit × List Char)
  | [] => none
  | '"' :: rest => some ([], rest)
  | '\\' :: 'u' :: a :: b :: c :: d :: rest =>
    match hex4? a b c d, stringUnits rest with
    | some n, some (units, rest) => some (.code n :: units, rest)
    | _, _ => none
  | '\\' :: c :: rest =>
    match unescape? c, stringUnits rest with
    | some c, some (units, rest) => some (.char c :: units, rest)
    | _, _ => none
  | c :: rest =>
    if c.toNat < 32 ∨ c = '\\' then none
    else
      match stringUnits rest with
      | some (units, rest) => some (.char c :: units, rest)
      | none => none

/-- Whether a code unit is the first of a pair of surrogates. -/
def isHighSurrogate (n : Nat) : Bool := 0xD800 ≤ n ∧ n < 0xDC00

/-- Whether a code unit is the second of a pair of surrogates. -/
def isLowSurrogate (n : Nat) : Bool := 0xDC00 ≤ n ∧ n < 0xE000

/-- The text of a string, unless a surrogate in it has no partner. -/
def joinUnits : List StringUnit → Option (List Char)
  | [] => some []
  | .char c :: rest => (joinUnits rest).map (c :: ·)
  | .code high :: .code low :: rest =>
    if isHighSurrogate high then
      if isLowSurrogate low then
        (joinUnits rest).map
          (Char.ofNat (0x10000 + (high - 0xD800) * 0x400 + (low - 0xDC00)) :: ·)
      else none
    else if isLowSurrogate high then none
    else (joinUnits (.code low :: rest)).map (Char.ofNat high :: ·)
  | .code n :: rest =>
    if isHighSurrogate n || isLowSurrogate n then none
    else (joinUnits rest).map (Char.ofNat n :: ·)

/-- Whether a character is a decimal digit. -/
def isDigit (c : Char) : Bool := 48 ≤ c.toNat ∧ c.toNat ≤ 57

/-- The number that a run of decimal digits denotes. -/
def numeral (ds : List Char) : Nat := ds.foldl (fun n c => 10 * n + (c.toNat - 48)) 0

/-- Cuts off the whole part of a number: a zero alone, or digits that do not begin with one. -/
def wholePart? (cs : List Char) : Option (Nat × List Char) :=
  match cs with
  | '0' :: rest => some (0, rest)
  | _ =>
    let ds := cs.takeWhile isDigit
    if ds.isEmpty then none else some (numeral ds, cs.dropWhile isDigit)

/-- Cuts off at least one decimal digit. -/
def digits? (cs : List Char) : Option (List Char) :=
  if (cs.takeWhile isDigit).isEmpty then none else some (cs.dropWhile isDigit)

/-- Cuts off a fraction, if one begins here; says whether one did. -/
def fraction? : List Char → Option (Bool × List Char)
  | '.' :: rest => (digits? rest).map (true, ·)
  | cs => some (false, cs)

/-- The text behind the sign of an exponent, if there is a sign. -/
def dropSign : List Char → List Char
  | '+' :: rest => rest
  | '-' :: rest => rest
  | cs => cs

/-- Cuts off an exponent, if one begins here; says whether one did. -/
def exponent? : List Char → Option (Bool × List Char)
  | 'e' :: rest => (digits? (dropSign rest)).map (true, ·)
  | 'E' :: rest => (digits? (dropSign rest)).map (true, ·)
  | cs => some (false, cs)

/-- Cuts off a number without its sign. -/
def unsigned? (cs : List Char) : Option (JsonNumber × List Char) :=
  match wholePart? cs with
  | none => none
  | some (n, rest) =>
    match fraction? rest with
    | none => none
    | some (hasFraction, rest) =>
      match exponent? rest with
      | none => none
      | some (hasExponent, rest) =>
        some (if hasFraction || hasExponent then .other else .natural n, rest)

/-- Cuts off a number. A minus sign makes it one that is not natural, even before a zero. -/
def number? : List Char → Option (JsonNumber × List Char)
  | '-' :: rest => (unsigned? rest).map (fun (_, rest) => (.other, rest))
  | cs => unsigned? cs

/-- Whether a character is a blank between tokens. -/
def isBlank (c : Char) : Bool := c == ' ' || c == '\t' || c == '\n' || c == '\r'

/-- Cuts off the token that the text begins with; there is no blank in front of it. -/
def token? : List Char → Option (Token × List Char)
  | '[' :: rest => some (.openArray, rest)
  | ']' :: rest => some (.closeArray, rest)
  | '\x7b' :: rest => some (.openObject, rest)
  | '\x7d' :: rest => some (.closeObject, rest)
  | ',' :: rest => some (.comma, rest)
  | ':' :: rest => some (.colon, rest)
  | 'n' :: 'u' :: 'l' :: 'l' :: rest => some (.null, rest)
  | 't' :: 'r' :: 'u' :: 'e' :: rest => some (.bool true, rest)
  | 'f' :: 'a' :: 'l' :: 's' :: 'e' :: rest => some (.bool false, rest)
  | '"' :: rest =>
    (stringUnits rest).map (fun (units, rest) =>
      (.str ((joinUnits units).map String.ofList), rest))
  | cs => (number? cs).map (fun (n, rest) => (.num n, rest))

/-- The tokens of a text, of which at most `bound` are read. -/
def tokensUpTo : (bound : Nat) → List Char → Option (List Token)
  | _, [] => some []
  | 0, _ => none
  | bound + 1, c :: cs =>
    if isBlank c then tokensUpTo bound cs
    else
      match token? (c :: cs) with
      | some (t, rest) => (tokensUpTo bound rest).map (t :: ·)
      | none => none

/-- The tokens of a text. A token takes at least one character, so the length of the text bounds
their number. -/
def tokens? (cs : List Char) : Option (List Token) := tokensUpTo cs.length cs

end TaskTimer.Json
