/-
TaskTimer.Json.Basic — values in JSON, and their compact text.

`Json.render` writes a value without any white space. In a string the quotation mark, the
backslash and the control characters are escaped, by a letter where there is one and else by
four hexadecimal digits; everything else stands for itself.

Text that is read may hold two things that this library never writes: a number other than a
natural one, and a string with an escaped surrogate that has no partner, which denotes no text.
Both are values here, so that reading can pass over them, and neither has a text of its own.
-/
import TaskTimer.Text.Digits

namespace TaskTimer

/-- A number, as far as anyone here looks at it. -/
inductive JsonNumber where
  /-- A numeral of digits only. -/
  | natural (n : Nat)
  /-- Any other number: a negative one, a fraction, one with an exponent. -/
  | other
deriving DecidableEq

/-- A value in JSON. The fields of an object keep their order, and their names may repeat. As for
a string value, a name is `none` if it holds an unpaired surrogate. -/
inductive Json where
  | null
  | bool (b : Bool)
  | num (n : JsonNumber)
  /-- A string; `none` is one with an unpaired surrogate. -/
  | str (s : Option String)
  | arr (elements : List Json)
  | obj (fields : List (Option String × Json))

namespace Json

/-- A string value with the given text. -/
def text (s : String) : Json := .str (some s)

/-- A natural number as a value. -/
def nat (n : Nat) : Json := .num (.natural n)

/-- An object with a single field. -/
def single (name : String) (value : Json) : Json := .obj [(some name, value)]

/-- How a character is written inside a string. -/
def escape (c : Char) : List Char :=
  if c = '"' then ['\\', '"']
  else if c = '\\' then ['\\', '\\']
  else if c = '\n' then ['\\', 'n']
  else if c = '\r' then ['\\', 'r']
  else if c = '\t' then ['\\', 't']
  else if c.toNat = 8 then ['\\', 'b']
  else if c.toNat = 12 then ['\\', 'f']
  else if c.toNat < 32 then ['\\', 'u'] ++ Digits.hex 4 c.toNat
  else [c]

/-- A string with its quotation marks. -/
def renderString (s : String) : List Char :=
  '"' :: s.toList.flatMap escape ++ ['"']

/-- The same for a string that may have no text, and then has no written form. -/
def renderName : Option String → List Char
  | some s => renderString s
  | none => []

mutual

/-- The characters of a value. -/
def chars : Json → List Char
  | .null => "null".toList
  | .bool true => "true".toList
  | .bool false => "false".toList
  | .num (.natural n) => Digits.decimal n
  | .num .other => []
  | .str s => renderName s
  | .arr [] => ['[', ']']
  | .arr (x :: xs) => '[' :: chars x ++ charsOfElements xs ++ [']']
  | .obj [] => ['\x7b', '\x7d']
  | .obj ((name, x) :: fields) =>
    '\x7b' :: renderName name ++ ':' :: chars x ++ charsOfFields fields ++ ['\x7d']

/-- The elements of an array after the first, each behind a comma. -/
def charsOfElements : List Json → List Char
  | [] => []
  | x :: xs => ',' :: chars x ++ charsOfElements xs

/-- The fields of an object after the first, each behind a comma. -/
def charsOfFields : List (Option String × Json) → List Char
  | [] => []
  | (name, x) :: fields =>
    ',' :: renderName name ++ ':' :: chars x ++ charsOfFields fields

end

/-- The compact text of a value. -/
def render (j : Json) : String := String.ofList j.chars

end Json

end TaskTimer
