/-
TaskTimer.Json.Reader — JSON values from tokens.

`Json.ofTokens?` reads exactly one value from a list of tokens, by recursive descent; whatever
follows the value is an error. The descent is bounded by a number that every token pays for
twice, so the bound is never what makes a value unreadable.
-/
import TaskTimer.Json.Token

namespace TaskTimer.Json

mutual

/-- Reads the value that begins here. -/
def value? : (bound : Nat) → List Token → Option (Json × List Token)
  | 0, _ => none
  | _ + 1, .null :: rest => some (.null, rest)
  | _ + 1, .bool b :: rest => some (.bool b, rest)
  | _ + 1, .num n :: rest => some (.num n, rest)
  | _ + 1, .str s :: rest => some (.str s, rest)
  | _ + 1, .openArray :: .closeArray :: rest => some (.arr [], rest)
  | bound + 1, .openArray :: rest =>
    (elements? bound rest).map (fun (xs, rest) => (.arr xs, rest))
  | _ + 1, .openObject :: .closeObject :: rest => some (.obj [], rest)
  | bound + 1, .openObject :: rest =>
    (fields? bound rest).map (fun (fields, rest) => (.obj fields, rest))
  | _ + 1, _ => none

/-- Reads the elements of an array, of which there is at least one, and the bracket behind. -/
def elements? : (bound : Nat) → List Token → Option (List Json × List Token)
  | 0, _ => none
  | bound + 1, ts =>
    match value? bound ts with
    | some (x, .comma :: rest) => (elements? bound rest).map (fun (xs, rest) => (x :: xs, rest))
    | some (x, .closeArray :: rest) => some ([x], rest)
    | _ => none

/-- Reads the fields of an object, of which there is at least one, and the brace behind. -/
def fields? : (bound : Nat) → List Token → Option (List (Option String × Json) × List Token)
  | 0, _ => none
  | bound + 1, .str name :: .colon :: ts =>
    match value? bound ts with
    | some (x, .comma :: rest) =>
      (fields? bound rest).map (fun (fields, rest) => ((name, x) :: fields, rest))
    | some (x, .closeObject :: rest) => some ([(name, x)], rest)
    | _ => none
  | _ + 1, _ => none

end

/-- The value that a list of tokens spells out, with nothing behind it. -/
def ofTokens? (ts : List Token) : Option Json :=
  match value? (2 * ts.length + 2) ts with
  | some (x, []) => some x
  | _ => none

/-- The value that a text spells out, with nothing but blanks around it. -/
def parse? (s : String) : Option Json :=
  (tokens? s.toList).bind ofTokens?

end TaskTimer.Json
