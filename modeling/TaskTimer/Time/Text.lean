/-
TaskTimer.Time.Text — a duration in words for people.

A duration is shown in the largest of the units `s`, `ms`, `µs` and `ns` of which it holds at
least one, as a decimal fraction of that unit with no trailing zeros: `1.5ms`, `90s`, `0ns`.
-/
import TaskTimer.Text.Digits
import TaskTimer.Time.Instant

namespace TaskTimer.Duration

/-- A unit of time: its symbol, how many nanoseconds it has, and how many decimal places it
takes to write a nanosecond in it. -/
structure TimeUnit where
  symbol : String
  nanos : Nat
  places : Nat

/-- The units above the nanosecond, the largest first. -/
def units : List TimeUnit := [⟨"s", 1000000000, 9⟩, ⟨"ms", 1000000, 6⟩, ⟨"µs", 1000, 3⟩]

/-- The smallest unit, which shows whatever no other does. -/
def smallestUnit : TimeUnit := ⟨"ns", 1, 0⟩

/-- The unit that a number of nanoseconds is shown in. -/
def unitOf (nanos : Nat) : TimeUnit :=
  (units.find? (fun u => u.nanos ≤ nanos)).getD smallestUnit

/-- The decimal digits of `n`, filled up with zeros in front to at least `width` of them. -/
def padded (width n : Nat) : List Char :=
  let digits := Digits.decimal n
  List.replicate (width - digits.length) '0' ++ digits

/-- A list without the zeros at its end. -/
def trimZeros (digits : List Char) : List Char :=
  (digits.reverse.dropWhile (· == '0')).reverse

/-- The duration in its largest unit. -/
def debug (d : Duration) : String :=
  let nanos := d.val.toNat
  let unit := unitOf nanos
  let fraction := trimZeros (padded unit.places (nanos % unit.nanos))
  String.ofList (Digits.decimal (nanos / unit.nanos) ++
    (if fraction.isEmpty then [] else '.' :: fraction)) ++ unit.symbol

end TaskTimer.Duration
