/-
TaskTimer.Time.Instant — points and lengths of monotonic time.

An `Instant` is counted from an arbitrary origin and covers the whole range of signed 64-bit
seconds; a `Duration` covers the range of unsigned 64-bit seconds. Deadlines are computed by
`Instant.after`, which never fails: past the end of the range it settles for a deadline thirty
years ahead, and, where even that does not exist, for the instant it started from.
-/
import TaskTimer.Time.Nanos

namespace TaskTimer

/-- Nanoseconds in a second. -/
def nanosPerSecond : Int := 1000000000

/-- A point of monotonic time: any nanosecond whose whole seconds fit a signed 64-bit number. -/
abbrev Instant := Nanos (-9223372036854775808000000000) 9223372036854775807999999999

/-- A length of time: never negative, its whole seconds fit an unsigned 64-bit number. -/
abbrev Duration := Nanos 0 18446744073709551615999999999

namespace Duration

/-- No time at all. -/
def zero : Duration := ⟨0, by decide, by decide⟩

/-- Thirty years of 365 days: how far out a deadline is put that has no exact value. -/
def thirtyYears : Duration := ⟨946080000000000000, by decide, by decide⟩

/-- The duration of `secs` seconds and `nanos` nanoseconds, where there is one. -/
def ofParts? (secs nanos : Nat) : Option Duration :=
  Nanos.ofInt? (nanosPerSecond * secs + nanos)

/-- Whole seconds. -/
def seconds (d : Duration) : Nat := (d.val / nanosPerSecond).toNat

/-- Nanoseconds past the last whole second. -/
def subsecond (d : Duration) : Nat := (d.val % nanosPerSecond).toNat

/-- Whole milliseconds. -/
def millis (d : Duration) : Nat := (d.val / 1000000).toNat

/-- Whole microseconds. -/
def micros (d : Duration) : Nat := (d.val / 1000).toNat

theorem seconds_subsecond (d : Duration) :
    nanosPerSecond * d.seconds + d.subsecond = d.val := by
  have := d.lo_le
  simp only [seconds, subsecond, nanosPerSecond]
  omega

/-- A duration is put together again from its seconds and the rest. -/
theorem ofParts?_seconds_subsecond (d : Duration) :
    ofParts? d.seconds d.subsecond = some d :=
  Nanos.ofInt?_eq_some_iff.2 d.seconds_subsecond.symm

end Duration

namespace Instant

/-- The point from which instants are counted. -/
def origin : Instant := ⟨0, by decide, by decide⟩

/-- The last instant there is. -/
def last : Instant := ⟨9223372036854775807999999999, by decide, by decide⟩

/-- The instant `d` later, where there is one. -/
def add? (base : Instant) (d : Duration) : Option Instant :=
  Nanos.ofInt? (base.val + d.val)

/-- The instant `d` earlier, where there is one. -/
def sub? (base : Instant) (d : Duration) : Option Instant :=
  Nanos.ofInt? (base.val - d.val)

/-- The deadline `d` after `base`: the exact one, else the one in the far future, else `base`. -/
def after (base : Instant) (d : Duration) : Instant :=
  match base.add? d with
  | some exact => exact
  | none =>
    match base.add? Duration.thirtyYears with
    | some far => far
    | none => base

/-- How much later `b` is than `a`: nothing at all when it is not later. -/
def lengthTo (a b : Instant) : Duration :=
  if h : a.val ≤ b.val then
    ⟨b.val - a.val, by omega, by have := a.lo_le; have := b.le_hi; omega⟩
  else Duration.zero

end Instant

end TaskTimer
