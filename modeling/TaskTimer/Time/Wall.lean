/-
TaskTimer.Time.Wall — wall-clock times, signed delays, and the two clocks of a timer.

Deadlines live on the monotonic line. A wall time serves only to say when an absolute
submission is due, and `Clock.instantOf` takes it over to the monotonic line; a `Delay` is what
a caller hands in, and it may be negative.
-/
import TaskTimer.Time.Instant

namespace TaskTimer

/-- A wall-clock time, counted from the epoch; the range is that of a proleptic calendar date. -/
abbrev WallTime := Nanos (-8334601228800000000000) 8210266876799999999999

/-- A signed span as callers give it: at most the 64-bit range of milliseconds, either sign. -/
abbrev Delay := Nanos (-9223372036854775807000000) 9223372036854775807000000

namespace Delay

/-- The delay as a length of time, unless it is negative. -/
def toDuration? (d : Delay) : Option Duration :=
  if h : 0 ≤ d.val then some ⟨d.val, h, by have := d.le_hi; omega⟩ else none

end Delay

namespace WallTime

/-- The start of the wall clock's count. -/
def epoch : WallTime := ⟨0, by decide, by decide⟩

/-- How far `later` lies ahead of `earlier`. -/
def ahead (later earlier : WallTime) (h : earlier.val ≤ later.val) : Duration :=
  ⟨later.val - earlier.val, by omega, by have := later.le_hi; have := earlier.lo_le; omega⟩

end WallTime

/-- What a timer reads when it asks for the time. -/
structure Clock where
  now : Instant
  wall : WallTime
deriving DecidableEq

namespace Clock

/-- The instant at which the wall clock will show `time`; a time that is past is due now. -/
def instantOf (c : Clock) (time : WallTime) : Instant :=
  if h : c.wall.val ≤ time.val then c.now.after (time.ahead c.wall h) else c.now

/-- Time passes until `now` is `next`: the wall clock moves by as much, within its range. -/
def moveTo (c : Clock) (next : Instant) : Clock :=
  { now := next, wall := Nanos.clamp (by decide) (c.wall.val + (next.val - c.now.val)) }

/-- Time passes by `d`, unless that leads out of the range of instants. -/
def advance? (c : Clock) (d : Duration) : Option Clock :=
  (c.now.add? d).map c.moveTo

end Clock

end TaskTimer
