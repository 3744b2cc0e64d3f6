/-
TaskTimer.Config — the settings of a timer.

Each default configuration has a name of its own, made of a serial number that counts them; the
other settings have fixed defaults. The capacity only says how much room to set aside, so no
behaviour depends on it.
-/
import TaskTimer.Serial.Debug
import TaskTimer.Time.Wall

namespace TaskTimer

/-- Where a timer reads the time. -/
inductive TimeSource where
  /-- The clocks of the system. -/
  | system
  /-- A clock that someone else moves, with what it shows at first. -/
  | virtual (clock : Clock)
deriving DecidableEq

namespace TimeSource

/-- Whether the source is another than the system's clocks. -/
def isVirtual : TimeSource → Bool
  | .system => false
  | .virtual _ => true

end TimeSource

/-- The settings of a timer. -/
structure Config where
  /-- The name of the timer and of its thread. -/
  name : String
  /-- For how many entries the queue has room from the start. -/
  capacity : Nat := 128
  source : TimeSource := .system
deriving DecidableEq

namespace Config

/-- What every default name begins with. -/
def nameStem : String := "Timer-"

/-- The default configuration with the given serial number. -/
def default (serial : Nat) : Config :=
  { name := nameStem ++ String.ofList (Digits.decimal serial) }

/-- The default configurations of `count` serial numbers from `first` on, with those numbers. -/
def defaults (first count : Nat) : List (Nat × Config) :=
  (List.range' first count).map fun serial => (serial, default serial)

/-- A configuration in debugging text, in which all sources of time look the same. -/
def debug (c : Config) : String :=
  debugRecord "TimerConfig"
    [("name", quoted c.name), ("initial_capacity", String.ofList (Digits.decimal c.capacity)),
      ("clock", quoted "dyn Clock")]

end Config

end TaskTimer
