/-
TaskTimer.Task.Ending — how the body of a task ends.

A body returns, or it returns an error, or it panics. Errors and what a panic throws are told by a
text. That of an error is put together from the whole chain of errors; what was thrown and is no
text goes by a text that stands for all of it. Errors and thrown things are made by the body, and
what they do when they are looked at or dropped is up to it, so they may panic in turn.
-/

namespace TaskTimer

/-- What a panic throws. -/
inductive Payload where
  | text (message : String)
  /-- Something else; `bursts` if it panics as it is dropped. -/
  | other (bursts : Bool := false)
deriving DecidableEq

namespace Payload

/-- The message by which a panic is known. -/
def message : Payload → String
  | .text message => message
  | .other _ => "non-string panic payload"

/-- Whether it panics as it is dropped. -/
def bursts : Payload → Bool
  | .text _ => false
  | .other bursts => bursts

end Payload

/-- The message of an error, given the texts from its root outwards: the outermost comes first. -/
def chainMessage (chain : List String) : String := ": ".intercalate chain.reverse

/-- How the body of a task ended. -/
inductive Ending where
  | returned
  /-- With an error, which has these texts from its root outwards. -/
  | failed (chain : List String)
  /-- With an error that panics as it is put into words, or as it is dropped. -/
  | garbled (payload : Payload)
  | panicked (payload : Payload)
deriving DecidableEq

/-- Whether the body threw something that panics as it is dropped. -/
def Ending.bursts : Ending → Bool
  | .returned | .failed _ => false
  | .garbled payload | .panicked payload => payload.bursts

end TaskTimer
