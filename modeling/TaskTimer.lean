import TaskTimer.Session.Batch
import TaskTimer.Serial.Basic
import TaskTimer.Proofs.Heap.Content
import TaskTimer.Proofs.Heap.Subtree
import TaskTimer.Proofs.Heap.Order
import TaskTimer.Proofs.Heap.Path
import TaskTimer.Proofs.Heap.Bounds
import TaskTimer.Proofs.Queue.Operations
import TaskTimer.Proofs.Queue.Ledger
import TaskTimer.Proofs.Queue.Bag
import TaskTimer.Proofs.Queue.Purge
import TaskTimer.Proofs.World.FirstDeadline
import TaskTimer.Proofs.Serial.RoundTrip
import TaskTimer.Proofs.Run.System
import TaskTimer.Proofs.Run.Change
import TaskTimer.Proofs.Run.Coupling
import TaskTimer.Proofs.Run.Cancellation
import TaskTimer.Proofs.Run.Idling
import TaskTimer.Proofs.Run.DeadlineOrder
import TaskTimer.Proofs.Run.Retention
import TaskTimer.Proofs.Run.Timetable
import TaskTimer.Proofs.Run.Repetition
import TaskTimer.Proofs.Run.Submission
import TaskTimer.Proofs.Run.Counterparts
import TaskTimer.Proofs.Run.Thread
import TaskTimer.Proofs.Run.Shutdown
import TaskTimer.Proofs.Run.Failure
import TaskTimer.Proofs.Run.Acceptance
import TaskTimer.Proofs.Run.LifeCycle
import TaskTimer.Proofs.Run.LatestDeadline
import TaskTimer.Proofs.Run.SignedPeriod
import TaskTimer.Proofs.Run.Arrivals
import TaskTimer.Proofs.Run.Postponement
import TaskTimer.Proofs.Settling.Progress
import TaskTimer.Proofs.Settling.Outcome
import TaskTimer.Proofs.Settling.Alike
import TaskTimer.Proofs.Settling.Purging
import TaskTimer.Proofs.Settling.SubmissionOrder
import TaskTimer.Proofs.Settling.Termination
import TaskTimer.Proofs.Shift.Readings
import TaskTimer.Proofs.Shift.Queue
import TaskTimer.Proofs.Shift.World
import TaskTimer.Proofs.Shift.Run
