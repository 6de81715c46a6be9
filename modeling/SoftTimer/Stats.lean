import SoftTimer.Config
import SoftTimer.Pool.Drain

/-!
# Statistics

Counters of what a scheduler has done. No decision reads them. Each stops at the largest value of
its word.
-/

namespace SoftTimer

/-- What a scheduler has done so far. Each count stops at the largest value it can have, `max32` or
`max64`. -/
@[ext]
structure Stats where
  /-- Interrupts of the primary channel. -/
  primaryInterrupts : Nat := 0
  /-- Interrupts of the fallback channel. -/
  fallbackInterrupts : Nat := 0
  /-- Firings delivered. -/
  eventsFired : Nat := 0
  /-- Occurrences of repeating events that were skipped. -/
  collapsedOccurrences : Nat := 0
  /-- Requests refused. -/
  rejectedRequests : Nat := 0
  /-- Times that time tracking was handed over. -/
  suspends : Nat := 0
deriving DecidableEq, Repr

namespace Stats

/-- `s.recordInterrupt source` counts an interrupt of a channel. -/
def recordInterrupt (s : Stats) : InterruptSource → Stats
  | .primary => { s with primaryInterrupts := sat32 (s.primaryInterrupts + 1) }
  | .fallback => { s with fallbackInterrupts := sat32 (s.fallbackInterrupts + 1) }

/-- `s.recordFired` counts a firing. -/
def recordFired (s : Stats) : Stats := { s with eventsFired := sat64 (s.eventsFired + 1) }

/-- `s.recordCollapsed skipped` counts occurrences that were skipped. -/
def recordCollapsed (s : Stats) (skipped : Nat) : Stats :=
  { s with collapsedOccurrences := sat64 (s.collapsedOccurrences + skipped) }

/-- `s.recordRejected` counts a refused request. -/
def recordRejected (s : Stats) : Stats :=
  { s with rejectedRequests := sat32 (s.rejectedRequests + 1) }

/-- `s.recordSuspend` counts a hand-over of time tracking. -/
def recordSuspend (s : Stats) : Stats := { s with suspends := sat32 (s.suspends + 1) }

/-- `s.recordFiring f` counts the firing `f` and the occurrences it skipped. -/
def recordFiring (s : Stats) (f : Firing) : Stats := s.recordFired.recordCollapsed f.collapsed

/-- `s.totalInterrupts` counts the interrupts of either channel. -/
def totalInterrupts (s : Stats) : Nat := sat32 (s.primaryInterrupts + s.fallbackInterrupts)

end Stats

end SoftTimer
