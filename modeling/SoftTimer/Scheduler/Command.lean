import SoftTimer.Scheduler.Operations
import SoftTimer.Scheduler.Suspend
import SoftTimer.Scheduler.Wait

/-!
# Commands

Every operation of a scheduler as a value, so that what is done to a scheduler over time is a list
of commands.
-/

namespace SoftTimer

/-- An operation of a scheduler, with its arguments. `Scheduler.exec` carries it out. -/
inductive Command where
  /-- Reads the time in milliseconds. -/
  | timeMs
  /-- Reads the time in microseconds. -/
  | timeUs
  /-- Asks for an event. -/
  | schedule (request : Request)
  /-- Cancels the events of an identifier and a value. -/
  | cancel (id value : UInt16)
  /-- Arms the channels again. -/
  | rearm
  /-- Takes an interrupt. -/
  | interrupt (source : InterruptSource)
  /-- Takes the interrupt of a compare channel. -/
  | compareMatch (channel : Nat)
  /-- Waits. -/
  | wait (span : Span)
  /-- Hands time tracking over. -/
  | suspend
  /-- Takes time tracking back. -/
  | resume (counter elapsedUs : Nat)
deriving DecidableEq, Repr

/-- What an operation answers. Each kind of answer has a constructor. -/
inductive Reply where
  /-- The operation has nothing to say. -/
  | done
  /-- A time. -/
  | time (t : Nat)
  /-- Whether a request was granted. -/
  | outcome (result : Except TimerError Unit)
  /-- What fired. -/
  | fired (firings : Array Firing)
  /-- Whether a wait came to its end. -/
  | waited (finished : Bool)
  /-- The moment at which time tracking was handed over. -/
  | snapshot (s : Snapshot)
  /-- How many events are due. -/
  | due (count : Nat)

namespace Scheduler

variable {H K : Type} {n : Nat} [TimerHardware H] [EventSink K]

/-- `s.exec c` carries out the operation `c`. -/
def exec (s : Scheduler H K n) : Command → Reply × Scheduler H K n
  | .timeMs => s.timeMs.map .time id
  | .timeUs => s.timeUs.map .time id
  | .schedule request => (s.schedule request).map .outcome id
  | .cancel ident value => (s.cancel ident value).map .outcome id
  | .rearm => (.done, s.rearmNow)
  | .interrupt source => (s.interrupt source).map .fired id
  | .compareMatch channel => (s.compareMatch channel).map .fired id
  | .wait span => (s.wait span).map .waited id
  | .suspend => s.suspend.map .snapshot id
  | .resume counter elapsedUs => (s.resume counter elapsedUs).map .due id

end Scheduler

end SoftTimer
