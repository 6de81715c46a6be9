import SoftTimer.Scheduler.Command
import SoftTimer.Shared

/-!
# A scheduler in shared use

What a scheduler does for callers that know it only as a timer: the operations on time, events and
deep sleep, with every length of time in microseconds. A wait on a timer in shared use looks again
before each reading whether time tracking was handed over, since somebody else may do so meanwhile.

The callers share the scheduler, so each operation is carried out in a section of its own
(`Shared.serve`). A wait takes one for every look and every reading. `Scheduler.serve` says what
comes of that while nobody else has a section open.
-/

namespace SoftTimer

/-- A request to a timer in shared use. `Scheduler.serve` and `Shared.serve` answer it. -/
inductive TimerRequest where
  /-- Reads the time in milliseconds. -/
  | currentTime
  /-- Reads the time in microseconds. -/
  | currentTimeUs
  /-- Asks for an event. -/
  | event (periodUs : Nat) (id value : UInt16) (repeating : Bool) (flags : EventFlags)
  /-- Cancels the events of an identifier and a value. -/
  | cancelEvent (id value : UInt16)
  /-- Hands time tracking over. -/
  | deepSleepBegin
  /-- Takes time tracking back. -/
  | deepSleepEnd (counter elapsedUs : Nat)
  /-- Asks for the due time of the earliest event that may wake the device. -/
  | deepSleepWakeupTime
  /-- Asks whether time tracking is handed over. -/
  | isSuspended
  /-- Waits. -/
  | waitUs (us : Nat)
deriving DecidableEq, Repr

/-- What a timer in shared use answers. Most answers are those of an operation, as a `Reply`. -/
inductive TimerAnswer where
  /-- The answer of a scheduler's operation. -/
  | reply (r : Reply)
  /-- A due time, if there is one. -/
  | wakeTime (t : Option Nat)
  /-- Yes or no. -/
  | flag (b : Bool)

namespace Scheduler

variable {H K : Type} {n : Nat} [TimerHardware H]

/-- Reads the time until `us` microseconds have passed since `start` or time tracking is handed
over, at most as often as given. Says whether either has come about. -/
def pollShared (start us : Nat) : Nat → Scheduler H K n → Bool × Scheduler H K n
  | 0, s => (false, s)
  | readings + 1, s =>
    -- The clock may have been stopped between two readings.
    if s.suspended then
      (true, s)
    else
      let (now, s) := s.timeUs
      if now - start < us then pollShared start us readings s else (true, s)

/-- Waits for at least `us` microseconds, or until time tracking is handed over. -/
def waitShared (us : Nat) (s : Scheduler H K n) : Bool × Scheduler H K n :=
  let (start, s) := s.timeUs
  pollShared start us (s.readingsFor us) s

variable [EventSink K]

/-- `s.serve request` answers a request. -/
def serve (s : Scheduler H K n) : TimerRequest → TimerAnswer × Scheduler H K n
  | .currentTime => (s.exec .timeMs).map .reply id
  | .currentTimeUs => (s.exec .timeUs).map .reply id
  | .event periodUs ident value repeating flags =>
    (s.exec (.schedule ⟨.us periodUs, ident, value, repeating, flags⟩)).map .reply id
  | .cancelEvent ident value => (s.exec (.cancel ident value)).map .reply id
  | .deepSleepBegin => (s.exec .suspend).map .reply id
  | .deepSleepEnd counter elapsedUs => (s.exec (.resume counter elapsedUs)).map .reply id
  | .deepSleepWakeupTime => (.wakeTime s.nextWakeTime?, s)
  | .isSuspended => (.flag s.suspended, s)
  | .waitUs us => (s.waitShared us).map (fun finished => .reply (.waited finished)) id

end Scheduler

namespace Shared

variable {H K : Type} {n : Nat} [TimerHardware H]

/-- Reads the time of a shared scheduler until `us` microseconds have passed since `start` or time
tracking is handed over, at most as often as given. Says whether either has come about. -/
def pollUntil (start us : Nat) :
    Nat → Shared (Scheduler H K n) → Except AccessConflict Bool × Shared (Scheduler H K n)
  | 0, timer => (.ok false, timer)
  | readings + 1, timer =>
    andThen (timer.look (·.suspended)) fun stopped timer =>
      if stopped then
        (.ok true, timer)
      else
        andThen (timer.use (·.timeUs)) fun now timer =>
          if now - start < us then timer.pollUntil start us readings else (.ok true, timer)

/-- Waits for at least `us` microseconds, or until time tracking is handed over. -/
def wait (us : Nat) (timer : Shared (Scheduler H K n)) :
    Except AccessConflict Bool × Shared (Scheduler H K n) :=
  andThen (timer.use (·.timeUs)) fun start timer =>
    timer.pollUntil start us (timer.value.readingsFor us)

variable [EventSink K]

/-- `timer.serve request` answers a request to a shared scheduler, in sections of its own. -/
def serve (timer : Shared (Scheduler H K n)) :
    TimerRequest → Except AccessConflict TimerAnswer × Shared (Scheduler H K n)
  | .deepSleepWakeupTime => timer.look fun s => .wakeTime s.nextWakeTime?
  | .isSuspended => timer.look fun s => .flag s.suspended
  | .waitUs us =>
    andThen (timer.wait us) fun finished timer => (.ok (.reply (.waited finished)), timer)
  | request => timer.use (·.serve request)

end Shared

end SoftTimer
