import SoftTimer.Scheduler.Operations

/-!
# Waiting

A wait reads the time again and again until enough of it has passed. Interrupts stay enabled between
the readings. A clock that stands still would be waited for in vain, so a wait ends at once while
time tracking is handed over.

If each reading of the counter sees one tick more at least, as many readings as there are ticks in
the time waited for are enough (`readingsFor`). A wait that has not ended by then is given up, and
says so: the counter moves more slowly than that or not at all, or the clock has reached the end of
time. What becomes of a wait that is never given up is a relation and no function, and is defined
where it is reasoned about (`Awaits`).
-/

namespace SoftTimer.Scheduler

variable {H K : Type} {n : Nat} [TimerHardware H]

/-- The most readings in which a wait for `us` microseconds ends, if the counter moves at each. -/
def readingsFor (s : Scheduler H K n) (us : Nat) : Nat := s.clock.ticksFor us + 1

/-- Reads the time until `us` microseconds have passed since `start`, at most as often as given.
Says whether they have. -/
def pollUntil (start us : Nat) : Nat → Scheduler H K n → Bool × Scheduler H K n
  | 0, s => (false, s)
  | readings + 1, s =>
    let (now, s) := s.timeUs
    if now - start < us then pollUntil start us readings s else (true, s)

/-- Waits for at least `us` microseconds, or not at all while suspended. Says whether the wait came
to its end. -/
def waitUs (us : Nat) (s : Scheduler H K n) : Bool × Scheduler H K n :=
  if s.suspended then
    (true, s)
  else
    let (start, s) := s.timeUs
    pollUntil start us (s.readingsFor us) s

/-- `wait span` waits for at least a span of time. -/
def wait (span : Span) (s : Scheduler H K n) : Bool × Scheduler H K n := s.waitUs span.toUs

end SoftTimer.Scheduler
