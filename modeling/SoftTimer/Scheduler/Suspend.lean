import SoftTimer.Scheduler.Basic
import SoftTimer.Pool.Periods

/-!
# Deep sleep

Before deep sleep the scheduler hands time tracking to a power manager and its clock stands still;
interrupts are then ignored. On waking it is told where the counter stands and how long it slept. An
event that came due meanwhile fires once, at the next interrupt, and a repeating one goes on from
there on its old grid: it is lined up with the last point that has passed.
-/

namespace SoftTimer

/-- The moment at which time tracking was handed over: the time, and what the counter showed. -/
@[ext]
structure Snapshot where
  /-- The time in microseconds. -/
  timeUs : Nat
  /-- The reading of the counter at that time. -/
  counter : Nat
deriving DecidableEq, Repr

namespace Scheduler

variable {H K : Type} {n : Nat} [TimerHardware H]

/-- `handOver` brings the clock up to date and stops it there. -/
def handOver (s : Scheduler H K n) : Snapshot × Scheduler H K n :=
  let s := s.sync
  (⟨s.clock.timeUs, s.clock.reading⟩,
    { s with suspended := true, stats := s.stats.recordSuspend })

/-- `suspend` hands time tracking over. The clock stands still until it is taken back. -/
def suspend : Scheduler H K n → Snapshot × Scheduler H K n := masked handOver

/-- `s.alignDue` lines up every event that is due with its last occurrence, and counts those in
between as skipped. Gives the number of events that are due. -/
def alignDue (s : Scheduler H K n) : Nat × Scheduler H K n :=
  let now := s.clock.timeUs
  let due := s.pool.overdue now
  (due.length,
    { s with
      pool := (s.pool.alignAll now).2
      stats := due.foldl (fun stats e => stats.recordCollapsed (e.align now).1) s.stats })

/-- `restart counter elapsedUs` sets the clock going again from a reading of the counter, after some
time that was measured by other means. -/
def restart (counter elapsedUs : Nat) (s : Scheduler H K n) : Scheduler H K n :=
  { s with
    clock := (s.clock.resync counter).advanceUs elapsedUs
    suspended := false }

/-- `takeBack counter elapsedUs` sets the clock going again, lines up the events that are due and
arms the channels. -/
def takeBack (counter elapsedUs : Nat) (s : Scheduler H K n) : Nat × Scheduler H K n :=
  let (due, s) := (s.restart counter elapsedUs).alignDue
  (due, s.rearm)

/-- Takes time tracking back: the counter stands at `counter`, and `elapsedUs` microseconds have
passed. Gives the number of events that are due. -/
def resume (counter elapsedUs : Nat) : Scheduler H K n → Nat × Scheduler H K n :=
  masked (takeBack counter elapsedUs)

end Scheduler

end SoftTimer
