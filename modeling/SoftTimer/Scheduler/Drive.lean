import SoftTimer.Scheduler.Operations
import SoftTimer.SimTimer.Bench

/-!
# Driving a scheduler on the bench

The counter of a simulated timer is moved on by a number of ticks, and every compare match on the
way is passed to the scheduler as the interrupt that it is. The scheduler arms its channels at least
one tick ahead, so between two ticks there are at most as many matches as channels, and the drive
ends. That argument fails when the counter also moves every time it is read, so the number of rounds
is bounded generously, and a drive that meets the bound says that it is not finished.
-/

namespace SoftTimer

/-- A compare match that was passed on, to `Scheduler.compareMatch`. -/
structure CompareMatch where
  /-- The channel that the counter met. -/
  channel : Nat
  /-- The ticks since the match before. -/
  ticks : Nat
  /-- What the scheduler fired. -/
  firings : Array Firing
  /-- The scheduler's time afterwards. -/
  timeUs : Nat
deriving DecidableEq, Repr

/-- What came of a drive: the matches that were passed on, and how many ticks are left. -/
structure DriveLog where
  /-- The compare matches, in order. -/
  compareMatches : Array CompareMatch
  /-- The ticks that were left when the last match was passed on. -/
  left : Nat
  /-- Whether the counter was moved all the way. -/
  finished : Bool
deriving DecidableEq, Repr

namespace DriveLog

/-- `log.fired` is how many firings there were. -/
def fired (log : DriveLog) : Nat :=
  log.compareMatches.foldl (fun total found => total + found.firings.size) 0

end DriveLog

namespace Scheduler

variable {H K : Type} {n : Nat} [TimerHardware H] [OnBench H] [EventSink K]

/-- `roundsFor ticks` is the most rounds in which a drive ends. -/
def roundsFor (ticks : Nat) : Nat := (ticks + 1) * 0x100000000

/-- `driveRounds` steps the counter from match to match, at most as often as given. -/
def driveRounds : Nat → DriveLog → Scheduler H K n → DriveLog × Scheduler H K n
  | 0, log, s => (log, s)
  | rounds + 1, log, s =>
    match OnBench.step s.hw log.left with
    -- What was left of the ticks has been taken without a match.
    | (none, hw) => ({ log with finished := true }, { s with hw := hw })
    | (some (channel, ticks), hw) =>
      let (firings, s) := { s with hw := hw }.compareMatch channel
      driveRounds rounds
        { log with
          compareMatches := log.compareMatches.push ⟨channel, ticks, firings, s.clock.timeUs⟩
          left := log.left - ticks } s

/-- Moves the counter on by `ticks`, passing on every compare match. -/
def drive (ticks : Nat) (s : Scheduler H K n) : DriveLog × Scheduler H K n :=
  driveRounds (roundsFor ticks) ⟨#[], ticks, false⟩ s

end Scheduler

end SoftTimer
