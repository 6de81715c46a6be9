import SoftTimer.SimTimer.Basic
import SoftTimer.Proofs.Scheduler.Simulation

/-!
# The count of masked sections

A simulated timer counts how often its interrupts were masked, and nothing that is done with it
depends on that count. What an operation makes of a scheduler is therefore the same whatever the
count was, but for the count (`exec_remask`).
-/

namespace SoftTimer

namespace SimTimer

/-- The timer with another `maskCount`. -/
def remask (t : SimTimer) (count : Nat) : SimTimer := { t with maskCount := count }

/-- `armChannel` does the same whatever the count of masked sections was. -/
theorem armChannel_remask (t : SimTimer) (count channel reading : Nat) :
    (t.remask count).armChannel channel reading = (t.armChannel channel reading).remask count := by
  unfold armChannel
  split <;> rfl

/-- `step` does the same whatever the count of masked sections was. -/
theorem step_remask (t : SimTimer) (count maxTicks : Nat) :
    (t.remask count).step maxTicks =
      ((t.step maxTicks).1, (t.step maxTicks).2.remask count) := by
  have hnext : (t.remask count).nextCompare? = t.nextCompare? := rfl
  unfold step
  rw [hnext]
  cases t.nextCompare? with
  | none => rfl
  | some found =>
    dsimp only
    split <;> rfl

/-- A masked section in which nothing is done only counts, by `remask`. -/
theorem leave_enter (t : SimTimer) :
    ∃ count, IrqMask.leave (IrqMask.enter t).1 (IrqMask.enter t).2 = t.remask count := by
  obtain ⟨width, tickHz, counter, autoAdvance, channels, armCount, enabled, maskCount, hlt⟩ := t
  cases enabled with
  | true => exact ⟨maskCount + 1, rfl⟩
  | false => exact ⟨maskCount, rfl⟩

/-- Timers that differ by `remask` are `Twins`: a scheduler cannot tell them apart. -/
theorem twins_remask :
    TimerHardware.Twins fun t t' : SimTimer => ∃ count, t' = t.remask count where
  reading := by
    rintro t _ ⟨count, rfl⟩
    rfl
  read := by
    rintro t _ ⟨count, rfl⟩
    exact ⟨count, rfl⟩
  arm := by
    rintro t _ ⟨count, rfl⟩ channel reading
    exact ⟨count, t.armChannel_remask count channel reading⟩
  enable := by
    rintro t _ ⟨count, rfl⟩
    exact ⟨count, rfl⟩
  disable := by
    rintro t _ ⟨count, rfl⟩
    exact ⟨count + 1, rfl⟩
  enabled := by
    rintro t _ ⟨count, rfl⟩
    rfl

end SimTimer

namespace Scheduler

variable {K : Type} {n : Nat} {α : Type} (s : Scheduler SimTimer K n) (count : Nat)

/-- The scheduler on a timer with another `maskCount`. -/
def remask (s : Scheduler SimTimer K n) (count : Nat) : Scheduler SimTimer K n :=
  { s with hw := s.hw.remask count }

/-- Two runs of an action that `Agree` up to `remask` do the same whatever the count was. -/
theorem Agree.remask {act : Scheduler SimTimer K n → α × Scheduler SimTimer K n}
    (h : Agree (fun t t' => ∃ count, t' = t.remask count) act act) :
    ∃ count', act (s.remask count) = ((act s).1, (act s).2.remask count') := by
  obtain ⟨hanswer, hafter⟩ := h s (s.remask count) (.on ⟨count, rfl⟩)
  obtain ⟨count', hcount⟩ : ∃ count', (act (s.remask count)).2 = (act s).2.remask count' := by
    generalize (act s).2 = t at hafter ⊢
    generalize (act (s.remask count)).2 = t' at hafter ⊢
    obtain @⟨hw, count', rfl⟩ := hafter
    exact ⟨count', rfl⟩
  exact ⟨count', Prod.ext hanswer hcount⟩

theorem sync_remask : (s.remask count).sync = s.sync.remask count := by
  have hsuspended : (s.remask count).suspended = s.suspended := rfl
  unfold sync
  rw [hsuspended]
  by_cases h : s.suspended = true
  · rw [if_pos h, if_pos h]
  · rw [if_neg h, if_neg h]
    rfl

/-- Reading the time does the same whatever the `maskCount` was. -/
theorem read_remask (f : Clock → α) :
    ∃ count', masked (fun s => (f s.sync.clock, s.sync)) (s.remask count) =
      ((masked (fun s => (f s.sync.clock, s.sync)) s).1,
        (masked (fun s => (f s.sync.clock, s.sync)) s).2.remask count') :=
  ((agree_read SimTimer.twins_remask f).masked SimTimer.twins_remask).remask s count

/-- Every `Command` does the same whatever the count of masked sections was. -/
theorem exec_remask [EventSink K] (c : Command) :
    ∃ count', (s.remask count).exec c = ((s.exec c).1, (s.exec c).2.remask count') :=
  (agree_exec SimTimer.twins_remask c).remask s count

end Scheduler

end SoftTimer
