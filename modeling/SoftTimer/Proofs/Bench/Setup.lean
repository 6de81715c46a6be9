import SoftTimer.SimTimer.Basic
import SoftTimer.Proofs.Scheduler.Frame

/-!
# The set-up of a scheduler on the bench

On a simulated timer whose counter stands still unless it is told to move, entering and leaving
masked sections and reading the counter change nothing that matters (`SimTimer.SameDial`). No
operation changes how a scheduler is set up (`frame_sameSetup`), so what holds of a set-up that a
constructor accepts (`Fitted`, and `Wired` if the timer has the primary channel too) holds ever
after.
-/

namespace SoftTimer

/-- `validate` accepts a configuration when its channels differ and neither distance is zero. -/
theorem Config.validate_eq_ok {c : Config} : c.validate = .ok () ↔
    c.primaryChannel ≠ c.fallbackChannel ∧ c.fallbackIntervalUs ≠ 0 ∧ c.minArmTicks ≠ 0 := by
  unfold validate
  split
  · next hbad =>
    constructor
    · intro h
      cases h
    · omega
  · next hgood =>
    constructor
    · intro _
      omega
    · intro _
      rfl

/-- The timer `t'` shows the same as `t` and is armed for the same. -/
structure SimTimer.SameDial (t t' : SimTimer) : Prop where
  width : t'.width = t.width
  counter : t'.counter = t.counter
  autoAdvance : t'.autoAdvance = t.autoAdvance
  channels : t'.channels = t.channels

namespace SimTimer.SameDial

theorem refl (t : SimTimer) : SameDial t t := ⟨rfl, rfl, rfl, rfl⟩

theorem trans {t t' t'' : SimTimer} (h : SameDial t t') (h' : SameDial t' t'') : SameDial t t'' :=
  ⟨h'.width.trans h.width, h'.counter.trans h.counter, h'.autoAdvance.trans h.autoAdvance,
    h'.channels.trans h.channels⟩

/-- Timers of the `SameDial` have it after moving on as far. -/
theorem advance {t t' : SimTimer} (h : SameDial t t') (ticks : Nat) :
    SameDial (t.advance ticks) (t'.advance ticks) where
  width := h.width
  counter := by
    show t'.width.offset t'.counter ticks = t.width.offset t.counter ticks
    rw [h.width, h.counter]
  autoAdvance := h.autoAdvance
  channels := h.channels

/-- Entering a masked section leaves the `SameDial`. -/
theorem enter (t : SimTimer) : SameDial t (IrqMask.enter t).2 := by
  unfold IrqMask.enter
  split <;> exact ⟨rfl, rfl, rfl, rfl⟩

/-- Leaving a masked section leaves the `SameDial`. -/
theorem leave (restore : Bool) (t : SimTimer) : SameDial t (IrqMask.leave restore t) := by
  unfold IrqMask.leave
  split <;> exact ⟨rfl, rfl, rfl, rfl⟩

/-- Timers of the `SameDial` are as far from each channel by `ticksUntil?`. -/
theorem ticksUntil? {t t' : SimTimer} (h : SameDial t t') (channel : Nat) :
    t'.ticksUntil? channel = t.ticksUntil? channel := by
  unfold SimTimer.ticksUntil? SimTimer.compare?
  rw [h.width, h.counter, h.channels]

end SimTimer.SameDial

namespace Scheduler

variable {K : Type} {n : Nat}

/-- The scheduler `s'` has the configuration and the fallback distance of `s`, and its clock and its
timer are set up as those are. -/
structure SameSetup (s s' : Scheduler SimTimer K n) : Prop where
  config : s'.config = s.config
  fallbackTicks : s'.fallbackTicks = s.fallbackTicks
  clockWidth : s'.clock.width = s.clock.width
  tickHz : s'.clock.tickHz = s.clock.tickHz
  width : s'.hw.width = s.hw.width
  autoAdvance : s'.hw.autoAdvance = s.hw.autoAdvance

/-- `armAhead` changes neither the counter nor how the timer is set up. -/
theorem armAhead_hw (s : Scheduler SimTimer K n) (channel ticks : Nat) :
    (s.armAhead channel ticks).hw.width = s.hw.width ∧
      (s.armAhead channel ticks).hw.counter = s.hw.counter ∧
      (s.armAhead channel ticks).hw.autoAdvance = s.hw.autoAdvance := by
  show (s.hw.armChannel channel _).width = _ ∧ (s.hw.armChannel channel _).counter = _ ∧
    (s.hw.armChannel channel _).autoAdvance = _
  unfold SimTimer.armChannel
  split <;> exact ⟨rfl, rfl, rfl⟩

/-- Every operation leaves a scheduler of the `SameSetup`. -/
theorem frame_sameSetup :
    Frame (SameSetup : Scheduler SimTimer K n → Scheduler SimTimer K n → Prop) where
  refl _ := ⟨rfl, rfl, rfl, rfl, rfl, rfl⟩
  trans h h' := ⟨h'.config.trans h.config, h'.fallbackTicks.trans h.fallbackTicks,
    h'.clockWidth.trans h.clockWidth, h'.tickHz.trans h.tickHz, h'.width.trans h.width,
    h'.autoAdvance.trans h.autoAdvance⟩
  enter s :=
    have h := SimTimer.SameDial.enter s.hw
    ⟨rfl, rfl, rfl, rfl, h.width, h.autoAdvance⟩
  leave restore s :=
    have h := SimTimer.SameDial.leave restore s.hw
    ⟨rfl, rfl, rfl, rfl, h.width, h.autoAdvance⟩
  sync s := by
    unfold sync
    split <;> exact ⟨rfl, rfl, rfl, rfl, rfl, rfl⟩
  arm s channel ticks :=
    have h := s.armAhead_hw channel ticks
    ⟨rfl, rfl, rfl, rfl, h.1, h.2.2⟩
  contents _ _ _ _ _ := ⟨rfl, rfl, rfl, rfl, rfl, rfl⟩
  restart _ _ _ := ⟨rfl, rfl, rfl, rfl, rfl, rfl⟩

/-- If the counter of `s` does not move by itself, that of `s'` is where it was. -/
def StandsStill (s s' : Scheduler SimTimer K n) : Prop :=
  s.hw.autoAdvance = 0 → s'.hw.autoAdvance = 0 ∧ s'.hw.counter = s.hw.counter

/-- No operation moves a counter that does not move by itself, so that `StandsStill` holds. -/
theorem frame_standsStill :
    Frame (StandsStill : Scheduler SimTimer K n → Scheduler SimTimer K n → Prop) where
  refl _ hstill := ⟨hstill, rfl⟩
  trans h h' hstill :=
    have hfirst := h hstill
    have hsecond := h' hfirst.1
    ⟨hsecond.1, hsecond.2.trans hfirst.2⟩
  enter s hstill :=
    have h := SimTimer.SameDial.enter s.hw
    ⟨h.autoAdvance.trans hstill, h.counter⟩
  leave restore s hstill :=
    have h := SimTimer.SameDial.leave restore s.hw
    ⟨h.autoAdvance.trans hstill, h.counter⟩
  sync s hstill := by
    have hread : TimerHardware.readCounter s.hw = (s.hw.counter, s.hw) :=
      SimTimer.readCounter_of_still hstill
    unfold sync
    split
    · exact ⟨hstill, rfl⟩
    · rw [hread]
      exact ⟨hstill, rfl⟩
  arm s channel ticks hstill :=
    have h := s.armAhead_hw channel ticks
    ⟨h.2.2.trans hstill, h.2.1⟩
  contents _ _ _ _ _ hstill := ⟨hstill, rfl⟩
  restart _ _ _ hstill := ⟨hstill, rfl⟩

/-- The counter stands still unless it is told to move, and the `clock` reads it. -/
structure Legible (s : Scheduler SimTimer K n) : Prop where
  /-- The counter does not move by itself. -/
  still : s.hw.autoAdvance = 0
  /-- The clock reads this counter. -/
  width : s.clock.width = s.hw.width

namespace Legible

variable {s s' : Scheduler SimTimer K n}

/-- A scheduler of the `SameSetup` as one that is `Legible` is so too. -/
theorem of_sameSetup (h : Legible s) (hsame : SameSetup s s') : Legible s' where
  still := hsame.autoAdvance.trans h.still
  width := (hsame.clockWidth.trans h.width).trans hsame.width.symm

theorem entered (h : Legible s) : Legible s.entered :=
  h.of_sameSetup (frame_sameSetup.enter s)

/-- The counter of a scheduler that is `Legible` stands at a reading of the clock. -/
theorem counter_lt (h : Legible s) : s.hw.counter < s.clock.width.modulus :=
  h.width ▸ s.hw.counter_lt

end Legible

/-- The counter stands still unless it is told to move, the `clock` reads it, and the fallback
channel is one that the timer has and that comes before the counter has made half a turn. -/
structure Fitted (s : Scheduler SimTimer K n) : Prop where
  /-- The counter does not move by itself. -/
  still : s.hw.autoAdvance = 0
  /-- The clock reads this counter. -/
  width : s.clock.width = s.hw.width
  /-- The fallback channel exists. -/
  fallback_lt : s.config.fallbackChannel < 4
  /-- The fallback distance is at most half a turn. -/
  fallbackTicks_le : s.fallbackTicks ≤ s.hw.width.mask / 2

/-- The scheduler is `Fitted` and set up as a constructor accepts it, on channels that the timer
has. -/
structure Wired (s : Scheduler SimTimer K n) : Prop extends Fitted s where
  /-- The primary channel exists. -/
  primary_lt : s.config.primaryChannel < 4
  /-- The two are different. -/
  channels_ne : s.config.primaryChannel ≠ s.config.fallbackChannel
  /-- The least distance is not zero. -/
  minArm_pos : 0 < s.config.minArmTicks

/-- A scheduler that is `Fitted` is `Legible`. -/
theorem Fitted.legible {s : Scheduler SimTimer K n} (h : Fitted s) : Legible s := ⟨h.still, h.width⟩

/-- A scheduler of the `SameSetup` as one that is `Fitted` is so too. -/
theorem Fitted.of_sameSetup {s s' : Scheduler SimTimer K n} (h : Fitted s)
    (hsame : SameSetup s s') : Fitted s' where
  still := hsame.autoAdvance.trans h.still
  width := (hsame.clockWidth.trans h.width).trans hsame.width.symm
  fallback_lt := hsame.config ▸ h.fallback_lt
  fallbackTicks_le := by
    rw [hsame.fallbackTicks, hsame.width]
    exact h.fallbackTicks_le

/-- A scheduler of the `SameSetup` as one that is `Wired` is so too. -/
theorem Wired.of_sameSetup {s s' : Scheduler SimTimer K n} (h : Wired s) (hsame : SameSetup s s') :
    Wired s' where
  toFitted := h.toFitted.of_sameSetup hsame
  primary_lt := hsame.config ▸ h.primary_lt
  channels_ne := hsame.config ▸ h.channels_ne
  minArm_pos := hsame.config ▸ h.minArm_pos

/-- The `fallbackTicks` of a scheduler that is `Fitted` are less than a turn. -/
theorem Fitted.fallbackTicks_lt {s : Scheduler SimTimer K n} (h : Fitted s) :
    s.fallbackTicks < s.hw.width.modulus := by
  have hle := h.fallbackTicks_le
  have hpos := s.hw.width.modulus_pos
  unfold CounterWidth.mask at hle
  omega

/-! ## Reading the clock -/

/-- `sync` observes the counter where it is, if that stands still. -/
theorem sync_eq {s : Scheduler SimTimer K n} (hstill : s.hw.autoAdvance = 0)
    (hactive : s.suspended = false) : s.sync = { s with clock := s.clock.sync s.hw.counter } := by
  have hread : TimerHardware.readCounter s.hw = (s.hw.counter, s.hw) :=
    SimTimer.readCounter_of_still hstill
  unfold sync
  rw [if_neg (by rw [hactive]; decide), hread]

/-- `sync` does nothing to a clock that shows the counter. -/
theorem sync_of_reading {s : Scheduler SimTimer K n} (hstill : s.hw.autoAdvance = 0)
    (hreading : s.clock.reading = s.hw.counter) : s.sync = s := by
  cases hactive : s.suspended with
  | true => exact if_pos hactive
  | false => rw [sync_eq hstill hactive, ← hreading, Clock.sync_self]

/-- `timeUs` reads the time that a clock has which shows the counter. -/
theorem timeUs_of_reading {s : Scheduler SimTimer K n} (hstill : s.hw.autoAdvance = 0)
    (hreading : s.clock.reading = s.hw.counter) : s.timeUs.1 = s.clock.timeUs := by
  have hdial := SimTimer.SameDial.enter s.hw
  have hsync : s.entered.sync = s.entered :=
    sync_of_reading (hdial.autoAdvance.trans hstill) (hreading.trans hdial.counter.symm)
  show s.entered.sync.clock.timeUs = s.clock.timeUs
  rw [hsync]
  rfl

/-- `rearm` does not touch a clock that shows the counter. -/
theorem rearm_clock {s : Scheduler SimTimer K n} (hstill : s.hw.autoAdvance = 0)
    (hreading : s.clock.reading = s.hw.counter) : s.rearm.clock = s.clock := by
  have hsync : s.refresh.sync = s.refresh := sync_of_reading hstill hreading
  unfold rearm
  split
  · rfl
  · rw [hsync]
    exact s.refresh.armPrimary_clock

/-- After `sync` the clock shows the counter, if that stands still. -/
theorem sync_reading {s : Scheduler SimTimer K n} (hstill : s.hw.autoAdvance = 0)
    (hwidth : s.clock.width = s.hw.width) (hactive : s.suspended = false) :
    s.sync.clock.reading = s.sync.hw.counter := by
  rw [sync_eq hstill hactive]
  show s.clock.width.reduce s.hw.counter = s.hw.counter
  rw [hwidth]
  exact CounterWidth.reduce_of_lt s.hw.counter_lt

end Scheduler

end SoftTimer
