import SoftTimer.Proofs.Clock.Totals

/-!
# What hand-overs cost a clock

Before deep sleep the counter is observed once more, and time tracking is handed over. When it is
taken back straight away, the clock goes on from the last reading with no time credited
(`Clock.Course.takeBack`). The ticks since that reading are not lost, for they are credited when the
counter is observed next. What is lost is what was left over, which was not yet worth a microsecond.

The exact account (`Clock.Spent`) has three entries: the time shown, what is left over, and what was
lost. Together they make up the ticks there have been. A reading moves ticks into the first two, and
a hand-over moves what is left over to what was lost, so each adds less than a microsecond to that.
The bounds on the time (`Clock.Sparing`) are read off the account in the end.
-/

namespace SoftTimer.Clock

variable {c : Clock} {w : CounterWidth} {hz ticks handovers : Nat}

/-- The course of a clock: what comes of it as its counter moves on by so many ticks, and time
tracking is handed over and straight back so many times. Both numbers are indices of `Course`. -/
inductive Course (w : CounterWidth) (hz : Nat) : Nat → Nat → Clock → Prop
  /-- The clock is made, and starts from where the counter stands. -/
  | start (raw : Nat) : Course w hz 0 0 ((new w hz).resync raw)
  /-- The counter has moved on by less than a turn, and is observed. -/
  | sync {ticks handovers : Nat} {c : Clock} {more raw : Nat} (hmore : more < w.modulus)
    (hraw : w.reduce raw = w.offset c.reading more) (h : Course w hz ticks handovers c) :
    Course w hz (ticks + more) handovers (c.sync raw)
  /-- Time tracking is taken back: the clock goes on from the last reading, and no time is credited.
  -/
  | takeBack {ticks handovers : Nat} {c : Clock} (h : Course w hz ticks handovers c) :
    Course w hz ticks (handovers + 1) ((c.resync c.reading).advanceUs 0)

/-! ## The account -/

/-- The time shown, `us`, what is left over and what was `lost` make up the `ticks` there have been.
-/
structure Spent (c : Clock) (ticks handovers us lost : Nat) : Prop where
  /-- The clock shows so many microseconds, unless it has stopped at the end of time. -/
  worth : c.Worth us
  /-- No part of a tick is missing. -/
  account : us * c.tickHz + c.subUs + lost = ticks * usPerSecond
  /-- In each hand-over less than a microsecond was lost. -/
  lost_le : lost ≤ handovers * (c.tickHz - 1)

/-- `resync` at the last reading leaves nothing over. -/
theorem resync_reading (c : Clock) :
    (c.resync c.reading).advanceUs 0 = c.leaving 0 c.tickHz_pos := by
  rw [advanceUs_zero]
  ext
  case reading => exact CounterWidth.reduce_of_lt c.reading_lt
  all_goals rfl

namespace Spent

variable {us lost : Nat}

/-- `tick` credits ticks, and what is not worth a microsecond is left over. -/
theorem tick (h : Spent c ticks handovers us lost) {more : Nat} (hmore : more < c.width.modulus) :
    Spent (c.tick more) (ticks + more) handovers
      (us + (more * usPerSecond + c.subUs) / c.tickHz) lost := by
  have hdiv := Nat.div_add_mod' (more * usPerSecond + c.subUs) c.tickHz
  have haccount := h.account
  rw [c.tick_eq hmore, advanceTicks_eq]
  constructor
  case worth =>
    refine Worth.advanceUs ?_ _
    exact ⟨h.worth.timeUs, h.worth.timeMs, h.worth.subMs⟩
  case account =>
    show (us + (more * usPerSecond + c.subUs) / c.tickHz) * c.tickHz +
      (more * usPerSecond + c.subUs) % c.tickHz + lost = (ticks + more) * usPerSecond
    rw [Nat.add_mul us, Nat.add_mul ticks]
    omega
  case lost_le => exact h.lost_le

/-- `resync` at the last reading loses what is left over. -/
theorem takeBack (h : Spent c ticks handovers us lost) :
    Spent ((c.resync c.reading).advanceUs 0) ticks (handovers + 1) us (lost + c.subUs) := by
  have haccount := h.account
  have hlost := h.lost_le
  have hsub := c.subUs_lt
  rw [resync_reading]
  constructor
  case worth => exact ⟨h.worth.timeUs, h.worth.timeMs, h.worth.subMs⟩
  case account =>
    show us * c.tickHz + 0 + (lost + c.subUs) = _
    omega
  case lost_le =>
    show lost + c.subUs ≤ (handovers + 1) * (c.tickHz - 1)
    rw [Nat.add_one_mul]
    omega

end Spent

/-- The width and the rate of a clock do not change in a `Course`, and the account can be drawn up
at any time. -/
theorem Course.spent (h : Course w hz ticks handovers c) :
    c.width = w ∧ c.tickHz = max hz 1 ∧ ∃ us lost, Spent c ticks handovers us lost := by
  induction h with
  | start raw =>
    refine ⟨rfl, rfl, 0, 0, ⟨rfl, rfl, rfl⟩, ?_, Nat.zero_le _⟩
    rw [Nat.zero_mul, Nat.zero_mul]
    rfl
  | @sync ticks handovers c more raw hmore hraw _ ih =>
    obtain ⟨rfl, hrate, us, lost, hspent⟩ := ih
    have htick : c.sync raw = c.tick more := by
      rw [← c.sync_reduce, hraw]
      rfl
    rw [htick]
    exact ⟨rfl, hrate, _, _, hspent.tick hmore⟩
  | takeBack _ ih =>
    obtain ⟨hwidth, hrate, us, lost, hspent⟩ := ih
    exact ⟨hwidth, hrate, _, _, hspent.takeBack⟩

/-! ## The bounds -/

/-- The clock has lost less than a microsecond in each of its `handovers`, and has gained nothing.
-/
structure Sparing (c : Clock) (hz ticks handovers : Nat) : Prop where
  /-- The time shown is no more than the ticks are worth. -/
  timeUs_le : c.timeUs ≤ ticks * usPerSecond / hz
  /-- Until it saturates it shows no less than that but for one microsecond for each hand-over. -/
  le_timeUs : c.timeUs < max64 → ticks * usPerSecond / hz - handovers ≤ c.timeUs
  /-- What is missing is what is left over, and less than a microsecond for each hand-over. -/
  lost_le : c.timeUs < max64 →
    ticks * usPerSecond ≤ c.timeUs * hz + c.subUs + handovers * (hz - 1)
  /-- The milliseconds are those of the microseconds shown. -/
  timeMs : c.timeUs < max64 → ∃ rest < 1000, c.timeUs = 1000 * c.timeMs + rest

/-- The bounds of `Sparing` are read off the account. -/
theorem Spent.sparing {us lost : Nat} (h : Spent c ticks handovers us lost) :
    c.Sparing c.tickHz ticks handovers := by
  have hshown := h.worth.timeUs
  have haccount := h.account
  have hlost := h.lost_le
  have hsub := c.subUs_lt
  -- Before the end of time the clock shows all of the microseconds.
  have hall : c.timeUs < max64 → us = c.timeUs := fun hbefore => by omega
  constructor
  case timeUs_le =>
    have hle : us ≤ ticks * usPerSecond / c.tickHz := by
      rw [Nat.le_div_iff_mul_le c.tickHz_pos]
      omega
    omega
  case le_timeUs =>
    intro hbefore
    have hlt : ticks * usPerSecond / c.tickHz < us + handovers + 1 := by
      have hturns : handovers * (c.tickHz - 1) ≤ handovers * c.tickHz :=
        Nat.mul_le_mul_left _ (Nat.sub_le _ _)
      rw [Nat.div_lt_iff_lt_mul c.tickHz_pos, Nat.add_one_mul, Nat.add_mul]
      omega
    have heq := hall hbefore
    omega
  case lost_le =>
    intro hbefore
    rw [← hall hbefore]
    omega
  case timeMs =>
    intro hbefore
    have heq := hall hbefore
    have hms := h.worth.timeMs
    refine ⟨us % 1000, Nat.mod_lt _ (by decide), ?_⟩
    omega

/-- A clock in the course of its life loses less than a microsecond in each of its `handovers`, and
gains nothing. -/
theorem Course.sparing (h : Course w hz ticks handovers c) :
    c.Sparing (max hz 1) ticks handovers := by
  obtain ⟨-, hrate, us, lost, hspent⟩ := h.spent
  exact hrate ▸ hspent.sparing

end SoftTimer.Clock
