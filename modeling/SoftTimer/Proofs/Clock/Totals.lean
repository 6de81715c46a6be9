import Mathlib.Data.List.Induction
import Mathlib.Algebra.GroupWithZero.Nat
import SoftTimer.Proofs.Clock.Ticks

/-!
# What the clock shows in the end

A clock is made, observes its counter and is credited with intervals, in any order
(`Clock.after`). The main statement is `Clock.after_exact`. What the clock then shows is what the
steps add up to, rounded down once: the ticks between one reading and the next, all of them
together, and the intervals. The fractions carried from step to step cancel out, so it makes no
difference how the ticks were split up between the readings.

The steps are added up without a clock, on numbers that neither saturate nor wrap: `ClockStep.ticks`
and `ClockStep.turns` look at the pairs of successive readings alone.
-/

namespace SoftTimer

namespace CounterWidth

variable {w : CounterWidth} {start stop : Nat}

/-- `w.elapsed start stop` is the difference between the readings, taken modulo a turn. -/
theorem elapsed_eq (h : start < w.modulus) (h' : stop < w.modulus) :
    w.elapsed start stop = (((stop : ℤ) - start) % w.modulus).toNat := by
  have hdistance : ((stop + w.modulus - start : ℕ) : ℤ) = stop - start + w.modulus := by omega
  unfold elapsed
  rw [reduce_of_lt h, reduce_of_lt h', ← Int.add_emod_right, ← hdistance, ← Int.natCast_emod,
    Int.toNat_natCast]

/-- From a reading to a lower one the counter wraps, and `elapsed` is a turn more than the
difference. -/
theorem add_elapsed (h : start < w.modulus) (h' : stop < w.modulus) :
    start + w.elapsed start stop = stop + if stop < start then w.modulus else 0 := by
  unfold elapsed
  rw [reduce_of_lt h, reduce_of_lt h']
  split
  · next hbelow => rw [Nat.mod_eq_of_lt (by omega)]; omega
  · next habove => rw [Nat.mod_eq_sub_mod (by omega), Nat.mod_eq_of_lt (by omega)]; omega

end CounterWidth

/-- What may be done to a clock as time goes on: `observe` the counter, or `credit` an interval. -/
inductive ClockStep where
  /-- The counter is observed. -/
  | observe (raw : Nat)
  /-- An interval that was measured by other means is credited. -/
  | credit (us : Nat)
deriving DecidableEq, Repr

/-! ## What the steps add up to -/

namespace ClockStep

/-- `step.reading? w` is the reading that a step observes. -/
def reading? (w : CounterWidth) : ClockStep → Option Nat
  | observe raw => some (raw % w.modulus)
  | credit _ => none

/-- `step.interval` is the interval that a step credits. -/
def interval : ClockStep → Nat
  | observe _ => 0
  | credit us => us

/-- Each reading with the one before it; before the first the counter stood at `last`. -/
def successive (last : Nat) : List Nat → List (Nat × Nat)
  | [] => []
  | reading :: rest => (last, reading) :: successive reading rest

variable (w : CounterWidth) (steps : List ClockStep)

/-- `readings w steps` are the readings observed. -/
def readings : List Nat := steps.filterMap (reading? w)

/-- `lastReading w steps` is the last reading observed; the counter of a new clock stands at zero.
-/
def lastReading : Nat := (readings w steps).getLastD 0

/-- `moves w steps` pairs each reading observed with the one before it. -/
def moves : List (Nat × Nat) := successive 0 (readings w steps)

/-- `ticks w steps` is how far the counter has moved on, each time by less than a turn. -/
def ticks : Nat := ((moves w steps).map fun m => (((m.2 : ℤ) - m.1) % w.modulus).toNat).sum

/-- `turns w steps` is how often a reading was below the one before it. -/
def turns : Nat := (moves w steps).countP fun m => m.2 < m.1

/-- `credited steps` is the sum of the intervals credited. -/
def credited : Nat := (steps.map interval).sum

/-- `total w steps hz` is the microseconds that all ticks and intervals are worth, at `hz` ticks per
second. -/
def total (hz : Nat) : Nat := ticks w steps * usPerSecond / max hz 1 + credited steps

variable {w steps}

/-- The last of the `successive` pairs is that of the last reading and the one before it. -/
theorem successive_append (last : Nat) (before : List Nat) (reading : Nat) :
    successive last (before ++ [reading]) =
      successive last before ++ [(before.getLastD last, reading)] := by
  induction before generalizing last with
  | nil => rfl
  | cons first rest ih =>
    rw [List.cons_append, successive, ih, successive, List.cons_append, List.getLastD_cons]

/-- `lastReading` is a reading that the counter has. -/
theorem lastReading_lt : lastReading w steps < w.modulus := by
  unfold lastReading
  rw [List.getLastD_eq_getLast?]
  cases hlast : (readings w steps).getLast? with
  | none => exact w.modulus_pos
  | some reading =>
    obtain ⟨step, -, hstep⟩ := List.mem_filterMap.mp (List.mem_of_getLast? hlast)
    cases step with
    | observe raw =>
      cases hstep
      exact Nat.mod_lt _ w.modulus_pos
    | credit us => cases hstep

section Snoc

variable (w steps)

theorem lastReading_observe (raw : Nat) :
    lastReading w (steps ++ [observe raw]) = raw % w.modulus := by
  unfold lastReading readings
  rw [List.filterMap_append]
  exact List.getLastD_concat

theorem lastReading_credit (us : Nat) :
    lastReading w (steps ++ [credit us]) = lastReading w steps := by
  unfold lastReading readings
  rw [List.filterMap_append]
  exact congrArg (List.getLastD · 0) (List.append_nil _)

theorem moves_observe (raw : Nat) :
    moves w (steps ++ [observe raw]) =
      moves w steps ++ [(lastReading w steps, raw % w.modulus)] := by
  unfold moves readings
  rw [List.filterMap_append]
  exact successive_append _ _ _

theorem moves_credit (us : Nat) : moves w (steps ++ [credit us]) = moves w steps := by
  unfold moves readings
  rw [List.filterMap_append]
  exact congrArg (successive 0) (List.append_nil _)

theorem credited_observe (raw : Nat) : credited (steps ++ [observe raw]) = credited steps := by
  unfold credited
  rw [List.map_append, List.sum_append]
  rfl

theorem credited_credit (us : Nat) : credited (steps ++ [credit us]) = credited steps + us := by
  unfold credited
  rw [List.map_append, List.sum_append]
  rfl

theorem ticks_credit (us : Nat) : ticks w (steps ++ [credit us]) = ticks w steps := by
  unfold ticks
  rw [moves_credit]

theorem turns_credit (us : Nat) : turns w (steps ++ [credit us]) = turns w steps := by
  unfold turns
  rw [moves_credit]

/-- One reading more adds to `ticks` its distance from the one before it. -/
theorem ticks_observe (raw : Nat) :
    ticks w (steps ++ [observe raw]) =
      ticks w steps + w.elapsed (lastReading w steps) (w.reduce raw) := by
  have hlast : lastReading w steps < w.modulus := lastReading_lt
  have hdistance := CounterWidth.elapsed_eq hlast (w.reduce_lt raw)
  unfold ticks
  rw [moves_observe, List.map_append, List.sum_append, hdistance]
  rfl

/-- One reading more adds to `turns` if it is below the one before it. -/
theorem turns_observe (raw : Nat) :
    turns w (steps ++ [observe raw]) =
      turns w steps + if w.reduce raw < lastReading w steps then 1 else 0 := by
  unfold turns
  rw [moves_observe, List.countP_append, List.countP_singleton]
  simp only [decide_eq_true_eq]
  rfl

end Snoc

/-- `ticks` is made up of all turns and of the part of a turn that the counter stands at. -/
theorem ticks_eq (w : CounterWidth) (steps : List ClockStep) :
    ticks w steps = turns w steps * w.modulus + lastReading w steps := by
  induction steps using List.reverseRecOn with
  | nil => exact (Nat.zero_mul _).symm
  | append_singleton before step ih =>
    cases step with
    | credit us => rw [ticks_credit, turns_credit, lastReading_credit, ih]
    | observe raw =>
      have hbefore : lastReading w before < w.modulus := lastReading_lt
      have hstep := CounterWidth.add_elapsed hbefore (w.reduce_lt raw)
      have hlast : lastReading w (before ++ [observe raw]) = w.reduce raw :=
        lastReading_observe w before raw
      rw [ticks_observe, turns_observe, hlast, ih, Nat.add_assoc, hstep]
      split_ifs
      · rw [Nat.add_one_mul]
        omega
      · rw [Nat.add_zero, Nat.add_zero]

/-- More steps add to the `total`. -/
theorem total_le_append (w : CounterWidth) (steps more : List ClockStep) (hz : Nat) :
    total w steps hz ≤ total w (steps ++ more) hz := by
  induction more using List.reverseRecOn with
  | nil => rw [List.append_nil]
  | append_singleton before step ih =>
    refine Nat.le_trans ih ?_
    rw [← List.append_assoc]
    unfold total
    cases step with
    | credit us =>
      rw [ticks_credit, credited_credit]
      omega
    | observe raw =>
      rw [ticks_observe, credited_observe]
      exact Nat.add_le_add_right (Nat.div_le_div_right
        (Nat.mul_le_mul_right _ (Nat.le_add_right _ _))) _

end ClockStep

/-! ## What the clock makes of them -/

namespace Clock

open ClockStep

/-- `c.take step` is the clock after a step. -/
def take (c : Clock) : ClockStep → Clock
  | .observe raw => c.sync raw
  | .credit us => c.advanceUs us

/-- `after w hz steps` is a new clock after the steps. -/
def after (w : CounterWidth) (hz : Nat) (steps : List ClockStep) : Clock :=
  steps.foldl take (new w hz)

/-- The time that the clock `c` shows is `us` microseconds, in both of its units. -/
structure Worth (c : Clock) (us : Nat) : Prop where
  /-- The microseconds saturate. -/
  timeUs : c.timeUs = min us max64
  /-- The milliseconds stop at the largest value as well, a thousand times later. -/
  timeMs : c.timeMs = min (us / 1000) max64
  /-- What is not worth a millisecond is kept. -/
  subMs : c.subMs = us % 1000

/-- The clock `c` shows what `steps` add up to. -/
structure Tells (c : Clock) (w : CounterWidth) (hz : Nat) (steps : List ClockStep) : Prop where
  /-- The counter is the same. -/
  width : c.width = w
  /-- The rate is what it was when the clock was made. -/
  tickHz : c.tickHz = max hz 1
  /-- The time is the whole of what the ticks and the intervals are worth. -/
  worth : c.Worth (total w steps hz)
  /-- What the ticks are worth beyond whole microseconds is kept. -/
  subUs : c.subUs = ticks w steps * usPerSecond % max hz 1
  /-- The clock knows where the counter stands. -/
  reading : c.reading = lastReading w steps
  /-- The turns are counted in a word that wraps itself. -/
  wraps : c.wraps = turns w steps % 0x100000000

variable {c : Clock} {w : CounterWidth} {hz : Nat} {steps : List ClockStep}

/-- `advanceUs` adds to the time shown. -/
theorem Worth.advanceUs {total : Nat} (h : c.Worth total) (us : Nat) :
    (c.advanceUs us).Worth (total + us) where
  timeUs := by
    show sat64 (c.timeUs + us) = _
    rw [h.timeUs]
    exact sat64_sat64_add total us
  timeMs := by
    have hwhole : total / 1000 + (total % 1000 + us) / 1000 = (total + us) / 1000 := by omega
    show sat64 (c.timeMs + (c.subMs + us) / 1000) = _
    rw [h.timeMs, h.subMs, ← hwhole]
    exact sat64_sat64_add _ _
  subMs := by
    show (c.subMs + us) % 1000 = _
    rw [h.subMs, Nat.mod_add_mod]

/-- `advanceUs` changes nothing but the time, as `credit` does to the sums. -/
theorem Tells.credit (h : c.Tells w hz steps) (us : Nat) :
    (c.advanceUs us).Tells w hz (steps ++ [.credit us]) := by
  have htotal : total w (steps ++ [.credit us]) hz = total w steps hz + us := by
    unfold total
    rw [ticks_credit, credited_credit, Nat.add_assoc]
  constructor
  case width => exact h.width
  case tickHz => exact h.tickHz
  case worth => exact htotal ▸ h.worth.advanceUs us
  case subUs => exact (ticks_credit w steps us).symm ▸ h.subUs
  case reading => exact (lastReading_credit w steps us).symm ▸ h.reading
  case wraps => exact (turns_credit w steps us).symm ▸ h.wraps

/-- `sync` adds the ticks since the last reading, and takes up what was left over of those before.
-/
theorem Tells.observe (h : c.Tells w hz steps) (raw : Nat) :
    (c.sync raw).Tells w hz (steps ++ [.observe raw]) := by
  set gone := w.elapsed (lastReading w steps) (w.reduce raw) with hgone
  have hscaled : (ticks w steps + gone) * usPerSecond =
      ticks w steps * usPerSecond + gone * usPerSecond := Nat.add_mul _ _ _
  obtain ⟨hwhole, hrest⟩ := div_add_div_mod (Nat.lt_of_lt_of_le Nat.one_pos (le_max_right hz 1))
    (ticks w steps * usPerSecond) (gone * usPerSecond)
  have htotal : total w (steps ++ [.observe raw]) hz = total w steps hz +
      (gone * usPerSecond + ticks w steps * usPerSecond % max hz 1) / max hz 1 := by
    unfold total
    rw [ticks_observe, credited_observe, ← hgone, hscaled, ← hwhole]
    omega
  -- What is credited is what the clock has carried and what is new, divided once.
  have hcredit : (c.width.elapsed c.reading (c.width.reduce raw) * usPerSecond + c.subUs) =
      gone * usPerSecond + ticks w steps * usPerSecond % max hz 1 := by
    rw [h.width, h.reading, h.subUs]
  constructor
  case width => exact h.width
  case tickHz => exact h.tickHz
  case worth =>
    have hadvanced := h.worth.advanceUs
      ((gone * usPerSecond + ticks w steps * usPerSecond % max hz 1) / max hz 1)
    rw [← htotal, ← hcredit, ← h.tickHz] at hadvanced
    exact ⟨hadvanced.timeUs, hadvanced.timeMs, hadvanced.subMs⟩
  case subUs =>
    show (c.width.elapsed c.reading (c.width.reduce raw) * usPerSecond + c.subUs) % c.tickHz = _
    rw [hcredit, h.tickHz, ticks_observe, hscaled, hrest]
  case reading =>
    rw [lastReading_observe, sync_reading, h.width]
    rfl
  case wraps =>
    show (if c.width.reduce raw < c.reading then (c.wraps + 1) % 0x100000000 else c.wraps) = _
    rw [turns_observe, h.width, h.reading, h.wraps]
    split <;> omega

theorem after_append (w : CounterWidth) (hz : Nat) (steps more : List ClockStep) :
    after w hz (steps ++ more) = more.foldl take (after w hz steps) := List.foldl_append

/-- A clock `after` its steps shows what they add up to. -/
theorem after_tells (w : CounterWidth) (hz : Nat) (steps : List ClockStep) :
    (after w hz steps).Tells w hz steps := by
  induction steps using List.reverseRecOn with
  | nil =>
    have hticks : 0 * usPerSecond = 0 := Nat.zero_mul _
    have htotal : total w [] hz = 0 := by
      show 0 * usPerSecond / max hz 1 + 0 = 0
      rw [hticks, Nat.zero_div]
    have hsub : ticks w [] * usPerSecond % max hz 1 = 0 := by
      show 0 * usPerSecond % max hz 1 = 0
      rw [hticks, Nat.zero_mod]
    exact ⟨rfl, rfl, htotal ▸ ⟨rfl, rfl, rfl⟩, hsub.symm, rfl, rfl⟩
  | append_singleton before step ih =>
    rw [after_append]
    cases step with
    | observe raw => exact ih.observe raw
    | credit us => exact ih.credit us

/-- `Tells` says all that there is to say of a clock. -/
theorem Tells.unique {c' : Clock} (h : c.Tells w hz steps) (h' : c'.Tells w hz steps) : c' = c := by
  ext
  case width => rw [h.width, h'.width]
  case tickHz => rw [h.tickHz, h'.tickHz]
  case reading => rw [h.reading, h'.reading]
  case wraps => rw [h.wraps, h'.wraps]
  case timeUs => rw [h.worth.timeUs, h'.worth.timeUs]
  case timeMs => rw [h.worth.timeMs, h'.worth.timeMs]
  case subMs => rw [h.worth.subMs, h'.worth.subMs]
  case subUs => rw [h.subUs, h'.subUs]

/-- As many ticks and as much credit show the same, however they were split up into steps. -/
theorem Tells.regroup {other : List ClockStep} (h : c.Tells w hz other)
    (hticks : ticks w other = ticks w steps) (hcredited : credited other = credited steps) :
    c.Tells w hz steps := by
  -- The ticks say how many turns they make, and where the counter stands in the end.
  have hsplit : w.modulus * turns w other + lastReading w other =
      w.modulus * turns w steps + lastReading w steps := by
    rw [Nat.mul_comm, Nat.mul_comm _ (turns w steps), ← ticks_eq, ← ticks_eq, hticks]
  have hturns : turns w other = turns w steps := by
    have hdiv := congrArg (· / w.modulus) hsplit
    simpa only [Nat.mul_add_div w.modulus_pos, Nat.div_eq_of_lt lastReading_lt, Nat.add_zero]
      using hdiv
  have hlast : lastReading w other = lastReading w steps := by
    rw [hturns] at hsplit
    exact Nat.add_left_cancel hsplit
  have htotal : total w other hz = total w steps hz := by
    unfold total
    rw [hticks, hcredited]
  exact ⟨h.width, h.tickHz, htotal ▸ h.worth, hticks ▸ h.subUs, hlast ▸ h.reading,
    hturns ▸ h.wraps⟩

/-- `sync` at the last reading changes nothing, whatever else the raw value holds. -/
theorem sync_of_reading {raw : Nat} (h : c.width.reduce raw = c.reading) : c.sync raw = c := by
  simp only [sync, h, CounterWidth.elapsed_self, Nat.lt_irrefl, if_false, advanceTicks_zero]

/-- What holds of a clock after its steps. The `total` is a number of microseconds of any size. -/
structure Exact (w : CounterWidth) (hz : Nat) (steps : List ClockStep) : Prop where
  /-- The microseconds are the total, which is rounded down once and saturates. -/
  timeUs : (after w hz steps).timeUs = min (total w steps hz) max64
  /-- The milliseconds are the total in thousands, whether the microseconds have saturated or not.
  -/
  timeMs : (after w hz steps).timeMs = min (total w steps hz / 1000) max64
  /-- The clock has the last reading. -/
  reading : (after w hz steps).reading = lastReading w steps
  /-- The ticks make up whole turns and the last reading. -/
  ticks : ticks w steps = turns w steps * w.modulus + (after w hz steps).reading
  /-- The clock has counted these turns. -/
  wraps : (after w hz steps).wraps = turns w steps % 0x100000000
  /-- The whole clock is the same after any other steps with as many ticks and as much credit. -/
  regroup : ∀ other : List ClockStep, ClockStep.ticks w other = ClockStep.ticks w steps →
    credited other = credited steps → after w hz other = after w hz steps
  /-- Observing the same reading again changes nothing. -/
  again : ∀ raw, w.reduce raw = (after w hz steps).reading →
    (after w hz steps).sync raw = after w hz steps
  /-- The time does not go back. -/
  forward : ∀ more, (after w hz steps).timeUs ≤ (after w hz (steps ++ more)).timeUs ∧
    (after w hz steps).timeMs ≤ (after w hz (steps ++ more)).timeMs

/-- A clock shows what all its steps add up to, and nothing else: how the ticks were split up
between the readings makes no difference. -/
theorem after_exact (w : CounterWidth) (hz : Nat) (steps : List ClockStep) : Exact w hz steps := by
  have htells := after_tells w hz steps
  constructor
  case timeUs => exact htells.worth.timeUs
  case timeMs => exact htells.worth.timeMs
  case reading => exact htells.reading
  case ticks => rw [htells.reading, ticks_eq]
  case wraps => exact htells.wraps
  case regroup =>
    intro other hticks hcredited
    exact htells.unique ((after_tells w hz other).regroup hticks hcredited)
  case again =>
    intro raw hraw
    exact sync_of_reading (htells.width.symm ▸ hraw)
  case forward =>
    intro more
    have hmore := (after_tells w hz (steps ++ more)).worth
    have htotal := total_le_append w steps more hz
    rw [hmore.timeUs, hmore.timeMs, htells.worth.timeUs, htells.worth.timeMs]
    exact ⟨sat64_mono htotal, sat64_mono (Nat.div_le_div_right htotal)⟩

/-- A tick is worth a third of a second, and 65537 of them are rounded down once. The counter wraps
before the last two. -/
example :
    (after .bits16 3 [.observe 0xffff, .observe 1]).timeUs = 65537 * usPerSecond / 3 ∧
      (after .bits16 3 [.observe 0xffff, .observe 1]).wraps = 1 := by
  decide

end Clock

end SoftTimer
