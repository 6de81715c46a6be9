import Mathlib.Order.Bounds.Defs
import SoftTimer.Proofs.Dispatch.Resume
import SoftTimer.Proofs.Words.Arithmetic

/-!
# Late events up to the end of time

A late repeating event can be lined up or can catch up, and either way it moves by a whole number of
periods. The main statement is `moves_exactly`. It says which number that is, among numbers of any
size, and what becomes of the event when the time it should move to is not a 64-bit word, or the
number of periods is not one. Time may have reached its last word.

Both moves come down to the occurrences that are due (`Event.occurrencesBy`): lining up leaves the
last of them before the event (`isGreatest_align`), and catching up leaves none
(`isLeast_occurrencesBy`). An event that has been lined up has one due occurrence, so it catches up
by one period and comes to stand where it would have come to stand at once.
-/

namespace SoftTimer.Event

variable {e : Event} {now : Nat}

/-- The number `occurrencesBy` of a late repeating event is the fewest periods that lead beyond
`now`. -/
theorem isLeast_occurrencesBy (hdue : e.timestamp ≤ now) (hrep : e.repeats = true) :
    IsLeast {steps | now < e.timestamp + steps * e.period} (e.occurrencesBy now) :=
  ⟨lt_timestamp_add hdue hrep, fun _ hlate => occurrencesBy_le hlate⟩

/-- `align` moves a late repeating event on by the most periods that do not lead beyond `now`. -/
theorem isGreatest_align (hdue : e.timestamp ≤ now) (hrep : e.repeats = true) :
    IsGreatest {steps | e.timestamp + steps * e.period ≤ now} (e.align now).1 := by
  have hsteps := align_fst_add_one hdue
  refine ⟨timestamp_add_le (align_fst_lt hdue), fun steps hle => ?_⟩
  -- One period more would lead beyond now.
  by_contra hmore
  have hfewest := lt_timestamp_add hdue hrep
  have hmul : e.occurrencesBy now * e.period ≤ steps * e.period :=
    Nat.mul_le_mul_right _ (by omega)
  have hle' : e.timestamp + steps * e.period ≤ now := hle
  omega

/-- `align` leaves an event alone that fires once or is not due. -/
theorem align_of_idle (h : ¬ (e.repeats = true ∧ e.isDue now = true)) : e.align now = (0, e) := by
  unfold align
  rw [if_neg fun hlate => h (Bool.and_eq_true_iff.mp hlate)]

/-- `catchUp` leaves an event alone that fires once or is not due. -/
theorem catchUp_of_idle (h : ¬ (e.repeats = true ∧ e.isDue now = true)) :
    e.catchUp now = (0, e) := by
  unfold catchUp
  rw [if_neg fun hlate => h (Bool.and_eq_true_iff.mp hlate)]

/-- `align` changes nothing the second time. -/
theorem align_align (e : Event) (now : Nat) :
    (e.align now).2.align now = (0, (e.align now).2) := by
  rcases Nat.lt_or_ge now e.timestamp with hlt | hdue
  · rw [align_of_lt hlt, align_of_lt hlt]
  · -- The only occurrence that is due is the one the event stands at.
    have hdue' := (e.timestamp_align_le now).mpr hdue
    have hsteps := align_fst_add_one hdue'
    rw [occurrencesBy_align hdue] at hsteps
    have hzero : ((e.align now).2.align now).1 = 0 := by omega
    have hstays := align_snd_eq_occurrence hdue'
    rw [hzero, occurrence_zero] at hstays
    exact Prod.ext hzero hstays

/-- `advancePast` is refused on the count of periods and on nothing else, and otherwise does what
`catchUp` does. -/
theorem advancePast_eq (e : Event) (now : Nat) :
    e.advancePast now = if (e.catchUp now).1 ≤ max64 then .ok (e.catchUp now)
      else .error .stepCount := rfl

/-- `advancePast` is refused exactly if the count of periods is not a 64-bit word. -/
theorem advancePast_eq_error :
    e.advancePast now = .error .stepCount ↔ max64 < (e.catchUp now).1 := by
  rw [advancePast_eq, ← Nat.not_le]
  split
  · next hle => exact iff_of_false (fun h => by cases h) (not_not_intro hle)
  · next hmany => exact iff_of_true rfl hmany

/-- `advancePast` that is not refused does what `catchUp` does. -/
theorem advancePast_of_not_error (h : e.advancePast now ≠ .error .stepCount) :
    e.advancePast now = .ok (e.catchUp now) := by
  rw [ne_eq, advancePast_eq_error, Nat.not_lt] at h
  rw [advancePast_eq, if_pos h]

/-- A `shift` of an `occurrence` is a `shift` of the event over both. -/
theorem occurrence_shift (e : Event) (i steps : Nat) :
    (e.occurrence i).shift steps = e.shift (i + steps) := by
  unfold occurrence shift
  simp only [Nat.add_mul, Nat.add_assoc]

/-- After `align` a late repeating event has one period to `catchUp`, and comes to stand where it
would have come to stand without. -/
theorem catchUp_align (hdue : e.timestamp ≤ now) (hrep : e.repeats = true) :
    (e.align now).2.catchUp now = (1, (e.catchUp now).2) := by
  have hdue' := (e.timestamp_align_le now).mpr hdue
  have hrep' : (e.align now).2.repeats = true := by
    rw [align_same]
    exact hrep
  rw [catchUp_of_repeats hdue' hrep', catchUp_of_repeats hdue hrep, occurrencesBy_align hdue,
    align_snd_eq_occurrence hdue, occurrence_shift, align_fst_add_one hdue]

/-- How an event that may be late moves, by `advancePast` and by `align`. -/
structure MovesExactly (e : Event) (now : Nat) : Prop where
  /-- An event that fires once or is not due does not move. -/
  idle : ¬ (0 < e.period ∧ e.timestamp ≤ now) →
    e.advancePast now = .ok (0, e) ∧ e.align now = (0, e)
  /-- A late repeating event is lined up by the most periods that do not lead beyond now. Nothing
  changes but its timestamp. -/
  aligned : 0 < e.period → e.timestamp ≤ now → ∃ steps,
    IsGreatest {k | e.timestamp + k * e.period ≤ now} steps ∧
      e.align now = (steps, { e with timestamp := e.timestamp + steps * e.period })
  /-- Nothing that is computed for that fails on words. -/
  aligns : e.align? now = some (e.align now)
  /-- Lining up a second time changes nothing. -/
  settled : (e.align now).2.align now = (0, (e.align now).2)
  /-- One event cannot catch up, at the end of time: it repeats every microsecond from time zero. -/
  refused : e.advancePast now = .error .stepCount ↔
    e.timestamp = 0 ∧ e.period = 1 ∧ now = max64
  /-- A pool that it is pending in stays as it is. -/
  unchanged : ∀ {n : Nat} (p : Pool n) (slot : Nat), p.get? slot = some e →
    e.advancePast now = .error .stepCount → p.advanceSlot slot now = (.error .stepCount, p)
  /-- Any other late repeating event catches up by the fewest periods that lead beyond now, or to
  the end of time if that comes first. Nothing changes but its timestamp, which is then later than
  now, unless now is the end of time. -/
  advanced : 0 < e.period → e.timestamp ≤ now → e.advancePast now ≠ .error .stepCount → ∃ steps,
    IsLeast {k | now < e.timestamp + k * e.period} steps ∧
      e.advancePast now =
        .ok (steps, { e with timestamp := min (e.timestamp + steps * e.period) max64 }) ∧
      (now < max64 → now < min (e.timestamp + steps * e.period) max64)
  /-- On words the count of periods is all that can fail. -/
  advances : e.catchUp? now = (e.advancePast now).toOption
  /-- An event that is lined up first catches up by one period more, and the two together are what
  it would have caught up by at once. It comes to stand in the same place. -/
  together : 0 < e.period → e.timestamp ≤ now → ∀ steps later,
    e.advancePast now = .ok (steps, later) →
      (e.align now).1 + 1 = steps ∧ (e.align now).2.advancePast now = .ok (1, later)

/-- Every event `MovesExactly`, whatever words its timestamp and its period are, and whatever word
the time is. -/
theorem moves_exactly (e : Event) {now : Nat} (hnow : now ≤ max64) : e.MovesExactly now := by
  have hlate : e.repeats = true ∧ e.isDue now = true ↔ 0 < e.period ∧ e.timestamp ≤ now :=
    and_congr e.repeats_iff (e.isDue_iff now)
  constructor
  case idle =>
    intro hidle
    rw [← hlate] at hidle
    refine ⟨?_, align_of_idle hidle⟩
    rw [advancePast_eq, catchUp_of_idle hidle]
    rfl
  case aligned =>
    intro hperiod hdue
    exact ⟨_, isGreatest_align hdue (e.repeats_iff.mpr hperiod),
      Prod.ext rfl (align_snd_eq_occurrence hdue)⟩
  case aligns => exact e.align?_eq hnow
  case settled => exact e.align_align now
  case refused =>
    rw [advancePast_eq_error]
    exact max64_lt_catchUp_fst hnow
  case unchanged =>
    intro n p slot hget hrefused
    unfold Pool.advanceSlot
    rw [hget]
    dsimp only
    rw [hrefused]
  case advanced =>
    intro hperiod hdue hgoes
    have hrep := e.repeats_iff.mpr hperiod
    refine ⟨_, isLeast_occurrencesBy hdue hrep, ?_, fun hend => ?_⟩
    · rw [advancePast_of_not_error hgoes, catchUp_of_repeats hdue hrep]
      rfl
    · exact lt_shift_timestamp hend hdue hrep
  case advances =>
    rw [catchUp?_eq_ite, advancePast_eq]
    split <;> rfl
  case together =>
    intro hperiod hdue steps later hok
    have hrep := e.repeats_iff.mpr hperiod
    have hcatch : e.catchUp now = (steps, later) := (eq_catchUp_of_advancePast hok).symm
    have hboth := catchUp_align hdue hrep
    rw [hcatch] at hboth
    rw [catchUp_of_repeats hdue hrep] at hcatch
    refine ⟨(align_fst_add_one hdue).trans (congrArg Prod.fst hcatch), ?_⟩
    rw [advancePast_eq, hboth]
    rfl

/-- An event that repeats at intervals of half of all time. -/
def halfway : Event := ⟨⟨5, 0x8000000000000000, 7, 1, .empty⟩, 3⟩

/-- At the end of time `halfway` is lined up with its second occurrence. Its third would come after
the end of time, so it catches up to the end of time, and is still due. -/
theorem moves_exactly_halfway :
    max64 ≤ max64 ∧ halfway.MovesExactly max64 ∧
      halfway.align max64 = (1, { halfway with timestamp := 0x8000000000000005 }) ∧
      halfway.advancePast max64 = .ok (2, { halfway with timestamp := max64 }) :=
  ⟨Nat.le_refl _, halfway.moves_exactly (Nat.le_refl _), by decide, by decide⟩

end SoftTimer.Event
