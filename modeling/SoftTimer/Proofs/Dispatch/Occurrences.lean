import SoftTimer.Config
import SoftTimer.Proofs.Pool.Earliest

/-!
# Occurrences

What an interrupt at `now` ought to do, said of one event and of a whole pool, without the loop that
does it. An event has `Event.occurrencesBy` due occurrences. The first `Event.firingsBy` of them
fire, one on its own for an event that collapses and at most `Config.burst` of them for one that
replays; the others are skipped (`Event.skippedBy`). Afterwards the event stands where
`Event.settle` says. `Pool.occurrences` lists what fires, and `Pool.agenda` puts it in order.

The arithmetic behind it is that moving an event on by some of its due occurrences uses up exactly
those (`occurrencesBy_shift`), whether or not the last step runs into the end of time.
-/

namespace SoftTimer

/-- How often an event may fire in one interrupt: once, or `maxReplay` times when it replays. -/
def Config.burst (c : Config) : Nat :=
  match c.catchUp with
  | .collapse => 1
  | .replay => max 1 c.maxReplay

/-- The `burst` of a configuration is at least one, so that every due event may fire. -/
theorem Config.burst_pos (c : Config) : 0 < c.burst := by
  unfold burst
  split
  · exact Nat.one_pos
  · exact Nat.lt_of_lt_of_le Nat.one_pos (Nat.le_max_left _ _)

/-- After its `count`th firing an event goes on to its very next occurrence as long as it may fire
again. -/
theorem Config.replays_eq_true (c : Config) {count : Nat} (h : 0 < count) :
    c.replays count = true ↔ count < c.burst := by
  unfold replays burst
  cases c.catchUp with
  | collapse =>
    simp only [Bool.and_eq_true, beq_iff_eq, reduceCtorEq, false_and, false_iff]
    omega
  | replay =>
    simp only [beq_self_eq_true, Bool.true_and, decide_eq_true_eq]
    omega

namespace Event

/-- The event as it stands at its `i`th occurrence from now on. -/
def occurrence (e : Event) (i : Nat) : Event := { e with timestamp := e.timestamp + i * e.period }

/-- How many of the occurrences due at `now` fire in one interrupt. -/
def firingsBy (config : Config) (now : Nat) (e : Event) : Nat :=
  min (e.occurrencesBy now) config.burst

/-- How many of the occurrences due at `now` are skipped in one interrupt. -/
def skippedBy (config : Config) (now : Nat) (e : Event) : Nat :=
  e.occurrencesBy now - e.firingsBy config now

/-- What an interrupt at `now` leaves of an event: one that is not due stays, one that fires once is
gone, and a repeating one has moved on by all of its due occurrences. -/
def settle (now : Nat) (e : Event) : Option Event :=
  if e.isDue now then
    if e.repeats then some (e.shift (e.occurrencesBy now)) else none
  else
    some e

/-! ## Due occurrences -/

/-- `isDue` says that the `timestamp` has come. -/
theorem isDue_iff (e : Event) (now : Nat) : e.isDue now = true ↔ e.timestamp ≤ now := by
  simp [isDue]

/-- `isDue` fails exactly when the `timestamp` is yet to come. -/
theorem isDue_eq_false (e : Event) (now : Nat) : e.isDue now = false ↔ now < e.timestamp := by
  simp [isDue]

/-- `repeats` says that the `period` is not zero. -/
theorem repeats_iff (e : Event) : e.repeats = true ↔ 0 < e.period := by
  simp [repeats, Nat.pos_iff_ne_zero]

/-- `repeats` fails exactly when the `period` is zero. -/
theorem repeats_eq_false (e : Event) : e.repeats = false ↔ e.period = 0 := by
  simp [repeats]

@[simp] theorem shift_repeats (e : Event) (steps : Nat) : (e.shift steps).repeats = e.repeats := rfl

theorem shift_timestamp (e : Event) (steps : Nat) :
    (e.shift steps).timestamp = sat64 (e.timestamp + steps * e.period) := rfl

/-- Two shifts in a row are one `shift` by their sum. -/
theorem shift_shift (e : Event) (a b : Nat) : (e.shift a).shift b = e.shift (a + b) := by
  have ht : sat64 (sat64 (e.timestamp + a * e.period) + b * e.period) =
      sat64 (e.timestamp + (a + b) * e.period) := by
    rw [sat64_sat64_add, Nat.add_mul, Nat.add_assoc]
  unfold shift
  rw [ht]

/-- An event that is not due has no occurrence counted by `occurrencesBy`. -/
theorem occurrencesBy_of_lt {e : Event} {now : Nat} (h : now < e.timestamp) :
    e.occurrencesBy now = 0 := by
  unfold occurrencesBy
  rw [(isDue_eq_false e now).mpr h]
  rfl

/-- A due event that fires once has one occurrence counted by `occurrencesBy`. -/
theorem occurrencesBy_of_once {e : Event} {now : Nat} (hdue : e.timestamp ≤ now)
    (honce : e.repeats = false) : e.occurrencesBy now = 1 := by
  unfold occurrencesBy
  rw [(isDue_iff e now).mpr hdue, honce]
  rfl

/-- A due repeating event has one occurrence more than periods have passed since its `timestamp`. -/
theorem occurrencesBy_of_repeats {e : Event} {now : Nat} (hdue : e.timestamp ≤ now)
    (hrep : e.repeats = true) : e.occurrencesBy now = (now - e.timestamp) / e.period + 1 := by
  unfold occurrencesBy
  rw [(isDue_iff e now).mpr hdue, hrep]
  rfl

/-- A due event has at least one occurrence counted by `occurrencesBy`. -/
theorem occurrencesBy_pos {e : Event} {now : Nat} (hdue : e.timestamp ≤ now) :
    0 < e.occurrencesBy now := by
  cases hrep : e.repeats with
  | true =>
    rw [occurrencesBy_of_repeats hdue hrep]
    exact Nat.succ_pos _
  | false =>
    rw [occurrencesBy_of_once hdue hrep]
    exact Nat.one_pos

/-- Fewer periods than `occurrencesBy` counts lead from the `timestamp` to a time that has come. -/
theorem timestamp_add_le {e : Event} {now i : Nat} (h : i < e.occurrencesBy now) :
    e.timestamp + i * e.period ≤ now := by
  have hdue : e.timestamp ≤ now := by
    apply Nat.le_of_not_lt
    intro hlt
    rw [occurrencesBy_of_lt hlt] at h
    omega
  cases hrep : e.repeats with
  | true =>
    rw [occurrencesBy_of_repeats hdue hrep] at h
    have hmul : i * e.period ≤ (now - e.timestamp) / e.period * e.period :=
      Nat.mul_le_mul_right _ (by omega)
    have hdiv := Nat.div_mul_le_self (now - e.timestamp) e.period
    omega
  | false =>
    rw [(repeats_eq_false e).mp hrep]
    omega

/-- As many periods as `occurrencesBy` counts lead from the `timestamp` beyond `now`. -/
theorem lt_timestamp_add {e : Event} {now : Nat} (hdue : e.timestamp ≤ now)
    (hrep : e.repeats = true) : now < e.timestamp + e.occurrencesBy now * e.period := by
  have hpos := (repeats_iff e).mp hrep
  have hlt : now - e.timestamp < ((now - e.timestamp) / e.period + 1) * e.period := by
    rw [Nat.mul_comm]
    exact Nat.lt_mul_div_succ _ hpos
  rw [occurrencesBy_of_repeats hdue hrep]
  omega

/-- A repeating event that has moved on by all `occurrencesBy now` of its due occurrences is not
due, for `now` before the end of time. -/
theorem lt_shift_timestamp {e : Event} {now : Nat} (hnow : now < max64) (hdue : e.timestamp ≤ now)
    (hrep : e.repeats = true) : now < (e.shift (e.occurrencesBy now)).timestamp := by
  rw [shift_timestamp]
  exact Nat.lt_min.mpr ⟨lt_timestamp_add hdue hrep, hnow⟩

/-- A `shift` by fewer occurrences than are due does not saturate, and gives the `occurrence`
itself. -/
theorem shift_eq_occurrence {e : Event} {now k : Nat} (hnow : now < max64)
    (h : k < e.occurrencesBy now) : e.shift k = e.occurrence k := by
  have hle := timestamp_add_le h
  unfold shift occurrence
  rw [sat64_of_le (by omega)]

/-- The `occurrence` with `k` due ones before it has `k` fewer of them ahead. -/
theorem occurrencesBy_occurrence {e : Event} {now k : Nat} (hrep : e.repeats = true)
    (h : k < e.occurrencesBy now) :
    (e.occurrence k).occurrencesBy now = e.occurrencesBy now - k := by
  -- The event is still due, `k` periods nearer to now.
  have hle := timestamp_add_le h
  have hdue : e.timestamp ≤ now := by omega
  have hsub : now - (e.occurrence k).timestamp = now - e.timestamp - e.period * k := by
    show now - (e.timestamp + k * e.period) = _
    rw [Nat.mul_comm e.period k]
    omega
  rw [occurrencesBy_of_repeats hdue hrep] at h ⊢
  calc (e.occurrence k).occurrencesBy now
      = (now - (e.occurrence k).timestamp) / e.period + 1 := occurrencesBy_of_repeats hle hrep
    _ = (now - e.timestamp) / e.period - k + 1 := by rw [hsub, Nat.sub_mul_div]
    _ = (now - e.timestamp) / e.period + 1 - k := by omega

/-- A `shift` by `k` due occurrences leaves `k` fewer of them ahead. -/
theorem occurrencesBy_shift {e : Event} {now k : Nat} (hnow : now < max64)
    (hrep : e.repeats = true) (hk : k ≤ e.occurrencesBy now) :
    (e.shift k).occurrencesBy now = e.occurrencesBy now - k := by
  rcases Nat.lt_or_eq_of_le hk with hlt | heq
  · rw [shift_eq_occurrence hnow hlt, occurrencesBy_occurrence hrep hlt]
  · rcases Nat.lt_or_ge now e.timestamp with hlt | hdue
    · -- Nothing is due, so `k` is zero and the event stays where it is or stops at the last word.
      rw [occurrencesBy_of_lt hlt] at heq ⊢
      rw [heq, occurrencesBy_of_lt]
      rw [shift_timestamp]
      exact Nat.lt_min.mpr ⟨by omega, hnow⟩
    · -- All of them are used up, and the event is not due any more.
      rw [heq, occurrencesBy_of_lt (lt_shift_timestamp hnow hdue hrep), Nat.sub_self]

/-- `catchUp` moves a late repeating event on by all of its due occurrences and counts them. -/
theorem catchUp_of_repeats {e : Event} {now : Nat} (hdue : e.timestamp ≤ now)
    (hrep : e.repeats = true) :
    e.catchUp now = (e.occurrencesBy now, e.shift (e.occurrencesBy now)) := by
  unfold catchUp
  rw [occurrencesBy_of_repeats hdue hrep, hrep, (isDue_iff e now).mpr hdue]
  rfl

/-- `align` leaves an event alone that is not due. -/
theorem align_of_lt {e : Event} {now : Nat} (h : now < e.timestamp) : e.align now = (0, e) := by
  unfold align
  rw [(isDue_eq_false e now).mpr h, Bool.and_false]
  rfl

/-- The `occurrence` of an `occurrence` is the one at the sum of both places. -/
theorem occurrence_occurrence (e : Event) (k i : Nat) :
    (e.occurrence k).occurrence i = e.occurrence (k + i) := by
  unfold occurrence
  simp only [Nat.add_mul, Nat.add_assoc]

/-- The `occurrence` at place zero is the event as it stands. -/
theorem occurrence_zero (e : Event) : e.occurrence 0 = e := by
  unfold occurrence
  rw [Nat.zero_mul, Nat.add_zero]

/-- No `occurrence` has a smaller `key` than the event as it stands. -/
theorem key_le_key_occurrence (e : Event) (i : Nat) : e.key ≤ (e.occurrence i).key :=
  key_le_key_of_seq rfl (Nat.le_add_right _ _)

/-! ## What is left of an event -/

/-- `settle` keeps an event that is not due. -/
theorem settle_of_lt {e : Event} {now : Nat} (h : now < e.timestamp) : e.settle now = some e := by
  unfold settle
  rw [(isDue_eq_false e now).mpr h]
  rfl

/-- `settle` drops a due event that fires once. -/
theorem settle_of_once {e : Event} {now : Nat} (hdue : e.timestamp ≤ now)
    (honce : e.repeats = false) : e.settle now = none := by
  unfold settle
  rw [(isDue_iff e now).mpr hdue, honce]
  rfl

/-- `settle` moves a due repeating event on by all of its due occurrences. -/
theorem settle_of_repeats {e : Event} {now : Nat} (hdue : e.timestamp ≤ now)
    (hrep : e.repeats = true) : e.settle now = some (e.shift (e.occurrencesBy now)) := by
  unfold settle
  rw [(isDue_iff e now).mpr hdue, hrep]
  rfl

/-- `settle` gives the same for an event that has already moved on by some of its due occurrences.
-/
theorem settle_shift {e : Event} {now k : Nat} (hnow : now < max64) (hdue : e.timestamp ≤ now)
    (hrep : e.repeats = true) (hk : k ≤ e.occurrencesBy now) :
    (e.shift k).settle now = e.settle now := by
  have hocc := occurrencesBy_shift hnow hrep hk
  rw [settle_of_repeats hdue hrep]
  rcases Nat.lt_or_ge now (e.shift k).timestamp with hlt | hle
  · -- It has moved on by all of them.
    rw [occurrencesBy_of_lt hlt] at hocc
    have hall : k = e.occurrencesBy now := by omega
    rw [settle_of_lt hlt, hall]
  · -- It moves on by the others, and so by all of them together.
    rw [settle_of_repeats hle hrep, hocc, shift_shift, Nat.add_sub_cancel' hk]

end Event

namespace Pool

variable {n : Nat}

/-- Every occurrence that fires in one interrupt at `now`, event by event. -/
def occurrences (config : Config) (now : Nat) (p : Pool n) : List Event :=
  p.events.flatMap fun e => (List.range (e.firingsBy config now)).map e.occurrence

/-- Every occurrence that fires in one interrupt at `now`, by timestamp and then by number. -/
def agenda (config : Config) (now : Nat) (p : Pool n) : List Event :=
  (p.occurrences config now).mergeSort fun e e' => decide (e.key ≤ e'.key)

/-- How many occurrences are skipped in one interrupt at `now`. -/
def skipped (config : Config) (now : Nat) (p : Pool n) : Nat :=
  (p.events.map (·.skippedBy config now)).sum

end Pool

end SoftTimer
