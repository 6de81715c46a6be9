import Mathlib.Algebra.Order.Group.Multiset
import SoftTimer.Pool.Drain
import SoftTimer.Proofs.Dispatch.Occurrences

/-!
# Draining, one firing after another

`Drain.Drains` is the loop without a bound: it fires the earliest due event as long as there is one.
The loop ends (`run_drains`), because every firing uses up at least one of the occurrences due.

Two quantities are carried from firing to firing, each a sum over the slots: what is still going to
fire (`Drain.upcoming`), and how many occurrences are still going to be skipped
(`Drain.unskipped`). A firing takes itself off the first and what it skips off the second
(`upcoming_fire`, `unskipped_fire`), so at the end they have all been delivered and counted
(`Drains.events_eq`, `Drains.sum_collapsed`). What is left of each event is the same before and
after each firing (`get?_settle_fire`), which gives the pool at the end (`Drains.get?_eq`). And
after a firing every pending event has a larger key than the one that fired (`key_lt_of_fire`),
which gives the order (`Drains.pairwise`).
-/

namespace SoftTimer

/-- What a firing leaves in the slot of its event: nothing, or the event moved on by one period and
by the `collapsed` ones. -/
def Firing.rest (f : Firing) : Option Event :=
  if f.event.repeats then some (f.event.shift (f.collapsed + 1)) else none

/-- A firing leaves an event of the same number `seq` behind, if any. -/
theorem Firing.seq_of_mem_rest {f : Firing} {e : Event} (h : e ∈ f.rest) :
    e.seq = f.event.seq := by
  unfold rest at h
  split at h
  · cases h
    rfl
  · cases h

namespace Drain

variable {n : Nat} {config : Config} {now : Nat}

/-- How often the event of a slot has fired, as the array `counts` has it. -/
def count (d : Drain n) (slot : Nat) : Nat := d.counts[slot]?.getD 0

/-- The `Firing` that `fire` adds for the event of a slot. -/
def firing (config : Config) (now slot : Nat) (e : Event) (d : Drain n) : Firing :=
  ⟨e, if e.repeats then (moveOn config now (d.count slot + 1) e).1 else 0⟩

/-- The loop of `Drain.run` without a bound, as a relation: from a state of the drain to the last,
with the firings between them. -/
inductive Drains (config : Config) (now : Nat) : Drain n → List Firing → Drain n → Prop
  /-- No event is due. -/
  | done {d : Drain n} (hnone : d.pool.firstDue? now = none) : Drains config now d [] d
  /-- The earliest event is due and fires. -/
  | fire {d d' : Drain n} {slot : Nat} {e : Event} {firings : List Firing}
    (hfirst : d.pool.firstDue? now = some (slot, e))
    (hrest : Drains config now (d.fire config now slot e) firings d') :
    Drains config now d (d.firing config now slot e :: firings) d'

/-- Every due event may still fire, and the pool is `Distinct`. -/
structure Ready (config : Config) (now : Nat) (d : Drain n) : Prop where
  /-- No two pending events have the same number. -/
  distinct : d.pool.Distinct
  /-- A due event has fired fewer times than it may. -/
  count_lt : ∀ ⦃slot : Nat⦄ ⦃e : Event⦄, d.pool.get? slot = some e → e.timestamp ≤ now →
    d.count slot < config.burst

/-- The `start` of a drain has fired nothing. -/
@[simp] theorem count_start (p : Pool n) (slot : Nat) : (start p).count slot = 0 := by
  unfold count start
  rw [Vector.getElem?_replicate]
  split <;> rfl

/-- The `start` of a drain on a `Distinct` pool is `Ready`. -/
theorem ready_start {p : Pool n} (hdistinct : p.Distinct) : (start p).Ready config now where
  distinct := hdistinct
  count_lt slot e _ _ := by
    rw [count_start]
    exact config.burst_pos

/-! ## One firing -/

/-- `fire` adds its `firing` at the end of the list. -/
theorem firings_fire (config : Config) (now slot : Nat) (e : Event) (d : Drain n) :
    (d.fire config now slot e).firings = d.firings.push (d.firing config now slot e) := by
  unfold fire firing count
  cases e.repeats <;> rfl

@[simp] theorem nextSeq_fire (config : Config) (now slot : Nat) (e : Event) (d : Drain n) :
    (d.fire config now slot e).pool.nextSeq = d.pool.nextSeq := by
  unfold fire
  cases e.repeats <;> rfl

/-- The `firing` of a repeating event leaves it one period beyond the `collapsed` occurrences. -/
theorem rest_of_repeats (config : Config) (d : Drain n) (slot : Nat) {e : Event}
    (hrep : e.repeats = true) : (d.firing config now slot e).rest =
      some (e.shift ((d.firing config now slot e).collapsed + 1)) := if_pos hrep

/-- The `firing` of an event that fires once leaves nothing behind. -/
theorem rest_of_once (config : Config) (d : Drain n) (slot : Nat) {e : Event}
    (honce : e.repeats = false) : (d.firing config now slot e).rest = none := by
  unfold Firing.rest firing
  rw [honce]
  rfl

/-- The `firing` of an event that fires once skips nothing. -/
theorem collapsed_of_once (config : Config) (d : Drain n) (slot : Nat) {e : Event}
    (honce : e.repeats = false) : (d.firing config now slot e).collapsed = 0 := by
  unfold firing
  rw [honce]
  rfl

/-- `moveOn` takes a due repeating event one period further than the occurrences it skips. -/
theorem moveOn_eq (config : Config) (count : Nat) {e : Event} (hdue : e.timestamp ≤ now)
    (hrep : e.repeats = true) :
    (moveOn config now count e).2 = e.shift ((moveOn config now count e).1 + 1) := by
  unfold moveOn
  split
  · rfl
  · rw [Event.catchUp_of_repeats hdue hrep, Nat.sub_add_cancel (Event.occurrencesBy_pos hdue)]

/-- `fire` changes its own slot and no other. -/
theorem get?_fire {slot : Nat} {e : Event} {d : Drain n} (hget : d.pool.get? slot = some e)
    (hdue : e.timestamp ≤ now) (i : Nat) :
    (d.fire config now slot e).pool.get? i =
      if i = slot then (d.firing config now slot e).rest else d.pool.get? i := by
  have hslot := Pool.lt_of_get?_eq_some hget
  unfold fire firing Firing.rest count
  cases hrep : e.repeats with
  | true =>
    have hmove := moveOn_eq config (d.counts[slot]?.getD 0 + 1) hdue hrep
    simp only [if_true]
    rw [← hmove]
    exact Pool.get?_set hslot _ i
  | false => exact Pool.get?_release _ _ i

/-- `fire` leaves the `count` of the other slots as it is. -/
theorem count_fire_of_ne {slot i : Nat} (e : Event) (d : Drain n) (hne : i ≠ slot) :
    (d.fire config now slot e).count i = d.count i := by
  unfold fire count
  cases e.repeats with
  | true =>
    show (d.counts.setIfInBounds slot _)[i]?.getD 0 = _
    rw [Vector.getElem?_setIfInBounds_ne hne.symm]
  | false => rfl

/-- `fire` adds one to the `count` of a slot whose event repeats. -/
theorem count_fire_self {slot : Nat} {e : Event} {d : Drain n} (hslot : slot < n)
    (hrep : e.repeats = true) : (d.fire config now slot e).count slot = d.count slot + 1 := by
  unfold fire count
  rw [hrep]
  show (d.counts.setIfInBounds slot _)[slot]?.getD 0 = _
  rw [Vector.getElem?_setIfInBounds_self_of_lt hslot]
  rfl

/-- A due repeating event skips nothing while its `count` leaves it another firing, and else all but
one of its due occurrences. -/
theorem collapsed_firing (config : Config) (d : Drain n) (slot : Nat) {e : Event}
    (hdue : e.timestamp ≤ now) (hrep : e.repeats = true) :
    (d.firing config now slot e).collapsed =
      if d.count slot + 1 < config.burst then 0 else e.occurrencesBy now - 1 := by
  have hreplays := config.replays_eq_true (Nat.succ_pos (d.count slot))
  have hoccur : (e.catchUp now).1 = e.occurrencesBy now := by
    rw [Event.catchUp_of_repeats hdue hrep]
  unfold firing moveOn
  rw [hrep]
  by_cases hagain : d.count slot + 1 < config.burst
  · -- It may fire again, so it goes on to its very next occurrence.
    rw [if_pos hagain, if_pos rfl, if_pos (hreplays.mpr hagain)]
  · -- It may not, so it catches up with now in one go.
    rw [if_neg hagain, if_pos rfl, if_neg (fun h => hagain (hreplays.mp h))]
    exact congrArg (· - 1) hoccur

/-- The occurrences that a `firing` skips are fewer than those that are due. -/
theorem collapsed_lt (config : Config) (d : Drain n) (slot : Nat) {e : Event}
    (hdue : e.timestamp ≤ now) :
    (d.firing config now slot e).collapsed < e.occurrencesBy now := by
  have hpos := Event.occurrencesBy_pos hdue
  cases hrep : e.repeats with
  | true =>
    rw [collapsed_firing config d slot hdue hrep]
    split <;> omega
  | false =>
    rw [collapsed_of_once config d slot hrep]
    exact hpos

/-- A `firing` uses up one due occurrence and the `collapsed` ones. -/
theorem occurrencesBy_rest (config : Config) (d : Drain n) (slot : Nat) {e : Event}
    (hnow : now < max64) (hdue : e.timestamp ≤ now) :
    (d.firing config now slot e).rest.elim 0 (·.occurrencesBy now) +
      ((d.firing config now slot e).collapsed + 1) = e.occurrencesBy now := by
  have hlt := collapsed_lt config d slot hdue
  cases hrep : e.repeats with
  | true =>
    have hshift := Event.occurrencesBy_shift hnow hrep (Nat.succ_le_of_lt hlt)
    rw [rest_of_repeats config d slot hrep, Option.elim_some, hshift]
    omega
  | false =>
    rw [rest_of_once config d slot hrep, collapsed_of_once config d slot hrep,
      Event.occurrencesBy_of_once hdue hrep, Option.elim_none]

/-- Applied to what a `firing` leaves behind, `settle` gives what it gives for the event itself. -/
theorem settle_rest (hnow : now < max64) {slot : Nat} {e : Event} {d : Drain n}
    (hdue : e.timestamp ≤ now) :
    (d.firing config now slot e).rest.bind (Event.settle now) = e.settle now := by
  have hlt := collapsed_lt config d slot hdue
  cases hrep : e.repeats with
  | true =>
    rw [rest_of_repeats config d slot hrep, Option.bind_some]
    exact Event.settle_shift hnow hdue hrep (Nat.succ_le_of_lt hlt)
  | false =>
    rw [rest_of_once config d slot hrep, Event.settle_of_once hdue hrep, Option.bind_none]

/-- What a `firing` leaves behind has a larger `key` than the event that has fired. -/
theorem key_lt_rest (hnow : now < max64) {slot : Nat} {e e' : Event} {d : Drain n}
    (hdue : e.timestamp ≤ now) (hrest : e' ∈ (d.firing config now slot e).rest) :
    e.key < e'.key := by
  unfold Firing.rest at hrest
  split at hrest
  · next hrep =>
    cases hrest
    have hpos := (Event.repeats_iff e).mp hrep
    have hstep : e.period ≤ ((d.firing config now slot e).collapsed + 1) * e.period :=
      Nat.le_mul_of_pos_left _ (Nat.succ_pos _)
    -- The timestamp grows even if it saturates, because the event was due before the end of time.
    refine Event.key_lt_key.mpr (.inl ?_)
    show e.timestamp < sat64 (e.timestamp + ((d.firing config now slot e).collapsed + 1) * e.period)
    exact Nat.lt_min.mpr ⟨by omega, by omega⟩
  · cases hrest

/-- A drain stays `Ready` when a due event fires. -/
theorem Ready.fire (hnow : now < max64) {d : Drain n} (h : d.Ready config now) {slot : Nat}
    {e : Event} (hget : d.pool.get? slot = some e) (hdue : e.timestamp ≤ now) :
    (d.fire config now slot e).Ready config now where
  distinct := h.distinct.update hget (get?_fire hget hdue) fun e' he' =>
    Firing.seq_of_mem_rest he'
  count_lt := by
    intro i e' hi hdue'
    by_cases hne : i = slot
    · subst hne
      rw [get?_fire hget hdue, if_pos rfl] at hi
      have hocc := occurrencesBy_rest config d i hnow hdue
      rw [hi, Option.elim_some] at hocc
      have hpos := Event.occurrencesBy_pos hdue'
      have hrep : e.repeats = true := by
        by_contra honce
        rw [rest_of_once config d i (Bool.eq_false_iff.mpr honce)] at hi
        cases hi
      -- An event that skips the rest of its occurrences is not due any more.
      have hskip := collapsed_firing config d i hdue hrep
      rw [count_fire_self (Pool.lt_of_get?_eq_some hget) hrep]
      by_contra hburst
      rw [if_neg hburst] at hskip
      omega
    · rw [get?_fire hget hdue, if_neg hne] at hi
      rw [count_fire_of_ne e d hne]
      exact h.count_lt hi hdue'

/-- After `fire` every pending event has a larger `key` than the event that has fired. -/
theorem key_lt_of_fire (hnow : now < max64) {d : Drain n} (h : d.Ready config now) {slot : Nat}
    {e : Event} (hfirst : d.pool.firstDue? now = some (slot, e)) {i : Nat} {e' : Event}
    (hi : (d.fire config now slot e).pool.get? i = some e') : e.key < e'.key := by
  obtain ⟨hget, hdue, -⟩ := Pool.firstDue?_eq_some hfirst
  rw [get?_fire hget hdue] at hi
  split at hi
  · exact key_lt_rest hnow hdue hi
  · next hne => exact Pool.key_lt_of_firstDue? h.distinct hfirst hi hne

/-- Applied to what a slot holds, `settle` gives the same before and after `fire`. -/
theorem get?_settle_fire (hnow : now < max64) {d : Drain n} {slot : Nat} {e : Event}
    (hget : d.pool.get? slot = some e) (hdue : e.timestamp ≤ now) (i : Nat) :
    ((d.fire config now slot e).pool.get? i).bind (Event.settle now) =
      (d.pool.get? i).bind (Event.settle now) := by
  rw [get?_fire hget hdue]
  split
  · next hi => rw [hi, hget, settle_rest hnow hdue, Option.bind_some]
  · rfl

/-! ## What is still to come -/

/-- How often an event that has fired `count` times is still going to fire. -/
def firesLeft (config : Config) (now count : Nat) (e : Event) : Nat :=
  min (e.occurrencesBy now) (config.burst - count)

/-- Every `occurrence` that the drain is still going to fire. -/
def upcoming (config : Config) (now : Nat) (d : Drain n) : Multiset Event :=
  d.pool.total fun slot e =>
    ((List.range (firesLeft config now (d.count slot) e)).map e.occurrence : Multiset Event)

/-- The number of occurrences that the drain is still going to skip, by `collapsed`. -/
def unskipped (config : Config) (now : Nat) (d : Drain n) : Nat :=
  d.pool.total fun slot e => e.occurrencesBy now - firesLeft config now (d.count slot) e

/-- How often the event that a `firing` leaves behind is still going to fire. -/
def restFires (config : Config) (now slot : Nat) (e : Event) (d : Drain n) : Nat :=
  (d.firing config now slot e).rest.elim 0
    (firesLeft config now ((d.fire config now slot e).count slot))

/-- A `firing` is one of the `firesLeft` of its event, and it skips nothing as long as there are
more. -/
theorem firesLeft_eq (hnow : now < max64) {d : Drain n} (h : d.Ready config now) {slot : Nat}
    {e : Event} (hget : d.pool.get? slot = some e) (hdue : e.timestamp ≤ now) :
    firesLeft config now (d.count slot) e = restFires config now slot e d + 1 ∧
      (0 < restFires config now slot e d → (d.firing config now slot e).collapsed = 0) := by
  have hcount := h.count_lt hget hdue
  have hocc := occurrencesBy_rest config d slot hnow hdue
  unfold restFires
  cases hrep : e.repeats with
  | true =>
    have hskip := collapsed_firing config d slot hdue hrep
    rw [rest_of_repeats config d slot hrep, Option.elim_some] at hocc ⊢
    unfold firesLeft
    rw [count_fire_self (Pool.lt_of_get?_eq_some hget) hrep]
    by_cases hagain : d.count slot + 1 < config.burst
    · -- Nothing is skipped, so one occurrence less is due and one firing less is left.
      rw [if_pos hagain] at hskip
      rw [hskip] at hocc ⊢
      omega
    · -- The last firing that is allowed skips whatever is still due.
      rw [if_neg hagain] at hskip
      omega
  | false =>
    rw [rest_of_once config d slot hrep, Option.elim_none]
    unfold firesLeft
    rw [Event.occurrencesBy_of_once hdue hrep]
    omega

/-- The occurrences an event is still going to fire are the event as it stands and those of what its
`firing` leaves. -/
theorem map_occurrence_eq (hnow : now < max64) {d : Drain n} (h : d.Ready config now) {slot : Nat}
    {e : Event} (hget : d.pool.get? slot = some e) (hdue : e.timestamp ≤ now) :
    (List.range (firesLeft config now (d.count slot) e)).map e.occurrence =
      e :: (d.firing config now slot e).rest.elim [] fun e' =>
        (List.range (restFires config now slot e d)).map e'.occurrence := by
  obtain ⟨hleft, hnoskip⟩ := firesLeft_eq hnow h hget hdue
  rw [hleft, List.range_succ_eq_map, List.map_cons, Event.occurrence_zero, List.map_map]
  congr 1
  rcases Nat.eq_zero_or_pos (restFires config now slot e d) with hzero | hpos
  · -- There is no more to fire, whatever is left of the event.
    rw [hzero]
    cases (d.firing config now slot e).rest <;> rfl
  · -- There is more to fire, so the event has moved on by one period, short of the end of time.
    have hmany : 1 < e.occurrencesBy now := by
      have : firesLeft config now (d.count slot) e ≤ e.occurrencesBy now := Nat.min_le_left _ _
      omega
    have hrep : e.repeats = true := by
      by_contra hnot
      rw [Event.occurrencesBy_of_once hdue (Bool.eq_false_iff.mpr hnot)] at hmany
      omega
    have hrest : (d.firing config now slot e).rest = some (e.occurrence 1) := by
      rw [rest_of_repeats config d slot hrep, hnoskip hpos]
      exact congrArg some (Event.shift_eq_occurrence hnow hmany)
    rw [hrest, Option.elim_some]
    apply List.map_congr_left
    intro i _
    rw [Event.occurrence_occurrence, Nat.add_comm 1 i]
    rfl

/-- `fire` takes the event that fires off the `upcoming` occurrences. -/
theorem upcoming_fire (hnow : now < max64) {d : Drain n} (h : d.Ready config now) {slot : Nat}
    {e : Event} (hget : d.pool.get? slot = some e) (hdue : e.timestamp ≤ now) :
    d.upcoming config now = e ::ₘ (d.fire config now slot e).upcoming config now := by
  -- Only the summand of the slot that fires changes.
  obtain ⟨others, hbefore, hafter⟩ := Pool.total_split d.pool
    (d.fire config now slot e).pool (Pool.lt_of_get?_eq_some hget)
    (fun slot e =>
      ((List.range (firesLeft config now (d.count slot) e)).map e.occurrence : Multiset Event))
    (fun i e' => ((List.range (firesLeft config now
      ((d.fire config now slot e).count i) e')).map e'.occurrence : Multiset Event))
    (fun i hi => by rw [get?_fire hget hdue, if_neg hi])
    (fun i hi => by rw [count_fire_of_ne e d hi])
  unfold upcoming
  rw [hbefore, hafter, hget, Option.elim_some, map_occurrence_eq hnow h hget hdue,
    get?_fire hget hdue, if_pos rfl]
  unfold restFires
  rw [← Multiset.cons_coe, Multiset.cons_add]
  cases (d.firing config now slot e).rest <;> rfl

/-- `fire` takes the event that fires and the `collapsed` occurrences off the `backlog`. -/
theorem backlog_fire (config : Config) (hnow : now < max64) {d : Drain n} {slot : Nat} {e : Event}
    (hget : d.pool.get? slot = some e) (hdue : e.timestamp ≤ now) :
    d.pool.backlog now =
      (d.firing config now slot e).collapsed + 1 +
        (d.fire config now slot e).pool.backlog now := by
  obtain ⟨others, hbefore, hafter⟩ := Pool.total_split d.pool
    (d.fire config now slot e).pool (Pool.lt_of_get?_eq_some hget)
    (fun _ e => e.occurrencesBy now) (fun _ e => e.occurrencesBy now)
    (fun i hi => by rw [get?_fire hget hdue, if_neg hi]) (fun _ _ => rfl)
  have hocc := occurrencesBy_rest config d slot hnow hdue
  rw [Pool.backlog_eq_total, Pool.backlog_eq_total, hbefore, hafter, hget, Option.elim_some,
    get?_fire hget hdue, if_pos rfl, ← hocc]
  omega

/-- `fire` makes the `backlog` of the pool smaller. -/
theorem backlog_fire_lt (config : Config) (hnow : now < max64) {d : Drain n} {slot : Nat}
    {e : Event} (hget : d.pool.get? slot = some e) (hdue : e.timestamp ≤ now) :
    (d.fire config now slot e).pool.backlog now < d.pool.backlog now := by
  have hsum := backlog_fire config hnow hget hdue
  omega

/-! ## A whole drain -/

/-- With as many steps as the `backlog` has occurrences, `run` is the loop that goes on until no
event is due. -/
theorem run_drains (config : Config) (hnow : now < max64) {steps : Nat} {d : Drain n}
    (hsteps : d.pool.backlog now ≤ steps) :
    ∃ firings, Drains config now d firings (run config now steps d) := by
  -- The bound on the steps drops by one with each firing, and what is due by one at least.
  induction steps generalizing d with
  | zero =>
    -- Nothing is due, for else a firing would leave even less.
    refine ⟨[], .done ?_⟩
    cases hfirst : d.pool.firstDue? now with
    | none => rfl
    | some found =>
      obtain ⟨slot, e⟩ := found
      obtain ⟨hget, hdue, -⟩ := Pool.firstDue?_eq_some hfirst
      have := backlog_fire_lt config hnow hget hdue
      omega
  | succ steps ih =>
    unfold run
    cases hfirst : d.pool.firstDue? now with
    | none => exact ⟨[], .done hfirst⟩
    | some found =>
      obtain ⟨slot, e⟩ := found
      obtain ⟨hget, hdue, -⟩ := Pool.firstDue?_eq_some hfirst
      have hless := backlog_fire_lt config hnow hget hdue
      obtain ⟨firings, hrest⟩ := ih (d := d.fire config now slot e) (by omega)
      exact ⟨_, .fire hfirst hrest⟩

namespace Drains

variable {d d' : Drain n} {firings : List Firing}

/-- The firings of `Drains` come after those there were. -/
theorem firings_eq (h : Drains config now d firings d') :
    d'.firings = d.firings ++ firings.toArray := by
  induction h with
  | done => simp
  | fire _ _ ih =>
    rw [ih, firings_fire]
    simp

/-- At the end of `Drains` no pending event is due. -/
theorem lt_timestamp (h : Drains config now d firings d') {slot : Nat} {e : Event}
    (hget : d'.pool.get? slot = some e) : now < e.timestamp := by
  induction h with
  | done hnone => exact Pool.firstDue?_eq_none hnone hget
  | fire _ _ ih => exact ih hget

/-- Every firing of `Drains` is of a due event. -/
theorem timestamp_le (h : Drains config now d firings d') {f : Firing} (hf : f ∈ firings) :
    f.event.timestamp ≤ now := by
  induction h with
  | done => cases hf
  | fire hfirst _ ih =>
    rcases List.mem_cons.mp hf with rfl | hf
    · exact (Pool.firstDue?_eq_some hfirst).2.1
    · exact ih hf

/-- Every firing of `Drains` is at least as late as some event that was pending. -/
theorem exists_timestamp_le (hnow : now < max64) (h : Drains config now d firings d') {f : Firing}
    (hf : f ∈ firings) :
    ∃ slot e, d.pool.get? slot = some e ∧ e.timestamp ≤ f.event.timestamp := by
  induction h with
  | done => cases hf
  | @fire d d' slot e firings hfirst _ ih =>
    obtain ⟨hget, hdue, -⟩ := Pool.firstDue?_eq_some hfirst
    rcases List.mem_cons.mp hf with rfl | hf
    · exact ⟨slot, e, hget, Nat.le_refl _⟩
    · obtain ⟨i, e', hi, hle⟩ := ih hf
      rw [get?_fire hget hdue] at hi
      split at hi
      · -- What fires later is what is left of this event, which has only moved on.
        have hkey := Event.timestamp_le_of_key_le (le_of_lt (key_lt_rest hnow hdue hi))
        exact ⟨slot, e, hget, Nat.le_trans hkey hle⟩
      · exact ⟨i, e', hi, hle⟩

/-- No number is given out by `Drains`. -/
theorem nextSeq_eq (h : Drains config now d firings d') : d'.pool.nextSeq = d.pool.nextSeq := by
  induction h with
  | done => rfl
  | fire _ _ ih => rw [ih, nextSeq_fire]

/-- At the end of `Drains` a slot holds what `settle` makes of its event. -/
theorem get?_eq (hnow : now < max64) (h : Drains config now d firings d') (slot : Nat) :
    d'.pool.get? slot = (d.pool.get? slot).bind (Event.settle now) := by
  induction h with
  | @done d hnone =>
    cases hget : d.pool.get? slot with
    | none => rfl
    | some e =>
      rw [Option.bind_some, Event.settle_of_lt (Pool.firstDue?_eq_none hnone hget)]
  | fire hfirst _ ih =>
    obtain ⟨hget, hdue, -⟩ := Pool.firstDue?_eq_some hfirst
    rw [ih, get?_settle_fire hnow hget hdue]

/-- The events of the firings of `Drains` are the `upcoming` occurrences. -/
theorem events_eq (hnow : now < max64) (hready : d.Ready config now)
    (h : Drains config now d firings d') :
    (firings.map (·.event) : Multiset Event) = d.upcoming config now := by
  induction h with
  | @done d hnone =>
    -- Nothing is due, so nothing is going to fire.
    have hempty : d.upcoming config now = 0 := by
      refine Pool.total_eq_zero fun slot e hget => ?_
      have hzero := Event.occurrencesBy_of_lt (Pool.firstDue?_eq_none hnone hget)
      simp [firesLeft, hzero]
    rw [hempty]
    rfl
  | fire hfirst _ ih =>
    obtain ⟨hget, hdue, -⟩ := Pool.firstDue?_eq_some hfirst
    rw [upcoming_fire hnow hready hget hdue, ← ih (hready.fire hnow hget hdue)]
    rfl

/-- The firings of `Drains`, with the occurrences that they skip, are as many as the `backlog`. -/
theorem length_add_sum_collapsed (hnow : now < max64) (h : Drains config now d firings d') :
    firings.length + (firings.map (·.collapsed)).sum = d.pool.backlog now := by
  induction h with
  | @done d hnone =>
    have hzero : d.pool.backlog now = 0 := by
      rw [Pool.backlog_eq_total]
      refine Pool.total_eq_zero fun slot e hget => ?_
      exact Event.occurrencesBy_of_lt (Pool.firstDue?_eq_none hnone hget)
    rw [hzero]
    rfl
  | fire hfirst _ ih =>
    obtain ⟨hget, hdue, -⟩ := Pool.firstDue?_eq_some hfirst
    have hsum := backlog_fire config hnow hget hdue
    rw [List.length_cons, List.map_cons, List.sum_cons]
    omega

/-- A `key` smaller than those of all pending events is smaller than those of all firings of
`Drains`. -/
theorem key_lt (hnow : now < max64) {k : Nat ×ₗ Nat} (h : Drains config now d firings d')
    (hk : ∀ slot e, d.pool.get? slot = some e → k < e.key) : ∀ f ∈ firings, k < f.event.key := by
  induction h with
  | done => exact fun f hf => absurd hf List.not_mem_nil
  | fire hfirst _ ih =>
    obtain ⟨hget, hdue, -⟩ := Pool.firstDue?_eq_some hfirst
    have hfire := hk _ _ hget
    refine List.forall_mem_cons.mpr ⟨hfire, ih fun i e' hi => ?_⟩
    rw [get?_fire hget hdue] at hi
    split at hi
    · exact lt_trans hfire (key_lt_rest hnow hdue hi)
    · exact hk _ _ hi

/-- Every event that is due fires where it stands in the course of `Drains`. -/
theorem exists_event_eq (h : Drains config now d firings d') {slot : Nat} {e : Event}
    (hget : d.pool.get? slot = some e) (hdue : e.timestamp ≤ now) :
    ∃ f ∈ firings, f.event = e := by
  induction h with
  | done hnone =>
    have hlt := Pool.firstDue?_eq_none hnone hget
    omega
  | @fire d _ first e' _ hfirst _ ih =>
    obtain ⟨hget', hdue', -⟩ := Pool.firstDue?_eq_some hfirst
    by_cases hslot : slot = first
    · -- It is the event that fires first.
      subst hslot
      have heq : e' = e := Option.some.inj (hget'.symm.trans hget)
      exact ⟨_, List.mem_cons_self, heq⟩
    · have hrest : (d.fire config now first e').pool.get? slot = some e := by
        rw [get?_fire hget' hdue', if_neg hslot, hget]
      obtain ⟨f, hf, hevent⟩ := ih hrest
      exact ⟨f, List.mem_cons_of_mem _ hf, hevent⟩

/-- The events of the firings of `Drains` have strictly increasing keys. -/
theorem pairwise (hnow : now < max64) (hready : d.Ready config now)
    (h : Drains config now d firings d') :
    firings.Pairwise fun f g => f.event.key < g.event.key := by
  induction h with
  | done => exact List.Pairwise.nil
  | fire hfirst hrest ih =>
    obtain ⟨hget, hdue, -⟩ := Pool.firstDue?_eq_some hfirst
    refine List.Pairwise.cons ?_ (ih (hready.fire hnow hget hdue))
    -- The first firing comes before all that is pending after it, and so before all that fires.
    exact hrest.key_lt hnow fun i e' hi => key_lt_of_fire hnow hready hfirst hi

end Drains

end Drain

/-- `Pool.drain` is the loop without a bound: its own bound is never met before the end of time. -/
theorem Pool.drain_eq {n : Nat} (p : Pool n) (config : Config) {now : Nat} (hnow : now < max64) :
    ∃ firings d, Drain.Drains config now (.start p) firings d ∧
      p.drain config now = (firings.toArray, d.pool) := by
  obtain ⟨firings, h⟩ := Drain.run_drains config hnow (d := .start p) (Nat.le_refl _)
  refine ⟨firings, _, h, ?_⟩
  have hfirings := h.firings_eq
  rw [show (Drain.start p).firings = #[] from rfl, Array.empty_append] at hfirings
  rw [← hfirings]
  rfl

end SoftTimer
