import SoftTimer.Proofs.Dispatch.Interrupt

/-!
# What a drain comes to

`Pool.Outcome` says what becomes of a pool when everything due at a time has been seen to, without
saying how often each event fired: what is left in every slot, how many occurrences were used up,
and between which keys the firings lie. A drain comes to that under every configuration
(`drain_outcome`).

An outcome at one time followed by an outcome at a later time is an outcome at the later time
(`Outcome.trans`). Behind this stand three sums of what an event has at the earlier time and what is
left of it has at the later: its due occurrences, by number (`Event.occurrencesBy_settle`) and one
by one (`Event.map_occurrence_settle`), and what is left of it (`Event.settle_settle`).
-/

namespace SoftTimer

namespace Event

variable {e e' : Event} {now later : Nat}

/-- As time goes on `occurrencesBy` does not decrease. -/
theorem occurrencesBy_mono (e : Event) (h : now ≤ later) :
    e.occurrencesBy now ≤ e.occurrencesBy later := by
  rcases Nat.lt_or_ge now e.timestamp with hlt | hdue
  · rw [occurrencesBy_of_lt hlt]
    exact Nat.zero_le _
  · have hdue' : e.timestamp ≤ later := Nat.le_trans hdue h
    cases hrep : e.repeats with
    | true =>
      rw [occurrencesBy_of_repeats hdue hrep, occurrencesBy_of_repeats hdue' hrep]
      have hdiv : (now - e.timestamp) / e.period ≤ (later - e.timestamp) / e.period :=
        Nat.div_le_div_right (Nat.sub_le_sub_right h _)
      omega
    | false =>
      rw [occurrencesBy_of_once hdue hrep, occurrencesBy_of_once hdue' hrep]

/-- What `settle` leaves of an event has its number, stands no earlier and is not due. -/
theorem settle_eq_some (hnow : now < max64) (h : e.settle now = some e') :
    e'.seq = e.seq ∧ e.timestamp ≤ e'.timestamp ∧ now < e'.timestamp := by
  rcases Nat.lt_or_ge now e.timestamp with hlt | hdue
  · rw [settle_of_lt hlt] at h
    cases h
    exact ⟨rfl, Nat.le_refl _, hlt⟩
  · cases hrep : e.repeats with
    | true =>
      rw [settle_of_repeats hdue hrep] at h
      cases h
      have hlt := lt_shift_timestamp hnow hdue hrep
      exact ⟨rfl, Nat.le_of_lt (Nat.lt_of_le_of_lt hdue hlt), hlt⟩
    | false =>
      rw [settle_of_once hdue hrep] at h
      cases h

/-- Settling now and once more later is `settle` at the later time. -/
theorem settle_settle (hle : now ≤ later) (hlater : later < max64) :
    (e.settle now).bind (settle later) = e.settle later := by
  rcases Nat.lt_or_ge now e.timestamp with hlt | hdue
  · rw [settle_of_lt hlt, Option.bind_some]
  · have hdue' : e.timestamp ≤ later := Nat.le_trans hdue hle
    cases hrep : e.repeats with
    | true =>
      rw [settle_of_repeats hdue hrep, Option.bind_some]
      exact settle_shift hlater hdue' hrep (e.occurrencesBy_mono hle)
    | false =>
      rw [settle_of_once hdue hrep, settle_of_once hdue' hrep, Option.bind_none]

/-- The occurrences due later are those due now and those due later of what `settle` leaves now. -/
theorem occurrencesBy_settle (hle : now ≤ later) (hlater : later < max64) :
    e.occurrencesBy later =
      e.occurrencesBy now + (e.settle now).elim 0 (·.occurrencesBy later) := by
  rcases Nat.lt_or_ge now e.timestamp with hlt | hdue
  · rw [occurrencesBy_of_lt hlt, settle_of_lt hlt, Option.elim_some, Nat.zero_add]
  · have hdue' : e.timestamp ≤ later := Nat.le_trans hdue hle
    have hmono := e.occurrencesBy_mono hle
    cases hrep : e.repeats with
    | true =>
      rw [settle_of_repeats hdue hrep, Option.elim_some, occurrencesBy_shift hlater hrep hmono]
      omega
    | false =>
      rw [settle_of_once hdue hrep, Option.elim_none, occurrencesBy_of_once hdue hrep,
        occurrencesBy_of_once hdue' hrep]

/-- The list of occurrences due later is that of those due now, followed by those of what `settle`
leaves now. -/
theorem map_occurrence_settle (hle : now ≤ later) (hlater : later < max64) :
    (List.range (e.occurrencesBy later)).map e.occurrence =
      (List.range (e.occurrencesBy now)).map e.occurrence ++
        (e.settle now).elim [] fun rest =>
          (List.range (rest.occurrencesBy later)).map rest.occurrence := by
  rw [occurrencesBy_settle hle hlater, List.range_add, List.map_append, List.map_map]
  congr 1
  rcases Nat.lt_or_ge now e.timestamp with hlt | hdue
  · -- Nothing is due now, so everything is still to come.
    rw [settle_of_lt hlt, occurrencesBy_of_lt hlt]
    simp
  cases hrep : e.repeats with
  | false => simp [settle_of_once hdue hrep]
  | true =>
    rw [settle_of_repeats hdue hrep, Option.elim_some, Option.elim_some]
    rcases Nat.eq_zero_or_pos ((e.shift (e.occurrencesBy now)).occurrencesBy later)
      with hnone | hpos
    · rw [hnone]
      rfl
    · -- There is more to come, so the event has not run into the end of time.
      have hshift := occurrencesBy_shift hlater hrep (e.occurrencesBy_mono hle)
      have hmore : e.occurrencesBy now < e.occurrencesBy later := by omega
      rw [shift_eq_occurrence hlater hmore]
      apply List.map_congr_left
      intro i _
      exact (e.occurrence_occurrence _ i).symm

end Event

namespace Pool

variable {n : Nat} {now later : Nat} {p p' p'' : Pool n} {firings more : List Firing}

/-- Every due `occurrence` of a pool, in no order. -/
def dueOccurrences (now : Nat) (p : Pool n) : Multiset Event :=
  p.total fun _ e => ((List.range (e.occurrencesBy now)).map e.occurrence : Multiset Event)

/-- The multiset `dueOccurrences` has as many elements as the `backlog` counts. -/
theorem card_dueOccurrences (now : Nat) (p : Pool n) :
    (p.dueOccurrences now).card = p.backlog now := by
  rw [backlog_eq_total]
  unfold dueOccurrences total
  rw [Multiset.card_sum]
  apply Finset.sum_congr rfl
  intro slot _
  cases p.get? slot <;> simp

/-- What becomes of a pool when everything due at `now` has fired or been skipped. -/
structure Outcome (now : Nat) (p : Pool n) (firings : List Firing) (p' : Pool n) : Prop where
  /-- What is left of the event in each slot. -/
  get? : ∀ slot, p'.get? slot = (p.get? slot).bind (Event.settle now)
  /-- No number has been given out. -/
  nextSeq : p'.nextSeq = p.nextSeq
  /-- Every due occurrence has fired or has been skipped. -/
  count : firings.length + (firings.map (·.collapsed)).sum = p.backlog now
  /-- Only due events have fired. -/
  timestamp_le : ∀ f ∈ firings, f.event.timestamp ≤ now
  /-- No event has fired earlier than one that was pending. -/
  exists_le : ∀ f ∈ firings, ∃ slot e, p.get? slot = some e ∧ e.timestamp ≤ f.event.timestamp
  /-- Events have fired in the order of their keys. -/
  sorted : firings.Pairwise fun f g => f.event.key < g.event.key

/-- `Pool.drain` comes to the `Outcome` of its pool, however it is configured. -/
theorem drain_outcome (config : Config) (hdistinct : p.Distinct) (hnow : now < max64) :
    Outcome now p (p.drain config now).1.toList (p.drain config now).2 := by
  obtain ⟨firings, d, hdrains, hdrain⟩ := p.drain_eq config hnow
  rw [hdrain]
  exact
    { get? := hdrains.get?_eq hnow
      nextSeq := hdrains.nextSeq_eq
      count := hdrains.length_add_sum_collapsed hnow
      timestamp_le := fun _ hf => hdrains.timestamp_le hf
      exists_le := fun _ hf => hdrains.exists_timestamp_le hnow hf
      sorted := hdrains.pairwise hnow (Drain.ready_start hdistinct) }

/-- A `drain` whose `burst` is no less than any event's due occurrences fires every due occurrence.
-/
theorem drain_dueOccurrences {config : Config} (hdistinct : p.Distinct) (hnow : now < max64)
    (hburst : ∀ e ∈ p.events, e.occurrencesBy now ≤ config.burst) :
    ((p.drain config now).1.toList.map (·.event) : Multiset Event) = p.dueOccurrences now := by
  obtain ⟨firings, d, hdrains, hdrain⟩ := p.drain_eq config hnow
  rw [hdrain, hdrains.events_eq hnow (Drain.ready_start hdistinct)]
  unfold Drain.upcoming dueOccurrences total
  apply Finset.sum_congr rfl
  intro slot _
  show (p.get? slot).elim 0 _ = (p.get? slot).elim 0 _
  cases hget : p.get? slot with
  | none => rfl
  | some e =>
    have hle := hburst e (mem_events.mpr ⟨slot, hget⟩)
    simp [Drain.firesLeft, hle]

namespace Outcome

/-- Firings whose events are all `dueOccurrences` skip none. -/
theorem eq_map_event (h : Outcome now p firings p')
    (hall : (firings.map (·.event) : Multiset Event) = p.dueOccurrences now) :
    firings = (firings.map (·.event)).map (⟨·, 0⟩) := by
  have hlength : firings.length = p.backlog now := by
    rw [← card_dueOccurrences, ← hall, Multiset.coe_card, List.length_map]
  have hcount := h.count
  have hsum : (firings.map (·.collapsed)).sum = 0 := by omega
  have hzero : ∀ f ∈ firings, f.collapsed = 0 := fun f hf =>
    List.sum_eq_zero_iff_forall_eq_nat.mp hsum _ (List.mem_map_of_mem hf)
  rw [List.map_map]
  refine (List.map_id firings).symm.trans (List.map_congr_left fun f hf => ?_)
  show f = ⟨f.event, 0⟩
  rw [← hzero f hf]

/-- Two lists of firings of one pool are equal when the events of both are all `dueOccurrences`. -/
theorem firings_eq {q : Pool n} {others : List Firing} (h : Outcome now p firings p')
    (h' : Outcome now p others q)
    (hall : (firings.map (·.event) : Multiset Event) = p.dueOccurrences now)
    (hall' : (others.map (·.event) : Multiset Event) = p.dueOccurrences now) :
    firings = others := by
  have hperm : (firings.map (·.event)).Perm (others.map (·.event)) :=
    Multiset.coe_eq_coe.mp (hall.trans hall'.symm)
  have hsorted : (firings.map (·.event)).Pairwise fun a b => a.key < b.key :=
    List.pairwise_map.mpr h.sorted
  have hsorted' : (others.map (·.event)).Pairwise fun a b => a.key < b.key :=
    List.pairwise_map.mpr h'.sorted
  have hevents : firings.map (·.event) = others.map (·.event) :=
    hperm.eq_of_pairwise (fun _ _ _ _ hab hba => absurd hba (lt_asymm hab)) hsorted hsorted'
  rw [h.eq_map_event hall, h'.eq_map_event hall', hevents]

/-- The pool that an `Outcome` leaves is `Distinct`. -/
theorem distinct (hnow : now < max64) (hdistinct : p.Distinct) (h : Outcome now p firings p') :
    p'.Distinct :=
  hdistinct.bind h.get? fun _ _ he => (Event.settle_eq_some hnow he).1

/-- No event that an `Outcome` leaves is due. -/
theorem lt_timestamp (hnow : now < max64) (h : Outcome now p firings p') {e : Event}
    (he : e ∈ p'.events) : now < e.timestamp := by
  obtain ⟨slot, hget⟩ := mem_events.mp he
  rw [h.get?] at hget
  obtain ⟨e₀, -, hsettle⟩ := Option.bind_eq_some_iff.mp hget
  exact (Event.settle_eq_some hnow hsettle).2.2

/-- The `backlog` at a later time is that of now and that of the pool which the `Outcome` leaves. -/
theorem backlog_eq (hle : now ≤ later) (hlater : later < max64) (h : Outcome now p firings p') :
    p.backlog later = p.backlog now + p'.backlog later := by
  rw [backlog_eq_total, backlog_eq_total, backlog_eq_total]
  exact total_bind h.get? fun e => e.occurrencesBy_settle hle hlater

/-- The `dueOccurrences` of a later time are those of now and those of the pool which the `Outcome`
leaves. -/
theorem dueOccurrences_eq (hle : now ≤ later) (hlater : later < max64)
    (h : Outcome now p firings p') :
    p.dueOccurrences later = p.dueOccurrences now + p'.dueOccurrences later := by
  refine total_bind h.get? fun e => ?_
  rw [e.map_occurrence_settle hle hlater, ← Multiset.coe_add]
  cases e.settle now <;> rfl

/-- No event that an `Outcome` leaves has more occurrences due later than some event that was
pending. -/
theorem exists_occurrencesBy_le (hle : now ≤ later) (hlater : later < max64)
    (h : Outcome now p firings p') {e : Event} (he : e ∈ p'.events) :
    ∃ e₀ ∈ p.events, e.occurrencesBy later ≤ e₀.occurrencesBy later := by
  obtain ⟨slot, hget⟩ := mem_events.mp he
  rw [h.get?] at hget
  obtain ⟨e₀, hget₀, hsettle⟩ := Option.bind_eq_some_iff.mp hget
  refine ⟨e₀, mem_events.mpr ⟨slot, hget₀⟩, ?_⟩
  rw [e₀.occurrencesBy_settle hle hlater, hsettle, Option.elim_some]
  exact Nat.le_add_left _ _

/-- An `Outcome` now, and one later of what it leaves, are together an `Outcome` at the later time.
-/
theorem trans (hle : now ≤ later) (hlater : later < max64) (h : Outcome now p firings p')
    (h' : Outcome later p' more p'') : Outcome later p (firings ++ more) p'' := by
  have hnow : now < max64 := Nat.lt_of_le_of_lt hle hlater
  constructor
  case get? =>
    intro slot
    rw [h'.get?, h.get?, Option.bind_assoc]
    congr 1
    funext e
    exact e.settle_settle hle hlater
  case nextSeq =>
    rw [h'.nextSeq, h.nextSeq]
  case count =>
    have hsum := h.count
    have hsum' := h'.count
    rw [h.backlog_eq hle hlater, List.length_append, List.map_append, List.sum_append]
    omega
  case timestamp_le =>
    rw [List.forall_mem_append]
    exact ⟨fun f hf => Nat.le_trans (h.timestamp_le f hf) hle, h'.timestamp_le⟩
  case exists_le =>
    rw [List.forall_mem_append]
    refine ⟨h.exists_le, fun f hf => ?_⟩
    -- What fires later was left by an event that was pending at first, and no later.
    obtain ⟨slot, e', hget', hle'⟩ := h'.exists_le f hf
    rw [h.get?] at hget'
    obtain ⟨e, hget, hsettle⟩ := Option.bind_eq_some_iff.mp hget'
    exact ⟨slot, e, hget, Nat.le_trans (Event.settle_eq_some hnow hsettle).2.1 hle'⟩
  case sorted =>
    rw [List.pairwise_append]
    refine ⟨h.sorted, h'.sorted, fun f hf g hg => Event.key_lt_key.mpr (.inl ?_)⟩
    -- What fires first was due now, and what fires later was not.
    obtain ⟨slot, e', hget', hle'⟩ := h'.exists_le g hg
    have hdue := h.timestamp_le f hf
    have hlate := h.lt_timestamp hnow (mem_events.mpr ⟨slot, hget'⟩)
    omega

end Outcome

end Pool

end SoftTimer
