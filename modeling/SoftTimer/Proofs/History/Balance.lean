import SoftTimer.Proofs.History.Run
import SoftTimer.Proofs.History.Tally

/-!
# The books of a run

The books of a log and a pool balance (`Balanced`) when a registration that fires once is pending,
has fired or was cancelled, only one of these and only once; when one that repeats is pending or was
cancelled; and when every event stands where it started, moved on by one period for every time it
fired and every occurrence it skipped.

Whatever happens, they still balance (`Balanced.step`). Apart from a new registration
(`Balanced.accept`), whatever happens takes one event out of its slot and puts back what is left of
it. `Touches` says what the books need of that, and `Touches.balanced` that it is enough.
-/

namespace SoftTimer

/-- When the event of a registration is due for the first time, before `sat64` cuts it off. -/
def Acceptance.first (a : Acceptance) : Nat := a.now + a.request.period.toUs

/-! ## The books balance -/

/-- The books of a log and a pool balance: every `Acceptance`, and what has become of it by what
happened since. -/
structure Balanced {n : Nat} (log : List Happening) (p : Pool n) : Prop where
  /-- Registrations are numbered in the order in which they were accepted. -/
  numbers : (acceptances log).map (·.seq) = List.range p.nextSeq
  /-- Only what was accepted makes sense. -/
  period_pos : ∀ a ∈ acceptances log, a.request.repeating = true → 0 < a.request.period.toUs
  /-- Things happen to accepted registrations only. -/
  seq_lt : ∀ x ∈ log, x.seq < p.nextSeq
  /-- A registration is pending or was cancelled, or else it fires once and has fired. -/
  once : ∀ a ∈ acceptances log, p.count a.seq + tally (·.cancels) a.seq log +
    (if a.request.repeating then 0 else tally (·.fires) a.seq log) = 1
  /-- An event stands where it started, moved on by what fired and what was skipped. -/
  stands : ∀ a ∈ acceptances log, ∀ e ∈ p.events ++ cancellations log, e.seq = a.seq →
    e = a.event.shift (tally (·.moves) a.seq log)
  /-- An event that fires once skips nothing. -/
  unskipped : ∀ a ∈ acceptances log, a.request.repeating = false → tally (·.skips) a.seq log = 0

namespace Acceptance

/-- The event of a registration starts at its `first` time, or at the end of time if that is sooner.
-/
theorem event_timestamp (a : Acceptance) : a.event.timestamp = sat64 a.first := rfl

/-- The event of a registration starts with the `period` asked for, or none. -/
theorem event_period (a : Acceptance) :
    a.event.period = if a.request.repeating then a.request.period.toUs else 0 := rfl

/-- The event of a registration that makes sense `repeats` when that was asked for. -/
theorem event_repeats {a : Acceptance}
    (hgood : a.request.repeating = true → 0 < a.request.period.toUs) :
    a.event.repeats = a.request.repeating := by
  unfold Event.repeats
  rw [event_period]
  cases hrep : a.request.repeating with
  | true => simpa [Nat.pos_iff_ne_zero] using hgood hrep
  | false => rfl

/-- A `shift` by nothing leaves the event of a registration as it is. -/
theorem event_shift_zero (a : Acceptance) : a.event.shift 0 = a.event := by
  unfold Event.shift
  rw [Nat.zero_mul, Nat.add_zero, event_timestamp, sat64_of_le (sat64_le _)]
  rfl

end Acceptance

namespace Balanced

variable {n : Nat} {log : List Happening} {p p' : Pool n}

/-- The books of the empty log and the `empty` pool balance. -/
theorem empty : Balanced [] (.empty : Pool n) where
  numbers := rfl
  period_pos _ ha := absurd ha List.not_mem_nil
  seq_lt _ hx := absurd hx List.not_mem_nil
  once _ ha := absurd ha List.not_mem_nil
  stands _ ha := absurd ha List.not_mem_nil
  unskipped _ ha := absurd ha List.not_mem_nil

/-- Pools that are the `Same` balance with the same logs. -/
theorem same (hsame : p.Same p') (h : Balanced log p) : Balanced log p' where
  numbers := hsame.nextSeq ▸ h.numbers
  period_pos := h.period_pos
  seq_lt := hsame.nextSeq ▸ h.seq_lt
  once a ha := hsame.count a.seq ▸ h.once a ha
  stands a ha e he := by
    refine h.stands a ha e ?_
    rw [List.mem_append] at he ⊢
    exact he.imp_left (hsame.mem_events e).mp
  unskipped := h.unskipped

/-- The number of an accepted registration lies below `nextSeq`. -/
theorem acceptance_lt (h : Balanced log p) {a : Acceptance} (ha : a ∈ acceptances log) :
    a.seq < p.nextSeq := by
  rw [← List.mem_range, ← h.numbers]
  exact List.mem_map_of_mem ha

/-- After an `Acceptance`, an event that is pending or was cancelled is the new one, or else it was
so before and has a smaller number. -/
theorem mem_of_accept (hnumbered : p.Numbered) (h : Balanced log p) {a : Acceptance} {slot : Nat}
    (hput : Pool.Puts slot (some a.event) p p') {e : Event}
    (he : e ∈ p'.events ++ cancellations (log ++ [.accepted a])) :
    e = a.event ∨ e.seq < p.nextSeq ∧ e ∈ p.events ++ cancellations log := by
  rw [List.mem_append, Pool.mem_events, mem_cancellations_append] at he
  rw [List.mem_append, Pool.mem_events]
  rcases he with ⟨i, hi⟩ | he | hnow
  · rw [hput] at hi
    split at hi
    · cases hi
      exact .inl rfl
    · exact .inr ⟨hnumbered.seq_lt hi, .inl ⟨i, hi⟩⟩
  · obtain ⟨x, hx, hxe⟩ := List.mem_filterMap.mp he
    cases x with
    | cancelled e' =>
      cases hxe
      exact .inr ⟨h.seq_lt _ hx, .inr he⟩
    | accepted | fired | aligned => cases hxe
  · cases hnow

/-- Every `tally` of a number that is only now given out is zero. -/
theorem tally_of_new (h : Balanced log p) {a : Acceptance} (hnumber : a.seq = p.nextSeq)
    (what : Happening → Nat) : tally what a.seq log = 0 :=
  tally_eq_zero fun x hx => hnumber ▸ h.seq_lt x hx

/-- After an acceptance, the new registration is pending once, and the clause `once` still holds of
the others. -/
theorem once_of_accept (hnumbered : p.Numbered) (h : Balanced log p) {a : Acceptance} {slot : Nat}
    (hnumber : a.seq = p.nextSeq) (hslot : slot < n) (hfree : p.get? slot = none)
    (hput : Pool.Puts slot (some a.event) p p') :
    ∀ b ∈ acceptances log ++ [a], p'.count b.seq + tally (·.cancels) b.seq log +
      (if b.request.repeating then 0 else tally (·.fires) b.seq log) = 1 := by
  have hcount : ∀ seq, p'.count seq = p.count seq + if a.seq = seq then 1 else 0 :=
    hput.count_of_free hslot hfree
  rw [List.forall_mem_append]
  refine ⟨fun b hb => ?_, fun b hb => ?_⟩
  · have hother : a.seq ≠ b.seq := by
      have hlt := h.acceptance_lt hb
      omega
    rw [hcount, if_neg hother]
    exact h.once b hb
  · have hnone : p.count a.seq = 0 := hnumber ▸ Pool.count_nextSeq hnumbered
    rw [List.mem_singleton.mp hb, hcount, if_pos rfl, hnone, h.tally_of_new hnumber,
      h.tally_of_new hnumber, ite_self]

/-- After an acceptance, the new event stands where it starts, and the clause `stands` still holds
of the others. -/
theorem stands_of_accept (hnumbered : p.Numbered) (h : Balanced log p) {a : Acceptance} {slot : Nat}
    (hnumber : a.seq = p.nextSeq) (hput : Pool.Puts slot (some a.event) p p') :
    ∀ b ∈ acceptances log ++ [a], ∀ e ∈ p'.events ++ cancellations (log ++ [.accepted a]),
      e.seq = b.seq → e = b.event.shift (tally (·.moves) b.seq log) := by
  rw [List.forall_mem_append]
  refine ⟨fun b hb e he heq => ?_, fun b hb e he heq => ?_⟩
  · rcases mem_of_accept hnumbered h hput he with rfl | ⟨-, he⟩
    · exact absurd (h.acceptance_lt hb) (Nat.not_lt_of_le (Nat.le_of_eq (hnumber.symm.trans heq)))
    · exact h.stands b hb e he heq
  · rw [List.mem_singleton.mp hb] at heq ⊢
    rw [h.tally_of_new hnumber, a.event_shift_zero]
    rcases mem_of_accept hnumbered h hput he with rfl | ⟨hlt, -⟩
    · rfl
    · exact absurd hlt (Nat.not_lt_of_le (Nat.le_of_eq (hnumber.symm.trans heq.symm)))

/-- The books stay `Balanced` when another registration is accepted. -/
theorem accept (hnumbered : p.Numbered) (h : Balanced log p) {a : Acceptance} {slot : Nat}
    (hgood : a.request.repeating = true → 0 < a.request.period.toUs) (hnumber : a.seq = p.nextSeq)
    (hslot : slot < n) (hfree : p.get? slot = none) (hput : Pool.Puts slot (some a.event) p p')
    (hseq : p'.nextSeq = p.nextSeq + 1) : Balanced (log ++ [.accepted a]) p' := by
  have haccept : acceptances (log ++ [.accepted a]) = acceptances log ++ [a] :=
    acceptances_append log (.accepted a)
  -- Acceptance is none of the things that are tallied.
  have htally : ∀ (what : Happening → Nat) (seq : Nat), what (.accepted a) = 0 →
      tally what seq (log ++ [.accepted a]) = tally what seq log :=
    fun what seq hzero => tally_append_of_zero hzero seq log
  -- So each of the statements about all registrations is the old one, and one about the new one.
  constructor
  case numbers =>
    rw [haccept, List.map_append, h.numbers, hseq, List.range_succ, ← hnumber]
    rfl
  case period_pos =>
    rw [haccept, List.forall_mem_append]
    exact ⟨h.period_pos, fun b hb => List.mem_singleton.mp hb ▸ hgood⟩
  case seq_lt =>
    rw [hseq, List.forall_mem_append]
    refine ⟨fun x hx => Nat.lt_succ_of_lt (h.seq_lt x hx), fun x hx => ?_⟩
    rw [List.mem_singleton.mp hx]
    exact Nat.lt_succ_of_le (Nat.le_of_eq hnumber)
  case once =>
    intro b hb
    rw [htally _ _ rfl, htally _ _ rfl]
    exact once_of_accept hnumbered h hnumber hslot hfree hput b (haccept ▸ hb)
  case stands =>
    intro b hb e he heq
    rw [htally _ _ rfl]
    exact stands_of_accept hnumbered h hnumber hput b (haccept ▸ hb) e he heq
  case unskipped =>
    rw [haccept, List.forall_mem_append]
    refine ⟨fun b hb hrep => ?_, fun b hb _ => ?_⟩
    · rw [htally _ _ rfl]
      exact h.unskipped b hb hrep
    · rw [List.mem_singleton.mp hb, htally _ _ rfl]
      exact h.tally_of_new hnumber _

/-- A pending event is the one its registration started as, moved on by its `moves`, and repeats if
that does. -/
theorem pending (h : Balanced log p) {a : Acceptance} (ha : a ∈ acceptances log) {e : Event}
    (he : e ∈ p.events) (hseq : e.seq = a.seq) :
    e = a.event.shift (tally (·.moves) a.seq log) ∧ e.repeats = a.request.repeating := by
  have hstands := h.stands a ha e (List.mem_append_left _ he) hseq
  refine ⟨hstands, ?_⟩
  rw [hstands, Event.shift_repeats, Acceptance.event_repeats (h.period_pos a ha)]

end Balanced

/-- Something happens to the event of a slot that `Balanced` books can bear. The event stays, fires
for the only time or is cancelled. An event that stays moves on as it is counted, and one that fires
once skips nothing. -/
structure Touches {n : Nat} (x : Happening) (slot : Nat) (e : Event) (content : Option Event)
    (p p' : Pool n) : Prop where
  /-- The event is pending. -/
  get? : p.get? slot = some e
  /-- The slot comes to hold `content`, which is what is left of the event. -/
  put : Pool.Puts slot content p p'
  /-- No number is given out. -/
  nextSeq : p'.nextSeq = p.nextSeq
  /-- The event is the one that something happens to. -/
  seq : x.seq = e.seq
  /-- Nothing is accepted. -/
  acceptance? : x.acceptance? = none
  /-- The event stays, is cancelled, or fires once. -/
  once : content.elim 0 (fun _ => 1) + x.cancels + (if e.repeats then 0 else x.fires) = 1
  /-- An event that stays moves on as it is counted. -/
  moves : ∀ e' ∈ content, e' = e.shift x.moves
  /-- An event that is cancelled does not move. -/
  cancellation? : ∀ e' ∈ x.cancellation?, e' = e ∧ x.moves = 0
  /-- An event that fires once skips nothing. -/
  skips : e.repeats = false → x.skips = 0

namespace Touches

variable {n : Nat} {x : Happening} {slot : Nat} {e : Event} {content : Option Event}
  {log : List Happening} {p p' : Pool n}

theorem mem_events (h : Touches x slot e content p p') : e ∈ p.events :=
  Pool.mem_events.mpr ⟨slot, h.get?⟩

/-- What is left of an event has its number `seq`. -/
theorem seq_eq (h : Touches x slot e content p p') {e' : Event} (he' : e' ∈ content) :
    e'.seq = e.seq := by
  rw [h.moves e' he']
  rfl

/-- What `Touches` an event accepts no registration. -/
theorem acceptances_eq (h : Touches x slot e content p p') :
    acceptances (log ++ [x]) = acceptances log := by
  rw [acceptances_append, h.acceptance?, Option.toList_none, List.append_nil]

/-- The `count` of the event's number goes down by one, and up by one if something is left of the
event. -/
theorem count_self (h : Touches x slot e content p p') {seq : Nat} (hseq : e.seq = seq) :
    p'.count seq + 1 = p.count seq + content.elim 0 fun _ => 1 := by
  have hcount := h.put.count (Pool.lt_of_get?_eq_some h.get?) seq
  have hcontent : content.elim 0 (fun e' => if e'.seq = seq then 1 else 0) =
      content.elim 0 fun _ => 1 := by
    cases hc : content with
    | none => rfl
    | some e' => exact if_pos ((h.seq_eq hc).trans hseq)
  rw [h.get?, Option.elim_some, if_pos hseq, hcontent] at hcount
  exact hcount

/-- The `count` of any other number stays. -/
theorem count_of_ne (h : Touches x slot e content p p') {seq : Nat} (hseq : e.seq ≠ seq) :
    p'.count seq = p.count seq := by
  have hcount := h.put.count (Pool.lt_of_get?_eq_some h.get?) seq
  have hcontent : content.elim 0 (fun e' => if e'.seq = seq then 1 else 0) = 0 := by
    cases hc : content with
    | none => rfl
    | some e' => exact if_neg fun heq => hseq ((h.seq_eq hc).symm.trans heq)
  rw [h.get?, Option.elim_some, if_neg hseq, hcontent] at hcount
  exact hcount

/-- An event of another number `seq` is pending or cancelled as it was before. -/
theorem mem_of_ne (h : Touches x slot e content p p') {e' : Event} (hne : e.seq ≠ e'.seq)
    (he' : e' ∈ p'.events ++ cancellations (log ++ [x])) :
    e' ∈ p.events ++ cancellations log := by
  rw [List.mem_append, Pool.mem_events, mem_cancellations_append] at he'
  rw [List.mem_append, Pool.mem_events]
  rcases he' with ⟨i, hi⟩ | he' | he'
  · rw [h.put] at hi
    split at hi
    · exact absurd (h.seq_eq hi).symm hne
    · exact .inl ⟨i, hi⟩
  · exact .inr he'
  · exact absurd (congrArg (·.seq) (h.cancellation? e' he').1).symm hne

/-- An event of the same number `seq` is what is left of this one, or was cancelled, now or before.
-/
theorem mem_of_eq (h : Touches x slot e content p p') (hnumbered : p.Numbered) {e' : Event}
    (heq : e.seq = e'.seq) (he' : e' ∈ p'.events ++ cancellations (log ++ [x])) :
    e' = e.shift x.moves ∨ e' ∈ cancellations log ∨ (e' = e ∧ x.moves = 0) := by
  rw [List.mem_append, Pool.mem_events, mem_cancellations_append] at he'
  rcases he' with ⟨i, hi⟩ | he' | he'
  · rw [h.put] at hi
    split at hi
    · exact .inl (h.moves e' hi)
    · next hne => exact absurd (hnumbered.distinct hi h.get? heq.symm) hne
  · exact .inr (.inl he')
  · exact .inr (.inr (h.cancellation? e' he'))

/-- The clause `once` of the books still holds: the event is pending or was cancelled, or else it
fires once and has fired. -/
theorem once_eq (hx : Touches x slot e content p p') (h : Balanced log p) {a : Acceptance}
    (ha : a ∈ acceptances log) : p'.count a.seq + tally (·.cancels) a.seq (log ++ [x]) +
      (if a.request.repeating then 0 else tally (·.fires) a.seq (log ++ [x])) = 1 := by
  have hbefore := h.once a ha
  rw [tally_append, tally_append, hx.seq]
  by_cases heq : e.seq = a.seq
  · -- The event that was counted as pending is now still so, cancelled or fired.
    have hcount := hx.count_self heq
    have hpos : 0 < p.count a.seq := Pool.count_pos.mpr ⟨e, hx.mem_events, heq⟩
    have honce := hx.once
    rw [(h.pending ha hx.mem_events heq).2] at honce
    rw [if_pos heq, if_pos heq]
    cases hrep : a.request.repeating with
    | true =>
      simp only [hrep, if_true] at honce hbefore ⊢
      omega
    | false =>
      simp only [hrep, Bool.false_eq_true, if_false] at honce hbefore ⊢
      omega
  · -- Nothing has changed for the others.
    rw [if_neg heq, if_neg heq, Nat.add_zero, Nat.add_zero, hx.count_of_ne heq]
    exact hbefore

/-- The clause `stands` of the books still holds: the event is where it started, moved on by what
fired and what was skipped. -/
theorem stands_eq (hx : Touches x slot e content p p') (hnumbered : p.Numbered)
    (h : Balanced log p) {a : Acceptance} (ha : a ∈ acceptances log) {e' : Event}
    (he' : e' ∈ p'.events ++ cancellations (log ++ [x])) (hseq : e'.seq = a.seq) :
    e' = a.event.shift (tally (·.moves) a.seq (log ++ [x])) := by
  rw [tally_append, hx.seq]
  by_cases heq : e.seq = a.seq
  · -- What is left of the event stands where it stood, moved on by what just happened.
    have hstands := (h.pending ha hx.mem_events heq).1
    rw [if_pos heq, ← Event.shift_shift, ← hstands]
    rcases hx.mem_of_eq hnumbered (heq.trans hseq.symm) he' with hrest | hgone | ⟨hsame, hstill⟩
    · exact hrest
    · -- This event was pending, so it cannot have been cancelled before.
      have hcancels := tally_cancels_pos hgone
      have hpending : 0 < p.count a.seq := Pool.count_pos.mpr ⟨e, hx.mem_events, heq⟩
      have hbefore := h.once a ha
      rw [hseq] at hcancels
      omega
    · rw [hsame, hstill]
      conv_rhs => rw [hstands, Event.shift_shift, Nat.add_zero]
      exact hstands
  · have hne : e.seq ≠ e'.seq := fun h' => heq (h'.trans hseq)
    rw [if_neg heq, Nat.add_zero]
    exact h.stands a ha e' (hx.mem_of_ne hne he') hseq

/-- The books stay `Balanced` when something `Touches` an event. -/
theorem balanced (hx : Touches x slot e content p p') (hnumbered : p.Numbered)
    (h : Balanced log p) : Balanced (log ++ [x]) p' := by
  constructor
  case numbers =>
    rw [hx.acceptances_eq, hx.nextSeq]
    exact h.numbers
  case period_pos =>
    rw [hx.acceptances_eq]
    exact h.period_pos
  case seq_lt =>
    rw [hx.nextSeq, List.forall_mem_append]
    refine ⟨h.seq_lt, fun y hy => ?_⟩
    rw [List.mem_singleton.mp hy, hx.seq]
    exact hnumbered.seq_lt hx.get?
  case once =>
    rw [hx.acceptances_eq]
    exact fun a ha => hx.once_eq h ha
  case stands =>
    rw [hx.acceptances_eq]
    exact fun a ha e' he' hseq => hx.stands_eq hnumbered h ha he' hseq
  case unskipped =>
    rw [hx.acceptances_eq]
    intro a ha hrep
    rw [tally_append, h.unskipped a ha hrep, Nat.zero_add, hx.seq]
    split
    · next heq =>
      apply hx.skips
      rw [(h.pending ha hx.mem_events heq).2, hrep]
    · rfl

variable {now : Nat} {f : Firing}

/-- A firing `Touches` its event, which moves one period further than the firing skips. -/
theorem fired (hget : p.get? slot = some f.event) (hdue : f.event.timestamp ≤ now)
    (hskip : f.collapsed < f.event.occurrencesBy now) (hput : Pool.Puts slot f.rest p p')
    (hseq : p'.nextSeq = p.nextSeq) : Touches (.fired f) slot f.event f.rest p p' where
  get? := hget
  put := hput
  nextSeq := hseq
  seq := rfl
  acceptance? := rfl
  once := by
    show f.rest.elim 0 (fun _ => 1) + 0 + (if f.event.repeats then 0 else 1) = 1
    unfold Firing.rest
    cases f.event.repeats <;> rfl
  moves := by
    intro e' he'
    show e' = f.event.shift (1 + f.collapsed)
    unfold Firing.rest at he'
    split at he'
    · cases he'
      exact congrArg _ (Nat.add_comm _ _)
    · cases he'
  cancellation? _ he' := by cases he'
  skips := by
    -- An event that fires once has one due occurrence, which leaves none to skip.
    intro honce
    rw [Event.occurrencesBy_of_once hdue honce] at hskip
    exact Nat.lt_one_iff.mp hskip

/-- Lining an event up `Touches` it, and moves it as far as it skips. -/
theorem aligned {skipped : Nat} (hget : p.get? slot = some e) (hdue : e.timestamp ≤ now)
    (hskip : skipped < e.occurrencesBy now) (hput : Pool.Puts slot (some (e.shift skipped)) p p')
    (hseq : p'.nextSeq = p.nextSeq) :
    Touches (.aligned e skipped) slot e (some (e.shift skipped)) p p' where
  get? := hget
  put := hput
  nextSeq := hseq
  seq := rfl
  acceptance? := rfl
  once := by
    show 1 + 0 + (if e.repeats then 0 else 0) = 1
    rw [ite_self]
  moves := by
    intro e' he'
    cases he'
    exact congrArg e.shift (Nat.zero_add skipped).symm
  cancellation? _ he' := by cases he'
  skips := by
    intro honce
    rw [Event.occurrencesBy_of_once hdue honce] at hskip
    exact Nat.lt_one_iff.mp hskip

/-- A cancellation `Touches` its event, of which nothing is left and which is remembered as it
stood. -/
theorem cancelled (hget : p.get? slot = some e) (hput : Pool.Puts slot none p p')
    (hseq : p'.nextSeq = p.nextSeq) : Touches (.cancelled e) slot e none p p' where
  get? := hget
  put := hput
  nextSeq := hseq
  seq := rfl
  acceptance? := rfl
  once := by
    show 0 + 1 + (if e.repeats then 0 else 0) = 1
    rw [ite_self]
  moves _ he' := by cases he'
  cancellation? e' he' := by
    cases he'
    exact ⟨rfl, rfl⟩
  skips _ := rfl

end Touches

namespace Balanced

variable {n : Nat} {log : List Happening} {p p' : Pool n}

/-- The books stay `Balanced` whatever `Happens`, as long as the pool is `Numbered`. -/
theorem step {now : Nat} {x : Happening} (hnumbered : p.Numbered) (hx : Pool.Happens now x p p')
    (h : Balanced log p) : Balanced (log ++ [x]) p' := by
  cases hx with
  | accepted _ hgood hnumber hslot hfree hput hseq =>
    exact h.accept hnumbered hgood hnumber hslot hfree hput hseq
  | fired hget hdue hskip _ hput hseq =>
    exact (Touches.fired hget hdue hskip hput hseq).balanced hnumbered h
  | aligned hget hdue hskip hput hseq =>
    exact (Touches.aligned hget hdue hskip hput hseq).balanced hnumbered h
  | cancelled hget hput hseq =>
    exact (Touches.cancelled hget hput hseq).balanced hnumbered h

/-- The log and the pool of a run from a `Fresh` scheduler are `Balanced`, short of the end of time.
-/
theorem of_run {H K : Type} [TimerHardware H] [EventSink K] {start s : Scheduler H K n}
    {log : List Happening} (hfresh : start.Fresh) (hrun : Scheduler.Run start log s)
    (hclock : s.clock.timeUs < max64) : Balanced log s.pool :=
  (hrun.induct (fun _ => Balanced) hfresh (fun _ => .empty) (fun _ h => h) .same
    (fun _ hnumbered hx h => h.step hnumbered hx) hclock).2

end Balanced

end SoftTimer
