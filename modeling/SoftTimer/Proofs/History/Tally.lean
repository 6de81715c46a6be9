import Mathlib.Algebra.BigOperators.Group.Finset.Piecewise
import SoftTimer.Proofs.History.Happening

/-!
# Tallies

Every registration has a number. `tally` adds up what a log says of one of them: how often its event
fired, how many occurrences it skipped, how often it was cancelled. `Pool.count` says how many
pending events have its number. Something more that happens adds to one tally only
(`tally_append`), and a change of one slot changes the counts by what is put in and taken out
(`Pool.Puts.count`). All tallies together are what happened (`sum_tally`).
-/

namespace SoftTimer

namespace Happening

/-- The `Acceptance`, if what happens is one. -/
def acceptance? : Happening → Option Acceptance
  | accepted a => some a
  | _ => none

/-- The event, if a `Happening` is its cancellation. -/
def cancellation? : Happening → Option Event
  | cancelled e => some e
  | _ => none

/-- How often the event is cancelled in one `Happening`: once or not at all. -/
def cancels : Happening → Nat
  | cancelled _ => 1
  | _ => 0

/-- How many periods a repeating event moves on in one `Happening`: those it fires and those it
skips. -/
def moves (x : Happening) : Nat := x.fires + x.skips

end Happening

/-- Every `Acceptance` of a log, in order. -/
def acceptances (log : List Happening) : List Acceptance :=
  log.filterMap Happening.acceptance?

/-- The events that a log cancels, in order. -/
def cancellations (log : List Happening) : List Event :=
  log.filterMap Happening.cancellation?

/-- The sum of `what` over all that happened to the registration numbered `seq`. -/
def tally (what : Happening → Nat) (seq : Nat) (log : List Happening) : Nat :=
  ((log.filter (·.seq = seq)).map what).sum

/-- How many pending events have the number `seq`. -/
def Pool.count {n : Nat} (p : Pool n) (seq : Nat) : Nat := p.events.countP (·.seq = seq)

/-! ## Tallies -/

@[simp] theorem tally_nil (what : Happening → Nat) (seq : Nat) : tally what seq [] = 0 := rfl

/-- One more entry of a log adds to the `tally` of its own registration. -/
theorem tally_append (what : Happening → Nat) (seq : Nat) (log : List Happening) (x : Happening) :
    tally what seq (log ++ [x]) = tally what seq log + if x.seq = seq then what x else 0 := by
  unfold tally
  rw [List.filter_append, List.map_append, List.sum_append]
  by_cases h : x.seq = seq <;> simp [h]

/-- One more entry for which `what` is zero leaves every `tally` as it is. -/
theorem tally_append_of_zero {what : Happening → Nat} {x : Happening} (h : what x = 0) (seq : Nat)
    (log : List Happening) : tally what seq (log ++ [x]) = tally what seq log := by
  rw [tally_append, h, ite_self, Nat.add_zero]

/-- The `tally` of a number above all those in the log is zero. -/
theorem tally_eq_zero {what : Happening → Nat} {seq : Nat} {log : List Happening}
    (h : ∀ x ∈ log, x.seq < seq) : tally what seq log = 0 := by
  have hnil : log.filter (·.seq = seq) = [] := by
    rw [List.filter_eq_nil_iff]
    intro x hx
    have := h x hx
    simp only [decide_eq_true_eq]
    omega
  unfold tally
  rw [hnil]
  rfl

/-- The `tally` of `moves` is the sum of those of `fires` and of `skips`. -/
theorem tally_moves (seq : Nat) (log : List Happening) :
    tally (·.moves) seq log =
      tally (·.fires) seq log + tally (·.skips) seq log :=
  List.sum_map_add

/-- The `acceptances` of a log with one more entry are those before and that of the entry. -/
theorem acceptances_append (log : List Happening) (x : Happening) :
    acceptances (log ++ [x]) = acceptances log ++ x.acceptance?.toList := by
  unfold acceptances
  rw [List.filterMap_append]
  cases x <;> rfl

/-- The `cancellations` of a log with one more entry are those before and that of the entry. -/
theorem mem_cancellations_append {log : List Happening} {x : Happening} {e : Event} :
    e ∈ cancellations (log ++ [x]) ↔ e ∈ cancellations log ∨ e ∈ x.cancellation? := by
  unfold cancellations
  rw [List.filterMap_append, List.mem_append]
  cases hx : x.cancellation? <;> simp [hx, eq_comm]

/-- The number of an event among the `cancellations` has a positive `tally` of them. -/
theorem tally_cancels_pos {log : List Happening} {e : Event} (h : e ∈ cancellations log) :
    0 < tally (·.cancels) e.seq log := by
  obtain ⟨x, hx, he⟩ := List.mem_filterMap.mp h
  cases x with
  | cancelled e' =>
    cases he
    refine List.sum_pos_iff_exists_pos_nat.mpr ⟨1, ?_, Nat.one_pos⟩
    exact List.mem_map.mpr ⟨.cancelled e, List.mem_filter.mpr ⟨hx, decide_eq_true rfl⟩, rfl⟩
  | accepted | fired | aligned => cases he

/-- A number with a positive `tally` of cancellations is that of an event among the `cancellations`.
-/
theorem exists_cancellation {seq : Nat} {log : List Happening}
    (h : 0 < tally (·.cancels) seq log) : ∃ e ∈ cancellations log, e.seq = seq := by
  obtain ⟨k, hk, hpos⟩ := List.sum_pos_iff_exists_pos_nat.mp h
  obtain ⟨x, hx, rfl⟩ := List.mem_map.mp hk
  obtain ⟨hx, hseq⟩ := List.mem_filter.mp hx
  cases x with
  | cancelled e => exact ⟨e, List.mem_filterMap.mpr ⟨_, hx, rfl⟩, of_decide_eq_true hseq⟩
  | accepted | fired | aligned => exact absurd hpos (Nat.lt_irrefl 0)

/-- The tallies of all numbers add up to the sum of `what` over the log. -/
theorem sum_tally (what : Happening → Nat) {log : List Happening} {total : Nat}
    (h : ∀ x ∈ log, x.seq < total) :
    ((List.range total).map (tally what · log)).sum = (log.map what).sum := by
  have hsum : ∀ f : Nat → Nat, ((List.range total).map f).sum = ∑ i ∈ Finset.range total, f i :=
    fun f => rfl
  rw [hsum]
  -- Each thing that happens counts in one tally, that of its own number.
  induction log with
  | nil => simp
  | cons x rest ih =>
    rw [List.forall_mem_cons] at h
    have hcons : ∀ seq, tally what seq (x :: rest) =
        (if x.seq = seq then what x else 0) + tally what seq rest := by
      intro seq
      unfold tally
      by_cases hseq : x.seq = seq <;> simp [hseq]
    rw [Finset.sum_congr rfl fun seq _ => hcons seq, Finset.sum_add_distrib, ih h.2,
      Finset.sum_ite_eq, if_pos (Finset.mem_range.mpr h.1), List.map_cons, List.sum_cons]

/-! ## Pending events by number -/

namespace Pool

variable {n : Nat}

/-- The `count` of a number is a `total` over the slots. -/
theorem count_eq_total (p : Pool n) (seq : Nat) :
    p.count seq = p.total fun _ e => if e.seq = seq then 1 else 0 := by
  rw [← sum_map_events]
  unfold count
  induction p.events with
  | nil => rfl
  | cons e rest ih =>
    rw [List.countP_cons, ih, List.map_cons, List.sum_cons, Nat.add_comm]
    simp

/-- A change of one slot changes the `count` by what is put in and taken out. -/
theorem Puts.count {p p' : Pool n} {slot : Nat} {content : Option Event}
    (hput : Puts slot content p p') (hslot : slot < n) (seq : Nat) :
    p'.count seq + (p.get? slot).elim 0 (fun e => if e.seq = seq then 1 else 0) =
      p.count seq + content.elim 0 (fun e => if e.seq = seq then 1 else 0) := by
  obtain ⟨rest, hbefore, hafter⟩ := total_split p p' hslot
    (fun _ e => if e.seq = seq then 1 else 0) (fun _ e => if e.seq = seq then 1 else 0)
    (fun i hi => by rw [hput, if_neg hi]) (fun _ _ => rfl)
  rw [hput, if_pos rfl] at hafter
  rw [count_eq_total, count_eq_total, hbefore, hafter]
  omega

/-- An event put into a free slot adds one to the `count` of its number. -/
theorem Puts.count_of_free {p p' : Pool n} {slot : Nat} {e : Event} (hput : Puts slot (some e) p p')
    (hslot : slot < n) (hfree : p.get? slot = none) (seq : Nat) :
    p'.count seq = p.count seq + if e.seq = seq then 1 else 0 := by
  have hcount := hput.count hslot seq
  rw [hfree] at hcount
  exact hcount

/-- The `count` of a number is positive exactly if a pending event has it. -/
theorem count_pos {p : Pool n} {seq : Nat} :
    0 < p.count seq ↔ ∃ e ∈ p.events, e.seq = seq := by
  unfold count
  rw [List.countP_pos_iff]
  simp

/-- The `count` of the next number is zero in a `Numbered` pool. -/
theorem count_nextSeq {p : Pool n} (h : p.Numbered) : p.count p.nextSeq = 0 := by
  apply Nat.eq_zero_of_not_pos
  rw [count_pos]
  rintro ⟨e, he, hseq⟩
  obtain ⟨slot, hget⟩ := mem_events.mp he
  have := h.seq_lt hget
  omega

/-- Pools that are the `Same` have the same pending events. -/
theorem Same.mem_events {p p' : Pool n} (h : p.Same p') (e : Event) :
    e ∈ p'.events ↔ e ∈ p.events := by
  rw [Pool.mem_events, Pool.mem_events]
  exact exists_congr fun i => by rw [h.get?]

/-- Pools that are the `Same` have the same `count` of every number. -/
theorem Same.count {p p' : Pool n} (h : p.Same p') (seq : Nat) : p'.count seq = p.count seq := by
  rw [count_eq_total, count_eq_total]
  unfold total
  exact Finset.sum_congr (Eq.refl _) fun i _ => by rw [h.get?]

end Pool

end SoftTimer
