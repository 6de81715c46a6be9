import Mathlib.Data.Prod.Lex
import Mathlib.Logic.Equiv.Basic
import SoftTimer.Proofs.Passes
import SoftTimer.Proofs.Pool.Contents

/-!
# The earliest event

Events fire in the order of their keys: timestamp first, then number (`Event.key`). The choice made
by one pass over the slots is an event of smallest key (`first?_le`), and fails only when no event
is accepted (`first?_eq_none`). So an event chosen because it is due has nothing before it
(`firstDue?_eq_some`), and when none is chosen, none is due (`firstDue?_eq_none`).

With distinct numbers the choice is the one event that leads all others (`first?_eq_some_iff`), and
no rule for ties is left in it. It therefore stays the same wherever the events stand
(`first?_relocate`).
-/

namespace SoftTimer

namespace Event

/-- What decides when an event fires: its `timestamp`, and among equal timestamps its number `seq`.
-/
def key (e : Event) : Nat ×ₗ Nat := toLex (e.timestamp, e.seq)

/-- Keys compare by `timestamp`, then by `seq`. -/
theorem key_lt_key {e other : Event} :
    e.key < other.key ↔
      e.timestamp < other.timestamp ∨ e.timestamp = other.timestamp ∧ e.seq < other.seq := by
  unfold key
  rw [Prod.Lex.toLex_lt_toLex]

/-- `precedes` is the strict order of the keys. -/
theorem precedes_iff_key_lt (e other : Event) : e.precedes other = true ↔ e.key < other.key := by
  rw [precedes_iff, key_lt_key]

/-- Two keys are equal exactly when the `timestamp`s and the numbers `seq` are. -/
theorem key_eq_key {e other : Event} :
    e.key = other.key ↔ e.timestamp = other.timestamp ∧ e.seq = other.seq := by
  unfold key
  rw [toLex_inj, Prod.mk.injEq]

/-- Among events of one number `seq`, the `key` grows with the `timestamp`. -/
theorem key_le_key_of_seq {e other : Event} (hseq : e.seq = other.seq)
    (h : e.timestamp ≤ other.timestamp) : e.key ≤ other.key := by
  rcases Nat.lt_or_eq_of_le h with hlt | heq
  · exact le_of_lt (key_lt_key.mpr (.inl hlt))
  · exact le_of_eq (key_eq_key.mpr ⟨heq, hseq⟩)

/-- An event of smaller or equal `key` has a smaller or equal `timestamp`. -/
theorem timestamp_le_of_key_le {e other : Event} (h : e.key ≤ other.key) :
    e.timestamp ≤ other.timestamp := by
  rcases lt_or_eq_of_le h with hlt | heq
  · rcases key_lt_key.mp hlt with ht | ⟨ht, -⟩
    · exact Nat.le_of_lt ht
    · exact Nat.le_of_eq ht
  · exact Nat.le_of_eq (key_eq_key.mp heq).1

end Event

namespace Pool

variable {n : Nat}

/-- `sooner` keeps the entry whose event has the smaller `key`. -/
theorem keeps_sooner : Keeps sooner fun entry => entry.2.key where
  first _ := rfl
  better best x := by
    by_cases hsooner : x.2.precedes best.2 = true
    · have hlt := (Event.precedes_iff_key_lt _ _).mp hsooner
      exact ⟨x, if_pos hsooner, .inr rfl, le_of_lt hlt, le_refl _⟩
    · have hle := not_lt.mp fun hlt => hsooner ((Event.precedes_iff_key_lt _ _).mpr hlt)
      exact ⟨best, if_neg hsooner, .inl rfl, le_refl _, hle⟩

/-- The event that `first?` chooses is pending in the slot given and satisfies `accept`. -/
theorem first?_sound {p : Pool n} {accept : Event → Bool} {slot : Nat} {e : Event}
    (h : p.first? accept = some (slot, e)) : p.get? slot = some e ∧ accept e = true := by
  have hmem := (keeps_sooner.foldl_none h).1
  rw [List.mem_filter, mem_entries] at hmem
  exact hmem

/-- The event that `first?` chooses has the smallest `key` of those that satisfy `accept`. -/
theorem first?_le {p : Pool n} {accept : Event → Bool} {slot : Nat} {e : Event}
    (h : p.first? accept = some (slot, e)) {i : Nat} {e' : Event} (hi : p.get? i = some e')
    (haccept : accept e' = true) : e.key ≤ e'.key :=
  (keeps_sooner.foldl_none h).2 (i, e') (List.mem_filter.mpr ⟨mem_entries.mpr hi, haccept⟩)

/-- `first?` chooses nothing exactly when no pending event satisfies `accept`. -/
theorem first?_eq_none {p : Pool n} {accept : Event → Bool} :
    p.first? accept = none ↔ ∀ slot e, p.get? slot = some e → accept e = false := by
  unfold first?
  rw [keeps_sooner.foldl_eq_none, List.filter_eq_nil_iff]
  constructor
  · intro h slot e hget
    exact Bool.eq_false_iff.mpr (h (slot, e) (mem_entries.mpr hget))
  · rintro h ⟨slot, e⟩ hmem
    exact Bool.eq_false_iff.mp (h slot e (mem_entries.mp hmem))

/-- The event that `firstDue?` chooses is pending and due, and no pending event has a smaller `key`.
-/
theorem firstDue?_eq_some {p : Pool n} {now slot : Nat} {e : Event}
    (h : p.firstDue? now = some (slot, e)) :
    p.get? slot = some e ∧ e.timestamp ≤ now ∧ ∀ i e', p.get? i = some e' → e.key ≤ e'.key := by
  unfold firstDue? at h
  rw [Option.filter_eq_some_iff] at h
  obtain ⟨hfirst, hdue⟩ := h
  refine ⟨(first?_sound hfirst).1, ?_, fun i e' hi => first?_le hfirst hi rfl⟩
  simpa [Event.isDue] using hdue

/-- When `firstDue?` chooses nothing, every pending event lies after `now`. -/
theorem firstDue?_eq_none {p : Pool n} {now : Nat} (h : p.firstDue? now = none) {slot : Nat}
    {e : Event} (hget : p.get? slot = some e) : now < e.timestamp := by
  unfold firstDue? at h
  rw [Option.filter_eq_none_iff] at h
  cases hfirst : p.first? fun _ => true with
  | none => exact absurd (first?_eq_none.mp hfirst slot e hget) (by decide)
  | some found =>
    -- The earliest event is not due, and this one is no earlier.
    obtain ⟨i, e'⟩ := found
    have hnot := h (i, e') hfirst
    have hkey := Event.timestamp_le_of_key_le (first?_le hfirst hget rfl)
    simp only [Event.isDue, decide_eq_true_eq] at hnot
    omega

/-- The event that `first?` chooses has the smallest `timestamp` of those that satisfy `accept`. -/
theorem first?_timestamp (p : Pool n) (accept : Event → Bool) :
    (p.first? accept).map (·.2.timestamp) = ((p.events.filter accept).map (·.timestamp)).min? := by
  cases hfirst : p.first? accept with
  | none =>
    have hnone : p.events.filter accept = [] := by
      rw [List.filter_eq_nil_iff]
      intro e he
      obtain ⟨slot, hget⟩ := mem_events.mp he
      exact Bool.eq_false_iff.mp (first?_eq_none.mp hfirst slot e hget)
    rw [hnone]
    rfl
  | some found =>
    obtain ⟨slot, e⟩ := found
    obtain ⟨hget, haccept⟩ := first?_sound hfirst
    symm
    rw [Option.map_some, List.min?_eq_some_iff]
    constructor
    · exact List.mem_map_of_mem (List.mem_filter.mpr ⟨mem_events.mpr ⟨slot, hget⟩, haccept⟩)
    · intro t ht
      obtain ⟨e', he', rfl⟩ := List.mem_map.mp ht
      obtain ⟨hpending, haccept'⟩ := List.mem_filter.mp he'
      obtain ⟨i, hi⟩ := mem_events.mp hpending
      exact Event.timestamp_le_of_key_le (first?_le hfirst hi haccept')

/-! ## The event that leads -/

/-- The slot holds `e`, which satisfies `accept`, and every other event that does fires after `e`.
-/
structure Leads (p : Pool n) (accept : Event → Bool) (slot : Nat) (e : Event) : Prop where
  /-- The event is pending in the slot. -/
  get? : p.get? slot = some e
  /-- The event `e` is accepted. -/
  accepted : accept e = true
  /-- The others have a later timestamp, or the same timestamp and a larger number. -/
  key_lt : ∀ ⦃i : Nat⦄ ⦃e' : Event⦄, p.get? i = some e' → accept e' = true → i ≠ slot →
    e.key < e'.key

/-- `Leads` holds of at most one slot and event. -/
theorem Leads.unique {p : Pool n} {accept : Event → Bool} {slot slot' : Nat} {e e' : Event}
    (h : p.Leads accept slot e) (h' : p.Leads accept slot' e') : slot' = slot ∧ e' = e := by
  have hslot : slot' = slot := by
    by_contra hne
    have hlt := h.key_lt h'.get? h'.accepted hne
    have hgt := h'.key_lt h.get? h.accepted (Ne.symm hne)
    exact lt_irrefl _ (lt_trans hlt hgt)
  have hsame : some e' = some e := by rw [← h'.get?, hslot, h.get?]
  exact ⟨hslot, Option.some.inj hsame⟩

/-- In a `Distinct` pool `first?` chooses exactly the event that leads. -/
theorem first?_eq_some_iff {p : Pool n} (hdistinct : p.Distinct) {accept : Event → Bool}
    {slot : Nat} {e : Event} : p.first? accept = some (slot, e) ↔ p.Leads accept slot e := by
  have hchosen : ∀ {slot e}, p.first? accept = some (slot, e) → p.Leads accept slot e := by
    intro slot e hfirst
    obtain ⟨hget, haccept⟩ := first?_sound hfirst
    refine ⟨hget, haccept, fun i e' hi haccept' hne => ?_⟩
    refine lt_of_le_of_ne (first?_le hfirst hi haccept') fun heq => hne ?_
    exact hdistinct hi hget (Event.key_eq_key.mp heq).2.symm
  refine ⟨hchosen, fun h => ?_⟩
  cases hfirst : p.first? accept with
  | none =>
    have hrefused := first?_eq_none.mp hfirst slot e h.get?
    rw [h.accepted] at hrefused
    cases hrefused
  | some found =>
    obtain ⟨hslot, hevent⟩ := h.unique (hchosen hfirst)
    rw [← hslot, ← hevent]

/-- In a `Distinct` pool `earliestMatching` answers exactly the slot of the event that leads. -/
theorem earliestMatching_eq_some_iff {p : Pool n} (hdistinct : p.Distinct) {accept : Event → Bool}
    {slot : Nat} : p.earliestMatching accept = some slot ↔ ∃ e, p.Leads accept slot e := by
  unfold earliestMatching
  rw [Option.map_eq_some_iff]
  constructor
  · rintro ⟨⟨i, e⟩, hfirst, rfl⟩
    exact ⟨e, (first?_eq_some_iff hdistinct).mp hfirst⟩
  · rintro ⟨e, h⟩
    exact ⟨(slot, e), (first?_eq_some_iff hdistinct).mpr h, rfl⟩

/-- `first?` chooses the same event in a pool, of any capacity, that holds the events in other
slots. -/
theorem first?_relocate {m : Nat} {p : Pool n} {q : Pool m} (hdistinct : p.Distinct)
    (σ : Equiv.Perm Nat) (hmoved : ∀ slot, q.get? (σ slot) = p.get? slot)
    (accept : Event → Bool) :
    q.first? accept = (p.first? accept).map fun entry => (σ entry.1, entry.2) := by
  have hback : ∀ slot, q.get? slot = p.get? (σ.symm slot) := fun slot => by
    rw [← hmoved, σ.apply_symm_apply]
  have hdistinct' : q.Distinct := by
    intro i j e e' hi hj hseq
    rw [hback] at hi hj
    exact σ.symm.injective (hdistinct hi hj hseq)
  cases hfirst : p.first? accept with
  | none =>
    rw [Option.map_none, first?_eq_none]
    intro slot e he
    rw [hback] at he
    exact first?_eq_none.mp hfirst _ e he
  | some found =>
    have hleads := (first?_eq_some_iff hdistinct).mp hfirst
    rw [Option.map_some, first?_eq_some_iff hdistinct']
    constructor
    · rw [hmoved]
      exact hleads.get?
    · exact hleads.accepted
    · intro i e' hi haccept hne
      rw [hback] at hi
      refine hleads.key_lt hi haccept fun heq => hne ?_
      rw [← heq, σ.apply_symm_apply]

/-- In a `Distinct` pool the event that `firstDue?` chooses leads all pending events. -/
theorem leads_of_firstDue? {p : Pool n} (hdistinct : p.Distinct) {now slot : Nat} {e : Event}
    (h : p.firstDue? now = some (slot, e)) : p.Leads (fun _ => true) slot e := by
  unfold firstDue? at h
  exact (first?_eq_some_iff hdistinct).mp (Option.filter_eq_some_iff.mp h).1

/-- In a `Distinct` pool the event that `firstDue?` chooses has a strictly smaller `key` than every
other. -/
theorem key_lt_of_firstDue? {p : Pool n} (hdistinct : p.Distinct) {now slot : Nat} {e : Event}
    (h : p.firstDue? now = some (slot, e)) {i : Nat} {e' : Event} (hi : p.get? i = some e')
    (hne : i ≠ slot) : e.key < e'.key :=
  (leads_of_firstDue? hdistinct h).key_lt hi rfl hne

/-- `earliestDue` answers the earliest of the events that are due. -/
theorem earliestDue_eq {p : Pool n} (hdistinct : p.Distinct) (now : Nat) :
    p.earliestDue now = p.earliestMatching (·.isDue now) := by
  unfold earliestDue earliestMatching
  congr 1
  cases hfirst : p.firstDue? now with
  | none =>
    symm
    rw [first?_eq_none]
    intro slot e hget
    have hlt := firstDue?_eq_none hfirst hget
    simpa [Event.isDue] using hlt
  | some found =>
    obtain ⟨slot, e⟩ := found
    obtain ⟨hget, hdue, -⟩ := firstDue?_eq_some hfirst
    symm
    rw [first?_eq_some_iff hdistinct]
    constructor
    · exact hget
    · simpa [Event.isDue] using hdue
    · intro i e' hi _ hne
      exact key_lt_of_firstDue? hdistinct hfirst hi hne

/-! ## The remembered slot -/

/-- The remembered slot `next` is the `earliest` one. -/
def Cached (p : Pool n) : Prop := p.next = p.earliest

theorem cached_recompute (p : Pool n) : p.recompute.Cached := rfl

/-- Two `Cached` pools are equal when `get?` agrees on every slot and `nextSeq` agrees. -/
theorem eq_of_get? {p q : Pool n} (hp : p.Cached) (hq : q.Cached)
    (hget : ∀ slot, q.get? slot = p.get? slot) (hseq : q.nextSeq = p.nextSeq) : q = p := by
  -- The earliest event is chosen from the slots alone.
  have hearliest : q.earliest = p.earliest := by
    simp only [earliest, earliestMatching, first?, entries, hget]
  exact ext_get? hget (by rw [hp, hq, hearliest]) hseq

/-- The slot that `earliest` answers holds an event. -/
theorem earliest_eq_some {p : Pool n} {slot : Nat} (h : p.earliest = some slot) :
    ∃ e, p.get? slot = some e := by
  unfold earliest earliestMatching at h
  obtain ⟨⟨i, e⟩, hfirst, rfl⟩ := Option.map_eq_some_iff.mp h
  exact ⟨e, (first?_sound hfirst).1⟩

/-- `releaseAll` keeps the remembered slot, or forgets it because it is among those freed. -/
theorem next_releaseAll (p : Pool n) (slots : List Nat) :
    (p.releaseAll slots).next = p.next ∨
      (p.releaseAll slots).next = none ∧ ∃ slot ∈ slots, p.next = some slot := by
  unfold releaseAll
  induction slots generalizing p with
  | nil => exact .inl rfl
  | cons slot rest ih =>
    rw [List.foldl_cons]
    have hrelease : (p.release slot).2.next = if p.next = some slot then none else p.next := rfl
    by_cases hnext : p.next = some slot
    · -- Once forgotten, a slot is not remembered again.
      rw [if_pos hnext] at hrelease
      refine .inr ⟨?_, slot, List.mem_cons_self, hnext⟩
      rcases ih (p.release slot).2 with hsame | ⟨hnone, -⟩
      · rw [hsame, hrelease]
      · exact hnone
    · rw [if_neg hnext] at hrelease
      rcases ih (p.release slot).2 with hsame | ⟨hnone, i, hi, heq⟩
      · exact .inl (hsame.trans hrelease)
      · exact .inr ⟨hnone, i, List.mem_cons_of_mem _ hi, hrelease ▸ heq⟩

/-- `releaseAll` leaves the pool `Cached` when the remembered slot is still the `earliest`. -/
theorem cached_releaseAll {p : Pool n} {slots : List Nat}
    (h : (p.releaseAll slots).earliest = p.next) : (p.releaseAll slots).Cached := by
  rcases p.next_releaseAll slots with hsame | ⟨-, slot, hslot, hnext⟩
  · exact hsame.trans h.symm
  · -- The earliest slot would be one of those that were freed.
    obtain ⟨e, he⟩ := earliest_eq_some (h.trans hnext)
    rw [get?_releaseAll, if_pos hslot] at he
    cases he

/-- After `recompute`, the event in the remembered slot has the smallest `key` of all. -/
theorem nextEvent?_recompute {p : Pool n} {e : Event} (h : p.recompute.nextEvent? = some e) :
    ∀ e' ∈ p.events, e.key ≤ e'.key := by
  unfold nextEvent? at h
  rw [next_recompute] at h
  obtain ⟨slot, hslot, hget⟩ := Option.bind_eq_some_iff.mp h
  unfold earliest earliestMatching at hslot
  obtain ⟨⟨i, e₀⟩, hfirst, rfl⟩ := Option.map_eq_some_iff.mp hslot
  -- The remembered slot holds the event that was chosen.
  have hget₀ : p.get? i = some e₀ := (first?_sound hfirst).1
  have heq : e₀ = e := Option.some.inj (hget₀.symm.trans hget)
  intro e' he'
  obtain ⟨j, hj⟩ := mem_events.mp he'
  exact heq ▸ first?_le hfirst hj rfl

/-- After `recompute`, no event is remembered only if none is pending. -/
theorem nextEvent?_recompute_eq_none {p : Pool n} (h : p.recompute.nextEvent? = none) :
    p.events = [] := by
  rw [List.eq_nil_iff_forall_not_mem]
  intro e he
  obtain ⟨j, hj⟩ := mem_events.mp he
  cases hfirst : p.first? fun _ => true with
  | none => exact absurd (first?_eq_none.mp hfirst j e hj) (by decide)
  | some found =>
    -- Otherwise looking for the earliest event would have found one to remember.
    obtain ⟨i, e₀⟩ := found
    have hnext : p.recompute.nextEvent? = some e₀ := by
      unfold nextEvent?
      rw [next_recompute, earliest, earliestMatching, hfirst]
      exact (first?_sound hfirst).1
    rw [hnext] at h
    cases h

end Pool

end SoftTimer
