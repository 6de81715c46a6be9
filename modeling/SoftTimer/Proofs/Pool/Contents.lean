import Mathlib.Algebra.BigOperators.Group.Finset.Basic
import Mathlib.Algebra.GroupWithZero.Nat
import SoftTimer.Pool.Selection
import SoftTimer.Pool.Periods

/-!
# What a pool holds

What each operation of a pool does to the slots, seen through `get?`, and sums over the pending
events. `Pool.Distinct` says that no two pending events have the same number, and `Pool.Numbered`
that, besides, every number has been given out.

`Pool.total` adds up a quantity over all slots, in any commutative monoid, so that it covers counts
and multisets of events alike. A change of one slot changes one summand: `total_split` singles it
out.
-/

namespace SoftTimer.Pool

variable {n : Nat}

/-- The list `events` has an event exactly when some slot holds it. -/
theorem mem_events {p : Pool n} {e : Event} : e ∈ p.events ↔ ∃ slot, p.get? slot = some e := by
  unfold events
  rw [List.mem_map]
  constructor
  · rintro ⟨⟨slot, e'⟩, hmem, rfl⟩
    exact ⟨slot, mem_entries.mp hmem⟩
  · rintro ⟨slot, h⟩
    exact ⟨(slot, e), mem_entries.mpr h, rfl⟩

/-- Two pools are equal when `get?` agrees on every slot and `next` and `nextSeq` agree. -/
theorem ext_get? {p q : Pool n} (hget : ∀ slot, q.get? slot = p.get? slot)
    (hnext : q.next = p.next) (hseq : q.nextSeq = p.nextSeq) : q = p := by
  have hslots : q.slots = p.slots := by
    ext1 slot hslot
    simpa [get?, hslot] using hget slot
  exact Pool.ext hslots hnext hseq

/-! ## The operations, slot by slot -/

@[simp] theorem nextSeq_release (p : Pool n) (slot : Nat) :
    (p.release slot).2.nextSeq = p.nextSeq := rfl

@[simp] theorem nextSeq_map (f : Event → Event) (p : Pool n) :
    (p.map f).nextSeq = p.nextSeq := rfl

@[simp] theorem get?_map (f : Event → Event) (p : Pool n) (slot : Nat) :
    (p.map f).get? slot = (p.get? slot).map f := by
  unfold get? map
  by_cases h : slot < n
  · simp only [Vector.getElem?_eq_getElem h, Vector.getElem_map, Option.join_some]
  · simp only [Vector.getElem?_eq_none (Nat.le_of_not_lt h), Option.join_none, Option.map_none]

/-- The events of `map f` are the events of the pool, each after `f`. -/
theorem events_map (f : Event → Event) (p : Pool n) : (p.map f).events = p.events.map f := by
  simp [events, entries, List.map_filterMap, Option.map_map, Function.comp_def]

/-- As many events are pending after `map f` as before. -/
theorem size_map (f : Event → Event) (p : Pool n) : (p.map f).size = p.size := by
  have hlength := congrArg List.length (events_map f p)
  simp only [events, List.length_map] at hlength
  exact hlength

/-- The slot that `freeSlot?` finds is a slot of the pool, and free. -/
theorem freeSlot?_eq_some {p : Pool n} {slot : Nat} (h : p.freeSlot? = some slot) :
    slot < n ∧ p.get? slot = none := by
  unfold freeSlot? at h
  have hmem := List.mem_of_find?_eq_some h
  have hfree := List.find?_some h
  exact ⟨List.mem_range.mp hmem, Option.isNone_iff_eq_none.mp hfree⟩

/-- `insert` accepts a registration when `freeSlot?` finds a slot, and puts it there under the next
number. -/
theorem insert_of_freeSlot? {p : Pool n} {slot : Nat} (h : p.freeSlot? = some slot)
    (r : Registration) : p.insert r = .ok (slot,
      { p.set slot (some { r with seq := p.nextSeq }) with nextSeq := p.nextSeq + 1 }) := by
  unfold insert allocate
  rw [h]
  rfl

/-- `insert` answers `noResources` when `freeSlot?` finds no slot. -/
theorem insert_of_full {p : Pool n} (h : p.freeSlot? = none) (r : Registration) :
    p.insert r = .error .noResources := by
  unfold insert allocate
  rw [h]
  rfl

/-- The slot that `insert` answers with is the one that `freeSlot?` finds. -/
theorem freeSlot?_of_insert {p p' : Pool n} {r : Registration} {slot : Nat}
    (h : p.insert r = .ok (slot, p')) : p.freeSlot? = some slot := by
  cases hfree : p.freeSlot? with
  | none =>
    rw [insert_of_full hfree] at h
    cases h
  | some free =>
    rw [insert_of_freeSlot? hfree] at h
    cases h
    rfl

/-- An accepted `insert` takes a free slot and the next number, and changes no other slot. -/
theorem insert_eq_ok {p p' : Pool n} {r : Registration} {slot : Nat}
    (h : p.insert r = .ok (slot, p')) :
    slot < n ∧ p.get? slot = none ∧ p'.nextSeq = p.nextSeq + 1 ∧
      ∀ i, p'.get? i = if i = slot then some { r with seq := p.nextSeq } else p.get? i := by
  have hfree := freeSlot?_of_insert h
  obtain ⟨hlt, hnone⟩ := freeSlot?_eq_some hfree
  rw [insert_of_freeSlot? hfree] at h
  cases h
  exact ⟨hlt, hnone, rfl, get?_set hlt _⟩

/-- An accepted `insert` leaves the remembered slot `next` as it is. -/
theorem next_insert {p p' : Pool n} {r : Registration} {slot : Nat}
    (h : p.insert r = .ok (slot, p')) : p'.next = p.next := by
  rw [insert_of_freeSlot? (freeSlot?_of_insert h)] at h
  cases h
  rfl

/-- `find` lists the slots that hold an event for the identifier and the value asked for. -/
theorem mem_find {p : Pool n} {id value : UInt16} {slot : Nat} :
    slot ∈ p.find id value ↔ ∃ e, p.get? slot = some e ∧ e.isFor id value = true := by
  unfold find
  rw [List.mem_map]
  constructor
  · rintro ⟨⟨slot', e⟩, hmem, rfl⟩
    rw [List.mem_filter, mem_entries] at hmem
    exact ⟨e, hmem⟩
  · rintro ⟨e, hget, hfor⟩
    exact ⟨(slot, e), List.mem_filter.mpr ⟨mem_entries.mpr hget, hfor⟩, rfl⟩

/-- `releaseAll` frees the slots listed and no others. -/
theorem get?_releaseAll (p : Pool n) (slots : List Nat) (i : Nat) :
    (p.releaseAll slots).get? i = if i ∈ slots then none else p.get? i := by
  unfold releaseAll
  induction slots generalizing p with
  | nil => simp
  | cons slot rest ih =>
    rw [List.foldl_cons, ih, get?_release]
    -- A slot is freed now or among the rest.
    by_cases hi : i = slot
    · simp [hi]
    · simp [hi]

/-- After `releaseAll` of what `find` lists, a slot holds its event unless that event was asked for.
-/
theorem get?_releaseAll_find (p : Pool n) (id value : UInt16) (slot : Nat) :
    (p.releaseAll (p.find id value)).get? slot =
      (p.get? slot).bind fun e => if e.isFor id value then none else some e := by
  rw [get?_releaseAll]
  cases hget : p.get? slot with
  | none => exact ite_self _
  | some e =>
    have hfound : slot ∈ p.find id value ↔ e.isFor id value = true := by
      rw [mem_find, hget]
      simp
    rw [Option.bind_some]
    exact if_congr hfound rfl rfl

@[simp] theorem nextSeq_releaseAll (p : Pool n) (slots : List Nat) :
    (p.releaseAll slots).nextSeq = p.nextSeq := by
  unfold releaseAll
  induction slots generalizing p with
  | nil => rfl
  | cons slot rest ih => rw [List.foldl_cons, ih, nextSeq_release]

/-! ## Free slots -/

/-- The free slots of the pool, as a `Finset`. -/
def free (p : Pool n) : Finset Nat := {slot ∈ Finset.range n | p.get? slot = none}

theorem mem_free {p : Pool n} {slot : Nat} : slot ∈ p.free ↔ slot < n ∧ p.get? slot = none := by
  unfold free
  rw [Finset.mem_filter, Finset.mem_range]

/-- Pools in which the same slots hold events have the same `free` slots. -/
theorem free_congr {p p' : Pool n} (h : ∀ slot, p'.get? slot = none ↔ p.get? slot = none) :
    p'.free = p.free := by
  ext slot
  rw [mem_free, mem_free, h]

/-- `freeSlot?` finds no slot exactly when `free` is empty. -/
theorem freeSlot?_eq_none {p : Pool n} : p.freeSlot? = none ↔ p.free = ∅ := by
  unfold freeSlot?
  rw [List.find?_eq_none, Finset.eq_empty_iff_forall_notMem]
  refine forall_congr' fun slot => ?_
  rw [mem_free, List.mem_range, Option.isNone_iff_eq_none, not_and]

/-- Every slot below the one that `freeSlot?` finds is taken. -/
theorem lowest_of_freeSlot? {p : Pool n} {slot : Nat} (h : p.freeSlot? = some slot) {i : Nat}
    (hi : i < slot) : p.get? i ≠ none := by
  unfold freeSlot? at h
  rw [List.find?_range_eq_some] at h
  exact Option.isSome_iff_ne_none.mp (by simpa using h.2.2 i hi)

/-- When `insert` refuses a registration, no slot is `free` and the reason is `noResources`. -/
theorem insert_eq_error {p : Pool n} {r : Registration} {reason : TimerError}
    (h : p.insert r = .error reason) : p.free = ∅ ∧ reason = .noResources := by
  cases hfree : p.freeSlot? with
  | some slot =>
    rw [insert_of_freeSlot? hfree] at h
    cases h
  | none =>
    rw [insert_of_full hfree] at h
    cases h
    exact ⟨freeSlot?_eq_none.mp hfree, rfl⟩

/-- The slots of the `entries` whose event satisfies `accept`, in ascending order. -/
theorem map_fst_entries (p : Pool n) (accept : Event → Bool) :
    (p.entries.filter fun entry => accept entry.2).map (·.1) =
      (List.range n).filter fun slot => (p.get? slot).any accept := by
  unfold entries
  rw [List.filter_filterMap, List.map_filterMap, ← List.filterMap_eq_filter]
  congr 1
  funext slot
  cases h : p.get? slot with
  | none => simp [Option.guard, h]
  | some e => cases haccept : accept e <;> simp [Option.guard, h, haccept]

/-- The `entries` of a pool stand in different slots. -/
theorem nodup_entries (p : Pool n) : (p.entries.map (·.1)).Nodup := by
  have hslots := p.map_fst_entries fun _ => true
  rw [List.filter_true] at hslots
  rw [hslots]
  exact List.nodup_range.filter _

/-- The `size` of a pool is its capacity exactly when no slot is `free`. -/
theorem size_eq_iff {p : Pool n} : p.size = n ↔ p.free = ∅ := by
  have hslots := congrArg List.length (p.map_fst_entries fun _ => true)
  rw [List.filter_true, List.length_map] at hslots
  have hall := List.length_filter_eq_length_iff (l := List.range n)
    (p := fun slot => (p.get? slot).any fun _ => true)
  rw [List.length_range] at hall
  unfold size
  rw [hslots, hall, Finset.eq_empty_iff_forall_notMem]
  refine forall_congr' fun slot => ?_
  rw [mem_free, List.mem_range, not_and]
  cases p.get? slot <;> simp

/-- `insert` answers `noResources` exactly when as many events are pending as there are slots. -/
theorem insert_eq_noResources {p : Pool n} (r : Registration) :
    p.insert r = .error .noResources ↔ p.size = n := by
  rw [size_eq_iff]
  exact ⟨fun h => (insert_eq_error h).1, fun h => insert_of_full (freeSlot?_eq_none.mpr h) r⟩

/-! ## Numbers -/

/-- No two slots hold events of the same number `seq`. -/
def Distinct (p : Pool n) : Prop :=
  ∀ ⦃i j : Nat⦄ ⦃e e' : Event⦄, p.get? i = some e → p.get? j = some e' → e.seq = e'.seq → i = j

/-- The pending events are `Distinct`, and their numbers lie below `nextSeq`. -/
structure Numbered (p : Pool n) : Prop where
  /-- No two pending events have the same number. -/
  distinct : p.Distinct
  /-- The number of a pending event has been given out. -/
  seq_lt : ∀ ⦃slot : Nat⦄ ⦃e : Event⦄, p.get? slot = some e → e.seq < p.nextSeq

/-- Only the slots below the capacity need comparing for a pool to be `Distinct`. -/
theorem distinct_iff (p : Pool n) :
    p.Distinct ↔ ∀ i < n, ∀ j < n, ∀ e ∈ p.get? i, ∀ e' ∈ p.get? j, e.seq = e'.seq → i = j := by
  constructor
  · intro h i _ j _ e he e' he'
    exact h he he'
  · intro h i j e e' he he'
    exact h i (lt_of_get?_eq_some he) j (lt_of_get?_eq_some he') e he e' he'

instance (p : Pool n) : Decidable p.Distinct := decidable_of_iff _ p.distinct_iff.symm

/-- A pool stays `Distinct` when one slot comes to hold nothing or an event of its old number. -/
theorem Distinct.update {p p' : Pool n} (h : p.Distinct) {slot : Nat} {e : Event}
    (hslot : p.get? slot = some e) {content : Option Event}
    (hget : ∀ i, p'.get? i = if i = slot then content else p.get? i)
    (hcontent : ∀ e' ∈ content, e'.seq = e.seq) : p'.Distinct := by
  -- Every event of the new pool stands where one of its number stood before.
  have hold : ∀ ⦃i : Nat⦄ ⦃a : Event⦄, p'.get? i = some a →
      ∃ b, p.get? i = some b ∧ b.seq = a.seq := by
    intro i a ha
    rw [hget] at ha
    split at ha
    · next hi => exact ⟨e, by rw [hi]; exact hslot, (hcontent a ha).symm⟩
    · exact ⟨a, ha, rfl⟩
  intro i j a b ha hb hseq
  obtain ⟨a', ha', hsa⟩ := hold ha
  obtain ⟨b', hb', hsb⟩ := hold hb
  exact h ha' hb' (by rw [hsa, hsb, hseq])

/-- A pool stays `Distinct` when `rest` turns every event into nothing or into an event of its
number. -/
theorem Distinct.bind {p p' : Pool n} (h : p.Distinct) {rest : Event → Option Event}
    (hget : ∀ slot, p'.get? slot = (p.get? slot).bind rest)
    (hrest : ∀ e, ∀ e' ∈ rest e, e'.seq = e.seq) : p'.Distinct := by
  intro i j a b ha hb hseq
  rw [hget] at ha hb
  obtain ⟨a', ha', hfrom⟩ := Option.bind_eq_some_iff.mp ha
  obtain ⟨b', hb', hfrom'⟩ := Option.bind_eq_some_iff.mp hb
  exact h ha' hb' (by rw [← hrest a' a hfrom, ← hrest b' b hfrom', hseq])

/-! ## Sums over the slots -/

section Total

variable {M : Type} [AddCommMonoid M]

/-- The sum of `f` over all pending events, each taken with its slot. -/
def total (p : Pool n) (f : Nat → Event → M) : M :=
  ∑ slot ∈ Finset.range n, (p.get? slot).elim 0 (f slot)

/-- The sums `total` of two pools that agree outside `slot` are that slot's summands added to one
and the same rest. -/
theorem total_split (p p' : Pool n) {slot : Nat} (hslot : slot < n) (f f' : Nat → Event → M)
    (hget : ∀ i, i ≠ slot → p'.get? i = p.get? i) (hf : ∀ i, i ≠ slot → f' i = f i) :
    ∃ rest, p.total f = (p.get? slot).elim 0 (f slot) + rest ∧
      p'.total f' = (p'.get? slot).elim 0 (f' slot) + rest := by
  -- The rest is the sum over the other slots, where nothing has changed.
  have hmem : slot ∈ Finset.range n := Finset.mem_range.mpr hslot
  refine ⟨∑ i ∈ (Finset.range n).erase slot, (p.get? i).elim 0 (f i), ?_, ?_⟩
  · exact (Finset.add_sum_erase _ _ hmem).symm
  · unfold total
    rw [← Finset.add_sum_erase _ _ hmem]
    congr 1
    apply Finset.sum_congr rfl
    intro i hi
    have hne : i ≠ slot := Finset.ne_of_mem_erase hi
    rw [hget i hne, hf i hne]

/-- The `total` of a quantity that is zero for every pending event is zero. -/
theorem total_eq_zero {p : Pool n} {f : Nat → Event → M}
    (h : ∀ slot e, p.get? slot = some e → f slot e = 0) : p.total f = 0 := by
  apply Finset.sum_eq_zero
  intro slot _
  cases hget : p.get? slot with
  | none => rfl
  | some e => exact h slot e hget

/-- When `f` of an event is `part` of it plus `f'` of what `rest` leaves of it, the `total` splits
in the same way. -/
theorem total_bind {p p' : Pool n} {rest : Event → Option Event}
    (hget : ∀ slot, p'.get? slot = (p.get? slot).bind rest) {f part f' : Event → M}
    (hsplit : ∀ e, f e = part e + (rest e).elim 0 f') :
    (p.total fun _ => f) = (p.total fun _ => part) + p'.total fun _ => f' := by
  unfold total
  rw [← Finset.sum_add_distrib]
  apply Finset.sum_congr rfl
  intro slot _
  rw [hget]
  cases h : p.get? slot with
  | none => simp
  | some e => simpa using hsplit e

/-- The sum of `f` over the list `events` is its `total`. -/
theorem sum_map_events (p : Pool n) (f : Event → M) :
    (p.events.map f).sum = p.total fun _ e => f e := by
  -- A list of slots adds up to the same whether the free ones are left out or count for nothing.
  have hlist : ∀ slots : List Nat,
      ((slots.filterMap fun slot => (p.get? slot).map (slot, ·)).map fun entry => f entry.2).sum =
        (slots.map fun slot => (p.get? slot).elim 0 f).sum := by
    intro slots
    induction slots with
    | nil => rfl
    | cons slot rest ih =>
      cases h : p.get? slot with
      | none => simp [h, ih]
      | some e => simp [h, ih]
  unfold events entries total
  rw [List.map_map]
  exact hlist (List.range n)

end Total

/-- The `backlog` of a pool is the `total` of `occurrencesBy`. -/
theorem backlog_eq_total (p : Pool n) (now : Nat) :
    p.backlog now = p.total fun _ e => e.occurrencesBy now := by
  rw [← sum_map_events, List.sum_eq_foldr, List.foldr_map]
  rfl

end SoftTimer.Pool
