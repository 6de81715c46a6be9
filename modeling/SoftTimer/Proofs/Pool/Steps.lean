import Mathlib.Data.List.Induction
import SoftTimer.Proofs.Pool.Earliest

/-!
# A pool in use

Slots are used again and again, so a slot does not tell which event is meant: since an event was
found to be the earliest, its slot may have come free and may hold another event by now. Events are
told apart by their numbers. The main statement, `stays_in_order`, is about any steps that may be
taken with an empty pool (`PoolStep`). The number of a pending event is then its place among all
events that were ever put into the pool (`insertions`). The slot remembered is that of the event
chosen when the earliest one was last looked for, as long as that very event is pending, and no slot
is remembered otherwise.

Apart from looking for the earliest event, a step comes to one of three changes (`Change`): a free
slot takes an event, a slot is freed, or events come to stand at other times. All else is derived
from that. One invariant ties the pending events to what was put in (`Recorded`), and another ties
the slot remembered to the event chosen (`Remembers`).
-/

namespace SoftTimer

/-- One operation of the pool, as a step of a history of `Pool.perform`. -/
inductive PoolStep where
  /-- A registration is put into it, if a slot is free. -/
  | insert (r : Registration)
  /-- A slot is freed, even if it is free already or if there is no such slot. -/
  | release (slot : Nat)
  /-- The event in a slot comes to stand at any other time. -/
  | setTimestamp (slot timestamp : Nat)
  /-- The event in a slot catches up. -/
  | advance (slot now : Nat)
  /-- The event in a slot is lined up. -/
  | align (slot now : Nat)
  /-- Every event catches up, up to the first that cannot. -/
  | advanceAll (now : Nat)
  /-- Every event is lined up. -/
  | alignAll (now : Nat)
  /-- The earliest event is looked for. -/
  | recompute
deriving DecidableEq, Repr

namespace Event

/-- The event with its `timestamp` set to zero, for comparing all but the time. -/
def untimed (e : Event) : Event := { e with timestamp := 0 }

/-- Two events are the same `untimed` when one is the other with some `timestamp`. -/
theorem untimed_eq_iff {e e' : Event} :
    e.untimed = e'.untimed ↔ e = { e' with timestamp := e.timestamp } := by
  obtain ⟨⟨t, period, id, value, flags⟩, seq⟩ := e
  obtain ⟨⟨t', period', id', value', flags'⟩, seq'⟩ := e'
  simp [untimed]

theorem seq_eq_of_untimed {e e' : Event} (h : e.untimed = e'.untimed) : e.seq = e'.seq := by
  rw [untimed_eq_iff.mp h]

theorem untimed_align (e : Event) (now : Nat) : (e.align now).2.untimed = e.untimed := by
  rw [align_same]
  rfl

theorem untimed_advancePast {e later : Event} {now steps : Nat}
    (h : e.advancePast now = .ok (steps, later)) : later.untimed = e.untimed := by
  have hcatch := congrArg (fun moved => moved.2.untimed) (eq_catchUp_of_advancePast h)
  rw [catchUp_same] at hcatch
  exact hcatch

end Event

namespace Pool

variable {n : Nat}

/-! ## Steps -/

/-- The pool after one `PoolStep`. -/
def perform (p : Pool n) : PoolStep → Pool n
  | .insert r =>
    match p.insert r with
    | .ok (_, p') => p'
    | .error _ => p
  | .release slot => (p.release slot).2
  | .setTimestamp slot timestamp => (p.setTimestamp slot timestamp).2
  | .advance slot now => (p.advanceSlot slot now).2
  | .align slot now => (p.alignSlot slot now).2
  | .advanceAll now => (p.advanceAll now).2
  | .alignAll now => (p.alignAll now).2
  | .recompute => p.recompute

/-- The pool that `empty` has become after the steps. -/
def after (n : Nat) (steps : List PoolStep) : Pool n := steps.foldl perform empty

/-- What a `PoolStep` puts into the pool, and into which slot, if it puts anything. -/
def placed? (p : Pool n) : PoolStep → Option (Nat × Registration)
  | .insert r =>
    match p.insert r with
    | .ok (slot, _) => some (slot, r)
    | .error _ => none
  | _ => none

/-- The registrations that the steps put into the pool, with their slots, in the order of the steps.
-/
def insertions (p : Pool n) : List PoolStep → List (Nat × Registration)
  | [] => []
  | step :: rest => (p.placed? step).toList ++ (p.perform step).insertions rest

/-- A registration that `insert` accepts is `placed?`, and `perform` gives the pool that `insert`
does. -/
theorem perform_insert_of_ok {p p' : Pool n} {r : Registration} {slot : Nat}
    (h : p.insert r = .ok (slot, p')) :
    p.placed? (.insert r) = some (slot, r) ∧ p.perform (.insert r) = p' := by
  simp [placed?, perform, h]

/-- A registration that `insert` refuses is not `placed?`, and `perform` leaves the pool as it is.
-/
theorem perform_insert_of_error {p : Pool n} {r : Registration} {reason : TimerError}
    (h : p.insert r = .error reason) :
    p.placed? (.insert r) = none ∧ p.perform (.insert r) = p := by
  simp [placed?, perform, h]

/-- What the last step puts in comes last among the `insertions`. -/
theorem insertions_concat (p : Pool n) (steps : List PoolStep) (step : PoolStep) :
    p.insertions (steps ++ [step]) =
      p.insertions steps ++ ((steps.foldl perform p).placed? step).toList := by
  induction steps generalizing p with
  | nil => exact List.append_nil _
  | cons first rest ih =>
    rw [List.cons_append, insertions, ih, ← List.append_assoc]
    rfl

/-! ## Events at other times -/

/-- The same events are pending in the same slots of both pools, but for their `timestamp`s. -/
structure Retimed (p p' : Pool n) : Prop where
  /-- Every slot holds the same event, whatever its time is. -/
  get? : ∀ slot, (p'.get? slot).map Event.untimed = (p.get? slot).map Event.untimed
  /-- The remembered slot is the same. -/
  next : p'.next = p.next
  /-- No number has been given out. -/
  nextSeq : p'.nextSeq = p.nextSeq

namespace Retimed

variable {p p' p'' : Pool n}

theorem refl (p : Pool n) : p.Retimed p := ⟨fun _ => rfl, rfl, rfl⟩

theorem symm (h : p.Retimed p') : p'.Retimed p :=
  ⟨fun slot => (h.get? slot).symm, h.next.symm, h.nextSeq.symm⟩

theorem trans (h : p.Retimed p') (h' : p'.Retimed p'') : p.Retimed p'' :=
  ⟨fun slot => (h'.get? slot).trans (h.get? slot), h'.next.trans h.next,
    h'.nextSeq.trans h.nextSeq⟩

/-- An event pending in `p'` was pending in the same slot of `p`, but for its `timestamp`. -/
theorem exists_untimed (h : p.Retimed p') {slot : Nat} {e' : Event}
    (he' : p'.get? slot = some e') : ∃ e, p.get? slot = some e ∧ e.untimed = e'.untimed := by
  have hslot := h.get? slot
  rw [he', Option.map_some] at hslot
  exact Option.map_eq_some_iff.mp hslot.symm

end Retimed

/-- A pool is `Retimed` when one slot's event is replaced by itself at another time. -/
theorem retimed_set {p : Pool n} {slot : Nat} {e : Event}
    (h : (p.get? slot).map Event.untimed = some e.untimed) : p.Retimed (p.set slot (some e)) where
  get? i := by
    obtain ⟨_, hget, -⟩ := Option.map_eq_some_iff.mp h
    rw [get?_set (lt_of_get?_eq_some hget)]
    split
    · next hi => rw [hi, h, Option.map_some]
    · rfl
  next := rfl
  nextSeq := rfl

theorem retimed_setTimestamp (p : Pool n) (slot timestamp : Nat) :
    p.Retimed (p.setTimestamp slot timestamp).2 := by
  unfold setTimestamp
  cases hget : p.get? slot with
  | none => exact .refl p
  | some e => exact retimed_set (by rw [hget]; rfl)

theorem retimed_alignSlot (p : Pool n) (slot now : Nat) :
    p.Retimed (p.alignSlot slot now).2 := by
  unfold alignSlot
  cases hget : p.get? slot with
  | none => exact .refl p
  | some e => exact retimed_set (by rw [hget, Option.map_some, Event.untimed_align])

theorem retimed_advanceSlot (p : Pool n) (slot now : Nat) :
    p.Retimed (p.advanceSlot slot now).2 := by
  unfold advanceSlot
  cases hget : p.get? slot with
  | none => exact .refl p
  | some e =>
    cases hpast : e.advancePast now with
    | error refused =>
      simp only [hpast]
      exact .refl p
    | ok moved =>
      simp only [hpast]
      exact retimed_set (by rw [hget, Option.map_some, Event.untimed_advancePast hpast])

theorem retimed_alignAll (p : Pool n) (now : Nat) : p.Retimed (p.alignAll now).2 where
  get? slot := by
    have hsame : (Event.untimed ∘ fun e => (e.align now).2) = Event.untimed :=
      funext fun e => e.untimed_align now
    show ((p.map fun e => (e.align now).2).get? slot).map Event.untimed = _
    rw [get?_map, Option.map_map, hsame]
  next := rfl
  nextSeq := rfl

/-- A pool is `Retimed` by `advanceEntries`, however many events catch up and however far. -/
theorem retimed_advanceEntries (now : Nat) (entries : List (Nat × Event)) (p : Pool n)
    (h : ∀ entry ∈ entries, (p.get? entry.1).map Event.untimed = some entry.2.untimed) :
    p.Retimed (advanceEntries now entries p).2 := by
  induction entries generalizing p with
  | nil => exact .refl p
  | cons entry rest ih =>
    obtain ⟨slot, e⟩ := entry
    rw [List.forall_mem_cons] at h
    obtain ⟨hfirst, hrest⟩ := h
    unfold advanceEntries
    cases hpast : e.advancePast now with
    | error refused => exact .refl p
    | ok moved =>
      have hset : p.Retimed (p.set slot (some moved.2)) :=
        retimed_set (by rw [hfirst, Event.untimed_advancePast hpast])
      -- The others still stand where they stood, whatever their slots are.
      exact hset.trans (ih _ fun entry hentry => (hset.get? _).trans (hrest entry hentry))

theorem retimed_advanceAll (p : Pool n) (now : Nat) : p.Retimed (p.advanceAll now).2 :=
  retimed_advanceEntries now p.entries p fun entry hentry => by
    rw [mem_entries.mp (show (entry.1, entry.2) ∈ p.entries from hentry), Option.map_some]

/-! ## What a step comes to -/

/-- A change of a pool, indexed by what it puts in, if anything, and where. -/
inductive Change (p : Pool n) : Option (Nat × Registration) → Pool n → Prop
  /-- A free slot takes a registration, which is given the next number. -/
  | inserted {slot : Nat} {r : Registration} {p' : Pool n} (hfree : p.get? slot = none)
    (hget : ∀ i, p'.get? i = if i = slot then some { r with seq := p.nextSeq } else p.get? i)
    (hnext : p'.next = p.next) (hseq : p'.nextSeq = p.nextSeq + 1) : Change p (some (slot, r)) p'
  /-- A slot is freed. -/
  | released (slot : Nat) : Change p none (p.release slot).2
  /-- Events come to stand at other times. -/
  | retimed {p' : Pool n} (h : p.Retimed p') : Change p none p'

/-- Every step but `recompute` is one of the changes. -/
theorem change_perform (p : Pool n) {step : PoolStep} (hother : step ≠ .recompute) :
    p.Change (p.placed? step) (p.perform step) := by
  cases step with
  | insert r =>
    cases hinsert : p.insert r with
    | error reason =>
      obtain ⟨hplaced, hperform⟩ := perform_insert_of_error hinsert
      rw [hplaced, hperform]
      exact .retimed (.refl p)
    | ok granted =>
      obtain ⟨slot, p'⟩ := granted
      obtain ⟨hplaced, hperform⟩ := perform_insert_of_ok hinsert
      obtain ⟨-, hfree, hseq, hget⟩ := insert_eq_ok hinsert
      rw [hplaced, hperform]
      exact .inserted hfree hget (next_insert hinsert) hseq
  | release slot => exact .released slot
  | setTimestamp slot timestamp => exact .retimed (p.retimed_setTimestamp slot timestamp)
  | advance slot now => exact .retimed (p.retimed_advanceSlot slot now)
  | align slot now => exact .retimed (p.retimed_alignSlot slot now)
  | advanceAll now => exact .retimed (p.retimed_advanceAll now)
  | alignAll now => exact .retimed (p.retimed_alignAll now)
  | recompute => exact absurd rfl hother

/-! ## Numbers and places -/

/-- Each event still pending in `p` is what `log` recorded at the place that its number `seq` gives.
-/
structure Recorded (log : List (Nat × Registration)) (p : Pool n) : Prop where
  /-- As many numbers have been given out. -/
  nextSeq : p.nextSeq = log.length
  /-- A pending event is the one put in under its number, whatever its time is. -/
  inserted : ∀ ⦃slot : Nat⦄ ⦃e : Event⦄, p.get? slot = some e → ∃ r : Registration,
    log[e.seq]? = some (slot, r) ∧ e.untimed = Event.untimed { r with seq := e.seq }

namespace Recorded

variable {log : List (Nat × Registration)} {p p' : Pool n}

/-- A pool that is `Recorded` is `Numbered`. -/
theorem numbered (h : Recorded log p) : p.Numbered where
  distinct i j e e' he he' hseq := by
    obtain ⟨r, hplace, -⟩ := h.inserted he
    obtain ⟨r', hplace', -⟩ := h.inserted he'
    rw [hseq, hplace'] at hplace
    exact (congrArg Prod.fst (Option.some.inj hplace)).symm
  seq_lt slot e he := by
    obtain ⟨r, hplace, -⟩ := h.inserted he
    rw [h.nextSeq]
    exact (List.getElem?_eq_some_iff.mp hplace).1

/-- A pool stays `Recorded` through a `Change`, with what is put in added to the log. -/
theorem change {placed : Option (Nat × Registration)} (h : Recorded log p)
    (hchange : p.Change placed p') : Recorded (log ++ placed.toList) p' := by
  cases hchange with
  | @inserted slot r p' hfree hget hnext hseq =>
    refine ⟨?_, fun i e he => ?_⟩
    · rw [hseq, h.nextSeq, Option.toList_some, List.length_append, List.length_singleton]
    · rw [hget] at he
      split at he
      · next hi =>
        -- The event that has just been put in has the last place.
        cases he
        refine ⟨r, ?_, rfl⟩
        rw [hi, h.nextSeq, Option.toList_some, List.getElem?_concat_length]
      · obtain ⟨r', hplace, hsame⟩ := h.inserted he
        have hlt := (List.getElem?_eq_some_iff.mp hplace).1
        exact ⟨r', (List.getElem?_append_left hlt).trans hplace, hsame⟩
  | released slot =>
    rw [Option.toList_none, List.append_nil]
    refine ⟨h.nextSeq, fun i e he => ?_⟩
    rw [get?_release] at he
    split at he
    · cases he
    · exact h.inserted he
  | retimed hretimed =>
    rw [Option.toList_none, List.append_nil]
    refine ⟨hretimed.nextSeq.trans h.nextSeq, fun slot e' he' => ?_⟩
    obtain ⟨e, he, huntimed⟩ := hretimed.exists_untimed he'
    obtain ⟨r, hplace, hsame⟩ := h.inserted he
    rw [Event.seq_eq_of_untimed huntimed] at hplace hsame
    exact ⟨r, hplace, huntimed.symm.trans hsame⟩

/-- A pool stays `Recorded` through every `PoolStep`, with what is put in added to the log. -/
theorem perform (h : Recorded log p) (step : PoolStep) :
    Recorded (log ++ (p.placed? step).toList) (p.perform step) := by
  by_cases hlook : step = .recompute
  · subst hlook
    have hsame : Recorded log p.recompute := ⟨h.nextSeq, h.inserted⟩
    exact (List.append_nil log).symm ▸ hsame
  · exact h.change (p.change_perform hlook)

end Recorded

/-- From an empty pool on, the pool after the steps is `Recorded` in its own `insertions`. -/
theorem recorded_after (n : Nat) (steps : List PoolStep) :
    Recorded ((empty : Pool n).insertions steps) (after n steps) := by
  induction steps using List.reverseRecOn with
  | nil => exact ⟨rfl, fun slot e he => by cases (get?_empty slot).symm.trans he⟩
  | append_singleton before step ih =>
    unfold after
    rw [insertions_concat, List.foldl_concat]
    exact ih.perform step

/-! ## The event chosen -/

/-- The remembered slot is that of the event `chosen`, given by its slot and its number, as long as
that event is pending there. -/
structure Remembers (chosen : Option (Nat × Nat)) (p : Pool n) : Prop where
  /-- A slot is remembered exactly if it holds the event chosen. -/
  next : ∀ slot, p.next = some slot ↔ ∃ e, p.get? slot = some e ∧ chosen = some (slot, e.seq)
  /-- The number of the event chosen has been given out. -/
  lt : ∀ ⦃slot seq : Nat⦄, chosen = some (slot, seq) → seq < p.nextSeq

namespace Remembers

variable {chosen : Option (Nat × Nat)} {p p' : Pool n}

/-- No `Change` makes the pool remember another event. -/
theorem change {placed : Option (Nat × Registration)} (h : Remembers chosen p)
    (hchange : p.Change placed p') : Remembers chosen p' := by
  cases hchange with
  | @inserted slot r p' hfree hget hnext hseq =>
    refine ⟨fun i => ?_, fun i seq hchosen => hseq ▸ Nat.lt_succ_of_lt (h.lt hchosen)⟩
    rw [hnext, hget, h.next]
    split
    · next hi =>
      -- The slot was free, so it was not remembered, and the number of its event is a new one.
      subst hi
      constructor
      · rintro ⟨e, he, -⟩
        rw [hfree] at he
        cases he
      · rintro ⟨e, he, hchosen⟩
        cases he
        exact absurd (h.lt hchosen) (Nat.lt_irrefl _)
    · rfl
  | released slot =>
    refine ⟨fun i => ?_, h.lt⟩
    have hnext : (p.release slot).2.next = if p.next = some slot then none else p.next := rfl
    rw [hnext, get?_release]
    by_cases hi : i = slot
    · subst hi
      simp
    · rw [if_neg hi, ← h.next]
      split
      · next hslot =>
        rw [hslot]
        simp [Ne.symm hi]
      · rfl
  | retimed hretimed =>
    have hmoved : ∀ {p p' : Pool n} {slot : Nat}, p.Retimed p' →
        (∃ e, p'.get? slot = some e ∧ chosen = some (slot, e.seq)) →
          ∃ e, p.get? slot = some e ∧ chosen = some (slot, e.seq) := by
      rintro p p' slot hretimed ⟨e', he', hchosen⟩
      obtain ⟨e, he, huntimed⟩ := hretimed.exists_untimed he'
      exact ⟨e, he, Event.seq_eq_of_untimed huntimed ▸ hchosen⟩
    refine ⟨fun slot => ?_, fun slot seq hchosen => (h.lt hchosen).trans_eq hretimed.nextSeq.symm⟩
    rw [hretimed.next, h.next]
    exact ⟨hmoved hretimed.symm, hmoved hretimed⟩

/-- Steps without a `recompute` do not make the pool remember another event. -/
theorem foldl_perform (h : Remembers chosen p) {steps : List PoolStep}
    (hsteps : .recompute ∉ steps) : Remembers chosen (steps.foldl Pool.perform p) := by
  induction steps generalizing p with
  | nil => exact h
  | cons step rest ih =>
    rw [List.mem_cons, not_or] at hsteps
    exact ih (h.change (p.change_perform (Ne.symm hsteps.1))) hsteps.2

end Remembers

/-- After `recompute` the pool remembers the event that `first?` finds. -/
theorem remembers_recompute {p : Pool n} (hnumbered : p.Numbered) :
    Remembers ((p.first? fun _ => true).map fun found => (found.1, found.2.seq)) p.recompute := by
  constructor
  · intro slot
    show (p.first? fun _ => true).map (·.1) = some slot ↔ ∃ e, p.get? slot = some e ∧ _
    cases hfirst : p.first? fun _ => true with
    | none => simp
    | some found =>
      obtain ⟨i, first⟩ := found
      have hget : p.get? i = some first := (first?_sound hfirst).1
      simp only [Option.map_some, Option.some.injEq, Prod.mk.injEq]
      constructor
      · rintro rfl
        exact ⟨first, hget, rfl, rfl⟩
      · rintro ⟨e, -, hslot, -⟩
        exact hslot
  · intro slot seq hchosen
    obtain ⟨⟨i, first⟩, hfirst, hfound⟩ := Option.map_eq_some_iff.mp hchosen
    cases hfound
    exact hnumbered.seq_lt (first?_sound hfirst).1

/-! ## Finding events -/

/-- The list with `slot` pushed to its end, or as it was when it has `room` entries already. -/
def pushWithin (room : Nat) (found : List Nat) (slot : Nat) : List Nat :=
  if found.length < room then found ++ [slot] else found

/-- `find` with a list that has room for only so many slots, and drops the others. -/
def findWithin (room : Nat) (p : Pool n) (id value : UInt16) : List Nat :=
  p.entries.foldl (fun found entry =>
    if entry.2.isFor id value then pushWithin room found entry.1 else found) []

/-- `find` lists the slots with a matching event, in ascending order. -/
theorem find_eq_filter (p : Pool n) (id value : UInt16) :
    p.find id value = (List.range n).filter fun slot => (p.get? slot).any (·.isFor id value) :=
  p.map_fst_entries (·.isFor id value)

/-- `pushWithin` drops nothing of a list that there is `room` for. -/
theorem foldl_pushWithin {room : Nat} {found slots : List Nat}
    (h : found.length + slots.length ≤ room) :
    slots.foldl (pushWithin room) found = found ++ slots := by
  induction slots generalizing found with
  | nil => exact (List.append_nil found).symm
  | cons slot rest ih =>
    rw [List.length_cons] at h
    have hpush : pushWithin room found slot = found ++ [slot] := if_pos (by omega)
    have hrest : (found ++ [slot]).length + rest.length ≤ room := by
      rw [List.length_append, List.length_singleton]
      omega
    rw [List.foldl_cons, hpush, ih hrest, List.append_assoc, List.singleton_append]

/-- With room for as many slots as the pool has, `findWithin` lists what `find` does. -/
theorem findWithin_eq (p : Pool n) (id value : UInt16) :
    p.findWithin n id value = p.find id value := by
  have hroom : (p.find id value).length ≤ n := by
    rw [find_eq_filter]
    exact (List.length_filter_le _ _).trans_eq List.length_range
  have hpushed : p.findWithin n id value = (p.find id value).foldl (pushWithin n) [] := by
    unfold findWithin find
    rw [List.foldl_map, List.foldl_filter]
  rw [hpushed, foldl_pushWithin (by simpa using hroom), List.nil_append]

/-! ## The whole of it -/

/-- What holds of the pool that `empty n` has become after any steps. -/
structure InOrder (n : Nat) (steps : List PoolStep) : Prop where
  /-- Pending events have different numbers. -/
  distinct : (after n steps).Distinct
  /-- As many numbers have been given out as events were put in. -/
  nextSeq : (after n steps).nextSeq = ((empty : Pool n).insertions steps).length
  /-- The number of a pending event is its place among all events that were put in, counted from
  zero, and smaller than the next number. It stands in the slot that it was put into, and nothing
  about it has changed but its timestamp. -/
  inserted : ∀ slot e, (after n steps).get? slot = some e → e.seq < (after n steps).nextSeq ∧
    ∃ r : Registration, ((empty : Pool n).insertions steps)[e.seq]? = some (slot, r) ∧
      e = { r with timestamp := e.timestamp, seq := e.seq }
  /-- No slot is remembered before the earliest event is looked for. -/
  unlooked : .recompute ∉ steps → (after n steps).next = none
  /-- After the last `recompute`, a slot is remembered exactly if it holds the event that led all
  others at that time. -/
  remembered : ∀ before later, steps = before ++ .recompute :: later → .recompute ∉ later →
    ∀ slot, (after n steps).next = some slot ↔
      ∃ e e', (after n before).Leads (fun _ => true) slot e ∧
        (after n steps).get? slot = some e' ∧ e'.seq = e.seq
  /-- A registration is refused exactly if as many events are pending as there are slots, and that
  leaves the pool as it is. -/
  refused : ∀ r, ((after n steps).insert r = .error .noResources ↔ (after n steps).size = n) ∧
    ((after n steps).size = n → (after n steps).perform (.insert r) = after n steps)
  /-- Below capacity `insert` takes the lowest free slot and the next number. No other slot changes,
  and the same one is remembered. -/
  accepted : ∀ r, (after n steps).size ≠ n → ∃ slot p',
    (after n steps).insert r = .ok (slot, p') ∧ slot < n ∧ (after n steps).get? slot = none ∧
      (∀ i < slot, (after n steps).get? i ≠ none) ∧
      (∀ i, p'.get? i = if i = slot then some { r with seq := (after n steps).nextSeq }
        else (after n steps).get? i) ∧
      p'.next = (after n steps).next ∧ p'.nextSeq = (after n steps).nextSeq + 1
  /-- Releasing a slot gives what it holds and leaves it free. No other slot changes and no number
  is given out. The slot is forgotten if it was the one remembered. -/
  released : ∀ slot, ∃ p', (after n steps).release slot = ((after n steps).get? slot, p') ∧
    (∀ i, p'.get? i = if i = slot then none else (after n steps).get? i) ∧
    p'.next = (if (after n steps).next = some slot then none else (after n steps).next) ∧
    p'.nextSeq = (after n steps).nextSeq
  /-- The slots found for an identifier and a value are those of all matching events, in order. -/
  find : ∀ id value, (after n steps).find id value =
    (List.range n).filter fun slot => ((after n steps).get? slot).any (·.isFor id value)
  /-- A list with room for as many slots as the pool has drops none of them. -/
  findWithin : ∀ id value, (after n steps).findWithin n id value = (after n steps).find id value

/-- A pool that started `empty` is `InOrder` after any steps. -/
theorem stays_in_order (n : Nat) (steps : List PoolStep) : InOrder n steps := by
  have hrecorded := recorded_after n steps
  constructor
  case distinct => exact hrecorded.numbered.distinct
  case nextSeq => exact hrecorded.nextSeq
  case inserted =>
    intro slot e he
    obtain ⟨r, hplace, hsame⟩ := hrecorded.inserted he
    exact ⟨hrecorded.numbered.seq_lt he, r, hplace, Event.untimed_eq_iff.mp hsame⟩
  case unlooked =>
    intro hnever
    have hnone : Remembers none (empty : Pool n) :=
      ⟨fun slot => by simp [empty], fun slot seq h => by cases h⟩
    have hkept : Remembers none (after n steps) := hnone.foldl_perform hnever
    rw [Option.eq_none_iff_forall_ne_some]
    intro slot hslot
    obtain ⟨e, -, hchosen⟩ := (hkept.next slot).mp hslot
    cases hchosen
  case remembered =>
    intro before later hsteps hlater slot
    have hnumbered := (recorded_after n before).numbered
    have hafter : after n steps = later.foldl perform (after n before).recompute := by
      rw [hsteps]
      unfold after
      rw [List.foldl_append]
      rfl
    have hkept := (remembers_recompute hnumbered).foldl_perform hlater
    rw [← hafter] at hkept
    rw [hkept.next]
    constructor
    · rintro ⟨e', he', hchosen⟩
      obtain ⟨⟨i, e⟩, hfirst, hfound⟩ := Option.map_eq_some_iff.mp hchosen
      obtain ⟨rfl, hseq⟩ := Prod.mk.inj hfound
      exact ⟨e, e', (first?_eq_some_iff hnumbered.distinct).mp hfirst, he', hseq.symm⟩
    · rintro ⟨e, e', hleads, he', hseq⟩
      refine ⟨e', he', ?_⟩
      rw [(first?_eq_some_iff hnumbered.distinct).mpr hleads, hseq]
      rfl
  case refused =>
    refine fun r => ⟨insert_eq_noResources r, fun hfull => ?_⟩
    exact (perform_insert_of_error ((insert_eq_noResources r).mpr hfull)).2
  case accepted =>
    intro r hroom
    have hsome : (after n steps).freeSlot? ≠ none := fun hnone =>
      hroom (size_eq_iff.mpr (freeSlot?_eq_none.mp hnone))
    obtain ⟨slot, hfree⟩ := Option.ne_none_iff_exists'.mp hsome
    have hinsert := insert_of_freeSlot? hfree r
    obtain ⟨hslot, hnone, hseq, hget⟩ := insert_eq_ok hinsert
    exact ⟨slot, _, hinsert, hslot, hnone, fun i => lowest_of_freeSlot? hfree, hget, rfl, hseq⟩
  case released =>
    exact fun slot => ⟨_, rfl, get?_release _ slot, rfl, nextSeq_release _ slot⟩
  case find => exact (after n steps).find_eq_filter
  case findWithin => exact (after n steps).findWithin_eq

end Pool

end SoftTimer
