import SoftTimer.Error
import SoftTimer.Event.Basic

/-!
# The event pool

A pool has a fixed number of slots, each free or holding a pending event. Slots are named by their
index; an index beyond the pool names a slot that is always free. A new event takes the lowest free
slot, so the position of an event says nothing about its age: that is what its number is for.

The pool is seen through `get?`. The lemmas at the end say what each operation does to it.
-/

namespace SoftTimer

/-- A pool of `n` slots for pending events. -/
@[ext]
structure Pool (n : Nat) where
  /-- What each slot holds. -/
  slots : Vector (Option Event) n
  /-- The slot of the earliest event, as of the last time it was looked for, unless that slot has
  been freed since. -/
  next : Option Nat
  /-- How many registrations have been accepted. -/
  nextSeq : Nat
deriving DecidableEq

namespace Pool

variable {n : Nat}

/-- `empty` is the pool with every slot free. -/
def empty : Pool n := ⟨Vector.replicate n none, none, 0⟩

/-- `p.get? slot` is the event in a slot, if the slot exists and is not free. -/
def get? (p : Pool n) (slot : Nat) : Option Event := p.slots[slot]?.join

/-- `p.entries` lists every pending event with its slot, in the order of the slots. -/
def entries (p : Pool n) : List (Nat × Event) :=
  (List.range n).filterMap fun slot => (p.get? slot).map (slot, ·)

/-- `p.events` lists every pending event, in the order of the slots. -/
def events (p : Pool n) : List Event := p.entries.map (·.2)

/-- `p.size` is the number of pending events. -/
def size (p : Pool n) : Nat := p.entries.length

/-- `p.isEmpty` says whether every slot is free. -/
def isEmpty (p : Pool n) : Bool := p.size == 0

/-- `p.isFull` says whether no slot is free. -/
def isFull (p : Pool n) : Bool := p.size == n

/-- `p.freeSlot?` is the lowest free slot. -/
def freeSlot? (p : Pool n) : Option Nat :=
  (List.range n).find? fun slot => (p.get? slot).isNone

/-- `p.allocate` is the lowest free slot, or the refusal of a full pool. -/
def allocate (p : Pool n) : Except TimerError Nat :=
  match p.freeSlot? with
  | some slot => .ok slot
  | none => .error .noResources

/-- `p.set slot content` replaces what a slot holds; nothing happens to a slot beyond the pool. -/
def set (p : Pool n) (slot : Nat) (content : Option Event) : Pool n :=
  { p with slots := p.slots.setIfInBounds slot content }

/-- `p.insert r` accepts a registration: gives it the next number and puts it into the lowest free
slot. -/
def insert (p : Pool n) (r : Registration) : Except TimerError (Nat × Pool n) := do
  let slot ← p.allocate
  pure (slot, { p.set slot (some { r with seq := p.nextSeq }) with nextSeq := p.nextSeq + 1 })

/-- `p.release slot` frees a slot and gives what it held. The pool no longer knows its earliest
event if it was in that slot. -/
def release (p : Pool n) (slot : Nat) : Option Event × Pool n :=
  -- The earliest event is not looked for again here, only forgotten.
  (p.get? slot,
    { p.set slot none with next := if p.next = some slot then none else p.next })

/-- `p.releaseAll slots` frees several slots, one after another. -/
def releaseAll (p : Pool n) (slots : List Nat) : Pool n :=
  slots.foldl (fun p slot => (p.release slot).2) p

/-- `p.find id value` lists the slots of all events registered under an identifier and a value, in
the order of the slots. -/
def find (p : Pool n) (id value : UInt16) : List Nat :=
  (p.entries.filter fun entry => entry.2.isFor id value).map (·.1)

/-- Applies `f` to every pending event. -/
def map (f : Event → Event) (p : Pool n) : Pool n :=
  { p with slots := p.slots.map (Option.map f) }

/-- No slot of the pool `empty` holds an event. -/
@[simp] theorem get?_empty (slot : Nat) : (empty : Pool n).get? slot = none := by
  simp only [get?, empty, Vector.getElem?_replicate]
  split <;> rfl

/-- An index beyond the pool names a free slot: `get?` finds nothing there. -/
theorem get?_eq_none_of_le {p : Pool n} {slot : Nat} (h : n ≤ slot) : p.get? slot = none := by
  simp [get?, Vector.getElem?_eq_none h]

/-- Only slots of the pool hold events: where `get?` finds one, `slot < n`. -/
theorem lt_of_get?_eq_some {p : Pool n} {slot : Nat} {e : Event} (h : p.get? slot = some e) :
    slot < n := by
  apply Nat.lt_of_not_le
  intro hle
  rw [get?_eq_none_of_le hle] at h
  cases h

/-- `set` replaces what one slot holds and leaves the others alone. -/
theorem get?_set {p : Pool n} {slot : Nat} (h : slot < n) (content : Option Event) (i : Nat) :
    (p.set slot content).get? i = if i = slot then content else p.get? i := by
  by_cases hi : i = slot
  · subst hi
    simp [get?, set, h]
  · simp [get?, set, Vector.getElem?_setIfInBounds_ne (Ne.symm hi), hi]

/-- `release` frees one slot and leaves the others alone. -/
theorem get?_release (p : Pool n) (slot i : Nat) :
    (p.release slot).2.get? i = if i = slot then none else p.get? i := by
  by_cases h : slot < n
  · exact get?_set h none i
  · have hle : n ≤ slot := Nat.le_of_not_lt h
    simp only [release, get?, set, Vector.setIfInBounds_eq_of_size_le hle]
    split
    · next hi => rw [hi]; exact get?_eq_none_of_le (p := p) hle
    · rfl

/-- The `entries` are the pending events with their slots. -/
theorem mem_entries {p : Pool n} {slot : Nat} {e : Event} :
    (slot, e) ∈ p.entries ↔ p.get? slot = some e := by
  simp only [entries, List.mem_filterMap, List.mem_range, Option.map_eq_some_iff, Prod.mk.injEq]
  constructor
  · rintro ⟨_, _, _, he, rfl, rfl⟩
    exact he
  · intro h
    exact ⟨slot, lt_of_get?_eq_some h, e, h, rfl, rfl⟩

end Pool

end SoftTimer
