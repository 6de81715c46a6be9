import SoftTimer.Pool.Basic

/-!
# Choosing an event

The earliest event of a pool is the one that precedes all others: the smallest timestamp, and of
equal timestamps the smallest number. It is found by one pass over the slots that keeps the best
entry so far. The pool remembers the slot it found last (`recompute`), for callers that only need to
look.
-/

namespace SoftTimer.Pool

variable {n : Nat}

/-- `sooner best entry` is the one of the two that fires first: the best so far unless the other
`precedes` it. -/
def sooner : Option (Nat × Event) → Nat × Event → Option (Nat × Event)
  | none, entry => some entry
  | some best, entry => if entry.2.precedes best.2 then some entry else some best

/-- `p.first? accept` is the earliest event that is accepted, with its slot. -/
def first? (p : Pool n) (accept : Event → Bool) : Option (Nat × Event) :=
  (p.entries.filter fun entry => accept entry.2).foldl sooner none

/-- `p.earliestMatching accept` is the slot of the earliest event that is accepted. -/
def earliestMatching (p : Pool n) (accept : Event → Bool) : Option Nat :=
  (p.first? accept).map (·.1)

/-- `p.earliest` is the slot of the earliest event. -/
def earliest (p : Pool n) : Option Nat := p.earliestMatching fun _ => true

/-- `p.firstDue? now` is the earliest event with its slot, if it is due. -/
def firstDue? (p : Pool n) (now : Nat) : Option (Nat × Event) :=
  (p.first? fun _ => true).filter fun entry => entry.2.isDue now

/-- `p.earliestDue now` is the slot of the earliest event, if that event is due. -/
def earliestDue (p : Pool n) (now : Nat) : Option Nat := (p.firstDue? now).map (·.1)

/-- `p.recompute` looks for the earliest event and remembers its slot. -/
def recompute (p : Pool n) : Pool n := { p with next := p.earliest }

/-- `p.nextEvent?` is the event in the remembered slot. -/
def nextEvent? (p : Pool n) : Option Event := p.next.bind p.get?

/-- `p.wakeTime?` is the timestamp of the earliest event that may wake the device. -/
def wakeTime? (p : Pool n) : Option Nat := (p.first? Event.wakes).map (·.2.timestamp)

@[simp] theorem get?_recompute (p : Pool n) (slot : Nat) :
    p.recompute.get? slot = p.get? slot := rfl

@[simp] theorem next_recompute (p : Pool n) : p.recompute.next = p.earliest := rfl

/-- `recompute` does not change which slot is the `earliest`. -/
@[simp] theorem earliest_recompute (p : Pool n) : p.recompute.earliest = p.earliest := rfl

end SoftTimer.Pool
