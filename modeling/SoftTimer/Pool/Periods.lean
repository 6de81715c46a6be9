import SoftTimer.Pool.Basic

/-!
# Moving the events of a pool

The period arithmetic of a single event, applied to the event in a slot, or to every pending event
in the order of the slots.
-/

namespace SoftTimer.Pool

variable {n : Nat}

/-- `p.overdue now` lists the pending events that are due, in the order of the slots. -/
def overdue (p : Pool n) (now : Nat) : List Event := p.events.filter (·.isDue now)

/-- How many occurrences are due at `now`, of all events together. -/
def backlog (p : Pool n) (now : Nat) : Nat :=
  p.events.foldr (fun e count => e.occurrencesBy now + count) 0

/-- `p.setTimestamp slot timestamp` sets the timestamp of the event in a slot. Says whether there is
one. -/
def setTimestamp (p : Pool n) (slot timestamp : Nat) : Bool × Pool n :=
  match p.get? slot with
  | some e => (true, p.set slot (some { e with timestamp := timestamp }))
  | none => (false, p)

/-- Moves the event in a slot past `now`, if there is one. Gives the periods added. -/
def advanceSlot (p : Pool n) (slot now : Nat) : Except StepOverflow (Option Nat) × Pool n :=
  match p.get? slot with
  | some e =>
    match e.advancePast now with
    | .ok (steps, later) => (.ok (some steps), p.set slot (some later))
    | .error refused => (.error refused, p)
  | none => (.ok none, p)

/-- Lines up the event in a slot with its last occurrence by `now`, if there is one. Gives the
periods added. -/
def alignSlot (p : Pool n) (slot now : Nat) : Option Nat × Pool n :=
  match p.get? slot with
  | some e => (some (e.align now).1, p.set slot (some (e.align now).2))
  | none => (none, p)

/-- Moves the given entries past `now`, one slot after another, up to the first that is refused;
those before it have moved. -/
def advanceEntries (now : Nat) :
    List (Nat × Event) → Pool n → Except StepOverflow (List Nat) × Pool n
  | [], p => (.ok [], p)
  | (slot, e) :: rest, p =>
    match e.advancePast now with
    | .error refused => (.error refused, p)
    | .ok (steps, later) =>
      let (result, p) := advanceEntries now rest (p.set slot (some later))
      (result.map (steps :: ·), p)

/-- Moves every late repeating event past `now`. Gives the periods added to each event. -/
def advanceAll (p : Pool n) (now : Nat) : Except StepOverflow (List Nat) × Pool n :=
  advanceEntries now p.entries p

/-- Lines up every late repeating event with its last occurrence by `now`. Gives the periods added
to each event. -/
def alignAll (p : Pool n) (now : Nat) : List Nat × Pool n :=
  (p.events.map fun e => (e.align now).1, p.map fun e => (e.align now).2)

end SoftTimer.Pool
