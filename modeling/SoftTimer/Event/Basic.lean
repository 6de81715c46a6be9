import SoftTimer.Saturating
import SoftTimer.Event.Flags

/-!
# Pending events

An event is a registration with the number under which it was accepted. It is due at its timestamp,
an absolute time in microseconds; a repeating one has a period. Events fire by timestamp, and those
with equal timestamps in the order in which they were registered (`Event.precedes`).

A repeating event that is late can move in two ways, and both keep it on the grid of its first
timestamp and period. `catchUp` moves it to the first point after now, `align` to the last point at
or before now, where it is still due. Both count the periods they add. Near the end of time the grid
runs out of 64-bit words: `catchUp` then stops at the last word, and `advancePast` refuses the one
case in which even the count of periods would not fit.
-/

namespace SoftTimer

/-- What a caller asks to be told, and when: first at `timestamp`, and then every `period` if that
is not zero. -/
@[ext]
structure Registration where
  /-- The absolute time in microseconds at which the event is due. -/
  timestamp : Nat
  /-- The microseconds from one occurrence to the next, or zero for an event that fires once. -/
  period : Nat
  /-- The caller's identifier. -/
  id : UInt16
  /-- The caller's value. -/
  value : UInt16
  /-- What the event may do besides firing. -/
  flags : EventFlags
deriving DecidableEq, Repr

/-- A registration that was accepted and is pending. Its number `seq` says how many were accepted
before. -/
@[ext]
structure Event extends Registration where
  /-- How many registrations were accepted before this one. -/
  seq : Nat
deriving DecidableEq, Repr

/-- What `advancePast` is refused for: the count of periods to advance by does not fit in 64 bits.
-/
inductive StepOverflow where
  /-- The grid of the event has as many points by now as there are 64-bit words. -/
  | stepCount
deriving DecidableEq, Repr

namespace Event

/-- `e.repeats` says whether the event stays pending after it fires. -/
def repeats (e : Event) : Bool := e.period != 0

/-- `e.wakes` says whether the event may wake the device from deep sleep. -/
def wakes (e : Event) : Bool := e.flags.wakes

/-- `e.isFor id value` says whether the event was registered under this identifier and value. -/
def isFor (e : Event) (id value : UInt16) : Bool := e.id == id && e.value == value

/-- Whether the event is due at or before `now`. -/
def isDue (e : Event) (now : Nat) : Bool := e.timestamp ≤ now

/-- `e.precedes other` says whether the event fires before the other: at an earlier time, or at the
same time and registered earlier. -/
def precedes (e other : Event) : Bool :=
  e.timestamp < other.timestamp || (e.timestamp == other.timestamp && e.seq < other.seq)

/-- The periods that fit between the timestamp and `now`. -/
def periodsBy (e : Event) (now : Nat) : Nat := (now - e.timestamp) / e.period

/-- How many occurrences of the event are due at `now`. -/
def occurrencesBy (e : Event) (now : Nat) : Nat :=
  if e.isDue now then (if e.repeats then e.periodsBy now + 1 else 1) else 0

/-- The event `steps` periods later. -/
def shift (e : Event) (steps : Nat) : Event :=
  { e with timestamp := sat64 (e.timestamp + steps * e.period) }

/-- Moves a late repeating event to its first occurrence after `now`. Also gives the number of
periods added, which is zero for any other event. -/
def catchUp (e : Event) (now : Nat) : Nat × Event :=
  if e.repeats && e.isDue now then
    let steps := e.periodsBy now + 1
    (steps, e.shift steps)
  else
    (0, e)

/-- `catchUp` for an event that may stand anywhere: refused when the number of periods does not fit
in 64 bits. -/
def advancePast (e : Event) (now : Nat) : Except StepOverflow (Nat × Event) :=
  let moved := e.catchUp now
  if moved.1 ≤ max64 then .ok moved else .error .stepCount

/-- Moves a late repeating event to its last occurrence at or before `now`, where it is still due.
Also gives the number of periods added, which is zero for any other event. -/
def align (e : Event) (now : Nat) : Nat × Event :=
  if e.repeats && e.isDue now then
    let steps := e.periodsBy now
    (steps, { e with timestamp := e.timestamp + steps * e.period })
  else
    (0, e)

@[simp] theorem shift_seq (e : Event) (steps : Nat) : (e.shift steps).seq = e.seq := rfl

@[simp] theorem shift_period (e : Event) (steps : Nat) : (e.shift steps).period = e.period := rfl

/-- Unless it is refused, `advancePast` does what `catchUp` does. -/
theorem eq_catchUp_of_advancePast {e : Event} {now : Nat} {moved : Nat × Event}
    (h : e.advancePast now = .ok moved) : moved = e.catchUp now := by
  unfold advancePast at h
  dsimp only at h
  split at h
  · exact (Except.ok.inj h).symm
  · cases h

/-- `catchUp` changes nothing but the `timestamp`. -/
theorem catchUp_same (e : Event) (now : Nat) :
    (e.catchUp now).2 = { e with timestamp := (e.catchUp now).2.timestamp } := by
  unfold catchUp
  split <;> rfl

/-- `align` changes nothing but the `timestamp`. -/
theorem align_same (e : Event) (now : Nat) :
    (e.align now).2 = { e with timestamp := (e.align now).2.timestamp } := by
  unfold align
  split <;> rfl

/-- `align` keeps the number of the event. -/
theorem align_seq (e : Event) (now : Nat) : (e.align now).2.seq = e.seq := by rw [align_same]

/-- `precedes` is the lexicographic order on timestamp and registration number. -/
theorem precedes_iff (e other : Event) :
    e.precedes other = true ↔
      e.timestamp < other.timestamp ∨ e.timestamp = other.timestamp ∧ e.seq < other.seq := by
  simp [precedes]

end Event

end SoftTimer
