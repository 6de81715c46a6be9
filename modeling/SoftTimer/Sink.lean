/-!
# Where firings go

A scheduler tells of an event by the identifier and value under which it was registered. It tells
them to a sink, which is called while the timer's interrupts are masked and so should only take
note.
-/

namespace SoftTimer

/-- What is said of an event that fires: the `id` and the `value` of its registration. -/
@[ext]
structure Notice where
  /-- The identifier under which the event was registered. -/
  id : UInt16
  /-- The value under which the event was registered. -/
  value : UInt16
deriving DecidableEq, Repr

/-- A receiver of notices. `deliver` says what becomes of it when it is given one. -/
class EventSink (K : Type) where
  /-- Takes note of one firing. -/
  deliver : K → Notice → K

/-- A sink that keeps the notices it receives, up to a `capacity`. Those beyond it are only counted,
in `dropped`. -/
structure Recorder where
  /-- The most notices kept, if there is a limit. -/
  capacity : Option Nat
  /-- The notices kept, in the order in which they came. -/
  notices : Array Notice
  /-- How many notices were not kept. -/
  dropped : Nat
deriving DecidableEq, Repr

namespace Recorder

/-- A recorder that keeps at most `capacity` notices. -/
def bounded (capacity : Nat) : Recorder := ⟨some capacity, #[], 0⟩

/-- `unbounded` is an empty recorder that keeps every notice. -/
def unbounded : Recorder := ⟨none, #[], 0⟩

/-- `r.hasRoom` says whether another notice can be kept. -/
def hasRoom (r : Recorder) : Bool := r.capacity.all fun capacity => r.notices.size < capacity

/-- `r.deliver notice` keeps a notice, or counts it if there is no room. -/
def deliver (r : Recorder) (notice : Notice) : Recorder :=
  if r.hasRoom then
    { r with notices := r.notices.push notice }
  else
    { r with dropped := r.dropped + 1 }

/-- `r.clear` forgets everything received. -/
def clear (r : Recorder) : Recorder := { r with notices := #[], dropped := 0 }

/-- `r.size` is how many notices are kept. -/
def size (r : Recorder) : Nat := r.notices.size

/-- `r.isEmpty` says whether no notice is kept. -/
def isEmpty (r : Recorder) : Bool := r.notices.isEmpty

instance : EventSink Recorder := ⟨deliver⟩

/-- A recorder with no `capacity` keeps every notice that it is given, in order. -/
theorem notices_foldl_deliver {r : Recorder} (h : r.capacity = none) (received : List Notice) :
    (received.foldl deliver r).notices = r.notices ++ received.toArray := by
  induction received generalizing r with
  | nil => simp
  | cons notice rest ih =>
    have hroom : r.deliver notice = { r with notices := r.notices.push notice } := by
      simp [deliver, hasRoom, h]
    rw [List.foldl_cons, hroom, ih (by exact h)]
    simp

/-- A notice that is given to `deliver` is either kept or counted in `dropped`. -/
theorem size_add_dropped_deliver (r : Recorder) (notice : Notice) :
    (r.deliver notice).size + (r.deliver notice).dropped = r.size + r.dropped + 1 := by
  unfold deliver size
  split
  · simp only [Array.size_push]
    omega
  · show r.notices.size + (r.dropped + 1) = r.notices.size + r.dropped + 1
    omega

end Recorder

end SoftTimer
