/-!
# Event flags

A set of flags is a 32-bit word. One bit has a meaning, `EventFlags.wakeup`; the others are kept as
they are given, so that a caller may carry bits of its own. The set operations work on all bits,
except `complement`, which answers within the known bits only.
-/

namespace SoftTimer

/-- A set of event flags, one a bit. Bits with no meaning are kept. -/
@[ext]
structure EventFlags where
  /-- The word whose bits are the flags. -/
  bits : UInt32
deriving DecidableEq, Repr

namespace EventFlags

/-- `empty` has no flag. -/
def empty : EventFlags := ⟨0⟩

/-- `wakeup` is the flag of an event that may wake the device from deep sleep. -/
def wakeup : EventFlags := ⟨1⟩

/-- `all` has every flag that has a meaning. -/
def all : EventFlags := wakeup

/-- `a.union b` has the flags in either set. -/
def union (a b : EventFlags) : EventFlags := ⟨a.bits ||| b.bits⟩

/-- `a.inter b` has the flags in both sets. -/
def inter (a b : EventFlags) : EventFlags := ⟨a.bits &&& b.bits⟩

/-- `a.diff b` has the flags in `a` and not in `b`. -/
def diff (a b : EventFlags) : EventFlags := ⟨a.bits &&& ~~~b.bits⟩

/-- `a.truncate` has the known flags of a set; unknown bits are dropped. -/
def truncate (a : EventFlags) : EventFlags := a.inter all

/-- `a.complement` has the known flags that are not in the set. -/
def complement (a : EventFlags) : EventFlags := truncate ⟨~~~a.bits⟩

/-- `a.isEmpty` says whether no bit is set, known or not. -/
def isEmpty (a : EventFlags) : Bool := a.bits == 0

/-- `a.contains b` says whether `a` has every flag of `b`. -/
def contains (a b : EventFlags) : Bool := a.inter b == b

/-- `a.intersects b` says whether the sets share a flag. -/
def intersects (a b : EventFlags) : Bool := !(a.inter b).isEmpty

/-- `a.isAll` says whether every known flag is in the set. -/
def isAll (a : EventFlags) : Bool := a.contains all

/-- `ofBits? bits` is the set with exactly these bits, if all of them are known. -/
def ofBits? (bits : UInt32) : Option EventFlags :=
  if (truncate ⟨bits⟩).bits = bits then some ⟨bits⟩ else none

/-- `a.wakes` says whether `wakeup` is in the set. -/
def wakes (a : EventFlags) : Bool := a.contains wakeup

end EventFlags

end SoftTimer
