/-!
# Registries

A registry holds the timer that was registered first. Later ones are turned away until it is
cleared.
-/

namespace SoftTimer

/-- A holder of one timer, which is named by a value of type `τ`. -/
@[ext]
structure Registry (τ : Type) where
  /-- The timer held. -/
  held : Option τ
deriving DecidableEq, Repr

namespace Registry

variable {τ : Type}

/-- `empty` is a registry that holds no timer. -/
def empty : Registry τ := ⟨none⟩

/-- `r.isRegistered` says whether a timer is held. -/
def isRegistered (r : Registry τ) : Bool := r.held.isSome

/-- `r.register timer` takes a timer unless one is held. Says whether it was taken. -/
def register (r : Registry τ) (timer : τ) : Bool × Registry τ :=
  if r.isRegistered then (false, r) else (true, ⟨some timer⟩)

/-- After `register` the timer held is the one held before, or else the new one. -/
theorem held_register (r : Registry τ) (timer : τ) :
    (r.register timer).2.held = some (r.held.getD timer) := by
  cases h : r.held <;> simp [register, isRegistered, h]

end Registry

end SoftTimer
