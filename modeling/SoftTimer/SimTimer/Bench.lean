import SoftTimer.SimTimer.Basic

/-!
# Hardware on the bench

Hardware with a simulated timer inside, which can be looked at and handled directly whatever of it
is wired to the scheduler.
-/

namespace SoftTimer

/-- Hardware with a simulated timer inside, which `timer` shows and `setTimer` replaces. -/
class OnBench (H : Type) where
  /-- The simulated timer. -/
  timer : H → SimTimer
  /-- Replaces the simulated timer. -/
  setTimer : H → SimTimer → H

namespace OnBench

instance : OnBench SimTimer := ⟨id, fun _ timer => timer⟩

instance {H : Type} [OnBench H] : OnBench (CounterOnly H) where
  timer hw := timer hw.inner
  setTimer hw t := ⟨setTimer hw.inner t⟩

instance {H H' : Type} [OnBench H] [OnBench H'] : OnBench (H ⊕ H') where
  timer
    | .inl hw => timer hw
    | .inr hw => timer hw
  setTimer hw t := hw.map (setTimer · t) (setTimer · t)

/-- `modify f hw` changes the simulated timer. -/
def modify {H : Type} [OnBench H] (f : SimTimer → SimTimer) (hw : H) : H :=
  setTimer hw (f (timer hw))

/-- `step hw maxTicks` steps the simulated timer to its next compare match. -/
def step {H : Type} [OnBench H] (hw : H) (maxTicks : Nat) : Option (Nat × Nat) × H :=
  let (found, t) := (timer hw).step maxTicks
  (found, setTimer hw t)

end OnBench

/-- A simulated timer, wired in full or (as `CounterOnly`) only as far as its counter and channels.
-/
abbrev Rig : Type := SimTimer ⊕ CounterOnly SimTimer

end SoftTimer
