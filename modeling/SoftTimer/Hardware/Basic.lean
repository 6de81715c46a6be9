import SoftTimer.Counter

/-!
# Timer hardware

What the scheduler needs of a board: a wrapping counter, compare channels that raise an interrupt
when the counter meets them, and a way to mask those interrupts. A board whose interrupts cannot be
masked from here keeps the defaults, under which they always count as enabled and masking does
nothing; `CounterOnly` strips any hardware down to that.
-/

namespace SoftTimer

/-- A hardware timer. Reading the counter (`readCounter`) may change the hardware, as a simulated
counter does that moves on by itself. -/
class TimerHardware (H : Type) where
  /-- How many bits the counter has. -/
  width : H → CounterWidth
  /-- The counter's rate in ticks per second. -/
  tickHz : H → Nat
  /-- Reads the counter. -/
  readCounter : H → Nat × H
  /-- Arms a compare channel to raise an interrupt when the counter meets a reading. -/
  armChannel : H → Nat → Nat → H
  /-- Unmasks the timer's interrupts. -/
  enableInterrupts : H → H := fun hw => hw
  /-- Masks the timer's interrupts. -/
  disableInterrupts : H → H := fun hw => hw
  /-- Whether the timer's interrupts are not masked. -/
  interruptsEnabled : H → Bool := fun _ => true

/-- Hardware of which only the counter and the compare channels are wired. Its interrupts are as
`TimerHardware` has them by default. -/
structure CounterOnly (H : Type) where
  /-- The hardware behind it. -/
  inner : H
deriving DecidableEq

instance {H : Type} [TimerHardware H] : TimerHardware (CounterOnly H) where
  width hw := TimerHardware.width hw.inner
  tickHz hw := TimerHardware.tickHz hw.inner
  readCounter hw :=
    let (reading, inner) := TimerHardware.readCounter hw.inner
    (reading, ⟨inner⟩)
  armChannel hw channel reading := ⟨TimerHardware.armChannel hw.inner channel reading⟩

/-- A board that carries one of two kinds of hardware, `H` or `H'`. -/
instance {H H' : Type} [TimerHardware H] [TimerHardware H'] : TimerHardware (H ⊕ H') where
  width
    | .inl hw => TimerHardware.width hw
    | .inr hw => TimerHardware.width hw
  tickHz
    | .inl hw => TimerHardware.tickHz hw
    | .inr hw => TimerHardware.tickHz hw
  readCounter
    | .inl hw => (TimerHardware.readCounter hw).map id .inl
    | .inr hw => (TimerHardware.readCounter hw).map id .inr
  armChannel hw channel reading :=
    hw.map (TimerHardware.armChannel · channel reading) (TimerHardware.armChannel · channel reading)
  enableInterrupts hw := hw.map TimerHardware.enableInterrupts TimerHardware.enableInterrupts
  disableInterrupts hw := hw.map TimerHardware.disableInterrupts TimerHardware.disableInterrupts
  interruptsEnabled
    | .inl hw => TimerHardware.interruptsEnabled hw
    | .inr hw => TimerHardware.interruptsEnabled hw

end SoftTimer
