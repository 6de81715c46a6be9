import SoftTimer.Error
import SoftTimer.Hardware.Mask
import SoftTimer.SimTimer.Bench

/-!
# Scripts for the bench

A script is a tree of steps on hardware with a simulated timer inside. A `guarded` step is a masked
section with a script of its own, so sections nest. A `fail` step leaves the section it stands in at
once; the section is left properly all the same, and the script around it goes on. `HwStep.run`
keeps the answer of every step and the timer as it stood then.
-/

namespace SoftTimer

/-- A step of a script. A `guarded` step holds a script of its own. -/
inductive HwStep where
  /-- Moves the counter on. -/
  | advance (ticks : Nat)
  /-- Overwrites the counter. -/
  | setCounter (raw : Nat)
  /-- Sets how far the counter moves every time it is read. -/
  | autoAdvance (ticks : Nat)
  /-- Arms a channel. -/
  | arm (channel reading : Nat)
  /-- Unmasks interrupts. -/
  | enable
  /-- Masks interrupts. -/
  | disable
  /-- Reads the counter. -/
  | read
  /-- Asks for the reading for which a channel is armed. -/
  | compare (channel : Nat)
  /-- Asks for the ticks until the counter meets a channel. -/
  | ticksUntil (channel : Nat)
  /-- Asks for the nearest armed channel. -/
  | nextCompare
  /-- Moves on to the nearest armed channel. -/
  | step (maxTicks : Nat)
  /-- Asks for the counter's width and rate. -/
  | info
  /-- Runs a script in a masked section. -/
  | guarded (body : List HwStep)
  /-- Leaves the masked section early. -/
  | fail (reason : TimerError)

/-- What a `HwStep` answers, with the trace of its own steps if it is a masked section. -/
inductive HwAnswer where
  /-- The step has nothing to say. -/
  | done
  /-- A number, if there is one. -/
  | number (n : Option Nat)
  /-- A channel and the ticks to it, if there is one. -/
  | compareMatch (found : Option (Nat × Nat))
  /-- The counter's width and its rate in ticks per second. -/
  | info (width : CounterWidth) (tickHz : Nat)
  /-- How a masked section ended, and what each of its steps answered. -/
  | masked (outcome : Except TimerError Unit) (trace : List (HwAnswer × SimTimer))

namespace HwStep

variable {H : Type} [TimerHardware H] [OnBench H]

mutual

/-- Takes a step. A `fail` step gives its reason in place of an answer. -/
def run : HwStep → H → Except TimerError HwAnswer × H
  | advance ticks, hw => (.ok .done, OnBench.modify (·.advance ticks) hw)
  | setCounter raw, hw => (.ok .done, OnBench.modify (·.setCounter raw) hw)
  | autoAdvance ticks, hw => (.ok .done, OnBench.modify (·.setAutoAdvance ticks) hw)
  | arm channel reading, hw => (.ok .done, TimerHardware.armChannel hw channel reading)
  | enable, hw => (.ok .done, TimerHardware.enableInterrupts hw)
  | disable, hw => (.ok .done, TimerHardware.disableInterrupts hw)
  | read, hw =>
    let (reading, hw) := TimerHardware.readCounter hw
    (.ok (.number (some reading)), hw)
  | compare channel, hw => (.ok (.number ((OnBench.timer hw).compare? channel)), hw)
  | ticksUntil channel, hw => (.ok (.number ((OnBench.timer hw).ticksUntil? channel)), hw)
  | nextCompare, hw => (.ok (.compareMatch (OnBench.timer hw).nextCompare?), hw)
  | step maxTicks, hw =>
    let (found, hw) := OnBench.step hw maxTicks
    (.ok (.compareMatch found), hw)
  | info, hw => (.ok (.info (TimerHardware.width hw) (TimerHardware.tickHz hw)), hw)
  | guarded body, hw =>
    let ((outcome, trace), hw) := IrqMask.within (runAll body) hw
    (.ok (.masked outcome trace), hw)
  | fail reason, hw => (.error reason, hw)

/-- `runAll` takes steps up to the first that fails. -/
def runAll : List HwStep → H → (Except TimerError Unit × List (HwAnswer × SimTimer)) × H
  | [], hw => ((.ok (), []), hw)
  | first :: rest, hw =>
    match first.run hw with
    -- A step that fails has no answer, and those after it are not taken.
    | (.error reason, hw) => ((.error reason, []), hw)
    | (.ok answer, hw) =>
      let state := OnBench.timer hw
      let ((outcome, trace), hw) := runAll rest hw
      ((outcome, (answer, state) :: trace), hw)

end

end HwStep

end SoftTimer
