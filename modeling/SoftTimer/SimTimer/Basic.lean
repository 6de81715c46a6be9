import SoftTimer.Hardware.Basic

/-!
# A simulated timer

A timer for the bench: a counter that moves only when it is told to, or by a set number of ticks
every time it is read, and four compare channels. A channel is disarmed when the counter is stepped
onto it. The timer also counts how often channels were armed and interrupts masked.

`step` is what drives a scheduler: it moves the counter to the nearest armed channel, if there is
one within reach, and says which it was.
-/

namespace SoftTimer

/-- A simulated timer: a counter, its compare channels, and whether interrupts are `enabled`. -/
@[ext]
structure SimTimer where
  /-- How many bits the counter has. -/
  width : CounterWidth
  /-- The counter's rate in ticks per second. -/
  tickHz : Nat
  /-- The counter. -/
  counter : Nat
  /-- How many ticks the counter moves on every time it is read. -/
  autoAdvance : Nat
  /-- The reading for which each channel is armed. -/
  channels : Vector (Option Nat) 4
  /-- How often a channel was armed. -/
  armCount : Nat
  /-- Whether interrupts are enabled. -/
  enabled : Bool
  /-- How often interrupts were masked. -/
  maskCount : Nat
  /-- The counter stands at one of its readings. -/
  counter_lt : counter < width.modulus

namespace SimTimer

/-- `new width tickHz` is a timer at zero with no channel armed and interrupts enabled. -/
def new (width : CounterWidth) (tickHz : Nat) : SimTimer where
  width := width
  tickHz := tickHz
  counter := 0
  autoAdvance := 0
  channels := Vector.replicate 4 none
  armCount := 0
  enabled := true
  maskCount := 0
  counter_lt := width.modulus_pos

/-- `standard` is the timer used when no other is described: 32 bits at one tick per microsecond. -/
def standard : SimTimer := new .bits32 1000000

/-- `t.setCounter raw` overwrites the counter, as a reset does. -/
def setCounter (t : SimTimer) (raw : Nat) : SimTimer :=
  { t with counter := t.width.reduce raw, counter_lt := t.width.reduce_lt raw }

/-- `t.advance ticks` moves the counter on. -/
def advance (t : SimTimer) (ticks : Nat) : SimTimer :=
  { t with
    counter := t.width.offset t.counter ticks
    counter_lt := t.width.offset_lt t.counter ticks }

/-- `t.setAutoAdvance ticks` sets how far the counter moves every time it is read. -/
def setAutoAdvance (t : SimTimer) (ticks : Nat) : SimTimer := { t with autoAdvance := ticks }

/-- `t.compare? channel` is the reading for which a channel is armed. -/
def compare? (t : SimTimer) (channel : Nat) : Option Nat := t.channels[channel]?.join

/-- `t.ticksUntil? channel` is the ticks until the counter meets a channel, if the channel is armed.
-/
def ticksUntil? (t : SimTimer) (channel : Nat) : Option Nat :=
  (t.compare? channel).map fun reading => t.width.elapsed t.counter reading

/-- `t.armed` lists the armed channels and the ticks until the counter meets each, by channel
number. -/
def armed (t : SimTimer) : List (Nat × Nat) :=
  (List.range 4).filterMap fun channel => (t.ticksUntil? channel).map (channel, ·)

/-- `nearer best entry` is the nearer of the two channels; the best so far if they are equally near.
-/
def nearer : Option (Nat × Nat) → Nat × Nat → Option (Nat × Nat)
  | none, entry => some entry
  | some best, entry => if entry.2 < best.2 then some entry else some best

/-- `t.nextCompare?` is the nearest armed channel and the ticks until the counter meets it. Of
channels equally near it is the one with the lowest number. -/
def nextCompare? (t : SimTimer) : Option (Nat × Nat) := t.armed.foldl nearer none

/-- `t.disarm channel` disarms a channel. -/
def disarm (t : SimTimer) (channel : Nat) : SimTimer :=
  { t with channels := t.channels.setIfInBounds channel none }

/-- Moves the counter on to the nearest armed channel, if it is met within `maxTicks`, and disarms
it. Gives the channel and the ticks taken. Otherwise moves the counter on by `maxTicks`. -/
def step (t : SimTimer) (maxTicks : Nat) : Option (Nat × Nat) × SimTimer :=
  match t.nextCompare? with
  | some (channel, ticks) =>
    if ticks ≤ maxTicks then
      (some (channel, ticks), (t.advance ticks).disarm channel)
    else
      (none, t.advance maxTicks)
  | none => (none, t.advance maxTicks)

/-- `t.readCounter` reads the counter, which then moves on by itself if it was told to. -/
def readCounter (t : SimTimer) : Nat × SimTimer := (t.counter, t.advance t.autoAdvance)

/-- `t.armChannel channel reading` arms a channel; a channel that the timer does not have is
ignored. -/
def armChannel (t : SimTimer) (channel reading : Nat) : SimTimer :=
  if channel < 4 then
    { t with
      channels := t.channels.setIfInBounds channel (some (t.width.reduce reading))
      armCount := t.armCount + 1 }
  else
    t

instance : TimerHardware SimTimer where
  width := width
  tickHz := tickHz
  readCounter := readCounter
  armChannel := armChannel
  enableInterrupts t := { t with enabled := true }
  disableInterrupts t := { t with enabled := false, maskCount := t.maskCount + 1 }
  interruptsEnabled := enabled

/-- `advance` by no ticks changes nothing. -/
@[simp] theorem advance_zero (t : SimTimer) : t.advance 0 = t := by
  ext1 <;> simp [advance, CounterWidth.offset, CounterWidth.reduce_of_lt t.counter_lt]

/-- A counter that does not move by itself is not changed by `readCounter`. -/
theorem readCounter_of_still {t : SimTimer} (h : t.autoAdvance = 0) :
    t.readCounter = (t.counter, t) := by
  simp [readCounter, h]

end SimTimer

end SoftTimer
