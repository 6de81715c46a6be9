/-!
# Wrapping counters

A hardware timer is a counter of 16 or 32 bits that wraps to zero. Distances between its readings
are taken modulo `CounterWidth.modulus`, so the distance from a reading to a later one is right as
long as less than one full turn lies between them: `elapsed_offset` says that moving a counter on
and measuring the distance gives the ticks back.
-/

namespace SoftTimer

/-- How many bits a hardware counter has: `bits16` or `bits32`. -/
inductive CounterWidth where
  /-- A 16-bit counter. -/
  | bits16
  /-- A 32-bit counter. -/
  | bits32
deriving DecidableEq, Repr

namespace CounterWidth

/-- `w.bits` is the number of bits as a number. -/
def bits : CounterWidth → Nat
  | bits16 => 16
  | bits32 => 32

/-- `w.modulus` is the number of different readings: a counter wraps after this many ticks. -/
def modulus (w : CounterWidth) : Nat := 1 <<< w.bits

/-- `w.mask` is the largest reading. -/
def mask (w : CounterWidth) : Nat := w.modulus - 1

/-- `w.reduce raw` is the reading that a raw register value stands for: its low bits. -/
def reduce (w : CounterWidth) (raw : Nat) : Nat := raw % w.modulus

/-- The ticks from the reading `start` to the reading `stop`, if less than one turn lies between
them. -/
def elapsed (w : CounterWidth) (start stop : Nat) : Nat :=
  (w.reduce stop + w.modulus - w.reduce start) % w.modulus

/-- The reading `ticks` after `base`. -/
def offset (w : CounterWidth) (base ticks : Nat) : Nat := w.reduce (base + ticks)

/-- A counter has at least one reading, so `w.modulus` is not zero. -/
theorem modulus_pos (w : CounterWidth) : 0 < w.modulus := by cases w <;> decide

/-- `w.reduce raw` is a reading. -/
theorem reduce_lt (w : CounterWidth) (raw : Nat) : w.reduce raw < w.modulus :=
  Nat.mod_lt _ w.modulus_pos

/-- `w.reduce` keeps what is a reading already. -/
theorem reduce_of_lt {w : CounterWidth} {raw : Nat} (h : raw < w.modulus) : w.reduce raw = raw :=
  Nat.mod_eq_of_lt h

/-- `w.elapsed start stop` is less than one turn. -/
theorem elapsed_lt (w : CounterWidth) (start stop : Nat) : w.elapsed start stop < w.modulus :=
  Nat.mod_lt _ w.modulus_pos

/-- `w.offset base ticks` is a reading. -/
theorem offset_lt (w : CounterWidth) (base ticks : Nat) : w.offset base ticks < w.modulus :=
  w.reduce_lt _

/-- No ticks have `elapsed` between a reading and itself. -/
theorem elapsed_self (w : CounterWidth) (reading : Nat) :
    w.elapsed reading reading = 0 := by
  unfold elapsed
  rw [Nat.add_sub_cancel_left, Nat.mod_self]

/-- `elapsed` gives back what `offset` has moved on by, if that is less than a turn. -/
theorem elapsed_offset {w : CounterWidth} {ticks : Nat} (base : Nat) (h : ticks < w.modulus) :
    w.elapsed base (w.offset base ticks) = ticks := by
  have hm := w.modulus_pos
  have hb := w.reduce_lt base
  have hsplit : w.offset base ticks = (w.reduce base + ticks) % w.modulus := by
    unfold offset reduce
    rw [Nat.mod_add_mod]
  unfold elapsed
  rw [reduce_of_lt (w.offset_lt base ticks), hsplit]
  -- The counter wraps at most once on the way.
  by_cases hwrap : w.reduce base + ticks < w.modulus
  · rw [Nat.mod_eq_of_lt hwrap]
    have : w.reduce base + ticks + w.modulus - w.reduce base = ticks + w.modulus := by omega
    rw [this, Nat.add_mod_right, Nat.mod_eq_of_lt h]
  · have hlow : (w.reduce base + ticks) % w.modulus = w.reduce base + ticks - w.modulus := by
      rw [Nat.mod_eq_sub_mod (by omega), Nat.mod_eq_of_lt (by omega)]
    rw [hlow]
    have : w.reduce base + ticks - w.modulus + w.modulus - w.reduce base = ticks := by omega
    rw [this, Nat.mod_eq_of_lt h]

/-- `offset` by the ticks `elapsed` from `start` to `stop` arrives at `stop`. -/
theorem offset_elapsed {w : CounterWidth} {start stop : Nat} (h : start < w.modulus)
    (h' : stop < w.modulus) : w.offset start (w.elapsed start stop) = stop := by
  unfold offset elapsed
  rw [reduce_of_lt h, reduce_of_lt h']
  unfold reduce
  rw [Nat.add_mod_mod]
  have : start + (stop + w.modulus - start) = stop + w.modulus := by omega
  rw [this, Nat.add_mod_right, Nat.mod_eq_of_lt h']

end CounterWidth

end SoftTimer
