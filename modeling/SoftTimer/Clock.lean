import SoftTimer.Saturating
import SoftTimer.Counter

/-!
# The virtual clock

`Clock` turns readings of a narrow, wrapping counter into monotonic microseconds and milliseconds.
`sync` credits the ticks since the last reading at `1_000_000 / tickHz` microseconds each. The part
of a microsecond that is left over stays in `subUs`, in units of ticks times a million, and the part
of a millisecond in `subMs`, so nothing is lost to rounding, and observing the same reading again
changes nothing at all (`sync_self`).

The clock must be read at least once per turn of the counter. `usToTicks` goes the other way and
rounds up, so that waiting that many ticks never ends early.
-/

namespace SoftTimer

/-- `usPerSecond` microseconds are a second. It is also the scale of a clock's tick remainder,
`subUs`. -/
def usPerSecond : Nat := 1000000

/-- A clock driven by readings of a wrapping counter of some `width` and rate `tickHz`. -/
@[ext]
structure Clock where
  /-- How many bits the counter has. -/
  width : CounterWidth
  /-- The counter's rate in ticks per second. -/
  tickHz : Nat
  /-- The last reading observed. -/
  reading : Nat
  /-- How often the counter was seen to wrap, as a 32-bit word that wraps itself. -/
  wraps : Nat
  /-- The time in microseconds, which stops at the largest 64-bit value. -/
  timeUs : Nat
  /-- The time in milliseconds, which stops at the largest 64-bit value. -/
  timeMs : Nat
  /-- Microseconds not yet counted in `timeMs`. -/
  subMs : Nat
  /-- Ticks times a million not yet worth a microsecond. -/
  subUs : Nat
  /-- The time is a 64-bit word. -/
  timeUs_le : timeUs ≤ max64
  /-- The time is a 64-bit word. -/
  timeMs_le : timeMs ≤ max64
  /-- The counter moves. -/
  tickHz_pos : 0 < tickHz
  /-- The last reading is one that the counter has. -/
  reading_lt : reading < width.modulus
  /-- What is left over is less than a millisecond. -/
  subMs_lt : subMs < 1000
  /-- What is left over is less than a microsecond. -/
  subUs_lt : subUs < tickHz
deriving DecidableEq

namespace Clock

/-- `new width tickHz` is a clock at time zero, last read at zero. A rate of zero counts as one tick
per second. -/
def new (width : CounterWidth) (tickHz : Nat) : Clock where
  width := width
  tickHz := max tickHz 1
  reading := 0
  wraps := 0
  timeUs := 0
  timeMs := 0
  subMs := 0
  subUs := 0
  timeUs_le := by decide
  timeMs_le := by decide
  tickHz_pos := by omega
  reading_lt := width.modulus_pos
  subMs_lt := by decide
  subUs_lt := by omega

/-- `c.advanceUs us` credits an interval that was measured by other means. -/
def advanceUs (c : Clock) (us : Nat) : Clock :=
  { c with
    timeUs := sat64 (c.timeUs + us)
    -- Not `timeUs / 1000`: the milliseconds go on when the microseconds have saturated.
    timeMs := sat64 (c.timeMs + (c.subMs + us) / 1000)
    subMs := (c.subMs + us) % 1000
    timeUs_le := sat64_le _
    timeMs_le := sat64_le _
    subMs_lt := Nat.mod_lt _ (by decide) }

/-- `c.advanceTicks ticks` credits ticks of the counter, and carries what is not worth a whole
microsecond. -/
def advanceTicks (c : Clock) (ticks : Nat) : Clock :=
  -- Dividing only once, with the remainder kept, is what makes the clock exact over time.
  let scaled := ticks * usPerSecond + c.subUs
  { c with
    subUs := scaled % c.tickHz
    subUs_lt := Nat.mod_lt _ c.tickHz_pos }.advanceUs (scaled / c.tickHz)

/-- `c.sync raw` observes the counter and credits the ticks since the last reading. A reading below
the last one means that the counter wrapped. -/
def sync (c : Clock) (raw : Nat) : Clock :=
  let reading := c.width.reduce raw
  { c with
    reading := reading
    wraps := if reading < c.reading then (c.wraps + 1) % 0x100000000 else c.wraps
    reading_lt := c.width.reduce_lt raw }.advanceTicks (c.width.elapsed c.reading reading)

/-- Takes `raw` as the last reading without crediting any time; a carried tick is dropped. -/
def resync (c : Clock) (raw : Nat) : Clock :=
  { c with
    reading := c.width.reduce raw
    subUs := 0
    reading_lt := c.width.reduce_lt raw
    subUs_lt := c.tickHz_pos }

/-- Observes the counter `ticks` after the last reading. -/
def tick (c : Clock) (ticks : Nat) : Clock := c.sync (c.width.offset c.reading ticks)

/-- The fewest ticks in which at least `us` microseconds pass. -/
def ticksFor (c : Clock) (us : Nat) : Nat := (us * c.tickHz + (usPerSecond - 1)) / usPerSecond

/-- `ticksFor` as a 64-bit word. -/
def usToTicks (c : Clock) (us : Nat) : Nat := sat64 (c.ticksFor us)

/-- `advanceUs` of no time changes nothing. -/
theorem advanceUs_zero (c : Clock) : c.advanceUs 0 = c := by
  have hms := c.subMs_lt
  ext <;> simp only [advanceUs, Nat.add_zero]
  · exact sat64_of_le c.timeUs_le
  · rw [Nat.div_eq_of_lt hms, Nat.add_zero]
    exact sat64_of_le c.timeMs_le
  · exact Nat.mod_eq_of_lt hms

/-- `advanceTicks` of no ticks changes nothing. -/
theorem advanceTicks_zero (c : Clock) : c.advanceTicks 0 = c := by
  have hus := c.subUs_lt
  simp only [advanceTicks, Nat.zero_mul, Nat.zero_add, Nat.mod_eq_of_lt hus,
    Nat.div_eq_of_lt hus, advanceUs_zero]

/-- `sync` at the last reading changes nothing. -/
theorem sync_self (c : Clock) : c.sync c.reading = c := by
  simp only [sync, CounterWidth.reduce_of_lt c.reading_lt, CounterWidth.elapsed_self,
    Nat.lt_irrefl, if_false, advanceTicks_zero]

@[simp] theorem advanceUs_width (c : Clock) (us : Nat) : (c.advanceUs us).width = c.width := rfl

@[simp] theorem advanceUs_tickHz (c : Clock) (us : Nat) : (c.advanceUs us).tickHz = c.tickHz := rfl

@[simp] theorem sync_width (c : Clock) (raw : Nat) : (c.sync raw).width = c.width := rfl

@[simp] theorem sync_tickHz (c : Clock) (raw : Nat) : (c.sync raw).tickHz = c.tickHz := rfl

@[simp] theorem sync_reading (c : Clock) (raw : Nat) :
    (c.sync raw).reading = c.width.reduce raw := rfl

@[simp] theorem resync_width (c : Clock) (raw : Nat) : (c.resync raw).width = c.width := rfl

@[simp] theorem resync_tickHz (c : Clock) (raw : Nat) : (c.resync raw).tickHz = c.tickHz := rfl

end Clock

end SoftTimer
