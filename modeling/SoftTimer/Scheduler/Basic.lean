import SoftTimer.Clock
import SoftTimer.Config
import SoftTimer.Sink
import SoftTimer.Stats
import SoftTimer.Hardware.Mask
import SoftTimer.Pool.Selection

/-!
# The scheduler

A scheduler multiplexes any number of pending events onto two compare channels of one timer. The
primary channel is armed for the earliest event. The fallback channel is armed at a bounded distance
every time, so that the clock sees every turn of the counter, and the events are looked at again,
even if an interrupt of the primary channel is lost.

The steps in this module (`sync`, `rearm`) are the parts of which the operations are made. An
operation runs them in a masked section (`masked`).
-/

namespace SoftTimer

/-- A scheduler on hardware `H` that delivers to a sink `K` and has `n` slots for events. -/
@[ext]
structure Scheduler (H K : Type) (n : Nat) where
  /-- The timer that drives it. -/
  hw : H
  /-- Where firings go. -/
  sink : K
  /-- The time. -/
  clock : Clock
  /-- The pending events. -/
  pool : Pool n
  /-- How it is set up. -/
  config : Config
  /-- What it has done. -/
  stats : Stats
  /-- The ticks from now at which the fallback channel is armed. -/
  fallbackTicks : Nat
  /-- Whether time tracking is handed over, so that the clock stands still. -/
  suspended : Bool

namespace Scheduler

variable {H K : Type} {n : Nat}

/-- `fallbackDistance clock config` is the ticks at which the fallback channel is armed: those of
the configured interval, but one at least, and at most half of what the counter can show. -/
def fallbackDistance (clock : Clock) (config : Config) : Nat :=
  min (max (clock.usToTicks config.fallbackIntervalUs) 1) (clock.width.mask / 2)

/-- `s.nextEventTime?` is the due time of the earliest event, as of the last time the channels were
armed. -/
def nextEventTime? (s : Scheduler H K n) : Option Nat := s.pool.nextEvent?.map (·.timestamp)

/-- `s.nextWakeTime?` is the due time of the earliest event that may wake the device. -/
def nextWakeTime? (s : Scheduler H K n) : Option Nat := s.pool.wakeTime?

/-- `s.pending` is the number of pending events. -/
def pending (s : Scheduler H K n) : Nat := s.pool.size

/-- The ticks from now at which an event due in `us` microseconds is armed for: no fewer than the
configured least distance, and no more than the fallback distance. -/
def armDistance (s : Scheduler H K n) (us : Nat) : Nat :=
  min (max (s.clock.usToTicks us) s.config.minArmTicks) s.fallbackTicks

variable [TimerHardware H]

/-- `s.sync` brings the clock up to date with the counter. While suspended the clock stands still
and the counter is not read. -/
def sync (s : Scheduler H K n) : Scheduler H K n :=
  if s.suspended then
    s
  else
    let (reading, hw) := TimerHardware.readCounter s.hw
    { s with hw := hw, clock := s.clock.sync reading }

/-- `s.armAhead channel ticks` arms a channel at a distance from the last reading. -/
def armAhead (s : Scheduler H K n) (channel ticks : Nat) : Scheduler H K n :=
  { s with
    hw := TimerHardware.armChannel s.hw channel (s.clock.width.offset s.clock.reading ticks) }

/-- `s.armPrimary` arms the primary channel for the earliest event, if there is one. -/
def armPrimary (s : Scheduler H K n) : Scheduler H K n :=
  match s.pool.nextEvent? with
  | some e => s.armAhead s.config.primaryChannel (s.armDistance (e.timestamp - s.clock.timeUs))
  | none => s

/-- `s.armFallback` arms the fallback channel. -/
def armFallback (s : Scheduler H K n) : Scheduler H K n :=
  s.armAhead s.config.fallbackChannel s.fallbackTicks

/-- `s.refresh` looks for the earliest event. -/
def refresh (s : Scheduler H K n) : Scheduler H K n := { s with pool := s.pool.recompute }

/-- `s.rearm` looks for the earliest event and, unless suspended, arms both channels from now. -/
def rearm (s : Scheduler H K n) : Scheduler H K n :=
  if s.suspended then s.refresh else s.refresh.sync.armPrimary.armFallback

/-- `masked act` runs the operation `act` in a masked section. -/
def masked {α : Type} (act : Scheduler H K n → α × Scheduler H K n) (s : Scheduler H K n) :
    α × Scheduler H K n :=
  -- What was found on entering decides what is restored, whatever the operation does meanwhile.
  let (restore, hw) := IrqMask.enter s.hw
  let (result, s) := act { s with hw := hw }
  (result, { s with hw := IrqMask.leave restore s.hw })

/-- `ofHardware hw sink config` is a scheduler that has read the counter, which is its time zero,
and armed nothing yet. -/
def ofHardware (hw : H) (sink : K) (config : Config) : Scheduler H K n :=
  let (reading, hw') := TimerHardware.readCounter hw
  let clock := (Clock.new (TimerHardware.width hw) (TimerHardware.tickHz hw)).resync reading
  { hw := hw', sink := sink, clock := clock, pool := Pool.empty, config := config, stats := {}
    fallbackTicks := fallbackDistance clock config, suspended := false }

/-- `s.begin` arms the channels for the first time. -/
def begin (s : Scheduler H K n) : Scheduler H K n := (masked (fun s => ((), s.rearm)) s).2

/-- `new hw sink config` is a scheduler with the given configuration. Refused when the configuration
is not valid, or when its least distance is longer than the fallback distance that this hardware
allows. -/
def new (hw : H) (sink : K) (config : Config) : Except TimerError (Scheduler H K n) := do
  config.validate
  -- The fallback distance is known only now, because it depends on the hardware.
  let s := ofHardware hw sink config
  if s.fallbackTicks < config.minArmTicks then
    throw .invalidParameter
  return s.begin

/-- `withDefaults hw sink` is a scheduler with the configuration `Config.standard`. -/
def withDefaults (hw : H) (sink : K) : Scheduler H K n := (ofHardware hw sink .standard).begin

end Scheduler

end SoftTimer
