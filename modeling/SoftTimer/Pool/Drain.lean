import SoftTimer.Config
import SoftTimer.Sink
import SoftTimer.Pool.Selection
import SoftTimer.Pool.Periods

/-!
# Draining what is due

An interrupt fires every event that is due, always the earliest first, until none is due any more.
An event that fires once is freed. A repeating event moves on, to its very next occurrence while it
may replay and otherwise past now, and so may come up again within the same drain.

Each step of a drain (`Drain.fire`) uses up at least one of the occurrences that are due, so a drain
is over after as many steps as there are occurrences at its start. That fails only when time has
reached its last word, where a repeating event stays due for ever; a drain then stops all the same.
-/

namespace SoftTimer

/-- One firing: the event as it was when it fired, and how many occurrences it skipped. -/
structure Firing where
  /-- The event, as it stood when it fired. -/
  event : Event
  /-- How many further occurrences were skipped because of this firing. -/
  collapsed : Nat
deriving DecidableEq, Repr

/-- `f.notice` is what the sink is told of a firing. -/
def Firing.notice (f : Firing) : Notice := ⟨f.event.id, f.event.value⟩

/-- A drain under way: what is left of the pool, how often each slot has fired, and all firings so
far. -/
structure Drain (n : Nat) where
  /-- The pool as it stands. -/
  pool : Pool n
  /-- How often the event of each slot has fired in this drain. -/
  counts : Vector Nat n
  /-- What has fired, in order. -/
  firings : Array Firing

namespace Drain

variable {n : Nat}

/-- `start p` is a drain about to begin. -/
def start (p : Pool n) : Drain n := ⟨p, Vector.replicate n 0, #[]⟩

/-- Where a repeating event goes when it fires for the `count`th time in a drain, and how many
occurrences it skips on the way. -/
def moveOn (config : Config) (now count : Nat) (e : Event) : Nat × Event :=
  if config.replays count then
    (0, e.shift 1)
  else
    -- One of the periods is the occurrence that fires.
    let (steps, later) := e.catchUp now
    (steps - 1, later)

/-- `d.fire` fires the event `e` of the pool, which stands in `slot`. -/
def fire (config : Config) (now slot : Nat) (e : Event) (d : Drain n) : Drain n :=
  if e.repeats then
    let count := d.counts[slot]?.getD 0 + 1
    let (skipped, later) := moveOn config now count e
    { pool := d.pool.set slot (some later)
      counts := d.counts.setIfInBounds slot count
      firings := d.firings.push ⟨e, skipped⟩ }
  else
    { d with
      pool := (d.pool.release slot).2
      firings := d.firings.push ⟨e, 0⟩ }

/-- `run` fires the earliest event again and again until none is due, at most as often as given. -/
def run (config : Config) (now : Nat) : Nat → Drain n → Drain n
  | 0, d => d
  | steps + 1, d =>
    -- Looked for anew each time, since an event that has moved on may be first again.
    match d.pool.firstDue? now with
    | none => d
    | some (slot, e) => run config now steps (d.fire config now slot e)

end Drain

/-- Fires every event due at `now`. Gives what fired, in order, and what is then pending. -/
def Pool.drain {n : Nat} (p : Pool n) (config : Config) (now : Nat) : Array Firing × Pool n :=
  let d := Drain.run config now (p.backlog now) (.start p)
  (d.firings, d.pool)

end SoftTimer
