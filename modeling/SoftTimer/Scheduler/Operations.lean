import SoftTimer.Scheduler.Basic

/-!
# Operating a scheduler

Reading the time, asking for events and cancelling them, and taking interrupts. Every operation runs
in a masked section, and arms the channels again when what is due first may have changed. What an
operation does there has a name of its own (`register`, `withdraw`, `handle`).
-/

namespace SoftTimer

/-- A length of time, in one of two units. `Span.toUs` gives it in microseconds. -/
inductive Span where
  /-- `us n` is `n` microseconds. -/
  | us (n : Nat)
  /-- `ms n` is `n` milliseconds. -/
  | ms (n : Nat)
deriving DecidableEq, Repr

/-- `span.toUs` is the microseconds in a span, as a 64-bit word. -/
def Span.toUs : Span → Nat
  | us n => n
  | ms n => sat64 (n * 1000)

/-- A request to be told of an event, once or (if `repeating`) every `period`. -/
structure Request where
  /-- How long from now the event is due, and how long from then to its next occurrence. -/
  period : Span
  /-- The caller's identifier. -/
  id : UInt16
  /-- The caller's value. -/
  value : UInt16
  /-- Whether the event goes on after its first occurrence. -/
  repeating : Bool
  /-- What the event may do besides firing. -/
  flags : EventFlags
deriving DecidableEq, Repr

/-- What a request registers when it is made at `now`. -/
def Request.registration (r : Request) (now : Nat) : Registration where
  timestamp := sat64 (now + r.period.toUs)
  period := if r.repeating then r.period.toUs else 0
  id := r.id
  value := r.value
  flags := r.flags

namespace Scheduler

variable {H K : Type} {n : Nat} [TimerHardware H]

/-- `timeMs` reads the time in milliseconds. -/
def timeMs : Scheduler H K n → Nat × Scheduler H K n :=
  masked fun s =>
    let s := s.sync
    (s.clock.timeMs, s)

/-- `timeUs` reads the time in microseconds. -/
def timeUs : Scheduler H K n → Nat × Scheduler H K n :=
  masked fun s =>
    let s := s.sync
    (s.clock.timeUs, s)

/-- `s.reject reason` counts a refusal and gives it as the outcome. -/
def reject (reason : TimerError) (s : Scheduler H K n) :
    Except TimerError Unit × Scheduler H K n :=
  (.error reason, { s with stats := s.stats.recordRejected })

/-- `register r` registers an event, unless it repeats with no time in between or the pool is full.
-/
def register (r : Request) (s : Scheduler H K n) : Except TimerError Unit × Scheduler H K n :=
  if r.repeating && r.period.toUs == 0 then
    s.reject .invalidParameter
  else
    -- The clock is not touched unless the request makes sense.
    let s := s.sync
    match s.pool.insert (r.registration s.clock.timeUs) with
    | .error reason => s.reject reason
    | .ok (_, pool) => (.ok (), { s with pool := pool }.rearm)

/-- `schedule r` registers an event. Refused when it repeats with no time in between, or else when
the pool is full; either refusal is counted. -/
def schedule (r : Request) : Scheduler H K n → Except TimerError Unit × Scheduler H K n :=
  masked (register r)

/-- `withdraw id value` frees the slots of all events registered under an identifier and a value. -/
def withdraw (id value : UInt16) (s : Scheduler H K n) :
    Except TimerError Unit × Scheduler H K n :=
  let found := s.pool.find id value
  let pool := s.pool.releaseAll found
  let cancelled := { s with pool := pool }
  -- The channels are armed for the earliest event, so that is all that matters to them.
  if !found.isEmpty && pool.earliest != s.pool.next then
    (.ok (), cancelled.rearm)
  else
    (.ok (), cancelled)

/-- `cancel id value` cancels every event registered under an identifier and a value; there may be
none. -/
def cancel (id value : UInt16) : Scheduler H K n → Except TimerError Unit × Scheduler H K n :=
  masked (withdraw id value)

/-- `s.rearmNow` looks for the earliest event and arms both channels. -/
def rearmNow (s : Scheduler H K n) : Scheduler H K n := (masked (fun s => ((), s.rearm)) s).2

variable [EventSink K]

/-- `s.deliver firings` delivers firings and counts them. -/
def deliver (s : Scheduler H K n) (firings : Array Firing) : Scheduler H K n :=
  { s with
    sink := firings.foldl (fun sink f => EventSink.deliver sink f.notice) s.sink
    stats := firings.foldl Stats.recordFiring s.stats }

/-- `s.dispatch` fires every event that is due, each as often as the configuration lets it, and arms
the channels again. -/
def dispatch (s : Scheduler H K n) : Array Firing × Scheduler H K n :=
  let s := s.sync
  let (firings, pool) := s.pool.drain s.config s.clock.timeUs
  (firings, ({ s with pool := pool }.deliver firings).rearm)

/-- `handle source` counts an interrupt and, unless suspended, fires what is due. -/
def handle (source : InterruptSource) (s : Scheduler H K n) : Array Firing × Scheduler H K n :=
  let s := { s with stats := s.stats.recordInterrupt source }
  if s.suspended then (#[], s) else s.dispatch

/-- `interrupt source` takes an interrupt. While suspended it is only counted. Gives what fired. -/
def interrupt (source : InterruptSource) : Scheduler H K n → Array Firing × Scheduler H K n :=
  masked (handle source)

/-- `compareMatch channel` takes the interrupt of a compare channel. That of a channel which is
neither of the scheduler's own is ignored. -/
def compareMatch (channel : Nat) (s : Scheduler H K n) : Array Firing × Scheduler H K n :=
  match s.config.sourceOf? channel with
  | some source => s.interrupt source
  | none => (#[], s)

end Scheduler

end SoftTimer
