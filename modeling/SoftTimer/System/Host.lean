import SoftTimer.System.Registry
import SoftTimer.System.TimerRequest

/-!
# The system's timer

A host has several timers and two registries. One registry names the system's timer, to which the
calls of this module (`SystemCall`) go without naming one; the other is a program's own. A call
finds no timer until one is registered. All other timers are left alone by it.

The timers need not be alike. Each runs on hardware of its own kind, and has a sink and a number of
slots of its own (`Timers`).
-/

namespace SoftTimer

/-- A row of `m` timers. Timer `i` runs on hardware `H i`, delivers to a sink `K i` and has `n i`
slots for events. -/
abbrev Timers {m : Nat} (H K : Fin m → Type) (n : Fin m → Nat) : Type :=
  (i : Fin m) → Scheduler (H i) (K i) (n i)

/-- A host with a row of `timers` and two registries that name some of them. -/
structure Host {m : Nat} (H K : Fin m → Type) (n : Fin m → Nat) where
  /-- The timers. -/
  timers : Timers H K n
  /-- The registry of the system's timer. -/
  system : Registry (Fin m)
  /-- A registry beside the system's. -/
  own : Registry (Fin m)

/-- One of a host's two registries: `system` or `own`. -/
inductive RegistryName where
  /-- The registry of the system's timer. -/
  | system
  /-- The registry beside it. -/
  | own
deriving DecidableEq, Repr

/-- A call to the system's timer. `Host.call` makes it. -/
inductive SystemCall where
  /-- Reads the time in milliseconds. -/
  | currentTime
  /-- Reads the time in microseconds. -/
  | currentTimeUs
  /-- Asks for an event. -/
  | event (request : Request)
  /-- Cancels the events of an identifier and a value. -/
  | cancelEvent (id value : UInt16)
  /-- Waits. -/
  | wait (span : Span)
  /-- Hands time tracking over. -/
  | deepSleepBegin
  /-- Takes time tracking back; how many events are due is not told. -/
  | deepSleepEnd (counter elapsedUs : Nat)
  /-- Asks for the due time of the earliest event that may wake the device. -/
  | deepSleepWakeupTime
deriving DecidableEq, Repr

namespace SystemCall

/-- `c.request` is what a call asks of the timer. -/
def request : SystemCall → TimerRequest
  | currentTime => .currentTime
  | currentTimeUs => .currentTimeUs
  | event r => .event r.period.toUs r.id r.value r.repeating r.flags
  | cancelEvent id value => .cancelEvent id value
  | wait span => .waitUs span.toUs
  | deepSleepBegin => .deepSleepBegin
  | deepSleepEnd counter elapsedUs => .deepSleepEnd counter elapsedUs
  | deepSleepWakeupTime => .deepSleepWakeupTime

/-- `c.answer a` is what a call tells of the timer's answer `a`. -/
def answer : SystemCall → TimerAnswer → TimerAnswer
  | deepSleepEnd _ _, _ => .reply (.outcome (.ok ()))
  | wait _, .reply (.waited true) => .reply (.outcome (.ok ()))
  | _, a => a

/-- `c.unsupported` is what a call tells when there is no timer. -/
def unsupported : SystemCall → Except TimerError TimerAnswer
  | deepSleepWakeupTime => .ok (.wakeTime none)
  | _ => .error .notSupported

end SystemCall

namespace Host

variable {m : Nat} {H K : Fin m → Type} {n : Fin m → Nat}

/-- `ofTimers timers` is a host whose registries are empty. -/
def ofTimers (timers : Timers H K n) : Host H K n := ⟨timers, .empty, .empty⟩

/-- `h.registry name` is a registry of the host. -/
def registry (h : Host H K n) : RegistryName → Registry (Fin m)
  | .system => h.system
  | .own => h.own

/-- `h.setRegistry name r` replaces a registry of the host. -/
def setRegistry (h : Host H K n) : RegistryName → Registry (Fin m) → Host H K n
  | .system, r => { h with system := r }
  | .own, r => { h with own := r }

/-- `h.register name timer` registers a timer unless one is registered. Says whether it was taken.
-/
def register (h : Host H K n) (name : RegistryName) (timer : Fin m) : Bool × Host H K n :=
  ((h.registry name).register timer).map id (h.setRegistry name)

/-- `h.clear name` empties a registry. -/
def clear (h : Host H K n) (name : RegistryName) : Host H K n := h.setRegistry name .empty

/-- `h.setTimer timer s` replaces one timer. -/
def setTimer (h : Host H K n) (timer : Fin m) (s : Scheduler (H timer) (K timer) (n timer)) :
    Host H K n :=
  { h with timers := fun i => if same : i = timer then same ▸ s else h.timers i }

/-- `h.withTimer timer act` acts on one timer. -/
def withTimer {α : Type} (h : Host H K n) (timer : Fin m)
    (act : Scheduler (H timer) (K timer) (n timer) →
      α × Scheduler (H timer) (K timer) (n timer)) : α × Host H K n :=
  let (result, s) := act (h.timers timer)
  (result, h.setTimer timer s)

/-- `h.withHeld name act` acts on the timer that a registry holds; refused if it holds none. -/
def withHeld {α : Type} (h : Host H K n) (name : RegistryName)
    (act : ∀ timer, Scheduler (H timer) (K timer) (n timer) →
      α × Scheduler (H timer) (K timer) (n timer)) : Except TimerError α × Host H K n :=
  match (h.registry name).held with
  | some timer => (h.withTimer timer (act timer)).map .ok id
  | none => (.error .notSupported, h)

variable [∀ timer, TimerHardware (H timer)] [∀ timer, EventSink (K timer)]

/-- `h.call c` makes a call to the system's timer. -/
def call (h : Host H K n) (c : SystemCall) : Except TimerError TimerAnswer × Host H K n :=
  match h.withHeld .system (fun _ s => s.serve c.request) with
  | (.ok a, h) => (.ok (c.answer a), h)
  | (.error _, h) => (c.unsupported, h)

end Host

end SoftTimer
