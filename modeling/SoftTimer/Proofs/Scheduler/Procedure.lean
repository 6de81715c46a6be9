import SoftTimer.Scheduler.Basic

/-!
# Procedures

An operation of a scheduler says what becomes of everything, and not in which order things are done
on the way. A procedure does (`Procedure`). It is made of single acts (`Act`), and between two of
them it can only look at the scheduler's own state and ask whether interrupts are enabled. It never
sees the hardware or the sink, so the same procedure is carried out on any of them.

Carrying a procedure out (`Procedure.run`) and recording it (`Procedure.record`) are two readings of
one text. An entry of the record (`Entry`) is an act and whether interrupts were enabled when it was
done. The record leaves nothing out: what becomes of the scheduler is what the acts in it make of it
one after another (`Procedure.run_snd`), and each entry tells of the interrupts as the acts before
it have left them (`Procedure.enabled_of_record`).
-/

namespace SoftTimer

/-- A call of `TimerHardware` that may change the timer. -/
inductive HwCall where
  /-- The counter is read. -/
  | read
  /-- A channel is armed. -/
  | arm (channel reading : Nat)
  /-- Interrupts are enabled. -/
  | enable
  /-- Interrupts are masked. -/
  | disable
deriving DecidableEq, Repr

/-- The hardware after an `HwCall`. -/
def HwCall.apply {H : Type} [TimerHardware H] : HwCall → H → H
  | .read, hw => (TimerHardware.readCounter hw).2
  | .arm channel reading, hw => TimerHardware.armChannel hw channel reading
  | .enable, hw => TimerHardware.enableInterrupts hw
  | .disable, hw => TimerHardware.disableInterrupts hw

/-- One thing that an operation does to the timer, the sink or its own state. -/
inductive Act (n : Nat) where
  /-- The timer is called. -/
  | call (call : HwCall)
  /-- The pending events become others. -/
  | pool (pool : Pool n)
  /-- The sink is told of a firing. -/
  | deliver (notice : Notice)
  /-- The clock is set. -/
  | clock (clock : Clock)
  /-- Something is counted. -/
  | stats (stats : Stats)
  /-- Time tracking is handed over or taken back. -/
  | suspended (suspended : Bool)
deriving DecidableEq

/-- An `Act` in a record, with the interrupts as it found them. -/
structure Entry (n : Nat) where
  /-- What was done. -/
  act : Act n
  /-- Whether interrupts were enabled when it was done. -/
  enabled : Bool
deriving DecidableEq

/-- The call of the timer in an `Entry`, if it is one. -/
def Entry.call? {n : Nat} (entry : Entry n) : Option (HwCall × Bool) :=
  match entry.act with
  | .call call => some (call, entry.enabled)
  | _ => none

section Carrying

variable {H K : Type} {n : Nat}

/-- The scheduler with `Unit` for its hardware and its sink. -/
def Scheduler.core (s : Scheduler H K n) : Scheduler Unit Unit n where
  hw := ()
  sink := ()
  clock := s.clock
  pool := s.pool
  config := s.config
  stats := s.stats
  fallbackTicks := s.fallbackTicks
  suspended := s.suspended

variable [TimerHardware H] [EventSink K]

/-- The scheduler after one `Act`. -/
def Act.apply : Act n → Scheduler H K n → Scheduler H K n
  | .call made, s => { s with hw := made.apply s.hw }
  | .pool p, s => { s with pool := p }
  | .deliver notice, s => { s with sink := EventSink.deliver s.sink notice }
  | .clock c, s => { s with clock := c }
  | .stats counted, s => { s with stats := counted }
  | .suspended frozen, s => { s with suspended := frozen }

/-- The scheduler after every `Act` of a record, one after another. -/
def Scheduler.replay (s : Scheduler H K n) (record : List (Entry n)) : Scheduler H K n :=
  record.foldl (fun s entry => entry.act.apply s) s

end Carrying

/-- What an operation does, `Act` by act, until it answers, with what it looks at in between. -/
inductive Procedure (n : Nat) (α : Type) : Type where
  /-- Answers. -/
  | answers (answer : α)
  /-- Looks at the scheduler's own state. -/
  | looks (next : Scheduler Unit Unit n → Procedure n α)
  /-- Asks whether interrupts are enabled. -/
  | asks (next : Bool → Procedure n α)
  /-- Reads the counter. -/
  | reads (next : Nat → Procedure n α)
  /-- Does something that gives nothing back. -/
  | acts (act : Act n) (next : Procedure n α)

namespace Procedure

variable {n : Nat} {α β : Type}

/-- The procedure that goes on, after `p` has answered, with what `f` makes of the answer. -/
def bind : Procedure n α → (α → Procedure n β) → Procedure n β
  | answers answer, f => f answer
  | looks next, f => looks fun s => (next s).bind f
  | asks next, f => asks fun enabled => (next enabled).bind f
  | reads next, f => reads fun reading => (next reading).bind f
  | acts act next, f => acts act (next.bind f)

instance : Monad (Procedure n) where
  pure := answers
  bind := bind

/-- The procedure that looks at the scheduler's own state. -/
def look : Procedure n (Scheduler Unit Unit n) := looks answers

/-- The procedure that asks whether interrupts are enabled. -/
def ask : Procedure n Bool := asks answers

/-- The procedure that reads the counter. -/
def read : Procedure n Nat := reads answers

/-- The procedure that does one `Act` and gives nothing back. -/
def act (first : Act n) : Procedure n Unit := acts first (answers ())

/-- Whether nothing but acts that satisfy `accept` is done, whatever is seen on the way. -/
def All (accept : Act n → Prop) : Procedure n α → Prop
  | answers _ => True
  | looks next => ∀ s, (next s).All accept
  | asks next => ∀ enabled, (next enabled).All accept
  | reads next => accept (.call .read) ∧ ∀ reading, (next reading).All accept
  | acts act next => accept act ∧ next.All accept

/-- A procedure that goes on does `All` its acts by `accept` if both of its parts do. -/
theorem All.bind {accept : Act n → Prop} {p : Procedure n α} {f : α → Procedure n β}
    (h : p.All accept) (hf : ∀ answer, (f answer).All accept) : (p >>= f).All accept := by
  show (p.bind f).All accept
  induction p with
  | answers answer => exact hf answer
  | looks next ih => exact fun s => ih s (h s)
  | asks next ih => exact fun enabled => ih enabled (h enabled)
  | reads next ih => exact ⟨h.1, fun reading => ih reading (h.2 reading)⟩
  | acts act next ih => exact ⟨h.1, ih h.2⟩

section Carrying

variable {H K : Type} [TimerHardware H] [EventSink K]

/-- Carries a `Procedure` out. Gives its answer and the scheduler after it. -/
def run : Procedure n α → Scheduler H K n → α × Scheduler H K n
  | answers answer, s => (answer, s)
  | looks next, s => (next s.core).run s
  | asks next, s => (next (TimerHardware.interruptsEnabled s.hw)).run s
  | reads next, s => (next (TimerHardware.readCounter s.hw).1).run ((Act.call .read).apply s)
  | acts act next, s => next.run (act.apply s)

/-- Every `Act` of a procedure as it is carried out, with the interrupts as it found them. -/
def record : Procedure n α → Scheduler H K n → List (Entry n)
  | answers _, _ => []
  | looks next, s => (next s.core).record s
  | asks next, s => (next (TimerHardware.interruptsEnabled s.hw)).record s
  | reads next, s => ⟨.call .read, TimerHardware.interruptsEnabled s.hw⟩ ::
      (next (TimerHardware.readCounter s.hw).1).record ((Act.call .read).apply s)
  | acts act next, s =>
    ⟨act, TimerHardware.interruptsEnabled s.hw⟩ :: next.record (act.apply s)

variable (s : Scheduler H K n)

@[simp] theorem run_pure (answer : α) : (pure answer : Procedure n α).run s = (answer, s) := rfl

@[simp] theorem run_look_bind (f : Scheduler Unit Unit n → Procedure n α) :
    (look >>= f).run s = (f s.core).run s := rfl

@[simp] theorem run_ask_bind (f : Bool → Procedure n α) :
    (ask >>= f).run s = (f (TimerHardware.interruptsEnabled s.hw)).run s := rfl

@[simp] theorem run_act_bind (first : Act n) (f : Unit → Procedure n α) :
    (act first >>= f).run s = (f ()).run (first.apply s) := rfl

@[simp] theorem run_ite (c : Prop) [Decidable c] (p q : Procedure n α) :
    (if c then p else q).run s = if c then p.run s else q.run s := by
  split <;> rfl

/-- `run` carries out what goes on with the scheduler as the first part has left it. -/
@[simp] theorem run_bind (p : Procedure n α) (f : α → Procedure n β) :
    (p >>= f).run s = (f (p.run s).1).run (p.run s).2 := by
  show (p.bind f).run s = _
  induction p generalizing s with
  | answers answer => rfl
  | looks next ih => exact ih _ s
  | asks next ih => exact ih _ s
  | reads next ih => exact ih _ _
  | acts act next ih => exact ih _

/-- `run` of a procedure whose answer is mapped gives the same scheduler. -/
@[simp] theorem run_map (f : α → β) (p : Procedure n α) : (f <$> p).run s = (p.run s).map f id :=
  run_bind s p (fun answer => pure (f answer))

/-- The `record` of what goes on comes after that of the first part. -/
@[simp] theorem record_bind (p : Procedure n α) (f : α → Procedure n β) :
    (p >>= f).record s = p.record s ++ (f (p.run s).1).record (p.run s).2 := by
  show (p.bind f).record s = _
  induction p generalizing s with
  | answers answer => rfl
  | looks next ih => exact ih _ s
  | asks next ih => exact ih _ s
  | reads next ih => exact congrArg (List.cons _) (ih _ _)
  | acts act next ih => exact congrArg (List.cons _) (ih _)

@[simp] theorem record_ask_bind (f : Bool → Procedure n α) :
    (ask >>= f).record s = (f (TimerHardware.interruptsEnabled s.hw)).record s := rfl

@[simp] theorem record_act_bind (first : Act n) (f : Unit → Procedure n α) :
    (act first >>= f).record s =
      ⟨first, TimerHardware.interruptsEnabled s.hw⟩ :: (f ()).record (first.apply s) := rfl

/-- The scheduler after `run` is the `replay` of the `record`. -/
theorem run_snd (p : Procedure n α) : (p.run s).2 = s.replay (p.record s) := by
  induction p generalizing s with
  | answers answer => rfl
  | looks next ih => exact ih _ s
  | asks next ih => exact ih _ s
  | reads next ih => exact ih _ _
  | acts act next ih => exact ih _

/-- An entry of a `record` has the interrupts as the `replay` of the entries before has left them.
-/
theorem enabled_of_record {p : Procedure n α} {s : Scheduler H K n} {before after : List (Entry n)}
    {entry : Entry n} (h : p.record s = before ++ entry :: after) :
    entry.enabled = TimerHardware.interruptsEnabled (s.replay before).hw := by
  -- The first act finds them as they are, and the others are those of what is left to do.
  have hfirst : ∀ (first : Act n) {rest : List (Entry n)} {s : Scheduler H K n}
      {before : List (Entry n)},
      (∀ before, rest = before ++ entry :: after →
        entry.enabled = TimerHardware.interruptsEnabled ((first.apply s).replay before).hw) →
      ⟨first, TimerHardware.interruptsEnabled s.hw⟩ :: rest = before ++ entry :: after →
      entry.enabled = TimerHardware.interruptsEnabled (s.replay before).hw := by
    intro first rest s before hrest heq
    cases before with
    | nil =>
      cases heq
      rfl
    | cons head before =>
      injection heq with hhead htail
      rw [← hhead]
      exact hrest before htail
  induction p generalizing s before with
  | answers answer =>
    exact absurd h.symm (List.append_ne_nil_of_right_ne_nil before (List.cons_ne_nil entry after))
  | looks next ih => exact ih _ h
  | asks next ih => exact ih _ h
  | reads next ih => exact hfirst (.call .read) (fun _ hrest => ih _ hrest) h
  | acts act next ih => exact hfirst act (fun _ hrest => ih hrest) h

end Carrying

end Procedure

end SoftTimer
