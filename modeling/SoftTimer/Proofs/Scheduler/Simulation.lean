import SoftTimer.Scheduler.Command
import SoftTimer.Proofs.Scheduler.Effects

/-!
# Hardware that behaves alike

A scheduler learns of its hardware only what the counter reads and whether interrupts are enabled.
On hardware that tells the same (`TimerHardware.Twins`) every operation answers the same, and what
becomes of the scheduler is the same but for the hardware (`agree_exec`).
-/

namespace SoftTimer

section Hardware

variable {H H' : Type} [TimerHardware H] [TimerHardware H'] {R : H → H' → Prop} {hw : H} {hw' : H'}

/-- A relation `R` between hardware that a scheduler cannot tell apart. -/
structure TimerHardware.Twins (R : H → H' → Prop) : Prop where
  /-- The counters read the same. -/
  reading : ∀ {hw hw'}, R hw hw' → (readCounter hw').1 = (readCounter hw).1
  /-- Reading them keeps to the relation. -/
  read : ∀ {hw hw'}, R hw hw' → R (readCounter hw).2 (readCounter hw').2
  /-- Arming a channel keeps to the relation. -/
  arm : ∀ {hw hw'}, R hw hw' → ∀ channel reading,
    R (armChannel hw channel reading) (armChannel hw' channel reading)
  /-- Enabling interrupts keeps to the relation. -/
  enable : ∀ {hw hw'}, R hw hw' → R (enableInterrupts hw) (enableInterrupts hw')
  /-- Masking interrupts keeps to the relation. -/
  disable : ∀ {hw hw'}, R hw hw' → R (disableInterrupts hw) (disableInterrupts hw')
  /-- Interrupts are enabled on both or on neither. -/
  enabled : ∀ {hw hw'}, R hw hw' → interruptsEnabled hw' = interruptsEnabled hw

namespace TimerHardware.Twins

/-- Entering a masked section finds the same on both, and keeps to `R`. -/
theorem enter (h : Twins R) (hrel : R hw hw') :
    (IrqMask.enter hw').1 = (IrqMask.enter hw).1 ∧
      R (IrqMask.enter hw).2 (IrqMask.enter hw').2 := by
  unfold IrqMask.enter
  rw [h.enabled hrel]
  split
  · exact ⟨rfl, h.disable hrel⟩
  · exact ⟨rfl, hrel⟩

/-- Leaving a masked section keeps to `R`. -/
theorem leave (h : Twins R) (hrel : R hw hw') (restore : Bool) :
    R (IrqMask.leave restore hw) (IrqMask.leave restore hw') := by
  unfold IrqMask.leave
  split
  · exact h.enable hrel
  · exact hrel

end TimerHardware.Twins

end Hardware

namespace Scheduler

variable {H H' K : Type} {n : Nat} {s : Scheduler H K n} {s' : Scheduler H' K n}

/-- The scheduler on the hardware `hw` instead of its own. -/
def on (s : Scheduler H K n) (hw : H') : Scheduler H' K n where
  hw := hw
  sink := s.sink
  clock := s.clock
  pool := s.pool
  config := s.config
  stats := s.stats
  fallbackTicks := s.fallbackTicks
  suspended := s.suspended

/-- Schedulers that are the same but for their hardware, which is related by `R`. -/
inductive Twin (R : H → H' → Prop) (s : Scheduler H K n) : Scheduler H' K n → Prop
  /-- The one is the other on related hardware. -/
  | on {hw : H'} (h : R s.hw hw) : Twin R s (s.on hw)

variable [TimerHardware H] [TimerHardware H'] {R : H → H' → Prop}

open TimerHardware (Twins)

namespace Twin

omit [TimerHardware H] [TimerHardware H']

theorem clock (h : Twin R s s') : s'.clock = s.clock := by
  obtain ⟨-⟩ := h
  rfl

theorem config (h : Twin R s s') : s'.config = s.config := by
  obtain ⟨-⟩ := h
  rfl

theorem suspended (h : Twin R s s') : s'.suspended = s.suspended := by
  obtain ⟨-⟩ := h
  rfl

end Twin

/-! ## Parts of operations -/

namespace Twin

/-- `sync` keeps schedulers `Twin`. -/
theorem sync (hR : Twins R) (h : Twin R s s') : Twin R s.sync s'.sync := by
  obtain @⟨hw, hrel⟩ := h
  have hsuspended : (s.on hw).suspended = s.suspended := rfl
  unfold Scheduler.sync
  rw [hsuspended]
  by_cases hs : s.suspended = true
  · rw [if_pos hs, if_pos hs]
    exact .on hrel
  · have hreading : (TimerHardware.readCounter (s.on hw).hw).1 =
        (TimerHardware.readCounter s.hw).1 := hR.reading hrel
    rw [if_neg hs, if_neg hs]
    dsimp only
    rw [hreading]
    exact .on (hR.read hrel)

/-- `armAhead` keeps schedulers `Twin`. -/
theorem armAhead (hR : Twins R) (h : Twin R s s') (channel ticks : Nat) :
    Twin R (s.armAhead channel ticks) (s'.armAhead channel ticks) := by
  obtain @⟨hw, hrel⟩ := h
  exact .on (s := s.armAhead channel ticks) (hR.arm hrel _ _)

/-- `armPrimary` keeps schedulers `Twin`. -/
theorem armPrimary (hR : Twins R) (h : Twin R s s') : Twin R s.armPrimary s'.armPrimary := by
  have harm := h.armAhead hR
  obtain @⟨hw, hrel⟩ := h
  have hnext : (s.on hw).pool.nextEvent? = s.pool.nextEvent? := rfl
  unfold Scheduler.armPrimary
  rw [hnext]
  cases s.pool.nextEvent? with
  | none => exact .on hrel
  | some e => exact harm _ _

/-- `armFallback` keeps schedulers `Twin`. -/
theorem armFallback (hR : Twins R) (h : Twin R s s') : Twin R s.armFallback s'.armFallback := by
  have harm := h.armAhead hR s.config.fallbackChannel s.fallbackTicks
  obtain @⟨hw, hrel⟩ := h
  exact harm

/-- `rearm` keeps schedulers `Twin`. -/
theorem rearm (hR : Twins R) (h : Twin R s s') : Twin R s.rearm s'.rearm := by
  obtain @⟨hw, hrel⟩ := h
  have hrefresh : Twin R s.refresh (s.on hw).refresh := .on (s := s.refresh) hrel
  have hsuspended : (s.on hw).suspended = s.suspended := rfl
  unfold Scheduler.rearm
  rw [hsuspended]
  by_cases hs : s.suspended = true
  · rw [if_pos hs, if_pos hs]
    exact hrefresh
  · rw [if_neg hs, if_neg hs]
    exact ((hrefresh.sync hR).armPrimary hR).armFallback hR

end Twin

/-! ## Operations -/

/-- Two actions answer the same for schedulers that are `Twin`, and keep them so. -/
def Agree {α : Type} (R : H → H' → Prop) (act : Scheduler H K n → α × Scheduler H K n)
    (act' : Scheduler H' K n → α × Scheduler H' K n) : Prop :=
  ∀ s s', Twin R s s' → (act' s').1 = (act s).1 ∧ Twin R (act s).2 (act' s').2

section Agree

variable {α : Type} {act : Scheduler H K n → α × Scheduler H K n}
  {act' : Scheduler H' K n → α × Scheduler H' K n}

/-- Two actions that `Agree` do so in a masked section. -/
theorem Agree.masked (h : Agree R act act') (hR : Twins R) :
    Agree R (masked act) (masked act') := by
  intro s s' htwin
  obtain @⟨hw, hrel⟩ := htwin
  obtain ⟨hrestore, henter⟩ := hR.enter hrel
  have hentered : Twin R s.entered (s.on hw).entered := .on (s := s.entered) henter
  obtain ⟨hanswer, hafter⟩ := h _ _ hentered
  rw [masked_eq, masked_eq]
  refine ⟨hanswer, ?_⟩
  have hhw : (s.on hw).hw = hw := rfl
  rw [hhw, hrestore]
  generalize (act s.entered).2 = t at hafter ⊢
  generalize (act' (s.on hw).entered).2 = t' at hafter ⊢
  obtain @⟨hw', hrel'⟩ := hafter
  exact .on (s := { t with hw := _ }) (hR.leave hrel' _)

omit [TimerHardware H] [TimerHardware H'] in
/-- Two actions that `Agree` do so when their answers are mapped by `f`. -/
theorem Agree.map {β : Type} (h : Agree R act act') (f : α → β) :
    Agree R (fun s => (act s).map f id) (fun s => (act' s).map f id) := fun s s' htwin =>
  ⟨congrArg f (h s s' htwin).1, (h s s' htwin).2⟩

end Agree

section Operations

variable (hR : Twins R)

include hR

/-- Both kinds of hardware agree on what is read off a clock that `sync` has brought up to date. -/
theorem agree_read {α : Type} (f : Clock → α) :
    Agree R (fun s : Scheduler H K n => (f s.sync.clock, s.sync))
      fun s => (f s.sync.clock, s.sync) := by
  intro s s' htwin
  have hsync := htwin.sync hR
  dsimp only
  generalize s.sync = t at hsync ⊢
  generalize s'.sync = t' at hsync ⊢
  obtain @⟨hw, hrel⟩ := hsync
  exact ⟨rfl, .on hrel⟩

theorem agree_rearm : Agree R (fun s : Scheduler H K n => ((), s.rearm)) fun s => ((), s.rearm) :=
  fun _ _ htwin => ⟨rfl, htwin.rearm hR⟩

theorem agree_register (r : Request) :
    Agree (K := K) (n := n) R (register r) (register r) := by
  intro s s' htwin
  unfold register
  by_cases hbad : (r.repeating && r.period.toUs == 0) = true
  · rw [if_pos hbad, if_pos hbad]
    obtain @⟨hw, hrel⟩ := htwin
    exact ⟨rfl, .on hrel⟩
  · rw [if_neg hbad, if_neg hbad]
    have hsync := htwin.sync hR
    dsimp only
    generalize s.sync = t at hsync ⊢
    generalize s'.sync = t' at hsync ⊢
    obtain @⟨hw, hrel⟩ := hsync
    have hinsert : (t.on hw).pool.insert (r.registration (t.on hw).clock.timeUs) =
        t.pool.insert (r.registration t.clock.timeUs) := rfl
    rw [hinsert]
    cases t.pool.insert (r.registration t.clock.timeUs) with
    | error reason => exact ⟨rfl, .on hrel⟩
    | ok taken => exact ⟨rfl, (Twin.on (s := { t with pool := taken.2 }) hrel).rearm hR⟩

theorem agree_withdraw (id value : UInt16) :
    Agree (K := K) (n := n) R (withdraw id value) (withdraw id value) := by
  intro s s' htwin
  obtain @⟨hw, hrel⟩ := htwin
  have hpool : (s.on hw).pool = s.pool := rfl
  have hfreed : Twin R { s with pool := s.pool.releaseAll (s.pool.find id value) }
      { s.on hw with pool := s.pool.releaseAll (s.pool.find id value) } := .on hrel
  rw [withdraw_eq, withdraw_eq, hpool]
  refine ⟨rfl, ?_⟩
  dsimp only
  split
  · exact hfreed.rearm hR
  · exact hfreed

theorem agree_handOver : Agree (K := K) (n := n) R handOver handOver := by
  intro s s' htwin
  have hsync := htwin.sync hR
  unfold handOver
  dsimp only
  generalize s.sync = t at hsync ⊢
  generalize s'.sync = t' at hsync ⊢
  obtain @⟨hw, hrel⟩ := hsync
  exact ⟨rfl, .on hrel⟩

theorem agree_takeBack (counter elapsedUs : Nat) :
    Agree (K := K) (n := n) R (takeBack counter elapsedUs) (takeBack counter elapsedUs) := by
  intro s s' htwin
  obtain @⟨hw, hrel⟩ := htwin
  have haligned : Twin R (s.restart counter elapsedUs).alignDue.2
      ((s.on hw).restart counter elapsedUs).alignDue.2 := .on hrel
  exact ⟨rfl, haligned.rearm hR⟩

/-- Both kinds of hardware agree on `pollUntil`, for any number of readings. -/
theorem agree_pollUntil (start us readings : Nat) :
    Agree (K := K) (n := n) R (pollUntil start us readings) (pollUntil start us readings) := by
  intro s s' htwin
  induction readings generalizing s s' with
  | zero => exact ⟨rfl, htwin⟩
  | succ readings ih =>
    have htime : s'.timeUs.1 = s.timeUs.1 ∧ Twin R s.timeUs.2 s'.timeUs.2 :=
      (agree_read hR (·.timeUs)).masked hR s s' htwin
    unfold pollUntil
    dsimp only
    rw [htime.1]
    split
    · exact ih _ _ htime.2
    · exact ⟨rfl, htime.2⟩

theorem agree_wait (span : Span) :
    Agree (K := K) (n := n) R (fun s => s.wait span) fun s => s.wait span := by
  intro s s' htwin
  have htime : s'.timeUs.1 = s.timeUs.1 ∧ Twin R s.timeUs.2 s'.timeUs.2 :=
    (agree_read hR (·.timeUs)).masked hR s s' htwin
  have hpoll := agree_pollUntil hR s.timeUs.1 span.toUs (s.timeUs.2.readingsFor span.toUs) _ _
    htime.2
  have hreadings : s'.timeUs.2.readingsFor span.toUs = s.timeUs.2.readingsFor span.toUs := by
    unfold readingsFor
    rw [htime.2.clock]
  unfold wait waitUs
  dsimp only
  rw [htwin.suspended, hreadings, htime.1]
  split
  · exact ⟨rfl, htwin⟩
  · exact hpoll

variable [EventSink K]

theorem agree_handle (source : InterruptSource) :
    Agree (K := K) (n := n) R (handle source) (handle source) := by
  intro s s' htwin
  have hsync := htwin.sync hR
  have hsuspended := htwin.suspended
  obtain @⟨hw, hrel⟩ := htwin
  cases hactive : s.suspended with
  | true =>
    rw [handle_of_suspended source hactive, handle_of_suspended source (hsuspended.trans hactive)]
    exact ⟨rfl, .on hrel⟩
  | false =>
    have hdrained : Twin R (s.drained source) ((s.on hw).drained source) := by
      unfold drained
      dsimp only
      generalize s.sync = t at hsync ⊢
      generalize (s.on hw).sync = t' at hsync ⊢
      obtain @⟨hw', hrel'⟩ := hsync
      exact .on hrel'
    rw [handle_of_active source hactive, handle_of_active source (hsuspended.trans hactive),
      hsync.clock]
    exact ⟨rfl, hdrained.rearm hR⟩

theorem agree_compareMatch (channel : Nat) :
    Agree (K := K) (n := n) R (compareMatch channel) (compareMatch channel) := by
  intro s s' htwin
  unfold compareMatch
  rw [htwin.config]
  split
  · exact (agree_handle hR _).masked hR s s' htwin
  · exact ⟨rfl, htwin⟩

/-- Both kinds of hardware agree on every `Command`: its answer is the same, and so is the scheduler
after it but for the hardware. -/
theorem agree_exec (c : Command) :
    Agree (K := K) (n := n) R (fun s => s.exec c) fun s => s.exec c := by
  cases c with
  | timeMs => exact ((agree_read hR (·.timeMs)).masked hR).map Reply.time
  | timeUs => exact ((agree_read hR (·.timeUs)).masked hR).map Reply.time
  | schedule request => exact ((agree_register hR request).masked hR).map Reply.outcome
  | cancel ident value => exact ((agree_withdraw hR ident value).masked hR).map Reply.outcome
  | rearm => exact ((agree_rearm hR).masked hR).map fun _ => Reply.done
  | interrupt source => exact ((agree_handle hR source).masked hR).map Reply.fired
  | compareMatch channel => exact (agree_compareMatch hR channel).map Reply.fired
  | wait span => exact (agree_wait hR span).map Reply.waited
  | suspend => exact ((agree_handOver hR).masked hR).map Reply.snapshot
  | resume counter elapsedUs =>
    exact ((agree_takeBack hR counter elapsedUs).masked hR).map Reply.due

end Operations

end Scheduler

end SoftTimer
