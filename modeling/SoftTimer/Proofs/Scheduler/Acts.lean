import SoftTimer.Scheduler.Command
import SoftTimer.Proofs.Dispatch.Drain
import SoftTimer.Proofs.Scheduler.Alignment
import SoftTimer.Proofs.Scheduler.Procedure

/-!
# Operations act by act

Every operation as a procedure, in the order in which a scheduler does things. Interrupts are masked
before anything else is done. A cancelled event is released slot by slot. In a dispatch the sink is
told of a firing before the event leaves its slot or moves on, one firing after another. When time
tracking is taken back the slots are gone through one by one. The channels come last.

Each procedure is shown to do what the operation does of which it has the name, and so all of them
together (`Procedure.run_ofCommand`).
-/

namespace SoftTimer.Procedure

variable {n : Nat}

/-! ## Reading and arming -/

/-- `Scheduler.sync`, act by act. -/
def sync : Procedure n Unit := do
  let s ← look
  if s.suspended then
    pure ()
  else
    let reading ← read
    act (.clock (s.clock.sync reading))

/-- `Scheduler.armAhead`, act by act. -/
def armAhead (channel ticks : Nat) : Procedure n Unit := do
  let s ← look
  act (.call (.arm channel (s.clock.width.offset s.clock.reading ticks)))

/-- `Scheduler.armPrimary`, act by act. -/
def armPrimary : Procedure n Unit := do
  let s ← look
  match s.pool.nextEvent? with
  | some e => armAhead s.config.primaryChannel (s.armDistance (e.timestamp - s.clock.timeUs))
  | none => pure ()

/-- `Scheduler.armFallback`, act by act. -/
def armFallback : Procedure n Unit := do
  let s ← look
  armAhead s.config.fallbackChannel s.fallbackTicks

/-- `Scheduler.rearm`, act by act. The earliest event is looked for even while suspended. -/
def rearm : Procedure n Unit := do
  let s ← look
  act (.pool s.pool.recompute)
  if s.suspended then
    pure ()
  else
    sync
    armPrimary
    armFallback

/-- `Scheduler.masked`, act by act. -/
def masked {α : Type} (body : Procedure n α) : Procedure n α := do
  let restore ← ask
  if restore then act (.call .disable) else pure ()
  let answer ← body
  if restore then act (.call .enable) else pure ()
  return answer

/-- The procedure that reads something off the clock, brought up to date in a masked section. -/
def readClock (f : Clock → Nat) : Procedure n Nat :=
  masked do
    sync
    let s ← look
    return f s.clock

/-- `Scheduler.pollUntil`, act by act. -/
def pollUntil (start us : Nat) : Nat → Procedure n Bool
  | 0 => pure false
  | readings + 1 => do
    let now ← readClock (·.timeUs)
    if now - start < us then pollUntil start us readings else pure true

/-- `Scheduler.wait`, act by act. -/
def wait (span : Span) : Procedure n Bool := do
  let s ← look
  if s.suspended then
    pure true
  else
    let start ← readClock (·.timeUs)
    let s ← look
    pollUntil start span.toUs (s.readingsFor span.toUs)

/-! ## Events -/

/-- `Scheduler.reject`, act by act. -/
def reject (reason : TimerError) : Procedure n (Except TimerError Unit) := do
  let s ← look
  act (.stats s.stats.recordRejected)
  return .error reason

/-- `Scheduler.register`, act by act. -/
def register (r : Request) : Procedure n (Except TimerError Unit) :=
  if r.repeating && r.period.toUs == 0 then
    reject .invalidParameter
  else do
    sync
    let s ← look
    match s.pool.insert (r.registration s.clock.timeUs) with
    | .error reason => reject reason
    | .ok (_, pool) => do
      act (.pool pool)
      rearm
      return .ok ()

/-- `Pool.releaseAll`, act by act. -/
def releaseAll : List Nat → Procedure n Unit
  | [] => pure ()
  | slot :: rest => do
    let s ← look
    act (.pool (s.pool.release slot).2)
    releaseAll rest

/-- `Scheduler.withdraw`, act by act. -/
def withdraw (id value : UInt16) : Procedure n (Except TimerError Unit) := do
  let s ← look
  let found := s.pool.find id value
  releaseAll found
  let left ← look
  if !found.isEmpty && left.pool.earliest != s.pool.next then
    rearm
    return .ok ()
  else
    return .ok ()

/-! ## Interrupts -/

/-- `Drain.run`, act by act, when each slot's event has fired so often and so much has fired. The
sink is told and the firing counted before the event leaves its slot or moves on. -/
def drain (now : Nat) : Nat → Vector Nat n → Array Firing → Procedure n (Array Firing)
  | 0, _, firings => pure firings
  | steps + 1, counts, firings => do
    let s ← look
    match s.pool.firstDue? now with
    | none => pure firings
    | some (slot, e) =>
      let d : Drain n := ⟨s.pool, counts, firings⟩
      let f := d.firing s.config now slot e
      let d' := d.fire s.config now slot e
      act (.deliver f.notice)
      act (.stats s.stats.recordFired)
      act (.pool d'.pool)
      act (.stats (s.stats.recordFiring f))
      drain now steps d'.counts d'.firings

/-- `Scheduler.dispatch`, act by act. -/
def dispatch : Procedure n (Array Firing) := do
  sync
  let s ← look
  let firings ← drain s.clock.timeUs (s.pool.backlog s.clock.timeUs) (Vector.replicate n 0) #[]
  rearm
  return firings

/-- `Scheduler.handle`, act by act. -/
def handle (source : InterruptSource) : Procedure n (Array Firing) := do
  let s ← look
  act (.stats (s.stats.recordInterrupt source))
  if s.suspended then pure #[] else dispatch

/-- `Scheduler.compareMatch`, act by act. -/
def compareMatch (channel : Nat) : Procedure n (Array Firing) := do
  let s ← look
  match s.config.sourceOf? channel with
  | some source => masked (handle source)
  | none => pure #[]

/-! ## Deep sleep -/

/-- `Scheduler.handOver`, act by act. -/
def handOver : Procedure n Snapshot := do
  sync
  let s ← look
  act (.suspended true)
  act (.stats s.stats.recordSuspend)
  return ⟨s.clock.timeUs, s.clock.reading⟩

/-- `Scheduler.restart`, act by act. -/
def restart (counter elapsedUs : Nat) : Procedure n Unit := do
  let s ← look
  act (.clock (s.clock.resync counter))
  act (.clock ((s.clock.resync counter).advanceUs elapsedUs))
  act (.suspended false)

/-- `Scheduler.alignSlots`, act by act, when so many due events have been counted. -/
def alignSlots : List Nat → Nat → Procedure n Nat
  | [], due => pure due
  | slot :: rest, due => do
    let s ← look
    match (s.pool.get? slot).filter (·.isDue s.clock.timeUs) with
    | none => alignSlots rest due
    | some e =>
      let (skipped, later) := e.align s.clock.timeUs
      act (.pool (s.pool.set slot (some later)))
      act (.stats (s.stats.recordCollapsed skipped))
      alignSlots rest (due + 1)

/-- `Scheduler.takeBack`, act by act. -/
def takeBack (counter elapsedUs : Nat) : Procedure n Nat := do
  restart counter elapsedUs
  let due ← alignSlots (List.range n) 0
  rearm
  return due

/-- `Scheduler.exec`, act by act. -/
def ofCommand : Command → Procedure n Reply
  | .timeMs => .time <$> readClock (·.timeMs)
  | .timeUs => .time <$> readClock (·.timeUs)
  | .schedule request => .outcome <$> masked (register request)
  | .cancel ident value => .outcome <$> masked (withdraw ident value)
  | .rearm => (fun _ => .done) <$> masked rearm
  | .interrupt source => .fired <$> masked (handle source)
  | .compareMatch channel => .fired <$> compareMatch channel
  | .wait span => .waited <$> wait span
  | .suspend => .snapshot <$> masked handOver
  | .resume counter elapsedUs => .due <$> masked (takeBack counter elapsedUs)

/-! ## Each procedure does what its operation does -/

section Run

variable {H K : Type} [TimerHardware H] [EventSink K] (s : Scheduler H K n)

@[simp] theorem run_sync : sync.run s = ((), s.sync) := by
  unfold sync Scheduler.sync
  rw [run_look_bind, run_ite]
  show (if s.suspended = true then _ else _) = _
  split <;> rfl

@[simp] theorem run_armAhead (channel ticks : Nat) :
    (armAhead channel ticks).run s = ((), s.armAhead channel ticks) := rfl

@[simp] theorem run_armPrimary : armPrimary.run s = ((), s.armPrimary) := by
  unfold armPrimary Scheduler.armPrimary
  rw [run_look_bind]
  show (match s.pool.nextEvent? with | some e => _ | none => _ : Procedure n Unit).run s = _
  cases s.pool.nextEvent? with
  | none => rfl
  | some e => rfl

@[simp] theorem run_armFallback : armFallback.run s = ((), s.armFallback) := rfl

@[simp] theorem run_rearm : rearm.run s = ((), s.rearm) := by
  have harm : (sync >>= fun _ => armPrimary >>= fun _ => armFallback : Procedure n Unit).run
      s.refresh = ((), s.refresh.sync.armPrimary.armFallback) := by
    rw [run_bind, run_sync, run_bind, run_armPrimary, run_armFallback]
  unfold rearm Scheduler.rearm
  rw [run_look_bind, run_act_bind, run_ite]
  show (if s.suspended = true then _ else _) = _
  split
  · rfl
  · exact harm

/-- `masked` does, in a masked section, what the operation does there that its body runs. -/
theorem run_masked {α : Type} {body : Procedure n α}
    {operation : Scheduler H K n → α × Scheduler H K n} (h : ∀ s, body.run s = operation s) :
    (masked body).run s = Scheduler.masked operation s := by
  unfold masked Scheduler.masked IrqMask.enter
  rw [run_ask_bind, run_ite]
  by_cases henabled : TimerHardware.interruptsEnabled s.hw = true
  · rw [if_pos henabled, if_pos henabled, run_act_bind, run_bind, h, run_ite, if_pos henabled]
    rfl
  · rw [if_neg henabled, if_neg henabled, run_bind, h, run_ite, if_neg henabled]
    rfl

theorem run_readClock (f : Clock → Nat) :
    (readClock f).run s = Scheduler.masked (fun s => (f s.sync.clock, s.sync)) s := by
  refine run_masked s fun s => ?_
  rw [run_bind, run_sync]
  rfl

theorem run_pollUntil (start us readings : Nat) :
    (pollUntil start us readings).run s = Scheduler.pollUntil start us readings s := by
  induction readings generalizing s with
  | zero => rfl
  | succ readings ih =>
    have htime : (readClock (·.timeUs)).run s = s.timeUs := run_readClock s _
    unfold pollUntil Scheduler.pollUntil
    rw [run_bind, htime]
    dsimp only
    rw [run_ite, ih, run_pure]

theorem run_wait (span : Span) : (wait span).run s = s.wait span := by
  have htime : (readClock (·.timeUs)).run s = s.timeUs := run_readClock s _
  unfold wait Scheduler.wait Scheduler.waitUs
  rw [run_look_bind, run_ite, run_bind, htime, run_look_bind, run_pollUntil, run_pure]
  rfl

theorem run_register (r : Request) : (register r).run s = Scheduler.register r s := by
  unfold register Scheduler.register
  rw [run_ite]
  split
  · rfl
  · rw [run_bind, run_sync, run_look_bind]
    have hcore : s.sync.core.pool.insert (r.registration s.sync.core.clock.timeUs) =
      s.sync.pool.insert (r.registration s.sync.clock.timeUs) := rfl
    dsimp only
    rw [hcore]
    cases s.sync.pool.insert (r.registration s.sync.clock.timeUs) with
    | error reason => rfl
    | ok taken =>
      dsimp only
      rw [run_act_bind, run_bind, run_rearm]
      rfl

/-- The procedure `drain` fires what the model's drain does, and delivers and counts each firing as
it comes. -/
theorem run_drain (now steps : Nat) (counts : Vector Nat n) (firings : Array Firing) :
    ∃ more : List Firing,
      (Drain.run s.config now steps ⟨s.pool, counts, firings⟩).firings =
        firings ++ more.toArray ∧
      (drain now steps counts firings).run s =
        ((Drain.run s.config now steps ⟨s.pool, counts, firings⟩).firings,
          { s with
            pool := (Drain.run s.config now steps ⟨s.pool, counts, firings⟩).pool
            sink := more.foldl (fun sink f => EventSink.deliver sink f.notice) s.sink
            stats := more.foldl Stats.recordFiring s.stats }) := by
  induction steps generalizing s counts firings with
  | zero => exact ⟨[], (Array.append_empty).symm, rfl⟩
  | succ steps ih =>
    unfold drain Drain.run
    rw [run_look_bind]
    dsimp only
    have hcore : s.core.pool.firstDue? now = s.pool.firstDue? now := rfl
    rw [hcore]
    cases hfirst : s.pool.firstDue? now with
    | none => exact ⟨[], (Array.append_empty).symm, rfl⟩
    | some found =>
      obtain ⟨slot, e⟩ := found
      dsimp only
      rw [run_act_bind, run_act_bind, run_act_bind, run_act_bind]
      -- The rest of the drain begins where this firing has led to.
      let d : Drain n := ⟨s.pool, counts, firings⟩
      let f := d.firing s.config now slot e
      let d' := d.fire s.config now slot e
      let s' : Scheduler H K n := { s with
        pool := d'.pool
        sink := EventSink.deliver s.sink f.notice
        stats := s.stats.recordFiring f }
      obtain ⟨more, hmore, hrun⟩ := ih s' d'.counts d'.firings
      have hpush : d'.firings = firings.push f := Drain.firings_fire s.config now slot e d
      refine ⟨f :: more, ?_, hrun⟩
      rw [List.toArray_cons, ← Array.append_assoc, ← Array.push_eq_append, ← hpush]
      exact hmore

theorem run_releaseAll (slots : List Nat) :
    (releaseAll slots).run s = ((), { s with pool := s.pool.releaseAll slots }) := by
  induction slots generalizing s with
  | nil => rfl
  | cons slot rest ih =>
    unfold releaseAll
    rw [run_look_bind, run_act_bind, ih]
    rfl

theorem run_withdraw (id value : UInt16) :
    (withdraw id value).run s = Scheduler.withdraw id value s := by
  unfold withdraw Scheduler.withdraw
  rw [run_look_bind, run_bind, run_releaseAll, run_look_bind, run_ite, run_bind, run_rearm]
  rfl

/-- The procedure `drain`, started on a pool, does what `Pool.drain` and the delivery of all its
firings do. -/
theorem run_drain_start (now : Nat) :
    (drain now (s.pool.backlog now) (Vector.replicate n 0) #[]).run s =
      ((s.pool.drain s.config now).1,
        { s with pool := (s.pool.drain s.config now).2 }.deliver
          (s.pool.drain s.config now).1) := by
  obtain ⟨more, hmore, hrun⟩ :=
    run_drain s now (s.pool.backlog now) (Vector.replicate n 0) #[]
  have hfirings : (s.pool.drain s.config now).1 = more.toArray := hmore.trans Array.empty_append
  rw [hrun, hfirings]
  unfold Scheduler.deliver
  rw [List.foldl_toArray, List.foldl_toArray, hmore, Array.empty_append]
  rfl

theorem run_dispatch : dispatch.run s = s.dispatch := by
  have hdrain : (drain s.sync.core.clock.timeUs
      (s.sync.core.pool.backlog s.sync.core.clock.timeUs) (Vector.replicate n 0) #[]).run s.sync =
        ((s.sync.pool.drain s.sync.config s.sync.clock.timeUs).1,
          { s.sync with pool := (s.sync.pool.drain s.sync.config s.sync.clock.timeUs).2 }.deliver
            (s.sync.pool.drain s.sync.config s.sync.clock.timeUs).1) :=
    run_drain_start s.sync s.sync.clock.timeUs
  unfold dispatch Scheduler.dispatch
  rw [run_bind, run_sync, run_look_bind, run_bind, hdrain, run_bind, run_rearm]
  rfl

theorem run_handle (source : InterruptSource) :
    (handle source).run s = Scheduler.handle source s := by
  unfold handle Scheduler.handle
  rw [run_look_bind, run_act_bind, run_ite, run_dispatch]
  rfl

theorem run_compareMatch (channel : Nat) :
    (compareMatch channel).run s = s.compareMatch channel := by
  unfold compareMatch Scheduler.compareMatch
  rw [run_look_bind]
  have hcore : s.core.config.sourceOf? channel = s.config.sourceOf? channel := rfl
  rw [hcore]
  cases s.config.sourceOf? channel with
  | none => rfl
  | some source => exact run_masked s (run_handle · source)

theorem run_handOver : handOver.run s = Scheduler.handOver s := by
  unfold handOver Scheduler.handOver
  rw [run_bind, run_sync]
  rfl

theorem run_alignSlots (slots : List Nat) (due : Nat) :
    (alignSlots slots due).run s =
      slots.foldl (fun (due, s) slot => s.alignSlot slot due) (due, s) := by
  induction slots generalizing s due with
  | nil => rfl
  | cons slot rest ih =>
    have hcore : (s.core.pool.get? slot).filter (·.isDue s.core.clock.timeUs) =
      (s.pool.get? slot).filter (·.isDue s.clock.timeUs) := rfl
    unfold alignSlots
    rw [run_look_bind, List.foldl_cons, hcore]
    show _ = rest.foldl _ (s.alignSlot slot due)
    cases hdue : (s.pool.get? slot).filter (·.isDue s.clock.timeUs) with
    | none =>
      have hstep : s.alignSlot slot due = (due, s) := by
        unfold Scheduler.alignSlot
        rw [hdue]
      rw [hstep]
      exact ih s due
    | some e =>
      have hstep : s.alignSlot slot due = (due + 1, { s with
          pool := s.pool.set slot (some (e.align s.clock.timeUs).2)
          stats := s.stats.recordCollapsed (e.align s.clock.timeUs).1 }) := by
        unfold Scheduler.alignSlot
        rw [hdue]
      rw [hstep]
      exact ih _ (due + 1)

theorem run_takeBack (counter elapsedUs : Nat) :
    (takeBack counter elapsedUs).run s = Scheduler.takeBack counter elapsedUs s := by
  have hrestart : (restart counter elapsedUs).run s = ((), s.restart counter elapsedUs) := rfl
  have halign : (alignSlots (List.range n) 0).run (s.restart counter elapsedUs) =
      (s.restart counter elapsedUs).alignDue :=
    (run_alignSlots _ _ _).trans (Scheduler.alignSlots_eq _)
  unfold takeBack Scheduler.takeBack
  rw [run_bind, hrestart, run_bind, halign, run_bind, run_rearm]
  rfl

/-- The procedure of a `Command` does what `exec` does. -/
theorem run_ofCommand (c : Command) : (ofCommand c).run s = s.exec c := by
  cases c with
  | timeMs => exact (run_map s _ _).trans (congrArg _ (run_readClock s _))
  | timeUs => exact (run_map s _ _).trans (congrArg _ (run_readClock s _))
  | schedule request =>
    exact (run_map s _ _).trans (congrArg _ (run_masked s (run_register · request)))
  | cancel ident value =>
    exact (run_map s _ _).trans (congrArg _ (run_masked s (run_withdraw · ident value)))
  | rearm => exact (run_map s _ _).trans (congrArg _ (run_masked s run_rearm))
  | interrupt source =>
    exact (run_map s _ _).trans (congrArg _ (run_masked s (run_handle · source)))
  | compareMatch channel => exact (run_map s _ _).trans (congrArg _ (run_compareMatch s channel))
  | wait span => exact (run_map s _ _).trans (congrArg _ (run_wait s span))
  | suspend => exact (run_map s _ _).trans (congrArg _ (run_masked s run_handOver))
  | resume counter elapsedUs =>
    exact (run_map s _ _).trans (congrArg _ (run_masked s (run_takeBack · counter elapsedUs)))

end Run

end SoftTimer.Procedure
