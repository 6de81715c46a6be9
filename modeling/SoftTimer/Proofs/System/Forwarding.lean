import Mathlib.Data.List.DropRight
import Mathlib.Data.List.Induction
import Mathlib.Logic.Function.Basic
import SoftTimer.Proofs.Bench.Masking
import SoftTimer.Proofs.System.Polling
import SoftTimer.System.Host

/-!
# Calls to the system's timer, carried out directly

On a host timers are registered and registries cleared, calls are made to the system's timer, and
each timer may also be operated directly (`HostStep`). `SystemCall.directly` says what a call comes
to if the timer itself is asked, in terms of the operations of a scheduler, and
`HostStep.direct` what the steps come to on a bare row of timers, where no registry is kept: a call
then goes to the timer that was registered first since the last time the registry was cleared
(`firstRegistered`).

The main statement is `Host.forwards`. A host answers every step and leaves every timer as if all
calls had been carried out directly, and its two registries have nothing to do with each other.
-/

namespace SoftTimer

/-! ## A call -/

section Direct

variable {H K : Type} {n : Nat} [TimerHardware H]

namespace Scheduler

/-- `waitShared` is the same as `waitUs`, except for a masked section that it takes while the clock
stands still. -/
theorem waitShared_eq (us : Nat) (s : Scheduler H K n) :
    s.waitShared us = ((s.waitUs us).1, (s.waitUs us).2.idled s.suspended) := by
  rw [waitShared_eq_waitSharedWithin, waitUs_eq_waitWithin, waitSharedWithin_eq]

end Scheduler

namespace Shared

/-- On an `idle` scheduler the sections of `pollUntil` come to polling it. -/
theorem pollUntil_idle (start us readings : Nat) (s : Scheduler H K n) :
    (idle s).pollUntil start us readings =
      (.ok (s.pollShared start us readings).1, idle (s.pollShared start us readings).2) := by
  induction readings generalizing s with
  | zero => rfl
  | succ readings ih =>
    unfold Shared.pollUntil Scheduler.pollShared
    rw [look_idle, andThen_ok]
    split
    · rfl
    · rw [use_idle, andThen_ok]
      dsimp only
      split
      · exact ih _
      · rfl

/-- On an `idle` scheduler the sections of `wait` come to a wait on it. -/
theorem wait_idle (us : Nat) (s : Scheduler H K n) :
    (idle s).wait us = (.ok (s.waitShared us).1, idle (s.waitShared us).2) := by
  have hvalue : (idle s.timeUs.2).value = s.timeUs.2 := rfl
  have hwait : s.waitShared us =
      s.timeUs.2.pollShared s.timeUs.1 us (s.timeUs.2.readingsFor us) := rfl
  unfold Shared.wait
  rw [use_idle, andThen_ok, hvalue, pollUntil_idle, hwait]

/-- A request to an `idle` scheduler is served as the scheduler itself serves it, and the scheduler
is idle again afterwards. -/
theorem serve_idle [EventSink K] (s : Scheduler H K n) (request : TimerRequest) :
    (idle s).serve request = (.ok (s.serve request).1, idle (s.serve request).2) := by
  cases request with
  | waitUs us =>
    have hshared : (idle s).serve (.waitUs us) = andThen ((idle s).wait us) fun finished timer =>
        (.ok (.reply (.waited finished)), timer) := rfl
    have hserve : s.serve (.waitUs us) =
        (s.waitShared us).map (fun finished => .reply (.waited finished)) id := rfl
    rw [hshared, hserve, wait_idle, andThen_ok, Prod.map_fst, Prod.map_snd, id]
  | currentTime | currentTimeUs | event | cancelEvent | deepSleepBegin | deepSleepEnd
  | deepSleepWakeupTime | isSuspended => rfl

/-- A scheduler that is being written refuses every request of `serve`, and is left as it is. -/
theorem serve_of_writing [EventSink K] {timer : Shared (Scheduler H K n)}
    (h : timer.writing = true) (request : TimerRequest) :
    ∃ conflict, timer.serve request = (.error conflict, timer) := by
  have hlook : ∀ f : Scheduler H K n → TimerAnswer, timer.look f = (.error .beingWritten, timer) :=
    fun f => by rw [look_eq, if_pos h]
  have huse : ∀ {β : Type} (act : Scheduler H K n → β × Scheduler H K n),
      timer.use act = (.error .inUse, timer) := fun act => by rw [use_eq, h]; rfl
  unfold Shared.serve
  cases request with
  | deepSleepWakeupTime | isSuspended => exact ⟨.beingWritten, hlook _⟩
  | waitUs us =>
    refine ⟨.inUse, ?_⟩
    unfold Shared.wait
    dsimp only
    rw [huse, andThen_error, andThen_error]
  | currentTime | currentTimeUs | event | cancelEvent | deepSleepBegin | deepSleepEnd =>
    exact ⟨.inUse, huse _⟩

end Shared

/-- What a wait tells: that it is over, or that it has not ended within its readings. -/
def SystemCall.waited (finished : Bool) : TimerAnswer :=
  if finished then .reply (.outcome (.ok ())) else .reply (.waited false)

/-- `waited` tells that a wait is over only if it is. -/
theorem SystemCall.waited_eq_waited_true {finished : Bool} :
    waited finished = waited true ↔ finished = true := by
  cases finished <;> simp [waited]

/-- What a call tells, and what becomes of the timer, if the timer itself is asked. -/
def SystemCall.directly (s : Scheduler H K n) : SystemCall → TimerAnswer × Scheduler H K n
  | .currentTime => (.reply (.time s.timeMs.1), s.timeMs.2)
  | .currentTimeUs => (.reply (.time s.timeUs.1), s.timeUs.2)
  | .event request => (.reply (.outcome (s.schedule request).1), (s.schedule request).2)
  | .cancelEvent id value => (.reply (.outcome (s.cancel id value).1), (s.cancel id value).2)
  | .wait span => (waited (s.wait span).1, (s.wait span).2.idled s.suspended)
  | .deepSleepBegin => (.reply (.snapshot s.suspend.1), s.suspend.2)
  | .deepSleepEnd counter elapsedUs =>
    (.reply (.outcome (.ok ())), (s.resume counter elapsedUs).2)
  | .deepSleepWakeupTime => (.wakeTime s.nextWakeTime?, s)

/-- `serve` answers a call by the operation that the call stands for. -/
theorem SystemCall.serve_eq [EventSink K] (c : SystemCall) (s : Scheduler H K n) :
    (c.answer (s.serve c.request).1, (s.serve c.request).2) = c.directly s := by
  cases c with
  | wait span =>
    -- With the pair at hand the kernel need not carry out the wait to take it apart.
    have hserve : s.serve (SystemCall.wait span).request =
        (s.waitShared span.toUs).map (fun finished => .reply (.waited finished)) id := rfl
    have hwait : s.waitUs span.toUs = s.wait span := rfl
    rw [hserve, Scheduler.waitShared_eq, hwait]
    dsimp only [SystemCall.directly]
    cases (s.wait span).1 <;> rfl
  | currentTime | currentTimeUs | event | cancelEvent | deepSleepBegin | deepSleepEnd
  | deepSleepWakeupTime => rfl

omit [TimerHardware H] in
/-- On a simulated timer `idled` changes the count of masked sections alone. -/
theorem Scheduler.idled_eq_remask (stopped : Bool) (s : Scheduler SimTimer K n) :
    ∃ count, s.idled stopped = s.remask count := by
  unfold idled
  split
  · obtain ⟨count, hcount⟩ := s.hw.leave_enter
    refine ⟨count, ?_⟩
    unfold IrqMask.blank
    rw [hcount]
    rfl
  · exact ⟨s.hw.maskCount, rfl⟩

omit [TimerHardware H] in
/-- On a `SimTimer` a call to wait differs from a wait in the count of masked sections alone. -/
theorem SystemCall.directly_wait (span : Span) (s : Scheduler SimTimer K n) :
    ∃ count, (SystemCall.directly s (.wait span)).2 = (s.wait span).2.remask count :=
  (s.wait span).2.idled_eq_remask s.suspended

/-- What a call tells in the end: one that the timer refuses is refused. -/
def SystemCall.told : Except TimerError TimerAnswer → Except TimerError TimerAnswer
  | .ok (.reply (.outcome (.error reason))) => .error reason
  | answer => answer

/-- No timer refuses a call with `notSupported`. -/
theorem SystemCall.told_directly (c : SystemCall) (s : Scheduler H K n) :
    SystemCall.told (.ok (c.directly s).1) ≠ .error .notSupported := by
  cases c with
  | event request =>
    dsimp only [SystemCall.directly]
    rw [Scheduler.schedule_reply]
    split_ifs <;> simp [told]
  | cancelEvent id value =>
    have hok : (s.cancel id value).1 = .ok () := by
      show (Scheduler.withdraw id value s.entered).1 = .ok ()
      rw [Scheduler.withdraw_eq]
    simp [SystemCall.directly, hok, told]
  | wait span =>
    dsimp only [SystemCall.directly]
    cases (s.wait span).1 <;> simp [waited, told]
  | currentTime | currentTimeUs | deepSleepBegin | deepSleepEnd | deepSleepWakeupTime =>
    simp [SystemCall.directly, told]

end Direct

/-! ## What happens on a host -/

variable {m : Nat} {H K : Fin m → Type} {n : Fin m → Nat}

/-- Something that happens on a host with timers of the kinds `H`. -/
inductive HostStep {m : Nat} (H : Fin m → Type) where
  /-- A timer is to be registered. -/
  | register (name : RegistryName) (timer : Fin m)
  /-- A registry is emptied. -/
  | clear (name : RegistryName)
  /-- A call is made to the system's timer. -/
  | call (c : SystemCall)
  /-- A call to wait is made to the system's timer. The time is read once when the wait has begun,
  and at most `more` times after that. -/
  | wait (span : Span) (more : Nat)
  /-- A timer is operated directly. -/
  | operate (timer : Fin m) (c : Command)
  /-- The hardware of a timer changes by itself. -/
  | move (timer : Fin m) (hw : H timer)

namespace HostStep

/-- The timer that a step registers in the registry `name`, if it does. -/
def registered? (name : RegistryName) : HostStep H → Option (Fin m)
  | register name' timer => if name' = name then some timer else none
  | _ => none

/-- Whether a step empties the registry `name`. -/
def clears (name : RegistryName) : HostStep H → Bool
  | clear name' => name' = name
  | _ => false

/-- Whether a step does anything to the registry `name`. -/
def concerns (name : RegistryName) : HostStep H → Bool
  | register name' _ | clear name' => name' = name
  | _ => false

/-- The first timer to be registered in the registry `name` since it was last emptied. -/
def firstRegistered (name : RegistryName) (steps : List (HostStep H)) : Option (Fin m) :=
  (steps.rtakeWhile fun step => !step.clears name).findSome? (registered? name)

variable [∀ i, TimerHardware (H i)] [∀ i, EventSink (K i)]

/-- What a step comes to on a bare row of timers, if each registry holds the timer that `held` says,
or none. -/
def direct (held : RegistryName → Option (Fin m)) (timers : Timers H K n) :
    HostStep H → Except TimerError TimerAnswer × Timers H K n
  | register name _ => (.ok (.flag (held name).isNone), timers)
  | clear _ => (.ok (.reply .done), timers)
  | call c =>
    match held .system with
    | some timer =>
      (.ok (c.directly (timers timer)).1,
        Function.update timers timer (c.directly (timers timer)).2)
    | none =>
      (if c = .deepSleepWakeupTime then .ok (.wakeTime none) else .error .notSupported, timers)
  | wait span more =>
    match held .system with
    | some timer =>
      (.ok (SystemCall.waited ((timers timer).waitWithin more span.toUs).1),
        Function.update timers timer
          (((timers timer).waitWithin more span.toUs).2.idled (timers timer).suspended))
    | none => (.error .notSupported, timers)
  | operate timer c =>
    (.ok (.reply ((timers timer).exec c).1), Function.update timers timer ((timers timer).exec c).2)
  | move timer hw =>
    (.ok (.reply .done), Function.update timers timer { timers timer with hw := hw })

/-- The steps so far, all their answers and the timers, after one step more. -/
def follow (x : List (HostStep H) × List (Except TimerError TimerAnswer) ×
    Timers H K n) (step : HostStep H) :
    List (HostStep H) × List (Except TimerError TimerAnswer) × Timers H K n :=
  let result := step.direct (firstRegistered · x.1) x.2.2
  (x.1 ++ [step], x.2.1 ++ [result.1], result.2)

/-- What steps come to on a bare row of timers: all answers, and the timers. -/
def directly (timers : Timers H K n) (steps : List (HostStep H)) :
    List (Except TimerError TimerAnswer) × Timers H K n :=
  (steps.foldl follow ([], [], timers)).2

end HostStep

namespace Host

variable [∀ i, TimerHardware (H i)] [∀ i, EventSink (K i)]

/-- Carries out a step. Gives its answer and the host after it. -/
def step (h : Host H K n) : HostStep H → Except TimerError TimerAnswer × Host H K n
  | .register name timer => (h.register name timer).map (fun taken => .ok (.flag taken)) id
  | .clear name => (.ok (.reply .done), h.clear name)
  | .call c => h.call c
  | .wait span more =>
    (h.withHeld .system fun _ s => s.waitSharedWithin more span.toUs).map
      (·.map SystemCall.waited) id
  | .operate timer c => (h.withTimer timer (·.exec c)).map (fun reply => .ok (.reply reply)) id
  | .move timer hw => (h.withTimer timer fun s => (.ok (.reply .done), { s with hw := hw }))

/-- Carries out steps, one after another, on a host of `timers` with empty registries. Gives all
answers, and the host. -/
def run (timers : Timers H K n) (steps : List (HostStep H)) :
    List (Except TimerError TimerAnswer) × Host H K n :=
  steps.foldl (fun (answers, h) step => (answers ++ [(h.step step).1], (h.step step).2))
    ([], ofTimers timers)

end Host

/-! ## Registries -/

namespace HostStep

variable {name : RegistryName} {step : HostStep H}

/-- A step that does not concern a registry neither empties it nor registers a timer there. -/
theorem of_not_concerns (h : step.concerns name = false) :
    step.clears name = false ∧ step.registered? name = none := by
  cases step with
  | register name' timer => exact ⟨rfl, if_neg (of_decide_eq_false h)⟩
  | clear name' => exact ⟨h, rfl⟩
  | call | wait | operate | move => exact ⟨rfl, rfl⟩

/-- A step that concerns the registry `system` does not concern the registry `own`. -/
theorem not_concerns_own (step : HostStep H) (h : step.concerns .system = true) :
    (!step.concerns .own) = true := by
  cases step with
  | register name' | clear name' =>
    cases name' with
    | system => rfl
    | own => cases h
  | call | wait | operate | move => cases h

/-- `firstRegistered` forgets all registrations when the registry is emptied, and a registration
counts if there was none. -/
theorem firstRegistered_append (name : RegistryName) (before : List (HostStep H))
    (step : HostStep H) :
    firstRegistered name (before ++ [step]) = if step.clears name then none else
      (firstRegistered name before).or (step.registered? name) := by
  unfold firstRegistered
  rw [List.rtakeWhile_concat]
  cases step.clears name with
  | true => rfl
  | false =>
    show (List.rtakeWhile _ before ++ [step]).findSome? _ = _
    rw [List.findSome?_append, List.findSome?_singleton]
    rfl

/-- `firstRegistered` does not depend on steps that do not concern the registry. -/
theorem firstRegistered_filter (name : RegistryName) {keep : HostStep H → Bool}
    (hkeep : ∀ step, step.concerns name = true → keep step = true) (steps : List (HostStep H)) :
    firstRegistered name (steps.filter keep) = firstRegistered name steps := by
  induction steps using List.reverseRecOn with
  | nil => rfl
  | append_singleton before step ih =>
    rw [List.filter_append, firstRegistered_append]
    cases hstep : keep step with
    | true =>
      have hone : [step].filter keep = [step] := List.filter_cons_of_pos hstep
      rw [hone, firstRegistered_append, ih]
    | false =>
      have hnone : [step].filter keep = [] := List.filter_cons_of_neg (by rw [hstep]; decide)
      have hforeign : step.concerns name = false := by
        cases hconcerns : step.concerns name with
        | true => rw [hkeep step hconcerns] at hstep; cases hstep
        | false => rfl
      obtain ⟨hclears, hregistered⟩ := of_not_concerns hforeign
      rw [hnone, List.append_nil, ih, hclears, hregistered, Option.or_none]
      rfl

end HostStep

namespace Host

/-- `setRegistry` replaces what one registry holds, and leaves the other alone. -/
theorem registry_setRegistry (h : Host H K n) (name name' : RegistryName)
    (r : Registry (Fin m)) :
    (h.setRegistry name' r).registry name = if name' = name then r else h.registry name := by
  cases name <;> cases name' <;> rfl

/-- `register` takes the first timer, and turns any later one away. -/
theorem register_eq (h : Host H K n) (name : RegistryName) (timer : Fin m) :
    h.register name timer = if (h.registry name).held = none then
      (true, h.setRegistry name ⟨some timer⟩) else (false, h) := by
  have hsame : h.setRegistry name (h.registry name) = h := by cases name <;> rfl
  unfold register Registry.register Registry.isRegistered
  cases hheld : (h.registry name).held with
  | none => rfl
  | some held =>
    show (false, h.setRegistry name (h.registry name)) = _
    rw [hsame]
    rfl

/-- After `register` a registry holds what it held, or else the timer if it is the one asked. -/
theorem held_register_eq (h : Host H K n) (name name' : RegistryName) (timer : Fin m) :
    ((h.register name' timer).2.registry name).held =
      (h.registry name).held.or (if name' = name then some timer else none) := by
  rw [register_eq]
  by_cases hname : name' = name
  · subst hname
    rw [if_pos rfl]
    cases hheld : (h.registry name').held with
    | none =>
      rw [if_pos rfl, registry_setRegistry, if_pos rfl]
      rfl
    | some held => exact hheld
  · rw [if_neg hname, Option.or_none]
    split
    · rw [registry_setRegistry, if_neg hname]
    · rfl

/-- `setTimer` replaces one timer and leaves the others alone. -/
theorem setTimer_eq (h : Host H K n) (timer : Fin m)
    (s : Scheduler (H timer) (K timer) (n timer)) :
    h.setTimer timer s = { h with timers := Function.update h.timers timer s } := by
  unfold setTimer Function.update
  congr 1

/-- `setTimer` leaves both registries alone. -/
theorem registry_setTimer (h : Host H K n) (timer : Fin m)
    (s : Scheduler (H timer) (K timer) (n timer)) (name : RegistryName) :
    (h.setTimer timer s).registry name = h.registry name := by
  cases name <;> rfl

variable [∀ i, TimerHardware (H i)] [∀ i, EventSink (K i)]

/-- `call` goes to the timer that the system's registry holds. -/
theorem call_eq (h : Host H K n) (c : SystemCall) :
    h.call c = match (h.registry .system).held with
      | some timer => (.ok (c.directly (h.timers timer)).1,
        h.setTimer timer (c.directly (h.timers timer)).2)
      | none =>
        (if c = .deepSleepWakeupTime then .ok (.wakeTime none) else .error .notSupported, h) := by
  unfold call withHeld
  cases (h.registry .system).held with
  | none => cases c <;> rfl
  | some timer =>
    dsimp only
    rw [← c.serve_eq (h.timers timer)]
    rfl

/-- A `wait` goes to the timer that the system's registry holds, however many readings it may take.
-/
theorem step_wait (h : Host H K n) (span : Span) (more : Nat) :
    h.step (.wait span more) = match (h.registry .system).held with
      | some timer =>
        (.ok (SystemCall.waited ((h.timers timer).waitWithin more span.toUs).1),
          h.setTimer timer (((h.timers timer).waitWithin more span.toUs).2.idled
            (h.timers timer).suspended))
      | none => (.error .notSupported, h) := by
  unfold step withHeld
  cases (h.registry .system).held with
  | none => rfl
  | some timer =>
    have hwait := (h.timers timer).waitSharedWithin_eq more span.toUs
    unfold withTimer
    dsimp only
    rw [hwait]
    rfl

/-- `call` leaves every timer alone that the system's registry does not hold. -/
theorem call_timers_of_ne (h : Host H K n) (c : SystemCall) {other : Fin m}
    (hother : (h.registry .system).held ≠ some other) :
    (h.call c).2.timers other = h.timers other := by
  rw [call_eq]
  cases hheld : (h.registry .system).held with
  | none => rfl
  | some timer =>
    have hne : other ≠ timer := fun heq => hother (hheld.trans (congrArg some heq.symm))
    dsimp only
    rw [setTimer_eq]
    exact Function.update_of_ne hne _ _

/-- `call` tells `notSupported` if the system's registry holds no timer, unless the time to wake at
is asked for, and never otherwise. -/
theorem told_call_eq_iff (h : Host H K n) (c : SystemCall) :
    SystemCall.told (h.call c).1 = .error .notSupported ↔
      (h.registry .system).held = none ∧ c ≠ .deepSleepWakeupTime := by
  rw [call_eq]
  cases (h.registry .system).held with
  | some timer =>
    have htold := c.told_directly (h.timers timer)
    simp [htold]
  | none =>
    by_cases hwake : c = .deepSleepWakeupTime
    · simp [hwake, SystemCall.told]
    · simp [hwake, SystemCall.told]

/-- A `wait` ends, after so many readings as it takes, exactly if it does on the timer that the
system's registry holds. -/
theorem step_wait_iff (h : Host H K n) (span : Span) {timer : Fin m}
    (hheld : (h.registry .system).held = some timer) (h' : Host H K n) :
    (∃ more, h.step (.wait span more) = (.ok (SystemCall.waited true), h')) ↔
      ∃ s', Scheduler.Awaits span.toUs (h.timers timer) s' ∧
        h' = h.setTimer timer (s'.idled (h.timers timer).suspended) := by
  constructor
  · rintro ⟨more, hmore⟩
    rw [step_wait, hheld] at hmore
    obtain ⟨htold, rfl⟩ := Prod.mk.inj hmore
    have hdone := SystemCall.waited_eq_waited_true.mp (Except.ok.inj htold)
    exact ⟨_, Scheduler.awaits_iff.mpr ⟨more, Prod.ext hdone rfl⟩, rfl⟩
  · rintro ⟨s', hends, rfl⟩
    obtain ⟨more, hmore⟩ := Scheduler.awaits_iff.mp hends
    refine ⟨more, ?_⟩
    rw [step_wait, hheld]
    dsimp only
    rw [hmore]

/-! ## Step by step -/

/-- A step is answered, and leaves the timers, as it would by `direct` on a bare row of timers. -/
theorem step_direct (h : Host H K n) (step : HostStep H) :
    ((h.step step).1, (h.step step).2.timers) =
      step.direct (fun name => (h.registry name).held) h.timers := by
  cases step with
  | register name timer =>
    unfold Host.step HostStep.direct
    dsimp only
    rw [register_eq]
    cases (h.registry name).held with
    | none => cases name <;> rfl
    | some held => rfl
  | clear name => cases name <;> rfl
  | call c =>
    show ((h.call c).1, (h.call c).2.timers) = _
    rw [call_eq]
    unfold HostStep.direct
    dsimp only
    cases (h.registry .system).held with
    | none => rfl
    | some timer =>
      dsimp only
      rw [setTimer_eq]
  | wait span more =>
    rw [step_wait]
    unfold HostStep.direct
    dsimp only
    cases (h.registry .system).held with
    | none => rfl
    | some timer =>
      dsimp only
      rw [setTimer_eq]
  | operate timer c =>
    have hstep : h.step (.operate timer c) = (.ok (.reply ((h.timers timer).exec c).1),
        h.setTimer timer ((h.timers timer).exec c).2) := rfl
    rw [hstep, setTimer_eq]
    rfl
  | move timer hw =>
    have hstep : h.step (.move timer hw) = (.ok (.reply .done),
        h.setTimer timer { h.timers timer with hw := hw }) := rfl
    rw [hstep, setTimer_eq]
    rfl

/-- A step changes what a registry holds only if it is about that registry. -/
theorem step_held (h : Host H K n) (step : HostStep H) (name : RegistryName) :
    ((h.step step).2.registry name).held = if step.clears name then none else
      (h.registry name).held.or (step.registered? name) := by
  cases step with
  | register name' timer => exact h.held_register_eq name name' timer
  | clear name' =>
    show ((h.setRegistry name' .empty).registry name).held = _
    rw [registry_setRegistry]
    by_cases hname : name' = name
    · rw [if_pos hname, HostStep.clears, decide_eq_true hname, if_pos rfl]
      rfl
    · rw [if_neg hname, HostStep.clears, decide_eq_false hname]
      exact Option.or_none.symm
  | call c =>
    show ((h.call c).2.registry name).held = _
    rw [call_eq]
    cases (h.registry .system).held with
    | none => exact Option.or_none.symm
    | some timer =>
      dsimp only
      rw [registry_setTimer]
      exact Option.or_none.symm
  | wait span more =>
    rw [step_wait]
    cases (h.registry .system).held with
    | none => exact Option.or_none.symm
    | some timer =>
      dsimp only
      rw [registry_setTimer]
      exact Option.or_none.symm
  | operate timer c =>
    show ((h.setTimer timer _).registry name).held = _
    rw [registry_setTimer]
    exact Option.or_none.symm
  | move timer hw =>
    show ((h.setTimer timer _).registry name).held = _
    rw [registry_setTimer]
    exact Option.or_none.symm

end Host

/-! ## Runs -/

section Runs

variable [∀ i, TimerHardware (H i)] [∀ i, EventSink (K i)] (timers : Timers H K n)
  (before steps : List (HostStep H)) (step : HostStep H)

/-- What a step does to the timers by `direct` depends on the system's registry alone. -/
theorem HostStep.direct_snd_congr {held held' : RegistryName → Option (Fin m)}
    (h : held .system = held' .system) :
    (step.direct held timers).2 = (step.direct held' timers).2 := by
  cases step with
  | call c | wait span more =>
    unfold direct
    rw [h]
  | register | clear | operate | move => rfl

/-- The steps that `follow` has gathered are those that there were. -/
theorem HostStep.foldl_follow_fst : (steps.foldl HostStep.follow ([], [], timers)).1 = steps := by
  induction steps using List.reverseRecOn with
  | nil => rfl
  | append_singleton before step ih =>
    rw [List.foldl_append]
    exact congrArg (· ++ [step]) ih

/-- One step more of `directly` is carried out on the timers that the steps before have left. -/
theorem HostStep.directly_append :
    directly timers (before ++ [step]) =
      ((directly timers before).1 ++
          [(step.direct (firstRegistered · before) (directly timers before).2).1],
        (step.direct (firstRegistered · before) (directly timers before).2).2) := by
  have hsteps := foldl_follow_fst timers before
  unfold directly
  rw [List.foldl_append]
  generalize before.foldl follow ([], [], timers) = x at hsteps ⊢
  obtain ⟨_, answers, timers'⟩ := x
  subst hsteps
  rfl

namespace Host

theorem run_append :
    run timers (before ++ [step]) =
      ((run timers before).1 ++ [((run timers before).2.step step).1],
        ((run timers before).2.step step).2) := List.foldl_append

/-- After `run` a registry holds the timer that was registered first. -/
theorem run_held (name : RegistryName) :
    ((run timers steps).2.registry name).held = HostStep.firstRegistered name steps := by
  induction steps using List.reverseRecOn with
  | nil => cases name <;> rfl
  | append_singleton before step ih =>
    rw [run_append, HostStep.firstRegistered_append, step_held, ih]

/-- The answers and the timers after `run` are those of `directly`. -/
theorem run_direct :
    ((run timers steps).1, (run timers steps).2.timers) = HostStep.directly timers steps := by
  induction steps using List.reverseRecOn with
  | nil => rfl
  | append_singleton before step ih =>
    have hstep := (run timers before).2.step_direct step
    have hheld : (fun name => ((run timers before).2.registry name).held) =
        (HostStep.firstRegistered · before) := funext (run_held timers before)
    have htimers : (run timers before).2.timers = (HostStep.directly timers before).2 :=
      congrArg Prod.snd ih
    have hanswers : (run timers before).1 = (HostStep.directly timers before).1 :=
      congrArg Prod.fst ih
    rw [hheld, htimers] at hstep
    rw [HostStep.directly_append, run_append, ← hstep, ← hanswers]

/-- What is done to the registry beside the system's makes no difference to the timers after `run`.
-/
theorem run_filter_timers :
    (run timers (steps.filter fun step => !step.concerns .own)).2.timers =
      (run timers steps).2.timers := by
  have hdirect : ∀ steps, (run timers steps).2.timers = (HostStep.directly timers steps).2 :=
    fun steps => congrArg Prod.snd (run_direct timers steps)
  rw [hdirect, hdirect]
  induction steps using List.reverseRecOn with
  | nil => rfl
  | append_singleton before step ih =>
    rw [List.filter_append, HostStep.directly_append]
    cases hown : step.concerns .own with
    | true =>
      have hnone : [step].filter (fun step => !step.concerns .own) = [] :=
        List.filter_cons_of_neg (by rw [hown]; decide)
      rw [hnone, List.append_nil, ih]
      cases step with
      | register | clear => rfl
      | call | wait | operate | move => cases hown
    | false =>
      have hone : [step].filter (fun step => !step.concerns .own) = [step] :=
        List.filter_cons_of_pos (by rw [hown]; decide)
      rw [hone, HostStep.directly_append, ih]
      exact HostStep.direct_snd_congr _ step (HostStep.firstRegistered_filter .system
        (fun step => step.not_concerns_own) before)

end Host

end Runs

/-! ## The system's timer -/

namespace Host

variable [∀ i, TimerHardware (H i)] [∀ i, EventSink (K i)]

/-- A host on which steps were carried out is what it would be if every call were an operation of
the timer that was registered first. -/
structure Forwards (timers : Timers H K n) (steps : List (HostStep H)) : Prop where
  /-- Each registry holds the timer that was registered first since it was last emptied, if any. -/
  held : ∀ name, ((run timers steps).2.registry name).held = HostStep.firstRegistered name steps
  /-- All answers, and the timers, are those of the steps carried out on a bare row of timers. -/
  direct : ((run timers steps).1, (run timers steps).2.timers) = HostStep.directly timers steps
  /-- A timer is taken exactly when none is registered, and is then the one registered. Otherwise
  nothing changes. -/
  register : ∀ name timer, (run timers steps).2.register name timer =
    if HostStep.firstRegistered name steps = none then
      (true, (run timers steps).2.setRegistry name ⟨some timer⟩)
    else (false, (run timers steps).2)
  /-- If a timer is registered a call does to it what the operation does that the call stands for,
  and tells what it answers. Nothing else on the host changes. -/
  served : ∀ c timer, HostStep.firstRegistered .system steps = some timer →
    (run timers steps).2.call c =
      (.ok (c.directly ((run timers steps).2.timers timer)).1,
        { (run timers steps).2 with
          timers := Function.update (run timers steps).2.timers timer
            (c.directly ((run timers steps).2.timers timer)).2 })
  /-- No other timer is changed by a call. -/
  others : ∀ c other, HostStep.firstRegistered .system steps ≠ some other →
    ((run timers steps).2.call c).2.timers other = (run timers steps).2.timers other
  /-- If no timer is registered a call is refused, or finds no event to wake for, and nothing
  changes. -/
  refused : ∀ c, HostStep.firstRegistered .system steps = none →
    (run timers steps).2.call c =
      (if c = .deepSleepWakeupTime then .ok (.wakeTime none) else .error .notSupported,
        (run timers steps).2)
  /-- A call to wait that is given readings enough ends exactly if the wait on the timer itself
  ends, after as many readings as that takes, and leaves the timer as that does. A masked section
  that is taken while the clock stands still is all the difference. -/
  waited : ∀ span timer, HostStep.firstRegistered .system steps = some timer → ∀ h',
    (∃ more, (run timers steps).2.step (.wait span more) = (.ok (SystemCall.waited true), h')) ↔
      ∃ s', Scheduler.Awaits span.toUs ((run timers steps).2.timers timer) s' ∧
        h' = { (run timers steps).2 with
          timers := Function.update (run timers steps).2.timers timer
            (s'.idled ((run timers steps).2.timers timer).suspended) }
  /-- If no timer is registered there is nothing to wait for. -/
  unwaited : ∀ span more, HostStep.firstRegistered .system steps = none →
    (run timers steps).2.step (.wait span more) = (.error .notSupported, (run timers steps).2)
  /-- `notSupported` is told exactly if no timer is registered, except when the time to wake at is
  asked for. -/
  unsupported_iff : ∀ c, SystemCall.told ((run timers steps).2.call c).1 = .error .notSupported ↔
    HostStep.firstRegistered .system steps = none ∧ c ≠ .deepSleepWakeupTime
  /-- Milliseconds stand for a thousand times as many microseconds, up to the largest 64-bit value.
  -/
  milliseconds : ∀ (r : Request) (ms : Nat),
    (run timers steps).2.call (.event { r with period := .ms ms }) =
        (run timers steps).2.call (.event { r with period := .us (min (ms * 1000) max64) }) ∧
      (run timers steps).2.call (.wait (.ms ms)) =
        (run timers steps).2.call (.wait (.us (min (ms * 1000) max64)))
  /-- What a registry holds depends on what was done to that registry and on nothing else: not on
  the other registry, nor on the timers. -/
  apart : ∀ name (timers' : Timers H K n),
    (run timers steps).2.registry name =
      (run timers' (steps.filter (·.concerns name))).2.registry name
  /-- Neither the timers nor the answers to calls depend on the registry beside the system's. -/
  unseen : (run timers (steps.filter fun step => !step.concerns .own)).2.timers =
      (run timers steps).2.timers ∧
    ∀ c, ((run timers (steps.filter fun step => !step.concerns .own)).2.call c).1 =
      ((run timers steps).2.call c).1

/-- A host forwards every call to the timer that was registered first, and does nothing else, as
`Forwards` says. The timers may be of different kinds. The other facts are about a single timer. A
request that is made while nobody uses the timer is served as by the timer itself. A wait reads the
time as any wait does while the clock is going, however many readings it takes, and whether or not
there is a bound on them. All that can be seen of the masked section that it takes while the clock
stands still is, on a simulated timer, the count. -/
theorem forwards :
    (∀ {m : Nat} {H K : Fin m → Type} {n : Fin m → Nat} [∀ i, TimerHardware (H i)]
      [∀ i, EventSink (K i)] (timers : Timers H K n) (steps : List (HostStep H)),
      Forwards timers steps) ∧
    (∀ {H K : Type} {n : Nat} [TimerHardware H] [EventSink K] (s : Scheduler H K n)
      (request : TimerRequest), (Shared.idle s).serve request =
        (.ok (s.serve request).1, Shared.idle (s.serve request).2)) ∧
    (∀ {H K : Type} {n : Nat} [TimerHardware H] (s : Scheduler H K n) (start us readings : Nat),
      Scheduler.pollShared start us (readings + 1) s =
        if s.suspended then (true, s) else Scheduler.pollUntil start us (readings + 1) s) ∧
    (∀ {H K : Type} {n : Nat} [TimerHardware H] (s s' : Scheduler H K n) (us : Nat),
      Scheduler.AwaitsShared us s s' ↔
        ∃ waited, Scheduler.Awaits us s waited ∧ s' = waited.idled s.suspended) ∧
    ∀ {K : Type} {n : Nat} (s : Scheduler SimTimer K n) (span : Span), (∃ count,
      (SystemCall.directly s (.wait span)).2 = (s.wait span).2.remask count) ∧
      ∀ stopped, ∃ count, s.idled stopped = s.remask count := by
  refine ⟨?_, Shared.serve_idle, fun s => s.pollShared_succ,
    fun _ _ _ => Scheduler.awaitsShared_iff,
    fun s span => ⟨SystemCall.directly_wait span s, fun stopped => s.idled_eq_remask stopped⟩⟩
  intro m H K n _ _ timers steps
  have hheld := run_held timers steps
  have hcall := (run timers steps).2.call_eq
  have hwait := (run timers steps).2.step_wait
  rw [hheld] at hcall hwait
  constructor
  case held => exact hheld
  case direct => exact run_direct timers steps
  case register =>
    intro name timer
    rw [register_eq, hheld]
  case served =>
    intro c timer hfirst
    rw [hcall, hfirst, ← setTimer_eq]
  case others =>
    intro c other hother
    exact call_timers_of_ne _ c (fun h => hother (hheld .system ▸ h))
  case refused =>
    intro c hfirst
    rw [hcall, hfirst]
  case waited =>
    intro span timer hfirst h'
    have hends := (run timers steps).2.step_wait_iff span ((hheld .system).trans hfirst) h'
    simp only [setTimer_eq] at hends
    exact hends
  case unwaited =>
    intro span more hfirst
    rw [hwait, hfirst]
  case unsupported_iff =>
    intro c
    rw [told_call_eq_iff, hheld]
  case milliseconds =>
    intro r ms
    refine ⟨rfl, ?_⟩
    rw [hcall, hcall]
    cases HostStep.firstRegistered .system steps <;> rfl
  case apart =>
    intro name timers'
    ext1
    rw [run_held, run_held]
    exact (HostStep.firstRegistered_filter name (fun step h => h) steps).symm
  case unseen =>
    have htimers := run_filter_timers timers steps
    refine ⟨htimers, fun c => ?_⟩
    have hsame := HostStep.firstRegistered_filter .system (fun step => step.not_concerns_own) steps
    rw [hcall, call_eq, run_held, hsame, htimers]
    cases HostStep.firstRegistered .system steps <;> rfl

/-- The first of two timers is registered beside the system's registry, and too late with it. The
call goes to the second. -/
example :
    let host := (run (fun _ : Fin 2 => Scheduler.bench) [.register .own 0, .register .system 1,
      .register .system 0, .call (.event ⟨.ms 5, 7, 1, false, .empty⟩)]).2
    host.system.held = some 1 ∧ host.own.held = some 0 ∧
      (host.timers 0).nextEventTime? = none ∧ (host.timers 1).nextEventTime? = some 5000 := by
  decide +kernel

end Host

end SoftTimer
