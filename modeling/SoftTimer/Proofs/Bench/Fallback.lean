import SoftTimer.Proofs.Bench.Timing
import SoftTimer.Proofs.Dispatch.Outcome

/-!
# When interrupts of the primary channel are lost

An event whose interrupt is lost fires at the next one, and the fallback channel sees to it that
there is one. The main statement is `Reached.delay`: as long as no interrupt of the fallback channel
is lost, no event is later than the fallback distance allows, counted from its timestamp or from the
time at which the channels were last armed, whichever comes later. The primary channel need not even
exist.

`Reached` says how a scheduler may have come about, and when its channels were last armed if the
fallback channel still lies ahead. From there the counter moves in rounds (`Scheduler.rounds`), in
which any matches but those of the fallback channel are lost. The invariant of the rounds is
`Covered`. An interrupt leaves nothing due behind (`interrupt_settles`), so from then on every event
is counted from its own timestamp.
-/

namespace SoftTimer.Scheduler

variable {K : Type} {n : Nat} [EventSink K] {s s' : Scheduler SimTimer K n} {armedAt : Nat}

/-! ## How a scheduler may have come about -/

/-- When the channels were last armed, after a `Command`, unless the fallback channel was passed. -/
def lastArmed? (since : Option Nat) (s : Scheduler SimTimer K n) (c : Command) : Option Nat :=
  if s.rearms c then some (s.exec c).2.clock.timeUs else since

/-- What may come of a scheduler on a `SimTimer`, whatever becomes of its interrupts, and when its
channels were last armed, unless the counter has passed the fallback channel since. -/
inductive Reached : Option Nat → Scheduler SimTimer K n → Prop
  /-- The scheduler has just been made, on a counter that does not move by itself and a fallback
  channel that the timer has. -/
  | made {hw : SimTimer} {s : Scheduler SimTimer K n} (hmade : MadeOn hw s)
    (hstill : hw.autoAdvance = 0) (hfallback : s.config.fallbackChannel < 4) :
    Reached (some s.clock.timeUs) s
  /-- An operation is carried out. -/
  | exec {since : Option Nat} {s : Scheduler SimTimer K n} (c : Command) (h : Reached since s) :
    Reached (s.lastArmed? since c) (s.exec c).2
  /-- The counter moves on, but not past the fallback channel, which stays armed. -/
  | nearer {since : Option Nat} {s : Scheduler SimTimer K n} {more : Nat} (hw : SimTimer)
    (hwidth : hw.width = s.hw.width) (hauto : hw.autoAdvance = s.hw.autoAdvance)
    (hcounter : hw.counter = s.hw.width.offset s.hw.counter more)
    (hahead : ∀ left, s.hw.ticksUntil? s.config.fallbackChannel = some left → more ≤ left)
    (hkept : hw.compare? s.config.fallbackChannel = s.hw.compare? s.config.fallbackChannel)
    (h : Reached since s) : Reached since { s with hw := hw }
  /-- The timer changes in any other way. -/
  | moved {since : Option Nat} {s : Scheduler SimTimer K n} (hw : SimTimer)
    (hwidth : hw.width = s.hw.width) (hauto : hw.autoAdvance = s.hw.autoAdvance)
    (h : Reached since s) : Reached none { s with hw := hw }

/-- The scheduler is `Fitted`, its pool is `Cached`, and its fallback channel lies ahead if `since`
says when it was armed. -/
structure Held (since : Option Nat) (s : Scheduler SimTimer K n) : Prop where
  /-- The scheduler is set up as a constructor accepts it. -/
  fitted : Fitted s
  /-- The pool remembers its earliest event. -/
  cached : s.pool.Cached
  /-- While the scheduler is active its fallback channel lies ahead. -/
  guarded : ∀ armedAt, since = some armedAt → s.suspended = false →
    ∃ ticks, Guarded armedAt ticks s

/-- A `Command` leaves the scheduler `Held`, with the time at which the channels were last armed. -/
theorem Held.exec {since : Option Nat} (h : Held since s) (c : Command) :
    Held (s.lastArmed? since c) (s.exec c).2 := by
  have hsetup := frame_sameSetup.exec s c
  refine ⟨h.fitted.of_sameSetup hsetup, exec_cached h.cached c, fun armedAt hsince hactive => ?_⟩
  by_cases hkeeps : c.keepsTime = true
  · have htiming := exec_timing h.fitted.legible h.cached hkeeps
    have hactive' : s.suspended = false := htiming.suspended.symm.trans hactive
    unfold lastArmed? at hsince
    cases hrearms : s.rearms c with
    | true =>
      rw [hrearms] at htiming hsince
      cases hsince
      exact ⟨0, htiming.guarded h.fitted hactive'⟩
    | false =>
      rw [hrearms] at htiming hsince
      obtain ⟨ticks, hguarded⟩ := h.guarded armedAt hsince hactive'
      exact ⟨ticks, htiming.kept h.fitted hactive' hguarded⟩
  · cases c with
    | suspend => cases hactive
    | resume counter elapsedUs =>
      -- Taking time tracking back arms the channels.
      cases hsince
      have hsetup' : SameSetup s (s.entered.restart counter elapsedUs).alignDue.2 :=
        frame_sameSetup.trans (frame_sameSetup.enter s) ⟨rfl, rfl, rfl, rfl, rfl, rfl⟩
      have hguarded := rearm_guarded (h.fitted.of_sameSetup hsetup') rfl
      exact ⟨0, hguarded.congr rfl (.leave _ _) rfl rfl⟩
    | _ => exact absurd rfl hkeeps

/-- A scheduler that is `Reached` is `Held`: its fallback channel lies ahead if it is said to. -/
theorem Reached.held {since : Option Nat} (h : Reached since s) : Held since s := by
  induction h with
  | made hmade hstill hfallback =>
    obtain ⟨unarmed, hunarmed, rfl⟩ := hmade.unarmed hstill hfallback
    refine ⟨hunarmed.fitted.of_sameSetup (frame_sameSetup.rearmNow unarmed),
      unarmed.entered.rearm_cached, fun armedAt hsince _ => ?_⟩
    cases hsince
    exact ⟨0, (rearmNow_timing hunarmed.fitted.legible).guarded hunarmed.fitted hunarmed.active⟩
  | exec c _ ih => exact ih.exec c
  | nearer hw hwidth hauto hcounter hahead hkept _ ih =>
    refine ⟨ih.fitted.of_sameSetup ⟨rfl, rfl, rfl, rfl, hwidth, hauto⟩, ih.cached,
      fun armedAt hsince hactive => ?_⟩
    obtain ⟨ticks, hguarded⟩ := ih.guarded armedAt hsince hactive
    exact ⟨_, hguarded.advance ih.fitted hwidth hcounter hahead hkept⟩
  | moved hw hwidth hauto _ ih =>
    exact ⟨ih.fitted.of_sameSetup ⟨rfl, rfl, rfl, rfl, hwidth, hauto⟩, ih.cached,
      fun armedAt hsince => by cases hsince⟩

/-! ## Rounds one after another -/

/-- Plays a `round` for each pair of the most ticks it may take and whether its match is lost. Gives
all that fired, with the time of the interrupt. -/
def rounds (s : Scheduler SimTimer K n) :
    List (Nat × Bool) → List (Nat × Firing) × Scheduler SimTimer K n
  | [] => ([], s)
  | (maxTicks, lost) :: rest =>
    let now := (s.stepped maxTicks).timeUs.1
    let (firings, s) := s.round maxTicks lost
    let (log, s) := s.rounds rest
    (firings.toList.map (now, ·) ++ log, s)

/-- `rounds` one after another may be played in two parts. -/
theorem rounds_append (s : Scheduler SimTimer K n) (first rest : List (Nat × Bool)) :
    s.rounds (first ++ rest) =
      ((s.rounds first).1 ++ ((s.rounds first).2.rounds rest).1,
        ((s.rounds first).2.rounds rest).2) := by
  induction first generalizing s with
  | nil => rfl
  | cons step more ih =>
    obtain ⟨maxTicks, lost⟩ := step
    simp [rounds, ih, List.append_assoc]

/-- The fallback channel lies ahead, and was armed no later than `armedAt` or the timestamp of each
pending event, whichever is later. -/
structure Covered (armedAt : Nat) (s : Scheduler SimTimer K n) : Prop where
  /-- The scheduler is set up as a constructor accepts it. -/
  fitted : Fitted s
  /-- Time tracking is not handed over. -/
  active : s.suspended = false
  /-- The fallback channel lies ahead. -/
  guarded : ∃ since ticks, Guarded since ticks s ∧
    ∀ e ∈ s.pool.events, since ≤ max e.timestamp armedAt

/-- What `rounds` that lead from `s` to `s'` come to, with the firings of `log`. -/
structure Passes (armedAt : Nat) (s : Scheduler SimTimer K n) (log : List (Nat × Firing))
    (s' : Scheduler SimTimer K n) : Prop where
  /-- The fallback channel still lies ahead. -/
  covered : Covered armedAt s'
  /-- The set-up has not changed. -/
  setup : SameSetup s s'
  /-- What has fired was due, and no later than the fallback distance allows. -/
  fired : ∀ x ∈ log, x.2.event.timestamp ≤ x.1 ∧
    x.1 ≤ max x.2.event.timestamp armedAt + s.fallbackBound
  /-- What was pending has fired or still is. -/
  kept : ∀ e ∈ s.pool.events, e ∈ s'.pool.events ∨ ∃ x ∈ log, x.2.event = e

omit [EventSink K] in
/-- Schedulers of the `SameSetup` have the same `fallbackBound`. -/
theorem SameSetup.fallbackBound (h : SameSetup s s') : s'.fallbackBound = s.fallbackBound := by
  unfold Scheduler.fallbackBound
  rw [h.fallbackTicks, h.tickHz]

omit [EventSink K] in
/-- Wherever a step takes the counter of a scheduler that is `Covered`, no event is later than the
`fallbackBound` allows. -/
theorem Covered.stepped_le (h : Covered armedAt s) (maxTicks : Nat) {e : Event}
    (he : e ∈ s.pool.events) :
    (s.stepped maxTicks).timeUs.1 ≤ max e.timestamp armedAt + s.fallbackBound := by
  obtain ⟨since, ticks, hguarded, hsince⟩ := h.guarded
  have hfitted := h.fitted.of_sameSetup (s.stepped_sameSetup maxTicks)
  have hle := hsince e he
  have hbound : (s.stepped maxTicks).timeUs.1 ≤ since + s.fallbackBound :=
    (hguarded.ticked_stepped h.fitted maxTicks).timeUs_le_fallback hfitted h.active
      (hguarded.stepped_le maxTicks)
  omega

omit [EventSink K] in
/-- Where the counter of a scheduler that is `Covered` stands, no event is later than the
`fallbackBound` allows. -/
theorem Covered.timeUs_le (h : Covered armedAt s) {e : Event} (he : e ∈ s.pool.events) :
    s.timeUs.1 ≤ max e.timestamp armedAt + s.fallbackBound := by
  obtain ⟨since, ticks, hguarded, hsince⟩ := h.guarded
  obtain ⟨left, -, hticks⟩ := hguarded.fallback
  have hle := hsince e he
  have hbound : s.timeUs.1 ≤ since + s.fallbackBound :=
    hguarded.toTicked.timeUs_le_fallback h.fitted h.active (by omega)
  omega

/-- The clock after an `interrupt` has the time that `timeUs` reads before. -/
theorem interrupt_clock (source : InterruptSource) (hfitted : Fitted s)
    (hactive : s.suspended = false) :
    (s.interrupt source).2.clock.timeUs = s.timeUs.1 := by
  have hread := s.timeUs_timing.clock hfitted.legible hactive
  have htaken := (interrupt_timing source s).clock hfitted.legible hactive
  rw [htaken, ← hread]
  rfl

/-- An `interrupt` leaves of every event what is not due, and fires every event that is. -/
theorem interrupt_settles (source : InterruptSource) (hactive : s.suspended = false)
    (hnow : s.timeUs.1 < max64) :
    (∀ e ∈ (s.interrupt source).2.pool.events, s.timeUs.1 < e.timestamp) ∧
      ∀ e ∈ s.pool.events, e ∈ (s.interrupt source).2.pool.events ∨
        ∃ f ∈ (s.interrupt source).1.toList, f.event = e := by
  obtain ⟨d, hdrains, hpool⟩ := interrupt_drains source hactive hnow
  have hget : ∀ slot, (s.interrupt source).2.pool.get? slot =
      (s.pool.get? slot).bind (Event.settle s.timeUs.1) := fun slot => by
    rw [hpool, Pool.get?_recompute]
    exact hdrains.get?_eq hnow slot
  constructor
  · intro e he
    obtain ⟨slot, hslot⟩ := Pool.mem_events.mp he
    rw [hget] at hslot
    obtain ⟨e₀, -, hsettle⟩ := Option.bind_eq_some_iff.mp hslot
    exact (Event.settle_eq_some hnow hsettle).2.2
  · intro e he
    obtain ⟨slot, hslot⟩ := Pool.mem_events.mp he
    rcases Nat.lt_or_ge s.timeUs.1 e.timestamp with hlt | hdue
    · refine .inl (Pool.mem_events.mpr ⟨slot, ?_⟩)
      rw [hget, hslot, Option.bind_some, Event.settle_of_lt hlt]
    · exact .inr (hdrains.exists_event_eq hslot hdue)

/-- A `round` does not take time back. -/
theorem timeUs_le_round (s : Scheduler SimTimer K n) (maxTicks : Nat) (lost : Bool) :
    s.clock.timeUs ≤ (s.round maxTicks lost).2.clock.timeUs := by
  rw [round_eq]
  cases s.heard? maxTicks lost with
  | none => exact Nat.le_refl _
  | some source => exact frame_timeUs_le.exec (s.stepped maxTicks) (.interrupt source)

/-- Any number of `rounds` do not take time back. -/
theorem timeUs_le_rounds (s : Scheduler SimTimer K n) (script : List (Nat × Bool)) :
    s.clock.timeUs ≤ (s.rounds script).2.clock.timeUs := by
  induction script generalizing s with
  | nil => exact Nat.le_refl _
  | cons first rest ih =>
    obtain ⟨maxTicks, lost⟩ := first
    exact Nat.le_trans (s.timeUs_le_round maxTicks lost) (ih _)

/-- A `round` before the end of time keeps every event `Covered`. -/
theorem Covered.round (h : Covered armedAt s) (maxTicks : Nat) (lost : Bool)
    (hnow : (s.round maxTicks lost).2.clock.timeUs < max64) :
    Passes armedAt s
      ((s.round maxTicks lost).1.toList.map ((s.stepped maxTicks).timeUs.1, ·))
      (s.round maxTicks lost).2 := by
  have hsetup := s.stepped_sameSetup maxTicks
  have hfitted := h.fitted.of_sameSetup hsetup
  rw [round_eq] at hnow ⊢
  cases hheard : s.heard? maxTicks lost with
  | none =>
    -- Nothing fires, and the fallback channel still lies ahead.
    obtain ⟨since, ticks, hguarded, hsince⟩ := h.guarded
    exact
      { covered := ⟨hfitted, h.active, since, _, hguarded.stepped h.fitted hheard, hsince⟩
        setup := hsetup
        fired := fun x hx => absurd hx List.not_mem_nil
        kept := fun e he => .inl he }
  | some source =>
    rw [hheard] at hnow
    have hactive : (s.stepped maxTicks).suspended = false := h.active
    have htiming := interrupt_timing source (s.stepped maxTicks)
    have hclock := interrupt_clock source hfitted hactive
    have hnow' : (s.stepped maxTicks).timeUs.1 < max64 := hclock ▸ hnow
    have hsetup' := frame_sameSetup.exec (s.stepped maxTicks) (.interrupt source)
    obtain ⟨d, hdrains, -⟩ := interrupt_drains source hactive hnow'
    obtain ⟨hlater, hkept⟩ := interrupt_settles source hactive hnow'
    constructor
    case covered =>
      -- The channels are armed at the time of the interrupt, and nothing is due then any more.
      refine ⟨hfitted.of_sameSetup hsetup', htiming.suspended.trans hactive, _, 0,
        htiming.guarded hfitted hactive, fun e he => ?_⟩
      have hlt := hlater e he
      rw [hclock]
      omega
    case setup => exact frame_sameSetup.trans hsetup hsetup'
    case fired =>
      intro x hx
      obtain ⟨f, hf, rfl⟩ := List.mem_map.mp hx
      -- What fires may have moved on, but it is no earlier than an event that was pending.
      obtain ⟨slot, e, hget, hle⟩ := hdrains.exists_timestamp_le hnow' hf
      have he : e ∈ s.pool.events := Pool.mem_events.mpr ⟨slot, hget⟩
      have hlate := h.stepped_le maxTicks he
      exact ⟨hdrains.timestamp_le hf, by dsimp only; omega⟩
    case kept =>
      intro e he
      rcases hkept e he with hpending | ⟨f, hf, hevent⟩
      · exact .inl hpending
      · exact .inr ⟨_, List.mem_map_of_mem hf, hevent⟩

omit [EventSink K] in
/-- What rounds come to, by `Passes`, may be chained. -/
theorem Passes.trans {s'' : Scheduler SimTimer K n} {log more : List (Nat × Firing)}
    (h : Passes armedAt s log s') (h' : Passes armedAt s' more s'') :
    Passes armedAt s (log ++ more) s'' := by
  have hbound := h.setup.fallbackBound
  constructor
  case covered => exact h'.covered
  case setup => exact frame_sameSetup.trans h.setup h'.setup
  case fired =>
    refine List.forall_mem_append.mpr ⟨h.fired, fun x hx => ?_⟩
    have hx' := h'.fired x hx
    rw [hbound] at hx'
    exact hx'
  case kept =>
    intro e he
    rcases h.kept e he with hpending | ⟨x, hx, hevent⟩
    · rcases h'.kept e hpending with hpending' | ⟨x, hx, hevent⟩
      · exact .inl hpending'
      · exact .inr ⟨x, List.mem_append_right _ hx, hevent⟩
    · exact .inr ⟨x, List.mem_append_left _ hx, hevent⟩

/-- Any number of `rounds` before the end of time keep every event `Covered`. -/
theorem Covered.rounds (h : Covered armedAt s) (script : List (Nat × Bool))
    (hnow : (s.rounds script).2.clock.timeUs < max64) :
    Passes armedAt s (s.rounds script).1 (s.rounds script).2 := by
  induction script generalizing s with
  | nil =>
    exact
      { covered := h
        setup := frame_sameSetup.refl s
        fired := fun x hx => absurd hx List.not_mem_nil
        kept := fun e he => .inl he }
  | cons first rest ih =>
    obtain ⟨maxTicks, lost⟩ := first
    have hle := (s.round maxTicks lost).2.timeUs_le_rounds rest
    have hround := h.round maxTicks lost (Nat.lt_of_le_of_lt hle hnow)
    exact hround.trans (ih hround.covered hnow)

/-! ## How late an event is -/

/-- No event is later than the `fallbackBound` allows, in any of the rounds and after them. -/
structure Delay (armedAt : Nat) (s : Scheduler SimTimer K n) (script : List (Nat × Bool)) :
    Prop where
  /-- What has fired was due, and no later. -/
  fired : ∀ x ∈ (s.rounds script).1, x.2.event.timestamp ≤ x.1 ∧
    x.1 ≤ max x.2.event.timestamp armedAt + s.fallbackBound
  /-- What is still pending is no later. -/
  pending : ∀ e ∈ (s.rounds script).2.pool.events,
    (s.rounds script).2.timeUs.1 ≤ max e.timestamp armedAt + s.fallbackBound
  /-- Wherever the next step takes the counter, when an interrupt may find it due, no pending event
  is later either. -/
  stepped : ∀ maxTicks, ∀ e ∈ (s.rounds script).2.pool.events,
    ((s.rounds script).2.stepped maxTicks).timeUs.1 ≤ max e.timestamp armedAt + s.fallbackBound
  /-- What was pending after some of the rounds, and would be later, has fired in the others. -/
  passed : ∀ first rest, first ++ rest = script → ∀ e ∈ (s.rounds first).2.pool.events,
    max e.timestamp armedAt + s.fallbackBound < (s.rounds script).2.timeUs.1 →
      ∃ x ∈ ((s.rounds first).2.rounds rest).1, x.2.event = e

/-- However an active scheduler was `Reached`, if its fallback channel lies ahead and no interrupt
of that channel is lost, no event is later than the fallback distance allows, as `Delay` says. -/
theorem Reached.delay (h : Reached (some armedAt) s) (hactive : s.suspended = false)
    (script : List (Nat × Bool)) (hnow : (s.rounds script).2.clock.timeUs < max64) :
    Delay armedAt s script := by
  obtain ⟨hfitted, -, hguarded⟩ := h.held
  obtain ⟨ticks, hahead⟩ := hguarded armedAt rfl hactive
  have hcovered : Covered armedAt s :=
    ⟨hfitted, hactive, armedAt, ticks, hahead, fun e _ => Nat.le_max_right _ _⟩
  have hpasses := hcovered.rounds script hnow
  have hbound := hpasses.setup.fallbackBound
  constructor
  case fired => exact hpasses.fired
  case pending =>
    intro e he
    rw [← hbound]
    exact hpasses.covered.timeUs_le he
  case stepped =>
    intro maxTicks e he
    rw [← hbound]
    exact hpasses.covered.stepped_le maxTicks he
  case passed =>
    rintro first rest rfl e he hlate
    rw [rounds_append] at hnow hlate
    have hnow' := Nat.lt_of_le_of_lt ((s.rounds first).2.timeUs_le_rounds rest) hnow
    have hfirst := hcovered.rounds first hnow'
    have hrest := hfirst.covered.rounds rest hnow
    have hsetup := frame_sameSetup.trans hfirst.setup hrest.setup
    rw [← hsetup.fallbackBound] at hlate
    rcases hrest.kept e he with hpending | hfired
    · have hle := hrest.covered.timeUs_le hpending
      dsimp only at hlate
      omega
    · exact hfired

/-- A scheduler whose primary channel does not exist, and whose fallback channel is armed every
thousand ticks, so that it is `deaf` to the one. -/
def deaf : Scheduler SimTimer Recorder 2 :=
  (ofHardware .standard .unbounded { primaryChannel := 7, fallbackIntervalUs := 1000 }).begin

/-- A request to `deaf` for an event in a hundred microseconds. -/
def soon : Command := .schedule ⟨.us 100, 8, 2, false, .empty⟩

/-- The event that `deaf` is asked for fires when the fallback channel is met, a thousand
microseconds after it was armed. -/
theorem delay_deaf :
    Reached (some 0) (deaf.exec soon).2 ∧ (deaf.exec soon).2.suspended = false ∧
      ((deaf.exec soon).2.rounds [(500, true), (5000, true)]).2.clock.timeUs < max64 ∧
      Delay 0 (deaf.exec soon).2 [(500, true), (5000, true)] ∧
      (deaf.exec soon).2.fallbackBound = 1000 ∧
      ((deaf.exec soon).2.rounds [(500, true), (5000, true)]).1.map
        (fun x => (x.1, x.2.event.timestamp)) = [(1000, 100)] := by
  have hmade : MadeOn .standard deaf :=
    .inl ⟨.unbounded, { primaryChannel := 7, fallbackIntervalUs := 1000 }, rfl⟩
  have harmed : deaf.lastArmed? (some deaf.clock.timeUs) soon = some 0 := by decide +kernel
  have hreached : Reached (some 0) (deaf.exec soon).2 :=
    harmed ▸ .exec soon (.made hmade rfl (by decide))
  have hactive : (deaf.exec soon).2.suspended = false := by decide +kernel
  have hnow : ((deaf.exec soon).2.rounds [(500, true), (5000, true)]).2.clock.timeUs < max64 := by
    decide +kernel
  exact ⟨hreached, hactive, hnow, hreached.delay hactive _ hnow, by decide +kernel,
    by decide +kernel⟩

end SoftTimer.Scheduler
