import SoftTimer.Scheduler.Drive
import SoftTimer.Proofs.Bench.Armed
import SoftTimer.Proofs.Dispatch.Interrupt
import SoftTimer.Proofs.History.Run

/-!
# How late an event can be

A scheduler on the bench is driven (`Scheduler.Driven`) when operations are carried out on it in any
order, and the counter moves only in steps, each up to the next compare match, which is passed on at
once. `Driven since s` also says when the channels were last armed, so that it tells how far an
event can be behind. The main statement is `Driven.lateness`: no pending event, and none that
fires, is later than the least distance allows, counted from its timestamp or from the time at which
the channels were last armed, whichever comes later.

The invariant is `Watched`: the set-up is as it should be, the pool remembers its earliest event,
and the channels are armed as soon as the scheduler is active. The remembered slot matters because
a cancellation leaves the channels alone when it does not change.
-/

namespace SoftTimer.Scheduler

variable {K : Type} {n : Nat} {since : Nat}

/-! ## The invariant -/

/-- The channels watch over what is pending, as they were armed at the time `since`. -/
structure Watched (since : Nat) (s : Scheduler SimTimer K n) : Prop where
  /-- The scheduler is set up as a constructor accepts it. -/
  wired : Wired s
  /-- The pool remembers its earliest event. -/
  cached : s.pool.Cached
  /-- While the scheduler is active its channels are armed. -/
  armed : s.suspended = false → ∃ ticks, Armed since ticks s

namespace Watched

variable {s s' : Scheduler SimTimer K n}

/-- A scheduler of the same clock, dial, pool and distances as one that is `Watched` is so too. -/
theorem congr (h : Watched since s) (hclock : s'.clock = s.clock)
    (hdial : SimTimer.SameDial s.hw s'.hw) (hpool : s'.pool = s.pool)
    (hconfig : s'.config = s.config) (hfallback : s'.fallbackTicks = s.fallbackTicks)
    (hsuspended : s'.suspended = s.suspended) : Watched since s' where
  wired := h.wired.of_sameSetup ⟨hconfig, hfallback, by rw [hclock], by rw [hclock], hdial.width,
    hdial.autoAdvance⟩
  cached := hpool ▸ h.cached
  armed hactive := by
    obtain ⟨ticks, harmed⟩ := h.armed (hsuspended.symm.trans hactive)
    exact ⟨ticks, harmed.congr hclock hdial hconfig hfallback fun _ he => hpool ▸ he⟩

/-- A scheduler stays `Watched` as it enters a masked section. -/
theorem entered (h : Watched since s) : Watched since s.entered :=
  h.congr rfl (.enter s.hw) rfl rfl rfl rfl

/-- A masked section leaves a scheduler `Watched` if what is done inside does. -/
theorem masked {α : Type} {act : Scheduler SimTimer K n → α × Scheduler SimTimer K n}
    (h : Watched since (act s.entered).2) : Watched since (masked act s).2 :=
  h.congr rfl (.leave _ _) rfl rfl rfl rfl

/-- A scheduler stays `Watched` under `sync`. -/
theorem sync (h : Watched since s) : Watched since s.sync where
  wired := h.wired.of_sameSetup (frame_sameSetup.sync s)
  cached := s.sync_same.pool ▸ h.cached
  armed hactive := by
    have hactive' : s.suspended = false := s.sync_same.suspended.symm.trans hactive
    obtain ⟨ticks, harmed⟩ := h.armed hactive'
    exact ⟨ticks, harmed.sync h.wired.toFitted hactive'⟩

/-- Reading the time leaves a scheduler `Watched`. -/
theorem reads (since : Nat) :
    Reads fun s s' : Scheduler SimTimer K n => Watched since s → Watched since s' where
  refl _ := id
  trans h h' := h' ∘ h
  enter _ h := h.entered
  leave _ _ h := h.congr rfl (.leave _ _) rfl rfl rfl rfl
  sync _ h := h.sync

/-- `rearm` leaves a scheduler that is `Wired` to be `Watched`. -/
theorem of_rearm (hwired : Wired s) : Watched s.rearm.clock.timeUs s.rearm where
  wired := hwired.of_sameSetup (frame_sameSetup.rearm s)
  cached := s.rearm_cached
  armed hactive := ⟨0, rearm_armed hwired (s.rearm_same.suspended.symm.trans hactive)⟩

/-- `register` leaves a scheduler `Watched`, and arms the channels if the request is granted. -/
theorem register (r : Request) (h : Watched since s) :
    Watched (if (register r s).1.isOk then (register r s).2.clock.timeUs else since)
      (register r s).2 := by
  rcases register_cases r s with ⟨-, -, hact⟩ | ⟨-, reason, -, hact⟩ | ⟨-, slot, p, -, hact⟩
  · rw [hact]
    exact h.congr rfl (.refl _) rfl rfl rfl rfl
  · rw [hact]
    exact h.sync.congr rfl (.refl _) rfl rfl rfl rfl
  · -- The request is granted.
    rw [hact]
    have hwired : Wired s.sync := h.wired.of_sameSetup (frame_sameSetup.sync s)
    exact of_rearm (hwired.of_sameSetup ⟨rfl, rfl, rfl, rfl, rfl, rfl⟩)

/-- `withdraw` leaves a scheduler `Watched`, and arms the channels if the earliest slot changes. -/
theorem withdraw (id value : UInt16) (h : Watched since s) :
    Watched (if (withdraw id value s).2.pool.earliest != s.pool.earliest then
      (withdraw id value s).2.clock.timeUs else since) (withdraw id value s).2 := by
  obtain ⟨p, hsub, ⟨hsame, hcached, hact⟩ | ⟨hchanged, hact⟩⟩ := withdraw_cases id value h.cached
  · rw [hsame, if_neg Bool.false_ne_true, hact]
    refine ⟨h.wired.of_sameSetup ⟨rfl, rfl, rfl, rfl, rfl, rfl⟩, hcached, fun hactive => ?_⟩
    obtain ⟨ticks, harmed⟩ := h.armed hactive
    exact ⟨ticks, harmed.congr rfl (.refl _) rfl rfl hsub⟩
  · rw [hchanged, if_pos rfl, hact]
    exact of_rearm (h.wired.of_sameSetup ⟨rfl, rfl, rfl, rfl, rfl, rfl⟩)

/-- `rearmNow` leaves a scheduler that is `Wired` to be `Watched`. -/
theorem of_rearmNow (hwired : Wired s) : Watched s.rearmNow.clock.timeUs s.rearmNow :=
  have harmed : Watched s.entered.rearm.clock.timeUs s.entered.rearm :=
    of_rearm (hwired.of_sameSetup (frame_sameSetup.enter s))
  harmed.congr rfl (.leave _ _) rfl rfl rfl rfl

/-- `handOver` leaves a scheduler `Watched`. -/
theorem handOver (h : Watched since s) : Watched since (handOver s).2 where
  wired := h.wired.of_sameSetup (frame_sameSetup.handOver s)
  cached := s.sync_same.pool ▸ h.cached
  armed hactive := by cases hactive

/-- `takeBack` leaves a scheduler `Watched`, and arms the channels. -/
theorem takeBack (counter elapsedUs : Nat) (h : Watched since s) :
    Watched (takeBack counter elapsedUs s).2.clock.timeUs (takeBack counter elapsedUs s).2 :=
  of_rearm (h.wired.of_sameSetup ⟨rfl, rfl, rfl, rfl, rfl, rfl⟩)

variable [EventSink K]

/-- `handle` leaves a scheduler `Watched` that is `Wired`, whether its channels were armed before or
not. -/
theorem of_handle (source : InterruptSource) (hwired : Wired s) (hcached : s.pool.Cached) :
    Watched (handle source s).2.clock.timeUs (handle source s).2 := by
  cases hactive : s.suspended with
  | true =>
    rw [handle_of_suspended source hactive]
    refine ⟨hwired.of_sameSetup ⟨rfl, rfl, rfl, rfl, rfl, rfl⟩, hcached, fun hnot => ?_⟩
    exact absurd (hactive.symm.trans hnot) (by decide)
  | false =>
    have hsync := hwired.of_sameSetup (frame_sameSetup.sync s)
    rw [handle_of_active source hactive]
    exact of_rearm (hsync.of_sameSetup ⟨rfl, rfl, rfl, rfl, rfl, rfl⟩)

/-- `interrupt` leaves a scheduler `Watched` that is `Wired`, whether its channels were armed before
or not. -/
theorem of_interrupt (source : InterruptSource) (hwired : Wired s) (hcached : s.pool.Cached) :
    Watched (s.interrupt source).2.clock.timeUs (s.interrupt source).2 :=
  .masked (of_handle source (hwired.of_sameSetup (frame_sameSetup.enter s)) hcached)

/-- `compareMatch` leaves a scheduler `Watched`, and arms the channels if the channel is one of the
two. -/
theorem compareMatch (channel : Nat) (h : Watched since s) :
    Watched (if (s.config.sourceOf? channel).isSome then
      (s.compareMatch channel).2.clock.timeUs else since) (s.compareMatch channel).2 := by
  unfold Scheduler.compareMatch
  cases s.config.sourceOf? channel with
  | some source => exact of_interrupt source h.wired h.cached
  | none => exact h

end Watched

/-! ## Driven schedulers -/

variable [EventSink K]

/-- Whether a `Command` arms the channels: a request that is granted, a cancellation that changes
the earliest slot, an interrupt of one of the two channels, arming as such, and taking time tracking
back. -/
def rearms (s : Scheduler SimTimer K n) : Command → Bool
  | .schedule request => (s.schedule request).1.isOk
  | .cancel id value => (s.cancel id value).2.pool.earliest != s.pool.earliest
  | .compareMatch channel => (s.config.sourceOf? channel).isSome
  | .rearm | .interrupt _ | .resume _ _ => true
  | .timeMs | .timeUs | .wait _ | .suspend => false

/-- When the channels were last armed, after a `Command`. -/
def armedAt (since : Nat) (s : Scheduler SimTimer K n) (c : Command) : Nat :=
  if s.rearms c then (s.exec c).2.clock.timeUs else since

omit [EventSink K] in
/-- The scheduler when `step` has moved the counter to the next compare match. -/
def stepped (s : Scheduler SimTimer K n) (maxTicks : Nat) : Scheduler SimTimer K n :=
  { s with hw := (OnBench.step s.hw maxTicks).2 }

/-- The scheduler when `step` has met a channel and the match was passed on by `compareMatch`. -/
def afterMatch (s : Scheduler SimTimer K n) (left channel : Nat) : Scheduler SimTimer K n :=
  ((s.stepped left).compareMatch channel).2

/-- A round of `driveRounds` in which no channel is met is the last. -/
theorem driveRounds_of_none {s : Scheduler SimTimer K n} {rounds : Nat} {log : DriveLog}
    (hnone : (s.hw.step log.left).1 = none) :
    driveRounds (rounds + 1) log s = ({ log with finished := true }, s.stepped log.left) := by
  have hstep : OnBench.step s.hw log.left = (none, (s.hw.step log.left).2) := Prod.ext hnone rfl
  rw [driveRounds, hstep]
  rfl

/-- A round of `driveRounds` in which a channel is met goes on with what is left. -/
theorem driveRounds_of_some {s : Scheduler SimTimer K n} {rounds channel ticks : Nat}
    {log : DriveLog}
    (hsome : (s.hw.step log.left).1 = some (channel, ticks)) :
    driveRounds (rounds + 1) log s = driveRounds rounds
      { log with
        compareMatches := log.compareMatches.push ⟨channel, ticks,
          ((s.stepped log.left).compareMatch channel).1,
          (s.afterMatch log.left channel).clock.timeUs⟩
        left := log.left - ticks } (s.afterMatch log.left channel) := by
  have hstep : OnBench.step s.hw log.left = (some (channel, ticks), (s.hw.step log.left).2) :=
    Prod.ext hsome rfl
  rw [driveRounds, hstep]
  rfl

/-- What may come of a scheduler on a `SimTimer`, and when its channels were last armed. Its counter
moves in steps only, and every compare match is passed on. -/
inductive Driven : Nat → Scheduler SimTimer K n → Prop
  /-- The scheduler has just been made, on a counter that does not move by itself and channels that
  the timer has. -/
  | made {s : Scheduler SimTimer K n} (hfresh : s.Fresh) (hstill : s.hw.autoAdvance = 0)
    (hprimary : s.config.primaryChannel < 4) (hfallback : s.config.fallbackChannel < 4) :
    Driven s.clock.timeUs s
  /-- An operation is carried out. -/
  | exec {since : Nat} {s : Scheduler SimTimer K n} (c : Command) (h : Driven since s) :
    Driven (s.armedAt since c) (s.exec c).2
  /-- The counter is stepped and meets no channel. -/
  | quiet {since : Nat} {s : Scheduler SimTimer K n} (maxTicks : Nat) (h : Driven since s)
    (hstep : (OnBench.step s.hw maxTicks).1 = none) : Driven since (s.stepped maxTicks)
  /-- The counter is stepped and meets a channel, and the scheduler is told. -/
  | met {since : Nat} {s : Scheduler SimTimer K n} {maxTicks channel ticks : Nat}
    (h : Driven since s) (hstep : (OnBench.step s.hw maxTicks).1 = some (channel, ticks)) :
    Driven ((s.stepped maxTicks).armedAt since (.compareMatch channel))
      ((s.stepped maxTicks).compareMatch channel).2

/-- A `Command` leaves a scheduler `Watched`. -/
theorem Watched.exec {s : Scheduler SimTimer K n} (h : Watched since s) (c : Command) :
    Watched (s.armedAt since c) (s.exec c).2 := by
  cases c with
  | timeMs => exact (Watched.reads since).timeMs s h
  | timeUs => exact (Watched.reads since).timeUs s h
  | schedule request => exact .masked (h.entered.register request)
  | cancel ident value => exact .masked (h.entered.withdraw ident value)
  | rearm => exact of_rearmNow h.wired
  | interrupt source => exact of_interrupt source h.wired h.cached
  | compareMatch channel => exact h.compareMatch channel
  | wait span => exact (Watched.reads since).wait span s h
  | suspend => exact .masked h.entered.handOver
  | resume counter elapsedUs => exact .masked (h.entered.takeBack counter elapsedUs)

omit [EventSink K] in
/-- A scheduler that is `Fresh` is `Watched`. -/
theorem Watched.of_fresh {s : Scheduler SimTimer K n} (hfresh : s.Fresh)
    (hstill : s.hw.autoAdvance = 0) (hprimary : s.config.primaryChannel < 4)
    (hfallback : s.config.fallbackChannel < 4) : Watched s.clock.timeUs s := by
  -- The scheduler before it first arms its channels, named so that it is not unfolded.
  obtain ⟨hw, sink, config, hvalid, rfl⟩ := hfresh.eq_begin
  obtain ⟨unarmed, hunarmed⟩ :
      ∃ unarmed, (ofHardware hw sink config : Scheduler SimTimer K n) = unarmed := ⟨_, rfl⟩
  have hsame : SameSetup unarmed unarmed.begin := frame_sameSetup.rearmNow unarmed
  rw [hunarmed] at hstill hprimary hfallback ⊢
  rw [hsame.autoAdvance] at hstill
  rw [hsame.config] at hprimary hfallback
  have hvalid' := Config.validate_eq_ok.mp hvalid
  have hwired : Wired unarmed := by
    subst hunarmed
    exact ⟨⟨hstill, rfl, hfallback, Nat.min_le_right _ _⟩, hprimary, hvalid'.1,
      Nat.pos_of_ne_zero hvalid'.2.2⟩
  exact of_rearmNow hwired

omit [EventSink K] in
/-- The scheduler `stepped` is of the `SameSetup`. -/
theorem stepped_sameSetup (s : Scheduler SimTimer K n) (maxTicks : Nat) :
    SameSetup s (s.stepped maxTicks) := by
  obtain ⟨hwidth, hauto, -, -, -⟩ := s.hw.step_moves maxTicks
  exact ⟨rfl, rfl, rfl, rfl, hwidth, hauto⟩

omit [EventSink K] in
/-- After a step of a scheduler that is `Armed` no more ticks have passed than to any pending event,
or the least distance. -/
theorem Armed.stepped {s : Scheduler SimTimer K n} {ticks : Nat} (hwired : Wired s)
    (h : Armed since ticks s) (maxTicks : Nat) {e : Event} (he : e ∈ s.pool.events) :
    ∃ ticks', Ticked since ticks' (s.stepped maxTicks) ∧
      ticks' ≤ max (s.clock.ticksFor (e.timestamp - since)) s.config.minArmTicks := by
  -- A step passes neither channel. The primary one lies no further than the events allow, and the
  -- fallback one less than a turn away, so that no turn is missed.
  obtain ⟨hwidth, -, hcounter, hahead, -⟩ := s.hw.step_moves maxTicks
  obtain ⟨left, hleft, hle⟩ := h.primary e he
  obtain ⟨rest, hrest, hfallback⟩ := h.fallback
  have hmore := hahead _ _ hleft
  have hmore' := hahead _ _ hrest
  have hlt := hwired.fallbackTicks_lt
  refine ⟨ticks + s.hw.stepTicks maxTicks, h.toTicked.advance hwidth hcounter (by omega), ?_⟩
  exact Nat.le_trans (Nat.add_le_add_left hmore ticks) hle

omit [EventSink K] in
/-- A step that stops on neither channel leaves a scheduler `Watched`. -/
theorem Watched.stepped {s : Scheduler SimTimer K n} (h : Watched since s) (maxTicks : Nat)
    (hprimary : ∀ ticks, (s.hw.step maxTicks).1 ≠ some (s.config.primaryChannel, ticks))
    (hfallback : ∀ ticks, (s.hw.step maxTicks).1 ≠ some (s.config.fallbackChannel, ticks)) :
    Watched since (s.stepped maxTicks) := by
  refine ⟨h.wired.of_sameSetup (s.stepped_sameSetup maxTicks), h.cached, fun hactive => ?_⟩
  obtain ⟨ticks, harmed⟩ := h.armed hactive
  obtain ⟨hwidth, -, hcounter, hahead, hkept⟩ := s.hw.step_moves maxTicks
  exact ⟨ticks + s.hw.stepTicks maxTicks, harmed.advance h.wired.toFitted hwidth hcounter hahead
    (hkept _ hprimary) (hkept _ hfallback)⟩

/-- A step that meets a channel leaves a scheduler `Watched`, once the match was passed on. -/
theorem Watched.met {s : Scheduler SimTimer K n} (h : Watched since s)
    {maxTicks channel ticks : Nat} (hstep : (s.hw.step maxTicks).1 = some (channel, ticks)) :
    Watched ((s.stepped maxTicks).armedAt since (.compareMatch channel))
      ((s.stepped maxTicks).compareMatch channel).2 := by
  have hwired := h.wired.of_sameSetup (s.stepped_sameSetup maxTicks)
  show Watched (if ((s.stepped maxTicks).config.sourceOf? channel).isSome then
    ((s.stepped maxTicks).compareMatch channel).2.clock.timeUs else since) _
  unfold Scheduler.compareMatch
  cases hsource : (s.stepped maxTicks).config.sourceOf? channel with
  | some source =>
    -- The channel that was met is disarmed, but the interrupt arms both again.
    exact of_interrupt source hwired h.cached
  | none =>
    -- The channel is neither of the two.
    have hother : channel ≠ s.config.fallbackChannel ∧ channel ≠ s.config.primaryChannel := by
      have hnone : s.config.sourceOf? channel = none := hsource
      unfold Config.sourceOf? at hnone
      split at hnone
      · cases hnone
      · next hfallback =>
        split at hnone
        · cases hnone
        · next hprimary => exact ⟨hfallback, hprimary⟩
    refine h.stepped maxTicks (fun d heq => ?_) (fun d heq => ?_)
    · rw [hstep] at heq
      cases heq
      exact hother.2 rfl
    · rw [hstep] at heq
      cases heq
      exact hother.1 rfl

namespace Driven

variable {s : Scheduler SimTimer K n}

/-- A scheduler that is `Driven` is `Watched`. -/
theorem watched (h : Driven since s) : Watched since s := by
  induction h with
  | made hfresh hstill hprimary hfallback => exact .of_fresh hfresh hstill hprimary hfallback
  | exec c _ ih => exact ih.exec c
  | @quiet since s maxTicks _ hstep ih =>
    have hnone : (s.hw.step maxTicks).1 = none := hstep
    exact ih.stepped maxTicks (fun _ heq => by rw [hnone] at heq; cases heq)
      (fun _ heq => by rw [hnone] at heq; cases heq)
  | met _ hstep ih => exact ih.met hstep

/-- A scheduler stays `Driven` under `driveRounds`, which passes every compare match on. -/
theorem driveRounds (rounds : Nat) (log : DriveLog) (h : Driven since s) :
    ∃ later, Driven later (Scheduler.driveRounds rounds log s).2 := by
  induction rounds generalizing since log s with
  | zero => exact ⟨since, h⟩
  | succ rounds ih =>
    cases hstep : (s.hw.step log.left).1 with
    | none =>
      rw [driveRounds_of_none hstep]
      exact ⟨since, h.quiet log.left hstep⟩
    | some found =>
      rw [driveRounds_of_some hstep]
      exact ih _ (h.met hstep)

/-- A scheduler stays `Driven` under `drive`. -/
theorem drive (ticks : Nat) (h : Driven since s) :
    ∃ later, Driven later (s.drive ticks).2 := h.driveRounds _ _

end Driven

/-! ## How late an event is -/

/-- No event is later than the `lateBound` allows, counted from its timestamp or from when the
channels were last armed. -/
structure OnTime (since : Nat) (s : Scheduler SimTimer K n) : Prop where
  /-- The bound holds of every pending event. -/
  pending : ∀ e ∈ s.pool.events, s.timeUs.1 ≤ max e.timestamp since + s.lateBound
  /-- An interrupt finds due what is due, and no later. -/
  found : ∀ e ∈ s.pool.events, e.isDue s.timeUs.1 = true →
    e.timestamp ≤ s.timeUs.1 ∧ s.timeUs.1 ≤ max e.timestamp since + s.lateBound
  /-- What an interrupt fires is due, and no later. -/
  fired : s.timeUs.1 < max64 → ∀ source, ∀ f ∈ (s.interrupt source).1,
    f.event.timestamp ≤ s.timeUs.1 ∧
      s.timeUs.1 ≤ max f.event.timestamp since + s.lateBound

/-- An active scheduler is `OnTime` if its pending events are, for an interrupt fires no others. -/
theorem OnTime.of_pending {s : Scheduler SimTimer K n} (hactive : s.suspended = false)
    (h : ∀ e ∈ s.pool.events, s.timeUs.1 ≤ max e.timestamp since + s.lateBound) :
    OnTime since s where
  pending := h
  found e he hdue := ⟨(Event.isDue_iff e _).mp hdue, h e he⟩
  fired := by
    intro hnow source f hf
    obtain ⟨d, hdrains, -⟩ := interrupt_drains source hactive hnow
    rw [← Array.mem_toList_iff] at hf
    -- What fires may have moved on, but it is no earlier than an event that was pending.
    obtain ⟨slot, e, hget, hle⟩ := hdrains.exists_timestamp_le hnow hf
    have hlate := h e (Pool.mem_events.mpr ⟨slot, hget⟩)
    exact ⟨hdrains.timestamp_le hf, by omega⟩

/-- However an active scheduler is `Driven`, and wherever a step takes its counter, no event is
later than the least distance allows, as `OnTime` says. -/
theorem Driven.lateness {s : Scheduler SimTimer K n} (h : Driven since s)
    (hactive : s.suspended = false) :
    OnTime since s ∧ ∀ maxTicks, OnTime since (s.stepped maxTicks) := by
  have hwatched := h.watched
  obtain ⟨ticks, harmed⟩ := hwatched.armed hactive
  constructor
  · -- The primary channel still lies ahead, so the ticks passed are fewer than those to it.
    refine .of_pending hactive fun e he => ?_
    obtain ⟨left, -, hle⟩ := harmed.primary e he
    exact harmed.toTicked.timeUs_le hwatched.wired hactive (Nat.le_of_add_right_le hle)
  · intro maxTicks
    have hwired := hwatched.wired.of_sameSetup (s.stepped_sameSetup maxTicks)
    refine .of_pending hactive fun e he => ?_
    obtain ⟨ticks', hticked, hle⟩ := harmed.stepped hwatched.wired maxTicks he
    exact hticked.timeUs_le hwired hactive hle

/-- A scheduler on a `SimTimer` that makes 32768 ticks in a second. -/
def quartz : Scheduler SimTimer Recorder 2 := withDefaults (.new .bits16 32768) .unbounded

/-- A request to `quartz` for an event every millisecond. -/
def everyMs : Command := .schedule ⟨.ms 1, 8, 2, true, .empty⟩

/-- The least distance of `quartz`, ten ticks, is worth 306 microseconds. The event fires at the
first tick after its millisecond, which is 7 microseconds late. -/
theorem lateness_quartz :
    Driven 0 (quartz.exec everyMs).2 ∧ (quartz.exec everyMs).2.suspended = false ∧
      OnTime 0 (quartz.exec everyMs).2 ∧
      OnTime 0 ((quartz.exec everyMs).2.stepped 100) ∧
      (quartz.exec everyMs).2.lateBound = 306 ∧
      (OnBench.step (quartz.exec everyMs).2.hw 100).1 = some (1, 33) ∧
      ((quartz.exec everyMs).2.stepped 100).timeUs.1 = 1007 ∧
      (((quartz.exec everyMs).2.stepped 100).interrupt .primary).1.toList.map
        (·.event.timestamp) = [1000] := by
  have hmade : Driven quartz.clock.timeUs quartz :=
    .made (.inr ⟨_, _, rfl⟩) (by decide +kernel) (by decide) (by decide)
  have harmed : quartz.armedAt quartz.clock.timeUs everyMs = 0 := by decide +kernel
  have hdriven : Driven 0 (quartz.exec everyMs).2 := harmed ▸ hmade.exec everyMs
  have hactive : (quartz.exec everyMs).2.suspended = false := by decide +kernel
  obtain ⟨hnow, hstepped⟩ := hdriven.lateness hactive
  exact ⟨hdriven, hactive, hnow, hstepped 100, by decide +kernel, by decide +kernel,
    by decide +kernel, by decide +kernel⟩

end SoftTimer.Scheduler
