import SoftTimer.Proofs.Bench.Lateness
import SoftTimer.Proofs.Scheduler.Cache

/-!
# What becomes of the timing

When a scheduler is interrupted next depends on its clock, its counter and its channels, and on
nothing else (`Scheduler.SameTiming`). An operation that does not hand time tracking over or take it
back leaves them alone, brings the clock up to date, or arms the channels (`Timing`), and which of
the three it is can be told beforehand (`exec_timing`).

A round (`Scheduler.round`) steps the counter up to a compare match that is passed on or lost. It
ends in an interrupt (`Scheduler.heard?`), which arms the channels, or the fallback channel has not
been met and still lies ahead (`Guarded.stepped`).
-/

namespace SoftTimer

/-- Whether a `Command` neither hands time tracking over nor takes it back. -/
def Command.keepsTime : Command → Bool
  | .suspend | .resume _ _ => false
  | _ => true

namespace Scheduler

variable {K : Type} {n : Nat} {s s' : Scheduler SimTimer K n} {since ticks : Nat}

/-- The clock, the dial and the distances of `s'` are those of `s`, so that both are to be
interrupted at the same times. -/
structure SameTiming (s s' : Scheduler SimTimer K n) : Prop where
  clock : s'.clock = s.clock
  dial : SimTimer.SameDial s.hw s'.hw
  config : s'.config = s.config
  fallbackTicks : s'.fallbackTicks = s.fallbackTicks
  suspended : s'.suspended = s.suspended

namespace SameTiming

theorem refl (s : Scheduler SimTimer K n) : SameTiming s s := ⟨rfl, .refl _, rfl, rfl, rfl⟩

theorem trans {s'' : Scheduler SimTimer K n} (h : SameTiming s s') (h' : SameTiming s' s'') :
    SameTiming s s'' :=
  ⟨h'.clock.trans h.clock, h.dial.trans h'.dial, h'.config.trans h.config,
    h'.fallbackTicks.trans h.fallbackTicks, h'.suspended.trans h.suspended⟩

theorem entered (s : Scheduler SimTimer K n) : SameTiming s s.entered :=
  ⟨rfl, .enter s.hw, rfl, rfl, rfl⟩

theorem leave (restore : Bool) (s : Scheduler SimTimer K n) :
    SameTiming s { s with hw := IrqMask.leave restore s.hw } :=
  ⟨rfl, .leave restore s.hw, rfl, rfl, rfl⟩

/-- Replacing the pool, the sink and the statistics keeps the `SameTiming`. -/
theorem contents (s : Scheduler SimTimer K n) (pool : Pool n) (sink : K) (stats : Stats) :
    SameTiming s { s with pool := pool, sink := sink, stats := stats } :=
  ⟨rfl, .refl _, rfl, rfl, rfl⟩

/-- Schedulers of the `SameTiming` have it after `sync`. -/
theorem sync (h : SameTiming s s') : SameTiming s.sync s'.sync := by
  have hread : TimerHardware.readCounter s'.hw =
      (s.hw.counter, s'.hw.advance s.hw.autoAdvance) := by
    show (s'.hw.counter, s'.hw.advance s'.hw.autoAdvance) = _
    rw [h.dial.counter, h.dial.autoAdvance]
  unfold Scheduler.sync
  rw [h.suspended, hread]
  split
  · exact h
  · have hclock : s'.clock.sync s.hw.counter = s.clock.sync s.hw.counter := by rw [h.clock]
    exact ⟨hclock, h.dial.advance _, h.config, h.fallbackTicks, rfl⟩

/-- Schedulers of the `SameTiming` are of the `SameSetup`. -/
theorem sameSetup (h : SameTiming s s') : SameSetup s s' :=
  ⟨h.config, h.fallbackTicks, by rw [h.clock], by rw [h.clock], h.dial.width, h.dial.autoAdvance⟩

end SameTiming

/-- `sync` does nothing the second time, if the scheduler is `Legible`. -/
theorem sync_sync (hlegible : Legible s) : s.sync.sync = s.sync := by
  cases hactive : s.suspended with
  | true =>
    have hsync : s.sync = s := if_pos hactive
    rw [hsync, hsync]
  | false =>
    have hlegible' : Legible s.sync := hlegible.of_sameSetup (frame_sameSetup.sync s)
    exact sync_of_reading hlegible'.still (sync_reading hlegible.still hlegible.width hactive)

/-- `rearm` does the same after a `sync`, if the scheduler is `Legible`. -/
theorem rearm_sync (hlegible : Legible s) : s.sync.rearm = s.rearm := by
  have hsuspended : s.sync.suspended = s.suspended := s.sync_same.suspended
  cases hactive : s.suspended with
  | true =>
    have hsync : s.sync = s := if_pos hactive
    rw [hsync]
  | false =>
    have hnot : ¬ s.suspended = true := by simp [hactive]
    have hnot' : ¬ s.sync.suspended = true := by simp [hsuspended, hactive]
    -- Looking for the earliest event and bringing the clock up to date do not meet.
    have hrefresh : s.refresh.sync = s.sync.refresh := by
      rw [sync_eq hlegible.still hactive]
      exact sync_eq (s := s.refresh) hlegible.still hactive
    have hsetup : SameSetup s s.refresh := ⟨rfl, rfl, rfl, rfl, rfl, rfl⟩
    have htwice : s.refresh.sync.sync = s.refresh.sync := sync_sync (hlegible.of_sameSetup hsetup)
    unfold rearm
    rw [if_neg hnot, if_neg hnot', ← hrefresh, htwice]

/-! ## Operations -/

/-- What becomes of the timing from `s` to `s'`: whether the clock is brought up to date, and
whether the channels are armed after that. -/
inductive Timing (s s' : Scheduler SimTimer K n) : Bool → Bool → Prop
  /-- Nothing changes. -/
  | left (h : SameTiming s s') : Timing s s' false false
  /-- The clock is brought up to date. -/
  | read (h : SameTiming s.sync s') : Timing s s' true false
  /-- The channels are armed. -/
  | armed {x : Scheduler SimTimer K n} (hx : SameTiming s.sync x) (h : SameTiming x.rearm s') :
    Timing s s' true true

namespace Timing

variable {syncs rearms : Bool}

/-- The `Timing` of a masked section is that of what is done inside. -/
theorem masked {α : Type} {act : Scheduler SimTimer K n → α × Scheduler SimTimer K n}
    (h : Timing s.entered (act s.entered).2 syncs rearms) :
    Timing s (masked act s).2 syncs rearms := by
  have hsync : SameTiming s.sync s.entered.sync := (SameTiming.entered s).sync
  cases h with
  | left h => exact .left (((SameTiming.entered s).trans h).trans (.leave _ _))
  | read h => exact .read ((hsync.trans h).trans (.leave _ _))
  | armed hx h => exact .armed (hsync.trans hx) (h.trans (.leave _ _))

/-- `rearm` of a scheduler of the `SameTiming` syncs and rearms. -/
theorem of_rearm {x : Scheduler SimTimer K n} (hlegible : Legible s) (hx : SameTiming s x) :
    Timing s x.rearm true true := by
  have hlegible' : Legible x := hlegible.of_sameSetup hx.sameSetup
  rw [← rearm_sync hlegible']
  exact .armed hx.sync (.refl _)

/-- A `Timing` does not change whether the scheduler is active. -/
theorem suspended (h : Timing s s' syncs rearms) : s'.suspended = s.suspended := by
  have hsync : s.sync.suspended = s.suspended := s.sync_same.suspended
  cases h with
  | left h => exact h.suspended
  | read h => exact h.suspended.trans hsync
  | @armed x hx h =>
    have hrearm : x.rearm.suspended = x.suspended := x.rearm_same.suspended
    rw [h.suspended, hrearm, hx.suspended, hsync]

/-- A `Timing` that rearms leaves the fallback channel `Guarded`, with no ticks passed. -/
theorem guarded (h : Timing s s' syncs true) (hfitted : Fitted s) (hactive : s.suspended = false) :
    Guarded s'.clock.timeUs 0 s' := by
  cases h with
  | @armed x hx h =>
    have hsetup : SameSetup s x := frame_sameSetup.trans (frame_sameSetup.sync s) hx.sameSetup
    have hxactive : x.suspended = false := by
      rw [hx.suspended, s.sync_same.suspended, hactive]
    have hguarded := rearm_guarded (hfitted.of_sameSetup hsetup) hxactive
    rw [← h.clock] at hguarded
    exact hguarded.congr h.clock h.dial h.config h.fallbackTicks

/-- A `Timing` that does not rearm leaves the fallback channel `Guarded` as before. -/
theorem kept (h : Timing s s' syncs false) (hfitted : Fitted s) (hactive : s.suspended = false)
    (hguarded : Guarded since ticks s) : Guarded since ticks s' := by
  cases h with
  | left h => exact hguarded.congr h.clock h.dial h.config h.fallbackTicks
  | read h =>
    have hsynced := hguarded.sync hfitted hactive
    exact hsynced.congr h.clock h.dial h.config h.fallbackTicks

/-- A `Timing` leaves the clock as it was, or as it observes the counter if it syncs. -/
theorem clock (h : Timing s s' syncs rearms) (hlegible : Legible s)
    (hactive : s.suspended = false) :
    s'.clock = if syncs then s.clock.sync s.hw.counter else s.clock := by
  have hsync : s.sync.clock = s.clock.sync s.hw.counter := by
    rw [sync_eq hlegible.still hactive]
  have hreading := sync_reading hlegible.still hlegible.width hactive
  cases h with
  | left h => exact h.clock
  | read h => exact h.clock.trans hsync
  | @armed x hx h =>
    -- The clock is up to date when the channels are armed.
    have hsetup : SameSetup s x := frame_sameSetup.trans (frame_sameSetup.sync s) hx.sameSetup
    have hxreading : x.clock.reading = x.hw.counter := by
      rw [hx.clock, hreading, hx.dial.counter]
    have hrearm := rearm_clock (hlegible.of_sameSetup hsetup).still hxreading
    show s'.clock = s.clock.sync s.hw.counter
    rw [h.clock, hrearm, hx.clock, hsync]

end Timing

/-- `register` syncs if the request makes sense, and rearms if it is granted. -/
theorem register_timing (r : Request) (s : Scheduler SimTimer K n) :
    Timing s (register r s).2 (!(r.repeating && r.period.toUs == 0)) (register r s).1.isOk := by
  rcases register_cases r s with ⟨hrep, hzero, hact⟩ | ⟨hpos, reason, -, hact⟩ |
    ⟨hpos, slot, p, -, hact⟩
  · have hbad : (!(r.repeating && r.period.toUs == 0)) = false := by simp [hrep, hzero]
    rw [hact, hbad]
    exact .left (.contents s _ _ _)
  all_goals
    have hgood : (!(r.repeating && r.period.toUs == 0)) = true := by
      cases hrep : r.repeating with
      | false => rfl
      | true =>
        have hne : r.period.toUs ≠ 0 := Nat.pos_iff_ne_zero.mp (hpos hrep)
        simp [hne]
    rw [hact, hgood]
  · exact .read (.contents s.sync _ _ _)
  · exact .armed (.contents s.sync p _ _) (.refl _)

/-- `withdraw` syncs and rearms if the earliest slot changes. -/
theorem withdraw_timing (hlegible : Legible s) (hcached : s.pool.Cached) (id value : UInt16) :
    Timing s (withdraw id value s).2
      ((withdraw id value s).2.pool.earliest != s.pool.earliest)
      ((withdraw id value s).2.pool.earliest != s.pool.earliest) := by
  obtain ⟨p, -, ⟨hsame, -, hact⟩ | ⟨hchanged, hact⟩⟩ := withdraw_cases id value hcached
  · rw [hsame, hact]
    exact .left (.contents s p _ _)
  · rw [hchanged, hact]
    exact .of_rearm hlegible (.contents s p _ _)

/-- Reading the time keeps the `SameTiming`, or that after a `sync`. -/
theorem reads_timing : Reads fun s s' : Scheduler SimTimer K n =>
    Legible s → SameTiming s s' ∨ SameTiming s.sync s' where
  refl s _ := .inl (.refl s)
  trans := by
    intro s s' s'' h h' hlegible
    have hsetup : SameSetup s s' := by
      rcases h hlegible with h | h
      · exact h.sameSetup
      · exact frame_sameSetup.trans (frame_sameSetup.sync s) h.sameSetup
    rcases h hlegible with h | h <;> rcases h' (hlegible.of_sameSetup hsetup) with h' | h'
    · exact .inl (h.trans h')
    · exact .inr (h.sync.trans h')
    · exact .inr (h.trans h')
    · -- Reading the time twice is reading it once.
      have htwice := h.sync
      rw [sync_sync hlegible] at htwice
      exact .inr (htwice.trans h')
  enter s _ := .inl (.entered s)
  leave restore s _ := .inl (.leave restore s)
  sync s _ := .inr (.refl _)

/-- `timeUs` syncs and does not rearm. -/
theorem timeUs_timing (s : Scheduler SimTimer K n) : Timing s s.timeUs.2 true false :=
  .masked (.read (.refl _))

/-- `wait` syncs and does not rearm. -/
theorem wait_timing (hlegible : Legible s) (span : Span) : Timing s (s.wait span).2 true false := by
  unfold wait waitUs
  split
  · next hsuspended =>
    have hsync : s.sync = s := if_pos hsuspended
    exact .read (hsync.symm ▸ .refl s)
  · -- The time is read once at first, and then any number of times.
    have hfirst : SameTiming s.sync s.timeUs.2 := by
      cases s.timeUs_timing with
      | read h => exact h
    have hsetup := frame_sameSetup.timeUs s
    have hrest := reads_timing.pollUntil s.timeUs.1 span.toUs
      (s.timeUs.2.readingsFor span.toUs) s.timeUs.2 (hlegible.of_sameSetup hsetup)
    rcases hrest with hrest | hrest
    · exact .read (hfirst.trans hrest)
    · have htwice := hfirst.sync
      rw [sync_sync hlegible] at htwice
      exact .read (htwice.trans hrest)

/-- `rearmNow` syncs and rearms. -/
theorem rearmNow_timing (hlegible : Legible s) : Timing s s.rearmNow true true :=
  have hlegible' : Legible s.entered := hlegible.of_sameSetup (frame_sameSetup.enter s)
  have hmasked : Timing s (masked (fun s => ((), s.rearm)) s).2 true true :=
    .masked (.of_rearm hlegible' (.refl _))
  hmasked

variable [EventSink K]

/-- `handle` syncs and rearms. -/
theorem handle_timing (source : InterruptSource) (s : Scheduler SimTimer K n) :
    Timing s (handle source s).2 true true := by
  cases hactive : s.suspended with
  | true =>
    have hsync : s.sync = s := if_pos hactive
    have hrearm : s.rearm = s.refresh := if_pos hactive
    rw [handle_of_suspended source hactive]
    refine .armed (x := s) (hsync.symm ▸ .refl s) ?_
    rw [hrearm]
    exact .contents s.refresh _ _ _
  | false =>
    rw [handle_of_active source hactive]
    exact .armed (x := s.drained source) (.contents s.sync _ _ _) (.refl _)

/-- `interrupt` syncs and rearms. -/
theorem interrupt_timing (source : InterruptSource) (s : Scheduler SimTimer K n) :
    Timing s (s.interrupt source).2 true true := .masked (handle_timing source s.entered)

/-- Whether a `Command` brings the clock up to date, unless it is handed over: reading the time, a
request that makes sense, and whatever arms the channels. -/
def syncs (s : Scheduler SimTimer K n) : Command → Bool
  | .timeMs | .timeUs | .wait _ | .suspend => true
  | .schedule request => !(request.repeating && request.period.toUs == 0)
  | c => s.rearms c

/-- The `Timing` of a `Command` that keeps time is what `syncs` and `rearms` say. -/
theorem exec_timing (hlegible : Legible s) (hcached : s.pool.Cached) {c : Command}
    (hkeeps : c.keepsTime = true) : Timing s (s.exec c).2 (s.syncs c) (s.rearms c) := by
  have hlegible' : Legible s.entered := hlegible.of_sameSetup (frame_sameSetup.enter s)
  cases c with
  | timeMs => exact s.timeUs_timing
  | timeUs => exact s.timeUs_timing
  | schedule request => exact .masked (register_timing request s.entered)
  | cancel ident value => exact .masked (withdraw_timing hlegible' hcached ident value)
  | rearm => exact rearmNow_timing hlegible
  | interrupt source => exact interrupt_timing source s
  | compareMatch channel =>
    show Timing s (s.compareMatch channel).2 (s.config.sourceOf? channel).isSome
      (s.config.sourceOf? channel).isSome
    unfold Scheduler.compareMatch
    cases s.config.sourceOf? channel with
    | some source => exact interrupt_timing source s
    | none => exact .left (.refl s)
  | wait span => exact wait_timing hlegible span
  | suspend => cases hkeeps
  | resume counter elapsedUs => cases hkeeps

/-! ## Construction -/

/-- The scheduler has just been made on the timer `hw`, by `new` or by `withDefaults`. -/
def MadeOn (hw : SimTimer) (s : Scheduler SimTimer K n) : Prop :=
  (∃ sink config, new hw sink config = .ok s) ∨ ∃ sink, withDefaults hw sink = s

omit [EventSink K] in
/-- A scheduler that is `MadeOn` a timer has armed its channels for the first time, by `begin`. -/
theorem MadeOn.eq_begin {hw : SimTimer} (hmade : MadeOn hw s) :
    ∃ sink config, s = (ofHardware hw sink config).begin := by
  rcases hmade with ⟨sink, config, hnew⟩ | ⟨sink, rfl⟩
  · exact ⟨sink, config, (new_eq_ok hnew).2.2⟩
  · exact ⟨sink, .standard, rfl⟩

/-- The scheduler has read the timer `hw` for the first time, and has armed nothing yet. -/
structure Unarmed (hw : SimTimer) (s : Scheduler SimTimer K n) : Prop where
  fitted : Fitted s
  active : s.suspended = false
  clock : s.clock = (Clock.new hw.width hw.tickHz).resync hw.counter
  hw : s.hw = hw

omit [EventSink K] in
/-- A scheduler that is `MadeOn` a timer comes by `rearmNow` from one that is `Unarmed`. -/
theorem MadeOn.unarmed {hw : SimTimer} (hmade : MadeOn hw s) (hstill : hw.autoAdvance = 0)
    (hfallback : s.config.fallbackChannel < 4) : ∃ x, Unarmed hw x ∧ s = x.rearmNow := by
  obtain ⟨sink, config, rfl⟩ := hmade.eq_begin
  have hread : TimerHardware.readCounter hw = (hw.counter, hw) :=
    SimTimer.readCounter_of_still hstill
  have hsetup : SameSetup (ofHardware hw sink config : Scheduler SimTimer K n)
      (ofHardware hw sink config).begin := frame_sameSetup.rearmNow _
  have hconfig : (ofHardware hw sink config : Scheduler SimTimer K n).config = config := rfl
  rw [hsetup.config, hconfig] at hfallback
  refine ⟨ofHardware hw sink config, ?_, rfl⟩
  unfold ofHardware
  rw [hread]
  exact ⟨⟨hstill, rfl, hfallback, Nat.min_le_right _ _⟩, rfl, rfl, rfl⟩

/-! ## Rounds -/

omit [EventSink K] in
/-- The `InterruptSource` of the channel on which a step stops, unless the match is lost. That of
the fallback channel is never lost. -/
def heard? (s : Scheduler SimTimer K n) (maxTicks : Nat) (lost : Bool) : Option InterruptSource :=
  (s.hw.step maxTicks).1.bind fun (channel, _) =>
    if lost && channel != s.config.fallbackChannel then none else s.config.sourceOf? channel

/-- Moves the counter by `step` up to the next compare match, which is passed on unless it is lost.
Gives what fired. -/
def round (s : Scheduler SimTimer K n) (maxTicks : Nat) (lost : Bool) :
    Array Firing × Scheduler SimTimer K n :=
  match (s.hw.step maxTicks).1 with
  | some (channel, _) =>
    if lost && channel != s.config.fallbackChannel then
      (#[], s.stepped maxTicks)
    else
      (s.stepped maxTicks).compareMatch channel
  | none => (#[], s.stepped maxTicks)

/-- `round` takes the interrupt that `heard?` gives, if any. -/
theorem round_eq (s : Scheduler SimTimer K n) (maxTicks : Nat) (lost : Bool) :
    s.round maxTicks lost =
      match s.heard? maxTicks lost with
      | some source => (s.stepped maxTicks).interrupt source
      | none => (#[], s.stepped maxTicks) := by
  unfold round heard?
  cases (s.hw.step maxTicks).1 with
  | none => rfl
  | some found =>
    obtain ⟨channel, distance⟩ := found
    rw [Option.bind_some]
    dsimp only
    split
    · rfl
    · rfl

omit [EventSink K] in
/-- A step for which `heard?` gives no interrupt has not stopped on the fallback channel. -/
theorem step_ne_fallback {maxTicks : Nat} {lost : Bool} (h : s.heard? maxTicks lost = none)
    (distance : Nat) : (s.hw.step maxTicks).1 ≠ some (s.config.fallbackChannel, distance) := by
  intro hstep
  have hsource : s.config.sourceOf? s.config.fallbackChannel = some .fallback := if_pos rfl
  unfold heard? at h
  rw [hstep, Option.bind_some] at h
  simp [hsource] at h

/-- What every `round` keeps to, `driveRounds` does. -/
theorem driveRounds_induct {P : Scheduler SimTimer K n → Prop}
    (hround : ∀ s maxTicks, P s → P (round s maxTicks false).2) (rounds : Nat) (log : DriveLog)
    (s : Scheduler SimTimer K n) (h : P s) : P (driveRounds rounds log s).2 := by
  induction rounds generalizing log s with
  | zero => exact h
  | succ rounds ih =>
    have hnext := hround s log.left h
    unfold round at hnext
    -- The drive goes on after a step that meets a channel, and ends with one that does not.
    cases hstep : (s.hw.step log.left).1 with
    | none =>
      rw [hstep] at hnext
      rw [driveRounds_of_none hstep]
      exact hnext
    | some found =>
      rw [hstep] at hnext
      rw [driveRounds_of_some hstep]
      exact ih _ _ hnext

omit [EventSink K] in
/-- A step passes no more ticks than those to a fallback channel that is `Guarded`. -/
theorem Guarded.stepped_le (h : Guarded since ticks s) (maxTicks : Nat) :
    ticks + s.hw.stepTicks maxTicks ≤ s.fallbackTicks := by
  obtain ⟨-, -, -, hahead, -⟩ := s.hw.step_moves maxTicks
  obtain ⟨left, hleft, hle⟩ := h.fallback
  have hmore := hahead _ _ hleft
  omega

omit [EventSink K] in
/-- A step adds its ticks to those to be credited, by `Ticked`. -/
theorem Guarded.ticked_stepped (hfitted : Fitted s) (h : Guarded since ticks s) (maxTicks : Nat) :
    Ticked since (ticks + s.hw.stepTicks maxTicks) (s.stepped maxTicks) := by
  obtain ⟨hwidth, -, hcounter, -, -⟩ := s.hw.step_moves maxTicks
  have hle := h.stepped_le maxTicks
  have hlt := hfitted.fallbackTicks_lt
  exact h.toTicked.advance hwidth hcounter (by omega)

omit [EventSink K] in
/-- A step for which `heard?` gives no interrupt leaves the fallback channel `Guarded`. -/
theorem Guarded.stepped (hfitted : Fitted s) (h : Guarded since ticks s) {maxTicks : Nat}
    {lost : Bool} (hnone : s.heard? maxTicks lost = none) :
    Guarded since (ticks + s.hw.stepTicks maxTicks) (s.stepped maxTicks) := by
  obtain ⟨hwidth, -, hcounter, hahead, hkept⟩ := s.hw.step_moves maxTicks
  exact h.advance hfitted hwidth hcounter (hahead _) (hkept _ (step_ne_fallback hnone))

end Scheduler

end SoftTimer
