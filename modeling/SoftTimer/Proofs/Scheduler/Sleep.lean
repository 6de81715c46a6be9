import SoftTimer.Proofs.Scheduler.Cache

/-!
# While time tracking is handed over

A scheduler that has handed time tracking over (`Scheduler.Asleep`) can be used as before: events
are asked for and cancelled, the time is read, interrupts come. But its clock stands still, and it
neither reads the counter nor arms a channel nor fires anything (`exec_idle`). All that it does to
the hardware is to mask interrupts and unmask them again (`IrqMask.blank`).

The main statement is `Asleep.frozen`. It says what every operation answers meanwhile, and what
becomes of the time and of the channels when time tracking is taken back (`TakenBack`).
-/

namespace SoftTimer

/-- The timer after `enter` and `leave` with nothing done to it in between. -/
def IrqMask.blank {H : Type} [TimerHardware H] (hw : H) : H :=
  IrqMask.leave (IrqMask.enter hw).1 (IrqMask.enter hw).2

/-- Whether a `Command` takes time tracking back. -/
def Command.takesBack : Command → Bool
  | .resume _ _ => true
  | _ => false

/-- `elapsed` between two readings depends on their low bits alone. -/
theorem CounterWidth.elapsed_reduce (w : CounterWidth) (start stop : Nat) :
    w.elapsed (w.reduce start) (w.reduce stop) = w.elapsed start stop := by
  unfold elapsed
  rw [reduce_of_lt (w.reduce_lt start), reduce_of_lt (w.reduce_lt stop)]

/-- A clock that goes on by `resync` from a reading, and is credited with some time, has nothing
left over when it observes the counter next. -/
theorem Clock.timeUs_restarted (c : Clock) (counter us raw : Nat) :
    (((c.resync counter).advanceUs us).sync raw).timeUs =
      sat64 (sat64 (c.timeUs + us) + c.width.elapsed counter raw * usPerSecond / c.tickHz) := by
  have hsync : (((c.resync counter).advanceUs us).sync raw).timeUs =
      sat64 (sat64 (c.timeUs + us) + (c.width.elapsed (c.width.reduce counter)
        (c.width.reduce raw) * usPerSecond + 0) / c.tickHz) := rfl
  rw [hsync, CounterWidth.elapsed_reduce, Nat.add_zero]

namespace Scheduler

variable {H K : Type} {n : Nat} [TimerHardware H] {s s' : Scheduler H K n}

/-! ## Idle operations -/

/-- Nothing has become of `s` but of its pending events and its statistics. -/
structure Idle (s s' : Scheduler H K n) : Prop where
  hw : s'.hw = s.hw
  clock : s'.clock = s.clock
  sink : s'.sink = s.sink
  config : s'.config = s.config
  fallbackTicks : s'.fallbackTicks = s.fallbackTicks
  suspended : s'.suspended = s.suspended

omit [TimerHardware H] in
theorem Idle.refl (s : Scheduler H K n) : Idle s s := ⟨rfl, rfl, rfl, rfl, rfl, rfl⟩

/-- A masked section whose steps are `Idle` masks interrupts and unmasks them again. -/
theorem Idle.masked {α : Type} {act : Scheduler H K n → α × Scheduler H K n}
    (h : Idle s.entered (act s.entered).2) :
    Idle { s with hw := IrqMask.blank s.hw } (masked act s).2 := by
  refine ⟨?_, h.clock, h.sink, h.config, h.fallbackTicks, h.suspended⟩
  show IrqMask.leave (IrqMask.enter s.hw).1 (act s.entered).2.hw = _
  rw [h.hw]
  rfl

/-- `sync` does nothing while the clock stands still. -/
theorem sync_of_suspended (h : s.suspended = true) : s.sync = s := if_pos h

/-- `rearm` only looks for the earliest event while the clock stands still. -/
theorem rearm_of_suspended (h : s.suspended = true) : s.rearm = s.refresh := if_pos h

/-- `rearm` is `Idle` while the clock stands still. -/
theorem rearm_idle (h : s.suspended = true) : Idle s s.rearm := by
  rw [rearm_of_suspended h]
  exact ⟨rfl, rfl, rfl, rfl, rfl, rfl⟩

/-- `register` is `Idle` while the clock stands still. -/
theorem register_idle (r : Request) (h : s.suspended = true) : Idle s (register r s).2 := by
  have hsync := sync_of_suspended h
  rcases register_cases r s with ⟨-, -, hact⟩ | ⟨-, reason, -, hact⟩ | ⟨-, slot, p, -, hact⟩
  · rw [hact]
    exact ⟨rfl, rfl, rfl, rfl, rfl, rfl⟩
  · rw [hact, hsync]
    exact ⟨rfl, rfl, rfl, rfl, rfl, rfl⟩
  · have hrearm := rearm_idle (s := { s with pool := p }) h
    rw [hact, hsync]
    exact ⟨hrearm.hw, hrearm.clock, hrearm.sink, hrearm.config, hrearm.fallbackTicks,
      hrearm.suspended⟩

/-- `withdraw` is `Idle` while the clock stands still. -/
theorem withdraw_idle (id value : UInt16) (h : s.suspended = true) :
    Idle s (withdraw id value s).2 := by
  rw [withdraw_eq]
  dsimp only
  split
  · have hrearm := rearm_idle (s := { s with pool := s.pool.releaseAll (s.pool.find id value) }) h
    exact ⟨hrearm.hw, hrearm.clock, hrearm.sink, hrearm.config, hrearm.fallbackTicks,
      hrearm.suspended⟩
  · exact ⟨rfl, rfl, rfl, rfl, rfl, rfl⟩

/-- `wait` ends at once while the clock stands still. -/
theorem wait_of_suspended (span : Span) (h : s.suspended = true) : s.wait span = (true, s) := by
  unfold Scheduler.wait waitUs
  rw [if_pos h]

/-- `handOver` is `Idle` while the clock stands still. -/
theorem handOver_idle (h : s.suspended = true) : Idle s (handOver s).2 := by
  unfold handOver
  rw [sync_of_suspended h]
  exact ⟨rfl, rfl, rfl, rfl, rfl, h.symm⟩

variable [EventSink K]

/-- `handle` is `Idle` while the clock stands still. -/
theorem handle_idle (source : InterruptSource) (h : s.suspended = true) :
    Idle s (handle source s).2 := by
  rw [handle_of_suspended source h]
  exact ⟨rfl, rfl, rfl, rfl, rfl, rfl⟩

/-- Every `Command` but the one that `takesBack` is `Idle` while the clock stands still, apart from
masking interrupts. -/
theorem exec_idle (h : s.suspended = true) {c : Command} (hc : c.takesBack = false) :
    ∃ hw, (hw = s.hw ∨ hw = IrqMask.blank s.hw) ∧ Idle { s with hw := hw } (s.exec c).2 := by
  -- What is not done in a masked section leaves the scheduler as it is.
  have hmasked : ∀ {α : Type} (act : Scheduler H K n → α × Scheduler H K n),
      Idle s.entered (act s.entered).2 →
        ∃ hw, (hw = s.hw ∨ hw = IrqMask.blank s.hw) ∧ Idle { s with hw := hw } (masked act s).2 :=
    fun _ hact => ⟨_, .inr rfl, .masked hact⟩
  have hsync : Idle s.entered s.entered.sync := by
    rw [sync_of_suspended (s := s.entered) h]
    exact .refl _
  cases c with
  | timeMs => exact hmasked (fun s => (s.sync.clock.timeMs, s.sync)) hsync
  | timeUs => exact hmasked (fun s => (s.sync.clock.timeUs, s.sync)) hsync
  | schedule request => exact hmasked _ (register_idle request h)
  | cancel ident value => exact hmasked _ (withdraw_idle ident value h)
  | rearm => exact hmasked (fun s => ((), s.rearm)) (rearm_idle (s := s.entered) h)
  | interrupt source => exact hmasked _ (handle_idle source h)
  | compareMatch channel =>
    show ∃ hw, (hw = s.hw ∨ hw = IrqMask.blank s.hw) ∧
      Idle { s with hw := hw } (s.compareMatch channel).2
    unfold Scheduler.compareMatch
    split
    · exact hmasked _ (handle_idle _ h)
    · exact ⟨_, .inl rfl, .refl s⟩
  | wait span =>
    show ∃ hw, (hw = s.hw ∨ hw = IrqMask.blank s.hw) ∧ Idle { s with hw := hw } (s.wait span).2
    rw [wait_of_suspended span h]
    exact ⟨_, .inl rfl, .refl s⟩
  | suspend => exact hmasked _ (handOver_idle h)
  | resume counter elapsedUs => cases hc

/-! ## Taking time tracking back -/

section Waking

omit [EventSink K]

/-- The counter as `readCounter` gives it when the channels are armed again, and the timer after
that. -/
def wakeReading (s : Scheduler H K n) : Nat × H := TimerHardware.readCounter s.entered.hw

/-- Time tracking has been taken back, with `counter` and `elapsedUs`, by the scheduler `s`, which
then is `s'`. -/
structure TakenBack (counter elapsedUs : Nat) (s s' : Scheduler H K n) : Prop where
  /-- The clock is going. -/
  active : s'.suspended = false
  /-- The last reading is that made to arm the channels. -/
  reading : s'.clock.reading = s.clock.width.reduce s.wakeReading.1
  /-- The time that was measured by other means has been credited, and the ticks from the counter
  given to that reading. -/
  timeUs : s'.clock.timeUs = sat64 (sat64 (s.clock.timeUs + elapsedUs) +
    s.clock.width.elapsed counter s.wakeReading.1 * usPerSecond / s.clock.tickHz)
  /-- The fallback channel has been armed at its distance from that reading, and before that the
  primary channel for the earliest event, if anything is pending. -/
  armed : ∃ hw,
    (s.pending = 0 ∧ hw = s.wakeReading.2 ∨
      0 < s.pending ∧ ∃ e, s'.pool.nextEvent? = some e ∧
        hw = TimerHardware.armChannel s.wakeReading.2 s.config.primaryChannel
          (s.clock.width.offset s'.clock.reading
            (s'.armDistance (e.timestamp - s'.clock.timeUs)))) ∧
    s'.hw = IrqMask.leave (IrqMask.enter s.hw).1
      (TimerHardware.armChannel hw s.config.fallbackChannel
        (s.clock.width.offset s'.clock.reading s.fallbackTicks))

/-- The scheduler that `resume` has reached when it is about to arm its channels. -/
def waking (counter elapsedUs : Nat) (s : Scheduler H K n) : Scheduler H K n :=
  ((s.entered.restart counter elapsedUs).alignDue.2).refresh.sync

variable (counter elapsedUs : Nat) (s : Scheduler H K n)

theorem waking_clock : (s.waking counter elapsedUs).clock =
    ((s.clock.resync counter).advanceUs elapsedUs).sync s.wakeReading.1 := rfl

theorem waking_hw : (s.waking counter elapsedUs).hw = s.wakeReading.2 := rfl

/-- `resume` leads to the scheduler `waking` and then arms both channels. -/
theorem resume_eq_waking : (s.resume counter elapsedUs).2 =
    { (s.waking counter elapsedUs).armPrimary with
      hw := IrqMask.leave (IrqMask.enter s.hw).1
        (s.waking counter elapsedUs).armPrimary.armFallback.hw } := rfl

/-- The scheduler `waking` has an event to arm for exactly if something was pending. -/
theorem waking_nextEvent?_eq_none :
    (s.waking counter elapsedUs).pool.nextEvent? = none ↔ s.pending = 0 := by
  have hcached : (s.waking counter elapsedUs).pool.Cached := Pool.cached_recompute _
  have hsize : (s.waking counter elapsedUs).pending = s.pending := Pool.size_map _ s.pool
  rw [← hsize, ← nextEventTime?_eq_none hcached]
  exact Option.map_eq_none_iff.symm

/-- `armPrimary` of the scheduler `waking` arms the channel exactly if something is pending. -/
theorem armPrimary_waking :
    s.pending = 0 ∧ (s.waking counter elapsedUs).armPrimary = s.waking counter elapsedUs ∨
      0 < s.pending ∧ ∃ e, (s.waking counter elapsedUs).pool.nextEvent? = some e ∧
        (s.waking counter elapsedUs).armPrimary =
          (s.waking counter elapsedUs).armAhead s.config.primaryChannel
            ((s.waking counter elapsedUs).armDistance
              (e.timestamp - (s.waking counter elapsedUs).clock.timeUs)) := by
  have hnone := waking_nextEvent?_eq_none counter elapsedUs s
  unfold armPrimary
  cases hnext : (s.waking counter elapsedUs).pool.nextEvent? with
  | none => exact .inl ⟨hnone.mp hnext, rfl⟩
  | some e =>
    have hsome : s.pending ≠ 0 := fun hzero => by
      rw [hnone.mpr hzero] at hnext
      cases hnext
    exact .inr ⟨Nat.pos_of_ne_zero hsome, e, rfl, rfl⟩

/-- `resume` credits the time that has passed to the clock, which then observes the counter. -/
theorem clock_resume : (s.resume counter elapsedUs).2.clock =
    ((s.clock.resync counter).advanceUs elapsedUs).sync s.wakeReading.1 := by
  rw [resume_eq_waking]
  exact (armPrimary_clock _).trans (s.waking_clock counter elapsedUs)

/-- `resume` credits the time that has passed and arms the channels, as `TakenBack` says. -/
theorem resume_takenBack : TakenBack counter elapsedUs s (s.resume counter elapsedUs).2 := by
  have hprimary := arms_sameBut.armPrimary (s.waking counter elapsedUs)
  have hclock := s.clock_resume counter elapsedUs
  constructor
  case active => exact hprimary.suspended
  case reading =>
    rw [hclock]
    rfl
  case timeUs => rw [hclock, Clock.timeUs_restarted]
  case armed =>
    rw [resume_eq_waking]
    refine ⟨(s.waking counter elapsedUs).armPrimary.hw, ?_, ?_⟩
    · rcases armPrimary_waking counter elapsedUs s with ⟨hpending, harm⟩ |
        ⟨hpending, e, hnext, harm⟩
      · rw [harm, waking_hw]
        exact .inl ⟨hpending, rfl⟩
      · rw [harm]
        exact .inr ⟨hpending, e, hnext, rfl⟩
    · -- The fallback channel is armed from the reading at which the primary one was.
      have hconfig : (s.waking counter elapsedUs).armPrimary.config = s.config := hprimary.config
      have hfallback : (s.waking counter elapsedUs).armPrimary.fallbackTicks = s.fallbackTicks :=
        hprimary.fallbackTicks
      have hwidth : (s.waking counter elapsedUs).armPrimary.clock.width = s.clock.width := by
        rw [armPrimary_clock, waking_clock]
        rfl
      rw [← hconfig, ← hfallback, ← hwidth]
      rfl

end Waking

/-! ## From one hand-over to the next -/

/-- What may come of the scheduler `start` from when it hands time tracking over until it takes it
back. -/
inductive Asleep (start : Scheduler H K n) : Scheduler H K n → Prop
  /-- Time tracking has just been handed over. -/
  | suspend : Asleep start start.suspend.2
  /-- The hardware changes by itself; above all, its counter moves. -/
  | move {s : Scheduler H K n} (hw : H) (h : Asleep start s) : Asleep start { s with hw := hw }
  /-- An operation is carried out that does not take time tracking back. -/
  | exec {s : Scheduler H K n} (c : Command) (hc : c.takesBack = false) (h : Asleep start s) :
    Asleep start (s.exec c).2

/-- `play` of steps that do not take time tracking back, after `suspend`, keeps the scheduler
`Asleep`. -/
theorem asleep_play (start : Scheduler SimTimer K n) {steps : List (Nat × Command)}
    (hsteps : ∀ step ∈ steps, step.2.takesBack = false) :
    Asleep start (start.suspend.2.play steps).2 := by
  -- What has been played so far is asleep, whatever comes next.
  suffices h : ∀ x : List Happening × Scheduler SimTimer K n, Asleep start x.2 →
      Asleep start (steps.foldl _ x).2 from h ([], start.suspend.2) .suspend
  induction steps with
  | nil => exact fun x hx => hx
  | cons step rest ih =>
    rw [List.forall_mem_cons] at hsteps
    exact fun x hx => ih hsteps.2 _ (.exec step.2 hsteps.1 (.move _ hx))

/-- The scheduler stands as `start` did when the snapshot `snap` was taken. -/
structure Frozen (snap : Snapshot) (start s : Scheduler H K n) : Prop where
  /-- The clock stands at the snapshot. -/
  snapshot : snap = ⟨s.clock.timeUs, s.clock.reading⟩
  /-- No part of it has changed since. -/
  clock : s.clock = start.suspend.2.clock
  /-- Nothing has been delivered. -/
  sink : s.sink = start.sink
  /-- No operation arms a channel or reads the counter: the timer is left alone, or masked and
  unmasked again. -/
  hw : ∀ c, c.takesBack = false →
    (s.exec c).2.hw = s.hw ∨ (s.exec c).2.hw = IrqMask.blank s.hw
  /-- The time read is that of the snapshot. -/
  timeUs : (s.exec .timeUs).1 = .time snap.timeUs
  /-- The time read in milliseconds is that of the snapshot. -/
  timeMs : (s.exec .timeMs).1 = .time start.suspend.2.clock.timeMs
  /-- Time tracking is handed over at the same moment again. -/
  suspend : (s.exec .suspend).1 = .snapshot snap
  /-- A wait ends. -/
  wait : ∀ span, (s.exec (.wait span)).1 = .waited true
  /-- An interrupt fires nothing. -/
  interrupt : ∀ source, (s.exec (.interrupt source)).1 = .fired #[]
  /-- An interrupt of a compare channel fires nothing. -/
  compareMatch : ∀ channel, (s.exec (.compareMatch channel)).1 = .fired #[]
  /-- A request that is granted puts an event into a free slot, due its period after the snapshot.
  -/
  schedule : ∀ request, (s.exec (.schedule request)).1 = .outcome (.ok ()) →
    ∃ slot e, s.pool.get? slot = none ∧
      Pool.Puts slot (some e) s.pool (s.exec (.schedule request)).2.pool ∧
      e.timestamp = sat64 (snap.timeUs + request.period.toUs) ∧
      e.toRegistration = request.registration snap.timeUs ∧ e.seq = s.pool.nextSeq
  /-- A cancellation frees the slots of the events asked for and no others. -/
  cancel : ∀ id value slot, (s.exec (.cancel id value)).2.pool.get? slot =
    (s.pool.get? slot).bind fun e => if e.isFor id value then none else some e
  /-- The clock goes on from the snapshot when time tracking is taken back. -/
  resume : ∀ counter elapsedUs, TakenBack counter elapsedUs s (s.exec (.resume counter elapsedUs)).2

omit [EventSink K] in
/-- `register` grants a request, while the clock stands still, for an event due its period after the
time at which it stands. -/
theorem register_of_suspended (h : s.suspended = true) {r : Request}
    (hok : (register r s).1 = .ok ()) :
    ∃ slot e, s.pool.get? slot = none ∧ Pool.Puts slot (some e) s.pool (register r s).2.pool ∧
      e.timestamp = sat64 (s.clock.timeUs + r.period.toUs) ∧
      e.toRegistration = r.registration s.clock.timeUs ∧ e.seq = s.pool.nextSeq := by
  rcases register_cases r s with ⟨-, -, hact⟩ | ⟨-, reason, -, hact⟩ | ⟨-, slot, p, hinsert, hact⟩
  · rw [hact] at hok
    cases hok
  · rw [hact] at hok
    cases hok
  · rw [sync_of_suspended h] at hinsert
    obtain ⟨-, hfree, -, hput⟩ := Pool.insert_eq_ok hinsert
    rw [hact, rearm_pool]
    exact ⟨slot, _, hfree, hput, rfl, rfl, rfl⟩

omit [EventSink K] in
/-- `withdraw` frees the slots of the events asked for and no others. -/
theorem get?_withdraw (id value : UInt16) (s : Scheduler H K n) (slot : Nat) :
    (withdraw id value s).2.pool.get? slot =
      (s.pool.get? slot).bind fun e => if e.isFor id value then none else some e := by
  rw [withdraw_eq]
  dsimp only
  split
  · rw [rearm_pool, Pool.get?_recompute]
    exact s.pool.get?_releaseAll_find id value slot
  · exact s.pool.get?_releaseAll_find id value slot

/-- A scheduler whose clock stands still at that of the snapshot is `Frozen`. -/
theorem frozen_of_suspended {start : Scheduler H K n} (h : s.suspended = true)
    (hclock : s.clock = start.suspend.2.clock) (hsink : s.sink = start.sink) :
    Frozen start.suspend.1 start s := by
  have hsync : s.entered.sync = s.entered := sync_of_suspended (s := s.entered) h
  have hsnap : start.suspend.1 = ⟨s.clock.timeUs, s.clock.reading⟩ := by
    rw [hclock]
    rfl
  have hinterrupt : ∀ source, (s.interrupt source).1 = #[] := fun source => by
    show (handle source s.entered).1 = #[]
    rw [handle_of_suspended (s := s.entered) source h]
  constructor
  case snapshot => exact hsnap
  case clock => exact hclock
  case sink => exact hsink
  case hw =>
    intro c hc
    obtain ⟨hw, hleft | hmasked, hidle⟩ := exec_idle h hc
    · exact .inl (hidle.hw.trans hleft)
    · exact .inr (hidle.hw.trans hmasked)
  case timeUs =>
    show Reply.time s.entered.sync.clock.timeUs = _
    rw [hsync, hsnap]
    rfl
  case timeMs =>
    show Reply.time s.entered.sync.clock.timeMs = _
    rw [hsync, ← hclock]
    rfl
  case suspend =>
    show Reply.snapshot ⟨s.entered.sync.clock.timeUs, s.entered.sync.clock.reading⟩ = _
    rw [hsync, hsnap]
    rfl
  case wait =>
    intro span
    show Reply.waited (s.wait span).1 = _
    rw [wait_of_suspended span h]
  case interrupt =>
    intro source
    show Reply.fired (s.interrupt source).1 = _
    rw [hinterrupt]
  case compareMatch =>
    intro channel
    show Reply.fired (s.compareMatch channel).1 = _
    unfold Scheduler.compareMatch
    split
    · rw [hinterrupt]
    · rfl
  case schedule =>
    intro request hok
    have hgranted : (register request s.entered).1 = .ok () := Reply.outcome.inj hok
    rw [hsnap]
    exact register_of_suspended (s := s.entered) h hgranted
  case cancel =>
    intro id value slot
    exact get?_withdraw id value s.entered slot
  case resume =>
    intro counter elapsedUs
    exact resume_takenBack counter elapsedUs s

/-- A scheduler that is `Asleep` is `Frozen`: its clock stands still, nothing is delivered and no
channel is armed, whatever is done and however the counter moves. -/
theorem Asleep.frozen {start : Scheduler H K n} (hasleep : Asleep start s) :
    Frozen start.suspend.1 start s := by
  -- The clock stands still, and what matters of the scheduler has not changed.
  have hinv : s.suspended = true ∧ s.clock = start.suspend.2.clock ∧ s.sink = start.sink := by
    induction hasleep with
    | suspend => exact ⟨rfl, rfl, start.entered.sync_same.sink⟩
    | move hw _ ih => exact ih
    | exec c hc _ ih =>
      obtain ⟨hsuspended, hclock, hsink⟩ := ih
      obtain ⟨hw, -, hidle⟩ := exec_idle hsuspended hc
      exact ⟨hidle.suspended.trans hsuspended, hidle.clock.trans hclock, hidle.sink.trans hsink⟩
  exact frozen_of_suspended hinv.1 hinv.2.1 hinv.2.2

/-- The scheduler `bench` with two events pending, 40 microseconds after the first reading. -/
def drowsy : Scheduler SimTimer Recorder 3 :=
  (bench.play [(0, .schedule ⟨.us 50, 8, 2, true, .empty⟩),
    (0, .schedule ⟨.us 100, 7, 1, false, .empty⟩), (40, .timeUs)]).2

/-- Steps for `drowsy` when it has handed time tracking over. The counter runs far past both events.
Interrupts come, an event is asked for and another cancelled, the time is read and waited for. -/
def nap : List (Nat × Command) :=
  [(500, .interrupt .primary), (70, .compareMatch 0), (0, .schedule ⟨.us 30, 9, 3, false, .empty⟩),
    (1000, .rearm), (0, .cancel 7 1), (3, .timeUs), (0, .wait (.ms 20)), (9, .suspend)]

/-- All through the `nap` of `drowsy` it is 40 microseconds past the first reading, and no channel
is armed. -/
theorem frozen_nap :
    Asleep drowsy (drowsy.suspend.2.play nap).2 ∧
      Frozen drowsy.suspend.1 drowsy (drowsy.suspend.2.play nap).2 ∧
      drowsy.suspend.1 = ⟨40, 40⟩ ∧ (drowsy.suspend.2.play nap).2.hw.counter = 1622 ∧
      (drowsy.suspend.2.play nap).2.hw.armCount = drowsy.hw.armCount ∧
      (drowsy.suspend.2.play nap).2.pool.events.map (·.timestamp) = [50, 70] ∧
      (drowsy.suspend.2.play nap).2.sink.notices = #[] := by
  have hasleep : Asleep drowsy (drowsy.suspend.2.play nap).2 := asleep_play drowsy (by decide)
  exact ⟨hasleep, hasleep.frozen, by decide +kernel, by decide +kernel, by decide +kernel,
    by decide +kernel, by decide +kernel⟩

end Scheduler

end SoftTimer
