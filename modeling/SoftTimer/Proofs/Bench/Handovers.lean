import SoftTimer.Proofs.Bench.Reads
import SoftTimer.Proofs.Clock.Course

/-!
# What hand-overs cost a scheduler

A scheduler on the bench is used in any way (`Scheduler.Course`). Whenever it has handed time
tracking over it is given it back with the counter of the snapshot and no time credited, however far
the counter has moved on by then. Every operation leaves the clock alone, observes the counter, or
sets the clock going again and then observes the counter to arm the channels. So the course of the
scheduler is one of its clock, but for the ticks that the clock has not seen yet (`Follows`).

The main statement is `course_sparing`. Each hand-over costs the clock of a scheduler less than a
microsecond, and none of them gains any time.
-/

namespace SoftTimer.Scheduler

variable {K : Type} {n : Nat} {made s s' : Scheduler SimTimer K n} {hw : SimTimer}
  {ticks handovers : Nat} {held : Option Snapshot}

/-- What comes of the scheduler `made` as its counter moves on by so many ticks, and time tracking
is handed over and straight back so many times. In between the snapshot is held. -/
inductive Course [EventSink K] (made : Scheduler SimTimer K n) :
    Nat → Nat → Option Snapshot → Scheduler SimTimer K n → Prop
  /-- The scheduler has just been made. -/
  | start : Course made 0 0 none made
  /-- The counter moves on, but by less than a turn from where the clock observed it last. What the
  channels are armed for may change as well. -/
  | move {ticks handovers : Nat} {held : Option Snapshot} {s : Scheduler SimTimer K n} {more : Nat}
    {hw : SimTimer} (hwidth : hw.width = s.hw.width) (hauto : hw.autoAdvance = s.hw.autoAdvance)
    (hcounter : hw.counter = s.hw.width.offset s.hw.counter more)
    (hless : s.lag + more < s.hw.width.modulus) (h : Course made ticks handovers held s) :
    Course made (ticks + more) handovers held { s with hw := hw }
  /-- An operation is carried out, whether time tracking is handed over or not. -/
  | exec {ticks handovers : Nat} {held : Option Snapshot} {s : Scheduler SimTimer K n} {c : Command}
    (hkeeps : c.keepsTime = true) (h : Course made ticks handovers held s) :
    Course made ticks handovers held (s.exec c).2
  /-- Time tracking is handed over. -/
  | handOver {ticks handovers : Nat} {s : Scheduler SimTimer K n}
    (h : Course made ticks handovers none s) :
    Course made ticks handovers (some s.suspend.1) s.suspend.2
  /-- Time tracking is taken back with the counter of the snapshot, and no time is credited. -/
  | takeBack {ticks handovers : Nat} {snap : Snapshot} {s : Scheduler SimTimer K n}
    (h : Course made ticks handovers (some snap) s) :
    Course made ticks (handovers + 1) none (s.resume snap.counter 0).2

/-- The scheduler when its counter has moved on by `ticks`. -/
def elapse (s : Scheduler SimTimer K n) (ticks : Nat) : Scheduler SimTimer K n :=
  { s with hw := s.hw.advance ticks }

/-- Hands time tracking over after `awake` ticks, and takes it back after `asleep` more. -/
def doze (s : Scheduler SimTimer K n) (awake asleep : Nat) : Scheduler SimTimer K n :=
  let (snap, s) := (s.elapse awake).suspend
  ((s.elapse asleep).resume snap.counter 0).2

section Course

variable [EventSink K]

/-- The counter may move on in a `Course`, as long as the clock misses no turn. -/
theorem Course.elapse (h : Course made ticks handovers held s) (more : Nat)
    (hless : s.lag + more < s.hw.width.modulus) :
    Course made (ticks + more) handovers held (s.elapse more) :=
  h.move rfl rfl rfl hless

/-- To `doze` is to hand time tracking over once in a `Course`. -/
theorem Course.doze (h : Course made ticks handovers none s) (awake asleep : Nat)
    (hawake : s.lag + awake < s.hw.width.modulus)
    (hasleep : (s.elapse awake).suspend.2.lag + asleep < s.hw.width.modulus) :
    Course made (ticks + awake + asleep) (handovers + 1) none (s.doze awake asleep) := by
  have hwidth : (s.elapse awake).suspend.2.hw.width = s.hw.width :=
    (frame_sameSetup.exec (s.elapse awake) .suspend).width
  exact ((h.elapse awake hawake).handOver.elapse asleep (hwidth ▸ hasleep)).takeBack

end Course

/-! ## The ticks that have not been seen -/

/-- The clock has followed a `Clock.Course`, but for the ticks it has not seen yet. -/
def Trails (hw : SimTimer) (ticks handovers : Nat) (s : Scheduler SimTimer K n) : Prop :=
  ∃ seen, Clock.Course hw.width hw.tickHz seen handovers s.clock ∧ seen + s.lag = ticks

/-- The `lag` of a clock that has just observed the counter is zero. -/
theorem lag_of_sync {c : Clock} (hlegible : Legible s) (hclock : s.clock = c.sync s.hw.counter) :
    s.lag = 0 := by
  refine lag_of_reading ?_
  rw [hclock, Clock.sync_reading]
  refine CounterWidth.reduce_of_lt (Nat.lt_of_lt_of_eq hlegible.counter_lt ?_)
  rw [hclock, Clock.sync_width]

namespace Trails

/-- A clock that starts from where the counter stands `Trails` a course without ticks. -/
theorem start (hlegible : Legible s)
    (hclock : s.clock = (Clock.new hw.width hw.tickHz).resync s.hw.counter) :
    Trails hw 0 0 s := by
  refine ⟨0, hclock ▸ .start _, ?_⟩
  rw [Nat.zero_add]
  refine lag_of_reading ?_
  rw [hclock]
  refine CounterWidth.reduce_of_lt (Nat.lt_of_lt_of_eq hlegible.counter_lt ?_)
  rw [hclock, Clock.resync_width]

/-- A clock that `Trails` a course has followed it to the end when it observes the counter. -/
theorem course_sync (h : Trails hw ticks handovers s) (hlegible : Legible s) :
    Clock.Course hw.width hw.tickHz ticks handovers (s.clock.sync s.hw.counter) := by
  obtain ⟨seen, hcourse, rfl⟩ := h
  obtain ⟨hwidth, -, -⟩ := hcourse.spent
  have hlag : s.lag = hw.width.elapsed s.clock.reading s.hw.counter := by
    unfold lag
    rw [← hlegible.width, hwidth]
  have hcounter : s.hw.counter < hw.width.modulus := hwidth ▸ hlegible.counter_lt
  rw [hlag]
  refine .sync (hw.width.elapsed_lt _ _) ?_ hcourse
  rw [CounterWidth.offset_elapsed (hwidth ▸ s.clock.reading_lt) hcounter]
  exact CounterWidth.reduce_of_lt hcounter

/-- A clock that `Trails` a course still does, whether it observes the counter or not. -/
theorem of_clock (h : Trails hw ticks handovers s) (hlegible : Legible s) (hlegible' : Legible s')
    (hcounter : s'.hw.counter = s.hw.counter) (syncs : Bool)
    (hclock : s'.clock = if syncs then s.clock.sync s.hw.counter else s.clock) :
    Trails hw ticks handovers s' := by
  cases syncs with
  | true =>
    have hsynced : s'.clock = s.clock.sync s.hw.counter := hclock
    exact ⟨ticks, hsynced ▸ h.course_sync hlegible,
      by rw [lag_of_sync hlegible' (hcounter ▸ hsynced), Nat.add_zero]⟩
  | false =>
    have hkept : s'.clock = s.clock := hclock
    obtain ⟨seen, hcourse, hlag⟩ := h
    have hwidth : s'.hw.width = s.hw.width := by rw [← hlegible'.width, ← hlegible.width, hkept]
    refine ⟨seen, hkept ▸ hcourse, ?_⟩
    unfold lag at hlag ⊢
    rw [hwidth, hkept, hcounter, hlag]

/-- A clock that `Trails` a course still does when time tracking is taken back with nothing elapsed,
after one handover more. -/
theorem takeBack (h : Trails hw ticks handovers s) : Trails hw ticks (handovers + 1)
    { s with clock := (s.clock.resync s.clock.reading).advanceUs 0 } := by
  obtain ⟨seen, hcourse, hlag⟩ := h
  refine ⟨seen, hcourse.takeBack, ?_⟩
  rw [Clock.resync_reading]
  exact hlag

end Trails

/-! ## Following the course -/

/-- The scheduler is `Steady`, its clock follows the course, and it stands still at the snapshot
while one is held. -/
structure Follows (hw : SimTimer) (ticks handovers : Nat) (held : Option Snapshot)
    (s : Scheduler SimTimer K n) : Prop extends Steady s where
  /-- The clock has not missed any ticks. -/
  trails : Trails hw ticks handovers s
  /-- The clock stands still while a snapshot is held. -/
  suspended : s.suspended = held.isSome
  /-- The snapshot has the last reading. -/
  counter : ∀ snap, held = some snap → snap.counter = s.clock.reading

/-- A scheduler that has just been `MadeOn` a timer has seen no tick, and there has been none. -/
theorem MadeOn.follows (hmade : MadeOn hw s) (hstill : hw.autoAdvance = 0) :
    Follows hw 0 0 none s := by
  have hsteady := hmade.steady hstill
  obtain ⟨sink, config, rfl⟩ := hmade.eq_begin
  -- The counter has been read, and nothing is armed yet.
  have hhw : (ofHardware hw sink config : Scheduler SimTimer K n).hw = hw := by
    show hw.advance hw.autoAdvance = hw
    rw [hstill, SimTimer.advance_zero]
  have hlegible : Legible (ofHardware hw sink config : Scheduler SimTimer K n) :=
    ⟨hhw.symm ▸ hstill, hhw.symm ▸ rfl⟩
  have htrails : Trails hw 0 0 (ofHardware hw sink config : Scheduler SimTimer K n) :=
    .start hlegible (hhw.symm ▸ rfl)
  have htiming := rearmNow_timing hlegible
  obtain ⟨-, hcounter⟩ := frame_standsStill.rearmNow _ hlegible.still
  exact
    { toSteady := hsteady
      trails := htrails.of_clock hlegible hsteady.toLegible hcounter true
        (htiming.clock hlegible rfl)
      suspended := htiming.suspended
      counter := fun _ hnone => by cases hnone }

/-- A scheduler that `Follows` a course still does when its counter moves on, with more ticks. -/
theorem Follows.move (h : Follows hw ticks handovers held s) {hw' : SimTimer} {more : Nat}
    (hwidth : hw'.width = s.hw.width) (hauto : hw'.autoAdvance = s.hw.autoAdvance)
    (hcounter : hw'.counter = s.hw.width.offset s.hw.counter more)
    (hless : s.lag + more < s.hw.width.modulus) :
    Follows hw (ticks + more) handovers held { s with hw := hw' } where
  still := hauto.trans h.still
  width := h.width.trans hwidth.symm
  cached := h.cached
  trails := by
    obtain ⟨seen, hcourse, hlag⟩ := h.trails
    refine ⟨seen, hcourse, ?_⟩
    rw [lag_moved hwidth hcounter hless]
    omega
  suspended := h.suspended
  counter := h.counter

variable [EventSink K]

/-- A scheduler `Follows` a course through a `Command` if the clock goes on from where it had
followed so far, whether it observes the counter then or not. -/
theorem Follows.of_exec (h : Steady s) (c : Command) (base : Clock)
    (hwidth : base.width = s.clock.width)
    (htrails : Trails hw ticks handovers { s with clock := base }) (syncs : Bool)
    (hclock : (s.exec c).2.clock = if syncs then base.sync s.hw.counter else base)
    (hsuspended : (s.exec c).2.suspended = held.isSome)
    (hsnapshot : ∀ snap, held = some snap → snap.counter = (s.exec c).2.clock.reading) :
    Follows hw ticks handovers held (s.exec c).2 := by
  have hsteady : Steady (s.exec c).2 := h.take (.exec c)
  obtain ⟨-, hcounter⟩ := frame_standsStill.exec s c h.still
  exact
    { toSteady := hsteady
      trails := htrails.of_clock ⟨h.still, hwidth.trans h.width⟩ hsteady.toLegible hcounter syncs
        hclock
      suspended := hsuspended
      counter := hsnapshot }

/-- A scheduler `Follows` a course through a `Command` that neither hands time tracking over nor
takes it back, whether the clock is going or not. -/
theorem Follows.exec (h : Follows hw ticks handovers held s) {c : Command}
    (hkeeps : c.keepsTime = true) : Follows hw ticks handovers held (s.exec c).2 := by
  have hsuspended := h.suspended
  cases held with
  | none =>
    have htiming := exec_timing h.toLegible h.cached hkeeps
    exact .of_exec h.toSteady c s.clock rfl h.trails (s.syncs c)
      (htiming.clock h.toLegible hsuspended) (htiming.suspended.trans hsuspended)
      (fun _ hnone => by cases hnone)
  | some snap =>
    have hkept : c.takesBack = false := by cases c <;> first | rfl | cases hkeeps
    obtain ⟨hw', -, hidle⟩ := exec_idle hsuspended hkept
    have hclock : (s.exec c).2.clock = s.clock := hidle.clock
    exact .of_exec h.toSteady c s.clock rfl h.trails false hclock
      (hidle.suspended.trans hsuspended) (fun snap' hsnap => hclock ▸ h.counter snap' hsnap)

/-- A scheduler `Follows` a course through `suspend`: the clock observes the counter, and stands
still there. -/
theorem Follows.handOver (h : Follows hw ticks handovers none s) :
    Follows hw ticks handovers (some s.suspend.1) s.suspend.2 := by
  have hclock : s.suspend.2.clock = s.clock.sync s.hw.counter :=
    s.timeUs_timing.clock h.toLegible h.suspended
  exact .of_exec h.toSteady .suspend s.clock rfl h.trails true hclock rfl
    (fun _ hsnap => by cases hsnap; rfl)

/-- A scheduler `Follows` a course through `resume`: the clock goes on from the snapshot, and then
observes the counter, so that it sees the ticks that there were meanwhile. -/
theorem Follows.takeBack {snap : Snapshot} (h : Follows hw ticks handovers (some snap) s) :
    Follows hw ticks (handovers + 1) none (s.resume snap.counter 0).2 := by
  have hreading : s.wakeReading.1 = s.hw.counter := (SimTimer.SameDial.enter s.hw).counter
  have hclock : (s.resume snap.counter 0).2.clock =
      ((s.clock.resync s.clock.reading).advanceUs 0).sync s.hw.counter := by
    rw [clock_resume, hreading, h.counter snap rfl]
  exact .of_exec h.toSteady (.resume snap.counter 0)
    ((s.clock.resync s.clock.reading).advanceUs 0) rfl h.trails.takeBack true hclock
    (s.resume_takenBack snap.counter 0).active (fun _ hnone => by cases hnone)

/-- A scheduler `Follows` the whole of its `Course`. -/
theorem Course.follows (hmade : MadeOn hw made) (hstill : hw.autoAdvance = 0)
    (h : Course made ticks handovers held s) : Follows hw ticks handovers held s := by
  induction h with
  | start => exact hmade.follows hstill
  | move hwidth hauto hcounter hless _ ih => exact ih.move hwidth hauto hcounter hless
  | exec hkeeps _ ih => exact ih.exec hkeeps
  | handOver _ ih => exact ih.handOver
  | takeBack _ ih => exact ih.takeBack

/-- However time tracking is handed over and straight back, the clock loses less than a microsecond
each time and gains nothing, as `Sparing` says. -/
theorem course_sparing :
    (∀ {w : CounterWidth} {hz ticks handovers : Nat} {c : Clock},
      Clock.Course w hz ticks handovers c → c.Sparing (max hz 1) ticks handovers) ∧
    ∀ {hw : SimTimer} {made s : Scheduler SimTimer K n} {ticks handovers : Nat},
      MadeOn hw made → hw.autoAdvance = 0 → Course made ticks handovers none s →
        s.timeUs.2.clock.Sparing (max hw.tickHz 1) ticks handovers ∧
          s.timeUs.1 = s.timeUs.2.clock.timeUs ∧ s.timeMs.1 = s.timeUs.2.clock.timeMs := by
  refine ⟨fun hcourse => hcourse.sparing, ?_⟩
  intro hw made s ticks handovers hmade hstill hcourse
  have hfollows := hcourse.follows hmade hstill
  have hclock : s.timeUs.2.clock = s.clock.sync s.hw.counter :=
    s.timeUs_timing.clock hfollows.toLegible hfollows.suspended
  have hseen : Clock.Course hw.width hw.tickHz ticks handovers s.timeUs.2.clock :=
    hclock ▸ hfollows.trails.course_sync hfollows.toLegible
  exact ⟨hseen.sparing, rfl, rfl⟩

/-- A `Clock` that has seen two ticks of a third of a second each, with a counter that has wrapped.
-/
def skipped : Clock := ((Clock.new .bits16 3).resync 0xffff).sync 0x10001

/-- The clock `skipped` after time tracking was handed over and taken back, and two more ticks were
seen. -/
def resumed : Clock := ((skipped.resync skipped.reading).advanceUs 0).sync 3

/-- The scheduler `quartz` after it has handed time tracking over three times, each time with nearly
a microsecond left over. The counter wraps meanwhile. -/
def drowsing : Scheduler SimTimer Recorder 2 :=
  (((quartz.doze 199 65000).doze 223 1).doze 198 0).elapse 199

/-- No clock could lose more: the ticks of `resumed` are worth 1333333 microseconds, and those of
`drowsing` 2008666. -/
theorem course_sparing_drowsing :
    Clock.Course .bits16 3 4 1 resumed ∧ resumed.Sparing 3 4 1 ∧ resumed.timeUs = 1333332 ∧
      MadeOn (.new .bits16 32768) quartz ∧ Course quartz 65820 3 none drowsing ∧
      drowsing.timeUs.2.clock.Sparing 32768 65820 3 ∧ drowsing.timeUs.1 = 2008663 ∧
      drowsing.timeMs.1 = 2008 := by
  have hclock : Clock.Course .bits16 3 4 1 resumed :=
    have hless : 2 < CounterWidth.bits16.modulus := by decide
    .sync hless (by decide) (.takeBack (.sync hless (by decide) (.start 0xffff)))
  have hmade : MadeOn (.new .bits16 32768) quartz := .inr ⟨_, rfl⟩
  have hfirst : Course quartz 65199 1 none (quartz.doze 199 65000) :=
    Course.start.doze 199 65000 (by decide +kernel) (by decide +kernel)
  have hsecond : Course quartz 65423 2 none ((quartz.doze 199 65000).doze 223 1) :=
    hfirst.doze 223 1 (by decide +kernel) (by decide +kernel)
  have hthird : Course quartz 65621 3 none (((quartz.doze 199 65000).doze 223 1).doze 198 0) :=
    hsecond.doze 198 0 (by decide +kernel) (by decide +kernel)
  have hcourse : Course quartz 65820 3 none drowsing :=
    hthird.elapse 199 (by decide +kernel)
  obtain ⟨hclocks, hschedulers⟩ := course_sparing (K := Recorder) (n := 2)
  exact ⟨hclock, hclocks hclock, by decide, hmade, hcourse, (hschedulers hmade rfl hcourse).1,
    by decide +kernel, by decide +kernel⟩

end SoftTimer.Scheduler
