import SoftTimer.Proofs.Bench.Ahead

/-!
# Reading the time is not seen

A run on the bench is a list of steps, each of which carries out an operation or moves the counter
on. The time may be read any number of times before a step (`Scheduler.trace`). The main statement
is `MadeOn.reads_unseen`: nothing that comes of the steps tells whether and how often the time was
read, except for the count of masked sections, and for the clock until it is brought up to date. In
the run without the reads the clock must not miss a turn of its counter, and time tracking must be
taken back only after it has been handed over (`paced`).
-/

namespace SoftTimer

/-- A step of a run on a simulated timer: a `Command`, or a movement of the counter. -/
inductive BenchStep where
  /-- An operation is carried out. -/
  | exec (c : Command)
  /-- The counter moves on. -/
  | advance (ticks : Nat)
  /-- The counter moves on to the nearest armed channel, if that is met within so many ticks. -/
  | step (maxTicks : Nat)

/-- What comes of a `BenchStep`. -/
inductive BenchAnswer where
  /-- The operation answers. -/
  | reply (r : Reply)
  /-- The counter has moved on. -/
  | moved
  /-- The counter has met a channel after so many ticks, or none. -/
  | met (found : Option (Nat × Nat))

/-- A way to read the time: `timeUs` or `timeMs`. -/
inductive TimeRead where
  /-- In microseconds. -/
  | us
  /-- In milliseconds. -/
  | ms

namespace Scheduler

variable {K : Type} {n : Nat} {s s' : Scheduler SimTimer K n}

/-- The scheduler after `timeUs` or `timeMs`. -/
def read (s : Scheduler SimTimer K n) : TimeRead → Scheduler SimTimer K n
  | .us => s.timeUs.2
  | .ms => s.timeMs.2

variable [EventSink K]

/-- Takes a `BenchStep`. Gives what comes of it and the scheduler after it. -/
def take (s : Scheduler SimTimer K n) : BenchStep → BenchAnswer × Scheduler SimTimer K n
  | .exec c => (s.exec c).map .reply id
  | .advance ticks => (.moved, { s with hw := s.hw.advance ticks })
  | .step maxTicks => (.met (s.hw.step maxTicks).1, { s with hw := (s.hw.step maxTicks).2 })

/-- A `BenchStep` that was taken, with the scheduler before and after it. -/
structure BenchRecord (K : Type) (n : Nat) where
  /-- The scheduler before the step. -/
  before : Scheduler SimTimer K n
  /-- What was done. -/
  step : BenchStep
  /-- What came of it. -/
  answer : BenchAnswer
  /-- The scheduler after the step. -/
  after : Scheduler SimTimer K n

/-- Takes each `BenchStep` after reading the time as often as is said beside it. Records the steps.
-/
def trace : List (List TimeRead × BenchStep) → Scheduler SimTimer K n → List (BenchRecord K n)
  | [], _ => []
  | (reads, step) :: rest, s =>
    let before := reads.foldl read s
    ⟨before, step, (before.take step).1, (before.take step).2⟩ :: trace rest (before.take step).2

/-- The same steps as in `plan`, without any reads before them. -/
def unread (plan : List (List TimeRead × BenchStep)) : List (List TimeRead × BenchStep) :=
  plan.map fun x => ([], x.2)

omit [EventSink K] in
/-- Whether the clock can miss no turn of its counter in the step: the counter moves by so little
that, with the `lag` before, it stays within a turn of the last reading, unless the clock stands
still. Time tracking is taken back only if it was handed over. -/
def paced (s : Scheduler SimTimer K n) : BenchStep → Bool
  | .exec c => !c.takesBack || s.suspended
  | .advance ticks => s.suspended || s.lag + ticks < s.hw.width.modulus
  | .step maxTicks => s.suspended || s.lag + s.hw.stepTicks maxTicks < s.hw.width.modulus

/-- A step `r'` with reads thrown in before is like the step `r` without. -/
structure Alike (r r' : BenchRecord K n) : Prop where
  /-- The same step was taken. -/
  step : r'.step = r.step
  /-- The same has come of the step. -/
  answer : r'.answer = r.answer
  /-- What is pending, delivered and counted is the same, and so is the timer with its channels and
  their count, all but the count of masked sections. -/
  after : r'.after = { r.after with
    hw := { r.after.hw with maskCount := r'.after.hw.maskCount }
    clock := r'.after.clock }
  /-- The clocks are the same in every field once the step has brought them up to date. -/
  synced : ∀ c, r.step = .exec c → r.before.syncs c = true → r'.after.clock = r.after.clock
  /-- Both clocks would be the same if they were brought up to date after the step. -/
  sync : r'.after.sync.clock = r.after.sync.clock

/-! ## The invariant -/

/-- The scheduler is `Legible`, and its pool is `Cached`. -/
structure Steady (s : Scheduler SimTimer K n) : Prop extends Legible s where
  /-- The remembered slot is right. -/
  cached : s.pool.Cached

/-- A scheduler stays `Steady` under every `BenchStep`. -/
theorem Steady.take (h : Steady s) (step : BenchStep) : Steady (s.take step).2 := by
  cases step with
  | exec c =>
    exact ⟨h.toLegible.of_sameSetup (frame_sameSetup.exec s c), exec_cached h.cached c⟩
  | advance ticks => exact ⟨⟨h.still, h.width⟩, h.cached⟩
  | step maxTicks =>
    obtain ⟨hwidth, hauto, -⟩ := s.hw.step_moves maxTicks
    exact ⟨⟨hauto.trans h.still, h.width.trans hwidth.symm⟩, h.cached⟩

omit [EventSink K] in
/-- A scheduler that is `MadeOn` a counter that stands still is `Steady`. -/
theorem MadeOn.steady {hw : SimTimer} (hmade : MadeOn hw s) (hstill : hw.autoAdvance = 0) :
    Steady s := by
  obtain ⟨sink, config, rfl⟩ := hmade.eq_begin
  have hunarmed : Legible (ofHardware hw sink config : Scheduler SimTimer K n) := ⟨hstill, rfl⟩
  exact ⟨hunarmed.of_sameSetup (frame_sameSetup.rearmNow _),
    (ofHardware hw sink config).entered.rearm_cached⟩

omit [EventSink K] in
/-- Any number of reads of the one leave two schedulers `Abreast`. -/
theorem Abreast.reads (h : Legible s) (habreast : Abreast s s') (reads : List TimeRead) :
    Abreast s (reads.foldl Scheduler.read s') := by
  induction reads generalizing s' with
  | nil => exact habreast
  | cons first rest ih =>
    refine ih ?_
    cases first with
    | us => exact habreast.read h (·.timeUs)
    | ms => exact habreast.read h (·.timeMs)

/-- A step that is `paced` answers the same on both sides, and leaves two schedulers `Abreast`. -/
theorem Abreast.take (h : Steady s) (habreast : Abreast s s') {step : BenchStep}
    (hpaced : s.paced step = true) :
    (s'.take step).1 = (s.take step).1 ∧ Abreast (s.take step).2 (s'.take step).2 ∧
      ∀ c, step = .exec c → s.syncs c = true → (s'.take step).2.clock = (s.take step).2.clock := by
  cases step with
  | exec c =>
    have hc : c.takesBack = true → s.suspended = true := fun htakes => by
      simpa [paced, htakes] using hpaced
    obtain ⟨hreply, hafter, hclock⟩ := habreast.exec h.toLegible h.cached hc
    refine ⟨congrArg BenchAnswer.reply hreply, hafter, fun c' hc' => ?_⟩
    cases hc'
    exact hclock
  | advance ticks =>
    have hmove := habreast.move (s.hw.advance ticks) rfl rfl
      (by simpa [paced] using hpaced)
    obtain ⟨seen, count, -, -, rfl⟩ := habreast
    exact ⟨rfl, hmove count, fun _ hc => by cases hc⟩
  | step maxTicks =>
    obtain ⟨hwidth, -, hcounter, -⟩ := s.hw.step_moves maxTicks
    have hmove := habreast.move (s.hw.step maxTicks).2 hwidth hcounter
      (by simpa [paced] using hpaced)
    obtain ⟨seen, count, -, -, rfl⟩ := habreast
    -- What is armed does not depend on the count.
    have hstep := s.hw.step_remask count maxTicks
    have hfound : ((s.hw.remask count).step maxTicks).1 = (s.hw.step maxTicks).1 := by rw [hstep]
    have htimer : ((s.hw.remask count).step maxTicks).2 = (s.hw.step maxTicks).2.remask count := by
      rw [hstep]
    refine ⟨congrArg BenchAnswer.met hfound, ?_, fun _ hc => by cases hc⟩
    show Abreast _ { (s.ahead seen).remask count with
      hw := ((s.hw.remask count).step maxTicks).2 }
    rw [htimer]
    exact hmove count

omit [EventSink K] in
/-- Schedulers that are `Abreast` are the same but for clock and count. -/
theorem Abreast.eq (habreast : Abreast s s') :
    s' = { s with hw := { s.hw with maskCount := s'.hw.maskCount }, clock := s'.clock } := by
  obtain ⟨seen, count, -, -, rfl⟩ := habreast
  rfl

/-- Reads that are thrown in before the steps of a `paced` run are not seen in what comes of the
steps, from schedulers that are `Abreast`. -/
theorem Abreast.traces (h : Steady s) (habreast : Abreast s s')
    {plan : List (List TimeRead × BenchStep)}
    (hpaced : ∀ r ∈ s.trace (unread plan), r.before.paced r.step = true) :
    List.Forall₂ Alike (s.trace (unread plan)) (s'.trace plan) := by
  induction plan generalizing s s' with
  | nil => exact .nil
  | cons x rest ih =>
    obtain ⟨reads, step⟩ := x
    have htrace : s.trace (unread ((reads, step) :: rest)) =
        ⟨s, step, (s.take step).1, (s.take step).2⟩ :: (s.take step).2.trace (unread rest) := rfl
    rw [htrace, List.forall_mem_cons] at hpaced
    obtain ⟨hfirst, hrest⟩ := hpaced
    obtain ⟨hanswer, hafter, hsynced⟩ := (habreast.reads h.toLegible reads).take h hfirst
    rw [htrace]
    exact .cons ⟨rfl, hanswer, hafter.eq, hsynced, hafter.sync_clock (h.take step).toLegible⟩
      (ih (h.take step) hafter hrest)

/-- From a scheduler that has just been `MadeOn` a counter that stands still, reading the time
before the steps of a `paced` run is not seen in what comes of the steps. -/
theorem MadeOn.reads_unseen {hw : SimTimer} (hmade : MadeOn hw s) (hstill : hw.autoAdvance = 0)
    {plan : List (List TimeRead × BenchStep)}
    (hpaced : ∀ r ∈ s.trace (unread plan), r.before.paced r.step = true) :
    List.Forall₂ Alike (s.trace (unread plan)) (s.trace plan) :=
  have habreast : Abreast s s := abreast_remask s s.hw.maskCount
  habreast.traces (hmade.steady hstill) hpaced

/-- A plan for `quartz`. An event repeats every millisecond on a counter of 16 bits. It fires once,
then the counter wraps before anything but the reads looks at it. Nothing is found to cancel
meanwhile. The counter goes on as time tracking is handed over and taken back. -/
def restless : List (List TimeRead × BenchStep) :=
  [([.us], .exec everyMs), ([.us, .ms], .advance 10), ([.us], .advance 20), ([.ms], .step 100),
    ([], .exec (.compareMatch 1)), ([.us], .advance 30000), ([.us], .exec (.cancel 9 9)),
    ([.ms, .us], .advance 35510), ([.us], .exec .suspend), ([.us], .advance 100000),
    ([.us], .exec (.resume 3 500)), ([.us, .us], .exec (.interrupt .fallback))]

/-- In `restless` the one clock has seen most of the ticks before the wrap and the other none of
them. Both have seen all of them when time tracking is handed over. -/
theorem reads_unseen_restless :
    MadeOn (.new .bits16 32768) quartz ∧ (SimTimer.new .bits16 32768).autoAdvance = 0 ∧
      (∀ r ∈ quartz.trace (unread restless), r.before.paced r.step = true) ∧
      List.Forall₂ Alike (quartz.trace (unread restless)) (quartz.trace restless) ∧
      (quartz.trace (unread restless)).map (fun r => (r.after.clock.timeUs, r.after.clock.wraps)) =
        [(0, 0), (0, 0), (0, 0), (0, 0), (1007, 0), (1007, 0), (1007, 0), (1007, 0), (2000213, 1),
          (2000213, 1), (3052592, 1), (3052592, 1)] ∧
      (quartz.trace restless).map (fun r => (r.after.clock.timeUs, r.after.clock.wraps)) =
        [(0, 0), (0, 0), (305, 0), (915, 0), (1007, 0), (1007, 0), (916534, 0), (916534, 0),
          (2000213, 1), (2000213, 1), (3052592, 1), (3052592, 1)] := by
  have hmade : MadeOn (.new .bits16 32768) quartz := .inr ⟨_, rfl⟩
  have hpaced : ∀ r ∈ quartz.trace (unread restless), r.before.paced r.step = true := by
    decide +kernel
  exact ⟨hmade, rfl, hpaced, hmade.reads_unseen rfl hpaced, by decide +kernel, by decide +kernel⟩

end Scheduler

end SoftTimer
