import SoftTimer.Proofs.Bench.Timing
import SoftTimer.Proofs.Clock.Ticks

/-!
# The clock loses no tick

A clock that is read once per turn of its counter at least has seen every tick once
(`Clock.Shows.sync`). The fallback channel sees to that. A scheduler on the bench is attended to
(`Scheduler.Attended`) when no interrupt of that channel is lost, whatever becomes of the others,
and time tracking is not handed over. The main statement is `Attended.lossless`: the counter is
never more than half a turn ahead of the last reading, so the time that is read next is that of all
ticks there have been, and every wrap of the counter has been counted once.

The invariant has two parts. `Tracked` compares the clock with the counter, and says that the ticks
not seen yet are no more than the fallback distance. `Minded` adds that they are no more than the
ticks since the fallback channel was armed, and that it lies ahead. A match of that channel takes
the second part away, and the interrupt that follows brings it back.
-/

namespace SoftTimer

/-! ## The clock against the counter -/

/-- A counter that has moved on by less than a turn has made one turn more exactly if its reading,
by `reduce`, is below the one before. -/
theorem CounterWidth.turns_add (w : CounterWidth) (base : Nat) {more : Nat}
    (hlt : more < w.modulus) :
    (base + more) / w.modulus =
      if w.reduce (base + more) < w.reduce base then base / w.modulus + 1
      else base / w.modulus := by
  -- With the turn a number the division is linear.
  have hmodulus : w.modulus = 65536 ∨ w.modulus = 4294967296 := by
    cases w
    · exact .inl rfl
    · exact .inr rfl
  unfold reduce
  rcases hmodulus with h | h
  · rw [h] at hlt ⊢
    split <;> omega
  · rw [h] at hlt ⊢
    split <;> omega

namespace Clock

/-- The clock has seen the first `ticks` ticks of a timer, each of them once. -/
structure Shows (t : SimTimer) (ticks : Nat) (c : Clock) : Prop where
  /-- The clock has the width of the counter. -/
  width : c.width = t.width
  /-- The clock has the rate of the counter. -/
  tickHz : c.tickHz = max t.tickHz 1
  /-- The last reading is where the counter then stood. -/
  reading : c.reading = t.width.offset t.counter ticks
  /-- Every wrap has been counted. -/
  wraps : c.wraps = (t.counter + ticks) / t.width.modulus % 0x100000000
  /-- The time is that of all these ticks. -/
  timeUs : c.timeUs = sat64 (ticks * usPerSecond / max t.tickHz 1)
  /-- What is left over is what the microseconds leave of these ticks. -/
  subUs : c.subUs = ticks * usPerSecond % max t.tickHz 1

/-- A clock that has just been set to a counter `Shows` none of its ticks. -/
theorem shows_new (t : SimTimer) :
    ((new t.width t.tickHz).resync t.counter).Shows t 0 := by
  have hcounter := t.counter_lt
  constructor
  case width => rfl
  case tickHz => rfl
  case reading => rfl
  case wraps =>
    show 0 = (t.counter + 0) / t.width.modulus % 0x100000000
    rw [Nat.add_zero, Nat.div_eq_of_lt hcounter]
  case timeUs =>
    show 0 = sat64 (0 * usPerSecond / max t.tickHz 1)
    rw [Nat.zero_mul, Nat.zero_div]
    rfl
  case subUs =>
    show 0 = 0 * usPerSecond % max t.tickHz 1
    rw [Nat.zero_mul, Nat.zero_mod]

/-- A clock that observes the counter again, less than a turn further on, `Shows` the ticks in
between. -/
theorem Shows.sync {t : SimTimer} {seen total : Nat} {c : Clock} (h : c.Shows t seen)
    (hle : seen ≤ total) (hlt : total < seen + t.width.modulus) :
    (c.sync (t.width.offset t.counter total)).Shows t total := by
  obtain ⟨more, rfl⟩ := Nat.exists_eq_add_of_le hle
  have hhz : 0 < max t.tickHz 1 := by omega
  have hreduce : t.width.reduce (t.width.offset t.counter (seen + more)) =
      t.width.offset t.counter (seen + more) := CounterWidth.reduce_of_lt (t.width.offset_lt _ _)
  -- The distance from the last reading is the number of ticks in between.
  have helapsed : c.width.elapsed c.reading
      (c.width.reduce (t.width.offset t.counter (seen + more))) = more := by
    rw [h.width, hreduce, h.reading, ← CounterWidth.offset_offset]
    exact CounterWidth.elapsed_offset _ (by omega)
  -- All ticks are those that were worth whole microseconds, and the others with what was left.
  have hscaled : (seen + more) * usPerSecond = max t.tickHz 1 *
      (seen * usPerSecond / max t.tickHz 1) + (more * usPerSecond + c.subUs) := by
    have hdiv := Nat.div_add_mod (seen * usPerSecond) (max t.tickHz 1)
    have hsub := h.subUs
    rw [Nat.add_mul]
    omega
  constructor
  case width => exact h.width
  case tickHz => exact h.tickHz
  case reading =>
    rw [sync_reading, h.width, hreduce]
  case wraps =>
    have hturns := t.width.turns_add (t.counter + seen) (Nat.lt_of_add_lt_add_left hlt)
    rw [Nat.add_assoc] at hturns
    have hread : c.reading = t.width.reduce (t.counter + seen) := h.reading
    show (if c.width.reduce (t.width.offset t.counter (seen + more)) < c.reading then
      (c.wraps + 1) % 0x100000000 else c.wraps) = _
    rw [h.width, hreduce, hread, hturns, h.wraps]
    unfold CounterWidth.offset
    split
    · rw [Nat.mod_add_mod]
    · rfl
  case timeUs =>
    show sat64 (c.timeUs + (c.width.elapsed c.reading
      (c.width.reduce (t.width.offset t.counter (seen + more))) * usPerSecond + c.subUs) /
        c.tickHz) = _
    rw [helapsed, h.timeUs, h.tickHz, sat64_sat64_add, hscaled, Nat.mul_add_div hhz]
  case subUs =>
    show (c.width.elapsed c.reading
      (c.width.reduce (t.width.offset t.counter (seen + more))) * usPerSecond + c.subUs) %
        c.tickHz = _
    rw [helapsed, h.tickHz, hscaled, Nat.mul_add_mod]

end Clock

namespace Scheduler

variable {K : Type} {n : Nat} {hw : SimTimer} {total seen : Nat} {s s' : Scheduler SimTimer K n}

/-! ## The invariant -/

/-- Of the `total` ticks there have been the clock has seen the first `seen`, and has missed no more
than the fallback distance. -/
structure Tracked (hw : SimTimer) (total seen : Nat) (s : Scheduler SimTimer K n) : Prop where
  /-- The scheduler is set up as a constructor accepts it. -/
  fitted : Fitted s
  /-- Time tracking is not handed over. -/
  active : s.suspended = false
  /-- The counter is that of the timer at the start. -/
  width : s.hw.width = hw.width
  /-- The counter has moved on by the ticks there have been. -/
  counter : s.hw.counter = hw.width.offset hw.counter total
  /-- The clock has seen the first ones. -/
  shows : s.clock.Shows hw seen
  /-- The ticks seen are no more than there have been. -/
  seen_le : seen ≤ total
  /-- The clock has missed few. -/
  total_le : total ≤ seen + s.fallbackTicks

/-- The scheduler is `Tracked`, its fallback channel lies ahead, and its clock has missed no tick
before that was armed. -/
structure Minded (hw : SimTimer) (total seen : Nat) (s : Scheduler SimTimer K n) : Prop
    extends Tracked hw total seen s where
  /-- The pool remembers its earliest event. -/
  cached : s.pool.Cached
  /-- The fallback channel lies ahead. -/
  guarded : ∃ since ticks, Guarded since ticks s ∧ total ≤ seen + ticks

/-- A clock of a scheduler that is `Tracked` has seen all ticks when it observes the counter. -/
theorem Tracked.shows_sync (h : Tracked hw total seen s) :
    (s.clock.sync s.hw.counter).Shows hw total := by
  have hlt := h.fitted.fallbackTicks_lt
  have hle := h.total_le
  rw [h.width] at hlt
  rw [h.counter]
  exact h.shows.sync h.seen_le (by omega)

/-- A `Timing` leaves a scheduler `Tracked`, with all ticks seen if it syncs. -/
theorem Tracked.timing {syncs rearms : Bool} (h : Tracked hw total seen s)
    (htiming : Timing s s' syncs rearms) (hsetup : SameSetup s s') (hstands : StandsStill s s') :
    Tracked hw total (if syncs then total else seen) s' := by
  obtain ⟨-, hcounter⟩ := hstands h.fitted.still
  have hclock := htiming.clock h.fitted.legible h.active
  have hle := h.seen_le
  have hmissed := h.total_le
  constructor
  case fitted => exact h.fitted.of_sameSetup hsetup
  case active => exact htiming.suspended.trans h.active
  case width => exact hsetup.width.trans h.width
  case counter => exact hcounter.trans h.counter
  case shows =>
    rw [hclock]
    cases syncs with
    | true => exact h.shows_sync
    | false => exact h.shows
  case seen_le => split <;> omega
  case total_le =>
    rw [hsetup.fallbackTicks]
    split <;> omega

/-- A `Timing` that rearms leaves a scheduler `Minded` that was `Tracked`. -/
theorem Tracked.armed (h : Tracked hw total seen s) (htiming : Timing s s' true true)
    (hsetup : SameSetup s s') (hstands : StandsStill s s') (hcached : s'.pool.Cached) :
    Minded hw total total s' where
  toTracked := h.timing htiming hsetup hstands
  cached := hcached
  guarded := ⟨_, 0, htiming.guarded h.fitted h.active, Nat.le_refl _⟩

/-- A `Timing` leaves a scheduler `Minded`, with all ticks seen if it syncs. -/
theorem Minded.timing {syncs rearms : Bool} (h : Minded hw total seen s)
    (htiming : Timing s s' syncs rearms) (hsetup : SameSetup s s') (hstands : StandsStill s s')
    (hcached : s'.pool.Cached) : Minded hw total (if syncs then total else seen) s' := by
  have htracked := h.toTracked.timing htiming hsetup hstands
  refine ⟨htracked, hcached, ?_⟩
  cases rearms with
  | true =>
    -- The channels are armed only after the clock has been brought up to date.
    have hguarded := htiming.guarded h.fitted h.active
    cases htiming
    exact ⟨_, 0, hguarded, Nat.le_refl _⟩
  | false =>
    obtain ⟨since, ticks, hguarded, hle⟩ := h.guarded
    have hseen := h.seen_le
    refine ⟨since, ticks, htiming.kept h.fitted h.active hguarded, ?_⟩
    split <;> omega

/-- A step leaves a scheduler `Tracked` that was `Minded`, with its ticks added to those there have
been. -/
theorem Minded.stepped (h : Minded hw total seen s) (maxTicks : Nat) :
    Tracked hw (total + s.hw.stepTicks maxTicks) seen (s.stepped maxTicks) := by
  obtain ⟨since, ticks, hguarded, hle⟩ := h.guarded
  obtain ⟨hwidth, -, hcounter, -, -⟩ := s.hw.step_moves maxTicks
  have hmissed := hguarded.stepped_le maxTicks
  have hseen := h.seen_le
  constructor
  case fitted => exact h.fitted.of_sameSetup (s.stepped_sameSetup maxTicks)
  case active => exact h.active
  case width => exact hwidth.trans h.width
  case counter =>
    show (s.hw.step maxTicks).2.counter = _
    rw [hcounter, h.counter, h.width, CounterWidth.offset_offset]
  case shows => exact h.shows
  case seen_le => omega
  case total_le =>
    show total + s.hw.stepTicks maxTicks ≤ seen + s.fallbackTicks
    omega

/-! ## Attended schedulers -/

/-- A scheduler that has just been `MadeOn` a timer is `Minded`, with no ticks seen and none there
have been. -/
theorem Minded.of_madeOn (hmade : MadeOn hw s) (hstill : hw.autoAdvance = 0)
    (hfallback : s.config.fallbackChannel < 4) : Minded hw 0 0 s := by
  obtain ⟨unarmed, h, rfl⟩ := hmade.unarmed hstill hfallback
  have htracked : Tracked hw 0 0 unarmed :=
    { fitted := h.fitted
      active := h.active
      width := h.hw ▸ rfl
      counter := by
        rw [h.hw]
        exact (CounterWidth.reduce_of_lt hw.counter_lt).symm
      shows := h.clock ▸ Clock.shows_new hw
      seen_le := Nat.le_refl _
      total_le := Nat.zero_le _ }
  exact htracked.armed (rearmNow_timing h.fitted.legible) (frame_sameSetup.rearmNow unarmed)
    (frame_standsStill.rearmNow unarmed) unarmed.entered.rearm_cached

variable [EventSink K]

/-- What may come of a scheduler on a `SimTimer` that keeps the time itself and hears every
interrupt of its fallback channel. Of the `total` ticks there have been, `seen` had been when the
clock was last brought up to date. -/
inductive Attended (hw : SimTimer) : Nat → Nat → Scheduler SimTimer K n → Prop
  /-- The scheduler has just been made, on a counter that does not move by itself and a fallback
  channel that the timer has. -/
  | made {s : Scheduler SimTimer K n} (hmade : MadeOn hw s) (hstill : hw.autoAdvance = 0)
    (hfallback : s.config.fallbackChannel < 4) : Attended hw 0 0 s
  /-- An operation is carried out. -/
  | exec {total seen : Nat} {s : Scheduler SimTimer K n} (c : Command)
    (hkeeps : c.keepsTime = true) (h : Attended hw total seen s) :
    Attended hw total (if s.syncs c then total else seen) (s.exec c).2
  /-- The counter is stepped up to a match, which may be lost unless it is that of the fallback
  channel. -/
  | round {total seen : Nat} {s : Scheduler SimTimer K n} (maxTicks : Nat) (lost : Bool)
    (h : Attended hw total seen s) :
    Attended hw (total + s.hw.stepTicks maxTicks)
      (if (s.heard? maxTicks lost).isSome then total + s.hw.stepTicks maxTicks else seen)
      (s.round maxTicks lost).2

/-- A `Command` that leaves the scheduler to keep the time leaves it `Minded`. -/
theorem Minded.exec (h : Minded hw total seen s) {c : Command} (hkeeps : c.keepsTime = true) :
    Minded hw total (if s.syncs c then total else seen) (s.exec c).2 :=
  h.timing (exec_timing h.fitted.legible h.cached hkeeps) (frame_sameSetup.exec s c)
    (frame_standsStill.exec s c) (exec_cached h.cached c)

/-- A `round` leaves the scheduler `Minded`. -/
theorem Minded.round (h : Minded hw total seen s) (maxTicks : Nat) (lost : Bool) :
    Minded hw (total + s.hw.stepTicks maxTicks)
      (if (s.heard? maxTicks lost).isSome then total + s.hw.stepTicks maxTicks else seen)
      (s.round maxTicks lost).2 := by
  have hstepped := h.stepped maxTicks
  rw [round_eq]
  cases hheard : s.heard? maxTicks lost with
  | some source =>
    -- The interrupt arms the channels again, even if it is that of the fallback channel.
    have hcached : (s.stepped maxTicks).pool.Cached := h.cached
    exact hstepped.armed (interrupt_timing source _)
      (frame_sameSetup.exec _ (.interrupt source)) (frame_standsStill.exec _ (.interrupt source))
      (exec_cached hcached (.interrupt source))
  | none =>
    obtain ⟨since, ticks, hguarded, hle⟩ := h.guarded
    have hmore : total + s.hw.stepTicks maxTicks ≤ seen + (ticks + s.hw.stepTicks maxTicks) := by
      omega
    exact ⟨hstepped, h.cached, since, _, hguarded.stepped h.fitted hheard, hmore⟩

/-- A scheduler that is `Attended` to is `Minded`. -/
theorem Attended.minded (h : Attended hw total seen s) : Minded hw total seen s := by
  induction h with
  | made hmade hstill hfallback => exact .of_madeOn hmade hstill hfallback
  | exec c hkeeps _ ih => exact ih.exec hkeeps
  | round maxTicks lost _ ih => exact ih.round maxTicks lost

/-- A scheduler stays `Attended` to under `drive`, which passes every compare match on. -/
theorem Attended.drive (ticks : Nat) (h : Attended hw total seen s) :
    ∃ total' seen', Attended hw total' seen' (s.drive ticks).2 := by
  refine driveRounds_induct (P := fun s => ∃ total seen, Attended hw total seen s) ?_ _ _ s
    ⟨total, seen, h⟩
  rintro s maxTicks ⟨total, seen, h⟩
  exact ⟨_, _, h.round maxTicks false⟩

/-! ## What the clock shows -/

omit [EventSink K] in
/-- The clock has lost none of the `total` ticks there have been. -/
structure Lossless (hw : SimTimer) (total seen : Nat) (s : Scheduler SimTimer K n) : Prop where
  /-- The counter has moved on by the ticks there have been. -/
  counter : s.hw.counter = hw.width.offset hw.counter total
  /-- When the clock was last brought up to date it had seen every tick until then. -/
  shows : s.clock.Shows hw seen
  /-- The counter has moved on since, but by no more than half a turn. -/
  gap : seen ≤ total ∧ total - seen ≤ hw.width.mask / 2
  /-- The time that is read next is that of all ticks there have been, until the end of time. -/
  timeUs : s.timeUs.1 = sat64 (total * usPerSecond / max hw.tickHz 1)
  /-- The time is exact before the end of time. -/
  exact : s.timeUs.1 < max64 → s.timeUs.1 = total * usPerSecond / max hw.tickHz 1
  /-- Every wrap of the counter has been counted once when the time has been read. -/
  wraps : s.timeUs.2.clock.wraps = (hw.counter + total) / hw.width.modulus % 0x100000000

omit [EventSink K] in
/-- A clock of a scheduler that is `Tracked` loses no tick, as `Lossless` says. -/
theorem Lossless.of_tracked (h : Tracked hw total seen s) : Lossless hw total seen s := by
  have hclock : s.timeUs.2.clock = s.clock.sync s.hw.counter :=
    s.timeUs_timing.clock h.fitted.legible h.active
  have hshows : s.timeUs.2.clock.Shows hw total := hclock ▸ h.shows_sync
  have htime : s.timeUs.1 = sat64 (total * usPerSecond / max hw.tickHz 1) := hshows.timeUs
  have hmissed := h.total_le
  have hhalf := h.fitted.fallbackTicks_le
  rw [h.width] at hhalf
  constructor
  case counter => exact h.counter
  case shows => exact h.shows
  case gap => exact ⟨h.seen_le, by omega⟩
  case timeUs => exact htime
  case exact =>
    intro hbefore
    rw [htime] at hbefore ⊢
    unfold sat64 at hbefore ⊢
    omega
  case wraps => exact hshows.wraps

/-- However a scheduler is `Attended` to, and wherever a step takes its counter, its clock has lost
no tick, as `Lossless` says. -/
theorem Attended.lossless (h : Attended hw total seen s) :
    Lossless hw total seen s ∧
      ∀ maxTicks, Lossless hw (total + s.hw.stepTicks maxTicks) seen (s.stepped maxTicks) :=
  ⟨.of_tracked h.minded.toTracked, fun maxTicks => .of_tracked (h.minded.stepped maxTicks)⟩

/-- A timer of 16 bits that makes 32768 ticks in a second and stands shortly before a wrap. -/
def nearWrap : SimTimer := (SimTimer.new .bits16 32768).setCounter 65000

/-- A scheduler that has just been made on `nearWrap`. -/
def wound : Scheduler SimTimer Recorder 2 := withDefaults nearWrap .unbounded

/-- The scheduler `wound` when it was asked for an event every millisecond, and its primary channel
was then met once in vain. -/
def unheard : Scheduler SimTimer Recorder 2 := ((wound.exec everyMs).2.round 40000 true).2

/-- On `unheard` the fallback channel is met 32734 ticks later, on the other side of the wrap. -/
theorem lossless_unheard :
    Attended nearWrap 33 0 unheard ∧ Lossless nearWrap 33 0 unheard ∧
      Lossless nearWrap 32767 0 (unheard.stepped 40000) ∧
      (OnBench.step unheard.hw 40000).1 = some (0, 32734) ∧
      (unheard.stepped 40000).hw.counter = 32231 ∧
      (unheard.stepped 40000).timeUs.1 = 999969 ∧
      (unheard.stepped 40000).timeUs.2.clock.wraps = 1 := by
  have hmade : Attended nearWrap 0 0 wound := .made (.inr ⟨_, rfl⟩) rfl (by decide)
  have hasked : Attended nearWrap 0 0 (wound.exec everyMs).2 := hmade.exec everyMs rfl
  have hunheard : Attended nearWrap 33 0 unheard := hasked.round 40000 true
  obtain ⟨hnow, hstepped⟩ := hunheard.lossless
  exact ⟨hunheard, hnow, hstepped 40000, by decide +kernel, by decide +kernel, by decide +kernel,
    by decide +kernel⟩

end Scheduler

end SoftTimer
