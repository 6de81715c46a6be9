import Mathlib.Logic.Function.Iterate
import SoftTimer.Proofs.Bench.Setup
import SoftTimer.Proofs.Bench.Sweeps
import SoftTimer.Proofs.System.Forwarding

/-!
# A wait ends, and changes nothing else

A wait reads the time until enough of it has passed. So it comes to reading the time some number of
times (`Scheduler.afterReads`), and the wait ends with the first reading that is late enough, if one
is among those that it may take (`pollUntil_reaches`).

On a simulated timer that moves on by itself at every reading there is one (`late_afterReads`). The
clock may well stand still from one reading to the next, because the ticks in between are not worth
a microsecond; but what they are worth is carried on, so all of them together count
(`Clock.iterate_tick`). The main statement is `Scheduler.waits`.
-/

namespace SoftTimer

/-! ## A clock that is read again and again -/

namespace Clock

/-- A clock that observes the counter by `tick` every few ticks shows what all these ticks are
worth. -/
theorem iterate_tick (c : Clock) {ticks : Nat} (h : ticks < c.width.modulus) (times : Nat) :
    ((tick · ticks)^[times] c).timeUs = (c.advanceTicks (times * ticks)).timeUs ∧
      ((tick · ticks)^[times] c).subUs = (c.advanceTicks (times * ticks)).subUs ∧
      ((tick · ticks)^[times] c).tickHz = c.tickHz ∧
      ((tick · ticks)^[times] c).width = c.width := by
  induction times with
  | zero =>
    rw [Nat.zero_mul, c.advanceTicks_zero]
    exact ⟨rfl, rfl, rfl, rfl⟩
  | succ times ih =>
    rw [Function.iterate_succ_apply', Nat.succ_mul, ← c.advanceTicks_advanceTicks]
    -- Crediting ticks looks at the time and at what was left over, which are the same in both.
    generalize (tick · ticks)^[times] c = c' at ih ⊢
    obtain ⟨htime, hsub, hrate, hwidth⟩ := ih
    have htime' : (c'.moved ticks).timeUs = (c.advanceTicks (times * ticks)).timeUs := htime
    have hsub' : (c'.moved ticks).subUs = (c.advanceTicks (times * ticks)).subUs := hsub
    have hrate' : (c'.moved ticks).tickHz = (c.advanceTicks (times * ticks)).tickHz := by
      rw [tickHz_advanceTicks]
      exact hrate
    rw [c'.tick_eq (hwidth ▸ h)]
    refine ⟨?_, ?_, hrate, hwidth⟩
    · rw [timeUs_advanceTicks, htime', hsub', hrate', ← timeUs_advanceTicks]
    · rw [subUs_advanceTicks, hsub', hrate', ← subUs_advanceTicks]

/-- A clock that has ticked at least `ticksFor us` times, at least one tick each, shows a time `us`
microseconds later or more. -/
theorem le_timeUs_iterate_tick (c : Clock) {ticks times us : Nat} (hpos : 0 < ticks)
    (hlt : ticks < c.width.modulus) (hfits : c.timeUs + us ≤ max64)
    (htimes : c.ticksFor us ≤ times) :
    c.timeUs + us ≤ ((tick · ticks)^[times] c).timeUs := by
  have hall : c.ticksFor us ≤ times * ticks :=
    Nat.le_trans htimes (Nat.le_mul_of_pos_right times hpos)
  have hworth : us ≤ (times * ticks * usPerSecond + c.subUs) / c.tickHz :=
    Nat.le_trans ((c.ticksFor_le_iff us _).mp hall) (Nat.div_le_div_right (Nat.le_add_right _ _))
  rw [(c.iterate_tick hlt times).1]
  exact Nat.le_min.mpr ⟨Nat.add_le_add_left hworth _, hfits⟩

end Clock

namespace SimTimer

/-- What the counter shows when it has been read `reads` times. -/
def readingAt (t : SimTimer) (reads : Nat) : Nat :=
  t.width.offset t.counter (reads * t.autoAdvance)

/-- A reading in a masked section moves the counter of a `SimTimer` on, and is counted. -/
theorem within_readCounter (t : SimTimer) :
    ∃ count, (IrqMask.within TimerHardware.readCounter t).2 =
      (t.advance t.autoAdvance).remask count := by
  obtain ⟨width, tickHz, counter, autoAdvance, channels, armCount, enabled, maskCount, hlt⟩ := t
  cases enabled with
  | true => exact ⟨maskCount + 1, rfl⟩
  | false => exact ⟨maskCount, rfl⟩

/-- From one `readingAt` to the next the counter moves on by less than a turn, as far as can be
seen. -/
theorem offset_readingAt (t : SimTimer) (reads : Nat) :
    t.width.offset (t.readingAt reads) (t.autoAdvance % t.width.modulus) =
      t.readingAt (reads + 1) := by
  unfold readingAt
  rw [CounterWidth.offset_offset, Nat.succ_mul]
  unfold CounterWidth.offset CounterWidth.reduce
  rw [← Nat.add_assoc, Nat.add_mod_mod, Nat.add_assoc]

end SimTimer

namespace Scheduler

variable {H K : Type} {n : Nat}

section Reads

variable [TimerHardware H] {s : Scheduler H K n}

/-- The scheduler when its time has been read `reads` times. -/
def afterReads (s : Scheduler H K n) (reads : Nat) : Scheduler H K n :=
  (fun s => s.timeUs.2)^[reads] s

/-- `timeUs` answers what the clock then shows. -/
theorem timeUs_fst (s : Scheduler H K n) : s.timeUs.1 = s.timeUs.2.clock.timeUs := rfl

/-- A reading before those of `afterReads` is one more. -/
theorem afterReads_succ (s : Scheduler H K n) (reads : Nat) :
    s.timeUs.2.afterReads reads = s.afterReads (reads + 1) := rfl

/-- `pollUntil` ends with the first reading at which the time has passed, if there is one among
those it may take. -/
theorem pollUntil_reaches {start us readings : Nat} (hstart : start ≤ s.clock.timeUs)
    (h : ∃ reads, 0 < reads ∧ reads ≤ readings ∧
      start + us ≤ (s.afterReads reads).clock.timeUs) :
    ∃ reads, 0 < reads ∧ pollUntil start us readings s = (true, s.afterReads reads) ∧
      start + us ≤ (s.afterReads reads).clock.timeUs ∧
      ∀ i, 0 < i → i < reads → (s.afterReads i).clock.timeUs < start + us := by
  induction readings generalizing s with
  | zero =>
    obtain ⟨reads, hpos, hle, -⟩ := h
    exact absurd hpos (Nat.not_lt.mpr hle)
  | succ readings ih =>
    have hforward : start ≤ s.timeUs.2.clock.timeUs := Nat.le_trans hstart s.timeUs_le_timeUs
    have hpoll : pollUntil start us (readings + 1) s =
        if s.timeUs.1 - start < us then pollUntil start us readings s.timeUs.2
        else (true, s.timeUs.2) := rfl
    rw [hpoll]
    by_cases hearly : s.timeUs.1 - start < us
    · rw [timeUs_fst] at hearly
      obtain ⟨reads, hpos, hle, hlate⟩ := h
      -- The reading that is late enough is another one, and so is among the rest.
      obtain ⟨more, rfl⟩ : ∃ more, reads = more + 1 := Nat.exists_eq_add_one.mpr hpos
      have hmore : 0 < more := by
        rw [Nat.pos_iff_ne_zero]
        rintro rfl
        change start + us ≤ s.timeUs.2.clock.timeUs at hlate
        omega
      obtain ⟨found, hfound, hrest, hreached, hbefore⟩ :=
        ih hforward ⟨more, hmore, Nat.le_of_succ_le_succ hle, hlate⟩
      refine ⟨found + 1, Nat.succ_pos _, ?_, hreached, fun i hi hlt => ?_⟩
      · rw [timeUs_fst, if_pos hearly]
        exact hrest
      · obtain ⟨j, rfl⟩ : ∃ j, i = j + 1 := Nat.exists_eq_add_one.mpr hi
        rcases Nat.eq_zero_or_pos j with rfl | hj
        · show s.timeUs.2.clock.timeUs < start + us
          omega
        · exact hbefore j hj (Nat.lt_of_succ_lt_succ hlt)
    · rw [if_neg hearly]
      rw [timeUs_fst] at hearly
      refine ⟨1, Nat.one_pos, rfl, ?_, fun i hi hlt => ?_⟩
      · show start + us ≤ s.timeUs.2.clock.timeUs
        omega
      · omega

end Reads

/-! ## On a simulated timer -/

variable {s : Scheduler SimTimer K n}

/-- The clock when it has observed `reads` readings of a counter that moves on by itself. -/
def clockAfter (s : Scheduler SimTimer K n) (reads : Nat) : Clock :=
  ((List.range reads).map s.hw.readingAt).foldl Clock.sync s.clock

/-- The last observation of `clockAfter` is of the last reading. -/
theorem clockAfter_succ (s : Scheduler SimTimer K n) (reads : Nat) :
    s.clockAfter (reads + 1) = (s.clockAfter reads).sync (s.hw.readingAt reads) := by
  unfold clockAfter
  rw [List.range_succ, List.map_append, List.foldl_append]
  rfl

/-- `afterReads` of an active scheduler changes nothing but the clock, the counter and the count of
masked sections. -/
theorem afterReads_eq (hactive : s.suspended = false) (reads : Nat) :
    ∃ count, s.afterReads reads =
      { s with
        hw := (s.hw.advance (reads * s.hw.autoAdvance)).remask count
        clock := s.clockAfter reads } := by
  induction reads with
  | zero =>
    refine ⟨s.hw.maskCount, ?_⟩
    rw [Nat.zero_mul, s.hw.advance_zero]
    rfl
  | succ reads ih =>
    obtain ⟨count, ih⟩ := ih
    have hread := (s.afterReads reads).timeUs_snd
    have hnext : s.afterReads (reads + 1) = (s.afterReads reads).timeUs.2 :=
      Function.iterate_succ_apply' _ _ _
    obtain ⟨count', hmoved⟩ := (s.afterReads reads).hw.within_readCounter
    have hdial := (SimTimer.SameDial.enter (s.afterReads reads).hw).counter
    have hreading : (TimerHardware.readCounter (IrqMask.enter (s.afterReads reads).hw).2).1 =
        s.hw.readingAt reads := by
      show (IrqMask.enter (s.afterReads reads).hw).2.counter = _
      rw [hdial, ih]
      rfl
    refine ⟨count', ?_⟩
    rw [hnext, hread, hmoved, hreading, ih, if_neg (by rw [hactive]; decide), clockAfter_succ,
      Nat.succ_mul, ← SimTimer.advance_advance]
    rfl

/-- The clock of `clockAfter` has the width and the rate that it had, and the last reading that it
observed. -/
theorem clockAfter_reading (hwidth : s.clock.width = s.hw.width) (reads : Nat) :
    (s.clockAfter reads).width = s.hw.width ∧ (s.clockAfter reads).tickHz = s.clock.tickHz ∧
      (s.clockAfter (reads + 1)).reading = s.hw.readingAt reads := by
  have hkept : (s.clockAfter reads).width = s.hw.width ∧
      (s.clockAfter reads).tickHz = s.clock.tickHz := by
    induction reads with
    | zero => exact ⟨hwidth, rfl⟩
    | succ reads ih =>
      rw [clockAfter_succ]
      exact ih
  refine ⟨hkept.1, hkept.2, ?_⟩
  rw [clockAfter_succ, Clock.sync_reading, hkept.1]
  exact CounterWidth.reduce_of_lt (s.hw.width.offset_lt _ _)

/-- From the first reading on `clockAfter` observes the counter every few ticks. -/
theorem clockAfter_eq (hwidth : s.clock.width = s.hw.width) (reads : Nat) :
    s.clockAfter (reads + 1) =
      (Clock.tick · (s.hw.autoAdvance % s.hw.width.modulus))^[reads] (s.clockAfter 1) := by
  induction reads with
  | zero => rfl
  | succ reads ih =>
    rw [Function.iterate_succ_apply', ← ih, clockAfter_succ]
    unfold Clock.tick
    rw [(clockAfter_reading hwidth (reads + 1)).1, (clockAfter_reading hwidth reads).2.2,
      s.hw.offset_readingAt]

/-- If the counter moves on at every reading, as many readings as `ticksFor us`, after the first,
are enough for `us` microseconds to pass. -/
theorem late_afterReads (hwidth : s.clock.width = s.hw.width)
    (hmoves : s.hw.autoAdvance % s.hw.width.modulus ≠ 0) (hactive : s.suspended = false) {us : Nat}
    (hfits : s.timeUs.1 + us ≤ max64) {reads : Nat} (hreads : s.clock.ticksFor us ≤ reads) :
    s.timeUs.1 + us ≤ (s.afterReads (reads + 1)).clock.timeUs := by
  have hclock : ∀ reads, (s.afterReads reads).clock = s.clockAfter reads := by
    intro reads
    obtain ⟨_, hafter⟩ := afterReads_eq hactive reads
    rw [hafter]
  have hstart : s.timeUs.1 = (s.clockAfter 1).timeUs := congrArg Clock.timeUs (hclock 1)
  obtain ⟨hwidth', hrate, -⟩ := clockAfter_reading hwidth 1
  have hlt : s.hw.autoAdvance % s.hw.width.modulus < (s.clockAfter 1).width.modulus := by
    rw [hwidth']
    exact Nat.mod_lt _ s.hw.width.modulus_pos
  rw [hclock, hstart, clockAfter_eq hwidth reads]
  rw [hstart] at hfits
  refine (s.clockAfter 1).le_timeUs_iterate_tick (Nat.pos_of_ne_zero hmoves) hlt hfits ?_
  unfold Clock.ticksFor
  rw [hrate]
  exact hreads

/-- The wait comes to reading the time `reads` times, and nothing else. -/
structure WaitedOut (us : Nat) (s : Scheduler SimTimer K n) (reads : Nat) : Prop where
  /-- The wait ends, and leaves the scheduler as the readings do. -/
  direct : s.waitUs us = (true, s.afterReads reads)
  /-- A wait on a timer in shared use ends in the same way. -/
  shared : s.waitShared us = (true, s.afterReads reads)
  /-- Both end so too if there is no bound on the readings. -/
  ends : Awaits us s (s.afterReads reads) ∧ AwaitsShared us s (s.afterReads reads)
  /-- The time is read at the start, and at least once more. -/
  two_le : 2 ≤ reads
  /-- At the last reading the time has passed. -/
  late : s.timeUs.1 + us ≤ (s.afterReads reads).clock.timeUs
  /-- At no reading before that it has, unless there was nothing to wait for. -/
  early : 0 < us → ∀ i, 0 < i → i < reads → (s.afterReads i).clock.timeUs < s.timeUs.1 + us
  /-- What is pending, delivered and counted is left alone, and so are the channels, their count and
  whether interrupts are enabled. The counter has moved on by itself, and the clock has observed
  what it showed at each reading. -/
  alone : ∃ count, s.afterReads reads =
    { s with
      hw := { s.hw.advance (reads * s.hw.autoAdvance) with maskCount := count }
      clock := ((List.range reads).map s.hw.readingAt).foldl Clock.sync s.clock }

/-- A wait on an active scheduler whose counter moves on at every reading ends after some number of
readings, unless the end of time comes first, as `WaitedOut` says. -/
theorem waitedOut (hwidth : s.clock.width = s.hw.width)
    (hmoves : s.hw.autoAdvance % s.hw.width.modulus ≠ 0) (hactive : s.suspended = false) {us : Nat}
    (hfits : s.timeUs.1 + us ≤ max64) : ∃ reads, WaitedOut us s reads := by
  have henough : ∃ reads, 0 < reads ∧ reads ≤ s.clock.ticksFor us + 1 ∧
      s.timeUs.2.clock.timeUs + us ≤ (s.timeUs.2.afterReads reads).clock.timeUs := by
    refine ⟨s.clock.ticksFor us + 1, Nat.succ_pos _, Nat.le_refl _, ?_⟩
    rw [afterReads_succ, ← timeUs_fst]
    exact late_afterReads hwidth hmoves hactive hfits (Nat.le_succ _)
  obtain ⟨reads, hpos, hpoll, hlate, hbefore⟩ := pollUntil_reaches (Nat.le_refl _) henough
  have hwithin : s.waitWithin (s.clock.ticksFor us) us = (true, s.afterReads (reads + 1)) := by
    calc s.waitWithin (s.clock.ticksFor us) us
        = pollUntil s.timeUs.1 us (s.clock.ticksFor us + 1) s.timeUs.2 :=
          if_neg (by rw [hactive]; decide)
      _ = (true, s.afterReads (reads + 1)) := by rw [timeUs_fst, hpoll, afterReads_succ]
  have hdirect : s.waitUs us = (true, s.afterReads (reads + 1)) := by
    rw [waitUs_eq_waitWithin, hwithin]
  have hends : Awaits us s (s.afterReads (reads + 1)) := awaits_iff.mpr ⟨_, hwithin⟩
  have hsame : (s.afterReads (reads + 1)).idled s.suspended = s.afterReads (reads + 1) :=
    if_neg (by rw [hactive]; decide)
  refine ⟨reads + 1, ?_⟩
  constructor
  case direct => exact hdirect
  case shared => rw [waitShared_eq, hdirect, hsame]
  case ends => exact ⟨hends, awaitsShared_iff.mpr ⟨_, hends, hsame.symm⟩⟩
  case two_le => exact Nat.succ_le_succ hpos
  case late => exact hlate
  case early =>
    intro hus i hi hlt
    obtain ⟨j, rfl⟩ : ∃ j, i = j + 1 := Nat.exists_eq_add_one.mpr hi
    rcases Nat.eq_zero_or_pos j with rfl | hj
    · exact Nat.lt_add_of_pos_right hus
    · exact hbefore j hj (Nat.lt_of_succ_lt_succ hlt)
  case alone => exact afterReads_eq hactive (reads + 1)

/-- What the hardware, of whatever kind, is asked for by a wait on a timer in shared use, against a
wait on any other. -/
structure WaitsAlike [TimerHardware H] (us : Nat) (s : Scheduler H K n) : Prop where
  /-- As long as the clock is going both waits are the same, reading for reading. -/
  going : s.suspended = false → s.waitShared us = s.waitUs us
  /-- While it stands still a wait asks for nothing. -/
  direct : s.suspended = true → s.waitUs us = (true, s)
  /-- A wait on a timer in shared use then takes a masked section, and reads nothing in it. -/
  shared : s.suspended = true → s.waitShared us = (true, { s with hw := IrqMask.blank s.hw })

/-- `waitShared` asks the hardware for what `waitUs` does, and besides looks whether the clock is
going, as `WaitsAlike` says. -/
theorem waitsAlike [TimerHardware H] (us : Nat) (s : Scheduler H K n) : WaitsAlike us s := by
  have hshared := s.waitShared_eq us
  constructor
  case going =>
    intro hgoing
    rw [hshared]
    exact congrArg (Prod.mk _) (if_neg (by rw [hgoing]; decide))
  case direct => exact fun hstopped => if_pos hstopped
  case shared =>
    intro hstopped
    have hdirect : s.waitUs us = (true, s) := if_pos hstopped
    rw [hshared, hdirect]
    exact congrArg (Prod.mk true) (if_pos hstopped)

/-- What a wait does on a simulated timer. -/
structure Waits (us : Nat) (s : Scheduler SimTimer K n) : Prop where
  /-- The wait ends on an active scheduler whose counter moves on at every reading, unless the end
  of time comes first. -/
  going : s.suspended = false → s.hw.autoAdvance % s.hw.width.modulus ≠ 0 →
    s.timeUs.1 + us ≤ max64 → ∃ reads, WaitedOut us s reads
  /-- While the clock stands still it ends at once, with no reading of the counter. On a timer in
  shared use a masked section may have been counted. -/
  stopped : s.suspended = true → s.waitUs us = (true, s) ∧
    ∃ count, s.waitShared us = (true, { s with hw := { s.hw with maskCount := count } })
  /-- A wait for milliseconds is one for a thousand times as many microseconds, or for as many as a
  64-bit word can hold. -/
  ms : ∀ ms, us = min (ms * 1000) max64 → s.wait (.ms ms) = s.waitUs us

/-- A wait ends, no sooner than it should and at the first reading at which it may, and changes
nothing but the clock, the counter and the count of masked sections, as `Waits` says. No hardware
can tell whether the timer is in shared use, except by that count. -/
theorem waits (us : Nat) :
    (∀ {H : Type} [TimerHardware H] (s : Scheduler H K n), WaitsAlike us s) ∧
    ∀ s : Scheduler SimTimer K n, s.clock.width = s.hw.width → Waits us s := by
  refine ⟨waitsAlike us, fun s hwidth => ?_⟩
  constructor
  case going => exact fun hactive hmoves hfits => waitedOut hwidth hmoves hactive hfits
  case stopped =>
    intro hstopped
    have halike := waitsAlike us s
    obtain ⟨count, hcount⟩ : ∃ count, IrqMask.blank s.hw = s.hw.remask count := s.hw.leave_enter
    refine ⟨halike.direct hstopped, count, ?_⟩
    rw [halike.shared hstopped, hcount]
    rfl
  case ms =>
    rintro ms rfl
    rfl

/-- A scheduler on a timer that makes three ticks in a microsecond. At every reading it moves on by
a turn and one tick. -/
def brisk : Scheduler SimTimer Recorder 1 :=
  withDefaults ((SimTimer.new .bits16 3000000).setAutoAdvance 65537) .unbounded

/-- On `brisk` a wait for two microseconds begins at the second tick, which the clock does not show,
and ends at the sixth. That is the fifth reading. -/
theorem waits_brisk :
    brisk.clock.width = brisk.hw.width ∧ brisk.suspended = false ∧
      brisk.hw.autoAdvance % brisk.hw.width.modulus ≠ 0 ∧ brisk.timeUs.1 + 2 ≤ max64 ∧
      brisk.waitShared 2 = brisk.waitUs 2 ∧ (∃ reads, WaitedOut 2 brisk reads) ∧
      (List.range 6).map (fun reads => (brisk.afterReads reads).clock.timeUs) = [0, 0, 1, 1, 1, 2] ∧
      (brisk.waitUs 2).2.hw.counter = brisk.hw.readingAt 5 := by
  have hwidth : brisk.clock.width = brisk.hw.width := by decide +kernel
  have hactive : brisk.suspended = false := by decide +kernel
  have hmoves : brisk.hw.autoAdvance % brisk.hw.width.modulus ≠ 0 := by decide +kernel
  have hfits : brisk.timeUs.1 + 2 ≤ max64 := by decide +kernel
  obtain ⟨halike, hwaits⟩ := waits 2
  exact ⟨hwidth, hactive, hmoves, hfits, (halike brisk).going hactive,
    (hwaits brisk hwidth).going hactive hmoves hfits, by decide +kernel, by decide +kernel⟩

end Scheduler

end SoftTimer
