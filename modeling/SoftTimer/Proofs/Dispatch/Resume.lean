import SoftTimer.Proofs.Bench.Setup
import SoftTimer.Proofs.Dispatch.Batches
import SoftTimer.Proofs.History.Account

/-!
# Waking up is a late interrupt

Taking time tracking back lines up every due event with its last occurrence, and the interrupt that
follows fires each of them once. The main statement is `resume_interrupt`: the two together do what
a single interrupt would do, at the same time and under a configuration that collapses, if no event
had been lined up first.

An event that has been lined up has exactly one due occurrence left (`Event.occurrencesBy_align`),
so every configuration lets it fire that one and skip none, and what is left of it is what would be
left anyway (`Event.settle_align`). What it skips on being lined up is what it would skip on being
collapsed (`Pool.backlog_eq_align`).
-/

namespace SoftTimer

namespace Event

variable {e : Event} {now : Nat}

/-- `align` passes over all due occurrences of an event but one. -/
theorem align_fst_add_one (hdue : e.timestamp ≤ now) :
    (e.align now).1 + 1 = e.occurrencesBy now := by
  have hisDue := (e.isDue_iff now).mpr hdue
  cases hrep : e.repeats with
  | true => simp [align, occurrencesBy, hrep, hisDue]
  | false => simp [align, occurrencesBy, hrep, hisDue]

/-- An event that `align` has moved has one due occurrence. -/
theorem occurrencesBy_align (hdue : e.timestamp ≤ now) :
    (e.align now).2.occurrencesBy now = 1 := by
  have hsteps := e.align_fst_add_one hdue
  rw [align_snd_eq_occurrence hdue]
  cases hrep : e.repeats with
  | true =>
    rw [occurrencesBy_occurrence hrep (by omega)]
    omega
  | false =>
    -- An event that fires once stays where it is.
    have hone := occurrencesBy_of_once hdue hrep
    have hzero : (e.align now).1 = 0 := by omega
    rw [hzero, occurrence_zero, hone]

/-- `align` does not change whether an event is due. -/
theorem isDue_align (e : Event) (now : Nat) : (e.align now).2.isDue now = e.isDue now := by
  unfold align
  split
  · next hlate =>
    -- The periods added fit between the timestamp and now.
    have hdue : e.isDue now = true := (Bool.and_eq_true_iff.mp hlate).2
    have hle := (e.isDue_iff now).mp hdue
    have hperiods : e.periodsBy now * e.period ≤ now - e.timestamp := Nat.div_mul_le_self _ _
    rw [hdue, isDue_iff]
    show e.timestamp + e.periodsBy now * e.period ≤ now
    omega
  · rfl

/-- The `timestamp` has come after `align` exactly if it had come before. -/
theorem timestamp_align_le (e : Event) (now : Nat) :
    (e.align now).2.timestamp ≤ now ↔ e.timestamp ≤ now := by
  rw [← isDue_iff, isDue_align, isDue_iff]

/-- `settle` gives the same for an event and for what `align` makes of it. -/
theorem settle_align (hnow : now < max64) (e : Event) :
    (e.align now).2.settle now = e.settle now := by
  rcases Nat.lt_or_ge now e.timestamp with hlt | hdue
  · rw [align_of_lt hlt]
  · have hsteps := align_fst_lt hdue
    rw [align_snd hnow hdue]
    cases hrep : e.repeats with
    | true => exact settle_shift hnow hdue hrep (Nat.le_of_lt hsteps)
    | false =>
      have hdue' : (e.shift (e.align now).1).timestamp ≤ now := by
        rw [shift_eq_occurrence hnow hsteps]
        exact timestamp_add_le hsteps
      rw [settle_of_once hdue hrep, settle_of_once hdue' hrep]

/-- No fewer periods than `occurrencesBy` counts lead beyond `now`. -/
theorem occurrencesBy_le {steps : Nat} (h : now < e.timestamp + steps * e.period) :
    e.occurrencesBy now ≤ steps := by
  by_contra hlt
  have hle := timestamp_add_le (Nat.lt_of_not_le hlt)
  omega

end Event

namespace Pool

variable {n : Nat} {config : Config} {now : Nat}

/-- The events `overdue` after `alignAll` are those `overdue` before, each after `align`. -/
theorem overdue_alignAll (p : Pool n) (now : Nat) :
    (p.alignAll now).2.overdue now = (p.overdue now).map fun e => (e.align now).2 := by
  show ((p.map fun e => (e.align now).2).events.filter (·.isDue now)) = _
  rw [events_map, List.filter_map]
  congr 2
  funext e
  exact e.isDue_align now

/-- The `timestamp` of an `overdue` event has come. -/
theorem timestamp_le_of_mem_overdue {p : Pool n} {e : Event} (h : e ∈ p.overdue now) :
    e.timestamp ≤ now := by
  have hisDue := (List.mem_filter.mp h).2
  exact (e.isDue_iff now).mp hisDue

/-- The `backlog` is the sum of `occurrencesBy` over the `overdue` events. -/
theorem backlog_eq_overdue (p : Pool n) (now : Nat) :
    p.backlog now = ((p.overdue now).map (·.occurrencesBy now)).sum := by
  unfold backlog overdue
  induction p.events with
  | nil => rfl
  | cons e rest ih =>
    rcases Nat.lt_or_ge now e.timestamp with hlt | hdue
    · have hisDue := (e.isDue_eq_false now).mpr hlt
      have hzero := Event.occurrencesBy_of_lt hlt
      simp [hisDue, hzero, ih]
    · have hisDue := (e.isDue_iff now).mpr hdue
      simp [hisDue, ih]

/-- The `backlog` is what `align` passes over, and one occurrence of each `overdue` event. -/
theorem backlog_eq_align (p : Pool n) (now : Nat) :
    p.backlog now =
      ((p.overdue now).map fun e => (e.align now).1).sum + (p.overdue now).length := by
  have hsteps : (p.overdue now).map (·.occurrencesBy now) =
      (p.overdue now).map fun e => (e.align now).1 + 1 := List.map_congr_left fun e he =>
    (e.align_fst_add_one (timestamp_le_of_mem_overdue he)).symm
  rw [backlog_eq_overdue, hsteps, List.sum_map_add]
  simp

/-- The `backlog` after `alignAll` has one occurrence of each `overdue` event. -/
theorem backlog_alignAll (p : Pool n) (now : Nat) :
    (p.alignAll now).2.backlog now = (p.overdue now).length := by
  have hone : ((p.overdue now).map fun e => (e.align now).2.occurrencesBy now) =
      (p.overdue now).map fun _ => 1 := List.map_congr_left fun e he =>
    Event.occurrencesBy_align (timestamp_le_of_mem_overdue he)
  rw [backlog_eq_overdue, overdue_alignAll, List.map_map]
  show ((p.overdue now).map fun e => (e.align now).2.occurrencesBy now).sum = _
  rw [hone]
  simp

/-- Where every due event fires once, the `occurrences` that fire are the `overdue` events as they
stand. -/
theorem occurrences_eq_overdue {p : Pool n}
    (h : ∀ e ∈ p.events, e.timestamp ≤ now → e.firingsBy config now = 1) :
    p.occurrences config now = p.overdue now := by
  unfold occurrences overdue
  generalize p.events = events at h ⊢
  induction events with
  | nil => rfl
  | cons e rest ih =>
    have hrest := ih fun e' he' => h e' (List.mem_cons_of_mem _ he')
    rw [List.flatMap_cons, hrest]
    rcases Nat.lt_or_ge now e.timestamp with hlt | hdue
    · have hisDue := (e.isDue_eq_false now).mpr hlt
      have hzero := Event.occurrencesBy_of_lt hlt
      simp [Event.firingsBy, hisDue, hzero]
    · have hisDue := (e.isDue_iff now).mpr hdue
      have hone := h e List.mem_cons_self hdue
      simp [hisDue, hone, Event.occurrence_zero]

/-- Under a configuration that collapses, the `occurrences` that fire are the `overdue` events as
they stand. -/
theorem occurrences_of_collapse (hcollapse : config.catchUp = .collapse) (p : Pool n) :
    p.occurrences config now = p.overdue now := by
  refine occurrences_eq_overdue fun e _ hdue => ?_
  have hpos := Event.occurrencesBy_pos hdue
  have hburst : config.burst = 1 := by simp [Config.burst, hcollapse]
  unfold Event.firingsBy
  omega

/-- The `occurrences` that fire after `alignAll` are the `overdue` events, each after `align`, under
any configuration. -/
theorem occurrences_alignAll (config : Config) (now : Nat) (p : Pool n) :
    (p.alignAll now).2.occurrences config now =
      (p.overdue now).map fun e => (e.align now).2 := by
  rw [← overdue_alignAll]
  refine occurrences_eq_overdue fun e' he' hdue' => ?_
  have hburst := config.burst_pos
  have hmem : e' ∈ p.events.map fun e => (e.align now).2 := by
    rw [← events_map]
    exact he'
  obtain ⟨e, -, rfl⟩ := List.mem_map.mp hmem
  -- The event was due before it was lined up, or else it would not be due now.
  have hone := Event.occurrencesBy_align ((e.timestamp_align_le now).mp hdue')
  unfold Event.firingsBy
  omega

/-- A pool that is `Distinct` stays so under `alignAll`. -/
theorem Distinct.alignAll {p : Pool n} (h : p.Distinct) (now : Nat) :
    (p.alignAll now).2.Distinct := by
  refine h.bind (fun slot => (get?_map _ p slot).trans Option.map_eq_bind) fun e e' he' => ?_
  obtain rfl : (e.align now).2 = e' := Option.some.inj he'
  exact e.align_seq now

/-- `settle` leaves the same in a slot of the pool and of the pool after `alignAll`. -/
theorem settle_alignAll (hnow : now < max64) (p : Pool n) (slot : Nat) :
    ((p.alignAll now).2.get? slot).bind (Event.settle now) =
      (p.get? slot).bind (Event.settle now) := by
  have hget : (p.alignAll now).2.get? slot = (p.get? slot).map fun e => (e.align now).2 :=
    get?_map _ p slot
  rw [hget, Option.bind_map]
  congr 1
  funext e
  exact e.settle_align hnow

/-- The events that a `drain` fires are the `agenda` of the pool. -/
theorem drain_agenda {p : Pool n} (hdistinct : p.Distinct) (hnow : now < max64) :
    (p.drain config now).1.toList.map (·.event) = p.agenda config now := by
  obtain ⟨firings, d, hdrains, hdrain⟩ := p.drain_eq config hnow
  have hready : (Drain.start p).Ready config now := Drain.ready_start hdistinct
  rw [hdrain]
  apply eq_agenda
  · rw [hdrains.events_eq hnow hready, upcoming_start]
  · exact List.pairwise_map.mpr (hdrains.pairwise hnow hready)

end Pool

namespace Scheduler

section Agenda

variable {H K : Type} {n : Nat} [TimerHardware H] [EventSink K] {now : Nat}
  {s s' : Scheduler H K n}

/-- Two schedulers about to take an interrupt at the time `now`. The one, `s`, collapses. The other,
`s'`, is configured in any way, but its pool has been through `alignAll` and what that passes over
has been counted. -/
structure LinedUp (now : Nat) (s s' : Scheduler H K n) : Prop where
  active : s.suspended = false
  active' : s'.suspended = false
  time : s.timeUs.1 = now
  time' : s'.timeUs.1 = now
  collapse : s.config.catchUp = .collapse
  pool : s'.pool = (s.pool.alignAll now).2.recompute
  sink : s'.sink = s.sink
  stats : s'.stats =
    ((s.pool.overdue now).map fun e => (e.align now).1).foldl Stats.recordCollapsed s.stats

/-- The events that an `interrupt` of an active scheduler fires are the `agenda` of its pool. -/
theorem interrupt_agenda (source : InterruptSource) (hactive : s.suspended = false)
    (hdistinct : s.pool.Distinct) (hnow : s.timeUs.1 < max64) :
    (s.interrupt source).1.toList.map (·.event) = s.pool.agenda s.config s.timeUs.1 := by
  rw [(interrupt_of_active source hactive).1]
  exact Pool.drain_agenda hdistinct hnow

namespace LinedUp

omit [EventSink K] in
/-- The pool of the scheduler whose events were `LinedUp` is `Distinct` if that of the other is. -/
theorem distinct (h : LinedUp now s s') (hdistinct : s.pool.Distinct) : s'.pool.Distinct := by
  rw [h.pool]
  exact hdistinct.alignAll now

/-- The scheduler whose events were `LinedUp` fires the `overdue` events, each after `align`, in the
order of their keys. -/
theorem fired (h : LinedUp now s s') (source : InterruptSource) (hdistinct : s.pool.Distinct)
    (hnow : now < max64) :
    (s'.interrupt source).1.toList.map (·.event) =
      ((s.pool.overdue now).map fun e => (e.align now).2).mergeSort
        fun e e' => decide (e.key ≤ e'.key) := by
  have hagenda := interrupt_agenda source h.active' (h.distinct hdistinct)
    (h.time'.symm ▸ hnow)
  rw [hagenda, h.time', h.pool, ← Pool.occurrences_alignAll]
  rfl

/-- The scheduler whose events were `LinedUp` fires as many events as are `overdue`. -/
theorem length (h : LinedUp now s s') (source : InterruptSource) (hdistinct : s.pool.Distinct)
    (hnow : now < max64) :
    (s'.interrupt source).1.toList.length = (s.pool.overdue now).length := by
  have hfired := congrArg List.length (h.fired source hdistinct hnow)
  simpa using hfired

/-- The scheduler that collapses fires as many events as are `overdue`. -/
theorem length_collapse (h : LinedUp now s s') (source : InterruptSource)
    (hdistinct : s.pool.Distinct) (hnow : now < max64) :
    (s.interrupt source).1.toList.length = (s.pool.overdue now).length := by
  have hagenda := interrupt_agenda source h.active hdistinct (h.time.symm ▸ hnow)
  have hlength := congrArg List.length hagenda
  rw [h.time] at hlength
  unfold Pool.agenda at hlength
  rw [Pool.occurrences_of_collapse h.collapse] at hlength
  simpa using hlength

/-- Both schedulers bring their pools to an `Outcome`. -/
theorem outcome (h : LinedUp now s s') (source : InterruptSource) (hdistinct : s.pool.Distinct)
    (hnow : now < max64) :
    Pool.Outcome now s.pool (s.interrupt source).1.toList (s.interrupt source).2.pool ∧
      Pool.Outcome now s'.pool (s'.interrupt source).1.toList (s'.interrupt source).2.pool := by
  have hone := interrupt_outcome source h.active hdistinct (h.time.symm ▸ hnow)
  have hother := interrupt_outcome source h.active' (h.distinct hdistinct)
    (h.time'.symm ▸ hnow)
  rw [h.time] at hone
  rw [h.time'] at hother
  exact ⟨hone, hother⟩

/-- The pools of two schedulers that are `LinedUp` are equal after the interrupt. -/
theorem pool_eq (h : LinedUp now s s') (source : InterruptSource) (hdistinct : s.pool.Distinct)
    (hnow : now < max64) : (s'.interrupt source).2.pool = (s.interrupt source).2.pool := by
  obtain ⟨hone, hother⟩ := h.outcome source hdistinct hnow
  have hcached := (interrupt_active source h.active).2
  have hcached' := (interrupt_active source h.active').2
  refine Pool.eq_of_get? hcached hcached' (fun slot => ?_) ?_
  · rw [hone.get?, hother.get?, h.pool, Pool.get?_recompute, Pool.settle_alignAll hnow]
  · rw [hone.nextSeq, hother.nextSeq, h.pool]
    rfl

/-- Two schedulers that are `LinedUp` have counted as many firings and as many skipped occurrences
after the interrupt. -/
theorem counters_eq (h : LinedUp now s s') (source : InterruptSource) (hdistinct : s.pool.Distinct)
    (hfits : s.stats.Fits) (hnow : now < max64) :
    (s'.interrupt source).2.stats.eventsFired = (s.interrupt source).2.stats.eventsFired ∧
      (s'.interrupt source).2.stats.collapsedOccurrences =
        (s.interrupt source).2.stats.collapsedOccurrences := by
  -- Lining up has counted what it skipped.
  obtain ⟨hfired, hskipped⟩ := foldl_recordCollapsed hfits
    ((s.pool.overdue now).map fun e => (e.align now).1)
  rw [← h.stats] at hfired hskipped
  have hfits' : s'.stats.Fits := ⟨hfired ▸ hfits.eventsFired, hskipped ▸ sat64_le _⟩
  obtain ⟨hcount, hcollapsed⟩ := interrupt_counters source h.active hfits
  obtain ⟨hcount', hcollapsed'⟩ := interrupt_counters source h.active' hfits'
  have hlength := h.length_collapse source hdistinct hnow
  have hlength' := h.length source hdistinct hnow
  constructor
  · rw [hcount, hcount', hlength, hlength', hfired]
  · -- The interrupt of the one skips what lining up has skipped for the other, whose interrupt
    -- then skips nothing.
    obtain ⟨hone, hother⟩ := h.outcome source hdistinct hnow
    have hsum := hone.count
    have hsum' := hother.count
    have hbacklog : s'.pool.backlog now = (s.pool.overdue now).length := by
      rw [h.pool]
      exact Pool.backlog_alignAll _ now
    have hall := s.pool.backlog_eq_align now
    have hnothing : ((s'.interrupt source).1.toList.map (·.collapsed)).sum = 0 := by omega
    have hsame : ((s.interrupt source).1.toList.map (·.collapsed)).sum =
        ((s.pool.overdue now).map fun e => (e.align now).1).sum := by omega
    rw [hcollapsed, hcollapsed', hnothing, hsame, hskipped, Nat.add_zero]
    exact sat64_of_le (sat64_le _)

end LinedUp

end Agenda

variable {K : Type} {n : Nat} {counter elapsedUs : Nat} {s : Scheduler SimTimer K n}

/-- The time at which time tracking is taken back, as the clock shows it after `restart`. -/
def resumedAt (counter elapsedUs : Nat) (s : Scheduler SimTimer K n) : Nat :=
  (s.restart counter elapsedUs).clock.timeUs

/-- The scheduler under a configuration whose policy is `collapse`. -/
def collapsing (s : Scheduler SimTimer K n) : Scheduler SimTimer K n :=
  { s with config := { s.config with catchUp := .collapse } }

/-- The clock after `resume` is that of `restart`, when the counter stands where it was said to. -/
theorem resume_clock (elapsedUs : Nat) (hstill : s.hw.autoAdvance = 0)
    (hwidth : s.clock.width = s.hw.width)
    (hcounter : s.hw.counter = s.hw.width.reduce counter) :
    (s.resume counter elapsedUs).2.clock = (s.restart counter elapsedUs).clock := by
  have hdial := SimTimer.SameDial.enter s.hw
  have hreading : s.clock.width.reduce counter = s.entered.hw.counter := by
    rw [hwidth, ← hcounter]
    exact hdial.counter.symm
  exact rearm_clock (s := (s.entered.restart counter elapsedUs).alignDue.2)
    (hdial.autoAdvance.trans hstill) hreading

/-- The time that a scheduler reads after `resume` is that of `resumedAt`, when the counter stands
still. -/
theorem timeUs_resume (elapsedUs : Nat) (hstill : s.hw.autoAdvance = 0)
    (hwidth : s.clock.width = s.hw.width)
    (hcounter : s.hw.counter = s.hw.width.reduce counter) :
    (s.resume counter elapsedUs).2.timeUs.1 = s.resumedAt counter elapsedUs := by
  have hclock := resume_clock elapsedUs hstill hwidth hcounter
  have hstands : StandsStill s (s.resume counter elapsedUs).2 :=
    frame_standsStill.masked (frame_standsStill.takeBack counter elapsedUs s.entered)
  obtain ⟨hstill', hcounter'⟩ := hstands hstill
  rw [timeUs_of_reading hstill', hclock]
  · rfl
  · rw [hclock, hcounter', hcounter, ← hwidth]
    rfl

/-- After `resume` the scheduler is `LinedUp` with one that only restarts its clock and collapses.
-/
theorem linedUp_resume (elapsedUs : Nat) (hstill : s.hw.autoAdvance = 0)
    (hwidth : s.clock.width = s.hw.width)
    (hcounter : s.hw.counter = s.hw.width.reduce counter) :
    LinedUp (s.resumedAt counter elapsedUs) (s.restart counter elapsedUs).collapsing
      (s.resume counter elapsedUs).2 := by
  have hsame := ((s.entered.restart counter elapsedUs).alignDue.2).rearm_same
  have hreading : s.clock.width.reduce counter = s.hw.counter := by
    rw [hwidth, hcounter]
  exact
    { active := rfl
      active' := hsame.suspended
      time := timeUs_of_reading (s := (s.restart counter elapsedUs).collapsing) hstill hreading
      time' := timeUs_resume elapsedUs hstill hwidth hcounter
      collapse := rfl
      pool := hsame.pool
      sink := hsame.sink
      stats := hsame.stats.trans List.foldl_map.symm }

variable [EventSink K]

/-- An interrupt after `resume`, against one late interrupt that collapses. -/
structure ResumesLate (source : InterruptSource) (counter elapsedUs : Nat)
    (s : Scheduler SimTimer K n) : Prop where
  /-- The answer is the number of events that are due. -/
  due : (s.resume counter elapsedUs).1 = (s.pool.overdue (s.resumedAt counter elapsedUs)).length
  /-- The interrupt fires as many. -/
  size : ((s.resume counter elapsedUs).2.interrupt source).1.size =
    (s.pool.overdue (s.resumedAt counter elapsedUs)).length
  /-- Each due event fires once, where it was lined up, in the order of timestamp and number. -/
  fired : ((s.resume counter elapsedUs).2.interrupt source).1.toList.map (·.event) =
    ((s.pool.overdue (s.resumedAt counter elapsedUs)).map fun e =>
      (e.align (s.resumedAt counter elapsedUs)).2).mergeSort fun e e' => decide (e.key ≤ e'.key)
  /-- The sink is told of those and of no others. -/
  delivered : ((s.resume counter elapsedUs).2.interrupt source).2.sink =
    (((s.resume counter elapsedUs).2.interrupt source).1.toList.map (·.notice)).foldl
      EventSink.deliver s.sink
  /-- Both schedulers have equal pools. -/
  pool : ((s.resume counter elapsedUs).2.interrupt source).2.pool =
    ((s.restart counter elapsedUs).collapsing.interrupt source).2.pool
  /-- Both schedulers have counted as many firings. -/
  eventsFired : ((s.resume counter elapsedUs).2.interrupt source).2.stats.eventsFired =
    ((s.restart counter elapsedUs).collapsing.interrupt source).2.stats.eventsFired
  /-- Both schedulers have counted as many skipped occurrences. -/
  collapsedOccurrences :
    ((s.resume counter elapsedUs).2.interrupt source).2.stats.collapsedOccurrences =
      ((s.restart counter elapsedUs).collapsing.interrupt source).2.stats.collapsedOccurrences
  /-- A due repeating event ends on the first point of its grid after now, or at the end of time. -/
  next : ∀ slot e, s.pool.get? slot = some e → e.timestamp ≤ s.resumedAt counter elapsedUs →
    e.repeats = true → ∃ steps,
      ((s.resume counter elapsedUs).2.interrupt source).2.pool.get? slot =
          some { e with timestamp := sat64 (e.timestamp + steps * e.period) } ∧
        s.resumedAt counter elapsedUs < e.timestamp + steps * e.period ∧
        ∀ fewer, s.resumedAt counter elapsedUs < e.timestamp + fewer * e.period → steps ≤ fewer

/-- A `resume` before the end of time, and an interrupt before the counter moves, do what one late
interrupt does that collapses, as `ResumesLate` says. -/
theorem resume_interrupt (source : InterruptSource) (hstill : s.hw.autoAdvance = 0)
    (hwidth : s.clock.width = s.hw.width) (hcounter : s.hw.counter = s.hw.width.reduce counter)
    (hdistinct : s.pool.Distinct) (hfits : s.stats.Fits)
    (hnow : s.resumedAt counter elapsedUs < max64) : ResumesLate source counter elapsedUs s := by
  have h := linedUp_resume elapsedUs hstill hwidth hcounter
  have hpool := h.pool_eq source hdistinct hnow
  obtain ⟨hfired, hskipped⟩ := h.counters_eq source hdistinct hfits hnow
  constructor
  case due => rfl
  case size =>
    rw [← Array.length_toList]
    exact h.length source hdistinct hnow
  case fired => exact h.fired source hdistinct hnow
  case delivered =>
    rw [interrupt_sink source h.active', h.sink]
    rfl
  case pool => exact hpool
  case eventsFired => exact hfired
  case collapsedOccurrences => exact hskipped
  case next =>
    intro slot e hget hdue hrep
    obtain ⟨hone, -⟩ := h.outcome source hdistinct hnow
    refine ⟨e.occurrencesBy (s.resumedAt counter elapsedUs), ?_, e.lt_timestamp_add hdue hrep,
      fun fewer hlt => e.occurrencesBy_le hlt⟩
    have hrest : (s.restart counter elapsedUs).collapsing.pool.get? slot = some e := hget
    rw [hpool, hone.get?, hrest, Option.bind_some, Event.settle_of_repeats hdue hrep]
    rfl

/-- The scheduler `overslept`, but with its time tracking handed over. -/
def slumbering : Scheduler SimTimer Recorder 3 := { overslept with suspended := true }

/-- When `slumbering` is told that it slept for 260 microseconds, two events are due. Each fires
once, the repeating one on the last point of its grid, although it might fire twice. -/
theorem resume_interrupt_slumbering :
    slumbering.hw.autoAdvance = 0 ∧ slumbering.clock.width = slumbering.hw.width ∧
      slumbering.hw.counter = slumbering.hw.width.reduce 250 ∧ slumbering.pool.Distinct ∧
      slumbering.stats.Fits ∧ slumbering.resumedAt 250 260 < max64 ∧
      ResumesLate .primary 250 260 slumbering ∧
      (slumbering.resume 250 260).1 = 2 ∧
      ((slumbering.resume 250 260).2.interrupt .primary).1.toList.map
        (fun f => (f.event.timestamp, f.event.seq, f.collapsed)) = [(100, 1, 0), (250, 0, 0)] ∧
      ((slumbering.resume 250 260).2.interrupt .primary).2.stats.collapsedOccurrences = 3 := by
  have hstill : slumbering.hw.autoAdvance = 0 := rfl
  have hwidth : slumbering.clock.width = slumbering.hw.width := rfl
  have hcounter : slumbering.hw.counter = slumbering.hw.width.reduce 250 := by decide
  have hdistinct : slumbering.pool.Distinct := by decide
  have hfits : slumbering.stats.Fits := ⟨by decide, by decide⟩
  have hnow : slumbering.resumedAt 250 260 < max64 := by decide
  exact ⟨hstill, hwidth, hcounter, hdistinct, hfits, hnow,
    resume_interrupt .primary hstill hwidth hcounter hdistinct hfits hnow, by decide,
    by decide +kernel, by decide +kernel⟩

end Scheduler

end SoftTimer
