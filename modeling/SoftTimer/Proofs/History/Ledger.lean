import SoftTimer.Proofs.History.Balance

/-!
# What became of every registration

The main statement is `Run.accounted`: over a whole run no occurrence is lost, duplicated or left
uncounted. It reads off the balanced books of the run (`Balanced.of_run`) what became of each
registration, and adds the statistics, which count the same firings and skipped occurrences as the
log (`Run.stats`).
-/

namespace SoftTimer

/-- The timestamp of a registration's event as it is pending, or as it was when it was cancelled. -/
def lastTimestamp {n : Nat} (log : List Happening) (p : Pool n) (seq : Nat) : Nat :=
  ((p.events ++ cancellations log).find? (·.seq = seq)).elim 0 (·.timestamp)

namespace Balanced

variable {n : Nat} {log : List Happening} {p : Pool n}

/-! ## What became of a registration -/

/-- An event that fires once is pending as it was registered, in `Balanced` books. -/
theorem eq_event (h : Balanced log p) {a : Acceptance} (ha : a ∈ acceptances log)
    (honce : a.request.repeating = false) {e : Event} (he : e ∈ p.events) (hseq : e.seq = a.seq) :
    e = a.event := by
  have hstands := h.stands a ha e (List.mem_append_left _ he) hseq
  have hperiod : a.event.period = 0 := by
    rw [a.event_period, honce]
    rfl
  have hstill : a.event.shift (tally (·.moves) a.seq log) = a.event.shift 0 := by
    unfold Event.shift
    rw [hperiod, Nat.mul_zero, Nat.mul_zero]
  rw [hstands, hstill, a.event_shift_zero]

/-- A repeating event short of the end of time is on its grid in `Balanced` books, as many periods
on as it has fired and skipped. -/
theorem timestamp_eq (h : Balanced log p) {a : Acceptance} (ha : a ∈ acceptances log)
    (hrep : a.request.repeating = true) {e : Event} (he : e ∈ p.events ++ cancellations log)
    (hseq : e.seq = a.seq) (htime : e.timestamp < max64) :
    e = { a.event with timestamp := a.first + a.request.period.toUs *
      (tally (·.fires) a.seq log + tally (·.skips) a.seq log) } := by
  have hstands := h.stands a ha e he hseq
  have hperiod : a.event.period = a.request.period.toUs := by
    rw [a.event_period, hrep]
    rfl
  -- All the moves together saturate once, and the timestamp shows that they did not.
  have hshift : e.timestamp = sat64 (a.first + a.request.period.toUs *
      (tally (·.fires) a.seq log + tally (·.skips) a.seq log)) := by
    rw [hstands, Event.shift_timestamp, a.event_timestamp, sat64_sat64_add, hperiod, tally_moves,
      Nat.mul_comm]
  have hexact : a.first + a.request.period.toUs *
      (tally (·.fires) a.seq log + tally (·.skips) a.seq log) = e.timestamp := by
    unfold sat64 at hshift
    omega
  rw [hexact, hstands]
  rfl

/-- The `lastTimestamp` of a repeating registration is as many periods after its first as it has
fired and skipped. -/
theorem div_period_eq (h : Balanced log p) {a : Acceptance} (ha : a ∈ acceptances log)
    (hrep : a.request.repeating = true)
    (htimes : ∀ e ∈ p.events ++ cancellations log, e.timestamp < max64) :
    (lastTimestamp log p a.seq - a.first) / a.request.period.toUs =
      tally (·.fires) a.seq log + tally (·.skips) a.seq log := by
  -- A repeating registration is pending or was cancelled, so its event can be found.
  have hexists : ∃ e ∈ p.events ++ cancellations log, e.seq = a.seq := by
    have hbefore := h.once a ha
    rw [hrep, if_pos rfl] at hbefore
    rcases Nat.eq_zero_or_pos (p.count a.seq) with hzero | hpos
    · have hcancelled : 0 < tally (·.cancels) a.seq log := by omega
      obtain ⟨e, he, hseq⟩ := exists_cancellation hcancelled
      exact ⟨e, List.mem_append_right _ he, hseq⟩
    · obtain ⟨e, he, hseq⟩ := Pool.count_pos.mp hpos
      exact ⟨e, List.mem_append_left _ he, hseq⟩
  obtain ⟨e, he, hseq⟩ := hexists
  unfold lastTimestamp
  cases hfind : (p.events ++ cancellations log).find? (·.seq = a.seq) with
  | none =>
    rw [List.find?_eq_none] at hfind
    exact absurd (decide_eq_true hseq) (hfind e he)
  | some last =>
    have hmem := List.mem_of_find?_eq_some hfind
    have hlast : last.seq = a.seq := by simpa using List.find?_some hfind
    have hpos := h.period_pos a ha hrep
    rw [Option.elim_some, h.timestamp_eq ha hrep hmem hlast (htimes last hmem)]
    dsimp only
    rw [Nat.add_sub_cancel_left, Nat.mul_div_cancel_left _ hpos]

/-- How far a registration has come by its `moves`: one step if it fires once and has fired, and as
many as there are periods from its first timestamp to its last if it repeats. -/
theorem moves_eq (h : Balanced log p)
    (htimes : ∀ e ∈ p.events ++ cancellations log, e.timestamp < max64) {a : Acceptance}
    (ha : a ∈ acceptances log) :
    tally (·.moves) a.seq log =
      if a.request.repeating then (lastTimestamp log p a.seq - a.first) / a.request.period.toUs
      else if tally (·.fires) a.seq log == 1 then 1 else 0 := by
  rw [tally_moves]
  cases hrep : a.request.repeating with
  | true =>
    rw [if_pos rfl]
    exact (h.div_period_eq ha hrep htimes).symm
  | false =>
    -- One that fires once has skipped nothing, and has not fired more than once.
    have hbefore := h.once a ha
    rw [hrep] at hbefore
    rw [h.unskipped a ha hrep]
    simp only [Bool.false_eq_true, if_false, beq_iff_eq] at hbefore ⊢
    split <;> omega

/-- The sum of all `moves` is what the registrations that fire once have fired, and the periods that
the repeating ones have come. -/
theorem sum_moves (h : Balanced log p)
    (htimes : ∀ e ∈ p.events ++ cancellations log, e.timestamp < max64) :
    (log.map (·.moves)).sum =
      (acceptances log).countP
          (fun a => !a.request.repeating && tally (·.fires) a.seq log == 1) +
        (((acceptances log).filter (·.request.repeating)).map fun a =>
          (lastTimestamp log p a.seq - a.first) / a.request.period.toUs).sum := by
  -- Each registration counts in one of the two sums.
  have hsplit : ∀ as : List Acceptance, (∀ a ∈ as, a ∈ acceptances log) →
      (as.map fun a => tally (·.moves) a.seq log).sum =
        as.countP (fun a => !a.request.repeating && tally (·.fires) a.seq log == 1) +
          ((as.filter (·.request.repeating)).map fun a =>
            (lastTimestamp log p a.seq - a.first) / a.request.period.toUs).sum := by
    intro as hmem
    induction as with
    | nil => rfl
    | cons a rest ih =>
      rw [List.forall_mem_cons] at hmem
      obtain ⟨ha, hmem⟩ := hmem
      rw [List.map_cons, List.sum_cons, ih hmem, List.countP_cons, List.filter_cons,
        h.moves_eq htimes ha]
      cases a.request.repeating with
      | true =>
        simp only [Bool.not_true, Bool.false_and, Bool.false_eq_true, if_true, if_false,
          List.map_cons, List.sum_cons]
        omega
      | false =>
        simp only [Bool.not_false, Bool.true_and, Bool.false_eq_true, if_false]
        omega
  -- The moves of all registrations are those of the accepted ones, for there are no others.
  rw [← sum_tally (·.moves) h.seq_lt, ← h.numbers, List.map_map]
  exact hsplit _ fun _ ha => ha

end Balanced

namespace Scheduler

variable {H K : Type} {n : Nat} [TimerHardware H] [EventSink K]

/-- What became of everything that was registered in a run that led from `start` to `s`. -/
structure Accounted (start : Scheduler H K n) (log : List Happening) (s : Scheduler H K n) :
    Prop where
  /-- Registrations are numbered in the order in which they were accepted. -/
  numbers : (acceptances log).map (·.seq) = List.range s.pool.nextSeq
  /-- A registration that fires once is pending, has fired or was cancelled, only one of these and
  only once. While it is pending it stays as it was registered. -/
  once : ∀ a ∈ acceptances log, a.request.repeating = false →
    s.pool.count a.seq + tally (·.fires) a.seq log + tally (·.cancels) a.seq log = 1 ∧
      ∀ e ∈ s.pool.events, e.seq = a.seq → e = a.event
  /-- A registration that repeats is pending until it is cancelled, and its event stands as many
  periods after its first due time as it has fired and skipped. -/
  repeating : ∀ a ∈ acceptances log, a.request.repeating = true →
    s.pool.count a.seq + tally (·.cancels) a.seq log = 1 ∧
      ∀ e ∈ s.pool.events ++ cancellations log, e.seq = a.seq →
        e = { a.event with timestamp := a.first + a.request.period.toUs *
          (tally (·.fires) a.seq log + tally (·.skips) a.seq log) }
  /-- The sink was told of what fired. -/
  delivered : s.sink = ((firings log).map (·.event.notice)).foldl EventSink.deliver start.sink
  /-- The statistics count what the sink was told. -/
  eventsFired : s.stats.eventsFired = (firings log).length
  /-- The statistics account for every registration that fired once, and for the way that every
  repeating one has come. -/
  occurrences : s.stats.eventsFired + s.stats.collapsedOccurrences =
    (acceptances log).countP (fun a => !a.request.repeating && tally (·.fires) a.seq log == 1) +
      (((acceptances log).filter (·.request.repeating)).map fun a =>
        (lastTimestamp log s.pool a.seq - a.first) / a.request.period.toUs).sum

/-- In a run in which neither the clock, nor an event, nor a statistic comes to the end of its word,
no occurrence is lost, duplicated or left uncounted, as `Accounted` says. -/
theorem Run.accounted {start s : Scheduler H K n} {log : List Happening} (hfresh : start.Fresh)
    (hrun : Run start log s) (hclock : s.clock.timeUs < max64)
    (htimes : ∀ e ∈ s.pool.events ++ cancellations log, e.timestamp < max64)
    (hfired : s.stats.eventsFired < max64) (hskipped : s.stats.collapsedOccurrences < max64) :
    Accounted start log s := by
  have hbooks := Balanced.of_run hfresh hrun hclock
  obtain ⟨-, hfires, hskips⟩ := hrun.stats hfresh
  -- A count that has not come to the end of its word has never been capped.
  have hfires' : s.stats.eventsFired = (log.map (·.fires)).sum := by
    unfold sat64 at hfires
    omega
  have hskips' : s.stats.collapsedOccurrences = (log.map (·.skips)).sum := by
    unfold sat64 at hskips
    omega
  constructor
  case numbers =>
    exact hbooks.numbers
  case once =>
    intro a ha honce
    have hone := hbooks.once a ha
    rw [honce] at hone
    refine ⟨?_, fun e he hseq => hbooks.eq_event ha honce he hseq⟩
    rw [← hone, Nat.add_right_comm]
    rfl
  case repeating =>
    intro a ha hrep
    have hone := hbooks.once a ha
    rw [hrep] at hone
    exact ⟨hone, fun e he hseq => hbooks.timestamp_eq ha hrep he hseq (htimes e he)⟩
  case delivered =>
    exact hrun.sink
  case eventsFired =>
    rw [hfires', sum_fires]
  case occurrences =>
    rw [← hbooks.sum_moves htimes, hfires', hskips']
    exact List.sum_map_add.symm

/-- An event that repeats every 50 microseconds fires late, is lined up after a sleep of 200, fires
again and is cancelled. Of three events that fire once one fires, one is cancelled and one stays.
The steps are for `bench`. -/
def shortLife : List (Nat × Command) :=
  [(0, .schedule ⟨.us 50, 8, 2, true, .empty⟩), (0, .schedule ⟨.us 100, 7, 1, false, .empty⟩),
    (120, .interrupt .primary), (0, .suspend), (0, .resume 120 200),
    (0, .schedule ⟨.us 40, 9, 3, false, .empty⟩), (10, .interrupt .fallback), (0, .cancel 9 3),
    (0, .schedule ⟨.us 500, 9, 4, false, .empty⟩), (0, .cancel 8 2)]

/-- In `shortLife` the repeating event has fired twice and skipped four occurrences, so it was
cancelled six periods after its first. -/
theorem accounted_shortLife :
    bench.Fresh ∧ Run bench (bench.play shortLife).1 (bench.play shortLife).2 ∧
      (bench.play shortLife).2.clock.timeUs < max64 ∧
      (∀ e ∈ (bench.play shortLife).2.pool.events ++ cancellations (bench.play shortLife).1,
        e.timestamp < max64) ∧
      (bench.play shortLife).2.stats.eventsFired < max64 ∧
      (bench.play shortLife).2.stats.collapsedOccurrences < max64 ∧
      Accounted bench (bench.play shortLife).1 (bench.play shortLife).2 ∧
      tally (·.fires) 0 (bench.play shortLife).1 = 2 ∧
      tally (·.skips) 0 (bench.play shortLife).1 = 4 ∧
      lastTimestamp (bench.play shortLife).1 (bench.play shortLife).2.pool 0 = 350 := by
  have hfresh : bench.Fresh := .inr ⟨_, _, rfl⟩
  have hrun := bench.run_play shortLife
  have hclock : (bench.play shortLife).2.clock.timeUs < max64 := by decide +kernel
  have htimes : ∀ e ∈ (bench.play shortLife).2.pool.events ++
      cancellations (bench.play shortLife).1, e.timestamp < max64 := by decide +kernel
  have hfired : (bench.play shortLife).2.stats.eventsFired < max64 := by decide +kernel
  have hskipped : (bench.play shortLife).2.stats.collapsedOccurrences < max64 := by decide +kernel
  exact ⟨hfresh, hrun, hclock, htimes, hfired, hskipped,
    hrun.accounted hfresh hclock htimes hfired hskipped, by decide +kernel, by decide +kernel,
    by decide +kernel⟩

end Scheduler

end SoftTimer
