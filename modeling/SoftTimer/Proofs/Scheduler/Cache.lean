import SoftTimer.Proofs.History.Run
import SoftTimer.Proofs.Pool.Aging

/-!
# The earliest event is always known

The channels are armed for the event in the slot that the pool remembers, and callers are told of
its time without looking. Looking anew is left out wherever the earliest event cannot have changed:
when a request is refused, when a cancellation finds the remembered slot to be the earliest still,
and when an interrupt is ignored. The slot is right all the same (`exec_cached`).

With that the slot is the earliest in the strict sense, since no two pending events have the same
number. That holds in every run, however late it gets (`Run.numbered`): all that an operation does
to the pool is to let it age, or to take in one event that has the next number (`exec_pool`). The
main statement is `Run.foresees`.
-/

namespace SoftTimer

namespace Pool

variable {n : Nat} {p : Pool n}

/-- The event of the remembered slot of a `Cached` pool is the one that `first?` chooses among all.
-/
theorem Cached.nextEvent?_eq (hcached : p.Cached) :
    p.nextEvent? = (p.first? fun _ => true).map (·.2) := by
  unfold nextEvent?
  rw [hcached, earliest, earliestMatching]
  cases hfirst : p.first? fun _ => true with
  | none => rfl
  | some found => exact (first?_sound hfirst).1

/-- The remembered slot of a `Cached` and `Distinct` pool is that of the one event whose `key` is
smaller than all others. -/
theorem Cached.next_eq_some (hcached : p.Cached) (hdistinct : p.Distinct) (slot : Nat) :
    p.next = some slot ↔
      ∃ e, p.get? slot = some e ∧ ∀ i e', p.get? i = some e' → i ≠ slot → e.key < e'.key := by
  rw [hcached, earliest, earliestMatching_eq_some_iff hdistinct]
  constructor
  · rintro ⟨e, hleads⟩
    exact ⟨e, hleads.get?, fun i e' hi hne => hleads.key_lt hi rfl hne⟩
  · rintro ⟨e, hget, hleast⟩
    exact ⟨e, hget, rfl, fun i e' hi _ hne => hleast i e' hi hne⟩

/-- The timestamp of the remembered event of a `Cached` pool is the smallest of all. -/
theorem Cached.nextTime?_eq (hcached : p.Cached) :
    p.nextEvent?.map (·.timestamp) = (p.events.map (·.timestamp)).min? := by
  have hall : p.events.filter (fun _ => true) = p.events := List.filter_true _
  rw [hcached.nextEvent?_eq, Option.map_map, ← hall]
  exact p.first?_timestamp fun _ => true

end Pool

namespace Scheduler

variable {H K : Type} {n : Nat} [TimerHardware H] [EventSink K] {s : Scheduler H K n}

/-! ## What an operation does to the pool -/

omit [EventSink K] in
/-- `register` adds the event of a request that it grants, and otherwise lets the pool age. -/
theorem register_pool (r : Request) (s : Scheduler H K n) :
    s.pool.Ages (register r s).2.pool ∨
      Pool.Happens s.sync.clock.timeUs (.accepted ⟨s.sync.clock.timeUs, r, s.pool.nextSeq⟩) s.pool
        (register r s).2.pool := by
  rcases register_cases r s with ⟨-, -, hact⟩ | ⟨-, reason, -, hact⟩ |
    ⟨hgood, slot, p, hinsert, hact⟩
  · rw [hact]
    exact .inl (.refl _)
  · rw [hact]
    refine .inl ?_
    show s.pool.Ages s.sync.pool
    rw [s.sync_same.pool]
    exact .refl _
  · obtain ⟨hslot, hfree, hseq, hput⟩ := Pool.insert_eq_ok hinsert
    rw [hact, rearm_pool]
    exact .inr (.accepted rfl hgood rfl hslot hfree hput hseq)

/-- An `interrupt` lets the pool age. -/
theorem interrupt_ages (source : InterruptSource) (s : Scheduler H K n) :
    s.pool.Ages (s.interrupt source).2.pool := by
  cases hactive : s.suspended with
  | true =>
    show s.pool.Ages (handle source s.entered).2.pool
    rw [handle_of_suspended (s := s.entered) source hactive]
    exact .refl _
  | false =>
    rw [(interrupt_of_active source hactive).2.1]
    exact (s.pool.ages_drain s.config s.timeUs.1).trans (Pool.ages_recompute _)

/-- A `Command` lets the pool age, or is a request that is granted and adds its event. -/
theorem exec_pool (s : Scheduler H K n) (c : Command) :
    s.pool.Ages (s.exec c).2.pool ∨ ∃ request, c = .schedule request ∧
      Pool.Happens s.timeUs.1 (.accepted ⟨s.timeUs.1, request, s.pool.nextSeq⟩) s.pool
        (s.exec c).2.pool := by
  -- Reading the time changes no event.
  have hread : ∀ {p : Pool n}, p = s.pool → s.pool.Ages p := by
    rintro p rfl
    exact .refl _
  cases c with
  | timeMs => exact .inl (hread (arms_sameBut.timeMs s).pool)
  | timeUs => exact .inl (hread (arms_sameBut.timeUs s).pool)
  | schedule request =>
    rcases register_pool request s.entered with hages | haccepted
    · exact .inl hages
    · exact .inr ⟨request, rfl, haccepted⟩
  | cancel ident value =>
    refine .inl ?_
    show s.pool.Ages (withdraw ident value s.entered).2.pool
    rw [withdraw_eq]
    dsimp only
    split
    · rw [rearm_pool]
      exact (s.pool.ages_releaseAll _).trans (Pool.ages_recompute _)
    · exact s.pool.ages_releaseAll _
  | rearm =>
    refine .inl ?_
    show s.pool.Ages s.entered.rearm.pool
    rw [rearm_pool]
    exact s.pool.ages_recompute
  | interrupt source => exact .inl (interrupt_ages source s)
  | compareMatch channel =>
    refine .inl ?_
    show s.pool.Ages (s.compareMatch channel).2.pool
    unfold Scheduler.compareMatch
    split
    · exact interrupt_ages _ s
    · exact .refl _
  | wait span => exact .inl (hread (arms_sameBut.wait span s).pool)
  | suspend => exact .inl (hread s.entered.sync_same.pool)
  | resume counter elapsedUs =>
    refine .inl ?_
    show s.pool.Ages (takeBack counter elapsedUs s.entered).2.pool
    unfold takeBack
    dsimp only
    rw [rearm_pool]
    exact (s.pool.ages_alignAll (s.restart counter elapsedUs).clock.timeUs_le).trans
      (Pool.ages_recompute _)

/-- A `Command` leaves the pool `Numbered`. -/
theorem exec_numbered (hnumbered : s.pool.Numbered) (c : Command) :
    (s.exec c).2.pool.Numbered := by
  rcases s.exec_pool c with hages | ⟨request, -, haccepted⟩
  · exact hages.numbered hnumbered
  · exact haccepted.numbered hnumbered

/-! ## The remembered slot -/

/-- A `Command` leaves the pool `Cached`. -/
theorem exec_cached (hcached : s.pool.Cached) (c : Command) : (s.exec c).2.pool.Cached := by
  have hinterrupt : ∀ source, (s.interrupt source).2.pool.Cached := fun source => by
    show (handle source s.entered).2.pool.Cached
    cases hactive : s.suspended with
    | true =>
      rw [handle_of_suspended (s := s.entered) source hactive]
      exact hcached
    | false =>
      rw [handle_of_active (s := s.entered) source hactive]
      exact rearm_cached _
  have hsync : s.entered.sync.pool.Cached := by
    rw [s.entered.sync_same.pool]
    exact hcached
  cases c with
  | timeMs => exact hsync
  | timeUs => exact hsync
  | schedule request =>
    show (register request s.entered).2.pool.Cached
    rcases register_cases request s.entered with ⟨-, -, hact⟩ | ⟨-, reason, -, hact⟩ |
      ⟨-, slot, p, -, hact⟩
    · rw [hact]
      exact hcached
    · rw [hact]
      exact hsync
    · rw [hact]
      exact rearm_cached _
  | cancel ident value =>
    show (withdraw ident value s.entered).2.pool.Cached
    obtain ⟨p, -, ⟨-, hkept, hact⟩ | ⟨-, hact⟩⟩ :=
      withdraw_cases (s := s.entered) ident value hcached
    · rw [hact]
      exact hkept
    · rw [hact]
      exact rearm_cached _
  | rearm => exact s.entered.rearm_cached
  | interrupt source => exact hinterrupt source
  | compareMatch channel =>
    show (s.compareMatch channel).2.pool.Cached
    unfold Scheduler.compareMatch
    split
    · exact hinterrupt _
    · exact hcached
  | wait span =>
    have hpool : (s.wait span).2.pool = s.pool := (arms_sameBut.wait span s).pool
    show (s.wait span).2.pool.Cached
    rw [hpool]
    exact hcached
  | suspend => exact hsync
  | resume counter elapsedUs => exact rearm_cached _

omit [EventSink K] in
/-- The pool of a `Fresh` scheduler is `Cached`. -/
theorem Fresh.cached (hfresh : s.Fresh) : s.pool.Cached := by
  obtain ⟨hw, sink, config, -, rfl⟩ := hfresh.eq_begin
  exact (ofHardware hw sink config).entered.rearm_cached

/-! ## Runs -/

namespace Run

variable {start : Scheduler H K n} {log : List Happening}

/-- The pool of a run from a `Fresh` scheduler is `Numbered`. -/
theorem numbered (hfresh : start.Fresh) (hrun : Run start log s) : s.pool.Numbered := by
  induction hrun with
  | start => exact hfresh.pool.numbered Pool.numbered_empty
  | move hw _ ih => exact ih
  | exec c _ ih => exact exec_numbered ih c

/-- The pool of a run from a `Fresh` scheduler is `Cached`. -/
theorem cached (hfresh : start.Fresh) (hrun : Run start log s) : s.pool.Cached := by
  induction hrun with
  | start => exact hfresh.cached
  | move hw _ ih => exact ih
  | exec c _ ih => exact exec_cached ih c

end Run

omit [TimerHardware H] [EventSink K] in
/-- `nextEventTime?` gives no time exactly when nothing is pending, for a `Cached` pool. -/
theorem nextEventTime?_eq_none (hcached : s.pool.Cached) :
    s.nextEventTime? = none ↔ s.pending = 0 := by
  unfold nextEventTime? pending Pool.size
  rw [hcached.nextTime?_eq, List.min?_eq_none_iff, List.map_eq_nil_iff, List.length_eq_zero_iff]
  exact List.map_eq_nil_iff

/-- The scheduler knows what comes first: in which slot it is, and the time that `nextEventTime?`
gives. -/
structure Foresees (s : Scheduler H K n) : Prop where
  /-- The slot remembered is the one that would be found. -/
  cached : s.pool.next = s.pool.earliest
  /-- The remembered slot is that of the event whose timestamp and number are the smallest. -/
  slot : ∀ slot, s.pool.next = some slot ↔ ∃ e, s.pool.get? slot = some e ∧
    ∀ i e', s.pool.get? i = some e' → i ≠ slot →
      e.timestamp < e'.timestamp ∨ e.timestamp = e'.timestamp ∧ e.seq < e'.seq
  /-- There is no time to wait for exactly when nothing is pending. -/
  none_iff : s.nextEventTime? = none ↔ s.pending = 0
  /-- The time to wait for is the smallest timestamp of all that is pending. -/
  time : s.nextEventTime? = (s.pool.events.map (·.timestamp)).min?

/-- A scheduler `Foresees` what comes first after any run, whatever its counter shows. -/
theorem Run.foresees {start : Scheduler H K n} {log : List Happening} (hfresh : start.Fresh)
    (hrun : Run start log s) : Foresees s := by
  have hcached := hrun.cached hfresh
  have hdistinct := (hrun.numbered hfresh).distinct
  constructor
  case cached => exact hcached
  case slot =>
    intro slot
    simp only [hcached.next_eq_some hdistinct, Event.key_lt_key]
  case none_iff => exact nextEventTime?_eq_none hcached
  case time => exact hcached.nextTime?_eq

/-- Steps for `bench`: three events come to be due at 100, the later two asked for in the same
microsecond. A fourth finds the pool full, a fifth would repeat with no time in between, and a
cancellation finds nothing. After the first of the events is cancelled, time tracking is handed
over, an interrupt is ignored and a cancellation finds a later event. -/
def crowded : List (Nat × Command) :=
  [(0, .schedule ⟨.us 100, 7, 1, false, .empty⟩), (40, .schedule ⟨.us 60, 8, 2, false, .empty⟩),
    (0, .schedule ⟨.us 60, 9, 3, true, .empty⟩), (0, .schedule ⟨.us 10, 6, 4, false, .empty⟩),
    (0, .schedule ⟨.us 0, 6, 4, true, .empty⟩), (0, .cancel 5 5), (0, .cancel 7 1), (0, .suspend),
    (90, .interrupt .primary), (0, .cancel 9 3)]

/-- After `crowded` the second event is left, in the second slot. -/
theorem foresees_crowded :
    bench.Fresh ∧ Run bench (bench.play crowded).1 (bench.play crowded).2 ∧
      Foresees (bench.play crowded).2 ∧ (bench.play crowded).2.pending = 1 ∧
      (bench.play crowded).2.pool.next = some 1 ∧
      (bench.play crowded).2.nextEventTime? = some 100 := by
  have hfresh : bench.Fresh := .inr ⟨_, _, rfl⟩
  have hrun := bench.run_play crowded
  exact ⟨hfresh, hrun, hrun.foresees hfresh, by decide +kernel, by decide +kernel,
    by decide +kernel⟩

end Scheduler

end SoftTimer
