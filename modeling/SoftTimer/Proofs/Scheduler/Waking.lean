import SoftTimer.Proofs.Dispatch.Punctual
import SoftTimer.Proofs.Dispatch.Resume

/-!
# What wakes the device

One pass over the slots chooses the event that leads all those accepted, and with distinct numbers
there is only one such event, wherever it stands (`Pool.Selects`). Before deep sleep the device asks
for the time of the earliest event that may wake it. When time tracking is taken back all due events
are lined up, which leaves them due (`Pool.exists_wakes_alignAll`), so the device finds such an
event due exactly if that time has come by then.

The main statement is `Run.chooses`. It holds whatever is done between the two moments, as long as
time tracking stays handed over.
-/

namespace SoftTimer

/-- `align` does not change whether an event may wake the device. -/
theorem Event.wakes_align (e : Event) (now : Nat) : (e.align now).2.wakes = e.wakes := by
  rw [align_same]
  rfl

namespace Pool

variable {n : Nat} {p : Pool n}

/-- How `earliestMatching` chooses an event from a pool. -/
structure Selects (p : Pool n) : Prop where
  /-- No slot is chosen exactly when no pending event is accepted. -/
  none_iff : ∀ accept, p.earliestMatching accept = none ↔
    ∀ slot e, p.get? slot = some e → accept e = false
  /-- A slot is chosen exactly when its event is accepted and leads all others that are. -/
  some_iff : ∀ accept slot, p.earliestMatching accept = some slot ↔ ∃ e, p.Leads accept slot e
  /-- Only one event leads. -/
  unique : ∀ accept slot slot' e e', p.Leads accept slot e → p.Leads accept slot' e' →
    slot' = slot ∧ e' = e
  /-- The event chosen is the same when the events stand in other slots, in a pool of any size. -/
  relocated : ∀ {m : Nat} (q : Pool m) (σ : Equiv.Perm Nat),
    (∀ slot, q.get? (σ slot) = p.get? slot) → ∀ accept,
      q.earliestMatching accept = (p.earliestMatching accept).map σ ∧
        (q.earliestMatching accept).bind q.get? = (p.earliestMatching accept).bind p.get?
  /-- The earliest event, if it is due, is the earliest of those that are due. -/
  due : ∀ now, p.earliestDue now = p.earliestMatching (·.isDue now)

/-- A pool that is `Distinct` has one event to choose, as `Selects` says. -/
theorem Distinct.selects (hdistinct : p.Distinct) : p.Selects := by
  constructor
  case none_iff =>
    intro accept
    unfold earliestMatching
    rw [Option.map_eq_none_iff, first?_eq_none]
  case some_iff =>
    intro accept slot
    exact earliestMatching_eq_some_iff hdistinct
  case unique =>
    intro accept slot slot' e e' h h'
    exact h.unique h'
  case relocated =>
    intro m q σ hmoved accept
    have hslot : q.earliestMatching accept = (p.earliestMatching accept).map σ := by
      unfold earliestMatching
      rw [first?_relocate hdistinct σ hmoved, Option.map_map, Option.map_map]
      rfl
    refine ⟨hslot, ?_⟩
    rw [hslot, Option.bind_map]
    congr 1
    funext slot
    exact hmoved slot
  case due => exact earliestDue_eq hdistinct

/-! ## Events that may wake the device -/

/-- `wakeTime?` is the smallest timestamp of the events that may wake the device. -/
theorem wakeTime?_eq (p : Pool n) :
    p.wakeTime? = ((p.events.filter (·.wakes)).map (·.timestamp)).min? :=
  p.first?_timestamp Event.wakes

/-- `wakeTime?` has come exactly when an event is due that may wake the device. -/
theorem exists_wakeTime?_le {now : Nat} :
    (∃ time, p.wakeTime? = some time ∧ time ≤ now) ↔
      ∃ slot e, p.get? slot = some e ∧ e.wakes = true ∧ e.timestamp ≤ now := by
  unfold wakeTime?
  constructor
  · rintro ⟨time, htime, hle⟩
    obtain ⟨⟨slot, e⟩, hfirst, rfl⟩ := Option.map_eq_some_iff.mp htime
    obtain ⟨hget, hwakes⟩ := first?_sound hfirst
    exact ⟨slot, e, hget, hwakes, hle⟩
  · rintro ⟨slot, e, hget, hwakes, hle⟩
    cases hfirst : p.first? Event.wakes with
    | none =>
      have hnever := first?_eq_none.mp hfirst slot e hget
      rw [hwakes] at hnever
      cases hnever
    | some found =>
      obtain ⟨i, first⟩ := found
      have hearlier := Event.timestamp_le_of_key_le (first?_le hfirst hget hwakes)
      exact ⟨first.timestamp, rfl, Nat.le_trans hearlier hle⟩

/-- `alignAll` leaves an event due that may wake the device exactly if there was one. -/
theorem exists_wakes_alignAll (p : Pool n) (now : Nat) :
    (∃ slot e, (p.alignAll now).2.get? slot = some e ∧ e.wakes = true ∧ e.timestamp ≤ now) ↔
      ∃ slot e, p.get? slot = some e ∧ e.wakes = true ∧ e.timestamp ≤ now := by
  have hget : ∀ slot, (p.alignAll now).2.get? slot = (p.get? slot).map fun e => (e.align now).2 :=
    get?_map _ p
  constructor
  · rintro ⟨slot, e', he', hwakes, hle⟩
    rw [hget] at he'
    obtain ⟨e, he, rfl⟩ := Option.map_eq_some_iff.mp he'
    exact ⟨slot, e, he, e.wakes_align now ▸ hwakes, (e.timestamp_align_le now).mp hle⟩
  · rintro ⟨slot, e, he, hwakes, hle⟩
    refine ⟨slot, (e.align now).2, ?_, (e.wakes_align now).trans hwakes,
      (e.timestamp_align_le now).mpr hle⟩
    rw [hget, he]
    rfl

end Pool

namespace Scheduler

variable {H K : Type} {n : Nat} [TimerHardware H] {s asleep : Scheduler H K n}

/-! ## From falling asleep to waking -/

/-- `resume` lines up what is due at the time at which the clock is set going, and nothing else in
the pool. -/
theorem resume_pool (counter elapsedUs : Nat) (s : Scheduler H K n) :
    (s.resume counter elapsedUs).2.pool =
      (s.pool.alignAll (s.restart counter elapsedUs).clock.timeUs).2.recompute := by
  show (takeBack counter elapsedUs s.entered).2.pool = _
  unfold takeBack
  dsimp only
  rw [rearm_pool]
  rfl

variable [EventSink K] {start : Scheduler H K n} {log : List Happening}

/-- The clock of a scheduler that is `Asleep` is that of the scheduler just after `suspend`. -/
theorem Asleep.clock_eq (hasleep : Asleep s asleep) :
    asleep.suspended = true ∧ asleep.clock = s.suspend.2.clock := by
  induction hasleep with
  | suspend => exact ⟨rfl, rfl⟩
  | move hw _ ih => exact ih
  | exec c hc _ ih =>
    obtain ⟨hw, -, hidle⟩ := exec_idle ih.1 hc
    exact ⟨hidle.suspended.trans ih.1, hidle.clock.trans ih.2⟩

/-- A scheduler of a run is still one when it is `Asleep`. -/
theorem Asleep.run (hrun : Run start log s) (hasleep : Asleep s asleep) :
    ∃ log', Run start log' asleep := by
  induction hasleep with
  | suspend => exact ⟨_, hrun.exec .suspend⟩
  | move hw _ ih =>
    obtain ⟨log', hrun'⟩ := ih
    exact ⟨log', hrun'.move hw⟩
  | exec c _ _ ih =>
    obtain ⟨log', hrun'⟩ := ih
    exact ⟨_, hrun'.exec c⟩

/-- What a scheduler knows of the events that may wake the device, by `nextWakeTime?`. -/
structure Wakes (s : Scheduler H K n) : Prop where
  /-- The time to wake at is the smallest timestamp of these events, and the others do not matter.
  -/
  time : s.nextWakeTime? = ((s.pool.events.filter (·.wakes)).map (·.timestamp)).min?
  /-- The clock is set going at the time of the snapshot and what has passed since. -/
  resumes : ∀ asleep, Asleep s asleep → ∀ counter elapsedUs,
    (asleep.restart counter elapsedUs).clock.timeUs =
      min (s.suspend.1.timeUs + elapsedUs) max64
  /-- At that time one of these events is due exactly if the time to wake at has come, as it was
  known before. -/
  due : ∀ asleep, Asleep s asleep → ∀ counter elapsedUs,
    (∃ slot e, (asleep.resume counter elapsedUs).2.pool.get? slot = some e ∧ e.wakes = true ∧
        e.timestamp ≤ (asleep.restart counter elapsedUs).clock.timeUs) ↔
      ∃ time, asleep.nextWakeTime? = some time ∧ time ≤ s.suspend.1.timeUs + elapsedUs

/-- A `Distinct` pool has one event to choose, the one that leads, and in every run the device is
woken for the earliest of the events that may wake it. -/
theorem Run.chooses :
    (∀ {n : Nat} {p : Pool n}, p.Distinct → p.Selects) ∧
      ∀ {start s : Scheduler H K n} {log : List Happening}, start.Fresh → Run start log s →
        Wakes s := by
  refine ⟨fun hdistinct => hdistinct.selects, fun {start s log} hfresh hrun => ?_⟩
  have hresumes : ∀ asleep, Asleep s asleep → ∀ counter elapsedUs,
      (asleep.restart counter elapsedUs).clock.timeUs =
        min (s.suspend.1.timeUs + elapsedUs) max64 := by
    intro asleep hasleep counter elapsedUs
    show sat64 (asleep.clock.timeUs + elapsedUs) = _
    rw [hasleep.clock_eq.2]
    rfl
  constructor
  case time => exact s.pool.wakeTime?_eq
  case resumes => exact hresumes
  case due =>
    intro asleep hasleep counter elapsedUs
    obtain ⟨log', hrun'⟩ := hasleep.run hrun
    have hpool := asleep.resume_pool counter elapsedUs
    simp only [hpool, Pool.get?_recompute]
    rw [Pool.exists_wakes_alignAll, ← Pool.exists_wakeTime?_le, hresumes asleep hasleep]
    -- No event is due beyond the end of time, where the clock stops.
    refine exists_congr fun time => and_congr_right fun htime => ?_
    obtain ⟨⟨slot, e⟩, hfirst, rfl⟩ := Option.map_eq_some_iff.mp htime
    have hfits := (hrun'.pool_fits hfresh (Pool.first?_sound hfirst).1).timestamp_le
    exact ⟨fun h => Nat.le_trans h (Nat.min_le_left _ _), fun h => Nat.le_min.mpr ⟨h, hfits⟩⟩

/-- Steps for `bench`: two events that may wake the device are due at the same time, the older one
in the higher slot. Another is due before them, which may not wake it. -/
def vigil : List (Nat × Command) :=
  [(0, .schedule ⟨.us 90, 7, 1, false, .empty⟩), (0, .schedule ⟨.us 200, 8, 2, false, .empty⟩),
    (0, .schedule ⟨.us 300, 9, 3, true, .wakeup⟩), (0, .cancel 7 1),
    (20, .schedule ⟨.us 280, 6, 4, false, .wakeup⟩)]

/-- After `vigil` time tracking is handed over 20 microseconds after the first reading. After 280
more the device is woken, and not one before. -/
theorem chooses_vigil :
    bench.Fresh ∧ Run bench (bench.play vigil).1 (bench.play vigil).2 ∧
      (bench.play vigil).2.pool.Selects ∧ Wakes (bench.play vigil).2 ∧
      (bench.play vigil).2.pool.earliest = some 1 ∧
      (bench.play vigil).2.pool.earliestMatching (·.wakes) = some 2 ∧
      (bench.play vigil).2.suspend.1.timeUs = 20 ∧
      (bench.play vigil).2.suspend.2.nextWakeTime? = some 300 ∧
      (((bench.play vigil).2.suspend.2.resume 20 279).2.pool.earliestMatching fun e =>
        e.wakes && e.isDue 299) = none ∧
      (((bench.play vigil).2.suspend.2.resume 20 280).2.pool.earliestMatching fun e =>
        e.wakes && e.isDue 300) = some 2 := by
  have hfresh : bench.Fresh := .inr ⟨_, _, rfl⟩
  have hrun := bench.run_play vigil
  have hdistinct : (bench.play vigil).2.pool.Distinct := by decide +kernel
  obtain ⟨hselects, hwakes⟩ := Run.chooses (H := SimTimer) (K := Recorder) (n := 3)
  exact ⟨hfresh, hrun, hselects hdistinct, hwakes hfresh hrun, by decide +kernel, by decide +kernel,
    by decide +kernel, by decide +kernel, by decide +kernel, by decide +kernel⟩

end Scheduler

end SoftTimer
