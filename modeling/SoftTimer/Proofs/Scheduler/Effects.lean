import SoftTimer.Scheduler.Command
import SoftTimer.Proofs.Dispatch.Drain

/-!
# What the operations do

One statement for each operation of a scheduler on any hardware, about everything but the hardware.
The parts come first: entering and leaving a masked section, bringing the clock up to date, and
arming the channels change nothing but what they are for (`arms_sameBut`). The time that an
operation finds is the one that reading the clock at that point would give (`Scheduler.timeUs`), and
it never goes back (`arms_timeUs_le`).

A relation between schedulers that these parts keep to is kept to by all that is made of them
(`Reads`, `Arms`), so that each is looked at once, whatever the relation.
-/

namespace SoftTimer

namespace Clock

/-- `advanceUs` never takes time away. -/
theorem timeUs_le_advanceUs (c : Clock) (us : Nat) : c.timeUs ≤ (c.advanceUs us).timeUs := by
  show c.timeUs ≤ sat64 (c.timeUs + us)
  exact Nat.le_min.mpr ⟨Nat.le_add_right _ _, c.timeUs_le⟩

/-- `sync` never takes time away from a clock. -/
theorem timeUs_le_sync (c : Clock) (raw : Nat) : c.timeUs ≤ (c.sync raw).timeUs :=
  timeUs_le_advanceUs _ _

end Clock

namespace Scheduler

variable {H K : Type} {n : Nat} [TimerHardware H]

/-! ## Masked sections -/

/-- The scheduler after `enter`, at the beginning of a masked section. -/
def entered (s : Scheduler H K n) : Scheduler H K n := { s with hw := (IrqMask.enter s.hw).2 }

section Masked

variable {α : Type} (act : Scheduler H K n → α × Scheduler H K n) (s : Scheduler H K n)

/-- `masked` does the action to the scheduler on masked hardware, and restores the interrupts
afterwards. -/
theorem masked_eq : masked act s = ((act s.entered).1,
    { (act s.entered).2 with
      hw := IrqMask.leave (IrqMask.enter s.hw).1 (act s.entered).2.hw }) := rfl

theorem masked_fst : (masked act s).1 = (act s.entered).1 := rfl

theorem masked_sink : (masked act s).2.sink = (act s.entered).2.sink := rfl

theorem masked_clock : (masked act s).2.clock = (act s.entered).2.clock := rfl

theorem masked_pool : (masked act s).2.pool = (act s.entered).2.pool := rfl

theorem masked_stats : (masked act s).2.stats = (act s.entered).2.stats := rfl

end Masked

/-! ## Relations that reading and arming keep to

Reading the time and arming the channels are made of a few parts. What relates a scheduler to what
each part makes of it relates it to what the whole makes of it, if it can be chained.
-/

section Relations

variable {R : Scheduler H K n → Scheduler H K n → Prop}

/-- A relation that bringing the clock up to date in a masked section keeps to. -/
structure Reads (R : Scheduler H K n → Scheduler H K n → Prop) : Prop where
  /-- The relation holds of a scheduler that has not changed. -/
  refl : ∀ s, R s s
  /-- The relation can be chained. -/
  trans : ∀ {s s' s''}, R s s' → R s' s'' → R s s''
  /-- Entering a masked section keeps to it. -/
  enter : ∀ s : Scheduler H K n, R s s.entered
  /-- Leaving a masked section keeps to it. -/
  leave : ∀ (restore : Bool) (s : Scheduler H K n), R s { s with hw := IrqMask.leave restore s.hw }
  /-- Bringing the clock up to date keeps to it. -/
  sync : ∀ s, R s s.sync

/-- A relation that arming a channel keeps to as well, so that `rearm` does. -/
structure Arms (R : Scheduler H K n → Scheduler H K n → Prop) : Prop extends Reads R where
  /-- Arming a channel keeps to it. -/
  arm : ∀ (s : Scheduler H K n) (channel ticks : Nat), R s (s.armAhead channel ticks)

namespace Reads

/-- A masked section keeps to a relation of `Reads` if what is done inside does. -/
theorem masked {α : Type} {act : Scheduler H K n → α × Scheduler H K n} {s : Scheduler H K n}
    (h : Reads R) (hact : R s.entered (act s.entered).2) : R s (masked act s).2 :=
  h.trans (h.trans (h.enter s) hact) (h.leave _ _)

/-- `timeUs` keeps to a relation of `Reads`. -/
theorem timeUs (h : Reads R) (s : Scheduler H K n) : R s s.timeUs.2 := h.masked (h.sync s.entered)

/-- `timeMs` keeps to a relation of `Reads`. -/
theorem timeMs (h : Reads R) (s : Scheduler H K n) : R s s.timeMs.2 := h.masked (h.sync s.entered)

/-- `pollUntil` keeps to a relation of `Reads`, for any number of readings. -/
theorem pollUntil (h : Reads R) (start us readings : Nat) (s : Scheduler H K n) :
    R s (pollUntil start us readings s).2 := by
  induction readings generalizing s with
  | zero => exact h.refl s
  | succ readings ih =>
    unfold Scheduler.pollUntil
    dsimp only
    split
    · exact h.trans (h.timeUs s) (ih s.timeUs.2)
    · exact h.timeUs s

/-- `wait` keeps to a relation of `Reads`. -/
theorem wait (h : Reads R) (span : Span) (s : Scheduler H K n) : R s (s.wait span).2 := by
  unfold Scheduler.wait waitUs
  split
  · exact h.refl s
  · exact h.trans (h.timeUs s) (h.pollUntil _ _ _ s.timeUs.2)

end Reads

namespace Arms

/-- `armPrimary` keeps to a relation of `Arms`, whether it arms the channel or not. -/
theorem armPrimary (h : Arms R) (s : Scheduler H K n) : R s s.armPrimary := by
  unfold Scheduler.armPrimary
  split
  · exact h.arm s _ _
  · exact h.refl s

/-- `rearm` keeps to a relation of `Arms`, from the scheduler that has looked for its earliest
event. -/
theorem rearm (h : Arms R) (s : Scheduler H K n) : R s.refresh s.rearm := by
  unfold Scheduler.rearm
  split
  · exact h.refl _
  · have hprimary := h.trans (h.sync s.refresh) (h.armPrimary s.refresh.sync)
    exact h.trans hprimary (h.arm _ _ _)

end Arms

end Relations

/-! ## What reading and arming leave alone -/

/-- Everything but the hardware and the clock is the same. -/
structure SameBut (s s' : Scheduler H K n) : Prop where
  sink : s'.sink = s.sink
  pool : s'.pool = s.pool
  config : s'.config = s.config
  stats : s'.stats = s.stats
  fallbackTicks : s'.fallbackTicks = s.fallbackTicks
  suspended : s'.suspended = s.suspended

/-- Reading the time and arming the channels leave the scheduler `SameBut` for the hardware and the
clock. -/
theorem arms_sameBut : Arms (SameBut : Scheduler H K n → Scheduler H K n → Prop) where
  refl _ := ⟨rfl, rfl, rfl, rfl, rfl, rfl⟩
  trans h h' := ⟨h'.sink.trans h.sink, h'.pool.trans h.pool, h'.config.trans h.config,
    h'.stats.trans h.stats, h'.fallbackTicks.trans h.fallbackTicks,
    h'.suspended.trans h.suspended⟩
  enter _ := ⟨rfl, rfl, rfl, rfl, rfl, rfl⟩
  leave _ _ := ⟨rfl, rfl, rfl, rfl, rfl, rfl⟩
  sync s := by
    unfold sync
    split <;> exact ⟨rfl, rfl, rfl, rfl, rfl, rfl⟩
  arm _ _ _ := ⟨rfl, rfl, rfl, rfl, rfl, rfl⟩

/-- Reading the time and arming the channels do not take time back. -/
theorem arms_timeUs_le :
    Arms fun s s' : Scheduler H K n => s.clock.timeUs ≤ s'.clock.timeUs where
  refl _ := Nat.le_refl _
  trans := Nat.le_trans
  enter _ := Nat.le_refl _
  leave _ _ := Nat.le_refl _
  sync s := by
    unfold sync
    split
    · exact Nat.le_refl _
    · exact s.clock.timeUs_le_sync _
  arm _ _ _ := Nat.le_refl _

/-- `sync` leaves the scheduler `SameBut` for the clock and the hardware. -/
theorem sync_same (s : Scheduler H K n) : SameBut s s.sync := arms_sameBut.sync s

/-- `sync` does not take time back. -/
theorem timeUs_le_sync (s : Scheduler H K n) : s.clock.timeUs ≤ s.sync.clock.timeUs :=
  arms_timeUs_le.sync s

@[simp] theorem armPrimary_clock (s : Scheduler H K n) : s.armPrimary.clock = s.clock := by
  unfold armPrimary
  split <;> rfl

/-- `rearm` leaves the scheduler `SameBut` for the clock and the hardware, once it has looked for
its earliest event. -/
theorem rearm_same (s : Scheduler H K n) : SameBut s.refresh s.rearm := arms_sameBut.rearm s

/-- `rearm` does not take time back. -/
theorem timeUs_le_rearm (s : Scheduler H K n) : s.clock.timeUs ≤ s.rearm.clock.timeUs :=
  arms_timeUs_le.rearm s

theorem rearm_pool (s : Scheduler H K n) : s.rearm.pool = s.pool.recompute := s.rearm_same.pool

/-- `rearm` leaves the pool `Cached`. -/
theorem rearm_cached (s : Scheduler H K n) : s.rearm.pool.Cached := by
  rw [rearm_pool]
  exact Pool.cached_recompute _

theorem rearm_sink (s : Scheduler H K n) : s.rearm.sink = s.sink := s.rearm_same.sink

theorem rearm_stats (s : Scheduler H K n) : s.rearm.stats = s.stats := s.rearm_same.stats

/-- The time that `timeUs` reads is not before the last time known. -/
theorem timeUs_le_timeUs (s : Scheduler H K n) : s.clock.timeUs ≤ s.timeUs.1 :=
  s.entered.timeUs_le_sync

/-! ## Construction -/

/-- A `do` block that tries something and then throws on a condition, as one `bind`. -/
theorem bind_guard {ε α β : Type} (x : Except ε β) (c : Prop) [Decidable c] (reason : ε) (a : α) :
    (do
      let _ ← x
      if c then
        throw reason
      return a : Except ε α) = x.bind fun _ => if c then .error reason else .ok a := by
  cases x with
  | error => rfl
  | ok =>
    dsimp only [bind, Except.bind]
    split <;> rfl

/-- `new` makes a scheduler only of a valid configuration whose least distance is not longer than
the fallback distance. -/
theorem new_eq_ok {hw : H} {sink : K} {config : Config} {s : Scheduler H K n}
    (h : new hw sink config = .ok s) :
    config.validate = .ok () ∧
      config.minArmTicks ≤ (ofHardware hw sink config : Scheduler H K n).fallbackTicks ∧
      s = (ofHardware hw sink config).begin := by
  unfold new at h
  rw [bind_guard] at h
  cases hvalid : config.validate with
  | error reason =>
    rw [hvalid] at h
    cases h
  | ok valid =>
    rw [hvalid, Except.bind] at h
    split at h
    · cases h
    · next hlong =>
      cases h
      exact ⟨rfl, Nat.le_of_not_lt hlong, rfl⟩

/-! ## Events -/

/-- `register` refuses a request that makes no sense at once, and one that finds the pool full after
the clock is brought up to date. Any other takes a free slot, and the channels are armed. -/
theorem register_cases (r : Request) (s : Scheduler H K n) :
    (r.repeating = true ∧ r.period.toUs = 0 ∧ register r s = s.reject .invalidParameter) ∨
    ((r.repeating = true → 0 < r.period.toUs) ∧ ∃ reason,
      s.pool.insert (r.registration s.sync.clock.timeUs) = .error reason ∧
        register r s = s.sync.reject reason) ∨
    ((r.repeating = true → 0 < r.period.toUs) ∧ ∃ slot p,
      s.pool.insert (r.registration s.sync.clock.timeUs) = .ok (slot, p) ∧
        register r s = (.ok (), { s.sync with pool := p }.rearm)) := by
  unfold register
  by_cases hbad : (r.repeating && r.period.toUs == 0) = true
  · have hboth : r.repeating = true ∧ r.period.toUs = 0 := by simpa using hbad
    exact .inl ⟨hboth.1, hboth.2, if_pos hbad⟩
  · -- The pool is as it was when the clock is brought up to date.
    have hgood : r.repeating = true → 0 < r.period.toUs := by
      simpa [Nat.pos_iff_ne_zero] using hbad
    rw [if_neg hbad]
    dsimp only
    rw [s.sync_same.pool]
    cases hinsert : s.pool.insert (r.registration s.sync.clock.timeUs) with
    | error reason => exact .inr (.inl ⟨hgood, reason, rfl, rfl⟩)
    | ok taken =>
      obtain ⟨slot, p⟩ := taken
      exact .inr (.inr ⟨hgood, slot, p, rfl, rfl⟩)

/-- `withdraw` frees the slots found, and arms the channels if there are any and the earliest slot
is not the one remembered. -/
theorem withdraw_eq (id value : UInt16) (s : Scheduler H K n) :
    withdraw id value s =
      (.ok (),
        if !(s.pool.find id value).isEmpty &&
            (s.pool.releaseAll (s.pool.find id value)).earliest != s.pool.next then
          { s with pool := s.pool.releaseAll (s.pool.find id value) }.rearm
        else
          { s with pool := s.pool.releaseAll (s.pool.find id value) }) := by
  unfold withdraw
  dsimp only
  split <;> rfl

/-- `withdraw` leaves some of the pending events of a `Cached` pool. It leaves the channels alone if
the earliest slot stays the same, and arms them if it does not. -/
theorem withdraw_cases (id value : UInt16) {s : Scheduler H K n} (hcached : s.pool.Cached) :
    ∃ p : Pool n, (∀ e ∈ p.events, e ∈ s.pool.events) ∧
      (((withdraw id value s).2.pool.earliest != s.pool.earliest) = false ∧ p.Cached ∧
          withdraw id value s = (.ok (), { s with pool := p }) ∨
        ((withdraw id value s).2.pool.earliest != s.pool.earliest) = true ∧
          withdraw id value s = (.ok (), { s with pool := p }.rearm)) := by
  obtain ⟨found, hfound⟩ : ∃ found, s.pool.find id value = found := ⟨_, rfl⟩
  rw [withdraw_eq, hfound]
  refine ⟨s.pool.releaseAll found, fun e he => ?_, ?_⟩
  · obtain ⟨i, hi⟩ := Pool.mem_events.mp he
    rw [Pool.get?_releaseAll] at hi
    split at hi
    · cases hi
    · exact Pool.mem_events.mpr ⟨i, hi⟩
  by_cases hkept : (s.pool.releaseAll found).earliest = s.pool.next
  · -- The earliest slot is the one remembered.
    have hsame : (s.pool.releaseAll found).earliest = s.pool.earliest := hkept.trans hcached
    have hcond : (!found.isEmpty && (s.pool.releaseAll found).earliest != s.pool.next) = false := by
      simp [hkept]
    rw [hcond, if_neg Bool.false_ne_true]
    exact .inl ⟨by simp [hsame], Pool.cached_releaseAll hkept, rfl⟩
  · -- Otherwise something was freed.
    have hsome : found ≠ [] := by
      rintro rfl
      exact hkept hcached.symm
    have hchanged : (s.pool.releaseAll found).earliest ≠ s.pool.earliest := fun h =>
      hkept (h.trans hcached.symm)
    have hcond : (!found.isEmpty && (s.pool.releaseAll found).earliest != s.pool.next) = true := by
      simp [hsome, hkept]
    rw [if_pos hcond]
    refine .inr ⟨?_, rfl⟩
    dsimp only
    rw [rearm_pool, Pool.earliest_recompute]
    simp [hchanged]

variable [EventSink K]

/-- `handle` counts an interrupt that is ignored, and does nothing else. -/
theorem handle_of_suspended (source : InterruptSource) {s : Scheduler H K n}
    (h : s.suspended = true) :
    handle source s = (#[], { s with stats := s.stats.recordInterrupt source }) := by
  unfold handle
  dsimp only
  rw [if_pos h]

/-- The scheduler when an interrupt has fired what is due and is about to arm the channels. -/
def drained (source : InterruptSource) (s : Scheduler H K n) : Scheduler H K n :=
  let (firings, pool) := s.pool.drain s.config s.sync.clock.timeUs
  { s.sync with
    pool := pool
    sink := firings.foldl (fun sink f => EventSink.deliver sink f.notice) s.sink
    stats := firings.foldl Stats.recordFiring (s.stats.recordInterrupt source) }

/-- `handle` of an active scheduler fires what is due, delivers and counts it, and arms the
channels. -/
theorem handle_of_active (source : InterruptSource) {s : Scheduler H K n}
    (h : s.suspended = false) :
    handle source s =
      ((s.pool.drain s.config s.sync.clock.timeUs).1, (s.drained source).rearm) := by
  have hnot : ¬ s.suspended = true := by rw [h]; decide
  -- Counting the interrupt and bringing the clock up to date do not meet.
  have hsync : ({ s with stats := s.stats.recordInterrupt source } : Scheduler H K n).sync =
      { s.sync with stats := s.stats.recordInterrupt source } := by
    unfold sync
    rw [if_neg hnot, if_neg hnot]
  have hsame := s.sync_same
  unfold handle
  dsimp only
  rw [if_neg hnot]
  unfold dispatch
  rw [hsync]
  unfold drained deliver
  simp only [hsame.pool, hsame.config, hsame.sink]

end Scheduler

end SoftTimer
