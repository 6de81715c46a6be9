import SoftTimer.Proofs.Bench.Masking
import SoftTimer.Proofs.Bench.Timing
import SoftTimer.Proofs.Clock.Ticks
import SoftTimer.Proofs.Scheduler.Sleep

/-!
# A clock that is ahead

Of two schedulers on the bench that are the same otherwise, one may have read the time in between,
so that its clock is ahead (`Scheduler.ahead`): it has seen some of the ticks that the other has not
seen yet. Whatever looks at the time brings the clock up to date first, and the two are then the
same (`sync_ahead`). An operation that does not look at the time leaves the clock and the timer
alone. Each operation does the one or the other (`Catches`, `exec_catches`). So two such schedulers
stay side by side (`Abreast`), whatever is done to both of them.
-/

namespace SoftTimer.Scheduler

variable {K : Type} {n : Nat} {s s' : Scheduler SimTimer K n} {seen : Nat}

/-! ## A clock that is ahead -/

/-- The scheduler with a clock that has seen `seen` more ticks. -/
def ahead (s : Scheduler SimTimer K n) (seen : Nat) : Scheduler SimTimer K n :=
  { s with clock := s.clock.tick seen }

theorem ahead_zero (s : Scheduler SimTimer K n) : s.ahead 0 = s := by
  unfold ahead
  rw [Clock.tick_zero]

/-- Entering a masked section does not change the `lag`. -/
theorem lag_entered (s : Scheduler SimTimer K n) : s.entered.lag = s.lag := by
  have hdial := SimTimer.SameDial.enter s.hw
  show (IrqMask.enter s.hw).2.width.elapsed s.clock.reading (IrqMask.enter s.hw).2.counter = s.lag
  rw [hdial.width, hdial.counter]
  rfl

/-- `sync` makes the clock see the ticks of its `lag`. -/
theorem sync_eq_ahead (h : Legible s) (hactive : s.suspended = false) : s.sync = s.ahead s.lag := by
  rw [sync_eq h.still hactive, Clock.sync_eq_tick _ h.counter_lt]
  unfold ahead lag
  rw [h.width]

section Ahead

variable (h : Legible s) (hactive : s.suspended = false) (hseen : seen ≤ s.lag)

include h hactive hseen

/-- `sync` ends the same from a clock that is `ahead`. -/
theorem sync_ahead : (s.ahead seen).sync = s.sync := by
  have hticks : seen ≤ s.clock.width.elapsed s.clock.reading s.hw.counter := by
    rw [h.width]
    exact hseen
  rw [sync_eq h.still hactive, sync_eq (s := s.ahead seen) h.still hactive]
  exact congrArg (fun clock => { s with clock := clock }) (s.clock.sync_tick h.counter_lt hticks)

/-- `rearm` ends the same from a clock that is `ahead`. -/
theorem rearm_ahead : (s.ahead seen).rearm = s.rearm := by
  have hnot : ¬ s.suspended = true := by simp [hactive]
  have hsync : (s.ahead seen).refresh.sync = s.refresh.sync :=
    sync_ahead (s := s.refresh) ⟨h.still, h.width⟩ hactive hseen
  unfold rearm
  rw [if_neg (show ¬ (s.ahead seen).suspended = true from hnot), if_neg hnot, hsync]

/-- `timeUs` ends the same from a clock that is `ahead`. -/
theorem timeUs_ahead : (s.ahead seen).timeUs = s.timeUs := by
  have hsync : (s.ahead seen).entered.sync = s.entered.sync :=
    sync_ahead (s := s.entered) h.entered hactive (s.lag_entered ▸ hseen)
  unfold timeUs
  rw [masked_eq, masked_eq, hsync]
  rfl

end Ahead

/-! ## Operations -/

/-- What is done to an active scheduler comes to the same from a clock that is `ahead`. Either the
clock is brought up to date, or it is not looked at, and then it stays ahead. -/
inductive Catches {α : Type} (seen : Nat)
    (act : Scheduler SimTimer K n → α × Scheduler SimTimer K n) (s : Scheduler SimTimer K n) :
    Bool → Prop
  /-- The clock is brought up to date. -/
  | level {syncs : Bool} (h : act (s.ahead seen) = act s) : Catches seen act s syncs
  /-- The clock and the timer are left alone. -/
  | ahead (h : act (s.ahead seen) = ((act s).1, (act s).2.ahead seen))
    (htiming : SameTiming s (act s).2) : Catches seen act s false

namespace Catches

variable {α : Type} {act : Scheduler SimTimer K n → α × Scheduler SimTimer K n} {syncs : Bool}

/-- A masked section does as what is done inside, by `Catches`, for it does not touch the clock. -/
theorem masked (h : Catches seen act s.entered syncs) :
    Catches seen (Scheduler.masked act) s syncs := by
  have hentered : (s.ahead seen).entered = s.entered.ahead seen := rfl
  cases h with
  | level h =>
    refine .level ?_
    rw [masked_eq, masked_eq, hentered, h]
    rfl
  | ahead h htiming =>
    refine .ahead ?_ (((SameTiming.entered s).trans htiming).trans (.leave _ _))
    rw [masked_eq, masked_eq, hentered, h]
    rfl

/-- It does not matter for `Catches` how the answer is put. -/
theorem map {β : Type} (reply : α → β) (h : Catches seen act s syncs) :
    Catches seen (fun s => (act s).map reply id) s syncs := by
  cases h with
  | level h => exact .level (congrArg (Prod.map reply id) h)
  | ahead h htiming => exact .ahead (congrArg (Prod.map reply id) h) htiming

end Catches

section Operations

variable (h : Legible s) (hactive : s.suspended = false) (hseen : seen ≤ s.lag) {syncs : Bool}

include h hactive hseen

/-- Reading something off the clock `Catches` up, by bringing it up to date. -/
theorem catches_read {α : Type} (f : Clock → α) :
    Catches seen (fun s => (f s.sync.clock, s.sync)) s syncs := by
  refine .level ?_
  rw [sync_ahead h hactive hseen]

/-- `register` brings the clock up to date if the request makes sense, by `Catches`. -/
theorem catches_register (r : Request) :
    Catches seen (register r) s (!(r.repeating && r.period.toUs == 0)) := by
  cases hbad : r.repeating && r.period.toUs == 0 with
  | true =>
    have hact : ∀ x : Scheduler SimTimer K n, register r x = x.reject .invalidParameter :=
      fun _ => if_pos hbad
    refine .ahead ?_ ?_
    · rw [hact, hact]
      rfl
    · rw [hact]
      exact .contents s _ _ _
  | false =>
    have hnot : ¬ (r.repeating && r.period.toUs == 0) = true := by simp [hbad]
    refine .level ?_
    unfold register
    rw [if_neg hnot, if_neg hnot]
    dsimp only
    rw [sync_ahead h hactive hseen]

/-- `withdraw` brings the clock up to date if the earliest slot changes, by `Catches`. -/
theorem catches_withdraw (hcached : s.pool.Cached) (id value : UInt16) :
    Catches seen (withdraw id value) s
      ((withdraw id value s).2.pool.earliest != s.pool.earliest) := by
  -- The channels are armed or not whatever the clock shows.
  have hpool : (s.ahead seen).pool = s.pool := rfl
  by_cases hcond : (!(s.pool.find id value).isEmpty &&
      (s.pool.releaseAll (s.pool.find id value)).earliest != s.pool.next) = true
  · have hrearm := rearm_ahead (s := { s with pool := s.pool.releaseAll (s.pool.find id value) })
      ⟨h.still, h.width⟩ hactive hseen
    refine .level ?_
    rw [withdraw_eq, withdraw_eq, hpool, if_pos hcond, if_pos hcond]
    exact congrArg (Prod.mk _) hrearm
  · have hkept : (s.pool.releaseAll (s.pool.find id value)).earliest = s.pool.earliest := by
      rw [Bool.and_eq_true, not_and_or] at hcond
      rcases hcond with hnone | hsame
      · have hnil : s.pool.find id value = [] := by simpa using hnone
        rw [hnil]
        rfl
      · have hsame' : (s.pool.releaseAll (s.pool.find id value)).earliest = s.pool.next := by
          simpa using hsame
        exact hsame'.trans hcached
    have hact : ∀ x : Scheduler SimTimer K n, x.pool = s.pool → withdraw id value x =
        (.ok (), { x with pool := s.pool.releaseAll (s.pool.find id value) }) := by
      intro x hx
      rw [withdraw_eq, hx, if_neg hcond]
    rw [hact s rfl, hkept, bne_self_eq_false]
    refine .ahead ?_ ?_
    · rw [hact s rfl, hact (s.ahead seen) rfl]
      rfl
    · rw [hact s rfl]
      exact .contents s _ _ _

/-- `rearm` brings the clock up to date, by `Catches`. -/
theorem catches_rearm : Catches seen (fun s => ((), s.rearm)) s syncs := by
  refine .level ?_
  rw [rearm_ahead h hactive hseen]

/-- `handOver` brings the clock up to date, by `Catches`. -/
theorem catches_handOver : Catches seen handOver s syncs := by
  refine .level ?_
  unfold handOver
  rw [sync_ahead h hactive hseen]

/-- `wait` brings the clock up to date, by `Catches`. -/
theorem catches_wait (span : Span) : Catches seen (wait span) s syncs := by
  have hnot : ¬ s.suspended = true := by simp [hactive]
  refine .level ?_
  unfold wait waitUs
  rw [if_neg (show ¬ (s.ahead seen).suspended = true from hnot), if_neg hnot,
    timeUs_ahead h hactive hseen]

/-- `handle` brings the clock up to date, by `Catches`. -/
theorem catches_handle [EventSink K] (source : InterruptSource) :
    Catches seen (handle source) s syncs := by
  have hdrained : (s.ahead seen).drained source = s.drained source := by
    unfold drained
    rw [sync_ahead h hactive hseen]
    rfl
  refine .level ?_
  rw [handle_of_active source hactive, handle_of_active (s := s.ahead seen) source hactive,
    hdrained, sync_ahead h hactive hseen]
  rfl

/-- `compareMatch` brings the clock up to date if the channel is one of the two, by `Catches`. -/
theorem catches_compareMatch [EventSink K] (channel : Nat) :
    Catches seen (compareMatch channel) s (s.config.sourceOf? channel).isSome := by
  have hconfig : (s.ahead seen).config = s.config := rfl
  cases hsource : s.config.sourceOf? channel with
  | some source =>
    have hact : ∀ x : Scheduler SimTimer K n, x.config = s.config →
        x.compareMatch channel = x.interrupt source := by
      intro x hx
      unfold compareMatch
      rw [hx, hsource]
    have hinterrupt : Catches seen (interrupt source) s true :=
      (catches_handle h.entered hactive (s.lag_entered ▸ hseen) source).masked
    cases hinterrupt with
    | level hlevel =>
      refine .level ?_
      rw [hact s rfl, hact _ hconfig, hlevel]
  | none =>
    have hact : ∀ x : Scheduler SimTimer K n, x.config = s.config →
        x.compareMatch channel = (#[], x) := by
      intro x hx
      unfold compareMatch
      rw [hx, hsource]
    refine .ahead ?_ ?_
    · rw [hact s rfl, hact _ hconfig]
    · rw [hact s rfl]
      exact .refl s

/-- A `Command` that does not take time tracking back brings the clock up to date if it `syncs`, by
`Catches`. -/
theorem exec_catches [EventSink K] (hcached : s.pool.Cached) {c : Command}
    (hc : c.takesBack = false) : Catches seen (fun s => s.exec c) s (s.syncs c) := by
  have hentered := h.entered
  have hseen' : seen ≤ s.entered.lag := s.lag_entered ▸ hseen
  cases c with
  | timeMs => exact (catches_read hentered hactive hseen' (·.timeMs)).masked.map Reply.time
  | timeUs => exact (catches_read hentered hactive hseen' (·.timeUs)).masked.map Reply.time
  | schedule request =>
    exact (catches_register hentered hactive hseen' request).masked.map Reply.outcome
  | cancel ident value =>
    exact (catches_withdraw hentered hactive hseen' hcached ident value).masked.map Reply.outcome
  | rearm => exact (catches_rearm hentered hactive hseen').masked.map fun _ => Reply.done
  | interrupt source => exact (catches_handle hentered hactive hseen' source).masked.map Reply.fired
  | compareMatch channel => exact (catches_compareMatch h hactive hseen channel).map Reply.fired
  | wait span => exact (catches_wait h hactive hseen span).map Reply.waited
  | suspend => exact (catches_handOver hentered hactive hseen').masked.map Reply.snapshot
  | resume counter elapsedUs => cases hc

end Operations

/-! ## Two runs side by side -/

/-- The scheduler `s'` is `s`, but for the count of masked sections and a clock that is `ahead`.
While time tracking is handed over it is not ahead. -/
def Abreast (s s' : Scheduler SimTimer K n) : Prop :=
  ∃ seen count, seen ≤ s.lag ∧ (s.suspended = true → seen = 0) ∧ s' = (s.ahead seen).remask count

/-- A scheduler is `Abreast` of itself with another count of masked sections. -/
theorem abreast_remask (s : Scheduler SimTimer K n) (count : Nat) : Abreast s (s.remask count) :=
  ⟨0, count, Nat.zero_le _, fun _ => rfl, by rw [ahead_zero]⟩

/-- Reading the time does what `sync` does, and is counted. -/
theorem read_eq {α : Type} (h : Legible s) (f : Clock → α) :
    ∃ count, (masked (fun s => (f s.sync.clock, s.sync)) s).2 = s.sync.remask count := by
  obtain ⟨count, hblank⟩ := s.hw.leave_enter
  refine ⟨count, ?_⟩
  rw [masked_eq]
  cases hactive : s.suspended with
  | true =>
    rw [sync_of_suspended (s := s.entered) hactive, sync_of_suspended hactive]
    exact congrArg (fun hw => { s with hw := hw }) hblank
  | false =>
    -- The counter is read while interrupts are masked, and shows the same.
    have hcounter : s.entered.hw.counter = s.hw.counter := (SimTimer.SameDial.enter s.hw).counter
    rw [sync_eq (s := s.entered) h.entered.still hactive, sync_eq h.still hactive, hcounter]
    exact congrArg (fun hw => { s with hw := hw, clock := s.clock.sync s.hw.counter }) hblank

/-- Reading the time of the one leaves two schedulers `Abreast`. -/
theorem Abreast.read {α : Type} (h : Legible s) (habreast : Abreast s s') (f : Clock → α) :
    Abreast s (masked (fun s => (f s.sync.clock, s.sync)) s').2 := by
  obtain ⟨seen, count, hseen, hzero, rfl⟩ := habreast
  obtain ⟨count', hmasked⟩ := read_remask (s.ahead seen) count f
  obtain ⟨count'', hread⟩ := read_eq h f
  rw [hmasked]
  cases hactive : s.suspended with
  | true =>
    rw [hzero hactive, ahead_zero, hread, sync_of_suspended hactive]
    exact abreast_remask s count'
  | false =>
    have hcatches : Catches seen (masked fun s => (f s.sync.clock, s.sync)) s true :=
      (catches_read h.entered hactive (s.lag_entered ▸ hseen) f).masked
    cases hcatches with
    | level hlevel =>
      rw [hlevel, hread, sync_eq_ahead h hactive]
      exact ⟨s.lag, count', Nat.le_refl _, fun hnot => absurd (hactive.symm.trans hnot) (by decide),
        rfl⟩

/-- Schedulers that are `Abreast` have the same clock after `sync`. -/
theorem Abreast.sync_clock (h : Legible s) (habreast : Abreast s s') :
    s'.sync.clock = s.sync.clock := by
  obtain ⟨seen, count, hseen, hzero, rfl⟩ := habreast
  rw [sync_remask]
  show (s.ahead seen).sync.clock = s.sync.clock
  cases hactive : s.suspended with
  | true => rw [hzero hactive, ahead_zero]
  | false => rw [sync_ahead h hactive hseen]

/-- Schedulers of the `SameTiming` have the same `lag`. -/
theorem SameTiming.lag (h : SameTiming s s') : s'.lag = s.lag := by
  unfold Scheduler.lag
  rw [h.clock, h.dial.width, h.dial.counter]

/-- A `Command` answers the same on both sides, and leaves two schedulers `Abreast`. If it `syncs`,
both clocks are then the same. -/
theorem Abreast.exec [EventSink K] (h : Legible s) (hcached : s.pool.Cached)
    (habreast : Abreast s s') {c : Command} (hc : c.takesBack = true → s.suspended = true) :
    (s'.exec c).1 = (s.exec c).1 ∧ Abreast (s.exec c).2 (s'.exec c).2 ∧
      (s.syncs c = true → (s'.exec c).2.clock = (s.exec c).2.clock) := by
  obtain ⟨seen, count, hseen, hzero, rfl⟩ := habreast
  obtain ⟨count', hexec⟩ := exec_remask (s.ahead seen) count c
  rw [hexec]
  cases hactive : s.suspended with
  | true =>
    rw [hzero hactive, ahead_zero]
    exact ⟨rfl, abreast_remask _ count', fun _ => rfl⟩
  | false =>
    have hkeeps : c.takesBack = false := by
      rw [hactive] at hc
      simpa using hc
    have hcatches := exec_catches h hactive hseen hcached hkeeps
    generalize s.syncs c = syncs at hcatches ⊢
    cases hcatches with
    | level hlevel =>
      rw [hlevel]
      exact ⟨rfl, abreast_remask _ count', fun _ => rfl⟩
    | ahead hahead htiming =>
      rw [hahead]
      refine ⟨rfl, ⟨seen, count', htiming.lag.symm ▸ hseen, fun hnot => ?_, rfl⟩, fun hnot => ?_⟩
      · rw [htiming.suspended, hactive] at hnot
        cases hnot
      · cases hnot

/-- Moving the counters of both by the same leaves two schedulers `Abreast`, as long as no turn is
missed. -/
theorem Abreast.move (habreast : Abreast s s') (hw : SimTimer) {ticks : Nat}
    (hwidth : hw.width = s.hw.width) (hcounter : hw.counter = s.hw.width.offset s.hw.counter ticks)
    (hpaced : s.suspended = true ∨ s.lag + ticks < s.hw.width.modulus) (count : Nat) :
    Abreast { s with hw := hw } { s' with hw := hw.remask count } := by
  obtain ⟨seen, count', hseen, hzero, rfl⟩ := habreast
  refine ⟨seen, count, ?_, hzero, rfl⟩
  rcases hpaced with hsuspended | hlt
  · rw [hzero hsuspended]
    exact Nat.zero_le _
  · rw [lag_moved hwidth hcounter hlt]
    omega

end SoftTimer.Scheduler
