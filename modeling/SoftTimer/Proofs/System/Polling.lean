import SoftTimer.Proofs.Scheduler.Requests
import SoftTimer.System.TimerRequest

/-!
# Waits that take as long as they take

`Scheduler.waitUs` and `Scheduler.waitShared` give up after a number of readings that is enough on
any counter that moves by a tick at least. A wait that is left alone has no such bound: it reads the
time until a reading is late enough, and goes on for ever if none is. `Awaits` and `AwaitsShared`
say with which scheduler it ends. They follow the two loops, with one constructor for each way in
which a loop ends or goes on.

A wait that is left alone ends exactly if one with a bound does, for some bound (`awaits_iff`,
`awaitsShared_iff_within`), and it ends in one way only (`Awaits.unique`). So what is shown of waits
with any bound (`waitWithin`, `waitSharedWithin`) holds of waits that have none. The main statement
is `awaitsShared_iff`: a wait on a timer in shared use ends as a wait on any other timer does.
-/

namespace SoftTimer.Scheduler

variable {H K : Type} {n : Nat} [TimerHardware H] {s s' s'' : Scheduler H K n}

/-! ## Any number of readings -/

/-- A wait for `us` microseconds that reads the time once when it has begun, and at most `more`
times after that. -/
def waitWithin (more us : Nat) (s : Scheduler H K n) : Bool × Scheduler H K n :=
  if s.suspended then (true, s) else pollUntil s.timeUs.1 us (more + 1) s.timeUs.2

/-- A wait on a timer in shared use for `us` microseconds that reads the time once when it has
begun, and at most `more` times after that. -/
def waitSharedWithin (more us : Nat) (s : Scheduler H K n) : Bool × Scheduler H K n :=
  pollShared s.timeUs.1 us (more + 1) s.timeUs.2

/-- `timeUs` neither stops the clock nor sets it going. -/
theorem timeUs_suspended (s : Scheduler H K n) : s.timeUs.2.suspended = s.suspended :=
  (arms_sameBut.timeUs s).suspended

/-- After `timeUs` as many readings are taken as before, since the rate of the clock is the same. -/
theorem timeUs_readingsFor (us : Nat) (s : Scheduler H K n) :
    s.timeUs.2.readingsFor us = s.readingsFor us := by
  unfold readingsFor Clock.ticksFor
  rw [timeUs_snd]
  split <;> rfl

/-- `waitUs` gives up when the time has been read once more than there are ticks to wait for. -/
theorem waitUs_eq_waitWithin (us : Nat) (s : Scheduler H K n) :
    s.waitUs us = s.waitWithin (s.clock.ticksFor us) us := by
  have hreadings : s.timeUs.2.readingsFor us = s.clock.ticksFor us + 1 := s.timeUs_readingsFor us
  unfold waitWithin
  rw [← hreadings]
  rfl

/-- `waitShared` gives up when the time has been read once more than there are ticks to wait for. -/
theorem waitShared_eq_waitSharedWithin (us : Nat) (s : Scheduler H K n) :
    s.waitShared us = s.waitSharedWithin (s.clock.ticksFor us) us := by
  have hreadings : s.timeUs.2.readingsFor us = s.clock.ticksFor us + 1 := s.timeUs_readingsFor us
  unfold waitSharedWithin
  rw [← hreadings]
  rfl

/-- As long as the clock is going, it makes no difference that `pollShared` looks whether it is. -/
theorem pollShared_eq (start us readings : Nat) {s : Scheduler H K n} (h : s.suspended = false) :
    pollShared start us readings s = pollUntil start us readings s := by
  induction readings generalizing s with
  | zero => rfl
  | succ readings ih =>
    have hgoing : s.timeUs.2.suspended = false := s.timeUs_suspended.trans h
    unfold pollShared pollUntil
    rw [if_neg (by rw [h]; decide)]
    dsimp only
    split
    · exact ih hgoing
    · rfl

/-- `pollShared` ends at once if the clock stands still, and is `pollUntil` if it is going. -/
theorem pollShared_succ (s : Scheduler H K n) (start us readings : Nat) :
    pollShared start us (readings + 1) s =
      if s.suspended then (true, s) else pollUntil start us (readings + 1) s := by
  split
  · next hstopped => exact if_pos hstopped
  · next hgoing => exact pollShared_eq start us _ (Bool.eq_false_iff.mpr hgoing)

/-- The scheduler after a wait, as the wait on a timer in shared use leaves it: if the clock stood
still, a masked section has been entered and left in which nothing was done. -/
def idled (stopped : Bool) (s : Scheduler H K n) : Scheduler H K n :=
  if stopped then { s with hw := IrqMask.blank s.hw } else s

/-- `waitSharedWithin` is `waitWithin`, except for the masked section that it takes while the clock
stands still. -/
theorem waitSharedWithin_eq (more us : Nat) (s : Scheduler H K n) :
    s.waitSharedWithin more us =
      ((s.waitWithin more us).1, (s.waitWithin more us).2.idled s.suspended) := by
  unfold waitSharedWithin waitWithin idled
  rw [pollShared_succ, timeUs_suspended, timeUs_snd]
  split <;> rfl

/-! ## No bound on the readings -/

/-- `Polls start us s s'` means that the time is read, first on `s`, until `us` microseconds have
passed since `start`, and that the last reading leaves `s'`. -/
inductive Polls (start us : Nat) : Scheduler H K n → Scheduler H K n → Prop
  /-- The first reading is late enough. -/
  | late {s : Scheduler H K n} (h : ¬ s.timeUs.1 - start < us) : Polls start us s s.timeUs.2
  /-- The first reading is too early, and another one follows. -/
  | early {s s' : Scheduler H K n} (h : s.timeUs.1 - start < us)
    (rest : Polls start us s.timeUs.2 s') : Polls start us s s'

/-- `PollsShared start us s s'` means the same of a timer in shared use, on which the time is not
read while the clock stands still. -/
inductive PollsShared (start us : Nat) : Scheduler H K n → Scheduler H K n → Prop
  /-- The clock stands still. -/
  | stopped {s : Scheduler H K n} (h : s.suspended = true) : PollsShared start us s s
  /-- The first reading is late enough. -/
  | late {s : Scheduler H K n} (hgoing : s.suspended = false) (h : ¬ s.timeUs.1 - start < us) :
    PollsShared start us s s.timeUs.2
  /-- The first reading is too early, and the loop begins again. -/
  | early {s s' : Scheduler H K n} (hgoing : s.suspended = false) (h : s.timeUs.1 - start < us)
    (rest : PollsShared start us s.timeUs.2 s') : PollsShared start us s s'

/-- A wait for `us` microseconds on the scheduler `s` ends with `s'`. -/
def Awaits (us : Nat) (s s' : Scheduler H K n) : Prop :=
  if s.suspended then s' = s else Polls s.timeUs.1 us s.timeUs.2 s'

/-- A wait for `us` microseconds on the scheduler `s` in shared use ends with `s'`. -/
def AwaitsShared (us : Nat) (s s' : Scheduler H K n) : Prop :=
  PollsShared s.timeUs.1 us s.timeUs.2 s'

variable {start us : Nat}

/-- `pollUntil` with a bound takes the steps of polling without one. -/
theorem pollUntil_succ (start us readings : Nat) (s : Scheduler H K n) :
    pollUntil start us (readings + 1) s =
      if s.timeUs.1 - start < us then pollUntil start us readings s.timeUs.2
      else (true, s.timeUs.2) := rfl

/-- Polling ends, by `Polls`, exactly if `pollUntil` does within some bound. -/
theorem polls_iff : Polls start us s s' ↔ ∃ more, pollUntil start us (more + 1) s = (true, s') := by
  constructor
  · intro h
    induction h with
    | late hlate => exact ⟨0, if_neg hlate⟩
    | early hearly _ ih =>
      obtain ⟨more, hmore⟩ := ih
      exact ⟨more + 1, (if_pos hearly).trans hmore⟩
  · rintro ⟨more, hmore⟩
    induction more generalizing s with
    | zero =>
      rw [pollUntil_succ] at hmore
      split at hmore
      · cases hmore
      · next hlate =>
        cases hmore
        exact .late hlate
    | succ more ih =>
      rw [pollUntil_succ] at hmore
      split at hmore
      · next hearly => exact .early hearly (ih hmore)
      · next hlate =>
        cases hmore
        exact .late hlate

/-- Polling ends in one way only, by `Polls`. -/
theorem Polls.unique (h : Polls start us s s') (h' : Polls start us s s'') : s' = s'' := by
  induction h with
  | late hlate =>
    cases h' with
    | late => rfl
    | early hearly => exact absurd hearly hlate
  | early hearly _ ih =>
    cases h' with
    | late hlate => exact absurd hearly hlate
    | early _ rest => exact ih rest

/-- Polling a timer in shared use ends at once, by `PollsShared`, if the clock stands still, and as
that of any other timer if it is going. -/
theorem pollsShared_iff :
    PollsShared start us s s' ↔ if s.suspended then s' = s else Polls start us s s' := by
  constructor
  · intro h
    induction h with
    | stopped hstopped => exact (if_pos hstopped).mpr rfl
    | late hgoing hlate => exact (if_neg (by rw [hgoing]; decide)).mpr (.late hlate)
    | @early s _ hgoing hearly _ ih =>
      have hkept : ¬ s.timeUs.2.suspended = true := by
        rw [timeUs_suspended, hgoing]
        decide
      exact (if_neg (by rw [hgoing]; decide)).mpr (.early hearly ((if_neg hkept).mp ih))
  · intro h
    split at h
    · next hstopped =>
      subst h
      exact .stopped hstopped
    · next hnot =>
      have hgoing := Bool.eq_false_iff.mpr hnot
      clear hnot
      induction h with
      | late hlate => exact .late hgoing hlate
      | @early s _ hearly _ ih =>
        exact .early hgoing hearly (ih (s.timeUs_suspended.trans hgoing))

/-- A wait ends, by `Awaits`, exactly if `waitWithin` does for some bound. -/
theorem awaits_iff : Awaits us s s' ↔ ∃ more, s.waitWithin more us = (true, s') := by
  unfold Awaits waitWithin
  split
  · exact ⟨fun h => ⟨0, h ▸ rfl⟩, fun ⟨_, h⟩ => (congrArg Prod.snd h).symm⟩
  · exact polls_iff

/-- A wait ends in one way only, by `Awaits`. -/
theorem Awaits.unique (h : Awaits us s s') (h' : Awaits us s s'') : s' = s'' := by
  unfold Awaits at h h'
  split at h
  · next hstopped =>
    rw [if_pos hstopped] at h'
    rw [h, h']
  · next hgoing =>
    rw [if_neg hgoing] at h'
    exact h.unique h'

/-- A wait on a timer in shared use ends, by `AwaitsShared`, exactly as a wait on any other timer
does, except for the masked section of `idled`. -/
theorem awaitsShared_iff :
    AwaitsShared us s s' ↔ ∃ waited, Awaits us s waited ∧ s' = waited.idled s.suspended := by
  unfold AwaitsShared Awaits idled
  rw [pollsShared_iff, timeUs_suspended]
  split
  · next hstopped =>
    rw [timeUs_snd, if_pos hstopped]
    exact ⟨fun h => ⟨s, rfl, h⟩, fun ⟨_, hwaited, h⟩ => hwaited ▸ h⟩
  · exact ⟨fun h => ⟨s', h, rfl⟩, fun ⟨_, hwaited, h⟩ => h ▸ hwaited⟩

/-- A wait on a timer in shared use ends, by `AwaitsShared`, exactly if `waitSharedWithin` does for
some bound. -/
theorem awaitsShared_iff_within :
    AwaitsShared us s s' ↔ ∃ more, s.waitSharedWithin more us = (true, s') := by
  rw [awaitsShared_iff]
  constructor
  · rintro ⟨waited, hwaited, rfl⟩
    obtain ⟨more, hmore⟩ := awaits_iff.mp hwaited
    exact ⟨more, by rw [waitSharedWithin_eq, hmore]⟩
  · rintro ⟨more, hmore⟩
    rw [waitSharedWithin_eq] at hmore
    obtain ⟨htrue, rfl⟩ := Prod.mk.inj hmore
    exact ⟨_, awaits_iff.mpr ⟨more, Prod.ext htrue rfl⟩, rfl⟩

end SoftTimer.Scheduler
