import SoftTimer.Proofs.Bench.Sweeps
import SoftTimer.Proofs.Bench.Timing

/-!
# Driving a scheduler comes to an end

`Scheduler.Drives` is the drive of a scheduler without a bound: the counter is stepped from match to
match, each match is passed on, and it ends when what is left of the ticks is taken without a match.
Every scheduler that is set up as a constructor does it can be driven for any number of ticks
(`Drivable.completes`), whatever is pending, whether time tracking is handed over or not, and
whatever its channels are armed for.

The ticks left are no measure of this, because a match may take none of them. But a channel armed by
the scheduler is armed at least one tick ahead, and less than a turn, so the scheduler never adds to
the channels at which the counter stands (`within_interrupt`). A match that takes no ticks takes one
away from them. What goes down with every match is four times the ticks left and the number of
channels at which the counter stands (`Spaced.measure_lt`).
-/

namespace SoftTimer

namespace SimTimer

/-- Timers of the `SameDial` meet the same channels. -/
theorem SameDial.within {t t' : SimTimer} (h : SameDial t t') (ticks : Nat) :
    t'.within ticks = t.within ticks := by
  unfold SimTimer.within
  simp only [h.ticksUntil?]

/-- `armChannel` ahead of the counter, by less than a turn, does not put the counter at a channel.
-/
theorem within_armChannel (t : SimTimer) {ticks : Nat} (channel : Nat) (hpos : 0 < ticks)
    (hlt : ticks < t.width.modulus) :
    (t.armChannel channel (t.width.offset t.counter ticks)).within 0 ⊆ t.within 0 := by
  intro i hi
  obtain ⟨distance, harmed, hzero⟩ := mem_within.mp hi
  rw [mem_within]
  by_cases hsame : i = channel
  · subst hsame
    have hchannel := lt_of_ticksUntil? harmed
    rw [ticksUntil?_armChannel hchannel hlt] at harmed
    cases harmed
    exact absurd hpos (Nat.not_lt.mpr hzero)
  · rw [ticksUntil?_armChannel_of_ne t hsame] at harmed
    exact ⟨distance, harmed, hzero⟩

/-- At most four channels are `within` any number of ticks. -/
theorem card_within_le (t : SimTimer) (ticks : Nat) : (t.within ticks).card ≤ 4 := by
  calc (t.within ticks).card ≤ (Finset.range 4).card := Finset.card_filter_le _ _
    _ = 4 := Finset.card_range 4

/-- After a `step` that stops on a channel fewer channels are `within` no ticks than were within its
own. -/
theorem card_within_met {t : SimTimer} {maxTicks channel ticks : Nat}
    (h : (t.step maxTicks).1 = some (channel, ticks)) :
    ((t.step maxTicks).2.within 0).card < (t.within ticks).card := by
  have harmed := (step_eq_some_iff.mp h).1
  rw [within_met h, Nat.add_zero]
  exact Finset.card_erase_lt_of_mem (mem_within.mpr ⟨ticks, harmed, Nat.le_refl _⟩)

end SimTimer

namespace Scheduler

variable {K : Type} {n : Nat} {s s' : Scheduler SimTimer K n}

/-! ## Channels are armed ahead -/

/-- The scheduler is set up as `new` or `withDefaults` has set one up, whatever has become of it
since, and its counter moves only when it is told to. -/
structure Drivable (s : Scheduler SimTimer K n) : Prop where
  /-- A scheduler that has just been made is set up like this one. -/
  made : ∃ start : Scheduler SimTimer K n, start.Fresh ∧ SameSetup start s
  /-- The counter does not move by itself. -/
  still : s.hw.autoAdvance = 0

/-- The scheduler is `Legible`, and its channels are armed at least a tick and less than a turn
ahead. -/
structure Spaced (s : Scheduler SimTimer K n) : Prop where
  /-- The counter does not move by itself. -/
  still : s.hw.autoAdvance = 0
  /-- The clock reads this counter. -/
  width : s.clock.width = s.hw.width
  /-- The least distance is not zero. -/
  minArm_pos : 0 < s.config.minArmTicks
  /-- The fallback distance is not zero. -/
  fallbackTicks_pos : 0 < s.fallbackTicks
  /-- The fallback distance is less than a turn. -/
  fallbackTicks_lt : s.fallbackTicks < s.hw.width.modulus

/-- A scheduler of the `SameSetup` as one that is `Spaced` is so too. -/
theorem Spaced.of_sameSetup (h : Spaced s) (hsame : SameSetup s s') : Spaced s' where
  still := hsame.autoAdvance.trans h.still
  width := (hsame.clockWidth.trans h.width).trans hsame.width.symm
  minArm_pos := hsame.config ▸ h.minArm_pos
  fallbackTicks_pos := hsame.fallbackTicks ▸ h.fallbackTicks_pos
  fallbackTicks_lt := by
    rw [hsame.fallbackTicks, hsame.width]
    exact h.fallbackTicks_lt

/-- A scheduler that is `Drivable` is `Spaced`, since its constructor has seen to that. -/
theorem Drivable.spaced (h : Drivable s) : Spaced s := by
  obtain ⟨start, hfresh, hsame⟩ := h.made
  obtain ⟨hw, sink, config, hvalid, rfl⟩ := hfresh.eq_begin
  have hbegin : SameSetup (ofHardware hw sink config : Scheduler SimTimer K n)
      (ofHardware hw sink config).begin := frame_sameSetup.rearmNow _
  have hsetup := frame_sameSetup.trans hbegin hsame
  have hhalf : ∀ w : CounterWidth, 0 < w.mask / 2 ∧ w.mask / 2 < w.modulus := by
    intro w
    cases w <;> decide
  constructor
  case still => exact h.still
  case width =>
    rw [hsetup.clockWidth, hsetup.width]
    rfl
  case minArm_pos =>
    rw [hsetup.config]
    exact Nat.pos_of_ne_zero (Config.validate_eq_ok.mp hvalid).2.2
  case fallbackTicks_pos =>
    rw [hsetup.fallbackTicks]
    exact Nat.lt_min.mpr ⟨Nat.lt_of_lt_of_le Nat.one_pos (Nat.le_max_right _ _), (hhalf _).1⟩
  case fallbackTicks_lt =>
    rw [hsetup.fallbackTicks, hsetup.width]
    exact Nat.lt_of_le_of_lt (Nat.min_le_right _ _) (hhalf _).2

/-- `armAhead` of a clock that shows the counter does not put the counter at a channel. -/
theorem within_armAhead (hspaced : Spaced s) (hreading : s.clock.reading = s.hw.counter)
    (channel : Nat) {ticks : Nat} (hpos : 0 < ticks) (hle : ticks ≤ s.fallbackTicks) :
    (s.armAhead channel ticks).hw.within 0 ⊆ s.hw.within 0 := by
  show (s.hw.armChannel channel (s.clock.width.offset s.clock.reading ticks)).within 0 ⊆ _
  rw [hreading, hspaced.width]
  exact s.hw.within_armChannel channel hpos (Nat.lt_of_le_of_lt hle hspaced.fallbackTicks_lt)

/-- `armPrimary` of a clock that shows the counter does not put the counter at a channel. -/
theorem within_armPrimary (hspaced : Spaced s) (hreading : s.clock.reading = s.hw.counter) :
    s.armPrimary.hw.within 0 ⊆ s.hw.within 0 := by
  unfold armPrimary
  split
  · refine within_armAhead hspaced hreading _ ?_ (s.armDistance_le _)
    exact Nat.lt_min.mpr ⟨Nat.lt_of_lt_of_le hspaced.minArm_pos (Nat.le_max_right _ _),
      hspaced.fallbackTicks_pos⟩
  · exact Finset.Subset.refl _

/-- `rearm` does not put the counter at a channel. -/
theorem within_rearm (hspaced : Spaced s) : s.rearm.hw.within 0 ⊆ s.hw.within 0 := by
  cases hactive : s.suspended with
  | true =>
    have hrearm : s.rearm = s.refresh := if_pos hactive
    rw [hrearm]
    exact Finset.Subset.refl _
  | false =>
    -- The clock is brought up to date, and then the channels are armed one after the other.
    obtain ⟨ready, hready⟩ : ∃ ready, s.refresh.sync = ready := ⟨_, rfl⟩
    have hsetup : SameSetup s ready := hready ▸ frame_sameSetup.trans
      (frame_sameSetup.contents s _ _ _ _) (frame_sameSetup.sync s.refresh)
    have hsetup' := frame_sameSetup.trans hsetup (frame_sameSetup.armPrimary ready)
    have hreading : ready.clock.reading = ready.hw.counter :=
      hready ▸ sync_reading hspaced.still hspaced.width hactive
    have hreading' : ready.armPrimary.clock.reading = ready.armPrimary.hw.counter := by
      rw [ready.armPrimary_clock, armPrimary_counter, hreading]
    have hrearm : s.rearm = ready.armPrimary.armFallback := by
      rw [← hready]
      exact if_neg (by rw [hactive]; decide)
    have hhw : ready.hw = s.hw := by
      rw [← hready, sync_eq (s := s.refresh) hspaced.still hactive]
      rfl
    have hspaced' := hspaced.of_sameSetup hsetup'
    calc s.rearm.hw.within 0
        = ready.armPrimary.armFallback.hw.within 0 := by rw [hrearm]
      _ ⊆ ready.armPrimary.hw.within 0 :=
          within_armAhead hspaced' hreading' _ hspaced'.fallbackTicks_pos (Nat.le_refl _)
      _ ⊆ ready.hw.within 0 := within_armPrimary (hspaced.of_sameSetup hsetup) hreading
      _ = s.hw.within 0 := by rw [hhw]

variable [EventSink K]

/-- `interrupt` does not put the counter at a channel. -/
theorem within_interrupt (hspaced : Spaced s) (source : InterruptSource) :
    (s.interrupt source).2.hw.within 0 ⊆ s.hw.within 0 := by
  have hentered : Spaced s.entered := hspaced.of_sameSetup (frame_sameSetup.enter s)
  have hhandled : (handle source s.entered).2.hw.within 0 ⊆ s.entered.hw.within 0 := by
    cases hactive : s.suspended with
    | true =>
      rw [handle_of_suspended (s := s.entered) source hactive]
    | false =>
      have hdrained : SameSetup s.entered (s.entered.drained source) :=
        frame_sameSetup.trans (frame_sameSetup.sync s.entered)
          (frame_sameSetup.contents s.entered.sync _ _ _ _)
      have hhw : (s.entered.drained source).hw = s.entered.hw := by
        show s.entered.sync.hw = _
        rw [sync_eq (s := s.entered) hentered.still hactive]
      rw [handle_of_active (s := s.entered) source hactive, ← hhw]
      exact within_rearm (hentered.of_sameSetup hdrained)
  unfold interrupt
  rw [masked_eq]
  dsimp only
  rw [(SimTimer.SameDial.leave _ _).within]
  exact hhandled.trans ((SimTimer.SameDial.enter s.hw).within 0).subset

/-- `compareMatch` does not put the counter at a channel. -/
theorem within_compareMatch (hspaced : Spaced s) (channel : Nat) :
    (s.compareMatch channel).2.hw.within 0 ⊆ s.hw.within 0 := by
  unfold compareMatch
  split
  · exact within_interrupt hspaced _
  · exact Finset.Subset.refl _

/-! ## A match -/

/-- The scheduler `afterMatch` is of the `SameSetup`. -/
theorem afterMatch_sameSetup (s : Scheduler SimTimer K n) (left channel : Nat) :
    SameSetup s (s.afterMatch left channel) :=
  frame_sameSetup.trans (s.stepped_sameSetup left)
    (frame_sameSetup.exec (s.stepped left) (.compareMatch channel))

/-- With every match there are fewer ticks left, or as many and fewer channels `within` none. There
are four channels, so that less than one tick is made up for. -/
theorem Spaced.measure_lt (hspaced : Spaced s) {left channel ticks : Nat}
    (hsome : (s.hw.step left).1 = some (channel, ticks)) :
    4 * (left - ticks) + ((s.afterMatch left channel).hw.within 0).card <
      4 * left + (s.hw.within 0).card := by
  have hle := (SimTimer.step_eq_some_iff.mp hsome).2.1
  have hstepped : Spaced (s.stepped left) := hspaced.of_sameSetup (s.stepped_sameSetup left)
  have hkept := Finset.card_le_card (within_compareMatch hstepped channel)
  have hmet : ((s.stepped left).hw.within 0).card < (s.hw.within ticks).card :=
    SimTimer.card_within_met hsome
  have hfour := s.hw.card_within_le ticks
  unfold afterMatch
  cases ticks with
  | zero => omega
  | succ ticks => omega

/-! ## The drive -/

/-- The loop `Drain.Drains` behind the interrupt of a channel, if the scheduler fires anything at
it, comes to its end. -/
def Handles (s : Scheduler SimTimer K n) (channel : Nat) : Prop :=
  s.suspended = false → (s.config.sourceOf? channel).isSome →
    ∃ d, Drain.Drains s.config s.timeUs.1 (.start s.pool) (s.compareMatch channel).1.toList d ∧
      (s.compareMatch channel).2.pool = d.pool.recompute

/-- The counter moves by `step` from match to match with the ticks that are left, and every match is
passed on, until what is left is taken without a match. -/
inductive Drives : Scheduler SimTimer K n → Nat → List CompareMatch → Scheduler SimTimer K n → Prop
  /-- What is left is taken without a match. -/
  | done {s : Scheduler SimTimer K n} {left : Nat} (hnone : (s.hw.step left).1 = none) :
    Drives s left [] (s.stepped left)
  /-- A match takes no more than is left, its interrupt comes to an end, and the drive goes on. -/
  | met {s s' : Scheduler SimTimer K n} {left channel ticks : Nat} {later : List CompareMatch}
    (hsome : (s.hw.step left).1 = some (channel, ticks)) (hle : ticks ≤ left)
    (hhandles : (s.stepped left).Handles channel)
    (hlater : Drives (s.afterMatch left channel) (left - ticks) later s') :
    Drives s left (⟨channel, ticks, ((s.stepped left).compareMatch channel).1,
      (s.afterMatch left channel).clock.timeUs⟩ :: later) s'

/-- The loop behind the interrupt of a channel `Handles` it, before the end of time. -/
theorem handles_of_time {channel : Nat} (h : (s.compareMatch channel).2.clock.timeUs < max64) :
    s.Handles channel := by
  intro hactive hown
  obtain ⟨source, hsource⟩ := Option.isSome_iff_exists.mp hown
  have hmatch : s.compareMatch channel = s.interrupt source := by
    unfold compareMatch
    rw [hsource]
  rw [hmatch] at h ⊢
  obtain ⟨-, -, -, -, htime⟩ := interrupt_of_active source hactive
  exact interrupt_drains source hactive (Nat.lt_of_le_of_lt htime h)

/-- `driveRounds` does not take time back. -/
theorem timeUs_le_driveRounds (rounds : Nat) (log : DriveLog) (s : Scheduler SimTimer K n) :
    s.clock.timeUs ≤ (driveRounds rounds log s).2.clock.timeUs := by
  induction rounds generalizing log s with
  | zero => exact Nat.le_refl _
  | succ rounds ih =>
    cases hstep : (s.hw.step log.left).1 with
    | none =>
      rw [driveRounds_of_none hstep]
      exact Nat.le_refl _
    | some met =>
      have hmatch : s.clock.timeUs ≤ (s.afterMatch log.left met.1).clock.timeUs :=
        frame_timeUs_le.exec (s.stepped log.left) (.compareMatch met.1)
      rw [driveRounds_of_some hstep]
      exact Nat.le_trans hmatch (ih _ _)

/-- The ticks that every `CompareMatch` took, added up. -/
def ticksTaken (found : List CompareMatch) : Nat := (found.map (·.ticks)).sum

/-- `driveRounds` with more rounds than the measure asks for is `Drives`, which has no bound. -/
theorem exists_drives (rounds : Nat) (log : DriveLog) (hspaced : Spaced s)
    (hrounds : 4 * log.left + (s.hw.within 0).card < rounds)
    (hnow : (driveRounds rounds log s).2.clock.timeUs < max64) :
    ∃ found s', Drives s log.left found s' ∧
      driveRounds rounds log s =
        (⟨log.compareMatches ++ found.toArray, log.left - ticksTaken found, true⟩, s') := by
  induction rounds generalizing log s with
  | zero => exact absurd hrounds (Nat.not_lt_zero _)
  | succ rounds ih =>
    cases hstep : (s.hw.step log.left).1 with
    | none =>
      refine ⟨[], _, .done hstep, ?_⟩
      rw [driveRounds_of_none hstep, Array.append_empty]
      rfl
    | some met =>
      obtain ⟨channel, ticks⟩ := met
      have hle := (SimTimer.step_eq_some_iff.mp hstep).2.1
      have hless := hspaced.measure_lt hstep
      have hspaced' := hspaced.of_sameSetup (s.afterMatch_sameSetup log.left channel)
      rw [driveRounds_of_some hstep] at hnow ⊢
      have htime := Nat.lt_of_le_of_lt (timeUs_le_driveRounds rounds _ _) hnow
      obtain ⟨later, s', hlater, hrest⟩ := ih _ hspaced' (by dsimp only; omega) hnow
      refine ⟨_, s', .met hstep hle (handles_of_time htime) hlater, ?_⟩
      -- The match comes before those that are found later.
      rw [hrest, Array.push_eq_append, Array.append_assoc, ← List.toArray_cons]
      unfold ticksTaken
      rw [List.map_cons, List.sum_cons, Nat.sub_sub]

namespace Drives

variable {left : Nat} {found : List CompareMatch}

/-- The matches of `Drives` take no more than all the ticks. -/
theorem ticksTaken_le (h : Drives s left found s') : ticksTaken found ≤ left := by
  induction h with
  | done => exact Nat.zero_le _
  | met _ hle _ _ ih =>
    unfold ticksTaken at ih ⊢
    rw [List.map_cons, List.sum_cons]
    dsimp only
    omega

/-- The counter has moved on by all the ticks at the end of `Drives`. -/
theorem counter_eq (h : Drives s left found s') (hstill : s.hw.autoAdvance = 0) :
    s'.hw.counter = s.hw.width.offset s.hw.counter left := by
  induction h with
  | @done s left hnone =>
    show (s.hw.step left).2.counter = _
    rw [SimTimer.step_of_none hnone]
    rfl
  | @met s s' left channel ticks later hsome hle _ _ ih =>
    have hsetup := s.afterMatch_sameSetup left channel
    have hstepped : (s.stepped left).hw.autoAdvance = 0 :=
      (s.stepped_sameSetup left).autoAdvance.trans hstill
    have hstood : (s.afterMatch left channel).hw.counter = (s.stepped left).hw.counter :=
      (frame_standsStill.exec (s.stepped left) (.compareMatch channel) hstepped).2
    have hmoved : (s.stepped left).hw.counter = s.hw.width.offset s.hw.counter ticks := by
      show (s.hw.step left).2.counter = _
      rw [SimTimer.step_of_some hsome]
      rfl
    rw [ih (hsetup.autoAdvance.trans hstill), hsetup.width, hstood, hmoved,
      CounterWidth.offset_offset, Nat.add_sub_cancel' hle]

/-- The matches of `Drives` are no more than the measure says. -/
theorem length_le (h : Drives s left found s') (hspaced : Spaced s) :
    found.length ≤ 4 * left + (s.hw.within 0).card := by
  induction h with
  | done => exact Nat.zero_le _
  | @met s s' left channel ticks later hsome _ _ _ ih =>
    have hless := hspaced.measure_lt hsome
    have hmore := ih (hspaced.of_sameSetup (s.afterMatch_sameSetup left channel))
    rw [List.length_cons]
    omega

/-- As long as the matches of `Drives` take no ticks, there are no more of them than channels at
which the counter stands. -/
theorem length_idle_le (hspaced : Spaced s) {idle later : List CompareMatch}
    (h : Drives s left (idle ++ later) s') (hidle : ∀ m ∈ idle, m.ticks = 0) :
    idle.length ≤ (s.hw.within 0).card := by
  induction idle generalizing s left with
  | nil => exact Nat.zero_le _
  | cons first idle ih =>
    cases h with
    | @met _ _ left channel ticks _ hsome hle _ hlater =>
      obtain ⟨hfirst, hrest⟩ := List.forall_mem_cons.mp hidle
      have hzero : ticks = 0 := hfirst
      have hless := hspaced.measure_lt hsome
      have hmore := ih (hspaced.of_sameSetup (s.afterMatch_sameSetup left channel)) hlater hrest
      rw [List.length_cons]
      omega

/-- What is left of `Drives` after some of its matches is `Drives` from where these have led. -/
theorem drop {before after : List CompareMatch} (hspaced : Spaced s)
    (h : Drives s left (before ++ after) s') :
    ∃ s₀ left₀, Spaced s₀ ∧ Drives s₀ left₀ after s' := by
  induction before generalizing s left with
  | nil => exact ⟨s, left, hspaced, h⟩
  | cons first before ih =>
    cases h with
    | @met _ _ left channel ticks _ _ _ _ hlater =>
      exact ih (hspaced.of_sameSetup (s.afterMatch_sameSetup left channel)) hlater

end Drives

/-- What comes of `drive` with some ticks. -/
structure Completes (ticks : Nat) (s : Scheduler SimTimer K n) : Prop where
  /-- The drive ends, and so does every interrupt on the way. Its bound is never met. -/
  ends : ∃ found s', Drives s ticks found s' ∧
    s.drive ticks = (⟨found.toArray, ticks - ticksTaken found, true⟩, s')
  /-- The matches take no more than all the ticks. -/
  ticksTaken_le : ∀ found s', Drives s ticks found s' → ticksTaken found ≤ ticks
  /-- The counter moves on by all the ticks. -/
  counter : ∀ found s', Drives s ticks found s' →
    s'.hw.counter = s.hw.width.offset s.hw.counter ticks
  /-- There are no more than four matches for each tick, and four at the start. -/
  length_le : ∀ found s', Drives s ticks found s' → found.length ≤ 4 * (ticks + 1)
  /-- No more than four matches one after another take no ticks. -/
  idle_le : ∀ before idle later s', Drives s ticks (before ++ idle ++ later) s' →
    (∀ m ∈ idle, m.ticks = 0) → idle.length ≤ 4

/-- A scheduler that is `Drivable` can be driven for any number of ticks, as long as it does not get
to the end of time, as `Completes` says. -/
theorem Drivable.completes (hdrivable : Drivable s) {ticks : Nat}
    (hnow : (s.drive ticks).2.clock.timeUs < max64) : Completes ticks s := by
  have hspaced := hdrivable.spaced
  have hfour := s.hw.card_within_le 0
  constructor
  case ends =>
    have hrounds : 4 * ticks + (s.hw.within 0).card < roundsFor ticks := by
      unfold roundsFor
      omega
    obtain ⟨found, s', hdrives, hlog⟩ :=
      exists_drives (roundsFor ticks) ⟨#[], ticks, false⟩ hspaced hrounds hnow
    refine ⟨found, s', hdrives, ?_⟩
    unfold drive
    rw [hlog, Array.empty_append]
  case ticksTaken_le => exact fun found s' h => h.ticksTaken_le
  case counter => exact fun found s' h => h.counter_eq hspaced.still
  case length_le =>
    intro found s' h
    have hle := h.length_le hspaced
    omega
  case idle_le =>
    intro before idle later s' h hidle
    rw [List.append_assoc] at h
    obtain ⟨s₀, left₀, hspaced₀, hrest⟩ := h.drop hspaced
    exact Nat.le_trans (Drives.length_idle_le hspaced₀ hrest hidle) (s₀.hw.card_within_le 0)

/-- A scheduler with an event every millisecond, and a counter that stands at all four channels. -/
def jammed : Scheduler SimTimer Recorder 3 :=
  let s := (bench.exec everyMs).2
  { s with hw := { s.hw with channels := Vector.replicate 4 (some s.hw.counter) } }

/-- The first match of `jammed` is that of the fallback channel, and its interrupt arms the primary
channel too. Two channels that are not the scheduler's own are met before the counter moves on. -/
theorem completes_jammed :
    Drivable jammed ∧ (jammed.drive 2500).2.clock.timeUs < max64 ∧ Completes 2500 jammed ∧
      (jammed.drive 2500).1.compareMatches.toList.map (fun m => (m.channel, m.ticks)) =
        [(0, 0), (2, 0), (3, 0), (1, 1000), (1, 1000)] ∧
      (jammed.drive 2500).1.left = 500 := by
  have hsetup : SameSetup bench jammed :=
    frame_sameSetup.trans (frame_sameSetup.exec bench everyMs) ⟨rfl, rfl, rfl, rfl, rfl, rfl⟩
  have hdrivable : Drivable jammed := ⟨⟨bench, .inr ⟨_, _, rfl⟩, hsetup⟩, by decide +kernel⟩
  have hnow : (jammed.drive 2500).2.clock.timeUs < max64 := by decide +kernel
  exact ⟨hdrivable, hnow, hdrivable.completes hnow, by decide +kernel, by decide +kernel⟩

end Scheduler

end SoftTimer
