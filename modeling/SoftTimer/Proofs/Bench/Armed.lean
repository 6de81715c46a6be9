import SoftTimer.Proofs.Bench.Distance
import SoftTimer.Proofs.Bench.Setup

/-!
# Armed channels

`Armed since ticks` is what is known of an active scheduler `ticks` ticks after it armed its
channels at the time `since`. The clock has been credited with no more than those ticks, apart from
a fraction of a microsecond that was left over at the time. The fallback channel lies no further
ahead than its distance allows. And if anything is pending, the primary channel lies ahead, no
further from where it was armed than the least distance or the way to any pending event. `Guarded`
is the same without the primary channel, which may be missing, or its interrupts be lost.

Arming the channels brings this about, with no ticks passed (`rearm_guarded`, `rearm_armed`). It
stays true as the clock is read, as events are cancelled and as the counter moves on up to a channel
(`Guarded.advance`, `Armed.advance`). What follows from it is how late an event can be
(`Ticked.timeUs_le`).
-/

namespace SoftTimer

/-- `sync` credits no more than the ticks that have passed, scaled by the rate. -/
theorem Clock.sync_scaled_le (c : Clock) (raw : Nat) :
    (c.sync raw).timeUs * c.tickHz + (c.sync raw).subUs ≤
      c.timeUs * c.tickHz + c.subUs +
        c.width.elapsed c.reading (c.width.reduce raw) * usPerSecond := by
  -- What is credited is a quotient of the scaled ticks and what was left over, and what is left
  -- over now is the remainder. The time may saturate, which only makes it smaller.
  generalize hscaled : c.width.elapsed c.reading (c.width.reduce raw) * usPerSecond + c.subUs =
    scaled
  have htime : (c.sync raw).timeUs ≤ c.timeUs + scaled / c.tickHz := by
    rw [← hscaled]
    exact Nat.min_le_left _ _
  have hsub : (c.sync raw).subUs = scaled % c.tickHz := by
    rw [← hscaled]
    rfl
  have hdiv : scaled / c.tickHz * c.tickHz + scaled % c.tickHz = scaled := Nat.div_add_mod' _ _
  calc (c.sync raw).timeUs * c.tickHz + (c.sync raw).subUs
      ≤ (c.timeUs + scaled / c.tickHz) * c.tickHz + scaled % c.tickHz :=
        Nat.add_le_add (Nat.mul_le_mul_right _ htime) (Nat.le_of_eq hsub)
    _ = c.timeUs * c.tickHz + scaled := by rw [Nat.add_mul, Nat.add_assoc, hdiv]
    _ = c.timeUs * c.tickHz + c.subUs +
        c.width.elapsed c.reading (c.width.reduce raw) * usPerSecond := by
      rw [← hscaled, Nat.add_assoc, Nat.add_comm c.subUs]

/-- `armChannel` does not change how far away the other channels are. -/
theorem SimTimer.ticksUntil?_armChannel_of_ne (t : SimTimer) {channel i : Nat} (h : i ≠ channel)
    (reading : Nat) : (t.armChannel channel reading).ticksUntil? i = t.ticksUntil? i := by
  by_cases hlt : channel < 4
  · have hsame : (t.armChannel channel reading).counter = t.counter ∧
        (t.armChannel channel reading).width = t.width := by
      unfold armChannel
      rw [if_pos hlt]
      exact ⟨rfl, rfl⟩
    unfold ticksUntil?
    rw [compare?_armChannel hlt, if_neg h, hsame.1, hsame.2]
  · unfold armChannel
    rw [if_neg hlt]

namespace Scheduler

variable {K : Type} {n : Nat} {since ticks : Nat}

/-- The ticks that the clock has not seen yet, by which the counter stands beyond its `reading`. -/
def lag (s : Scheduler SimTimer K n) : Nat := s.hw.width.elapsed s.clock.reading s.hw.counter

/-- The most microseconds by which the least distance `minArmTicks` delays an event. -/
def lateBound (s : Scheduler SimTimer K n) : Nat :=
  (s.config.minArmTicks * usPerSecond + (s.clock.tickHz - 1)) / s.clock.tickHz

/-- At most `ticks` ticks are to be credited since the time `since`. -/
structure Ticked (since ticks : Nat) (s : Scheduler SimTimer K n) : Prop where
  /-- The ticks not seen yet are among them. -/
  lag_le : s.lag ≤ ticks
  /-- The time, with all that is left over and not seen yet, is no further than these ticks and
  less than a microsecond since then. -/
  time_lt : s.clock.timeUs * s.clock.tickHz + s.clock.subUs + s.lag * usPerSecond <
    (since + 1) * s.clock.tickHz + ticks * usPerSecond

/-- At most `ticks` ticks have passed since the fallback channel was armed, and it has not been
passed. -/
structure Guarded (since ticks : Nat) (s : Scheduler SimTimer K n) : Prop
    extends Ticked since ticks s where
  /-- The fallback channel lies ahead. -/
  fallback : ∃ left, s.hw.ticksUntil? s.config.fallbackChannel = some left ∧
    ticks + left ≤ s.fallbackTicks

/-- At most `ticks` ticks have passed since both channels were armed, and none of the two has been
passed. -/
structure Armed (since ticks : Nat) (s : Scheduler SimTimer K n) : Prop
    extends Guarded since ticks s where
  /-- The primary channel lies ahead, early enough for every pending event. -/
  primary : ∀ e ∈ s.pool.events, ∃ left,
    s.hw.ticksUntil? s.config.primaryChannel = some left ∧
      ticks + left ≤ max (s.clock.ticksFor (e.timestamp - since)) s.config.minArmTicks

/-! ## Reading the clock -/

/-- The `lag` of a clock that shows the counter is zero. -/
theorem lag_of_reading {s : Scheduler SimTimer K n} (h : s.clock.reading = s.hw.counter) :
    s.lag = 0 := by
  unfold lag
  rw [h]
  exact CounterWidth.elapsed_self _ _

/-- A scheduler stays `Ticked` under `sync`, which credits the ticks of its `lag`. -/
theorem Ticked.sync {s : Scheduler SimTimer K n} (hfitted : Fitted s)
    (hactive : s.suspended = false) (h : Ticked since ticks s) : Ticked since ticks s.sync := by
  have hlag : s.sync.lag = 0 :=
    lag_of_reading (sync_reading hfitted.still hfitted.width hactive)
  have hscaled := s.clock.sync_scaled_le s.hw.counter
  have htime := h.time_lt
  have hsame := frame_sameSetup.sync s
  constructor
  · omega
  · rw [hsame.tickHz, hlag, sync_eq hfitted.still hactive]
    have hmissed : s.clock.width.elapsed s.clock.reading (s.clock.width.reduce s.hw.counter) =
        s.lag := by
      rw [hfitted.width, CounterWidth.reduce_of_lt s.hw.counter_lt]
      rfl
    rw [hmissed] at hscaled
    show (s.clock.sync s.hw.counter).timeUs * s.clock.tickHz + (s.clock.sync s.hw.counter).subUs +
      0 * usPerSecond < _
    omega

/-- A scheduler of the same clock and dial as one that is `Ticked` is so too. -/
theorem Ticked.congr {s s' : Scheduler SimTimer K n} (h : Ticked since ticks s)
    (hclock : s'.clock = s.clock) (hdial : SimTimer.SameDial s.hw s'.hw) :
    Ticked since ticks s' := by
  have hlag : s'.lag = s.lag := by
    unfold lag
    rw [hclock, hdial.width, hdial.counter]
  constructor
  · exact hlag ▸ h.lag_le
  · rw [hclock, hlag]
    exact h.time_lt

/-- A scheduler of the same clock, dial and distances as one that is `Guarded` is so too. -/
theorem Guarded.congr {s s' : Scheduler SimTimer K n} (h : Guarded since ticks s)
    (hclock : s'.clock = s.clock) (hdial : SimTimer.SameDial s.hw s'.hw)
    (hconfig : s'.config = s.config) (hfallback : s'.fallbackTicks = s.fallbackTicks) :
    Guarded since ticks s' := by
  constructor
  · exact h.toTicked.congr hclock hdial
  · rw [hconfig, hfallback, hdial.ticksUntil?]
    exact h.fallback

/-- A scheduler of the same clock, dial and distances as one that is `Armed` is so too, if no other
events are pending. -/
theorem Armed.congr {s s' : Scheduler SimTimer K n} (h : Armed since ticks s)
    (hclock : s'.clock = s.clock) (hdial : SimTimer.SameDial s.hw s'.hw)
    (hconfig : s'.config = s.config) (hfallback : s'.fallbackTicks = s.fallbackTicks)
    (hpool : ∀ e ∈ s'.pool.events, e ∈ s.pool.events) : Armed since ticks s' := by
  constructor
  · exact h.toGuarded.congr hclock hdial hconfig hfallback
  · intro e he
    rw [hconfig, hclock, hdial.ticksUntil?]
    exact h.primary e (hpool e he)

/-- A scheduler stays `Guarded` under `sync`. -/
theorem Guarded.sync {s : Scheduler SimTimer K n} (hfitted : Fitted s)
    (hactive : s.suspended = false) (h : Guarded since ticks s) : Guarded since ticks s.sync := by
  have hticked := h.toTicked.sync hfitted hactive
  rw [sync_eq hfitted.still hactive] at hticked ⊢
  exact ⟨hticked, h.fallback⟩

/-- A scheduler stays `Armed` under `sync`. -/
theorem Armed.sync {s : Scheduler SimTimer K n} (hfitted : Fitted s) (hactive : s.suspended = false)
    (h : Armed since ticks s) : Armed since ticks s.sync := by
  have hguarded := h.toGuarded.sync hfitted hactive
  rw [sync_eq hfitted.still hactive] at hguarded ⊢
  exact ⟨hguarded, h.primary⟩

/-! ## Arming the channels -/

/-- `armDistance` is at most the distance of the fallback channel. -/
theorem armDistance_le (s : Scheduler SimTimer K n) (us : Nat) :
    s.armDistance us ≤ s.fallbackTicks := Nat.min_le_right _ _

/-- `armDistance` is at most `ticksFor` the time until the event or the least distance. -/
theorem armDistance_le_max (s : Scheduler SimTimer K n) (us : Nat) :
    s.armDistance us ≤ max (s.clock.ticksFor us) s.config.minArmTicks := by
  have hsat : s.clock.usToTicks us ≤ s.clock.ticksFor us := Nat.min_le_left _ _
  unfold armDistance
  omega

/-- `ticksFor` a longer time are no fewer. -/
theorem ticksFor_mono (c : Clock) {us us' : Nat} (h : us ≤ us') :
    c.ticksFor us ≤ c.ticksFor us' := by
  unfold Clock.ticksFor
  exact Nat.div_le_div_right (Nat.add_le_add_right (Nat.mul_le_mul_right _ h) _)

/-- `armAhead` of a clock that shows the counter arms the channel that far away. -/
theorem ticksUntil?_armAhead {s : Scheduler SimTimer K n} (hfitted : Fitted s)
    (hreading : s.clock.reading = s.hw.counter) {channel distance : Nat} (hchannel : channel < 4)
    (hle : distance ≤ s.fallbackTicks) :
    (s.armAhead channel distance).hw.ticksUntil? channel = some distance := by
  show (s.hw.armChannel channel (s.clock.width.offset s.clock.reading distance)).ticksUntil?
    channel = _
  rw [hreading, hfitted.width]
  exact SimTimer.ticksUntil?_armChannel hchannel
    (Nat.lt_of_le_of_lt hle hfitted.fallbackTicks_lt)

/-- `armPrimary` does not move the counter. -/
theorem armPrimary_counter (s : Scheduler SimTimer K n) :
    s.armPrimary.hw.counter = s.hw.counter := by
  unfold armPrimary
  split
  · exact (s.armAhead_hw _ _).2.1
  · rfl

/-- `armPrimary` arms the channel early enough for every event, if the pool remembers the earliest.
-/
theorem ticksUntil?_armPrimary {s : Scheduler SimTimer K n} (hwired : Wired s)
    (hreading : s.clock.reading = s.hw.counter) {p : Pool n} (hpool : s.pool = p.recompute)
    {e : Event} (he : e ∈ p.events) :
    ∃ left, s.armPrimary.hw.ticksUntil? s.config.primaryChannel = some left ∧
      left ≤ max (s.clock.ticksFor (e.timestamp - s.clock.timeUs)) s.config.minArmTicks := by
  cases hnext : p.recompute.nextEvent? with
  | none =>
    rw [Pool.nextEvent?_recompute_eq_none hnext] at he
    cases he
  | some earliest =>
    -- The channel is armed for the earliest event, and the way to this one is no shorter.
    have hkey : earliest.timestamp ≤ e.timestamp :=
      Event.timestamp_le_of_key_le (Pool.nextEvent?_recompute hnext e he)
    have hsooner := Nat.sub_le_sub_right hkey s.clock.timeUs
    have harm : s.armPrimary = s.armAhead s.config.primaryChannel
        (s.armDistance (earliest.timestamp - s.clock.timeUs)) := by
      unfold armPrimary
      rw [hpool, hnext]
    refine ⟨s.armDistance (earliest.timestamp - s.clock.timeUs), ?_, ?_⟩
    · rw [harm]
      exact ticksUntil?_armAhead hwired.toFitted hreading hwired.primary_lt (s.armDistance_le _)
    · calc s.armDistance (earliest.timestamp - s.clock.timeUs)
          ≤ max (s.clock.ticksFor (earliest.timestamp - s.clock.timeUs)) s.config.minArmTicks :=
            s.armDistance_le_max _
        _ ≤ max (s.clock.ticksFor (e.timestamp - s.clock.timeUs)) s.config.minArmTicks :=
            max_le_max_right _ (ticksFor_mono _ hsooner)

/-- `armFallback` leaves the scheduler `Guarded` with no ticks passed. -/
theorem armFallback_guarded {s : Scheduler SimTimer K n} (hfitted : Fitted s)
    (hreading : s.clock.reading = s.hw.counter) : Guarded s.clock.timeUs 0 s.armFallback := by
  -- Arming the fallback channel does not move the counter.
  have hcounter := (s.armAhead_hw s.config.fallbackChannel s.fallbackTicks).2.1
  have hlag : s.armFallback.lag = 0 := lag_of_reading (hreading.trans hcounter.symm)
  constructor
  · have hsub := s.clock.subUs_lt
    constructor
    · exact Nat.le_of_eq hlag
    · rw [hlag]
      show s.clock.timeUs * s.clock.tickHz + s.clock.subUs + 0 * usPerSecond <
        (s.clock.timeUs + 1) * s.clock.tickHz + 0 * usPerSecond
      rw [Nat.add_mul]
      omega
  · refine ⟨s.fallbackTicks, ?_, Nat.le_of_eq (Nat.zero_add _)⟩
    exact ticksUntil?_armAhead hfitted hreading hfitted.fallback_lt (Nat.le_refl _)

/-- `rearm` arms the channels, the primary one first, by a clock that shows the counter and for the
earliest event. -/
theorem rearm_eq {s : Scheduler SimTimer K n} (hfitted : Fitted s) (hactive : s.suspended = false) :
    ∃ ready, s.rearm = ready.armPrimary.armFallback ∧ SameSetup s ready ∧
      ready.clock.reading = ready.hw.counter ∧ ready.pool = s.pool.recompute := by
  have hrefresh : SameSetup s s.refresh := ⟨rfl, rfl, rfl, rfl, rfl, rfl⟩
  refine ⟨s.refresh.sync, ?_, frame_sameSetup.trans hrefresh (frame_sameSetup.sync s.refresh), ?_,
    s.refresh.sync_same.pool⟩
  · unfold rearm
    rw [if_neg (by rw [hactive]; decide)]
  · exact sync_reading hfitted.still hfitted.width hactive

/-- `rearm` leaves the scheduler `Guarded` with no ticks passed. -/
theorem rearm_guarded {s : Scheduler SimTimer K n} (hfitted : Fitted s)
    (hactive : s.suspended = false) : Guarded s.rearm.clock.timeUs 0 s.rearm := by
  obtain ⟨ready, hrearm, hsetup, hreading, -⟩ := rearm_eq hfitted hactive
  have hsetup' := frame_sameSetup.trans hsetup (frame_sameSetup.armPrimary ready)
  rw [hrearm]
  refine armFallback_guarded (hfitted.of_sameSetup hsetup') ?_
  rw [ready.armPrimary_clock, hreading, armPrimary_counter]

/-- `rearm` leaves the scheduler `Armed` with no ticks passed. -/
theorem rearm_armed {s : Scheduler SimTimer K n} (hwired : Wired s)
    (hactive : s.suspended = false) : Armed s.rearm.clock.timeUs 0 s.rearm := by
  have hguarded := rearm_guarded hwired.toFitted hactive
  obtain ⟨ready, hrearm, hsetup, hreading, hpool⟩ := rearm_eq hwired.toFitted hactive
  have hready : Wired ready := hwired.of_sameSetup hsetup
  have hsame := arms_sameBut.armPrimary ready
  rw [hrearm] at hguarded ⊢
  refine ⟨hguarded, fun e he => ?_⟩
  -- Arming the fallback channel does not touch the primary one.
  have he' : e ∈ s.pool.events := by
    have hmem : e ∈ ready.armPrimary.pool.events := he
    rw [hsame.pool, hpool] at hmem
    exact hmem
  obtain ⟨left, hleft, hle⟩ := ticksUntil?_armPrimary hready hreading hpool he'
  have hclock : ready.armPrimary.armFallback.clock = ready.clock := ready.armPrimary_clock
  have hconfig : ready.armPrimary.armFallback.config = ready.config := hsame.config
  have hother : ready.armPrimary.armFallback.hw.ticksUntil? ready.config.primaryChannel =
      ready.armPrimary.hw.ticksUntil? ready.config.primaryChannel := by
    apply SimTimer.ticksUntil?_armChannel_of_ne
    rw [hsame.config]
    exact hready.channels_ne
  rw [hclock, hconfig, hother]
  exact ⟨left, hleft, (Nat.zero_add left).symm ▸ hle⟩

/-! ## Moving the counter -/

/-- The `lag` grows by the ticks that the counter moves on, as long as both together are less than a
turn. -/
theorem lag_moved {s : Scheduler SimTimer K n} {hw : SimTimer} {more : Nat}
    (hwidth : hw.width = s.hw.width) (hcounter : hw.counter = s.hw.width.offset s.hw.counter more)
    (hlt : s.lag + more < s.hw.width.modulus) :
    ({ s with hw := hw } : Scheduler SimTimer K n).lag = s.lag + more := by
  show hw.width.elapsed s.clock.reading hw.counter = _
  rw [hwidth, hcounter]
  exact CounterWidth.elapsed_offset_right _ hlt

/-- A scheduler stays `Ticked` with more ticks when the counter moves on by less than what is left
of a turn. -/
theorem Ticked.advance {s : Scheduler SimTimer K n} (h : Ticked since ticks s) {hw : SimTimer}
    {more : Nat} (hwidth : hw.width = s.hw.width)
    (hcounter : hw.counter = s.hw.width.offset s.hw.counter more)
    (hlt : ticks + more < s.hw.width.modulus) :
    Ticked since (ticks + more) { s with hw := hw } := by
  have hle := h.lag_le
  have htime := h.time_lt
  have hlag := lag_moved hwidth hcounter (Nat.lt_of_le_of_lt (Nat.add_le_add_right hle more) hlt)
  constructor
  · omega
  · rw [hlag]
    show s.clock.timeUs * s.clock.tickHz + s.clock.subUs + (s.lag + more) * usPerSecond <
      (since + 1) * s.clock.tickHz + (ticks + more) * usPerSecond
    rw [Nat.add_mul s.lag, Nat.add_mul ticks]
    omega

/-- A scheduler stays `Guarded` with more ticks as long as the counter does not pass the fallback
channel, and that is not disarmed. -/
theorem Guarded.advance {s : Scheduler SimTimer K n} (hfitted : Fitted s)
    (h : Guarded since ticks s) {hw : SimTimer} {more : Nat} (hwidth : hw.width = s.hw.width)
    (hcounter : hw.counter = s.hw.width.offset s.hw.counter more)
    (hahead : ∀ left, s.hw.ticksUntil? s.config.fallbackChannel = some left → more ≤ left)
    (hfallback : hw.compare? s.config.fallbackChannel = s.hw.compare? s.config.fallbackChannel) :
    Guarded since (ticks + more) { s with hw := hw } := by
  -- The fallback channel is ahead and less than a turn away, so the counter stays within a turn.
  obtain ⟨left, hleft, hle⟩ := h.fallback
  have hmore := hahead left hleft
  have hlt := hfitted.fallbackTicks_lt
  constructor
  · exact h.toTicked.advance hwidth hcounter (by omega)
  · refine ⟨left - more, SimTimer.ticksUntil?_moved hwidth hcounter hfallback hleft hmore, ?_⟩
    show ticks + more + (left - more) ≤ s.fallbackTicks
    omega

/-- A scheduler stays `Armed` with more ticks as long as the counter passes no armed channel, and
neither channel is disarmed. -/
theorem Armed.advance {s : Scheduler SimTimer K n} (hfitted : Fitted s) (h : Armed since ticks s)
    {hw : SimTimer} {more : Nat} (hwidth : hw.width = s.hw.width)
    (hcounter : hw.counter = s.hw.width.offset s.hw.counter more)
    (hahead : ∀ channel left, s.hw.ticksUntil? channel = some left → more ≤ left)
    (hprimary : hw.compare? s.config.primaryChannel = s.hw.compare? s.config.primaryChannel)
    (hfallback : hw.compare? s.config.fallbackChannel = s.hw.compare? s.config.fallbackChannel) :
    Armed since (ticks + more) { s with hw := hw } := by
  constructor
  · exact h.toGuarded.advance hfitted hwidth hcounter (hahead _) hfallback
  · intro e he
    obtain ⟨left, hleft, hle⟩ := h.primary e he
    have hmore := hahead _ _ hleft
    refine ⟨left - more, SimTimer.ticksUntil?_moved hwidth hcounter hprimary hleft hmore, ?_⟩
    have hsum : ticks + more + (left - more) = ticks + left := by omega
    rw [hsum]
    exact hle

/-! ## How late it can be -/

/-- A quotient that was rounded up, times its divisor `hz`, is enough. -/
theorem le_ceil_mul {a hz : Nat} (hhz : 0 < hz) : a ≤ (a + (hz - 1)) / hz * hz := by
  have hdiv := Nat.div_add_mod (a + (hz - 1)) hz
  have hmod := Nat.mod_lt (a + (hz - 1)) hhz
  rw [Nat.mul_comm] at hdiv
  omega

/-- As many ticks as it takes to come `us` further, rounded up, or as few as `least`, are not worth
more than that and the delay of the least distance. -/
theorem ticks_mul_le {scale hz ticks us least : Nat} (hhz : 0 < hz) (hleast : 0 < least)
    (hticks : ticks ≤ max ((us * hz + (scale - 1)) / scale) least) :
    ticks * scale ≤ (us + (least * scale + (hz - 1)) / hz) * hz := by
  have hbound_le : least * scale ≤ (least * scale + (hz - 1)) / hz * hz := le_ceil_mul hhz
  generalize (least * scale + (hz - 1)) / hz = bound at hbound_le ⊢
  rcases le_max_iff.mp hticks with hway | hshort
  · -- Rounding up costs less than a tick, and the least distance is one tick at least.
    have hone : scale ≤ least * scale := Nat.le_mul_of_pos_left _ hleast
    calc ticks * scale ≤ (us * hz + (scale - 1)) / scale * scale := Nat.mul_le_mul_right _ hway
      _ ≤ us * hz + (scale - 1) := Nat.div_mul_le_self _ _
      _ ≤ us * hz + bound * hz := by omega
      _ = (us + bound) * hz := (Nat.add_mul _ _ _).symm
  · calc ticks * scale ≤ least * scale := Nat.mul_le_mul_right _ hshort
      _ ≤ bound * hz := hbound_le
      _ ≤ (us + bound) * hz := Nat.mul_le_mul_right _ (Nat.le_add_left _ _)

/-- A time that is less than a microsecond and `ticks` ticks after `since` is at most as many
microseconds later as the ticks are worth. -/
theorem time_le_add {scale hz time since ticks us : Nat}
    (htime : time * hz < (since + 1) * hz + ticks * scale) (hmul : ticks * scale ≤ us * hz) :
    time ≤ since + us := by
  have hlt : time * hz < (since + us + 1) * hz := by
    calc time * hz < (since + 1) * hz + ticks * scale := htime
      _ ≤ (since + 1) * hz + us * hz := Nat.add_le_add_left hmul _
      _ = (since + us + 1) * hz := by
        rw [← Nat.add_mul]
        congr 1
        omega
  exact Nat.le_of_lt_succ (Nat.lt_of_mul_lt_mul_right hlt)

/-- The time that `timeUs` reads is later than `since` by less than a microsecond and the ticks of
`Ticked`. -/
theorem Ticked.timeUs_lt {s : Scheduler SimTimer K n} (hfitted : Fitted s)
    (hactive : s.suspended = false) (h : Ticked since ticks s) :
    s.timeUs.1 * s.clock.tickHz < (since + 1) * s.clock.tickHz + ticks * usPerSecond := by
  have hticked : Ticked since ticks s.entered := h.congr rfl (.enter s.hw)
  have hsynced := hticked.sync (hfitted.of_sameSetup (frame_sameSetup.enter s)) hactive
  have htime := hsynced.time_lt
  rw [(frame_sameSetup.sync s.entered).tickHz] at htime
  show s.entered.sync.clock.timeUs * s.entered.clock.tickHz < _
  exact Nat.lt_of_le_of_lt (by rw [Nat.add_assoc]; exact Nat.le_add_right _ _) htime

/-- The time that `timeUs` reads is at most `lateBound` later than the event and `since`, when no
more ticks have passed than to the event or the least distance. -/
theorem Ticked.timeUs_le {s : Scheduler SimTimer K n} (hwired : Wired s)
    (hactive : s.suspended = false) (h : Ticked since ticks s) {timestamp : Nat}
    (hticks : ticks ≤ max (s.clock.ticksFor (timestamp - since)) s.config.minArmTicks) :
    s.timeUs.1 ≤ max timestamp since + s.lateBound := by
  have hmul := ticks_mul_le s.clock.tickHz_pos hwired.minArm_pos hticks
  have hle := time_le_add (h.timeUs_lt hwired.toFitted hactive) hmul
  -- A timestamp that had come when the channels were armed is no way off.
  have hlater : since + (timestamp - since) = max timestamp since := by omega
  rw [← Nat.add_assoc, hlater] at hle
  exact hle

/-- The most microseconds by which the distance `fallbackTicks` delays an event. -/
def fallbackBound (s : Scheduler SimTimer K n) : Nat :=
  (s.fallbackTicks * usPerSecond + (s.clock.tickHz - 1)) / s.clock.tickHz

/-- The time that `timeUs` reads is at most `fallbackBound` later than `since`, when no more ticks
have passed than to the fallback channel. -/
theorem Ticked.timeUs_le_fallback {s : Scheduler SimTimer K n} (hfitted : Fitted s)
    (hactive : s.suspended = false) (h : Ticked since ticks s) (hticks : ticks ≤ s.fallbackTicks) :
    s.timeUs.1 ≤ since + s.fallbackBound := by
  refine time_le_add (h.timeUs_lt hfitted hactive) ?_
  calc ticks * usPerSecond ≤ s.fallbackTicks * usPerSecond := Nat.mul_le_mul_right _ hticks
    _ ≤ s.fallbackBound * s.clock.tickHz := le_ceil_mul s.clock.tickHz_pos

end Scheduler

end SoftTimer
