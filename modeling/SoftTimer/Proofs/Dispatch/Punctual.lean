import SoftTimer.Proofs.Bench.Setup
import SoftTimer.Proofs.Clock.Ticks
import SoftTimer.Proofs.Scheduler.Requests
import SoftTimer.Proofs.Words.Drain

/-!
# The primary channel is never early

The ticks for a time are rounded up and the time of ticks is rounded down, and the two fit together
(`Clock.usToTicks_le_iff`): so many microseconds have passed after so many ticks exactly when no
more ticks are needed for them. What the clock carries from before only makes it run ahead, by less
than a tick.

The main statement is `Run.punctual`. The channels of a scheduler are armed for an event that is not
due yet and not beyond the fallback distance. When the counter comes to where the primary channel
was armed, the event is due, and it fires. Unless the least distance has made it wait, it is late by
one tick at most (`Met`). Until then anything may be done to the scheduler that does not arm the
channels again (`Underway`).
-/

namespace SoftTimer

/-! ## Ticks and time -/

namespace Clock

/-- `usToTicks` of a time is no more than `ticks` exactly when the time is no longer than these
ticks are worth, for ticks below the largest word. -/
theorem usToTicks_le_iff (c : Clock) (us : Nat) {ticks : Nat} (h : ticks < max64) :
    c.usToTicks us ≤ ticks ↔ us ≤ ticks * usPerSecond / c.tickHz := by
  have hsat : c.usToTicks us ≤ ticks ↔ c.ticksFor us ≤ ticks := by
    unfold usToTicks sat64
    omega
  rw [hsat, c.ticksFor_le_iff]

/-- `usToTicks` is `ticksFor`, cut off at 64 bits. -/
theorem usToTicks_le_ticksFor (c : Clock) (us : Nat) : c.usToTicks us ≤ c.ticksFor us := by
  unfold usToTicks sat64
  exact Nat.min_le_left _ _

/-- The clock after `tick` shows the time of those ticks and of what was carried, up to the end of
time. -/
theorem timeUs_tick (c : Clock) {ticks : Nat} (h : ticks < c.width.modulus) :
    (c.tick ticks).timeUs =
      min (c.timeUs + (ticks * usPerSecond + c.subUs) / c.tickHz) max64 := by
  rw [c.tick_eq h]
  rfl

section Aimed

variable (c : Clock) {time ticks : Nat}

/-- A clock that has ticked at least `usToTicks` of the span until some time shows that time or a
later one. -/
theorem le_timeUs_tick (htime : time ≤ max64) (hticks : ticks < c.width.modulus)
    (h : c.usToTicks (time - c.timeUs) ≤ ticks) : time ≤ (c.tick ticks).timeUs := by
  have hmodulus : c.width.modulus ≤ max64 := by cases c.width <;> decide
  have hworth := (c.usToTicks_le_iff _ (Nat.lt_of_lt_of_le hticks hmodulus)).mp h
  have hcarried : ticks * usPerSecond / c.tickHz ≤ (ticks * usPerSecond + c.subUs) / c.tickHz :=
    Nat.div_le_div_right (Nat.le_add_right _ _)
  rw [c.timeUs_tick hticks]
  omega

/-- A clock that has ticked exactly `usToTicks` of the span until some time is less than a tick and
a microsecond past it. -/
theorem timeUs_tick_le (htime : c.timeUs ≤ time) (hticks : ticks < c.width.modulus)
    (h : ticks = c.usToTicks (time - c.timeUs)) :
    (c.tick ticks).timeUs ≤ time + (usPerSecond - 1 + (c.tickHz - 1)) / c.tickHz := by
  have hsub := c.subUs_lt
  have hceil : ticks * usPerSecond ≤ (time - c.timeUs) * c.tickHz + (usPerSecond - 1) := by
    have hle : ticks ≤ c.ticksFor (time - c.timeUs) := h.trans_le (c.usToTicks_le_ticksFor _)
    unfold ticksFor usPerSecond at hle
    unfold usPerSecond
    omega
  -- What the ticks are worth beyond the time is less than a microsecond of ticks.
  have hworth : (ticks * usPerSecond + c.subUs) / c.tickHz ≤
      (time - c.timeUs) + (usPerSecond - 1 + (c.tickHz - 1)) / c.tickHz := by
    calc (ticks * usPerSecond + c.subUs) / c.tickHz
        ≤ (c.tickHz * (time - c.timeUs) + (usPerSecond - 1 + (c.tickHz - 1))) / c.tickHz := by
          refine Nat.div_le_div_right ?_
          rw [Nat.mul_comm c.tickHz]
          omega
      _ = (time - c.timeUs) + (usPerSecond - 1 + (c.tickHz - 1)) / c.tickHz :=
          Nat.mul_add_div c.tickHz_pos _ _
  rw [c.timeUs_tick hticks]
  calc min (c.timeUs + (ticks * usPerSecond + c.subUs) / c.tickHz) max64
      ≤ c.timeUs + (ticks * usPerSecond + c.subUs) / c.tickHz := Nat.min_le_left _ _
    _ ≤ c.timeUs + ((time - c.timeUs) + (usPerSecond - 1 + (c.tickHz - 1)) / c.tickHz) :=
        Nat.add_le_add_left hworth _
    _ = time + (usPerSecond - 1 + (c.tickHz - 1)) / c.tickHz := by
        rw [← Nat.add_assoc, Nat.add_sub_cancel' htime]

end Aimed

end Clock

namespace Scheduler

variable {H K : Type} {n : Nat} [TimerHardware H] {s s' : Scheduler H K n}

/-! ## What holds of every scheduler that was made -/

/-- The fallback distance is no shorter than `minArmTicks` and less than a turn, and the two
channels are different. -/
structure Tuned (s : Scheduler H K n) : Prop where
  /-- The channels are different. -/
  channels_ne : s.config.primaryChannel ≠ s.config.fallbackChannel
  /-- The least distance is no longer than the fallback distance. -/
  minArm_le : s.config.minArmTicks ≤ s.fallbackTicks
  /-- The fallback distance is less than a turn. -/
  fallbackTicks_lt : s.fallbackTicks < s.clock.width.modulus

/-- Every operation leaves a `Tuned` scheduler `Tuned`. -/
theorem frame_tuned : Frame fun s s' : Scheduler H K n => s.Tuned → s'.Tuned where
  refl _ h := h
  trans h h' htuned := h' (h htuned)
  enter _ h := ⟨h.1, h.2, h.3⟩
  leave _ _ h := ⟨h.1, h.2, h.3⟩
  sync s h := by
    unfold sync
    split <;> exact ⟨h.1, h.2, h.3⟩
  arm _ _ _ h := ⟨h.1, h.2, h.3⟩
  contents _ _ _ _ _ h := ⟨h.1, h.2, h.3⟩
  restart _ _ _ h := ⟨h.1, h.2, h.3⟩

omit [TimerHardware H] in
/-- The `fallbackDistance` is less than a turn of the counter. -/
theorem fallbackDistance_lt (clock : Clock) (config : Config) :
    fallbackDistance clock config < clock.width.modulus := by
  have hhalf : clock.width.mask / 2 < clock.width.modulus := by cases clock.width <;> decide
  exact Nat.lt_of_le_of_lt (Nat.min_le_right _ _) hhalf

/-- The `fallbackDistance` of the `standard` configuration is no shorter than its least distance, on
any hardware. -/
theorem minArm_le_ofHardware (hw : H) (sink : K) :
    Config.standard.minArmTicks ≤
      (ofHardware hw sink .standard : Scheduler H K n).fallbackTicks := by
  have hhalf : ∀ width : CounterWidth, 10 ≤ width.mask / 2 := by
    intro width
    cases width <;> decide
  -- The standard interval of ten seconds is ten ticks at the slowest.
  have hticks : ∀ c : Clock, 10 ≤ c.usToTicks Config.standard.fallbackIntervalUs := by
    intro c
    have hpos := c.tickHz_pos
    have hinterval : Config.standard.fallbackIntervalUs = 10000000 := rfl
    unfold Clock.usToTicks Clock.ticksFor sat64 usPerSecond max64
    rw [hinterval]
    omega
  have hdistance : (ofHardware hw sink .standard : Scheduler H K n).fallbackTicks =
      fallbackDistance (ofHardware hw sink .standard : Scheduler H K n).clock .standard := rfl
  have hleast : Config.standard.minArmTicks = 10 := rfl
  rw [hdistance, hleast]
  unfold fallbackDistance
  exact Nat.le_min.mpr ⟨Nat.le_trans (hticks _) (Nat.le_max_left _ _), hhalf _⟩

/-- A scheduler that is `Fresh` is `Tuned`. -/
theorem Fresh.tuned (h : s.Fresh) : s.Tuned := by
  have hmade : ∀ (hw : H) (sink : K) (config : Config), config.validate = .ok () →
      config.minArmTicks ≤ (ofHardware hw sink config : Scheduler H K n).fallbackTicks →
      (ofHardware hw sink config : Scheduler H K n).begin.Tuned := by
    intro hw sink config hvalid hle
    have htuned : (ofHardware hw sink config : Scheduler H K n).Tuned :=
      ⟨(Config.validate_eq_ok.mp hvalid).1, hle, fallbackDistance_lt _ config⟩
    exact frame_tuned.rearmNow _ htuned
  rcases h with ⟨hw, sink, config, hnew⟩ | ⟨hw, sink, rfl⟩
  · obtain ⟨hvalid, hle, rfl⟩ := new_eq_ok hnew
    exact hmade hw sink config hvalid hle
  · exact hmade hw sink .standard Config.validate_standard (minArm_le_ofHardware hw sink)

section Runs

variable [EventSink K] {start : Scheduler H K n} {log : List Happening}

/-- A run from a `Fresh` scheduler leaves it `Tuned`. -/
theorem Run.tuned (hfresh : start.Fresh) (hrun : Run start log s) : s.Tuned := by
  induction hrun with
  | start => exact hfresh.tuned
  | move hw _ ih => exact ⟨ih.1, ih.2, ih.3⟩
  | exec c _ ih => exact frame_tuned.exec _ c ih

/-- After a run from a `Fresh` scheduler every pending event is due at a time that fits in 64 bits.
-/
theorem Run.pool_fits (hfresh : start.Fresh) (hrun : Run start log s) : s.pool.Fits := by
  induction hrun with
  | start =>
    intro slot e he
    rw [hfresh.pool.get?, Pool.get?_empty] at he
    cases he
  | move hw _ ih => exact ih
  | @exec _ s c _ ih =>
    rcases s.exec_pool c with hages | ⟨request, -, haccepted⟩
    · exact ih.ages hages
    · cases haccepted with
      | accepted _ hgood _ _ _ hput =>
        exact ih.put hput (request.registration_fits hgood _ _)

end Runs

/-! ## Until the channels are armed again -/

/-- Whether a `Command` arms the channels of a scheduler whose clock is going. -/
def arms (s : Scheduler H K n) : Command → Bool
  | .timeMs | .timeUs | .wait _ | .suspend => false
  | .schedule request => (s.schedule request).1.isOk
  | .cancel id value =>
    !(s.pool.find id value).isEmpty &&
      (s.pool.releaseAll (s.pool.find id value)).earliest != s.pool.next
  | .compareMatch channel => (s.config.sourceOf? channel).isSome
  | .rearm | .interrupt _ | .resume _ _ => true

variable [EventSink K]

/-- What may have become of the scheduler `armed` as long as its channels are not armed again and
its clock is not stopped. -/
inductive Underway (armed : Scheduler H K n) : Scheduler H K n → Prop
  /-- Nothing has been done yet. -/
  | start : Underway armed armed
  /-- The hardware changes by itself; above all, its counter moves. -/
  | move {s : Scheduler H K n} (hw : H) (h : Underway armed s) :
    Underway armed { s with hw := hw }
  /-- An operation is carried out that does not arm the channels. -/
  | exec {s : Scheduler H K n} (c : Command) (hquiet : s.arms c = false) (hgoing : c ≠ .suspend)
    (h : Underway armed s) : Underway armed (s.exec c).2

/-- The event `e` stands in the remembered slot of an active scheduler of configuration `config`. -/
structure Waiting (e : Event) (config : Config) (s : Scheduler H K n) : Prop where
  /-- The clock is going. -/
  active : s.suspended = false
  /-- The channels are the same. -/
  config_eq : s.config = config
  /-- The event is in the slot remembered. -/
  slot : ∃ slot, s.pool.next = some slot ∧ s.pool.get? slot = some e

namespace Waiting

variable {e : Event} {config : Config}

omit [TimerHardware H] [EventSink K] in
/-- An event is still `Waiting` in a scheduler of the same pool, configuration and activity. -/
theorem of_pool (h : Waiting e config s) (hactive : s'.suspended = s.suspended)
    (hconfig : s'.config = s.config) (hpool : s'.pool = s.pool) : Waiting e config s' :=
  ⟨hactive.trans h.active, hconfig.trans h.config_eq, hpool.symm ▸ h.slot⟩

omit [EventSink K] in
/-- An event is still `Waiting` after a `withdraw` that does not arm the channels. -/
theorem withdraw (h : Waiting e config s) (id value : UInt16)
    (hquiet : s.arms (.cancel id value) = false) :
    Waiting e config (withdraw id value s).2 := by
  obtain ⟨slot, hnext, hget⟩ := h.slot
  have hcond : (!(s.pool.find id value).isEmpty &&
      (s.pool.releaseAll (s.pool.find id value)).earliest != s.pool.next) = false := hquiet
  rw [withdraw_eq, hcond, if_neg Bool.false_ne_true]
  refine ⟨h.active, h.config_eq, slot, ?_⟩
  dsimp only
  rw [Bool.and_eq_false_imp] at hcond
  by_cases hnone : s.pool.find id value = []
  · rw [hnone]
    exact ⟨hnext, hget⟩
  · -- The slot remembered is still the earliest, so it was not freed.
    have hearliest : (s.pool.releaseAll (s.pool.find id value)).earliest = s.pool.next := by
      simpa [hnone] using hcond
    have hcached := Pool.cached_releaseAll hearliest
    obtain ⟨e', he'⟩ := Pool.earliest_eq_some (hearliest.trans hnext)
    rw [Pool.get?_releaseAll] at he' ⊢
    split at he'
    · cases he'
    · next hkept => exact ⟨hcached.trans (hearliest.trans hnext), (if_neg hkept).trans hget⟩

/-- An event is still `Waiting` after a `Command` that neither arms the channels nor stops the
clock. -/
theorem exec (h : Waiting e config s) {c : Command} (hquiet : s.arms c = false)
    (hgoing : c ≠ .suspend) : Waiting e config (s.exec c).2 := by
  have hsame : ∀ {s' : Scheduler H K n}, SameBut s s' → Waiting e config s' := fun hs =>
    h.of_pool hs.suspended hs.config hs.pool
  cases c with
  | timeMs => exact hsame (arms_sameBut.timeMs s)
  | timeUs => exact hsame (arms_sameBut.timeUs s)
  | wait span => exact hsame (arms_sameBut.wait span s)
  | suspend => exact absurd rfl hgoing
  | schedule request =>
    cases hreply : (s.schedule request).1 with
    | ok =>
      have hok : (s.schedule request).1.isOk = false := hquiet
      rw [hreply] at hok
      cases hok
    | error reason =>
      have hrefused := schedule_refused hreply
      exact h.of_pool hrefused.suspended hrefused.config hrefused.pool
  | cancel id value =>
    have hentered : Waiting e config s.entered := ⟨h.active, h.config_eq, h.slot⟩
    have hcancelled := hentered.withdraw id value hquiet
    exact ⟨hcancelled.active, hcancelled.config_eq, hcancelled.slot⟩
  | compareMatch channel =>
    have hforeign : s.config.sourceOf? channel = none :=
      Option.isNone_iff_eq_none.mp (Option.isSome_eq_false_iff.mp hquiet)
    show Waiting e config (s.compareMatch channel).2
    unfold Scheduler.compareMatch
    rw [hforeign]
    exact h
  | rearm | interrupt | resume => cases hquiet

/-- An event is still `Waiting` as long as the scheduler is `Underway`. -/
theorem of_underway {armed : Scheduler H K n} (h : Waiting e config armed)
    (hunderway : Underway armed s) : Waiting e config s := by
  induction hunderway with
  | start => exact h
  | move hw _ ih => exact ⟨ih.active, ih.config_eq, ih.slot⟩
  | exec c hquiet hgoing _ ih => exact ih.exec hquiet hgoing

end Waiting

/-! ## When the primary channel matches -/

omit [EventSink K] in
/-- `rearmNow` of an active scheduler reads the counter once and arms first the primary channel, if
anything is pending, and then the fallback channel. -/
theorem rearmNow_eq {e : Event} (hactive : s.suspended = false)
    (hnext : s.pool.recompute.nextEvent? = some e) :
    s.rearmNow =
      let clock := s.clock.sync (TimerHardware.readCounter (IrqMask.enter s.hw).2).1
      let read := (TimerHardware.readCounter (IrqMask.enter s.hw).2).2
      let ticks := min (max (clock.usToTicks (e.timestamp - clock.timeUs)) s.config.minArmTicks)
        s.fallbackTicks
      { s with
        hw := IrqMask.leave (IrqMask.enter s.hw).1 (TimerHardware.armChannel
          (TimerHardware.armChannel read s.config.primaryChannel
            (clock.width.offset clock.reading ticks))
          s.config.fallbackChannel (clock.width.offset clock.reading s.fallbackTicks))
        clock := clock
        pool := s.pool.recompute } := by
  have hgoing : ¬ s.entered.suspended = true := by
    show ¬ s.suspended = true
    rw [hactive]
    decide
  have hsync : s.entered.refresh.sync = { s.entered.refresh with
      hw := (TimerHardware.readCounter (IrqMask.enter s.hw).2).2
      clock := s.clock.sync (TimerHardware.readCounter (IrqMask.enter s.hw).2).1 } := if_neg hgoing
  have hprimary : s.entered.refresh.sync.armPrimary =
      s.entered.refresh.sync.armAhead s.config.primaryChannel
        (s.entered.refresh.sync.armDistance
          (e.timestamp - s.entered.refresh.sync.clock.timeUs)) := by
    unfold armPrimary
    rw [hsync]
    dsimp only
    rw [show s.entered.refresh.pool.nextEvent? = some e from hnext]
    rfl
  unfold rearmNow
  rw [masked_eq]
  unfold rearm
  rw [if_neg hgoing, hprimary, hsync]
  rfl

/-- The scheduler is about to take the interrupt of its primary channel, which was armed for an
event `ticks` away. -/
structure Met (e : Event) (ticks : Nat) (s : Scheduler H K n) : Prop where
  /-- The time that the interrupt finds is not before the event is due. -/
  due : e.timestamp ≤ s.timeUs.1
  /-- The event is not late by more than a tick, unless the least distance made it wait. -/
  late : s.config.minArmTicks ≤ ticks →
    s.timeUs.1 ≤ e.timestamp + (usPerSecond - 1 + (s.clock.tickHz - 1)) / s.clock.tickHz
  /-- The event fires, unless time is at its end. -/
  fires : s.timeUs.1 < max64 → ∃ f ∈ (s.compareMatch s.config.primaryChannel).1, f.event = e

/-- The channels were armed for an event that is `ticks` away. -/
structure Aimed (e : Event) (ticks : Nat) (s : Scheduler H K n) : Prop where
  /-- The counter was read, and the channels were armed at distances from that reading: the primary
  channel for the event, or for the least distance if the event is nearer. -/
  hw : s.rearmNow.hw = IrqMask.leave (IrqMask.enter s.hw).1 (TimerHardware.armChannel
    (TimerHardware.armChannel (TimerHardware.readCounter (IrqMask.enter s.hw).2).2
      s.config.primaryChannel (s.rearmNow.clock.width.offset s.rearmNow.clock.reading
        (max ticks s.config.minArmTicks)))
    s.config.fallbackChannel (s.rearmNow.clock.width.offset s.rearmNow.clock.reading
      s.fallbackTicks))
  /-- When the counter has come to where the primary channel was armed, whatever was read on the way
  and wherever it has wrapped, the event is met. -/
  met : ∀ s' gone, Underway s.rearmNow s' → gone ≤ max ticks s.config.minArmTicks →
    s'.clock = s.rearmNow.clock.tick gone →
    s'.clock.width.reduce (TimerHardware.readCounter (IrqMask.enter s'.hw).2).1 =
      s.rearmNow.clock.width.offset s.rearmNow.clock.reading (max ticks s.config.minArmTicks) →
    Met e ticks s'

omit [EventSink K] in
/-- A scheduler whose clock has ticked `gone` of the `ticks` that the counter shows finds the time
of all of them at its next reading. -/
theorem timeUs_of_tick (hactive : s.suspended = false) {clock : Clock} {gone ticks : Nat}
    (hticks : ticks < clock.width.modulus) (hgone : gone ≤ ticks)
    (hclock : s.clock = clock.tick gone)
    (hreading : s.clock.width.reduce (TimerHardware.readCounter (IrqMask.enter s.hw).2).1 =
      clock.width.offset clock.reading ticks) :
    s.timeUs.1 = (clock.tick ticks).timeUs := by
  have hread : s.timeUs.2.clock =
      s.clock.sync (TimerHardware.readCounter (IrqMask.enter s.hw).2).1 := by
    rw [timeUs_snd, hactive]
    rfl
  have hahead : gone ≤ clock.width.elapsed clock.reading
      (clock.width.offset clock.reading ticks) := by
    rw [CounterWidth.elapsed_offset _ hticks]
    exact hgone
  calc s.timeUs.1
      = s.timeUs.2.clock.timeUs := rfl
    _ = ((clock.tick gone).sync (clock.width.offset clock.reading ticks)).timeUs := by
      rw [hread, ← Clock.sync_reduce, hreading, hclock]
    _ = (clock.tick ticks).timeUs := by
      rw [Clock.sync_tick clock (clock.width.offset_lt _ _) hahead]
      rfl

/-- A match of the primary channel fires an event that is `Waiting`, once it is due. -/
theorem Waiting.fires {e : Event} (h : Waiting e s.config s)
    (hne : s.config.primaryChannel ≠ s.config.fallbackChannel) (hdue : e.timestamp ≤ s.timeUs.1)
    (hnow : s.timeUs.1 < max64) :
    ∃ f ∈ (s.compareMatch s.config.primaryChannel).1, f.event = e := by
  obtain ⟨slot, -, hget⟩ := h.slot
  have hsource : s.config.sourceOf? s.config.primaryChannel = some .primary := by
    unfold Config.sourceOf?
    rw [if_neg hne, if_pos rfl]
  have hmatch : s.compareMatch s.config.primaryChannel = s.interrupt .primary := by
    unfold compareMatch
    rw [hsource]
  obtain ⟨d, hdrains, -⟩ := interrupt_drains .primary h.active hnow
  obtain ⟨f, hf, hevent⟩ := hdrains.exists_event_eq hget hdue
  rw [hmatch]
  exact ⟨f, Array.mem_toList_iff.mp hf, hevent⟩

/-- `rearmNow` arms the primary channel for an earliest event that is not due yet and no further
away than the fallback distance, as `Aimed` says. -/
theorem aimed {e : Event} (htuned : s.Tuned) (hcached : s.pool.Cached) (hfits : e.timestamp ≤ max64)
    (hactive : s.suspended = false) (hnext : s.pool.nextEvent? = some e)
    (hdue : s.rearmNow.clock.timeUs ≤ e.timestamp)
    (hnear : s.rearmNow.clock.usToTicks (e.timestamp - s.rearmNow.clock.timeUs) ≤
      s.fallbackTicks) :
    Aimed e (s.rearmNow.clock.usToTicks (e.timestamp - s.rearmNow.clock.timeUs)) s := by
  have hpool : s.pool.recompute = s.pool := Pool.ext rfl hcached.symm rfl
  have harmed := rearmNow_eq hactive (hpool.symm ▸ hnext)
  -- Neither bound of the distance cuts off the other.
  have hbelow := Nat.max_le.mpr ⟨hnear, htuned.minArm_le⟩
  have htuned' : s.rearmNow.Tuned := frame_tuned.rearmNow s htuned
  have hfallback : s.rearmNow.fallbackTicks = s.fallbackTicks := by rw [harmed]
  have hconfig : s.rearmNow.config = s.config := by rw [harmed]
  have hticks := Nat.lt_of_le_of_lt hbelow (hfallback ▸ htuned'.fallbackTicks_lt)
  have hwaiting : Waiting e s.config s.rearmNow := by
    obtain ⟨slot, hslot, hget⟩ := Option.bind_eq_some_iff.mp hnext
    have hsame : s.rearmNow.pool = s.pool := by rw [harmed, hpool]
    have hgoing : s.rearmNow.suspended = false := by rw [harmed, hactive]
    exact ⟨hgoing, hconfig, slot, hsame ▸ hslot, hsame ▸ hget⟩
  constructor
  case hw =>
    have hdistance := Nat.min_eq_left hbelow
    rw [harmed] at hdistance ⊢
    dsimp only at hdistance ⊢
    rw [hdistance]
  case met =>
    intro s' gone hunderway hgone hclock hreading
    have hwaiting' := hwaiting.of_underway hunderway
    have htime := timeUs_of_tick hwaiting'.active hticks hgone hclock hreading
    have hlate : e.timestamp ≤ s'.timeUs.1 :=
      htime ▸ Clock.le_timeUs_tick _ hfits hticks (Nat.le_max_left _ _)
    constructor
    case due => exact hlate
    case late =>
      intro hleast
      have hrate : s'.clock.tickHz = s.rearmNow.clock.tickHz := by
        rw [hclock]
        rfl
      rw [hwaiting'.config_eq] at hleast
      rw [htime, hrate]
      exact Clock.timeUs_tick_le _ hdue hticks (Nat.max_eq_left hleast)
    case fires =>
      exact (hwaiting'.config_eq.symm ▸ hwaiting' : Waiting e s'.config s').fires
        (hwaiting'.config_eq ▸ htuned.channels_ne) hlate

/-- The primary channel of a scheduler is never early: `usToTicks` rounds up to the fewest ticks
that are enough, and the match that `rearmNow` asks for finds the event due, after any run and
whatever is `Underway` until then. -/
theorem Run.punctual :
    (∀ (c : Clock) (us ticks : Nat), ticks < max64 →
      (c.usToTicks us ≤ ticks ↔ us ≤ ticks * usPerSecond / c.tickHz)) ∧
    ∀ {start s : Scheduler H K n} {log : List Happening} {e : Event}, start.Fresh →
      Run start log s → s.suspended = false → s.pool.nextEvent? = some e →
      s.rearmNow.clock.timeUs ≤ e.timestamp →
      s.rearmNow.clock.usToTicks (e.timestamp - s.rearmNow.clock.timeUs) ≤ s.fallbackTicks →
      Aimed e (s.rearmNow.clock.usToTicks (e.timestamp - s.rearmNow.clock.timeUs)) s := by
  refine ⟨fun c us ticks => c.usToTicks_le_iff us, ?_⟩
  intro start s log e hfresh hrun hactive hnext hdue hnear
  obtain ⟨slot, -, hget⟩ := Option.bind_eq_some_iff.mp hnext
  exact aimed (hrun.tuned hfresh) (hrun.cached hfresh) (hrun.pool_fits hfresh hget).timestamp_le
    hactive hnext hdue hnear

/-- A watch of 16 bits and 32768 ticks per second, as `withDefaults` makes it. -/
def unset : Scheduler SimTimer Recorder 3 := withDefaults (.new .bits16 32768) .unbounded

/-- The watch `unset` after 65000 ticks, when its counter is about to wrap, and after a request for
an event that is due in 50 milliseconds. -/
def watch : Scheduler SimTimer Recorder 3 :=
  (unset.play [(65000, .schedule ⟨.ms 50, 7, 1, false, .empty⟩)]).2

/-- The event of the `watch`. It is 1639 ticks away, rounded up. -/
def chime : Event := ⟨⟨2033642, 0, 7, 1, .empty⟩, 0⟩

/-- The `watch`, armed, when its counter has wrapped. -/
def wrapped : Scheduler SimTimer Recorder 3 :=
  { watch.rearmNow with hw := watch.rearmNow.hw.advance 1000 }

/-- The watch `wrapped`, after the time was read there. -/
def halfway : Scheduler SimTimer Recorder 3 := (wrapped.exec .timeUs).2

/-- The watch of `halfway`, when 1639 ticks have passed. -/
def struck : Scheduler SimTimer Recorder 3 := { halfway with hw := halfway.hw.advance 639 }

/-- The primary channel of the `watch` was armed beyond the wrap. The `chime` fires 18 microseconds
late. -/
theorem punctual_watch :
    Aimed chime 1639 watch ∧ watch.rearmNow.hw.compare? 1 = some 1103 ∧
      Underway watch.rearmNow struck ∧ Met chime 1639 struck ∧ struck.timeUs.1 = 2033660 ∧
      (struck.compareMatch 1).1.toList.map (·.event) = [chime] := by
  have hfresh : unset.Fresh := .inr ⟨_, _, rfl⟩
  have hrun := unset.run_play [(65000, .schedule ⟨.ms 50, 7, 1, false, .empty⟩)]
  have haway : watch.rearmNow.clock.usToTicks
      (chime.timestamp - watch.rearmNow.clock.timeUs) = 1639 := by decide +kernel
  have haimed : Aimed chime _ watch := Run.punctual.2 hfresh hrun (by decide +kernel)
    (by decide +kernel) (by decide +kernel) (by decide +kernel)
  rw [haway] at haimed
  have hread : Underway watch.rearmNow halfway :=
    Underway.exec (s := wrapped) .timeUs rfl (by decide) (.move _ .start)
  have hunderway : Underway watch.rearmNow struck := .move _ hread
  have hmet := haimed.met struck 1000 hunderway (by decide +kernel) (by decide +kernel)
    (by decide +kernel)
  exact ⟨haimed, by decide +kernel, hunderway, hmet, by decide +kernel, by decide +kernel⟩

end Scheduler

end SoftTimer
