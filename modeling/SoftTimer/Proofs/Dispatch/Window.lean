import Mathlib.Algebra.Order.Floor.Div
import SoftTimer.Proofs.Dispatch.Punctual
import SoftTimer.Proofs.Words.Scheduler

/-!
# The arming window

A scheduler arms its channels no closer than the least distance of its configuration and no further
away than the fallback distance (`Config.window`). It is only made if the one is not longer than the
other (`Config.Suits`), so both bounds can be kept at once. No operation changes either
(`Calibrated`), and none arms a channel but by arming them all anew, once at most (`ArmsOnce`). What
that does is said by `InWindow`, whatever is pending and wherever the counter stands.

The main statement is `arms_in_window`.
-/

namespace SoftTimer

/-! ## Which configurations are accepted -/

namespace Config

variable {c : Config} {width : CounterWidth} {hz : Nat}

/-- The ticks of `fallbackIntervalUs`, rounded up, but at most half of what the counter can show. A
rate of zero counts as one tick per second. -/
def window (c : Config) (width : CounterWidth) (hz : Nat) : Nat :=
  min (c.fallbackIntervalUs * max hz 1 ⌈/⌉ usPerSecond) (width.mask / 2)

/-- What a configuration has to be like for a counter of a `width` and a rate of `hz`. -/
structure Suits (c : Config) (width : CounterWidth) (hz : Nat) : Prop where
  /-- The channels are different. -/
  channels_ne : c.primaryChannel ≠ c.fallbackChannel
  /-- The fallback interval is not zero. -/
  interval_ne : c.fallbackIntervalUs ≠ 0
  /-- The least distance is not zero. -/
  least_ne : c.minArmTicks ≠ 0
  /-- The least distance is no longer than the fallback distance. -/
  least_le : c.minArmTicks ≤ c.window width hz

/-- The `window` is at most half a turn of the counter. -/
theorem window_le (c : Config) (width : CounterWidth) (hz : Nat) :
    c.window width hz ≤ width.mask / 2 := Nat.min_le_right _ _

/-- A configuration that `Suits` some counter passes `validate`. -/
theorem Suits.validate (h : c.Suits width hz) : c.validate = .ok () :=
  validate_eq_ok.mpr ⟨h.channels_ne, h.interval_ne, h.least_ne⟩

/-- `validate` refuses a configuration only with `invalidParameter`. -/
theorem validate_eq_error (h : c.validate ≠ .ok ()) : c.validate = .error .invalidParameter := by
  unfold validate at h ⊢
  split
  · rfl
  · next hgood => exact absurd (if_neg hgood) h

end Config

/-- Half a turn of a counter is less than its `modulus` and fits in 31 bits. -/
theorem CounterWidth.half_lt (w : CounterWidth) :
    w.mask / 2 < w.modulus ∧ w.mask / 2 < 2 ^ 31 := by cases w <;> decide

namespace Scheduler

/-- The `fallbackDistance` of a clock made for a rate of `hz` is the `window` at that rate. -/
theorem fallbackDistance_eq {clock : Clock} {config : Config} {hz : Nat}
    (hrate : clock.tickHz = max hz 1) (hinterval : config.fallbackIntervalUs ≠ 0) :
    fallbackDistance clock config = config.window clock.width hz := by
  have hscaled : 0 < config.fallbackIntervalUs * clock.tickHz :=
    Nat.mul_pos (Nat.pos_of_ne_zero hinterval) clock.tickHz_pos
  have hpos : 0 < config.fallbackIntervalUs * clock.tickHz ⌈/⌉ usPerSecond := by
    by_contra hzero
    have hle := (ceilDiv_le_iff_le_mul (by decide)).mp (Nat.le_of_not_lt hzero)
    rw [Nat.mul_zero] at hle
    exact Nat.not_lt.mpr hle hscaled
  have hticks : clock.ticksFor config.fallbackIntervalUs =
      config.fallbackIntervalUs * clock.tickHz ⌈/⌉ usPerSecond := by
    rw [Nat.ceilDiv_eq_add_pred_div, Nat.add_sub_assoc (by decide)]
    rfl
  have hhalf := clock.width.half_lt.2
  unfold fallbackDistance Config.window Clock.usToTicks sat64
  rw [hticks, ← hrate]
  -- The ticks are one at least, and half a turn is less than the largest word.
  generalize config.fallbackIntervalUs * clock.tickHz ⌈/⌉ usPerSecond = ticks at hpos ⊢
  unfold max64
  omega

variable {H K : Type} {n : Nat} [TimerHardware H]

/-- The `fallbackTicks` of a scheduler on some hardware are the `window` of its configuration there.
-/
theorem fallbackTicks_ofHardware (hw : H) (sink : K) {config : Config}
    (hinterval : config.fallbackIntervalUs ≠ 0) :
    (ofHardware hw sink config : Scheduler H K n).fallbackTicks =
      config.window (TimerHardware.width hw) (TimerHardware.tickHz hw) :=
  have hrate : (ofHardware hw sink config : Scheduler H K n).clock.tickHz =
    max (TimerHardware.tickHz hw) 1 := rfl
  fallbackDistance_eq hrate hinterval

/-- `new` makes a scheduler exactly if the configuration `Suits` the hardware, and is refused with
`invalidParameter` otherwise. -/
theorem new_eq (hw : H) (sink : K) (config : Config) :
    config.Suits (TimerHardware.width hw) (TimerHardware.tickHz hw) ∧
        new hw sink config = .ok (ofHardware hw sink config : Scheduler H K n).begin ∨
      ¬ config.Suits (TimerHardware.width hw) (TimerHardware.tickHz hw) ∧
        (new hw sink config : Except TimerError (Scheduler H K n)) =
          .error .invalidParameter := by
  unfold new
  rw [bind_guard]
  by_cases hvalid : config.validate = .ok ()
  · obtain ⟨hchannels, hinterval, hleast⟩ := Config.validate_eq_ok.mp hvalid
    rw [hvalid, Except.bind, fallbackTicks_ofHardware hw sink hinterval]
    by_cases hle : config.minArmTicks ≤
        config.window (TimerHardware.width hw) (TimerHardware.tickHz hw)
    · rw [if_neg (Nat.not_lt.mpr hle)]
      exact .inl ⟨⟨hchannels, hinterval, hleast, hle⟩, rfl⟩
    · rw [if_pos (Nat.lt_of_not_le hle)]
      exact .inr ⟨fun h => hle h.least_le, rfl⟩
  · rw [Config.validate_eq_error hvalid]
    exact .inr ⟨fun h => hvalid h.validate, rfl⟩

/-- The configuration that is `built` from a setting suits every counter exactly if the setting is
more than nine seconds, since ten ticks are its least distance and a tick is a second at most. -/
theorem suits_built_iff (interval : String) :
    (∀ width hz, (Config.built interval).Suits width hz) ↔
      9000000 < Setting.read interval 10000000 := by
  have hinterval :
      (Config.built interval).fallbackIntervalUs = Setting.read interval 10000000 := rfl
  constructor
  · intro hsuits
    have hle := Nat.le_trans (hsuits .bits16 1).least_le (Nat.min_le_left _ _)
    rw [hinterval, Nat.max_self, Nat.mul_one, Nat.ceilDiv_eq_add_pred_div] at hle
    unfold usPerSecond at hle
    have hleast : (Config.built interval).minArmTicks = 10 := rfl
    omega
  · intro hlong width hz
    have hhalf : 10 ≤ width.mask / 2 := by cases width <;> decide
    have hscaled : Setting.read interval 10000000 ≤ Setting.read interval 10000000 * max hz 1 :=
      Nat.le_mul_of_pos_right _ (by omega)
    have hticks : 10 ≤ (Config.built interval).fallbackIntervalUs * max hz 1 ⌈/⌉ usPerSecond := by
      rw [hinterval, Nat.ceilDiv_eq_add_pred_div]
      unfold usPerSecond
      omega
    exact ⟨(by decide : 1 ≠ 0), fun hzero => by omega, (by decide : 10 ≠ 0), le_min hticks hhalf⟩

/-- The `standard` configuration suits any counter. -/
theorem suits_standard : ∀ width hz, Config.standard.Suits width hz := by
  rw [Config.standard_eq_built]
  exact (suits_built_iff _).mpr (by decide)

/-- A scheduler that has just been made on the hardware `hw`, by `new` or by `withDefaults`. -/
inductive MadeWith (hw : H) : Config → Scheduler H K n → Prop
  /-- The scheduler was made by `new`, with a configuration. -/
  | new {config : Config} {sink : K} {s : Scheduler H K n} (h : new hw sink config = .ok s) :
    MadeWith hw config s
  /-- The scheduler was made by `withDefaults`, with the `standard` one. -/
  | withDefaults (sink : K) : MadeWith hw .standard (withDefaults hw sink)

section Made

variable {hw : H} {config : Config} {s : Scheduler H K n}

/-- The configuration of a scheduler that has just been made `Suits` its hardware, and its channels
have been armed for the first time, by `begin`. -/
theorem MadeWith.suits (h : MadeWith hw config s) :
    config.Suits (TimerHardware.width hw) (TimerHardware.tickHz hw) ∧
      ∃ sink, s = (ofHardware hw sink config).begin := by
  cases h with
  | @new _ sink _ h =>
    rcases new_eq (n := n) hw sink config with ⟨hsuits, hnew⟩ | ⟨-, hnew⟩
    · rw [hnew] at h
      cases h
      exact ⟨hsuits, sink, rfl⟩
    · rw [hnew] at h
      cases h
  | withDefaults sink => exact ⟨suits_standard _ _, sink, rfl⟩

end Made

/-! ## What no operation changes -/

/-- The schedulers are of the `SameScale`, and of one width. -/
structure SameGauge (s s' : Scheduler H K n) : Prop extends SameScale s s' where
  width : s'.clock.width = s.clock.width

/-- Every operation leaves a scheduler with the `SameGauge`. -/
theorem frame_sameGauge : Frame (SameGauge : Scheduler H K n → Scheduler H K n → Prop) where
  refl s := ⟨frame_sameScale.refl s, rfl⟩
  trans h h' := ⟨frame_sameScale.trans h.toSameScale h'.toSameScale, h'.width.trans h.width⟩
  enter s := ⟨frame_sameScale.enter s, rfl⟩
  leave restore s := ⟨frame_sameScale.leave restore s, rfl⟩
  sync s := by
    refine ⟨frame_sameScale.sync s, ?_⟩
    unfold sync
    split <;> rfl
  arm s channel ticks := ⟨frame_sameScale.arm s channel ticks, rfl⟩
  contents s pool sink stats suspended :=
    ⟨frame_sameScale.contents s pool sink stats suspended, rfl⟩
  restart s counter elapsedUs := ⟨frame_sameScale.restart s counter elapsedUs, rfl⟩

/-- The scheduler is set up for a counter of a `width` and a rate of `hz`, with `config`. -/
structure Calibrated (config : Config) (width : CounterWidth) (hz : Nat) (s : Scheduler H K n) :
    Prop where
  /-- The configuration is `config`. -/
  config_eq : s.config = config
  /-- The fallback channel is armed at the distance that is the `window` of the configuration. -/
  fallbackTicks_eq : s.fallbackTicks = config.window width hz
  /-- The clock has the width of the counter. -/
  width_eq : s.clock.width = width
  /-- The clock has the rate of the counter. -/
  tickHz_eq : s.clock.tickHz = max hz 1

section Calibrated

variable {config : Config} {width : CounterWidth} {hz : Nat} {s s' : Scheduler H K n}

omit [TimerHardware H] in
/-- A scheduler with the `SameGauge` as one that is `Calibrated` is so too. -/
theorem Calibrated.of_sameGauge (h : Calibrated config width hz s) (hsame : SameGauge s s') :
    Calibrated config width hz s' :=
  ⟨hsame.config.trans h.config_eq, hsame.fallbackTicks.trans h.fallbackTicks_eq,
    hsame.width.trans h.width_eq, hsame.tickHz.trans h.tickHz_eq⟩

/-- A scheduler is `Calibrated` for the hardware on which it is made. -/
theorem calibrated_ofHardware (hw : H) (sink : K) (hinterval : config.fallbackIntervalUs ≠ 0) :
    Calibrated config (TimerHardware.width hw) (TimerHardware.tickHz hw)
      (ofHardware hw sink config : Scheduler H K n) :=
  ⟨rfl, fallbackTicks_ofHardware hw sink hinterval, rfl, rfl⟩

/-- A scheduler stays `Calibrated` for the hardware on which it was made, after any run. -/
theorem Run.calibrated [EventSink K] {hw : H} {start : Scheduler H K n} {log : List Happening}
    (hmade : MadeWith hw config start) (hrun : Run start log s) :
    Calibrated config (TimerHardware.width hw) (TimerHardware.tickHz hw) s := by
  induction hrun with
  | start =>
    obtain ⟨hsuits, sink, rfl⟩ := hmade.suits
    exact (calibrated_ofHardware hw sink hsuits.interval_ne).of_sameGauge
      (frame_sameGauge.rearmNow _)
  | move hw _ ih => exact ⟨ih.1, ih.2, ih.3, ih.4⟩
  | exec c _ ih => exact ih.of_sameGauge (frame_sameGauge.exec _ c)

/-! ## Arming the channels anew -/

/-- The distance `ticks` is the one in the window from `least` to `most` that is nearest to the one
needed. -/
structure Nearest (least most needed ticks : Nat) : Prop where
  /-- The distance is not too close. -/
  least_le : least ≤ ticks
  /-- The distance is not too far away. -/
  le_most : ticks ≤ most
  /-- The distance is the one needed, if that is in the window. -/
  inside : least ≤ needed → needed ≤ most → ticks = needed
  /-- The distance is the least, if less is needed. -/
  below : needed < least → ticks = least
  /-- The distance is the most, if more is needed. -/
  above : most < needed → ticks = most

/-- The `Nearest` distance is the one needed, clamped to both ends of the window. -/
theorem nearest_clamp {least most : Nat} (h : least ≤ most) (needed : Nat) :
    Nearest least most needed (min (max needed least) most) := by
  constructor <;> omega

/-- `rearm` of an active scheduler arms its channels within the window, from the reading that it has
just taken. -/
structure InWindow (least most : Nat) (s : Scheduler H K n) : Prop where
  /-- The counter is read once, and the clock brought up to date. -/
  clock : s.rearm.clock = s.clock.sync (TimerHardware.readCounter s.hw).1
  /-- If nothing is pending the fallback channel is armed and no other. -/
  idle : s.pool.events = [] → s.rearm.hw =
    TimerHardware.armChannel (TimerHardware.readCounter s.hw).2 s.config.fallbackChannel
      (s.clock.width.offset s.rearm.clock.reading most)
  /-- If events are pending, the primary channel is armed before it, as near as the window allows to
  when the smallest timestamp is due. -/
  pending : ∀ time, (s.pool.events.map (·.timestamp)).min? = some time → ∃ ticks,
    s.rearm.hw = TimerHardware.armChannel
      (TimerHardware.armChannel (TimerHardware.readCounter s.hw).2 s.config.primaryChannel
        (s.clock.width.offset s.rearm.clock.reading ticks))
      s.config.fallbackChannel (s.clock.width.offset s.rearm.clock.reading most) ∧
    Nearest least most (s.clock.usToTicks (time - s.rearm.clock.timeUs)) ticks
  /-- What is armed in the window lies ahead of the reading, by no more than half a turn. The
  distance fits in 31 bits, and is found again between the two readings. -/
  ahead : ∀ ticks, least ≤ ticks → ticks ≤ most → 0 < ticks ∧ ticks ≤ s.clock.width.mask / 2 ∧
    ticks < 2 ^ 31 ∧ s.clock.width.elapsed s.rearm.clock.reading
      (s.clock.width.offset s.rearm.clock.reading ticks) = ticks

/-- `rearm` of an active scheduler reads the counter once. Then it arms the primary channel, if
anything is pending, and the fallback channel. -/
theorem rearm_of_active (hactive : s.suspended = false) :
    s.rearm.clock = s.clock.sync (TimerHardware.readCounter s.hw).1 ∧
      s.rearm.hw = TimerHardware.armChannel
        (match s.pool.recompute.nextEvent? with
          | some e => TimerHardware.armChannel (TimerHardware.readCounter s.hw).2
              s.config.primaryChannel (s.clock.width.offset s.rearm.clock.reading
                (min (max (s.clock.usToTicks (e.timestamp - s.rearm.clock.timeUs))
                  s.config.minArmTicks) s.fallbackTicks))
          | none => (TimerHardware.readCounter s.hw).2)
        s.config.fallbackChannel
        (s.clock.width.offset s.rearm.clock.reading s.fallbackTicks) := by
  have hnot : ¬ s.suspended = true := by rw [hactive]; decide
  have hsync : s.refresh.sync = { s.refresh with
      hw := (TimerHardware.readCounter s.hw).2
      clock := s.clock.sync (TimerHardware.readCounter s.hw).1 } := if_neg hnot
  have hrearm : s.rearm = s.refresh.sync.armPrimary.armFallback := if_neg hnot
  have hclock : s.rearm.clock = s.clock.sync (TimerHardware.readCounter s.hw).1 := by
    rw [hrearm]
    show s.refresh.sync.armPrimary.clock = _
    rw [armPrimary_clock, hsync]
  have hnext : s.refresh.sync.pool.nextEvent? = s.pool.recompute.nextEvent? := by
    rw [s.refresh.sync_same.pool]
    rfl
  refine ⟨hclock, ?_⟩
  rw [hclock, hrearm]
  unfold armPrimary
  rw [hnext, hsync]
  cases s.pool.recompute.nextEvent? <;> rfl

/-- A `Calibrated` active scheduler arms its channels `InWindow`, whatever is pending. -/
theorem Calibrated.inWindow (h : Calibrated config width hz s) (hsuits : config.Suits width hz)
    (hactive : s.suspended = false) :
    InWindow config.minArmTicks (config.window width hz) s := by
  obtain ⟨hclock, hhw⟩ := rearm_of_active hactive
  rw [h.config_eq, h.fallbackTicks_eq] at hhw
  have htime : s.pool.recompute.nextEvent?.map (·.timestamp) =
      (s.pool.events.map (·.timestamp)).min? := s.pool.cached_recompute.nextTime?_eq
  constructor
  case clock => exact hclock
  case idle =>
    intro hnone
    rw [hnone] at htime
    rw [Option.map_eq_none_iff.mp htime] at hhw
    rw [h.config_eq]
    exact hhw
  case pending =>
    intro time hmin
    rw [hmin] at htime
    obtain ⟨e, he, rfl⟩ := Option.map_eq_some_iff.mp htime
    rw [he] at hhw
    rw [h.config_eq]
    exact ⟨_, hhw, nearest_clamp hsuits.least_le _⟩
  case ahead =>
    intro ticks hleast hmost
    have hhalf := width.half_lt
    have hle := Nat.le_trans hmost (config.window_le width hz)
    rw [h.width_eq]
    exact ⟨Nat.lt_of_lt_of_le (Nat.pos_of_ne_zero hsuits.least_ne) hleast, hle,
      Nat.lt_of_le_of_lt hle hhalf.2,
      CounterWidth.elapsed_offset _ (Nat.lt_of_le_of_lt hle hhalf.1)⟩

end Calibrated

/-! ## Operations -/

/-- No channel has been armed between `s` and `s'`. -/
structure ArmsNone (s s' : Scheduler H K n) : Prop extends SameGauge s s' where
  /-- What neither masking interrupts nor reading the counter changes is the same. -/
  parts : ∀ {X : Type} {part : H → X}, IrqMask.Keeps part → part s'.hw = part s.hw

/-- Reading the time arms no channel, so that `ArmsNone` is one of the `Reads`. -/
theorem reads_armsNone : Reads (ArmsNone : Scheduler H K n → Scheduler H K n → Prop) where
  refl s := ⟨frame_sameGauge.refl s, fun _ => rfl⟩
  trans h h' := ⟨frame_sameGauge.trans h.toSameGauge h'.toSameGauge,
    fun hkeeps => (h'.parts hkeeps).trans (h.parts hkeeps)⟩
  enter s := ⟨frame_sameGauge.enter s, fun hkeeps => hkeeps.enter s.hw⟩
  leave restore s := ⟨frame_sameGauge.leave restore s, fun hkeeps => hkeeps.leave restore s.hw⟩
  sync s := by
    refine ⟨frame_sameGauge.sync s, fun hkeeps => ?_⟩
    unfold sync
    split
    · rfl
    · exact hkeeps.read s.hw

/-- Replacing the pool, the sink, the statistics and the suspension is `ArmsNone`. -/
theorem armsNone_contents (s : Scheduler H K n) (pool : Pool n) (sink : K) (stats : Stats)
    (suspended : Bool) :
    ArmsNone s { s with pool := pool, sink := sink, stats := stats, suspended := suspended } :=
  ⟨frame_sameGauge.contents s pool sink stats suspended, fun _ => rfl⟩

/-- What an operation has made of `s`: its channels have been armed anew, once and within the
window, or no channel has been armed at all. -/
inductive ArmsOnce (least most : Nat) (s s' : Scheduler H K n) : Prop
  /-- No channel was armed. -/
  | never (h : ∀ {X : Type} {part : H → X}, IrqMask.Keeps part → part s'.hw = part s.hw)
  /-- The channels were armed last and none before, by a scheduler `ready` whose clock was going. It
  had the configuration and the scales of the one before, and its contents are those in the end. -/
  | once (ready : Scheduler H K n) (restore : Bool) (hactive : ready.suspended = false)
      (hready : InWindow least most ready) (hbefore : ArmsNone s ready)
      (hafter : s' = { ready.rearm with hw := IrqMask.leave restore ready.rearm.hw })

section Exec

variable {config : Config} {width : CounterWidth} {hz : Nat} {s : Scheduler H K n} {α : Type}
  (act : Scheduler H K n → α × Scheduler H K n)

/-- A masked section whose steps are `ArmsNone` arms no channel. -/
theorem ArmsOnce.quiet {least most : Nat} (h : ArmsNone s.entered (act s.entered).2) :
    ArmsOnce least most s (masked act s).2 := .never (reads_armsNone.masked h).parts

/-- A masked section that ends with `rearm` arms the channels once, if the clock is going. -/
theorem ArmsOnce.rearm (hcalibrated : Calibrated config width hz s)
    (hsuits : config.Suits width hz) {ready : Scheduler H K n} (h : ArmsNone s.entered ready)
    (hact : (act s.entered).2 = ready.rearm) :
    ArmsOnce config.minArmTicks (config.window width hz) s (masked act s).2 := by
  have hready := reads_armsNone.trans (reads_armsNone.enter s) h
  rw [masked_eq, hact]
  cases hactive : ready.suspended with
  | true =>
    rw [rearm_of_suspended hactive]
    exact .never fun hkeeps => (hkeeps.leave _ _).trans (hready.parts hkeeps)
  | false =>
    have hinWindow := (hcalibrated.of_sameGauge hready.toSameGauge).inWindow hsuits hactive
    exact .once ready _ hactive hinWindow hready rfl

variable [EventSink K]

/-- A `Command` arms no channel of a `Calibrated` scheduler but by arming them all anew, once at
most and within the window, as `ArmsOnce` says. -/
theorem Calibrated.exec (hcalibrated : Calibrated config width hz s)
    (hsuits : config.Suits width hz) (c : Command) :
    ArmsOnce config.minArmTicks (config.window width hz) s (s.exec c).2 := by
  -- What is done before the channels are armed is to read the counter and to change the contents.
  have hread : ∀ pool sink stats suspended, ArmsNone s.entered { s.entered.sync with
      pool := pool, sink := sink, stats := stats, suspended := suspended } := fun _ _ _ _ =>
    reads_armsNone.trans (reads_armsNone.sync _) (armsNone_contents _ _ _ _ _)
  have hhandle : ∀ source,
      ArmsOnce config.minArmTicks (config.window width hz) s (s.interrupt source).2 := by
    intro source
    cases hactive : s.suspended with
    | true =>
      have hact := handle_of_suspended (s := s.entered) source hactive
      exact .quiet (handle source) (hact ▸ armsNone_contents s.entered _ _ _ _)
    | false =>
      have hact := handle_of_active (s := s.entered) source hactive
      exact .rearm (handle source) hcalibrated hsuits (hread _ _ _ _) (congrArg Prod.snd hact)
  cases c with
  | timeMs => exact .never (reads_armsNone.timeMs s).parts
  | timeUs => exact .never (reads_armsNone.timeUs s).parts
  | schedule request =>
    rcases register_cases request s.entered with ⟨-, -, hact⟩ | ⟨-, reason, -, hact⟩ |
      ⟨-, slot, p, -, hact⟩
    · exact .quiet (register request) (hact ▸ armsNone_contents s.entered _ _ _ _)
    · exact .quiet (register request) (hact ▸ hread _ _ _ _)
    · exact .rearm (register request) hcalibrated hsuits (hread _ _ _ _)
        (congrArg Prod.snd hact)
  | cancel ident value =>
    have hact := congrArg Prod.snd (withdraw_eq ident value s.entered)
    dsimp only at hact
    split at hact
    · exact .rearm (withdraw ident value) hcalibrated hsuits
        (armsNone_contents s.entered _ _ _ _) hact
    · exact .quiet (withdraw ident value) (hact ▸ armsNone_contents s.entered _ _ _ _)
  | rearm =>
    exact .rearm (fun s => ((), s.rearm)) hcalibrated hsuits (reads_armsNone.refl _) rfl
  | interrupt source => exact hhandle source
  | compareMatch channel =>
    show ArmsOnce _ _ s (s.compareMatch channel).2
    unfold compareMatch
    split
    · exact hhandle _
    · exact .never fun _ => rfl
  | wait span => exact .never (reads_armsNone.wait span s).parts
  | suspend => exact .quiet handOver (hread _ _ _ _)
  | resume counter elapsedUs =>
    have hready : ArmsNone s.entered (s.entered.restart counter elapsedUs).alignDue.2 :=
      ⟨⟨⟨rfl, rfl, rfl⟩, rfl⟩, fun _ => rfl⟩
    exact .rearm (takeBack counter elapsedUs) hcalibrated hsuits hready rfl

/-- The scheduler is `Calibrated` with a configuration that `Suits` its counter, and arms its
channels in no way but `InWindow`. -/
structure Windowed (config : Config) (width : CounterWidth) (hz : Nat) (s : Scheduler H K n) :
    Prop where
  /-- The least distance is not zero, and no longer than the fallback distance. -/
  suits : config.Suits width hz
  /-- The fallback distance is what it was when the scheduler was made. -/
  calibrated : Calibrated config width hz s
  /-- With this set-up the channels are armed within the window, whatever is pending, whatever the
  time is and wherever the counter stands. -/
  inWindow : ∀ ready : Scheduler H K n, Calibrated config width hz ready →
    ready.suspended = false → InWindow config.minArmTicks (config.window width hz) ready
  /-- Operations arm channels in no other way. -/
  exec : ∀ c, ArmsOnce config.minArmTicks (config.window width hz) s (s.exec c).2

/-- `new` makes a scheduler exactly if the distances of its configuration suit the hardware, and a
scheduler keeps to them after any run. -/
theorem arms_in_window :
    (∀ (hw : H) (sink : K) (config : Config),
      ((∃ s : Scheduler H K n, new hw sink config = .ok s) ↔
        config.Suits (TimerHardware.width hw) (TimerHardware.tickHz hw)) ∧
      (¬ config.Suits (TimerHardware.width hw) (TimerHardware.tickHz hw) →
        (new hw sink config : Except TimerError (Scheduler H K n)) = .error .invalidParameter)) ∧
    (∀ width hz, Config.standard.Suits width hz) ∧
    ∀ {hw : H} {config : Config} {start : Scheduler H K n}, MadeWith hw config start →
      (∃ (ready : Scheduler H K n) (restore : Bool),
        start = { ready.rearm with hw := IrqMask.leave restore ready.rearm.hw } ∧
        Calibrated config (TimerHardware.width hw) (TimerHardware.tickHz hw) ready ∧
        ready.suspended = false ∧ ready.pool = Pool.empty ∧
        InWindow config.minArmTicks
          (config.window (TimerHardware.width hw) (TimerHardware.tickHz hw)) ready) ∧
      ∀ {log s}, Run start log s →
        Windowed config (TimerHardware.width hw) (TimerHardware.tickHz hw) s := by
  refine ⟨fun hw sink config => ?_, suits_standard, fun {hw config start} hmade => ?_⟩
  · rcases new_eq (n := n) hw sink config with ⟨hsuits, hnew⟩ | ⟨hnot, hnew⟩
    · exact ⟨⟨fun _ => hsuits, fun _ => ⟨_, hnew⟩⟩, fun hnot => absurd hsuits hnot⟩
    · refine ⟨⟨fun ⟨s, hok⟩ => ?_, fun hsuits => absurd hsuits hnot⟩, fun _ => hnew⟩
      rw [hnew] at hok
      cases hok
  · obtain ⟨hsuits, sink, hbegin⟩ := hmade.suits
    have hentered := (calibrated_ofHardware (n := n) hw sink hsuits.interval_ne).of_sameGauge
      (frame_sameGauge.enter _)
    refine ⟨⟨(ofHardware hw sink config).entered, _, hbegin, hentered, rfl, rfl,
      hentered.inWindow hsuits rfl⟩, fun {log s} hrun => ?_⟩
    have hcalibrated := hrun.calibrated hmade
    exact ⟨hsuits, hcalibrated, fun ready hready hactive => hready.inWindow hsuits hactive,
      hcalibrated.exec hsuits⟩

end Exec

/-- The `watch` is set up for half a turn of its counter, a whole second. At one tick per second the
standard interval is ten ticks, which is the least distance. A least distance of more than half a
turn is refused. -/
theorem arms_in_window_watch :
    MadeWith (SimTimer.new .bits16 32768) .standard unset ∧
      Windowed .standard .bits16 32768 watch ∧
      Config.standard.window .bits16 32768 = 32767 ∧ Config.standard.window .bits16 0 = 10 ∧
      (new (SimTimer.new .bits16 32768) Recorder.unbounded { minArmTicks := 32768 } :
        Except TimerError (Scheduler SimTimer Recorder 3)) = .error .invalidParameter := by
  have hmade : MadeWith (SimTimer.new .bits16 32768) .standard unset := .withDefaults _
  have hrun := unset.run_play [(65000, .schedule ⟨.ms 50, 7, 1, false, .empty⟩)]
  obtain ⟨hnew, -, hkeeps⟩ := arms_in_window (H := SimTimer) (K := Recorder) (n := 3)
  have hlong : ¬ Config.Suits { minArmTicks := 32768 } .bits16 32768 := fun h =>
    absurd h.least_le (by decide +kernel)
  exact ⟨hmade, (hkeeps hmade).2 hrun, by decide +kernel, by decide +kernel,
    (hnew _ _ _).2 hlong⟩

end Scheduler

end SoftTimer
