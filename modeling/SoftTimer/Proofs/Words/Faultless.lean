import SoftTimer.Proofs.Words.Scheduler

/-!
# Where arithmetic can fail

The life of a scheduler: it is made for some hardware, and operations are carried out on it, each
after the hardware has changed in any way (`Scheduler.live`). On machine words (`Scheduler.live?`)
one thing only can fail in it, however fast the counter is, whatever it reads, whatever
configuration is accepted and whatever is asked of the scheduler, as long as interrupts are taken
before the end of time and the numbers of the events last (`Scheduler.orderly`): the firings of one
interrupt are counted in a word of the machine, and there can be more of them than that.

The main statement is `live_faultless`. The largest word of the machine is a parameter of it. On a
machine of 64 bits no interrupt fires more than can be counted, unless the pool has more slots than
there are 32-bit words (`Config.Fits.burst_le`). On one of 32 bits two events are enough
(`live_flooded`).
-/

namespace SoftTimer

open Word

/-- The `fallbackIntervalUs` is a word of 64 bits, and `maxReplay` one of 32. -/
structure Config.Fits (c : Config) : Prop where
  /-- The interval is a 64-bit word. -/
  interval_le : c.fallbackIntervalUs ≤ max64
  /-- The bound on firings is a 32-bit word. -/
  maxReplay_le : c.maxReplay ≤ max32

/-- On a machine of 64 bits the `burst` of all slots together can be counted, unless there are more
slots than 32-bit words. -/
theorem Config.Fits.burst_le {c : Config} (h : c.Fits) {n : Nat} (hslots : n ≤ max32) :
    n * c.burst ≤ max64 :=
  calc n * c.burst ≤ max32 * max32 := Nat.mul_le_mul hslots (Config.burst_le h.maxReplay_le)
    _ ≤ max64 := by decide

namespace Scheduler

variable {H K : Type} {n : Nat} [TimerHardware H]

/-! ## Making a scheduler -/

/-- `fallbackDistance` on words. -/
def fallbackDistance? (clock : Clock) (config : Config) : Option Nat := do
  let ticks ← clock.usToTicks? config.fallbackIntervalUs
  let ticks ← clamp? 1 (clock.width.mask / 2) ticks
  fit? max32 ticks

/-- `ofHardware` on words. -/
def ofHardware? (hw : H) (sink : K) (config : Config) : Option (Scheduler H K n) := do
  let (reading, hw') := TimerHardware.readCounter hw
  let clock := (Clock.new (TimerHardware.width hw) (TimerHardware.tickHz hw)).resync reading
  let fallbackTicks ← fallbackDistance? clock config
  return {
    hw := hw', sink := sink, clock := clock, pool := Pool.empty, config := config, stats := {}
    fallbackTicks := fallbackTicks, suspended := false }

/-- `new` on words. -/
def new? (hw : H) (sink : K) (config : Config) :
    Option (Except TimerError (Scheduler H K n)) :=
  match config.validate with
  | .error reason => some (.error reason)
  | .ok _ => do
    let s ← ofHardware? hw sink config
    if s.fallbackTicks < config.minArmTicks then
      return .error .invalidParameter
    else
      return .ok (← s.rearmNow?)

/-- `withDefaults` on words. -/
def withDefaults? (hw : H) (sink : K) : Option (Scheduler H K n) := do
  let s ← ofHardware? hw sink .standard
  s.rearmNow?

/-- A scheduler with the configuration chosen, by `new`, or with the standard one if none is, by
`withDefaults`. -/
def make (hw : H) (sink : K) : Option Config → Except TimerError (Scheduler H K n)
  | some config => new hw sink config
  | none => .ok (withDefaults hw sink)

/-- `make` on words. -/
def make? (hw : H) (sink : K) : Option Config → Option (Except TimerError (Scheduler H K n))
  | some config => new? hw sink config
  | none => do return .ok (← withDefaults? hw sink)

/-- The `fallbackDistance` is a 32-bit word, since it is at most half a turn of the counter. -/
theorem fallbackDistance_le (clock : Clock) (config : Config) :
    fallbackDistance clock config ≤ max32 := by
  have hhalf : clock.width.mask / 2 ≤ max32 := by cases clock.width <;> decide
  exact Nat.le_trans (Nat.min_le_right _ _) hhalf

/-- `fallbackDistance?` does not fail, for the distance is one tick at least and a counter has more
than one. -/
theorem fallbackDistance?_eq {clock : Clock} (hrate : clock.tickHz ≤ max32) {config : Config}
    (hconfig : config.Fits) :
    fallbackDistance? clock config = some (fallbackDistance clock config) := by
  have hrange : 1 ≤ clock.width.mask / 2 := by cases clock.width <;> decide
  have hle := fallbackDistance_le clock config
  unfold fallbackDistance? fallbackDistance at *
  rw [Clock.usToTicks?_eq hrate hconfig.interval_le]
  show (clamp? 1 (clock.width.mask / 2) (clock.usToTicks config.fallbackIntervalUs) >>= _) = _
  rw [clamp?_bind _ hrange]
  exact fit?_of_le hle

section Made

variable {hw : H} {sink : K} {config : Config}

/-- The rate of a `Clock.new` is a 32-bit word if the counter's is, with a rate of zero taken for
one tick per second. -/
theorem tickHz_resync_new_le {rate : Nat} (hrate : rate ≤ max32) (width : CounterWidth)
    (reading : Nat) : ((Clock.new width rate).resync reading).tickHz ≤ max32 :=
  Nat.max_le.mpr ⟨hrate, by decide⟩

/-- `ofHardware?` does not fail for a rate of 32 bits and a configuration that `Fits`. -/
theorem ofHardware?_eq (hrate : TimerHardware.tickHz hw ≤ max32) (hconfig : config.Fits) :
    ofHardware? hw sink config = some (ofHardware hw sink config : Scheduler H K n) := by
  unfold ofHardware? ofHardware
  dsimp only
  rw [fallbackDistance?_eq (tickHz_resync_new_le hrate _ _) hconfig]
  rfl

/-- A scheduler is `Suited` before it arms anything, for a rate of 32 bits and a configuration that
`Fits`. -/
theorem suited_ofHardware (hrate : TimerHardware.tickHz hw ≤ max32) (hconfig : config.Fits) :
    (ofHardware hw sink config : Scheduler H K n).Suited where
  tickHz_le := tickHz_resync_new_le hrate _ _
  fallbackTicks_le := fallbackDistance_le _ config
  pool slot e he := by
    rw [show (ofHardware hw sink config : Scheduler H K n).pool = Pool.empty from rfl,
      Pool.get?_empty] at he
    cases he
  numbered := Pool.numbered_empty
  maxReplay_le := hconfig.maxReplay_le

/-- `rearmNow?` does not fail when the channels are armed for the first time. -/
theorem rearmNow?_ofHardware (hrate : TimerHardware.tickHz hw ≤ max32) (hconfig : config.Fits) :
    (ofHardware hw sink config : Scheduler H K n).rearmNow? =
      some (ofHardware hw sink config).begin :=
  rearmNow?_eq (suited_ofHardware hrate hconfig).toSized

/-- `new?` does not fail, whether it accepts the configuration or refuses it. -/
theorem new?_eq (hrate : TimerHardware.tickHz hw ≤ max32) (hconfig : config.Fits) :
    new? hw sink config = some (new hw sink config : Except TimerError (Scheduler H K n)) := by
  have hnew : (new hw sink config : Except TimerError (Scheduler H K n)) =
      config.validate.bind fun _ =>
        if (ofHardware hw sink config : Scheduler H K n).fallbackTicks < config.minArmTicks then
          .error .invalidParameter
        else
          .ok (ofHardware hw sink config).begin := bind_guard _ _ _ _
  rw [hnew]
  unfold new?
  cases config.validate with
  | error reason => rfl
  | ok _ =>
    rw [Except.bind]
    dsimp only
    rw [ofHardware?_eq hrate hconfig, Option.bind_eq_bind, Option.bind_some]
    by_cases hlong :
      (ofHardware hw sink config : Scheduler H K n).fallbackTicks < config.minArmTicks
    · rw [if_pos hlong, if_pos hlong]
      rfl
    · rw [if_neg hlong, if_neg hlong, rearmNow?_ofHardware hrate hconfig]
      rfl

/-- `make?` does not fail, whether it accepts the configuration chosen or refuses it. -/
theorem make?_eq {choice : Option Config} (hrate : TimerHardware.tickHz hw ≤ max32)
    (hconfig : (choice.getD .standard).Fits) :
    make? hw sink choice = some (make hw sink choice : Except TimerError (Scheduler H K n)) := by
  cases choice with
  | some config => exact new?_eq hrate hconfig
  | none =>
    have hstandard : withDefaults? hw sink = some (withDefaults hw sink : Scheduler H K n) := by
      have hfits : Config.standard.Fits := hconfig
      unfold withDefaults?
      rw [ofHardware?_eq hrate hfits]
      exact rearmNow?_ofHardware hrate hfits
    unfold make?
    dsimp only
    rw [hstandard]
    rfl

/-- `make` gives a scheduler of the configuration chosen that has armed its channels. -/
theorem make_eq_ok {choice : Option Config} {s : Scheduler H K n}
    (h : make hw sink choice = .ok s) : s = (ofHardware hw sink (choice.getD .standard)).begin := by
  cases choice with
  | some config => exact (new_eq_ok h).2.2
  | none =>
    cases h
    rfl

end Made

/-! ## Lives -/

variable [EventSink K]

/-- Carries out each `Command` after the hardware has changed in any way. Gives the replies and the
scheduler after the last. -/
def perform : List (H × Command) → Scheduler H K n → List Reply × Scheduler H K n
  | [], s => ([], s)
  | (hw, c) :: rest, s =>
    let (reply, s) := { s with hw := hw }.exec c
    let (replies, s) := perform rest s
    (reply :: replies, s)

/-- `perform` with an interrupt last takes it on the scheduler as the operations before have left
it. -/
theorem perform_interrupt (plan : List (H × Command)) (hw : H) (source : InterruptSource)
    (s : Scheduler H K n) :
    perform (plan ++ [(hw, .interrupt source)]) s =
      ((perform plan s).1 ++ [.fired ({ (perform plan s).2 with hw := hw }.interrupt source).1],
        ({ (perform plan s).2 with hw := hw }.interrupt source).2) := by
  induction plan generalizing s with
  | nil => rfl
  | cons step rest ih =>
    rw [List.cons_append]
    unfold perform
    dsimp only
    rw [ih]
    rfl

/-- `perform` on words. -/
def perform? (word : Nat) :
    List (H × Command) → Scheduler H K n → Option (List Reply × Scheduler H K n)
  | [], s => some ([], s)
  | (hw, c) :: rest, s => do
    let (reply, s) ← { s with hw := hw }.exec? word c
    let (replies, s) ← perform? word rest s
    return (reply :: replies, s)

/-- The life of a scheduler: `make` and then `perform`. -/
def live (hw : H) (sink : K) (choice : Option Config) (plan : List (H × Command)) :
    Except TimerError (List Reply × Scheduler H K n) :=
  (make hw sink choice).map (perform plan)

/-- `live` on words, the largest word of the machine being `word`. -/
def live? (word : Nat) (hw : H) (sink : K) (choice : Option Config) (plan : List (H × Command)) :
    Option (Except TimerError (List Reply × Scheduler H K n)) := do
  match ← make? hw sink choice with
  | .error reason => return .error reason
  | .ok s => return .ok (← perform? word plan s)

/-- Whether every `Command` of a plan can be asked of the scheduler when its turn comes. -/
def orderly : List (H × Command) → Scheduler H K n → Bool
  | [], _ => true
  | (hw, c) :: rest, s =>
    { s with hw := hw }.admits c && orderly rest ({ s with hw := hw }.exec c).2

/-- The scheduler that `make` gives is `Suited`, and has the configuration chosen. -/
theorem suited_of_make {hw : H} {sink : K} {choice : Option Config} {s : Scheduler H K n}
    (hrate : TimerHardware.tickHz hw ≤ max32) (hconfig : (choice.getD .standard).Fits)
    (h : make hw sink choice = .ok s) : s.Suited ∧ s.config = choice.getD .standard := by
  rw [make_eq_ok h]
  exact ⟨(suited_ofHardware hrate hconfig).exec .rearm, (frame_sameScale.rearmNow _).config⟩

/-- Whether `word` can count the firings of every interrupt among the replies. -/
def countable (word : Nat) (done : List Reply × Scheduler H K n) : Bool :=
  done.1.all (·.counted word)

/-- `perform?` of an `orderly` plan fails only when `word` cannot count the firings of an interrupt,
and exactly then. The scheduler stays `Suited`. -/
theorem Suited.perform {word : Nat} (hslots : n ≤ word) {plan : List (H × Command)}
    {s : Scheduler H K n} (h : s.Suited) (hplan : orderly plan s = true) :
    perform? word plan s = Option.guard (countable word) (perform plan s) ∧
      (perform plan s).2.Suited := by
  induction plan generalizing s with
  | nil => exact ⟨rfl, h⟩
  | cons step rest ih =>
    obtain ⟨hw, c⟩ := step
    have hmoved : ({ s with hw := hw } : Scheduler H K n).Suited :=
      h.of_sameScale ⟨rfl, rfl, rfl⟩ h.pool h.numbered
    unfold orderly at hplan
    rw [Bool.and_eq_true] at hplan
    obtain ⟨hfirst, hrest⟩ := hplan
    have hexec := exec?_eq hslots hmoved hfirst
    obtain ⟨hperform, hsuited⟩ := ih (hmoved.exec c) hrest
    refine ⟨?_, hsuited⟩
    -- The replies can be counted if the first can and the others can.
    have hall : ∀ done : Reply × Scheduler H K n,
        countable word (done.1 :: (Scheduler.perform rest done.2).1,
          (Scheduler.perform rest done.2).2) =
        (done.1.counted word && countable word (Scheduler.perform rest done.2)) :=
      fun _ => List.all_cons
    unfold perform? Scheduler.perform
    rw [hexec]
    generalize ({ s with hw := hw } : Scheduler H K n).exec c = done at hperform ⊢
    have hothers : (perform? word rest done.2 >>= fun others =>
        some (done.1 :: others.1, others.2)) =
        Option.guard (fun _ => countable word (Scheduler.perform rest done.2))
          (done.1 :: (Scheduler.perform rest done.2).1, (Scheduler.perform rest done.2).2) := by
      rw [hperform]
      exact guard_bind_some rfl rfl
    exact guard_bind hothers (hall done)

/-- When `word` can count the `burst` of all slots together, the firings of every interrupt of an
`orderly` plan are `countable`. -/
theorem perform_counted {word : Nat} {plan : List (H × Command)} {s : Scheduler H K n}
    (hword : n * s.config.burst ≤ word) (h : s.Suited) (hplan : orderly plan s = true) :
    countable word (perform plan s) = true := by
  induction plan generalizing s with
  | nil => rfl
  | cons step rest ih =>
    obtain ⟨hw, c⟩ := step
    have hmoved : ({ s with hw := hw } : Scheduler H K n).Suited :=
      h.of_sameScale ⟨rfl, rfl, rfl⟩ h.pool h.numbered
    have hword' : n * (({ s with hw := hw } : Scheduler H K n).exec c).2.config.burst ≤ word := by
      rw [(frame_sameScale.exec ({ s with hw := hw } : Scheduler H K n) c).config]
      exact hword
    unfold orderly at hplan
    rw [Bool.and_eq_true] at hplan
    have hfirst := exec_counted (s := { s with hw := hw }) hword hmoved hplan.1
    have hrest := ih hword' (hmoved.exec c) hplan.2
    exact List.all_cons.trans (Bool.and_eq_true _ _ ▸ ⟨hfirst, hrest⟩)

/-- Whether `word` can count the firings of every interrupt in a life, if the scheduler was made at
all. -/
def counted (word : Nat) : Except TimerError (List Reply × Scheduler H K n) → Bool
  | .error _ => true
  | .ok done => countable word done

omit [TimerHardware H] [EventSink K] in
/-- A life is `counted` exactly if every array of firings among its replies is short enough. -/
theorem counted_iff {word : Nat} {life : Except TimerError (List Reply × Scheduler H K n)} :
    counted word life = true ↔ ∀ replies s, life = .ok (replies, s) →
      ∀ firings, Reply.fired firings ∈ replies → firings.size ≤ word := by
  cases life with
  | error reason => exact ⟨fun _ _ _ hlife => (by cases hlife), fun _ => rfl⟩
  | ok done =>
    obtain ⟨replies, s⟩ := done
    have hall : counted word (.ok (replies, s) : Except TimerError (List Reply × Scheduler H K n)) =
        replies.all (·.counted word) := rfl
    rw [hall, List.all_eq_true]
    constructor
    · intro h replies' s' hlife firings hmem
      cases hlife
      exact of_decide_eq_true (h _ hmem)
    · intro h reply hmem
      cases reply with
      | fired firings => exact decide_eq_true (h replies s rfl firings hmem)
      | done | time | outcome | waited | snapshot | due => rfl

/-- `live?` fails exactly when `word` cannot count the firings of an interrupt of the `orderly`
plan. -/
theorem live?_eq {hw : H} {sink : K} {choice : Option Config} {plan : List (H × Command)}
    {word : Nat} (hrate : TimerHardware.tickHz hw ≤ max32)
    (hconfig : (choice.getD .standard).Fits) (hslots : n ≤ word)
    (hplan : ∀ s : Scheduler H K n, make hw sink choice = .ok s → orderly plan s = true) :
    (live? word hw sink choice plan :
        Option (Except TimerError (List Reply × Scheduler H K n))) =
      Option.guard (counted word) (live hw sink choice plan) := by
  unfold live? live
  rw [make?_eq hrate hconfig]
  cases hmake : (make hw sink choice : Except TimerError (Scheduler H K n)) with
  | error reason => rfl
  | ok s =>
    have hsuited : s.Suited := (suited_of_make hrate hconfig hmake).1
    obtain ⟨hperform, -⟩ := hsuited.perform hslots (hplan s hmake)
    show (perform? word plan s >>= _) = _
    rw [hperform]
    exact guard_bind_some rfl rfl

/-- Whatever is asked of a scheduler in order, from when it is made, nothing that is computed on
words fails unless an interrupt fires more often than a word of the machine can count, and none does
if `word` can count the `burst` of all slots together. No repeating event is ever due at time zero,
so that each of them could catch up at any time. -/
theorem live_faultless {hw : H} {sink : K} {choice : Option Config} {plan : List (H × Command)}
    {word : Nat} (hrate : TimerHardware.tickHz hw ≤ max32)
    (hconfig : (choice.getD .standard).Fits) (hslots : n ≤ word)
    (hplan : ∀ s : Scheduler H K n, make hw sink choice = .ok s → orderly plan s = true) :
    (live? word hw sink choice plan =
        some (live hw sink choice plan : Except TimerError (List Reply × Scheduler H K n)) ↔
      ∀ replies (s : Scheduler H K n), live hw sink choice plan = .ok (replies, s) →
        ∀ firings, Reply.fired firings ∈ replies → firings.size ≤ word) ∧
      (n * (choice.getD .standard).burst ≤ word →
        live? word hw sink choice plan =
          some (live hw sink choice plan : Except TimerError (List Reply × Scheduler H K n))) ∧
      ∀ replies (s : Scheduler H K n), live hw sink choice plan = .ok (replies, s) →
        ∀ e ∈ s.pool.events, e.repeats = true →
          0 < e.timestamp ∧ ∀ now ≤ max64, e.advancePast now = .ok (e.catchUp now) := by
  have hiff : live? word hw sink choice plan =
      some (live hw sink choice plan : Except TimerError (List Reply × Scheduler H K n)) ↔
        counted word
          (live hw sink choice plan : Except TimerError (List Reply × Scheduler H K n)) = true := by
    rw [live?_eq hrate hconfig hslots hplan, Option.guard_eq_some_iff]
    exact ⟨And.right, fun h => ⟨rfl, h⟩⟩
  refine ⟨hiff.trans counted_iff, fun hword => hiff.mpr ?_, fun replies s' hlive e he hrep => ?_⟩
  · unfold live
    cases hmake : (make hw sink choice : Except TimerError (Scheduler H K n)) with
    | error reason => rfl
    | ok s =>
      obtain ⟨hsuited, hchosen⟩ := suited_of_make hrate hconfig hmake
      exact perform_counted (hchosen ▸ hword) hsuited (hplan s hmake)
  · unfold live at hlive
    cases hmake : (make hw sink choice : Except TimerError (Scheduler H K n)) with
    | error reason =>
      rw [hmake] at hlive
      cases hlive
    | ok s =>
      rw [hmake] at hlive
      have hend : perform plan s = (replies, s') := Except.ok.inj hlive
      have hsuited : s.Suited := (suited_of_make hrate hconfig hmake).1
      obtain ⟨-, hafter⟩ := hsuited.perform (Nat.le_refl n) (hplan s hmake)
      rw [hend] at hafter
      obtain ⟨slot, hget⟩ := Pool.mem_events.mp he
      have hpos := (hafter.pool hget).pos hrep
      exact ⟨hpos, fun now hnow => if_pos (Event.catchUp_fst_le hnow fun _ => hpos)⟩

/-- A configuration that replays every missed occurrence, as long as a 32-bit `maxReplay` lets it.
-/
def eager : Config := { catchUp := .replay, maxReplay := max32, fallbackIntervalUs := max64 }

/-- A `SimTimer` that gives its rate as zero, at some reading. -/
def unrated (reading : Nat) : SimTimer := (SimTimer.new .bits32 0).advance reading

/-- A plan for `unrated`. One event repeats three times a second and another as seldom as can be. A
second later an interrupt comes. The counter goes nearly all the way round, and round. Time tracking
is taken back one microsecond before the end of time, when another interrupt comes, and then once
more. -/
def brink : List (SimTimer × Command) :=
  [(unrated 0, .schedule ⟨.us 300000, 7, 1, true, .empty⟩),
    (unrated 0, .schedule ⟨.us max64, 8, 2, true, .empty⟩), (unrated 1, .interrupt .primary),
    (unrated 0xfffffff0, .timeUs), (unrated 5, .timeMs), (unrated 7, .suspend),
    (unrated 7, .resume 7 18442449106406551614), (unrated 7, .interrupt .fallback),
    (unrated 8, .timeUs), (unrated 9, .resume 9 max64)]

/-- In the life of `brink` the first event fires three times and then, one microsecond before the
end of time, once more. After that neither event will be due before the end of time. An event that
repeats every microsecond from time zero on could not catch up there, but no scheduler has one. -/
theorem live_faultless_brink :
    TimerHardware.tickHz (unrated 0) ≤ max32 ∧ ((some eager).getD .standard).Fits ∧ 3 ≤ max64 ∧
      3 * ((some eager).getD .standard).burst ≤ max64 ∧
      (∀ s : Scheduler SimTimer Recorder 3,
        make (unrated 0) .unbounded (some eager) = .ok s → orderly brink s = true) ∧
      live? max64 (unrated 0) .unbounded (some eager) brink =
        some (live (unrated 0) .unbounded (some eager) brink :
          Except TimerError (List Reply × Scheduler SimTimer Recorder 3)) ∧
      (∀ replies (s : Scheduler SimTimer Recorder 3),
        live (unrated 0) .unbounded (some eager) brink = .ok (replies, s) →
          ∀ e ∈ s.pool.events, e.repeats = true →
            0 < e.timestamp ∧ ∀ now ≤ max64, e.advancePast now = .ok (e.catchUp now)) ∧
      ((live (unrated 0) .unbounded (some eager) brink :
          Except TimerError (List Reply × Scheduler SimTimer Recorder 3)).toOption.map fun x =>
        (x.2.clock.timeUs, x.2.pool.events.map (·.timestamp), x.2.sink.size)) =
          some (max64, [max64, max64], 4) ∧
      (⟨⟨0, 1, 7, 1, .empty⟩, 0⟩ : Event).advancePast max64 = .error .stepCount := by
  have hrate : TimerHardware.tickHz (unrated 0) ≤ max32 := by decide
  have hconfig : ((some eager).getD .standard).Fits := ⟨by decide, by decide⟩
  have hslots : 3 ≤ max64 := by decide
  have hword : 3 * ((some eager).getD .standard).burst ≤ max64 := hconfig.burst_le (by decide)
  have hplan : ∀ s : Scheduler SimTimer Recorder 3,
      make (unrated 0) .unbounded (some eager) = .ok s → orderly brink s = true := by
    intro s hmake
    rw [make_eq_ok hmake]
    decide +kernel
  obtain ⟨-, hlive, hevents⟩ := live_faultless hrate hconfig hslots hplan
  exact ⟨hrate, hconfig, hslots, hword, hplan, hlive hword, hevents, by decide +kernel,
    by decide +kernel⟩

/-- A plan for `SimTimer.standard`, of two requests for events that repeat every microsecond. -/
def drizzle : List (SimTimer × Command) :=
  [(SimTimer.standard, .schedule ⟨.us 1, 7, 1, true, .empty⟩),
    (SimTimer.standard, .schedule ⟨.us 1, 8, 1, true, .empty⟩)]

/-- The plan `drizzle`, and an interrupt that comes when the counter has gone round all but one
tick. -/
def flood : List (SimTimer × Command) :=
  drizzle ++ [(SimTimer.standard.advance max32, .interrupt .primary)]

/-- A scheduler with two slots that is `eager`, before anything is asked of it. -/
def calm : Scheduler SimTimer Recorder 2 := (ofHardware SimTimer.standard .unbounded eager).begin

/-- The scheduler `calm`, after the requests of `drizzle`, when the interrupt of `flood` comes. -/
def flooded : Scheduler SimTimer Recorder 2 :=
  { (perform drizzle calm).2 with hw := SimTimer.standard.advance max32 }

/-- Each of the events of `flooded` fires for every microsecond, which is as often as an event may
fire. -/
theorem size_interrupt_flooded : (flooded.interrupt .primary).1.size = 8589934590 := by
  have hactive : flooded.suspended = false := by decide +kernel
  have hdistinct : flooded.pool.Distinct := by decide +kernel
  have hnow : flooded.timeUs.1 < max64 := by decide +kernel
  have hsum : (flooded.pool.events.map
      (·.firingsBy flooded.config flooded.timeUs.1)).sum = 8589934590 := by decide +kernel
  rw [(interrupt_of_active .primary hactive).1, Pool.size_drain _ hnow hdistinct, hsum]

/-- The interrupt is the last that `flood` asks of the scheduler, which then is `flooded`. -/
theorem perform_flood : perform flood calm = ((perform drizzle calm).1 ++
    [.fired (flooded.interrupt .primary).1], (flooded.interrupt .primary).2) :=
  perform_interrupt drizzle (SimTimer.standard.advance max32) .primary calm

/-- Together the events of `flood` fire nearly twice as often as a machine of 32 bits can count,
though nothing is asked of the scheduler that cannot be asked of it. -/
theorem live_flooded :
    TimerHardware.tickHz SimTimer.standard ≤ max32 ∧ eager.Fits ∧ 2 ≤ max32 ∧
      make SimTimer.standard .unbounded (some eager) = .ok calm ∧ orderly flood calm = true ∧
      (∃ replies s firings, live SimTimer.standard .unbounded (some eager) flood =
          (.ok (replies, s) : Except TimerError (List Reply × Scheduler SimTimer Recorder 2)) ∧
        Reply.fired firings ∈ replies ∧ firings.size = 8589934590) ∧
      live? max32 SimTimer.standard .unbounded (some eager) flood =
        (none : Option (Except TimerError (List Reply × Scheduler SimTimer Recorder 2))) := by
  have hrate : TimerHardware.tickHz SimTimer.standard ≤ max32 := by decide
  have hconfig : eager.Fits := ⟨by decide, by decide⟩
  have hslots : 2 ≤ max32 := by decide
  have hmake : make SimTimer.standard .unbounded (some eager) = .ok calm := rfl
  have hplan : orderly flood calm = true := by decide +kernel
  have hlive : live SimTimer.standard .unbounded (some eager) flood =
      (.ok (perform flood calm) :
        Except TimerError (List Reply × Scheduler SimTimer Recorder 2)) :=
    congrArg (Except.map (perform flood)) hmake
  rw [perform_flood] at hlive
  have hmem : Reply.fired (flooded.interrupt .primary).1 ∈
      (perform drizzle calm).1 ++ [.fired (flooded.interrupt .primary).1] :=
    List.mem_append_right _ (List.mem_singleton_self _)
  refine ⟨hrate, hconfig, hslots, hmake, hplan,
    ⟨_, _, _, hlive, hmem, size_interrupt_flooded⟩, ?_⟩
  have hsteady : ∀ s : Scheduler SimTimer Recorder 2,
      make SimTimer.standard .unbounded (some eager) = .ok s → orderly flood s = true := by
    intro s hs
    rw [hmake] at hs
    cases hs
    exact hplan
  have hchosen : ((some eager).getD .standard).Fits := hconfig
  rw [live?_eq hrate hchosen hslots hsteady, Option.guard_eq_none_iff, ← Bool.not_eq_true,
    counted_iff]
  intro hcounted
  have hle := hcounted _ _ hlive _ hmem
  rw [size_interrupt_flooded] at hle
  exact absurd hle (by decide)

end Scheduler

end SoftTimer
