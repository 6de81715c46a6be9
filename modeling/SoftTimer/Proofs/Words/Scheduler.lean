import SoftTimer.Proofs.Scheduler.Alignment
import SoftTimer.Proofs.Scheduler.Cache
import SoftTimer.Proofs.Scheduler.Frame
import SoftTimer.Proofs.Words.Drain

/-!
# Operations on machine words

Every operation of a scheduler, with all that it computes computed on words: `exec?` gives nothing
as soon as one step of arithmetic fails, or when a drain does not come to its end. Each part of the
operations is shown to give what its counterpart on numbers of any size gives. What a part needs for
that is little (`Sized`): that the rates are words and the events fit. The parts keep to it, for
they leave the rates alone (`frame_sameScale`), and let the pool age or add an event that fits.

The main statement of the module is `exec?_eq`: of all that can be asked of a scheduler (`admits`)
one thing only can fail, which is to count the firings of an interrupt in a word of the machine
(`Reply.counted`). It is asked of a scheduler of words (`Suited`), as every scheduler stays one
(`Suited.exec`), on a machine that has a word for every slot.
-/

namespace SoftTimer

open Word

/-- Whether the firings in a reply can be counted in a word of the machine, the largest of which is
`word`. -/
def Reply.counted (word : Nat) : Reply → Bool
  | .fired firings => firings.size ≤ word
  | _ => true

namespace Scheduler

variable {H K : Type} {n : Nat} [TimerHardware H]

/-! ## Reading and arming -/

/-- `sync` on words. -/
def sync? (s : Scheduler H K n) : Option (Scheduler H K n) :=
  if s.suspended then
    some s
  else do
    let (reading, hw) := TimerHardware.readCounter s.hw
    let clock ← s.clock.sync? reading
    return { s with hw := hw, clock := clock }

omit [TimerHardware H] in
/-- `armDistance` on words. The distance is one of 64 bits until it has been capped. -/
def armDistance? (s : Scheduler H K n) (us : Nat) : Option Nat := do
  let ticks ← s.clock.usToTicks? us
  fit? max32 (min (max ticks s.config.minArmTicks) s.fallbackTicks)

/-- `armPrimary` on words. -/
def armPrimary? (s : Scheduler H K n) : Option (Scheduler H K n) :=
  match s.pool.nextEvent? with
  | some e => do
    let ticks ← s.armDistance? (e.timestamp - s.clock.timeUs)
    return s.armAhead s.config.primaryChannel ticks
  | none => some s

/-- `rearm` on words. -/
def rearm? (s : Scheduler H K n) : Option (Scheduler H K n) :=
  if s.suspended then
    some s.refresh
  else do
    let s ← s.refresh.sync?
    let s ← s.armPrimary?
    return s.armFallback

/-- `masked` on words. -/
def masked? {α : Type} (act : Scheduler H K n → Option (α × Scheduler H K n))
    (s : Scheduler H K n) : Option (α × Scheduler H K n) := do
  let (restore, hw) := IrqMask.enter s.hw
  let (result, s) ← act { s with hw := hw }
  return (result, { s with hw := IrqMask.leave restore s.hw })

/-- The rate and the fallback distance are 32-bit words, and the pool `Fits`. -/
structure Sized (s : Scheduler H K n) : Prop where
  /-- The counter's rate is a 32-bit word. -/
  tickHz_le : s.clock.tickHz ≤ max32
  /-- The distance of the fallback channel is a 32-bit word. -/
  fallbackTicks_le : s.fallbackTicks ≤ max32
  /-- Every pending event fits. -/
  pool : s.pool.Fits

/-- The scheduler `s'` has the configuration, the fallback distance and the rate of `s`. -/
structure SameScale (s s' : Scheduler H K n) : Prop where
  config : s'.config = s.config
  fallbackTicks : s'.fallbackTicks = s.fallbackTicks
  tickHz : s'.clock.tickHz = s.clock.tickHz

/-- Every operation leaves a scheduler of the `SameScale`. -/
theorem frame_sameScale :
    Frame (SameScale : Scheduler H K n → Scheduler H K n → Prop) where
  refl _ := ⟨rfl, rfl, rfl⟩
  trans h h' := ⟨h'.config.trans h.config, h'.fallbackTicks.trans h.fallbackTicks,
    h'.tickHz.trans h.tickHz⟩
  enter _ := ⟨rfl, rfl, rfl⟩
  leave _ _ := ⟨rfl, rfl, rfl⟩
  sync s := by
    unfold sync
    split <;> exact ⟨rfl, rfl, rfl⟩
  arm _ _ _ := ⟨rfl, rfl, rfl⟩
  contents _ _ _ _ _ := ⟨rfl, rfl, rfl⟩
  restart _ _ _ := ⟨rfl, rfl, rfl⟩

variable {s s' : Scheduler H K n}

omit [TimerHardware H] in
/-- A scheduler of the `SameScale` as one that is `Sized` is so too, if its pool `Fits`. -/
theorem Sized.of_sameScale (h : s.Sized) (hscale : SameScale s s') (hpool : s'.pool.Fits) :
    s'.Sized where
  tickHz_le := hscale.tickHz ▸ h.tickHz_le
  fallbackTicks_le := hscale.fallbackTicks ▸ h.fallbackTicks_le
  pool := hpool

/-- A scheduler stays `Sized` under `sync`. -/
theorem Sized.sync (h : s.Sized) : s.sync.Sized :=
  h.of_sameScale (frame_sameScale.sync s) (s.sync_same.pool ▸ h.pool)

/-- A scheduler stays `Sized` under `timeUs`. -/
theorem Sized.timeUs (h : s.Sized) : s.timeUs.2.Sized :=
  h.of_sameScale (frame_sameScale.timeUs s) ((arms_sameBut.timeUs s).pool ▸ h.pool)

/-- A scheduler stays `Sized` as it enters a masked section. -/
theorem Sized.entered (h : s.Sized) : s.entered.Sized :=
  h.of_sameScale (frame_sameScale.enter s) h.pool

/-- `sync?` does not fail for a scheduler that is `Sized`. -/
theorem sync?_eq (h : s.Sized) : s.sync? = some s.sync := by
  unfold sync? Scheduler.sync
  split
  · rfl
  · show (s.clock.sync? (TimerHardware.readCounter s.hw).1 >>= _) = _
    rw [Clock.sync?_eq h.tickHz_le]
    rfl

omit [TimerHardware H] in
/-- `armDistance?` does not fail, for a distance is never longer than that of the fallback channel,
which is a 32-bit word. -/
theorem armDistance?_eq (h : s.Sized) {us : Nat} (hus : us ≤ max64) :
    s.armDistance? us = some (s.armDistance us) := by
  have hticks : min (max (s.clock.usToTicks us) s.config.minArmTicks) s.fallbackTicks ≤ max32 :=
    Nat.le_trans (Nat.min_le_right _ _) h.fallbackTicks_le
  unfold armDistance? armDistance
  rw [Clock.usToTicks?_eq h.tickHz_le hus, Option.bind_eq_bind, Option.bind_some]
  exact fit?_of_le hticks

/-- `armPrimary?` does not fail for a scheduler that is `Sized`. -/
theorem armPrimary?_eq (h : s.Sized) : s.armPrimary? = some s.armPrimary := by
  unfold armPrimary? armPrimary
  cases hnext : s.pool.nextEvent? with
  | none => rfl
  | some e =>
    obtain ⟨slot, -, hget⟩ := Option.bind_eq_some_iff.mp hnext
    have hus : e.timestamp - s.clock.timeUs ≤ max64 :=
      Nat.le_trans (Nat.sub_le _ _) (h.pool hget).timestamp_le
    dsimp only
    rw [armDistance?_eq h hus]
    rfl

/-- `rearm?` does not fail for a scheduler that is `Sized`. -/
theorem rearm?_eq (h : s.Sized) : s.rearm? = some s.rearm := by
  have hrefresh : s.refresh.Sized :=
    h.of_sameScale ⟨rfl, rfl, rfl⟩ (h.pool.ages s.pool.ages_recompute)
  unfold rearm? rearm
  split
  · rfl
  · rw [sync?_eq hrefresh]
    show (s.refresh.sync.armPrimary? >>= _) = _
    rw [armPrimary?_eq hrefresh.sync]
    rfl

/-- `masked?` fails exactly when the answer is not accepted, if what is done inside does. -/
theorem masked?_guard {α : Type} (accept : α → Bool)
    {act : Scheduler H K n → α × Scheduler H K n}
    {act? : Scheduler H K n → Option (α × Scheduler H K n)}
    (h : act? s.entered = Option.guard (fun done => accept done.1) (act s.entered)) :
    masked? act? s = Option.guard (fun done => accept done.1) (masked act s) := by
  unfold masked?
  show (act? s.entered >>= _) = _
  rw [h]
  exact guard_bind_some rfl rfl

/-- `masked?` does not fail if what is done inside does not. -/
theorem masked?_eq {α : Type} {act : Scheduler H K n → α × Scheduler H K n}
    {act? : Scheduler H K n → Option (α × Scheduler H K n)}
    (h : act? s.entered = some (act s.entered)) : masked? act? s = some (masked act s) :=
  masked?_guard (fun _ => true) h

/-- `timeMs` on words. -/
def timeMs? : Scheduler H K n → Option (Nat × Scheduler H K n) :=
  masked? fun s => do
    let s ← s.sync?
    return (s.clock.timeMs, s)

/-- `timeUs` on words. -/
def timeUs? : Scheduler H K n → Option (Nat × Scheduler H K n) :=
  masked? fun s => do
    let s ← s.sync?
    return (s.clock.timeUs, s)

/-- `rearmNow` on words. -/
def rearmNow? (s : Scheduler H K n) : Option (Scheduler H K n) := do
  let (_, s) ← masked? (fun s => do return ((), ← s.rearm?)) s
  return s

/-- `pollUntil` on words. -/
def pollUntil? (start us : Nat) : Nat → Scheduler H K n → Option (Bool × Scheduler H K n)
  | 0, s => some (false, s)
  | readings + 1, s => do
    let (now, s) ← s.timeUs?
    if now - start < us then pollUntil? start us readings s else return (true, s)

/-- `wait` on words. -/
def wait? (span : Span) (s : Scheduler H K n) : Option (Bool × Scheduler H K n) :=
  if s.suspended then
    some (true, s)
  else do
    let (start, s) ← s.timeUs?
    pollUntil? start span.toUs (s.readingsFor span.toUs) s

/-- Reading something off the clock in a masked section does not fail for a scheduler that is
`Sized`. -/
theorem read?_eq {α : Type} (f : Clock → α) (h : s.Sized) :
    masked? (fun s => do
      let s ← s.sync?
      return (f s.clock, s)) s = some (masked (fun s => (f s.sync.clock, s.sync)) s) := by
  refine masked?_eq ?_
  rw [sync?_eq h.entered]
  rfl

theorem timeUs?_eq (h : s.Sized) : s.timeUs? = some s.timeUs := read?_eq (·.timeUs) h

theorem timeMs?_eq (h : s.Sized) : s.timeMs? = some s.timeMs := read?_eq (·.timeMs) h

theorem rearmNow?_eq (h : s.Sized) : s.rearmNow? = some s.rearmNow := by
  have hmasked : masked? (fun s => do return ((), ← s.rearm?)) s =
      some (masked (fun s => ((), s.rearm)) s) := by
    refine masked?_eq ?_
    rw [rearm?_eq h.entered]
    rfl
  unfold rearmNow?
  rw [hmasked]
  rfl

/-- `pollUntil?` does not fail for a scheduler that is `Sized`, for any number of readings. -/
theorem pollUntil?_eq (start us readings : Nat) (h : s.Sized) :
    pollUntil? start us readings s = some (pollUntil start us readings s) := by
  induction readings generalizing s with
  | zero => rfl
  | succ readings ih =>
    have hafter := h.timeUs
    unfold pollUntil? pollUntil
    rw [timeUs?_eq h]
    generalize s.timeUs = read at hafter ⊢
    show (if read.1 - start < us then pollUntil? start us readings read.2
        else some (true, read.2)) =
      some (if read.1 - start < us then pollUntil start us readings read.2 else (true, read.2))
    rw [ih hafter]
    split <;> rfl

/-- `wait?` does not fail for a scheduler that is `Sized`. -/
theorem wait?_eq (span : Span) (h : s.Sized) : s.wait? span = some (s.wait span) := by
  unfold wait? wait waitUs
  split
  · rfl
  · have hafter := h.timeUs
    rw [timeUs?_eq h, Option.bind_eq_bind, Option.bind_some]
    generalize s.timeUs = read at hafter ⊢
    dsimp only
    rw [pollUntil?_eq _ _ _ hafter]

/-! ## Events -/

/-- `register` on words. -/
def register? (r : Request) (s : Scheduler H K n) :
    Option (Except TimerError Unit × Scheduler H K n) :=
  if r.repeating && r.period.toUs == 0 then
    some (s.reject .invalidParameter)
  else do
    let s ← s.sync?
    match ← s.pool.insert? (r.registration s.clock.timeUs) with
    | .error reason => return s.reject reason
    | .ok (_, pool) => return (.ok (), ← { s with pool := pool }.rearm?)

/-- `withdraw` on words. -/
def withdraw? (id value : UInt16) (s : Scheduler H K n) :
    Option (Except TimerError Unit × Scheduler H K n) :=
  let found := s.pool.find id value
  let pool := s.pool.releaseAll found
  let cancelled := { s with pool := pool }
  if !found.isEmpty && pool.earliest != s.pool.next then do
    return (.ok (), ← cancelled.rearm?)
  else
    some (.ok (), cancelled)

omit [TimerHardware H] in
/-- A scheduler stays `Sized` when its pool is replaced by one that `Fits`. -/
theorem Sized.withPool (h : s.Sized) {p : Pool n} (hpool : p.Fits) :
    ({ s with pool := p } : Scheduler H K n).Sized := ⟨h.tickHz_le, h.fallbackTicks_le, hpool⟩

/-- `register?` does not fail for a scheduler that is `Sized`, as long as the numbers last. -/
theorem register?_eq (r : Request) (h : s.Sized)
    (hlast : (register r s).2.pool.nextSeq ≤ max64) : register? r s = some (register r s) := by
  by_cases hbad : (r.repeating && r.period.toUs == 0) = true
  · unfold register? register
    rw [if_pos hbad, if_pos hbad]
  · have hgood : r.repeating = true → 0 < r.period.toUs := by
      simpa [Nat.pos_iff_ne_zero] using hbad
    unfold register at hlast
    unfold register? register
    rw [if_neg hbad] at hlast ⊢
    rw [if_neg hbad, sync?_eq h, Option.bind_eq_bind, Option.bind_some]
    dsimp only at hlast ⊢
    have hinsert? : s.sync.pool.insert? (r.registration s.sync.clock.timeUs) =
        some (s.sync.pool.insert (r.registration s.sync.clock.timeUs)) := by
      refine Pool.insert?_eq fun slot p hinsert => ?_
      rw [hinsert] at hlast
      dsimp only at hlast
      rw [rearm_pool] at hlast
      exact hlast
    rw [hinsert?, Option.bind_eq_bind, Option.bind_some]
    cases hinsert : s.sync.pool.insert (r.registration s.sync.clock.timeUs) with
    | error reason => rfl
    | ok taken =>
      obtain ⟨slot, p⟩ := taken
      obtain ⟨-, -, -, hput⟩ := Pool.insert_eq_ok hinsert
      have hfits : p.Fits := h.sync.pool.put hput (r.registration_fits hgood _ _)
      dsimp only
      rw [rearm?_eq (h.sync.withPool hfits)]
      rfl

/-- `withdraw?` does not fail for a scheduler that is `Sized`. -/
theorem withdraw?_eq (id value : UInt16) (h : s.Sized) :
    withdraw? id value s = some (withdraw id value s) := by
  have hfits := h.pool.ages (s.pool.ages_releaseAll (s.pool.find id value))
  unfold withdraw? withdraw
  dsimp only
  split
  · rw [rearm?_eq (h.withPool hfits)]
    rfl
  · rfl

/-! ## Deep sleep -/

/-- `handOver` on words. -/
def handOver? (s : Scheduler H K n) : Option (Snapshot × Scheduler H K n) := do
  let s ← s.sync?
  return (⟨s.clock.timeUs, s.clock.reading⟩,
    { s with suspended := true, stats := s.stats.recordSuspend })

omit [TimerHardware H] in
/-- `alignSlot` on words. -/
def alignSlot? (word slot due : Nat) (s : Scheduler H K n) : Option (Nat × Scheduler H K n) :=
  match (s.pool.get? slot).filter (·.isDue s.clock.timeUs) with
  | none => some (due, s)
  | some e => do
    let due ← fit? word (due + 1)
    let (skipped, later) ← e.align? s.clock.timeUs
    return (due, { s with
      pool := s.pool.set slot (some later)
      stats := s.stats.recordCollapsed skipped })

omit [TimerHardware H] in
/-- `alignSlots` on words, over all slots. -/
def alignDue? (word : Nat) (s : Scheduler H K n) : Option (Nat × Scheduler H K n) :=
  (List.range n).foldlM (fun (due, s) slot => s.alignSlot? word slot due) (0, s)

theorem handOver?_eq (h : s.Sized) : handOver? s = some (handOver s) := by
  unfold handOver? handOver
  rw [sync?_eq h]
  rfl

omit [TimerHardware H] in
/-- `alignSlot?` does not fail as long as `word` can count one more. -/
theorem alignSlot?_eq {word slot due : Nat} (hdue : due < word) (s : Scheduler H K n) :
    s.alignSlot? word slot due = some (s.alignSlot slot due) := by
  unfold alignSlot? alignSlot
  cases (s.pool.get? slot).filter (·.isDue s.clock.timeUs) with
  | none => rfl
  | some e =>
    dsimp only
    rw [fit?_bind _ hdue, Event.align?_eq e s.clock.timeUs_le]
    rfl

omit [TimerHardware H] in
/-- `alignDue?` does not fail, for there are no more due events than slots, which `word` can count.
-/
theorem alignDue?_eq {word : Nat} (hslots : n ≤ word) : s.alignDue? word = some s.alignDue := by
  have hfirst : ∀ slots ≤ n, (List.range slots).foldlM
      (fun (due, s) slot => alignSlot? word slot due s) (0, s) =
        some (s.alignSlots (List.range slots)) := by
    intro slots
    induction slots with
    | zero => exact fun _ => rfl
    | succ slot ih =>
      intro hle
      have hdue : (s.alignSlots (List.range slot)).1 < word :=
        calc (s.alignSlots (List.range slot)).1
            ≤ slot := alignSlots_fst_le (Nat.le_of_succ_le hle)
          _ < n := hle
          _ ≤ word := hslots
      have hfold : s.alignSlots (List.range (slot + 1)) =
          (s.alignSlots (List.range slot)).2.alignSlot slot (s.alignSlots (List.range slot)).1 := by
        unfold alignSlots
        rw [List.range_succ, List.foldl_append]
        rfl
      rw [List.range_succ, List.foldlM_append, ih (Nat.le_of_succ_le hle), Option.bind_eq_bind,
        Option.bind_some, List.foldlM_cons, ← List.range_succ, hfold]
      exact (congrArg (fun x => Option.bind x _) (alignSlot?_eq hdue _)).trans rfl
  unfold alignDue?
  rw [hfirst n (Nat.le_refl n), alignSlots_eq]

omit [TimerHardware H] in
/-- `restart` on words. -/
def restart? (counter elapsedUs : Nat) (s : Scheduler H K n) : Option (Scheduler H K n) := do
  let clock ← (s.clock.resync counter).advanceUs? elapsedUs
  return { s with clock := clock, suspended := false }

/-- `takeBack` on words. -/
def takeBack? (word counter elapsedUs : Nat) (s : Scheduler H K n) :
    Option (Nat × Scheduler H K n) := do
  let s ← s.restart? counter elapsedUs
  let (due, s) ← s.alignDue? word
  return (due, ← s.rearm?)

/-- `takeBack?` does not fail when the interval is a 64-bit word and the slots can be counted. -/
theorem takeBack?_eq {word : Nat} (hslots : n ≤ word) (h : s.Sized) (counter : Nat)
    {elapsedUs : Nat} (hus : elapsedUs ≤ max64) :
    takeBack? word counter elapsedUs s = some (takeBack counter elapsedUs s) := by
  have hrestart : s.restart? counter elapsedUs = some (s.restart counter elapsedUs) := by
    unfold restart?
    rw [Clock.advanceUs?_eq hus]
    rfl
  have haligned : (s.restart counter elapsedUs).alignDue.2.Sized := by
    have hages := s.pool.ages_alignAll (s.restart counter elapsedUs).clock.timeUs_le
    exact h.of_sameScale ⟨rfl, rfl, rfl⟩ (h.pool.ages hages)
  unfold takeBack?
  rw [hrestart, Option.bind_eq_bind, Option.bind_some, alignDue?_eq hslots, Option.bind_eq_bind,
    Option.bind_some]
  show ((s.restart counter elapsedUs).alignDue.2.rearm? >>= _) = _
  rw [rearm?_eq haligned]
  rfl

/-! ## Interrupts -/

/-- The scheduler is `Sized`, its pool is `Numbered`, and no event fires more often in one interrupt
than a 32-bit word can count. -/
structure Suited (s : Scheduler H K n) : Prop extends Sized s where
  /-- The pending events have different numbers. -/
  numbered : s.pool.Numbered
  /-- The most firings of an event in one interrupt are a 32-bit word. -/
  maxReplay_le : s.config.maxReplay ≤ max32

namespace Suited

omit [TimerHardware H] in
/-- A scheduler of the `SameScale` as one that is `Suited` is so too, if its pool `Fits` and is
`Numbered`. -/
theorem of_sameScale (h : s.Suited) (hscale : SameScale s s') (hpool : s'.pool.Fits)
    (hnumbered : s'.pool.Numbered) : s'.Suited where
  toSized := h.toSized.of_sameScale hscale hpool
  numbered := hnumbered
  maxReplay_le := hscale.config ▸ h.maxReplay_le

/-- A scheduler stays `Suited` as it enters a masked section. -/
theorem entered (h : s.Suited) : s.entered.Suited :=
  h.of_sameScale (frame_sameScale.enter s) h.pool h.numbered

end Suited

variable [EventSink K]

/-- `dispatch` on words. -/
def dispatch? (word : Nat) (s : Scheduler H K n) : Option (Array Firing × Scheduler H K n) := do
  let s ← s.sync?
  let (firings, pool) ← s.pool.drain? word s.config s.clock.timeUs
  return (firings, ← ({ s with pool := pool }.deliver firings).rearm?)

/-- `handle` on words. -/
def handle? (word : Nat) (source : InterruptSource) (s : Scheduler H K n) :
    Option (Array Firing × Scheduler H K n) :=
  let s := { s with stats := s.stats.recordInterrupt source }
  if s.suspended then some (#[], s) else s.dispatch? word

/-- `compareMatch` on words. -/
def compareMatch? (word channel : Nat) (s : Scheduler H K n) :
    Option (Array Firing × Scheduler H K n) :=
  match s.config.sourceOf? channel with
  | some source => masked? (handle? word source) s
  | none => some (#[], s)

/-- Short of the end of time `dispatch?` fails only when `word` cannot count the firings. -/
theorem dispatch?_eq {word : Nat} (h : s.Suited) (hnow : s.sync.clock.timeUs < max64) :
    s.dispatch? word = Option.guard (fun done => done.1.size ≤ word) s.dispatch := by
  have hsame := s.sync_same
  have hdrain : s.sync.pool.drain? word s.sync.config s.sync.clock.timeUs =
      Option.guard (fun drained => drained.1.size ≤ word)
        (s.sync.pool.drain s.sync.config s.sync.clock.timeUs) := by
    rw [hsame.pool, hsame.config]
    exact Pool.drain?_eq hnow h.maxReplay_le h.pool h.numbered.distinct
  have hages := s.sync.pool.ages_drain s.sync.config s.sync.clock.timeUs
  unfold dispatch? dispatch
  rw [sync?_eq h.toSized, Option.bind_eq_bind, Option.bind_some, hdrain]
  dsimp only
  generalize s.sync.pool.drain s.sync.config s.sync.clock.timeUs = drained at hages ⊢
  have hsized : (({ s.sync with pool := drained.2 } : Scheduler H K n).deliver drained.1).Sized :=
    (h.toSized.sync.withPool (h.toSized.sync.pool.ages hages)).of_sameScale ⟨rfl, rfl, rfl⟩
      (h.toSized.sync.pool.ages hages)
  refine guard_bind_some ?_ rfl
  show ((({ s.sync with pool := drained.2 } : Scheduler H K n).deliver drained.1).rearm? >>= _) = _
  rw [rearm?_eq hsized]
  rfl

/-- Short of the end of time `handle?` fails only when `word` cannot count the firings. -/
theorem handle?_eq {word : Nat} (source : InterruptSource) (h : s.Suited)
    (hnow : s.sync.clock.timeUs < max64) :
    handle? word source s = Option.guard (fun done => done.1.size ≤ word) (handle source s) := by
  have hcounted : ({ s with stats := s.stats.recordInterrupt source } : Scheduler H K n).Suited :=
    h.of_sameScale ⟨rfl, rfl, rfl⟩ h.pool h.numbered
  have hclock : ({ s with stats := s.stats.recordInterrupt source } : Scheduler H K n).sync.clock =
      s.sync.clock := by
    unfold sync
    dsimp only
    split <;> rfl
  unfold handle? handle
  dsimp only
  split
  · -- Nothing fires, and that can be counted.
    exact (if_pos (decide_eq_true (Nat.zero_le word))).symm
  · exact dispatch?_eq hcounted (hclock ▸ hnow)

/-- Short of the end of time `compareMatch?` fails only when `word` cannot count the firings. -/
theorem compareMatch?_eq {word : Nat} (channel : Nat) (h : s.Suited)
    (hnow : s.timeUs.1 < max64) :
    s.compareMatch? word channel =
      Option.guard (fun done => done.1.size ≤ word) (s.compareMatch channel) := by
  unfold compareMatch? compareMatch
  cases s.config.sourceOf? channel with
  | none => exact (if_pos (decide_eq_true (Nat.zero_le word))).symm
  | some source =>
    exact masked?_guard (fun firings : Array Firing => firings.size ≤ word)
      (handle?_eq source h.entered hnow)

/-! ## Every operation -/

/-- Carries out an operation on words, the largest word of the machine being `word`. -/
def exec? (word : Nat) (s : Scheduler H K n) : Command → Option (Reply × Scheduler H K n)
  | .timeMs => s.timeMs?.map (·.map .time id)
  | .timeUs => s.timeUs?.map (·.map .time id)
  | .schedule request => (masked? (register? request) s).map (·.map .outcome id)
  | .cancel ident value => (masked? (withdraw? ident value) s).map (·.map .outcome id)
  | .rearm => s.rearmNow?.map (.done, ·)
  | .interrupt source => (masked? (handle? word source) s).map (·.map .fired id)
  | .compareMatch channel => (s.compareMatch? word channel).map (·.map .fired id)
  | .wait span => (s.wait? span).map (·.map .waited id)
  | .suspend => (masked? handOver? s).map (·.map .snapshot id)
  | .resume counter elapsedUs => (masked? (takeBack? word counter elapsedUs) s).map (·.map .due id)

/-- Whether a `Command` can be asked of the scheduler: interrupts are taken before the end of time,
an interval that is handed back is a 64-bit word, and no more requests are granted than there are
numbers. -/
def admits (s : Scheduler H K n) : Command → Bool
  | .schedule request => (s.schedule request).2.pool.nextSeq ≤ max64
  | .interrupt _ => s.timeUs.1 < max64
  | .compareMatch _ => s.timeUs.1 < max64
  | .resume _ elapsedUs => elapsedUs ≤ max64
  | _ => true

omit [TimerHardware H] [EventSink K] in
/-- A guard on what is done, mapped to replies, is a guard on whether the `Reply` is `counted`. -/
theorem map_guard {α : Type} (reply : α → Reply) (word : Nat) (done : α × Scheduler H K n) :
    (Option.guard (fun done => (reply done.1).counted word) done).map (·.map reply id) =
      Option.guard (fun done => done.1.counted word) (done.map reply id) := by
  rw [Option.map_eq_bind]
  exact guard_bind_some rfl rfl

/-- `exec?` of a `Command` that the scheduler `admits` can only fail for an interrupt, and fails
exactly when `word` cannot count its firings. -/
theorem exec?_eq {word : Nat} (hslots : n ≤ word) (h : s.Suited) {c : Command}
    (hc : s.admits c = true) :
    s.exec? word c = Option.guard (fun done => done.1.counted word) (s.exec c) := by
  have hsized := h.toSized.entered
  cases c with
  | timeMs => exact congrArg (Option.map _) (timeMs?_eq h.toSized)
  | timeUs => exact congrArg (Option.map _) (timeUs?_eq h.toSized)
  | schedule request =>
    have hlast : (register request s.entered).2.pool.nextSeq ≤ max64 := of_decide_eq_true hc
    exact congrArg (Option.map _) (masked?_eq (register?_eq request hsized hlast))
  | cancel ident value =>
    exact congrArg (Option.map _) (masked?_eq (withdraw?_eq ident value hsized))
  | rearm => exact congrArg (Option.map _) (rearmNow?_eq h.toSized)
  | interrupt source =>
    have hnow : s.entered.sync.clock.timeUs < max64 := of_decide_eq_true hc
    have hmasked : masked? (handle? word source) s =
        Option.guard (fun done => done.1.size ≤ word) (s.interrupt source) :=
      masked?_guard (fun firings : Array Firing => firings.size ≤ word)
        (handle?_eq source h.entered hnow)
    exact (congrArg (Option.map _) hmasked).trans (map_guard .fired word _)
  | compareMatch channel =>
    have hnow : s.timeUs.1 < max64 := of_decide_eq_true hc
    have hmatch : s.compareMatch? word channel =
      Option.guard (fun done => done.1.size ≤ word) (s.compareMatch channel) :=
        compareMatch?_eq channel h hnow
    exact (congrArg (Option.map _) hmatch).trans (map_guard .fired word _)
  | wait span => exact congrArg (Option.map _) (wait?_eq span h.toSized)
  | suspend => exact congrArg (Option.map _) (masked?_eq (handOver?_eq hsized))
  | resume counter elapsedUs =>
    have hus : elapsedUs ≤ max64 := of_decide_eq_true hc
    exact congrArg (Option.map _) (masked?_eq (takeBack?_eq hslots hsized counter hus))

/-- Short of the end of time an `interrupt` fires no more events than the `burst` of the
configuration for each slot. -/
theorem size_interrupt_le (source : InterruptSource) (h : s.pool.Distinct)
    (hnow : s.timeUs.1 < max64) : (s.interrupt source).1.size ≤ n * s.config.burst := by
  cases hactive : s.suspended with
  | true =>
    have hnone : (s.interrupt source).1 = #[] :=
      congrArg Prod.fst (handle_of_suspended (s := s.entered) source hactive)
    rw [hnone]
    exact Nat.zero_le _
  | false =>
    rw [(interrupt_of_active source hactive).1]
    exact Pool.size_drain_le s.config hnow h

/-- When `word` can count the `burst` of all slots together, the firings of every `Command` can be
counted. -/
theorem exec_counted {word : Nat} (hword : n * s.config.burst ≤ word) (h : s.Suited) {c : Command}
    (hc : s.admits c = true) : (s.exec c).1.counted word = true := by
  have hcount : ∀ source, s.timeUs.1 < max64 → (s.interrupt source).1.size ≤ word :=
    fun source hnow => Nat.le_trans (size_interrupt_le source h.numbered.distinct hnow) hword
  cases c with
  | timeMs | timeUs | schedule | cancel | rearm | wait | suspend | resume => rfl
  | interrupt source => exact decide_eq_true (hcount source (of_decide_eq_true hc))
  | compareMatch channel =>
    have hnow : s.timeUs.1 < max64 := of_decide_eq_true hc
    refine decide_eq_true (p := (s.compareMatch channel).1.size ≤ word) ?_
    unfold compareMatch
    cases s.config.sourceOf? channel with
    | none => exact Nat.zero_le word
    | some source => exact hcount source hnow

/-- A pool that `Fits` still does after every `Command`. -/
theorem exec_fits (h : s.pool.Fits) (c : Command) : (s.exec c).2.pool.Fits := by
  rcases s.exec_pool c with hages | ⟨request, -, haccepted⟩
  · exact h.ages hages
  · obtain ⟨-, hgood, -, -, -, hput, -⟩ := haccepted
    exact h.put hput (request.registration_fits hgood _ _)

/-- A scheduler stays `Suited` under every `Command`. -/
theorem Suited.exec (h : s.Suited) (c : Command) : (s.exec c).2.Suited :=
  h.of_sameScale (frame_sameScale.exec s c) (exec_fits h.pool c) (exec_numbered h.numbered c)

end Scheduler

end SoftTimer
