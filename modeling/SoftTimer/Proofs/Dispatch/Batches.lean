import SoftTimer.Proofs.Dispatch.Outcome

/-!
# One interrupt or several

How often a scheduler is interrupted, and how it is configured each time, makes no difference to
what is left in the end. `Turn` is what an interrupt finds of the timer, the clock and the
configuration, and `Scheduler.takeTurns` takes one interrupt after another. The main statement is
`takeTurns_endsAlike`: turns whose times do not go back leave the same pool as a single late one at
the time of the last, and account for as many occurrences. If no turn may skip anything, what they
fire one after another is what the late one fires in one go.

Each interrupt comes to the outcome of its pool (`interrupt_outcome`), and outcomes one after
another are an outcome (`Pool.Outcome.trans`), so a whole list of turns comes to the outcome at the
time of its last (`takeTurns_outcome`). An outcome says what is left, and when nothing was skipped
also what has fired (`Pool.Outcome.firings_eq`).
-/

namespace SoftTimer

/-- What an `interrupt` finds, apart from what is pending: its source, the configuration, and the
clock and hardware of the moment. -/
structure Turn (H : Type) where
  /-- The timer. -/
  hw : H
  /-- The clock. -/
  clock : Clock
  /-- The configuration. -/
  config : Config
  /-- The channel whose interrupt it is. -/
  source : InterruptSource

/-- The time at which the interrupt of a `Turn` comes. -/
def Turn.now {H : Type} [TimerHardware H] (t : Turn H) : Nat :=
  (t.clock.sync (TimerHardware.readCounter (IrqMask.enter t.hw).2).1).timeUs

/-- The statistics can count every `Firing` and what it skips without saturating. -/
structure Stats.HasRoomFor (s : Stats) (firings : List Firing) : Prop where
  /-- The count of firings does not saturate. -/
  eventsFired : s.eventsFired + firings.length ≤ max64
  /-- The count of skipped occurrences does not saturate. -/
  collapsedOccurrences : s.collapsedOccurrences + (firings.map (·.collapsed)).sum ≤ max64

namespace Scheduler

variable {H K : Type} {n : Nat} [TimerHardware H] [EventSink K] {s : Scheduler H K n}

/-- The scheduler as a `Turn` finds it. -/
def facing (s : Scheduler H K n) (t : Turn H) : Scheduler H K n :=
  { s with hw := t.hw, clock := t.clock, config := t.config }

/-- All that fires in the interrupt of each `Turn`, taken one after another, and the scheduler after
the last. -/
def takeTurns (s : Scheduler H K n) : List (Turn H) → List Firing × Scheduler H K n
  | [] => ([], s)
  | t :: rest =>
    let (firings, s) := (s.facing t).interrupt t.source
    let (more, s) := s.takeTurns rest
    (firings.toList ++ more, s)

omit [EventSink K] in
/-- The time that a scheduler `facing` a `Turn` reads is the time of the turn. -/
theorem timeUs_facing (hactive : s.suspended = false) (t : Turn H) :
    (s.facing t).timeUs.1 = t.now := by
  have hnot : ¬ s.suspended = true := by simp [hactive]
  show ((s.facing t).entered.sync).clock.timeUs = t.now
  unfold sync
  exact congrArg (fun s : Scheduler H K n => s.clock.timeUs) (if_neg hnot)

/-- An `interrupt` leaves an active scheduler active, with its pool `Cached`. -/
theorem interrupt_active (source : InterruptSource) (hactive : s.suspended = false) :
    (s.interrupt source).2.suspended = false ∧ (s.interrupt source).2.pool.Cached := by
  have hact := handle_of_active (s := s.entered) source hactive
  obtain ⟨-, hpool, -, -, -⟩ := interrupt_of_active source hactive
  constructor
  · show (handle source s.entered).2.suspended = false
    rw [hact, (rearm_same _).suspended]
    exact s.entered.sync_same.suspended.trans hactive
  · rw [hpool]
    exact Pool.cached_recompute _

/-- An `interrupt` brings an active scheduler's pool to its `Outcome`. -/
theorem interrupt_outcome (source : InterruptSource) (hactive : s.suspended = false)
    (hdistinct : s.pool.Distinct) (hnow : s.timeUs.1 < max64) :
    Pool.Outcome s.timeUs.1 s.pool (s.interrupt source).1.toList (s.interrupt source).2.pool := by
  obtain ⟨hfired, hpool, -, -, -⟩ := interrupt_of_active source hactive
  have h := Pool.drain_outcome s.config hdistinct hnow
  rw [hfired, hpool]
  exact ⟨h.get?, h.nextSeq, h.count, h.timestamp_le, h.exists_le, h.sorted⟩

/-- An `interrupt` of an active scheduler tells the sink the `notice` of each firing, in order. -/
theorem interrupt_sink (source : InterruptSource) (hactive : s.suspended = false) :
    (s.interrupt source).2.sink =
      ((s.interrupt source).1.toList.map (·.notice)).foldl EventSink.deliver s.sink := by
  obtain ⟨hfired, -, hsink, -, -⟩ := interrupt_of_active source hactive
  rw [hsink, hfired, ← Array.foldl_toList, List.foldl_map]

/-- The interrupt of a `Turn` brings an active scheduler's pool to its `Outcome`. -/
theorem facing_outcome (t : Turn H) (hactive : s.suspended = false) (hdistinct : s.pool.Distinct)
    (hnow : t.now < max64) :
    Pool.Outcome t.now s.pool ((s.facing t).interrupt t.source).1.toList
      ((s.facing t).interrupt t.source).2.pool := by
  have htime := timeUs_facing hactive t
  have hnow' : (s.facing t).timeUs.1 < max64 := htime ▸ hnow
  have h := interrupt_outcome (s := s.facing t) t.source hactive hdistinct hnow'
  rw [htime] at h
  exact h

/-- A `Turn` whose `burst` is no less than any event's due occurrences fires every due occurrence.
-/
theorem facing_dueOccurrences (t : Turn H) (hactive : s.suspended = false)
    (hdistinct : s.pool.Distinct) (hnow : t.now < max64)
    (hburst : ∀ e ∈ s.pool.events, e.occurrencesBy t.now ≤ t.config.burst) :
    (((s.facing t).interrupt t.source).1.toList.map (·.event) : Multiset Event) =
      s.pool.dueOccurrences t.now := by
  obtain ⟨hfired, -, -, -, -⟩ := interrupt_of_active (s := s.facing t) t.source hactive
  rw [hfired, timeUs_facing hactive t]
  exact Pool.drain_dueOccurrences hdistinct hnow hburst

/-- Turns whose times do not go back bring the pool to its `Outcome` at the time of the last. -/
theorem takeTurns_outcome (turns : List (Turn H)) (last : Turn H) (hactive : s.suspended = false)
    (hdistinct : s.pool.Distinct)
    (hsorted : ((turns ++ [last]).map Turn.now).Pairwise (· ≤ ·)) (hnow : last.now < max64) :
    Pool.Outcome last.now s.pool (s.takeTurns (turns ++ [last])).1
      (s.takeTurns (turns ++ [last])).2.pool := by
  induction turns generalizing s with
  | nil =>
    have h := facing_outcome last hactive hdistinct hnow
    simpa [takeTurns] using h
  | cons t rest ih =>
    rw [List.cons_append, List.map_cons, List.pairwise_cons] at hsorted
    obtain ⟨hfirst, hrest⟩ := hsorted
    have hle : t.now ≤ last.now := hfirst _ (by simp)
    have hnow' : t.now < max64 := by omega
    have h := facing_outcome t hactive hdistinct hnow'
    obtain ⟨hactive', -⟩ := interrupt_active (s := s.facing t) t.source hactive
    exact h.trans hle hnow (ih hactive' (h.distinct hnow' hdistinct) hrest)

/-- Turns whose `burst` is no less than any event's occurrences due by the last of them fire every
occurrence due by then. -/
theorem takeTurns_dueOccurrences (turns : List (Turn H)) (last : Turn H)
    (hactive : s.suspended = false) (hdistinct : s.pool.Distinct)
    (hsorted : ((turns ++ [last]).map Turn.now).Pairwise (· ≤ ·)) (hnow : last.now < max64)
    (hburst : ∀ t ∈ turns ++ [last], ∀ e ∈ s.pool.events,
      e.occurrencesBy last.now ≤ t.config.burst) :
    ((s.takeTurns (turns ++ [last])).1.map (·.event) : Multiset Event) =
      s.pool.dueOccurrences last.now := by
  induction turns generalizing s with
  | nil =>
    have h := facing_dueOccurrences last hactive hdistinct hnow (hburst last (by simp))
    simpa [takeTurns] using h
  | cons t rest ih =>
    rw [List.cons_append, List.map_cons, List.pairwise_cons] at hsorted
    obtain ⟨hfirst, hrest⟩ := hsorted
    have hle : t.now ≤ last.now := hfirst _ (by simp)
    have hnow' : t.now < max64 := by omega
    have h := facing_outcome t hactive hdistinct hnow'
    obtain ⟨hactive', -⟩ := interrupt_active (s := s.facing t) t.source hactive
    -- By now an event has no more due than by then, and what is left of it no more than itself.
    have hdue := facing_dueOccurrences t hactive hdistinct hnow' fun e he =>
      Nat.le_trans (e.occurrencesBy_mono hle) (hburst t (by simp) e he)
    have hmore := ih hactive' (h.distinct hnow' hdistinct) hrest fun t' ht' e he => by
      obtain ⟨e₀, he₀, hle₀⟩ := h.exists_occurrencesBy_le hle hnow he
      exact Nat.le_trans hle₀ (hburst t' (List.mem_cons_of_mem _ ht') e₀ he₀)
    rw [h.dueOccurrences_eq hle hnow, ← hdue, ← hmore, Multiset.coe_add, ← List.map_append]
    rfl

/-- The `firings` were told to the sink and counted in the statistics. -/
structure Reported (s : Scheduler H K n) (firings : List Firing) (s' : Scheduler H K n) :
    Prop where
  /-- The sink is told of what fires. -/
  sink : s'.sink = (firings.map (·.notice)).foldl EventSink.deliver s.sink
  /-- What fires is counted. -/
  eventsFired : s'.stats.eventsFired = sat64 (s.stats.eventsFired + firings.length)
  /-- What is skipped is counted. -/
  collapsedOccurrences : s'.stats.collapsedOccurrences =
    sat64 (s.stats.collapsedOccurrences + (firings.map (·.collapsed)).sum)

/-- `takeTurns` reports what it fires. -/
theorem takeTurns_reported (hactive : s.suspended = false) (hfits : s.stats.Fits)
    (turns : List (Turn H)) : Reported s (s.takeTurns turns).1 (s.takeTurns turns).2 := by
  induction turns generalizing s with
  | nil =>
    have hfired := sat64_of_le hfits.eventsFired
    have hskipped := sat64_of_le hfits.collapsedOccurrences
    exact ⟨rfl, hfired.symm, hskipped.symm⟩
  | cons t rest ih =>
    obtain ⟨hactive', -⟩ := interrupt_active (s := s.facing t) t.source hactive
    obtain ⟨hfired, hskipped⟩ := interrupt_counters (s := s.facing t) t.source hactive hfits
    have hsink := interrupt_sink (s := s.facing t) t.source hactive
    have h := ih hactive' ⟨hfired ▸ sat64_le _, hskipped ▸ sat64_le _⟩
    constructor
    case sink =>
      show (((s.facing t).interrupt t.source).2.takeTurns rest).2.sink = _
      rw [h.sink, hsink, ← List.foldl_append, ← List.map_append]
      rfl
    case eventsFired =>
      show (((s.facing t).interrupt t.source).2.takeTurns rest).2.stats.eventsFired = _
      rw [h.eventsFired, hfired, sat64_sat64_add, Nat.add_assoc, ← List.length_append]
      rfl
    case collapsedOccurrences =>
      show (((s.facing t).interrupt t.source).2.takeTurns rest).2.stats.collapsedOccurrences = _
      rw [h.collapsedOccurrences, hskipped, sat64_sat64_add, Nat.add_assoc, ← List.sum_append,
        ← List.map_append]
      rfl

/-- After `takeTurns` with at least one turn the pool is `Cached`. -/
theorem takeTurns_cached (hactive : s.suspended = false) (turns : List (Turn H)) (last : Turn H) :
    (s.takeTurns (turns ++ [last])).2.pool.Cached := by
  induction turns generalizing s with
  | nil => exact (interrupt_active (s := s.facing last) last.source hactive).2
  | cons t rest ih => exact ih (interrupt_active (s := s.facing t) t.source hactive).1

/-- The turns end in the same slots as the single turn `late`, with as many occurrences fired or
skipped. -/
structure EndsAlike (s : Scheduler H K n) (turns : List (Turn H)) (late : Turn H) : Prop where
  /-- The pools are equal at the end. -/
  pool : (s.takeTurns turns).2.pool = (s.takeTurns [late]).2.pool
  /-- As many occurrences have fired or been skipped. -/
  occurrences : (s.takeTurns turns).1.length + ((s.takeTurns turns).1.map (·.collapsed)).sum =
    (s.takeTurns [late]).1.length + ((s.takeTurns [late]).1.map (·.collapsed)).sum
  /-- As long as the statistics do not saturate, they have counted as many together. -/
  counted : s.stats.HasRoomFor (s.takeTurns turns).1 → s.stats.HasRoomFor (s.takeTurns [late]).1 →
    (s.takeTurns turns).2.stats.eventsFired + (s.takeTurns turns).2.stats.collapsedOccurrences =
      (s.takeTurns [late]).2.stats.eventsFired + (s.takeTurns [late]).2.stats.collapsedOccurrences
  /-- If every turn replays all that is due in the end, the same has fired in the same order. -/
  replayed : (∀ t ∈ late :: turns, t.config.catchUp = .replay ∧
      ∀ e ∈ s.pool.events, e.occurrencesBy late.now ≤ t.config.maxReplay) →
    (s.takeTurns turns).1 = (s.takeTurns [late]).1 ∧
      (s.takeTurns turns).2.sink = (s.takeTurns [late]).2.sink

/-- Interrupts at times that do not go back, however configured, end as a single one does that comes
at the time of the last, however configured, as `EndsAlike` says. -/
theorem takeTurns_endsAlike {turns : List (Turn H)} {last late : Turn H}
    (hactive : s.suspended = false) (hdistinct : s.pool.Distinct) (hfits : s.stats.Fits)
    (hsorted : ((turns ++ [last]).map Turn.now).Pairwise (· ≤ ·)) (hlate : late.now = last.now)
    (hnow : late.now < max64) : EndsAlike s (turns ++ [last]) late := by
  have hnow' : last.now < max64 := hlate ▸ hnow
  -- Both come to the outcome of the pool at the same time.
  have hmany := takeTurns_outcome turns last hactive hdistinct hsorted hnow'
  have hone := takeTurns_outcome [] late hactive hdistinct (by simp) hnow
  rw [hlate] at hone
  rw [List.nil_append] at hone
  have hreported := takeTurns_reported hactive hfits (turns ++ [last])
  have hreported' := takeTurns_reported hactive hfits [late]
  have hcount : (s.takeTurns (turns ++ [last])).1.length +
      ((s.takeTurns (turns ++ [last])).1.map (·.collapsed)).sum =
      (s.takeTurns [late]).1.length + ((s.takeTurns [late]).1.map (·.collapsed)).sum :=
    hmany.count.trans hone.count.symm
  constructor
  case pool =>
    refine Pool.eq_of_get? (takeTurns_cached hactive [] late) (takeTurns_cached hactive turns last)
      (fun slot => ?_) ?_
    · exact (hmany.get? slot).trans (hone.get? slot).symm
    · exact hmany.nextSeq.trans hone.nextSeq.symm
  case occurrences => exact hcount
  case counted =>
    intro hroom hroom'
    rw [hreported.eventsFired, hreported.collapsedOccurrences, hreported'.eventsFired,
      hreported'.collapsedOccurrences, sat64_of_le hroom.eventsFired,
      sat64_of_le hroom.collapsedOccurrences, sat64_of_le hroom'.eventsFired,
      sat64_of_le hroom'.collapsedOccurrences]
    omega
  case replayed =>
    intro hreplay
    have hburst : ∀ t ∈ late :: (turns ++ [last]), ∀ e ∈ s.pool.events,
        e.occurrencesBy last.now ≤ t.config.burst := by
      intro t ht e he
      obtain ⟨hpolicy, hmax⟩ := hreplay t ht
      have hle := hmax e he
      rw [hlate] at hle
      simp only [Config.burst, hpolicy]
      omega
    have hall := takeTurns_dueOccurrences turns last hactive hdistinct hsorted hnow' fun t ht =>
      hburst t (List.mem_cons_of_mem _ ht)
    have hall' := takeTurns_dueOccurrences [] late hactive hdistinct (by simp) hnow
      (by simpa [hlate] using hburst late List.mem_cons_self)
    rw [hlate, List.nil_append] at hall'
    have hsame := hmany.firings_eq hone hall hall'
    exact ⟨hsame, by rw [hreported.sink, hreported'.sink, hsame]⟩

/-- A `Turn` on a timer that counts microseconds. -/
def turnAt (now : Nat) (config : Config) : Turn SimTimer :=
  ⟨SimTimer.standard.advance now, .new .bits32 1000000, config, .primary⟩

/-- On `overslept`, replaying at 130 and collapsing at 250 fires three occurrences and skips two.
Replaying at 250 alone fires all five. The same is left in both cases. -/
theorem takeTurns_endsAlike_overslept :
    overslept.suspended = false ∧ overslept.pool.Distinct ∧ overslept.stats.Fits ∧
      (([turnAt 130 { catchUp := .replay }] ++ [turnAt 250 {}]).map Turn.now).Pairwise (· ≤ ·) ∧
      (turnAt 250 { catchUp := .replay }).now = (turnAt 250 {}).now ∧
      (turnAt 250 { catchUp := .replay }).now < max64 ∧
      EndsAlike overslept ([turnAt 130 { catchUp := .replay }] ++ [turnAt 250 {}])
        (turnAt 250 { catchUp := .replay }) ∧
      ((overslept.takeTurns [turnAt 130 { catchUp := .replay }, turnAt 250 {}]).1.map
        fun f => (f.event.timestamp, f.event.seq, f.collapsed)) =
          [(100, 0, 0), (100, 1, 0), (150, 0, 2)] ∧
      ((overslept.takeTurns [turnAt 250 { catchUp := .replay }]).1.map
        fun f => (f.event.timestamp, f.event.seq, f.collapsed)) =
          [(100, 0, 0), (100, 1, 0), (150, 0, 0), (200, 0, 0), (250, 0, 0)] := by
  have hactive : overslept.suspended = false := rfl
  have hdistinct : overslept.pool.Distinct := by decide
  have hfits : overslept.stats.Fits := ⟨by decide, by decide⟩
  have hsorted : (([turnAt 130 { catchUp := .replay }] ++ [turnAt 250 {}]).map
      Turn.now).Pairwise (· ≤ ·) := by decide
  have hlate : (turnAt 250 { catchUp := .replay }).now = (turnAt 250 {}).now := by decide
  have hnow : (turnAt 250 { catchUp := .replay }).now < max64 := by decide
  exact ⟨hactive, hdistinct, hfits, hsorted, hlate, hnow,
    takeTurns_endsAlike hactive hdistinct hfits hsorted hlate hnow, by decide, by decide⟩

end Scheduler

end SoftTimer
