import SoftTimer.Proofs.History.Happening
import SoftTimer.Proofs.Dispatch.Interrupt

/-!
# What each operation adds to the log

`Scheduler.happenings` says what an operation does to registrations, and in which order. A log
accounts for the difference between two schedulers (`Accounts`) when it is a history of their pools
at some time between their times, the sink was told of its firings, and the statistics count them
and what was skipped. Every operation is accounted for by its happenings (`exec_accounts`).
-/

namespace SoftTimer.Scheduler

variable {H K : Type} {n : Nat} [TimerHardware H] [EventSink K]

/-- What a `Command` does to registrations, in order. -/
def happenings (s : Scheduler H K n) : Command → List Happening
  | .schedule request =>
    if (s.schedule request).1.isOk then [.accepted ⟨s.timeUs.1, request, s.pool.nextSeq⟩] else []
  | .cancel id value => (s.pool.events.filter (·.isFor id value)).map .cancelled
  | .interrupt source => (s.interrupt source).1.toList.map .fired
  | .compareMatch channel => (s.compareMatch channel).1.toList.map .fired
  | .resume counter elapsedUs =>
    let now := (s.restart counter elapsedUs).clock.timeUs
    (s.pool.overdue now).map fun e => .aligned e (e.align now).1
  | _ => []

/-- The log accounts for how the scheduler `s` came to be `s'`. -/
structure Accounts (log : List Happening) (s s' : Scheduler H K n) : Prop where
  /-- The log is a history of the pools, at one time. -/
  history : ∃ now, s.clock.timeUs ≤ now ∧ now ≤ s'.clock.timeUs ∧
    (now < max64 → s.pool.Distinct → Pool.History now log s.pool s'.pool)
  /-- The sink was told of what fired. -/
  sink : s'.sink = ((firings log).map (·.event.notice)).foldl EventSink.deliver s.sink
  /-- What fired is counted. -/
  eventsFired : s.stats.Fits →
    s'.stats.eventsFired = sat64 (s.stats.eventsFired + (log.map (·.fires)).sum)
  /-- What was skipped is counted. -/
  collapsedOccurrences : s.stats.Fits →
    s'.stats.collapsedOccurrences = sat64 (s.stats.collapsedOccurrences + (log.map (·.skips)).sum)

namespace Accounts

omit [TimerHardware H] in
/-- The log `[]` accounts for schedulers with the same events, sink and counts of firings, if time
does not go back. -/
theorem quiet {s s' : Scheduler H K n} (hclock : s.clock.timeUs ≤ s'.clock.timeUs)
    (hpool : s.pool.Same s'.pool) (hsink : s'.sink = s.sink)
    (hfired : s'.stats.eventsFired = s.stats.eventsFired)
    (hskipped : s'.stats.collapsedOccurrences = s.stats.collapsedOccurrences) :
    Accounts [] s s' where
  history := ⟨_, Nat.le_refl _, hclock, fun _ _ => .nil hpool⟩
  sink := hsink
  eventsFired hfits := hfired.trans (sat64_of_le hfits.eventsFired).symm
  collapsedOccurrences hfits := hskipped.trans (sat64_of_le hfits.collapsedOccurrences).symm

omit [TimerHardware H] in
/-- The empty log accounts for schedulers that are `SameBut` for the clock and the hardware, if time
does not go back. -/
theorem of_sameBut {s s' : Scheduler H K n} (hclock : s.clock.timeUs ≤ s'.clock.timeUs)
    (h : SameBut s s') : Accounts [] s s' :=
  quiet hclock (h.pool ▸ .rfl) h.sink (congrArg _ h.stats) (congrArg _ h.stats)

/-- What `Accounts` for the steps of a masked section accounts for the section. -/
theorem masked {α : Type} {log : List Happening} {act : Scheduler H K n → α × Scheduler H K n}
    {s : Scheduler H K n} (h : Accounts log s.entered (act s.entered).2) :
    Accounts log s (masked act s).2 :=
  ⟨h.history, h.sink, h.eventsFired, h.collapsedOccurrences⟩

/-- What accounts for a scheduler accounts for it after `rearm` too. -/
theorem rearm {log : List Happening} {s s' : Scheduler H K n} (h : Accounts log s s') :
    Accounts log s s'.rearm := by
  obtain ⟨now, hfrom, hto, hhistory⟩ := h.history
  constructor
  case history =>
    refine ⟨now, hfrom, Nat.le_trans hto s'.timeUs_le_rearm, fun hnow hdistinct => ?_⟩
    rw [rearm_pool]
    exact (hhistory hnow hdistinct).same_right s'.pool.same_recompute
  case sink =>
    rw [rearm_sink, h.sink]
  case eventsFired =>
    intro hfits
    rw [rearm_stats, h.eventsFired hfits]
  case collapsedOccurrences =>
    intro hfits
    rw [rearm_stats, h.collapsedOccurrences hfits]

omit [TimerHardware H] in
/-- A `Pool.History` in which nothing fires or is skipped accounts for schedulers with the same sink
and statistics. -/
theorem silent {log : List Happening} {s s' : Scheduler H K n}
    (hhistory : ∃ now, s.clock.timeUs ≤ now ∧ now ≤ s'.clock.timeUs ∧
      Pool.History now log s.pool s'.pool)
    (hsink : s'.sink = s.sink) (hstats : s'.stats = s.stats) (hfirings : firings log = [])
    (hskips : (log.map (·.skips)).sum = 0) : Accounts log s s' := by
  obtain ⟨now, hfrom, hto, hhistory⟩ := hhistory
  constructor
  case history =>
    exact ⟨now, hfrom, hto, fun _ _ => hhistory⟩
  case sink =>
    rw [hsink, hfirings]
    rfl
  case eventsFired =>
    intro hfits
    rw [hstats, sum_fires, hfirings]
    exact (sat64_of_le hfits.eventsFired).symm
  case collapsedOccurrences =>
    intro hfits
    rw [hstats, hskips]
    exact (sat64_of_le hfits.collapsedOccurrences).symm

end Accounts

/-! ## Events -/

omit [EventSink K] in
/-- `register` grants a request exactly if it makes sense and `insert` accepts it, and it is then
given the next number. -/
theorem register_isOk (r : Request) (s : Scheduler H K n) :
    (register r s).1.isOk = true ↔
      (r.repeating = true → 0 < r.period.toUs) ∧ ∃ slot p,
        s.pool.insert (r.registration s.sync.clock.timeUs) = .ok (slot, p) ∧
          register r s = (.ok (), { s.sync with pool := p }.rearm) := by
  constructor
  · intro hok
    rcases register_cases r s with ⟨-, -, hact⟩ | ⟨-, reason, -, hact⟩ | hgood
    · rw [hact] at hok
      cases hok
    · rw [hact] at hok
      cases hok
    · exact hgood
  · rintro ⟨-, slot, p, -, hact⟩
    rw [hact]
    rfl

omit [EventSink K] in
/-- A request that `register` does not grant changes nothing but the clock, the hardware and the
count of refusals. -/
theorem register_of_not_isOk {r : Request} {s : Scheduler H K n}
    (h : (register r s).1.isOk = false) :
    (register r s).2 = { s with stats := s.stats.recordRejected } ∨
      (register r s).2 = { s.sync with stats := s.stats.recordRejected } := by
  rcases register_cases r s with ⟨-, -, hact⟩ | ⟨-, reason, -, hact⟩ | ⟨-, slot, p, -, hact⟩
  · rw [hact]
    exact .inl rfl
  · rw [hact]
    refine .inr ?_
    show ({ s.sync with stats := s.sync.stats.recordRejected } : Scheduler H K n) = _
    rw [s.sync_same.stats]
  · rw [hact] at h
    cases h

/-- `register` is accounted for by the acceptance, if the request is granted. -/
theorem register_accounts (r : Request) (s : Scheduler H K n) :
    Accounts (if (register r s).1.isOk then
      [.accepted ⟨s.sync.clock.timeUs, r, s.pool.nextSeq⟩] else []) s (register r s).2 := by
  cases hok : (register r s).1.isOk with
  | true =>
    obtain ⟨hgood, slot, p, hinsert, hact⟩ := (register_isOk r s).mp hok
    obtain ⟨hslot, hfree, hseq, hget⟩ := Pool.insert_eq_ok hinsert
    rw [hact, if_pos rfl]
    -- The time of the acceptance is that of the reading made to register the event.
    refine .rearm (.silent ?_ s.sync_same.sink s.sync_same.stats rfl rfl)
    refine ⟨s.sync.clock.timeUs, s.timeUs_le_sync, Nat.le_refl _, .cons ?_ (.nil .rfl)⟩
    exact .accepted rfl hgood rfl hslot hfree hget hseq
  | false =>
    rw [if_neg Bool.false_ne_true]
    rcases register_of_not_isOk hok with hact | hact
    · rw [hact]
      exact .quiet (Nat.le_refl _) .rfl rfl rfl rfl
    · rw [hact]
      exact .quiet s.timeUs_le_sync (s.sync_same.pool ▸ .rfl) s.sync_same.sink rfl rfl

/-- `withdraw` is accounted for by the cancellation of the events it finds. -/
theorem withdraw_accounts (id value : UInt16) (s : Scheduler H K n) :
    Accounts ((s.pool.events.filter (·.isFor id value)).map .cancelled) s
      (withdraw id value s).2 := by
  have hcancelled : Accounts ((s.pool.events.filter (·.isFor id value)).map .cancelled) s
      { s with pool := s.pool.releaseAll (s.pool.find id value) } := by
    have hnone : firings ((s.pool.events.filter (·.isFor id value)).map .cancelled) = [] :=
      firings_map_eq_nil fun _ => rfl
    refine .silent ⟨_, Nat.le_refl _, Nat.le_refl _, ?_⟩ rfl rfl hnone ?_
    · exact .of_filter (fun _ => none) (fun _ _ _ hget hput hseq => .cancelled hget hput hseq)
        (s.pool.get?_releaseAll_find id value) (Pool.nextSeq_releaseAll _ _)
    · rw [List.map_map]
      exact List.sum_eq_zero fun x hx => by
        obtain ⟨e, -, rfl⟩ := List.mem_map.mp hx
        rfl
  -- It makes no difference whether the channels are then armed.
  rw [withdraw_eq]
  dsimp only
  split
  · exact hcancelled.rearm
  · exact hcancelled

/-- `rearmNow` is accounted for by the empty log. -/
theorem rearmNow_accounts (s : Scheduler H K n) : Accounts [] s s.rearmNow :=
  have h : Accounts [] s.entered s.entered.rearm :=
    .rearm (.quiet (Nat.le_refl _) .rfl rfl rfl rfl)
  ⟨h.history, h.sink, h.eventsFired, h.collapsedOccurrences⟩

/-! ## Interrupts -/

/-- An `interrupt` is accounted for by its firings. -/
theorem interrupt_accounts (source : InterruptSource) (s : Scheduler H K n) :
    Accounts ((s.interrupt source).1.toList.map .fired) s (s.interrupt source).2 := by
  cases hactive : s.suspended with
  | true =>
    have hact := handle_of_suspended (s := s.entered) source hactive
    have hnothing : (s.interrupt source).1 = #[] := by
      unfold interrupt
      rw [masked_fst, hact]
    rw [hnothing]
    refine .masked ?_
    rw [hact]
    obtain ⟨hfired, hskipped⟩ := s.stats.recordInterrupt_counters source
    exact .quiet (Nat.le_refl _) .rfl rfl hfired hskipped
  | false =>
    obtain ⟨hfst, hpool, hsink, -, hclock⟩ := interrupt_of_active source hactive
    rw [← hfst, ← Array.foldl_toList] at hsink
    constructor
    · -- Everything fires at the time that the interrupt finds, and arming the channels afterwards
      -- does not take the clock back.
      refine ⟨s.timeUs.1, s.timeUs_le_timeUs, hclock, fun hnow hdistinct => ?_⟩
      obtain ⟨firings, d, hdrains, hdrain⟩ := s.pool.drain_eq s.config hnow
      rw [hpool, hfst, hdrain]
      exact (hdrains.history hnow (Drain.ready_start hdistinct)).same_right d.pool.same_recompute
    · rw [hsink, firings_map_fired, List.foldl_map]
      rfl
    · intro hfits
      rw [(interrupt_counters source hactive hfits).1, sum_fires, firings_map_fired]
    · intro hfits
      rw [(interrupt_counters source hactive hfits).2, List.map_map]
      rfl

/-- A `compareMatch` is accounted for by its firings. -/
theorem compareMatch_accounts (channel : Nat) (s : Scheduler H K n) :
    Accounts ((s.compareMatch channel).1.toList.map .fired) s (s.compareMatch channel).2 := by
  unfold compareMatch
  split
  · exact interrupt_accounts _ s
  · exact .quiet (Nat.le_refl _) .rfl rfl rfl rfl

/-! ## Deep sleep -/

omit [TimerHardware H] [EventSink K] in
/-- Counting skipped occurrences with `recordCollapsed` adds them up, saturating. -/
theorem foldl_recordCollapsed {stats : Stats} (hfits : stats.Fits) (skips : List Nat) :
    (skips.foldl Stats.recordCollapsed stats).eventsFired = stats.eventsFired ∧
      (skips.foldl Stats.recordCollapsed stats).collapsedOccurrences =
        sat64 (stats.collapsedOccurrences + skips.sum) := by
  induction skips generalizing stats with
  | nil => exact ⟨rfl, (sat64_of_le hfits.collapsedOccurrences).symm⟩
  | cons skipped rest ih =>
    have hfits' : (stats.recordCollapsed skipped).Fits := ⟨hfits.eventsFired, sat64_le _⟩
    obtain ⟨hfired, hskipped⟩ := ih hfits'
    rw [List.foldl_cons, hfired, hskipped, List.sum_cons]
    refine ⟨rfl, ?_⟩
    show sat64 (sat64 (stats.collapsedOccurrences + skipped) + _) = _
    rw [sat64_sat64_add, Nat.add_assoc]

omit [TimerHardware H] in
/-- `alignDue` is accounted for by what each of the due events skips. -/
theorem alignDue_accounts (s : Scheduler H K n) :
    Accounts ((s.pool.overdue s.clock.timeUs).map fun e =>
      .aligned e (e.align s.clock.timeUs).1) s s.alignDue.2 := by
  have hnone : firings ((s.pool.overdue s.clock.timeUs).map fun e =>
      .aligned e (e.align s.clock.timeUs).1) = [] := firings_map_eq_nil fun _ => rfl
  have hstats : s.alignDue.2.stats = ((s.pool.overdue s.clock.timeUs).map fun e =>
      (e.align s.clock.timeUs).1).foldl Stats.recordCollapsed s.stats := List.foldl_map.symm
  constructor
  case history =>
    refine ⟨_, Nat.le_refl _, Nat.le_refl _, fun hnow _ => ?_⟩
    refine .of_filter (fun e => some (e.shift (e.align s.clock.timeUs).1)) ?_ ?_
      (Pool.nextSeq_map _ _)
    · intro slot e hdue a b hget hput hseq
      rw [Event.isDue_iff] at hdue
      exact .aligned hget hdue (Event.align_fst_lt hdue) hput hseq
    · intro i
      show (s.pool.map _).get? i = _
      rw [Pool.get?_map, Option.map_eq_bind]
      congr 1
      funext e
      -- Lining up moves the due events and leaves the others alone.
      cases hdue : e.isDue s.clock.timeUs with
      | true => exact congrArg some (Event.align_snd hnow ((Event.isDue_iff _ _).mp hdue))
      | false =>
        have halign := Event.align_of_lt ((Event.isDue_eq_false _ _).mp hdue)
        exact congrArg (fun x => some x.2) halign
  case sink =>
    rw [hnone]
    rfl
  case eventsFired =>
    intro hfits
    rw [hstats, (foldl_recordCollapsed hfits _).1, sum_fires, hnone]
    exact (sat64_of_le hfits.eventsFired).symm
  case collapsedOccurrences =>
    intro hfits
    rw [hstats, (foldl_recordCollapsed hfits _).2, List.map_map]
    rfl

/-- `handOver` is accounted for by the empty log. -/
theorem handOver_accounts (s : Scheduler H K n) : Accounts [] s (handOver s).2 := by
  have hsame := s.sync_same
  have hfired : s.sync.stats.eventsFired = s.stats.eventsFired := by
    rw [hsame.stats]
  have hskipped : s.sync.stats.collapsedOccurrences = s.stats.collapsedOccurrences := by
    rw [hsame.stats]
  exact .quiet s.timeUs_le_sync (hsame.pool ▸ .rfl) hsame.sink hfired hskipped

/-- `takeBack` is accounted for by what each of the due events skips. -/
theorem takeBack_accounts (counter elapsedUs : Nat) (s : Scheduler H K n) :
    Accounts ((s.pool.overdue (s.restart counter elapsedUs).clock.timeUs).map fun e =>
        .aligned e (e.align (s.restart counter elapsedUs).clock.timeUs).1) s
      (takeBack counter elapsedUs s).2 := by
  -- The clock is set going first, so the events are lined up at a time no earlier than before.
  have h := (s.restart counter elapsedUs).alignDue_accounts
  obtain ⟨now, hfrom, hto, hhistory⟩ := h.history
  have hmono : s.clock.timeUs ≤ (s.restart counter elapsedUs).clock.timeUs :=
    (s.clock.resync counter).timeUs_le_advanceUs elapsedUs
  exact .rearm ⟨⟨now, Nat.le_trans hmono hfrom, hto, hhistory⟩, h.sink, h.eventsFired,
    h.collapsedOccurrences⟩

/-! ## Every operation -/

/-- Every `Command` is accounted for by its `happenings`. -/
theorem exec_accounts (s : Scheduler H K n) (c : Command) :
    Accounts (s.happenings c) s (s.exec c).2 := by
  cases c with
  | timeMs => exact .of_sameBut (arms_timeUs_le.timeMs s) (arms_sameBut.timeMs s)
  | timeUs => exact .of_sameBut (arms_timeUs_le.timeUs s) (arms_sameBut.timeUs s)
  | schedule request => exact .masked (register_accounts request s.entered)
  | cancel ident value => exact .masked (withdraw_accounts ident value s.entered)
  | rearm => exact rearmNow_accounts s
  | interrupt source => exact interrupt_accounts source s
  | compareMatch channel => exact compareMatch_accounts channel s
  | wait span => exact .of_sameBut (arms_timeUs_le.wait span s) (arms_sameBut.wait span s)
  | suspend => exact .masked (handOver_accounts s.entered)
  | resume counter elapsedUs => exact .masked (takeBack_accounts counter elapsedUs s.entered)

end SoftTimer.Scheduler
