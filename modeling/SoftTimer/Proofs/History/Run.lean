import SoftTimer.Proofs.History.Account

/-!
# Runs, and the order of firings

`Scheduler.Run` says what may come of a scheduler: operations are carried out in any order and with
any arguments, and in between the hardware does what it likes. It keeps the log of what happened to
the registrations. `Run.induct` carries an invariant of the log, the pool and the time through a
run that stays short of the end of time. It only has to be shown for one happening.

The main statement is `Run.fired_in_order`: over a whole run the events fire in the order of their
keys. The invariant (`InOrder`) is that everything that has fired comes before everything that is
pending, and is neither later than the clock nor numbered beyond what has been given out. The second
half is what a new registration needs, which may be due at once.
-/

namespace SoftTimer

namespace Pool

variable {n : Nat} {now : Nat}

/-- A pool stays `Numbered` when the slot of an event comes to hold nothing or an event of its
number. -/
theorem Numbered.puts {p p' : Pool n} (h : p.Numbered) {slot : Nat} {e : Event}
    (hget : p.get? slot = some e) {content : Option Event} (hput : Puts slot content p p')
    (hcontent : ∀ e' ∈ content, e'.seq = e.seq) (hseq : p'.nextSeq = p.nextSeq) :
    p'.Numbered where
  distinct := h.distinct.update hget hput hcontent
  seq_lt := by
    intro i e' hi
    rw [hput] at hi
    rw [hseq]
    split at hi
    · rw [hcontent e' hi]
      exact h.seq_lt hget
    · exact h.seq_lt hi

/-- A pool stays `Numbered` when a slot comes to hold an event of the next number, and that is given
out. -/
theorem Numbered.accept {p p' : Pool n} (h : p.Numbered) {slot : Nat} {e : Event}
    (hnumber : e.seq = p.nextSeq) (hput : Puts slot (some e) p p')
    (hseq : p'.nextSeq = p.nextSeq + 1) : p'.Numbered := by
  -- The number of the new event is beyond those of the others.
  have hold : ∀ ⦃i : Nat⦄ ⦃other : Event⦄, i ≠ slot → p'.get? i = some other →
      p.get? i = some other ∧ other.seq < p.nextSeq := by
    intro i other hne hi
    rw [hput, if_neg hne] at hi
    exact ⟨hi, h.seq_lt hi⟩
  have hnew : ∀ ⦃other : Event⦄, p'.get? slot = some other → other.seq = p.nextSeq := by
    intro other hother
    rw [hput, if_pos rfl] at hother
    cases hother
    exact hnumber
  constructor
  · -- Two events of one number are both the new one, or neither is.
    intro i j a b ha hb heq
    by_cases hi : i = slot <;> by_cases hj : j = slot
    · rw [hi, hj]
    · have hthis := hnew (hi ▸ ha)
      have hother := (hold hj hb).2
      omega
    · have hthis := hnew (hj ▸ hb)
      have hother := (hold hi ha).2
      omega
    · exact h.distinct (hold hi ha).1 (hold hj hb).1 heq
  · intro i other hother
    rw [hseq]
    by_cases hi : i = slot
    · exact Nat.lt_succ_of_le (Nat.le_of_eq (hnew (hi ▸ hother)))
    · exact Nat.lt_succ_of_lt (hold hi hother).2

/-- A pool stays `Numbered` whatever `Happens`. -/
theorem Happens.numbered {x : Happening} {p p' : Pool n} (h : Happens now x p p')
    (hnumbered : p.Numbered) : p'.Numbered := by
  cases h with
  | accepted _ _ hnumber _ _ hput hseq => exact hnumbered.accept hnumber hput hseq
  | fired hget _ _ _ hput hseq =>
    exact hnumbered.puts hget hput (fun _ he => Firing.seq_of_mem_rest he) hseq
  | aligned hget _ _ hput hseq =>
    refine hnumbered.puts hget hput (fun e' he' => ?_) hseq
    cases he'
    rfl
  | cancelled hget hput hseq =>
    refine hnumbered.puts hget hput (fun e' he' => ?_) hseq
    cases he'

/-- A pool that is the `Same` as a `Numbered` one is `Numbered`. -/
theorem Same.numbered {p p' : Pool n} (h : p.Same p') (hnumbered : p.Numbered) : p'.Numbered where
  distinct i j _ _ hi hj := hnumbered.distinct ((h.get? i).symm.trans hi) ((h.get? j).symm.trans hj)
  seq_lt i _ hi := h.nextSeq ▸ hnumbered.seq_lt ((h.get? i).symm.trans hi)

/-- The `empty` pool is `Numbered`. -/
theorem numbered_empty : (empty : Pool n).Numbered where
  distinct i j _ _ hi := by
    rw [get?_empty] at hi
    cases hi
  seq_lt i _ hi := by
    rw [get?_empty] at hi
    cases hi

end Pool

namespace Scheduler

variable {H K : Type} {n : Nat} [TimerHardware H]

/-! ## Runs -/

/-- The scheduler has just been made, by `new` or by `withDefaults`. -/
def Fresh (s : Scheduler H K n) : Prop :=
  (∃ hw sink config, new hw sink config = .ok s) ∨ ∃ hw sink, withDefaults hw sink = s

/-- A scheduler that is `Fresh` has a valid configuration, and has armed its channels for the first
time, by `begin`. -/
theorem Fresh.eq_begin {s : Scheduler H K n} (h : s.Fresh) :
    ∃ hw sink config, config.validate = .ok () ∧ s = (ofHardware hw sink config).begin := by
  rcases h with ⟨hw, sink, config, hnew⟩ | ⟨hw, sink, rfl⟩
  · obtain ⟨hvalid, -, hbegin⟩ := new_eq_ok hnew
    exact ⟨hw, sink, config, hvalid, hbegin⟩
  · exact ⟨hw, sink, .standard, Config.validate_standard, rfl⟩

/-- A scheduler that is `Fresh` has nothing pending. -/
theorem Fresh.pool {s : Scheduler H K n} (h : s.Fresh) : Pool.empty.Same s.pool := by
  obtain ⟨hw, sink, config, -, rfl⟩ := h.eq_begin
  unfold begin
  rw [masked_pool]
  dsimp only
  rw [rearm_pool]
  exact Pool.same_recompute _

/-- A scheduler that is `Fresh` has counted nothing. -/
theorem Fresh.stats {s : Scheduler H K n} (h : s.Fresh) : s.stats = {} := by
  obtain ⟨hw, sink, config, -, rfl⟩ := h.eq_begin
  unfold begin
  rw [masked_stats]
  exact rearm_stats _

variable [EventSink K]

/-- What may come of the scheduler `start`, by any operations and any changes of the hardware, with
what has happened to its registrations since. -/
inductive Run (start : Scheduler H K n) : List Happening → Scheduler H K n → Prop
  /-- Nothing has been done yet. -/
  | start : Run start [] start
  /-- The hardware changes by itself; above all, its counter moves. -/
  | move {log : List Happening} {s : Scheduler H K n} (hw : H) (hrun : Run start log s) :
    Run start log { s with hw := hw }
  /-- An operation is carried out. -/
  | exec {log : List Happening} {s : Scheduler H K n} (c : Command) (hrun : Run start log s) :
    Run start (log ++ s.happenings c) (s.exec c).2

namespace Run

variable {start s : Scheduler H K n} {log : List Happening}

/-- The sink of a run was told the `notice` of every firing of the log, in order. -/
theorem sink (hrun : Run start log s) :
    s.sink = ((firings log).map (·.event.notice)).foldl EventSink.deliver start.sink := by
  induction hrun with
  | start => rfl
  | move hw _ ih => exact ih
  | @exec log s c _ ih =>
    rw [(s.exec_accounts c).sink, ih, ← List.foldl_append, ← List.map_append]
    unfold firings
    rw [List.filterMap_append]

/-- The statistics of a run from a `Fresh` scheduler count all that its log fires and skips,
saturating. -/
theorem stats (hfresh : start.Fresh) (hrun : Run start log s) :
    s.stats.Fits ∧ s.stats.eventsFired = sat64 (log.map (·.fires)).sum ∧
      s.stats.collapsedOccurrences = sat64 (log.map (·.skips)).sum := by
  -- Counts that are capped one after another are as good as capped once at the end.
  induction hrun with
  | start =>
    rw [hfresh.stats]
    exact ⟨⟨Nat.zero_le _, Nat.zero_le _⟩, rfl, rfl⟩
  | move hw _ ih => exact ih
  | @exec log s c _ ih =>
    obtain ⟨hfits, hfired, hskipped⟩ := ih
    have haccounts := s.exec_accounts c
    have hfired' := haccounts.eventsFired hfits
    have hskipped' := haccounts.collapsedOccurrences hfits
    rw [hfired, sat64_sat64_add, ← List.sum_append, ← List.map_append] at hfired'
    rw [hskipped, sat64_sat64_add, ← List.sum_append, ← List.map_append] at hskipped'
    exact ⟨⟨hfired' ▸ sat64_le _, hskipped' ▸ sat64_le _⟩, hfired', hskipped'⟩

/-- What holds of a `Fresh` scheduler, and is preserved by time and by whatever `Happens`, holds
throughout a run short of the end of time. -/
theorem induct (Inv : Nat → List Happening → Pool n → Prop) (hfresh : start.Fresh)
    (hstart : ∀ now, Inv now [] Pool.empty)
    (hlater : ∀ {now later log p}, now ≤ later → Inv now log p → Inv later log p)
    (hsame : ∀ {now log} {p p' : Pool n}, p.Same p' → Inv now log p → Inv now log p')
    (hstep : ∀ {now log x} {p p' : Pool n}, now < max64 → p.Numbered → Pool.Happens now x p p' →
      Inv now log p → Inv now (log ++ [x]) p')
    (hrun : Run start log s) (hclock : s.clock.timeUs < max64) :
    s.pool.Numbered ∧ Inv s.clock.timeUs log s.pool := by
  induction hrun with
  | start => exact ⟨hfresh.pool.numbered Pool.numbered_empty, hsame hfresh.pool (hstart _)⟩
  | move hw _ ih => exact ih hclock
  | @exec log s c _ ih =>
    -- All that an operation does happens at one time, between the times before and after it.
    obtain ⟨now, hfrom, hto, hhistory⟩ := (s.exec_accounts c).history
    have hnow : now < max64 := Nat.lt_of_le_of_lt hto hclock
    obtain ⟨hnumbered, hinv⟩ := ih (Nat.lt_of_le_of_lt hfrom hnow)
    have hafter := (hhistory hnow hnumbered.distinct).induct
      (fun {log p p'} h hp => (⟨h.numbered hp.1, hsame h hp.2⟩ : p'.Numbered ∧ Inv now log p'))
      (fun {log x p p'} h hp =>
        (⟨h.numbered hp.1, hstep hnow hp.1 h hp.2⟩ : p'.Numbered ∧ Inv now (log ++ [x]) p'))
      ⟨hnumbered, hlater hfrom hinv⟩
    exact ⟨hafter.1, hlater hto hafter.2⟩

end Run

/-- Carries out each `Command` on a simulated timer after the counter has moved on by the number
before it. Gives the log and the scheduler after the last. -/
def play (start : Scheduler SimTimer K n) (steps : List (Nat × Command)) :
    List Happening × Scheduler SimTimer K n :=
  steps.foldl (fun (log, s) (ticks, c) =>
    let s := { s with hw := s.hw.advance ticks }
    (log ++ s.happenings c, (s.exec c).2)) ([], start)

/-- What `play` carries out is a `Run`. -/
theorem run_play (start : Scheduler SimTimer K n) (steps : List (Nat × Command)) :
    Run start (start.play steps).1 (start.play steps).2 := by
  -- What has been played so far is a run, whatever comes next.
  suffices h : ∀ x : List Happening × Scheduler SimTimer K n, Run start x.1 x.2 →
      Run start (steps.foldl _ x).1 (steps.foldl _ x).2 from h ([], start) .start
  induction steps with
  | nil => exact fun x hx => hx
  | cons step rest ih => exact fun x hx => ih _ (.exec step.2 (.move _ hx))

/-! ## The order of firings -/

/-- Everything that `log` has fired did so in the order of the keys, and comes before everything
that is pending. -/
structure InOrder (now : Nat) (log : List Happening) (p : Pool n) : Prop where
  /-- Firings come in the order of their keys. -/
  sorted : (firings log).Pairwise fun f g => f.event.key < g.event.key
  /-- What is pending comes after what has fired. -/
  key_lt : ∀ f ∈ firings log, ∀ ⦃slot : Nat⦄ ⦃e : Event⦄, p.get? slot = some e →
    f.event.key < e.key
  /-- What has fired was due. -/
  timestamp_le : ∀ f ∈ firings log, f.event.timestamp ≤ now
  /-- What has fired has a number. -/
  seq_lt : ∀ f ∈ firings log, f.event.seq < p.nextSeq

namespace InOrder

variable {now : Nat} {log : List Happening} {x : Happening} {p p' : Pool n}

/-- The empty log and the empty pool are `InOrder`. -/
theorem empty (now : Nat) : InOrder now [] (Pool.empty : Pool n) :=
  ⟨.nil, fun _ hf => absurd hf List.not_mem_nil, fun _ hf => absurd hf List.not_mem_nil,
    fun _ hf => absurd hf List.not_mem_nil⟩

/-- A log and a pool stay `InOrder` as time goes on. -/
theorem later {later : Nat} (hle : now ≤ later) (h : InOrder now log p) : InOrder later log p :=
  ⟨h.sorted, h.key_lt, fun f hf => Nat.le_trans (h.timestamp_le f hf) hle, h.seq_lt⟩

/-- A log that is `InOrder` with a pool is so with any pool that is the `Same`. -/
theorem same (hsame : p.Same p') (h : InOrder now log p) : InOrder now log p' :=
  ⟨h.sorted, fun f hf i _ hi => h.key_lt f hf ((hsame.get? i).symm.trans hi), h.timestamp_le,
    hsame.nextSeq ▸ h.seq_lt⟩

/-- A log and a pool stay `InOrder` when nothing fires and the slot comes to hold only events later
than all firings. -/
theorem quiet (h : InOrder now log p) {slot : Nat} {content : Option Event}
    (hfiring : x.firing? = none) (hput : Pool.Puts slot content p p')
    (hseq : p.nextSeq ≤ p'.nextSeq)
    (hcontent : ∀ f ∈ firings log, ∀ e ∈ content, f.event.key < e.key) :
    InOrder now (log ++ [x]) p' := by
  have hlog : firings (log ++ [x]) = firings log := by
    rw [firings_append, hfiring, Option.toList_none, List.append_nil]
  refine ⟨hlog ▸ h.sorted, ?_, hlog ▸ h.timestamp_le, ?_⟩
  · intro f hf i e hi
    rw [hlog] at hf
    rw [hput] at hi
    split at hi
    · exact hcontent f hf e hi
    · exact h.key_lt f hf hi
  · intro f hf
    rw [hlog] at hf
    exact Nat.lt_of_lt_of_le (h.seq_lt f hf) hseq

/-- A log and a pool stay `InOrder` when a due event fires that comes before all that are then
pending. -/
theorem fire (h : InOrder now log p) (hnumbered : p.Numbered) {f : Firing} {slot : Nat}
    (hget : p.get? slot = some f.event) (hdue : f.event.timestamp ≤ now)
    (hfirst : ∀ i e, p'.get? i = some e → f.event.key < e.key) (hseq : p'.nextSeq = p.nextSeq) :
    InOrder now (log ++ [.fired f]) p' := by
  have hlog : firings (log ++ [.fired f]) = firings log ++ [f] := firings_append log (.fired f)
  have hbefore : ∀ g ∈ firings log, g.event.key < f.event.key := fun g hg => h.key_lt g hg hget
  constructor
  case sorted =>
    rw [hlog, List.pairwise_append]
    refine ⟨h.sorted, List.pairwise_singleton _ _, fun g hg f' hf' => ?_⟩
    rw [List.mem_singleton.mp hf']
    exact hbefore g hg
  case key_lt =>
    rw [hlog, List.forall_mem_append]
    refine ⟨fun g hg i e hi => lt_trans (hbefore g hg) (hfirst i e hi), fun g hg i e hi => ?_⟩
    rw [List.mem_singleton.mp hg]
    exact hfirst i e hi
  case timestamp_le =>
    rw [hlog, List.forall_mem_append]
    exact ⟨h.timestamp_le, fun g hg => List.mem_singleton.mp hg ▸ hdue⟩
  case seq_lt =>
    rw [hlog, hseq, List.forall_mem_append]
    exact ⟨h.seq_lt, fun g hg => List.mem_singleton.mp hg ▸ hnumbered.seq_lt hget⟩

/-- A log and a pool stay `InOrder` whatever `Happens`, short of the end of time. -/
theorem step (hnow : now < max64) (hnumbered : p.Numbered) (hx : Pool.Happens now x p p')
    (h : InOrder now log p) : InOrder now (log ++ [x]) p' := by
  cases hx with
  | @accepted a slot _ _ hat _ hnumber _ _ hput hseq =>
    refine h.quiet rfl hput (by omega) fun f hf e he => ?_
    cases he
    -- A new event may be due at once, at the very time of the last firing. Its number is larger.
    have hdue := h.timestamp_le f hf
    have hlt := h.seq_lt f hf
    have hstart : now ≤ a.event.timestamp := by
      show now ≤ sat64 (a.now + a.request.period.toUs)
      exact Nat.le_min.mpr ⟨by omega, by omega⟩
    rcases Nat.lt_or_eq_of_le (Nat.le_trans hdue hstart) with hearlier | hequal
    · exact Event.key_lt_key.mpr (.inl hearlier)
    · exact Event.key_lt_key.mpr (.inr ⟨hequal, Nat.lt_of_lt_of_eq hlt hnumber.symm⟩)
  | fired hget hdue _ hfirst _ hseq => exact h.fire hnumbered hget hdue hfirst hseq
  | aligned hget _ hskip hput hseq =>
    -- An event that is lined up moves on, away from what has fired.
    refine h.quiet rfl hput (Nat.le_of_eq hseq.symm) fun f hf e' he' => ?_
    cases he'
    exact lt_of_lt_of_le (h.key_lt f hf hget) (Event.key_le_key_shift hnow hskip)
  | cancelled _ hput hseq =>
    refine h.quiet rfl hput (Nat.le_of_eq hseq.symm) fun f hf e' he' => ?_
    cases he'

end InOrder

/-- The `firings` of a run short of the end of time, which are what the sink is told of, are in
strict order of timestamp and then number. -/
theorem Run.fired_in_order {start s : Scheduler H K n} {log : List Happening}
    (hfresh : start.Fresh) (hrun : Run start log s) (hclock : s.clock.timeUs < max64) :
    (firings log).Pairwise (fun f g => f.event.key < g.event.key) ∧
      s.sink = ((firings log).map (·.event.notice)).foldl EventSink.deliver start.sink := by
  have hinv := hrun.induct InOrder hfresh InOrder.empty InOrder.later InOrder.same InOrder.step
    hclock
  exact ⟨hinv.2.sorted, hrun.sink⟩

/-- A scheduler of three slots on `SimTimer.standard`, which counts microseconds. -/
def bench : Scheduler SimTimer Recorder 3 := withDefaults .standard .unbounded

/-- Steps for `bench`: an event that repeats every 50 microseconds and one that is due after 100. An
interrupt comes 20 microseconds late, then time tracking is handed over for 200 more. On waking
another event is asked for that is due at once, and an interrupt comes. -/
def lateNight : List (Nat × Command) :=
  [(0, .schedule ⟨.us 50, 8, 2, true, .empty⟩), (0, .schedule ⟨.us 100, 7, 1, false, .empty⟩),
    (120, .interrupt .primary), (0, .suspend), (0, .resume 120 200),
    (0, .schedule ⟨.us 0, 9, 3, false, .empty⟩), (0, .interrupt .fallback)]

/-- In `lateNight` the repeating event fires first each time, the second time at the last of the
points on its grid that it slept through. -/
theorem fired_in_order_lateNight :
    bench.Fresh ∧ Run bench (bench.play lateNight).1 (bench.play lateNight).2 ∧
      (bench.play lateNight).2.clock.timeUs < max64 ∧
      (firings (bench.play lateNight).1).Pairwise (fun f g => f.event.key < g.event.key) ∧
      (bench.play lateNight).2.sink = ((firings (bench.play lateNight).1).map
        (·.event.notice)).foldl EventSink.deliver bench.sink ∧
      (firings (bench.play lateNight).1).map (fun f => (f.event.timestamp, f.event.seq)) =
        [(50, 0), (100, 1), (300, 0), (320, 2)] := by
  have hfresh : bench.Fresh := .inr ⟨_, _, rfl⟩
  have hrun := bench.run_play lateNight
  have hclock : (bench.play lateNight).2.clock.timeUs < max64 := by decide +kernel
  obtain ⟨hsorted, hsink⟩ := hrun.fired_in_order hfresh hclock
  exact ⟨hfresh, hrun, hclock, hsorted, hsink, by decide +kernel⟩

end Scheduler

end SoftTimer
