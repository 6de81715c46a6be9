import SoftTimer.Proofs.Scheduler.Sleep

/-!
# Requests, granted and refused

A request is refused because it makes no sense, or else because no slot is free, and granted
otherwise. One that is refused leaves the scheduler as it was: what is pending and remembered, what
was delivered, and the channels (`Refused`). It is counted, and if the request makes sense the clock
has been brought up to date. One that is granted puts its event into the lowest free slot and
changes no other (`Granted`).

The main statement is `Run.requests`. It also says how many requests are granted from then on: as
many as there are free slots, and no more until another slot comes free (`Filling`).
-/

namespace SoftTimer

/-- The hardware leaves `part` of it alone when interrupts are masked and unmasked and when the
counter is read. -/
structure IrqMask.Keeps {H X : Type} [TimerHardware H] (part : H → X) : Prop where
  /-- Enabling interrupts leaves it alone. -/
  enable : ∀ hw : H, part (TimerHardware.enableInterrupts hw) = part hw
  /-- Masking them leaves it alone. -/
  disable : ∀ hw : H, part (TimerHardware.disableInterrupts hw) = part hw
  /-- Reading the counter leaves it alone. -/
  read : ∀ hw : H, part (TimerHardware.readCounter hw).2 = part hw

namespace IrqMask.Keeps

variable {H X : Type} [TimerHardware H] {part : H → X}

/-- `enter` leaves a part alone that the hardware `Keeps`. -/
theorem enter (h : Keeps part) (hw : H) : part (IrqMask.enter hw).2 = part hw := by
  unfold IrqMask.enter
  split
  · exact h.disable hw
  · rfl

/-- `leave` leaves a part alone that the hardware `Keeps`. -/
theorem leave (h : Keeps part) (restore : Bool) (hw : H) :
    part (IrqMask.leave restore hw) = part hw := by
  unfold IrqMask.leave
  split
  · exact h.enable hw
  · rfl

end IrqMask.Keeps

/-- A `SimTimer` keeps its channels and the count of how often they were armed. -/
theorem SimTimer.keeps_channels :
    IrqMask.Keeps fun t : SimTimer => (t.channels, t.armCount) :=
  ⟨fun _ => rfl, fun _ => rfl, fun _ => rfl⟩

namespace Pool

variable {n : Nat} {p p' : Pool n}

/-- An event put into a slot takes it from those that are `free`. -/
theorem Puts.free {slot : Nat} {e : Event} (hput : Puts slot (some e) p p') :
    p'.free = p.free.erase slot := by
  ext i
  rw [Finset.mem_erase, mem_free, mem_free, hput]
  by_cases hi : i = slot
  · simp [hi]
  · simp [hi]

end Pool

/-- A `Request` makes sense unless it repeats with no time in between. -/
def Request.Sound (r : Request) : Prop := ¬ (r.repeating = true ∧ r.period.toUs = 0)

instance (r : Request) : Decidable r.Sound :=
  inferInstanceAs (Decidable (¬ (r.repeating = true ∧ r.period.toUs = 0)))

namespace Scheduler

variable {H K : Type} {n : Nat} [TimerHardware H] {s s' : Scheduler H K n}

/-! ## One request -/

/-- Between `s` and `s'` a request was refused, which leaves everything as it was but the clock, the
count of refusals and what reading the counter does to the timer. -/
structure Refused (s s' : Scheduler H K n) : Prop where
  /-- Every slot holds the same, the same one is remembered, and no number was given out. -/
  pool : s'.pool = s.pool
  /-- Nothing was delivered. -/
  sink : s'.sink = s.sink
  /-- The configuration is the same. -/
  config : s'.config = s.config
  /-- The fallback distance is the same. -/
  fallbackTicks : s'.fallbackTicks = s.fallbackTicks
  /-- Whoever tracked the time still does. -/
  suspended : s'.suspended = s.suspended
  /-- The refusal is counted, up to the largest 32-bit value, and nothing else is. -/
  stats : s'.stats =
    { s.stats with rejectedRequests := min (s.stats.rejectedRequests + 1) max32 }
  /-- No channel was armed. -/
  armed : ∀ {X : Type} {part : H → X}, IrqMask.Keeps part → part s'.hw = part s.hw

/-- A request that was granted has put its event into the slot `slot`. -/
structure Granted (r : Request) (slot : Nat) (s s' : Scheduler H K n) : Prop where
  /-- The slot was free. -/
  free : slot < n ∧ s.pool.get? slot = none
  /-- No slot below it was. -/
  lowest : ∀ i < slot, s.pool.get? i ≠ none
  /-- The slot holds the event asked for, due its period after the time found, or at the end of
  time. It has the next number. -/
  event : s'.pool.get? slot = some
    { timestamp := min (s.timeUs.1 + r.period.toUs) max64
      period := if r.repeating then r.period.toUs else 0
      id := r.id
      value := r.value
      flags := r.flags
      seq := s.pool.nextSeq }
  /-- The other slots hold what they held. -/
  others : ∀ i, i ≠ slot → s'.pool.get? i = s.pool.get? i
  /-- The number was given out. -/
  nextSeq : s'.pool.nextSeq = s.pool.nextSeq + 1

/-- The slot of a request that was `Granted` is the only one that is not `free` any more. -/
theorem Granted.free_eq {r : Request} {slot : Nat} (h : Granted r slot s s') :
    s'.pool.free = s.pool.free.erase slot := by
  have hput : Pool.Puts slot _ s.pool s'.pool := fun i => by
    split
    · next hi => exact hi ▸ h.event
    · next hi => exact h.others i hi
  exact hput.free

/-- `timeUs` reads the counter once, in a masked section, and brings the clock up to date, unless
the clock stands still. -/
theorem timeUs_snd (s : Scheduler H K n) :
    s.timeUs.2 = if s.suspended then { s with hw := IrqMask.blank s.hw } else
      { s with
        hw := (IrqMask.within TimerHardware.readCounter s.hw).2
        clock := s.clock.sync (TimerHardware.readCounter (IrqMask.enter s.hw).2).1 } := by
  have hentered : s.entered.suspended = s.suspended := rfl
  unfold timeUs
  rw [masked_eq]
  unfold sync
  rw [hentered]
  split <;> rfl

/-- `timeUs` leaves a part of the hardware alone that it `Keeps`. -/
theorem timeUs_armed {X : Type} {part : H → X} (h : IrqMask.Keeps part) (s : Scheduler H K n) :
    part s.timeUs.2.hw = part s.hw := by
  rw [timeUs_snd]
  split
  · exact (h.leave _ _).trans (h.enter s.hw)
  · exact (h.leave _ _).trans ((h.read _).trans (h.enter s.hw))

/-- `schedule` counts a request that makes no sense, and one that finds no slot free once the time
has been read. Any other is granted. -/
theorem schedule_cases (r : Request) (s : Scheduler H K n) :
    (¬ r.Sound ∧ s.schedule r = (.error .invalidParameter,
      { s with hw := IrqMask.blank s.hw, stats := s.stats.recordRejected })) ∨
    (r.Sound ∧ s.pool.free = ∅ ∧ s.schedule r = (.error .noResources,
      { s.timeUs.2 with stats := s.stats.recordRejected })) ∨
    (r.Sound ∧ s.pool.free ≠ ∅ ∧ (s.schedule r).1 = .ok () ∧
      ∃ slot, Granted r slot s (s.schedule r).2) := by
  have hsound : (r.repeating = true → 0 < r.period.toUs) → r.Sound := fun hgood hbad =>
    Nat.ne_of_gt (hgood hbad.1) hbad.2
  unfold schedule
  rw [masked_eq]
  rcases register_cases r s.entered with ⟨hrep, hzero, hact⟩ | ⟨hgood, reason, hinsert, hact⟩ |
    ⟨hgood, slot, p, hinsert, hact⟩
  · refine .inl ⟨fun h => h ⟨hrep, hzero⟩, ?_⟩
    rw [hact]
    rfl
  · obtain ⟨hfull, rfl⟩ := Pool.insert_eq_error hinsert
    have hstats : s.entered.sync.stats = s.stats := s.entered.sync_same.stats
    refine .inr (.inl ⟨hsound hgood, hfull, ?_⟩)
    rw [hact]
    unfold reject
    rw [hstats]
    rfl
  · obtain ⟨hslot, hfree, hseq, hput⟩ := Pool.insert_eq_ok hinsert
    have hsome : s.pool.free ≠ ∅ := Finset.ne_empty_of_mem (Pool.mem_free.mpr ⟨hslot, hfree⟩)
    refine .inr (.inr ⟨hsound hgood, hsome, ?_⟩)
    rw [hact]
    refine ⟨rfl, slot, ?_⟩
    have hpool : ({ s.entered.sync with pool := p }.rearm : Scheduler H K n).pool = p.recompute :=
      rearm_pool _
    constructor
    case free => exact ⟨hslot, hfree⟩
    case lowest => exact fun i => Pool.lowest_of_freeSlot? (Pool.freeSlot?_of_insert hinsert)
    case event => exact (congrArg (·.get? slot) hpool).trans ((hput slot).trans (if_pos rfl))
    case others =>
      intro i hi
      exact (congrArg (·.get? i) hpool).trans ((hput i).trans (if_neg hi))
    case nextSeq => exact (congrArg (·.nextSeq) hpool).trans hseq

section Reply

variable {r : Request}

/-- The answer of `schedule` depends on the request and on whether a slot is `free`, not on the
time. -/
theorem schedule_reply (r : Request) (s : Scheduler H K n) :
    (s.schedule r).1 = if r.Sound then if s.pool.free = ∅ then .error .noResources else .ok ()
      else .error .invalidParameter := by
  rcases schedule_cases r s with ⟨hr, hact⟩ | ⟨hr, hfull, hact⟩ | ⟨hr, hsome, hok, -⟩
  · rw [if_neg hr, hact]
  · rw [if_pos hr, if_pos hfull, hact]
  · rw [if_pos hr, if_neg hsome, hok]

theorem invalid_iff_not_sound :
    (s.schedule r).1 = .error .invalidParameter ↔ ¬ r.Sound := by
  rw [schedule_reply]
  split_ifs with hr hfull <;> simp [hr]

theorem noResources_iff :
    (s.schedule r).1 = .error .noResources ↔ r.Sound ∧ s.pool.free = ∅ := by
  rw [schedule_reply]
  split_ifs with hr hfull
  · simp [hr, hfull]
  · simp [hfull]
  · simp [hr]

theorem ok_iff_free : (s.schedule r).1 = .ok () ↔ r.Sound ∧ s.pool.free ≠ ∅ := by
  rw [schedule_reply]
  split_ifs with hr hfull
  · simp [hfull]
  · simp [hr, hfull]
  · simp [hr]

/-- `schedule` counts a request that makes no sense, and does no more. -/
theorem schedule_of_invalid (h : (s.schedule r).1 = .error .invalidParameter) :
    (s.schedule r).2 = { s with hw := IrqMask.blank s.hw, stats := s.stats.recordRejected } := by
  have hbad := invalid_iff_not_sound.mp h
  rcases schedule_cases r s with ⟨-, hact⟩ | ⟨hr, -⟩ | ⟨hr, -⟩
  · rw [hact]
  · exact absurd hr hbad
  · exact absurd hr hbad

/-- `schedule` counts a request that finds no slot free, once the time has been read. -/
theorem schedule_of_noResources (h : (s.schedule r).1 = .error .noResources) :
    (s.schedule r).2 = { s.timeUs.2 with stats := s.stats.recordRejected } := by
  obtain ⟨hr, hfull⟩ := noResources_iff.mp h
  rcases schedule_cases r s with ⟨hbad, -⟩ | ⟨-, -, hact⟩ | ⟨-, hsome, -⟩
  · exact absurd hr hbad
  · rw [hact]
  · exact absurd hfull hsome

/-- A request to which `schedule` answers `ok` is `Granted` some slot. -/
theorem granted_of_isOk (h : (s.schedule r).1.isOk = true) :
    ∃ slot, Granted r slot s (s.schedule r).2 := by
  rcases schedule_cases r s with ⟨-, hact⟩ | ⟨-, -, hact⟩ | ⟨-, -, -, hgranted⟩
  · rw [hact] at h
    cases h
  · rw [hact] at h
    cases h
  · exact hgranted

/-- A request to which `schedule` answers with an error is `Refused`. -/
theorem schedule_refused {reason : TimerError} (h : (s.schedule r).1 = .error reason) :
    Refused s (s.schedule r).2 := by
  rcases schedule_cases r s with ⟨-, hact⟩ | ⟨-, -, hact⟩ | ⟨-, -, hok, -⟩
  · rw [hact]
    exact ⟨rfl, rfl, rfl, rfl, rfl, rfl, fun hkeeps => (hkeeps.leave _ _).trans (hkeeps.enter _)⟩
  · have hsame : SameBut s s.timeUs.2 := arms_sameBut.timeUs s
    rw [hact]
    exact ⟨hsame.pool, hsame.sink, hsame.config, hsame.fallbackTicks, hsame.suspended, rfl,
      fun hkeeps => timeUs_armed hkeeps s⟩
  · rw [hok] at h
    cases h

end Reply

/-- What becomes of a request, after the happenings of `log`. -/
structure Answered (log : List Happening) (r : Request) (s : Scheduler H K n) : Prop where
  /-- The request is refused as making no sense exactly when it repeats with no time in between. -/
  invalid_iff : (s.schedule r).1 = .error .invalidParameter ↔
    r.repeating = true ∧ r.period.toUs = 0
  /-- A request that makes sense is refused for want of a slot exactly when every slot holds an
  event. -/
  full_iff : (s.schedule r).1 = .error .noResources ↔
    r.Sound ∧ ∀ slot < n, s.pool.get? slot ≠ none
  /-- A request that makes sense is granted exactly when some slot holds none. -/
  ok_iff : (s.schedule r).1 = .ok () ↔ r.Sound ∧ ∃ slot < n, s.pool.get? slot = none
  /-- A refusal leaves the scheduler as it was. -/
  refused : ∀ reason, (s.schedule r).1 = .error reason → Refused s (s.schedule r).2
  /-- If the request makes no sense the clock is not touched either, nor is the counter read. -/
  invalid : (s.schedule r).1 = .error .invalidParameter →
    (s.schedule r).2.clock = s.clock ∧ (s.schedule r).2.hw = IrqMask.blank s.hw
  /-- If no slot is free the counter has been read once and the clock brought up to date, unless it
  stands still. -/
  full : (s.schedule r).1 = .error .noResources →
    ((s.schedule r).2.clock, (s.schedule r).2.hw) =
      if s.suspended then (s.clock, IrqMask.blank s.hw) else
        (s.clock.sync (TimerHardware.readCounter (IrqMask.enter s.hw).2).1,
          (IrqMask.within TimerHardware.readCounter s.hw).2)
  /-- If the request is granted one free slot is taken. -/
  granted : (s.schedule r).1 = .ok () → ∃ slot, Granted r slot s (s.schedule r).2
  /-- The number that a granted request is given is beyond all that were given out before. -/
  newest : ∀ a, .accepted a ∈ log → a.seq < s.pool.nextSeq
  /-- The number that a granted request is given is beyond those of all that is pending. -/
  pending : ∀ e ∈ s.pool.events, e.seq < s.pool.nextSeq

/-- A request is `Answered` in one of three ways, whatever state the scheduler is in. -/
theorem answered {log : List Happening} (r : Request) {s : Scheduler H K n}
    (hnumbered : s.pool.Numbered) (hnewest : ∀ a, .accepted a ∈ log → a.seq < s.pool.nextSeq) :
    Answered log r s := by
  have hfull : s.pool.free = ∅ ↔ ∀ slot < n, s.pool.get? slot ≠ none := by
    simp only [Finset.eq_empty_iff_forall_notMem, Pool.mem_free, not_and]
  have hsome : s.pool.free ≠ ∅ ↔ ∃ slot < n, s.pool.get? slot = none := by
    simp only [← Finset.nonempty_iff_ne_empty, Finset.Nonempty, Pool.mem_free]
  constructor
  case invalid_iff => exact invalid_iff_not_sound.trans not_not
  case full_iff => exact noResources_iff.trans (and_congr_right' hfull)
  case ok_iff => exact ok_iff_free.trans (and_congr_right' hsome)
  case refused => exact fun reason => schedule_refused
  case invalid =>
    intro hinvalid
    rw [schedule_of_invalid hinvalid]
    exact ⟨rfl, rfl⟩
  case full =>
    intro hnone
    rw [schedule_of_noResources hnone]
    show (s.timeUs.2.clock, s.timeUs.2.hw) = _
    rw [timeUs_snd]
    split <;> rfl
  case granted =>
    intro hok
    exact granted_of_isOk (by rw [hok]; rfl)
  case newest => exact hnewest
  case pending =>
    intro e he
    obtain ⟨slot, hget⟩ := Pool.mem_events.mp he
    exact hnumbered.seq_lt hget

/-! ## Requests in turn -/

/-- The outcomes of `requests` requests if `free` slots are free and none comes free meanwhile: the
first ones are granted. -/
def firstCome (free requests : Nat) : List (Except TimerError Unit) :=
  List.replicate (min requests free) (.ok ()) ++
    List.replicate (requests - free) (.error .noResources)

theorem firstCome_zero (free : Nat) : firstCome free 0 = [] := by
  unfold firstCome
  rw [Nat.zero_min, Nat.zero_sub]
  rfl

/-- One request more is granted by `firstCome` if there are more slots than requests before it. -/
theorem firstCome_succ (free requests : Nat) :
    firstCome free (requests + 1) = firstCome free requests ++
      [if requests < free then .ok () else .error .noResources] := by
  unfold firstCome
  split
  · next hless =>
    have hnone : requests - free = 0 := by omega
    have hnone' : requests + 1 - free = 0 := by omega
    rw [min_eq_left hless, min_eq_left hless.le, hnone, hnone', List.replicate_zero,
      List.append_nil, List.append_nil, List.replicate_succ']
  · next hmany =>
    have hfree : free ≤ requests := Nat.le_of_not_lt hmany
    rw [min_eq_right (hfree.trans (Nat.le_succ _)), min_eq_right hfree, Nat.succ_sub hfree,
      List.replicate_succ', List.append_assoc]

variable [EventSink K]

/-- What may come of the scheduler `start` while no slot comes free, with the outcomes of the
requests that make sense. -/
inductive Filling (start : Scheduler H K n) :
    List (Except TimerError Unit) → Scheduler H K n → Prop
  /-- Nothing has been done yet. -/
  | start : Filling start [] start
  /-- The hardware changes by itself. -/
  | move {outcomes : List (Except TimerError Unit)} {s : Scheduler H K n} (hw : H)
    (h : Filling start outcomes s) : Filling start outcomes { s with hw := hw }
  /-- A request is made that makes sense. -/
  | request {outcomes : List (Except TimerError Unit)} {s : Scheduler H K n} (r : Request)
    (hsound : r.Sound) (h : Filling start outcomes s) :
    Filling start (outcomes ++ [(s.schedule r).1]) (s.schedule r).2
  /-- Another operation is carried out, and no slot that held an event is free after it. -/
  | other {outcomes : List (Except TimerError Unit)} {s : Scheduler H K n} (c : Command)
    (hother : ∀ r, c = .schedule r → ¬ r.Sound)
    (hkept : ∀ slot, s.pool.get? slot ≠ none → (s.exec c).2.pool.get? slot ≠ none)
    (h : Filling start outcomes s) : Filling start outcomes (s.exec c).2

/-- A `Command` that frees no slot, and is not a request that makes sense, takes none. -/
theorem exec_free {c : Command} (hother : ∀ r, c = .schedule r → ¬ r.Sound)
    (hkept : ∀ slot, s.pool.get? slot ≠ none → (s.exec c).2.pool.get? slot ≠ none) :
    (s.exec c).2.pool.free = s.pool.free := by
  rcases s.exec_pool c with hages | ⟨r, hc, haccepted⟩
  · refine Pool.free_congr fun slot => ⟨fun hnone => ?_, fun hnone => ?_⟩
    · by_contra hsome
      exact hkept slot hsome hnone
    · by_contra hsome
      obtain ⟨e', he'⟩ := Option.ne_none_iff_exists'.mp hsome
      obtain ⟨e, he, -⟩ := hages.get? he'
      rw [hnone] at he
      cases he
  · cases haccepted with
    | accepted _ hgood =>
      exact absurd (fun hbad => Nat.ne_of_gt (hgood hbad.1) hbad.2) (hother r hc)

/-- While slots are `Filling`, each request takes a slot until none is free, and the rest are
refused. -/
theorem Filling.outcomes_eq {start : Scheduler H K n} {outcomes : List (Except TimerError Unit)}
    (h : Filling start outcomes s) :
    outcomes = firstCome start.pool.free.card outcomes.length ∧
      s.pool.free.card = start.pool.free.card - outcomes.length := by
  induction h with
  | start => exact ⟨(firstCome_zero _).symm, rfl⟩
  | move hw _ ih => exact ih
  | @other _ s c hother hkept _ ih =>
    rw [exec_free hother hkept]
    exact ih
  | @request outcomes s r hsound _ ih =>
    obtain ⟨houtcomes, hcard⟩ := ih
    rw [List.length_append, List.length_singleton, firstCome_succ, ← houtcomes]
    rcases schedule_cases r s with ⟨hbad, -⟩ | ⟨-, hfull, hact⟩ | ⟨-, hsome, hok, slot, hgranted⟩
    · exact absurd hsound hbad
    · have hzero : s.pool.free.card = 0 := Finset.card_eq_zero.mpr hfull
      have hpool : s.timeUs.2.pool = s.pool := (arms_sameBut.timeUs s).pool
      rw [hact, if_neg (by omega)]
      refine ⟨rfl, ?_⟩
      show s.timeUs.2.pool.free.card = _
      rw [hpool]
      omega
    · have hpos : 0 < s.pool.free.card :=
        Finset.card_pos.mpr (Finset.nonempty_iff_ne_empty.mpr hsome)
      rw [hok, if_pos (by omega), hgranted.free_eq,
        Finset.card_erase_of_mem (Pool.mem_free.mpr hgranted.free)]
      exact ⟨rfl, by omega⟩

/-- What a `Command` accepts is a request that is granted, and is given the next number. -/
theorem nextSeq_of_accepted {c : Command} {a : Acceptance} (h : .accepted a ∈ s.happenings c) :
    (s.exec c).2.pool.nextSeq = a.seq + 1 := by
  cases c with
  | schedule r =>
    simp only [happenings] at h
    show (s.schedule r).2.pool.nextSeq = _
    split at h
    · next hok =>
      obtain rfl := Happening.accepted.inj (List.mem_singleton.mp h)
      obtain ⟨slot, hgranted⟩ := granted_of_isOk hok
      exact hgranted.nextSeq
    · cases h
  | timeMs | timeUs | rearm | wait | suspend => cases h
  | cancel | interrupt | compareMatch | resume => simp [happenings] at h

namespace Run

variable {start : Scheduler H K n} {log : List Happening}

/-- A run has given out only numbers below `nextSeq`. -/
theorem accepted_lt (hrun : Run start log s) :
    ∀ a, .accepted a ∈ log → a.seq < s.pool.nextSeq := by
  induction hrun with
  | start => exact fun a ha => absurd ha List.not_mem_nil
  | move hw _ ih => exact ih
  | @exec log s c _ ih =>
    intro a ha
    rcases List.mem_append.mp ha with hold | hnew
    · have hgrows : s.pool.nextSeq ≤ (s.exec c).2.pool.nextSeq := by
        rcases s.exec_pool c with hages | ⟨r, -, haccepted⟩
        · exact hages.nextSeq.ge
        · cases haccepted with
          | accepted _ _ _ _ _ _ hseq => exact hseq.symm ▸ Nat.le_succ _
      exact Nat.lt_of_lt_of_le (ih a hold) hgrows
    · rw [nextSeq_of_accepted hnew]
      exact Nat.lt_succ_self _

/-- After any run every request is `Answered` as it should be, and as many of the next requests that
make sense are granted as there are `free` slots. -/
theorem requests (hfresh : start.Fresh) (hrun : Run start log s) :
    (∀ r, Answered log r s) ∧ ∀ outcomes s', Filling s outcomes s' →
      outcomes = firstCome s.pool.free.card outcomes.length :=
  ⟨fun r => answered r (hrun.numbered hfresh) hrun.accepted_lt, fun _ _ h => h.outcomes_eq.1⟩

end Run

/-- Steps for `bench`: two of three slots are taken, and an event for the third would repeat with no
time in between. -/
def busy : List (Nat × Command) :=
  [(0, .schedule ⟨.us 100, 7, 1, false, .empty⟩), (40, .schedule ⟨.us 60, 8, 2, true, .empty⟩),
    (5, .schedule ⟨.ms 0, 6, 4, true, .empty⟩)]

/-- The scheduler `bench` after the steps `busy`, with two slots taken. -/
def engaged : Scheduler SimTimer Recorder 3 := (bench.play busy).2

/-- A `Request` for an event that is due at once. -/
def asap : Request := ⟨.us 0, 9, 3, false, .empty⟩

/-- On `engaged` one event more is taken, in the third slot and with the third number, and the next
one is not. No refusal arms a channel. -/
theorem requests_busy :
    bench.Fresh ∧ Run bench (bench.play busy).1 engaged ∧
      (∀ r, Answered (bench.play busy).1 r engaged) ∧
      (∀ outcomes s', Filling engaged outcomes s' →
        outcomes = firstCome engaged.pool.free.card outcomes.length) ∧
      (∀ r reason, (engaged.schedule r).1 = .error reason →
        ((engaged.schedule r).2.hw.channels, (engaged.schedule r).2.hw.armCount) =
          (engaged.hw.channels, engaged.hw.armCount)) ∧
      engaged.pool.free.card = 1 ∧ engaged.stats.rejectedRequests = 1 ∧
      (engaged.schedule asap).2.pool.get? 2 = some ⟨⟨45, 0, 9, 3, .empty⟩, 2⟩ ∧
      ((engaged.schedule asap).2.schedule asap).1 = .error .noResources := by
  have hfresh : bench.Fresh := .inr ⟨_, _, rfl⟩
  have hrun := bench.run_play busy
  obtain ⟨hanswered, hfilling⟩ := hrun.requests hfresh
  have harmed := fun r reason hreason =>
    ((hanswered r).refused reason hreason).armed SimTimer.keeps_channels
  exact ⟨hfresh, hrun, hanswered, hfilling, harmed, by decide +kernel, by decide +kernel,
    by decide +kernel, by decide +kernel⟩

end Scheduler

end SoftTimer
