import SoftTimer.Proofs.Scheduler.Requests

/-!
# Cancelled for good

A cancellation frees the slots of the events that were registered under an identifier and a value,
and no others. The channels are armed for the earliest event, so they are armed again exactly if
that event is among those cancelled (`Pool.FirstFor`); the scheduler decides this by comparing the
slot it remembers with the one it finds afterwards, and `earliest_cancel_ne` says that this comes
to the same.

What is cancelled does not come back. Whatever fires has been pending, perhaps in an earlier form,
so as long as nothing is registered under the identifier and the value again there is nothing that
could fire under them (`Pool.Lacks`). That is an invariant of runs, however late it gets
(`Run.lacks`). The main statement is `Run.cancels_for_good`.
-/

namespace SoftTimer

namespace Event

/-- `isFor` looks at the identifier and the value, which are the `notice` of an event. -/
theorem isFor_iff {e : Event} {id value : UInt16} :
    e.isFor id value = true ↔ e.notice = ⟨id, value⟩ := by
  simp [isFor, notice]

/-- An event keeps its `notice` as it ages. -/
theorem Ages.notice {e e' : Event} (h : e.Ages e') : e'.notice = e.notice := by
  rw [h.same]
  rfl

end Event

namespace Pool

variable {n : Nat} {p p' : Pool n}

/-- Some event for the identifier and the value comes before all others, by `timestamp` and then by
`seq`. -/
def FirstFor (p : Pool n) (id value : UInt16) : Prop :=
  ∃ slot e, p.get? slot = some e ∧ e.notice = ⟨id, value⟩ ∧
    ∀ i e', p.get? i = some e' → i ≠ slot →
      e.timestamp < e'.timestamp ∨ e.timestamp = e'.timestamp ∧ e.seq < e'.seq

/-- No pending event has the `notice`. -/
def Lacks (p : Pool n) (notice : Notice) : Prop :=
  ∀ ⦃slot : Nat⦄ ⦃e : Event⦄, p.get? slot = some e → e.notice ≠ notice

/-- A pool that `Lacks` a notice still does when it has aged. -/
theorem Lacks.ages {notice : Notice} (h : p.Lacks notice) (hages : p.Ages p') :
    p'.Lacks notice := by
  intro slot e' he'
  obtain ⟨e, he, hsame⟩ := hages.get? he'
  rw [hsame.notice]
  exact h he

/-- A pool that `Lacks` a notice still does when an event of another notice is accepted. -/
theorem Lacks.accept {notice : Notice} (h : p.Lacks notice) {now : Nat} {a : Acceptance}
    (haccepted : Happens now (.accepted a) p p') (ha : a.event.notice ≠ notice) :
    p'.Lacks notice := by
  cases haccepted with
  | accepted _ _ _ _ _ hput _ =>
    intro i e' he'
    rw [hput i] at he'
    split at he'
    · cases he'
      exact ha
    · exact h he'

/-- `earliest` answers the slot of the one event whose `key` is smaller than all others. -/
theorem earliest_eq_some_iff (hdistinct : p.Distinct) (slot : Nat) :
    p.earliest = some slot ↔
      ∃ e, p.get? slot = some e ∧ ∀ i e', p.get? i = some e' → i ≠ slot → e.key < e'.key :=
  p.cached_recompute.next_eq_some hdistinct slot

/-- `recompute` twice is `recompute` once. -/
theorem recompute_recompute (p : Pool n) : p.recompute.recompute = p.recompute := rfl

end Pool

namespace Scheduler

variable {H K : Type} {n : Nat} [TimerHardware H] {s s' : Scheduler H K n} {id value : UInt16}

/-! ## Which events are left -/

/-- `cancel` leaves exactly the events of another `notice`, each in its slot. -/
theorem get?_cancel (id value : UInt16) (s : Scheduler H K n) (slot : Nat) (e : Event) :
    (s.cancel id value).2.pool.get? slot = some e ↔
      s.pool.get? slot = some e ∧ e.notice ≠ ⟨id, value⟩ := by
  show (withdraw id value s.entered).2.pool.get? slot = some e ↔ _
  rw [get?_withdraw, Option.bind_eq_some_iff]
  show (∃ e₀, s.pool.get? slot = some e₀ ∧ _) ↔ _
  constructor
  · rintro ⟨e₀, hget, hkept⟩
    split at hkept
    · cases hkept
    · next hother =>
      cases hkept
      exact ⟨hget, fun hnotice => hother (Event.isFor_iff.mpr hnotice)⟩
  · rintro ⟨hget, hnotice⟩
    exact ⟨e, hget, if_neg fun hfor => hnotice (Event.isFor_iff.mp hfor)⟩

/-- `cancel` changes the earliest slot exactly if the event in it is for the identifier and the
value. -/
theorem earliest_cancel_ne (hdistinct : s.pool.Distinct) :
    (s.cancel id value).2.pool.earliest ≠ s.pool.earliest ↔ s.pool.FirstFor id value := by
  have hleft := get?_cancel id value s
  have hdistinct' : (s.cancel id value).2.pool.Distinct := by
    intro i j e e' hi hj
    exact hdistinct ((hleft i e).mp hi).1 ((hleft j e').mp hj).1
  constructor
  · intro hchanged
    cases hfirst : s.pool.earliest with
    | none =>
      -- Nothing is pending before, so nothing is pending afterwards.
      refine absurd (hfirst ▸ ?_) hchanged
      rw [Option.eq_none_iff_forall_ne_some]
      intro slot hslot
      obtain ⟨e, he⟩ := Pool.earliest_eq_some hslot
      have hempty : s.pool.events = [] := Pool.nextEvent?_recompute_eq_none (by
        unfold Pool.nextEvent?
        rw [Pool.next_recompute, hfirst]
        rfl)
      have hpending : e ∈ s.pool.events := Pool.mem_events.mpr ⟨slot, ((hleft slot e).mp he).1⟩
      rw [hempty] at hpending
      cases hpending
    | some slot =>
      obtain ⟨e, hget, hleast⟩ := (Pool.earliest_eq_some_iff hdistinct slot).mp hfirst
      by_cases hnotice : e.notice = ⟨id, value⟩
      · exact ⟨slot, e, hget, hnotice, fun i e' hi hne => Event.key_lt_key.mp (hleast i e' hi hne)⟩
      · -- The event is left, and comes before all that are left.
        refine absurd (hfirst ▸ ?_) hchanged
        rw [Pool.earliest_eq_some_iff hdistinct']
        exact ⟨e, (hleft slot e).mpr ⟨hget, hnotice⟩,
          fun i e' hi hne => hleast i e' ((hleft i e').mp hi).1 hne⟩
  · rintro ⟨slot, e, hget, hnotice, hleast⟩ hsame
    have hfirst : s.pool.earliest = some slot := (Pool.earliest_eq_some_iff hdistinct slot).mpr
      ⟨e, hget, fun i e' hi hne => Event.key_lt_key.mpr (hleast i e' hi hne)⟩
    -- The slot would have to hold an event still.
    obtain ⟨e', he'⟩ := Pool.earliest_eq_some (hsame.trans hfirst)
    obtain ⟨hget', hnotice'⟩ := (hleft slot e').mp he'
    rw [hget] at hget'
    cases hget'
    exact hnotice' hnotice

/-! ## The channels -/

/-- The number `count` of how often channels were armed does not miss the given channel: it grows
whenever that one is armed, and neither masking interrupts nor reading the counter changes it. -/
structure CountsArming (channel : Nat) (count : H → Nat) : Prop extends IrqMask.Keeps count where
  /-- Arming any channel does not take it back. -/
  mono : ∀ (hw : H) (i reading : Nat), count hw ≤ count (TimerHardware.armChannel hw i reading)
  /-- Arming the given channel is counted. -/
  counts : ∀ (hw : H) (reading : Nat),
    count hw < count (TimerHardware.armChannel hw channel reading)

/-- The `armCount` of a `SimTimer` counts every arming of a channel that it has. -/
theorem countsArming_armCount {channel : Nat} (h : channel < 4) :
    CountsArming channel fun t : SimTimer => t.armCount where
  enable _ := rfl
  disable _ := rfl
  read _ := rfl
  mono t i reading := by
    show t.armCount ≤ (t.armChannel i reading).armCount
    unfold SimTimer.armChannel
    split
    · exact Nat.le_succ _
    · exact Nat.le_refl _
  counts t reading := by
    show t.armCount < (t.armChannel channel reading).armCount
    unfold SimTimer.armChannel
    rw [if_pos h]
    exact Nat.lt_succ_self _

/-- A count of `CountsArming` never goes back, whatever is armed. -/
theorem CountsArming.arms {channel : Nat} {count : H → Nat} (h : CountsArming channel count) :
    Arms fun s s' : Scheduler H K n => count s.hw ≤ count s'.hw where
  refl _ := Nat.le_refl _
  trans := Nat.le_trans
  enter s := (h.enter s.hw).ge
  leave restore s := (h.leave restore s.hw).ge
  sync s := by
    unfold sync
    split
    · exact Nat.le_refl _
    · exact (h.read s.hw).ge
  arm s channel ticks := h.mono s.hw channel _

/-- A count of `CountsArming` for the fallback channel grows by `rearmNow` of an active scheduler.
-/
theorem CountsArming.lt_rearmNow {count : H → Nat}
    (h : CountsArming s.config.fallbackChannel count) (hactive : s.suspended = false) :
    count s.hw < count s.rearmNow.hw := by
  have hready : SameBut s.entered.refresh s.entered.refresh.sync.armPrimary :=
    arms_sameBut.trans (arms_sameBut.sync _) (arms_sameBut.armPrimary _)
  have hchannel : s.entered.refresh.sync.armPrimary.config.fallbackChannel =
      s.config.fallbackChannel := by rw [hready.config]; rfl
  have hactive' : ¬ s.entered.suspended = true := by
    show ¬ s.suspended = true
    rw [hactive]
    decide
  calc count s.hw
      = count s.entered.refresh.hw := (h.enter s.hw).symm
    _ ≤ count s.entered.refresh.sync.armPrimary.hw :=
        h.arms.trans (h.arms.sync _) (h.arms.armPrimary _)
    _ < count s.entered.refresh.sync.armPrimary.armFallback.hw := by
        unfold armFallback armAhead
        rw [hchannel]
        exact h.counts _ _
    _ = count s.entered.rearm.hw := by
        unfold rearm
        rw [if_neg hactive']
    _ = count s.rearmNow.hw := (h.leave _ _).symm

/-- `rearm` does the same after a `recompute`. -/
theorem rearm_recompute (s : Scheduler H K n) :
    { s with pool := s.pool.recompute }.rearm = s.rearm := by
  unfold rearm refresh
  rw [Pool.recompute_recompute]

/-- `cancel` arms the channels for what is left if it changes the earliest slot. -/
theorem cancel_of_changed (hcached : s.pool.Cached)
    (hchanged : (s.cancel id value).2.pool.earliest ≠ s.pool.earliest) :
    (s.cancel id value).2 = { s with pool := (s.cancel id value).2.pool }.rearmNow := by
  have hne : ((withdraw id value s.entered).2.pool.earliest != s.entered.pool.earliest) = true :=
    bne_iff_ne.mpr hchanged
  obtain ⟨p, -, ⟨hsame, -⟩ | ⟨-, hact⟩⟩ := withdraw_cases (s := s.entered) id value hcached
  · rw [hne] at hsame
    cases hsame
  · have hpool : (s.cancel id value).2.pool = p.recompute := by
      show (withdraw id value s.entered).2.pool = _
      rw [hact]
      exact rearm_pool _
    rw [hpool]
    unfold cancel rearmNow
    rw [masked_eq, masked_eq, hact]
    dsimp only
    rw [← rearm_recompute { s.entered with pool := p }]
    rfl

/-- `cancel` leaves everything alone but the pending events if it does not change the earliest slot,
or if the clock stands still. -/
theorem cancel_of_kept (hcached : s.pool.Cached)
    (hkept : s.suspended = true ∨ (s.cancel id value).2.pool.earliest = s.pool.earliest) :
    (s.cancel id value).2 =
      { s with hw := IrqMask.blank s.hw, pool := (s.cancel id value).2.pool } := by
  obtain ⟨p, -, ⟨-, -, hact⟩ | ⟨hchanged, hact⟩⟩ := withdraw_cases (s := s.entered) id value hcached
  · unfold cancel
    rw [masked_eq, hact]
    rfl
  · rcases hkept with hstopped | hsame
    · have hidle : ({ s.entered with pool := p } : Scheduler H K n).rearm =
          ({ s.entered with pool := p } : Scheduler H K n).refresh := rearm_of_suspended hstopped
      unfold cancel
      rw [masked_eq, hact, hidle]
      rfl
    · exact absurd hsame (bne_iff_ne.mp hchanged)

variable [EventSink K]

/-! ## What is cancelled stays away -/

/-- Whatever fires in an `interrupt` was pending, and may have grown older meanwhile. -/
theorem ages_of_mem_interrupt {source : InterruptSource} {f : Firing}
    (hf : f ∈ (s.interrupt source).1) : ∃ slot e, s.pool.get? slot = some e ∧ e.Ages f.event := by
  cases hactive : s.suspended with
  | true =>
    have hnone : (s.interrupt source).1 = #[] := by
      unfold interrupt
      rw [masked_fst, handle_of_suspended (s := s.entered) source hactive]
    rw [hnone] at hf
    exact absurd hf (Array.not_mem_empty f)
  | false =>
    rw [(interrupt_of_active source hactive).1] at hf
    exact Pool.ages_of_mem_drain hf

/-- A firing among the `happenings` of a `Command` is one of an interrupt. -/
theorem mem_firings_happenings {c : Command} {f : Firing} (hf : f ∈ firings (s.happenings c)) :
    ∃ source, f ∈ (s.interrupt source).1 := by
  have hnone : ∀ {list : List Happening}, firings list = [] → s.happenings c = list →
      ∃ source, f ∈ (s.interrupt source).1 := by
    rintro list hlist rfl
    rw [hlist] at hf
    cases hf
  cases c with
  | interrupt source =>
    change f ∈ firings (List.map .fired _) at hf
    rw [firings_map_fired] at hf
    exact ⟨source, Array.mem_toList_iff.mp hf⟩
  | compareMatch channel =>
    change f ∈ firings (List.map .fired _) at hf
    rw [firings_map_fired] at hf
    have hmem := Array.mem_toList_iff.mp hf
    unfold Scheduler.compareMatch at hmem
    split at hmem
    · exact ⟨_, hmem⟩
    · exact absurd hmem (Array.not_mem_empty f)
  | schedule request =>
    refine hnone ?_ rfl
    unfold happenings
    dsimp only
    split <;> rfl
  | cancel ident value => exact hnone (firings_map_eq_nil fun _ => rfl) rfl
  | resume counter elapsedUs => exact hnone (firings_map_eq_nil fun _ => rfl) rfl
  | timeMs | timeUs | rearm | wait | suspend => exact hnone rfl rfl

/-- A pool that `Lacks` a notice still does after a `Command` that accepts no event of it. -/
theorem lacks_exec {notice : Notice} (h : s.pool.Lacks notice) {c : Command}
    (hc : ∀ a, .accepted a ∈ s.happenings c → a.event.notice ≠ notice) :
    (s.exec c).2.pool.Lacks notice := by
  rcases s.exec_pool c with hages | ⟨r, rfl, haccepted⟩
  · exact h.ages hages
  · refine h.accept haccepted (hc _ ?_)
    -- A request that takes a number was granted.
    have hok : (s.schedule r).1.isOk = true := by
      cases hreply : (s.schedule r).1 with
      | ok => rfl
      | error reason =>
        have hpool : (s.exec (.schedule r)).2.pool = s.pool := (schedule_refused hreply).pool
        rw [hpool] at haccepted
        cases haccepted with
        | accepted _ _ _ _ _ _ hseq => exact absurd hseq (Nat.ne_of_lt (Nat.lt_succ_self _))
    change _ ∈ if (s.schedule r).1.isOk then _ else _
    rw [if_pos hok]
    exact List.mem_singleton_self _

namespace Run

variable {start : Scheduler H K n} {log : List Happening}

/-- A pool that `Lacks` a notice still does after a run that accepts no event of it, and no firing
of the run has it. -/
theorem lacks {notice : Notice} (hlacks : start.pool.Lacks notice) (hrun : Run start log s)
    (hlog : ∀ a, .accepted a ∈ log → a.event.notice ≠ notice) :
    s.pool.Lacks notice ∧ ∀ f ∈ firings log, f.event.notice ≠ notice := by
  induction hrun with
  | start => exact ⟨hlacks, fun f hf => by cases hf⟩
  | move hw _ ih => exact ih hlog
  | @exec log s c _ ih =>
    obtain ⟨hpool, hfired⟩ := ih fun a ha => hlog a (List.mem_append_left _ ha)
    refine ⟨lacks_exec hpool fun a ha => hlog a (List.mem_append_right _ ha), fun f hf => ?_⟩
    unfold firings at hf
    rw [List.filterMap_append] at hf
    rcases List.mem_append.mp hf with hbefore | hnow
    · exact hfired f hbefore
    · -- What fires now was pending, under the same notice.
      obtain ⟨source, hmem⟩ := mem_firings_happenings hnow
      obtain ⟨slot, e, hget, hages⟩ := ages_of_mem_interrupt hmem
      rw [hages.notice]
      exact hpool hget

end Run

/-! ## A cancellation and all that follows -/

/-- What comes of `cancel` for an identifier and a value, at once and in all that follows. -/
structure CancelsForGood (id value : UInt16) (s : Scheduler H K n) : Prop where
  /-- The cancellation is never refused. -/
  ok : (s.cancel id value).1 = .ok ()
  /-- Exactly those events are left that were registered under something else. They are where they
  were, and as they were. -/
  pending : ∀ slot e, (s.cancel id value).2.pool.get? slot = some e ↔
    s.pool.get? slot = some e ∧ ¬ (e.id = id ∧ e.value = value)
  /-- If the earliest event is among those cancelled the channels are armed for what is left, unless
  the clock stands still. -/
  rearmed : s.suspended = false → s.pool.FirstFor id value →
    (s.cancel id value).2 = { s with pool := (s.cancel id value).2.pool }.rearmNow
  /-- If the earliest event is not among those cancelled, or the clock stands still, only the
  pending events have changed, and interrupts were masked for a while. -/
  untouched : s.suspended = true ∨ ¬ s.pool.FirstFor id value →
    (s.cancel id value).2 = { s with hw := IrqMask.blank s.hw, pool := (s.cancel id value).2.pool }
  /-- If the earliest event is not among those cancelled, or the clock stands still, no channel is
  armed. -/
  channels : s.suspended = true ∨ ¬ s.pool.FirstFor id value →
    ∀ {X : Type} {part : H → X}, IrqMask.Keeps part → part (s.cancel id value).2.hw = part s.hw
  /-- A count of how often channels were armed tells the two cases apart. -/
  counted_iff : ∀ count : H → Nat, CountsArming s.config.fallbackChannel count →
    (count (s.cancel id value).2.hw ≠ count s.hw ↔
      s.suspended = false ∧ s.pool.FirstFor id value)
  /-- The slot remembered is that of the earliest event that is left. -/
  foresees : Foresees (s.cancel id value).2
  /-- As long as no request for an event of the identifier and the value is granted, the sink is
  told of no such event. -/
  silent : ∀ more s', Run (s.cancel id value).2 more s' →
    (∀ a, .accepted a ∈ more → ¬ (a.request.id = id ∧ a.request.value = value)) →
    s'.sink = ((firings more).map (·.event.notice)).foldl EventSink.deliver
        (s.cancel id value).2.sink ∧
      ⟨id, value⟩ ∉ (firings more).map (·.event.notice)

/-- After any run `cancel` takes away the events asked for and nothing else, arms the channels only
if it has to, and the events do not come back, as `CancelsForGood` says. -/
theorem Run.cancels_for_good {start : Scheduler H K n} {log : List Happening}
    (hfresh : start.Fresh) (hrun : Run start log s) (id value : UInt16) :
    CancelsForGood id value s := by
  have hcached := hrun.cached hfresh
  have hfirst : (s.cancel id value).2.pool.earliest ≠ s.pool.earliest ↔ s.pool.FirstFor id value :=
    earliest_cancel_ne (hrun.numbered hfresh).distinct
  have hnotice : ∀ {e : Event}, e.notice ≠ ⟨id, value⟩ ↔ ¬ (e.id = id ∧ e.value = value) := by
    intro e
    unfold Event.notice
    rw [Ne, Notice.mk.injEq]
  have hkept : s.suspended = true ∨ ¬ s.pool.FirstFor id value → (s.cancel id value).2 =
      { s with hw := IrqMask.blank s.hw, pool := (s.cancel id value).2.pool } := fun h =>
    cancel_of_kept hcached (h.imp_right fun hnot => not_ne_iff.mp (mt hfirst.mp hnot))
  have hchannels : s.suspended = true ∨ ¬ s.pool.FirstFor id value → ∀ {X : Type} {part : H → X},
      IrqMask.Keeps part → part (s.cancel id value).2.hw = part s.hw := by
    intro h X part hkeeps
    rw [hkept h]
    exact (hkeeps.leave _ _).trans (hkeeps.enter s.hw)
  constructor
  case ok => exact congrArg Prod.fst (withdraw_eq id value s.entered)
  case pending =>
    intro slot e
    rw [get?_cancel, hnotice]
  case rearmed => exact fun _ h => cancel_of_changed hcached (hfirst.mpr h)
  case untouched => exact hkept
  case channels => exact hchannels
  case counted_iff =>
    intro count hcount
    constructor
    · intro hgrown
      by_contra hnot
      refine hgrown (hchannels ?_ hcount.toKeeps)
      rw [← Bool.not_eq_false]
      tauto
    · rintro ⟨hactive, h⟩
      rw [cancel_of_changed hcached (hfirst.mpr h)]
      have hgrown := CountsArming.lt_rearmNow
        (s := { s with pool := (s.cancel id value).2.pool }) hcount hactive
      exact hgrown.ne'
  case foresees => exact (hrun.exec (.cancel id value)).foresees hfresh
  case silent =>
    intro more s' hmore hnever
    have hlacks : (s.cancel id value).2.pool.Lacks ⟨id, value⟩ := fun slot e he =>
      ((get?_cancel id value s slot e).mp he).2
    refine ⟨hmore.sink, fun hmem => ?_⟩
    obtain ⟨f, hf, hfor⟩ := List.mem_map.mp hmem
    exact (hmore.lacks hlacks fun a ha => hnotice.mpr (hnever a ha)).2 f hf hfor

/-- Steps for `bench`: three events are asked for, the first and the third under the same identifier
and value. The third is the earliest. -/
def twofold : List (Nat × Command) :=
  [(0, .schedule ⟨.us 100, 7, 1, false, .empty⟩), (0, .schedule ⟨.us 60, 8, 2, true, .empty⟩),
    (10, .schedule ⟨.us 30, 7, 1, true, .empty⟩)]

/-- Steps after the events of `twofold` were cancelled: the first free slot goes to another event.
Interrupts come late, and time tracking is handed over in between. -/
def aftermath : List (Nat × Command) :=
  [(5, .schedule ⟨.us 20, 9, 1, false, .empty⟩), (90, .interrupt .primary), (0, .suspend),
    (0, .resume 105 200), (0, .interrupt .fallback)]

/-- After `twofold` both events are gone and the channels are armed for the second, which shows that
one of the two was the earliest. In the `aftermath` the others fire, and neither of the two. -/
theorem cancels_for_good_twofold :
    bench.Fresh ∧ Run bench (bench.play twofold).1 (bench.play twofold).2 ∧
      CancelsForGood 7 1 (bench.play twofold).2 ∧
      (bench.play twofold).2.pool.next = some 2 ∧
      ((bench.play twofold).2.cancel 7 1).2.pool.next = some 1 ∧
      (bench.play twofold).2.pool.FirstFor 7 1 ∧
      (bench.play twofold).2.hw.channels = #v[some 10000010, some 40, none, none] ∧
      ((bench.play twofold).2.cancel 7 1).2.hw.channels = #v[some 10000010, some 60, none, none] ∧
      (firings ((((bench.play twofold).2.cancel 7 1).2.play aftermath).1)).map
        (fun f => (f.event.timestamp, f.event.id)) = [(35, 9), (60, 8), (300, 8)] := by
  have hfresh : bench.Fresh := .inr ⟨_, _, rfl⟩
  have hrun := bench.run_play twofold
  have hcancel := hrun.cancels_for_good hfresh 7 1
  have hcount : CountsArming (bench.play twofold).2.config.fallbackChannel
      fun t : SimTimer => t.armCount := countsArming_armCount (by decide +kernel)
  exact ⟨hfresh, hrun, hcancel, by decide +kernel, by decide +kernel,
    ((hcancel.counted_iff _ hcount).mp (by decide +kernel)).2, by decide +kernel,
    by decide +kernel, by decide +kernel⟩

end Scheduler

end SoftTimer
