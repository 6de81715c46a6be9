import SoftTimer.SimTimer.Basic
import SoftTimer.Proofs.Scheduler.Acts
import SoftTimer.Proofs.Scheduler.Simulation

/-!
# Operations in masked sections

An operation that enables no interrupts itself (`Procedure.Quiet`) is done while they are masked
from beginning to end if it begins so (`Procedure.Quiet.masked`). In a masked section it does, and
when the section is left interrupts are enabled if they were before (`Procedure.Balanced`). Every
operation is made of such sections: of all that its procedure records, nothing was done with
interrupts enabled but the call that masks them (`Scheduler.keepsOut`).

The hardware can tell as well. It can keep a journal of its calls (`Journal`), of which a procedure
learns nothing, and the journal then shows the calls that were recorded (`Procedure.run_journal`).
-/

namespace SoftTimer

/-! ## Hardware that can be masked -/

/-- The hardware masks interrupts by `disableInterrupts`, and leaves them as they are while the
counter is read and channels are armed. -/
structure IrqMask.Works (H : Type) [TimerHardware H] : Prop where
  /-- Enabling interrupts enables them. -/
  enable : ∀ hw : H,
    TimerHardware.interruptsEnabled (TimerHardware.enableInterrupts hw) = true
  /-- Masking them masks them. -/
  disable : ∀ hw : H,
    TimerHardware.interruptsEnabled (TimerHardware.disableInterrupts hw) = false
  /-- Reading the counter leaves the interrupts as they are. -/
  read : ∀ hw : H, TimerHardware.interruptsEnabled (TimerHardware.readCounter hw).2 =
    TimerHardware.interruptsEnabled hw
  /-- Arming a channel leaves the interrupts as they are. -/
  arm : ∀ (hw : H) (channel reading : Nat),
    TimerHardware.interruptsEnabled (TimerHardware.armChannel hw channel reading) =
      TimerHardware.interruptsEnabled hw

/-- The interrupts of a `SimTimer` can be masked. -/
theorem SimTimer.works : IrqMask.Works SimTimer where
  enable _ := rfl
  disable _ := rfl
  read _ := rfl
  arm t channel reading := by
    show (t.armChannel channel reading).enabled = t.enabled
    unfold armChannel
    split <;> rfl

namespace IrqMask.Works

variable {H : Type} [TimerHardware H]

/-- Inside a masked section interrupts are masked, on hardware that `Works`. -/
theorem entered (h : Works H) (hw : H) : TimerHardware.interruptsEnabled (enter hw).2 = false := by
  unfold enter
  split
  · exact h.disable hw
  · next hmasked => exact Bool.eq_false_iff.mpr hmasked

/-- `leave` restores what `enter` has found, on hardware that `Works`. -/
theorem left (h : Works H) (found : H) {hw : H}
    (hmasked : TimerHardware.interruptsEnabled hw = false) :
    TimerHardware.interruptsEnabled (leave (enter found).1 hw) =
      TimerHardware.interruptsEnabled found := by
  unfold enter leave
  by_cases hfound : TimerHardware.interruptsEnabled found = true
  · rw [if_pos hfound, if_pos rfl, h.enable, hfound]
  · rw [if_neg hfound, if_neg Bool.false_ne_true, hmasked, Bool.eq_false_iff.mpr hfound]

end IrqMask.Works

/-! ## Inside a masked section -/

/-- An `Act` other than enabling interrupts leaves them masked, on hardware that `Works`. -/
theorem Act.masked {H K : Type} {n : Nat} [TimerHardware H] [EventSink K]
    (hworks : IrqMask.Works H) {act : Act n} (h : act ≠ .call .enable) {s : Scheduler H K n}
    (hmasked : TimerHardware.interruptsEnabled s.hw = false) :
    TimerHardware.interruptsEnabled (act.apply s).hw = false := by
  cases act with
  | call call =>
    cases call with
    | read => exact (hworks.read s.hw).trans hmasked
    | arm channel reading => exact (hworks.arm s.hw channel reading).trans hmasked
    | enable => exact absurd rfl h
    | disable => exact hworks.disable s.hw
  | pool | deliver | clock | stats | suspended => exact hmasked

namespace Procedure

variable {n : Nat} {α β : Type}

/-- Whether no `Act` of a procedure enables interrupts. -/
def Quiet (p : Procedure n α) : Prop := p.All fun act => act ≠ .call .enable

theorem Quiet.bind {p : Procedure n α} {f : α → Procedure n β} (h : p.Quiet)
    (hf : ∀ answer, (f answer).Quiet) : (p >>= f).Quiet := All.bind h hf

theorem quiet_pure (answer : α) : (pure answer : Procedure n α).Quiet := trivial

theorem quiet_act {first : Act n} (h : first ≠ .call .enable) : (act first).Quiet := ⟨h, trivial⟩

theorem quiet_look : (look : Procedure n (Scheduler Unit Unit n)).Quiet := fun _ => trivial

theorem quiet_read : (read : Procedure n Nat).Quiet := ⟨nofun, fun _ => trivial⟩

theorem quiet_sync : (sync : Procedure n Unit).Quiet := by
  refine quiet_look.bind fun s => ?_
  split
  · exact quiet_pure ()
  · exact quiet_read.bind fun _ => quiet_act (by nofun)

theorem quiet_armAhead (channel ticks : Nat) : (armAhead channel ticks : Procedure n Unit).Quiet :=
  quiet_look.bind fun _ => quiet_act (by nofun)

theorem quiet_armPrimary : (armPrimary : Procedure n Unit).Quiet := by
  refine quiet_look.bind fun s => ?_
  split
  · exact quiet_armAhead _ _
  · exact quiet_pure ()

theorem quiet_rearm : (rearm : Procedure n Unit).Quiet := by
  refine quiet_look.bind fun s => (quiet_act (by nofun)).bind fun _ => ?_
  split
  · exact quiet_pure ()
  · exact quiet_sync.bind fun _ => quiet_armPrimary.bind fun _ =>
      quiet_look.bind fun _ => quiet_armAhead _ _

theorem quiet_reject (reason : TimerError) :
    (reject reason : Procedure n (Except TimerError Unit)).Quiet :=
  quiet_look.bind fun _ => (quiet_act (by nofun)).bind fun _ => quiet_pure _

theorem quiet_register (r : Request) :
    (register r : Procedure n (Except TimerError Unit)).Quiet := by
  unfold register
  split
  · exact quiet_reject _
  · refine quiet_sync.bind fun _ => quiet_look.bind fun s => ?_
    split
    · exact quiet_reject _
    · exact (quiet_act (by nofun)).bind fun _ => quiet_rearm.bind fun _ => quiet_pure _

theorem quiet_releaseAll : ∀ slots : List Nat, (releaseAll slots : Procedure n Unit).Quiet
  | [] => quiet_pure ()
  | _ :: rest =>
    quiet_look.bind fun _ => (quiet_act (by nofun)).bind fun _ => quiet_releaseAll rest

theorem quiet_withdraw (id value : UInt16) :
    (withdraw id value : Procedure n (Except TimerError Unit)).Quiet := by
  refine quiet_look.bind fun s => (quiet_releaseAll _).bind fun _ => quiet_look.bind fun _ => ?_
  split
  · exact quiet_rearm.bind fun _ => quiet_pure _
  · exact quiet_pure _

theorem quiet_drain (now steps : Nat) (counts : Vector Nat n) (firings : Array Firing) :
    (drain now steps counts firings).Quiet := by
  induction steps generalizing counts firings with
  | zero => exact quiet_pure _
  | succ steps ih =>
    refine quiet_look.bind fun s => ?_
    split
    · exact quiet_pure _
    · exact (quiet_act (by nofun)).bind fun _ => (quiet_act (by nofun)).bind fun _ =>
        (quiet_act (by nofun)).bind fun _ => (quiet_act (by nofun)).bind fun _ => ih _ _

theorem quiet_handle (source : InterruptSource) :
    (handle source : Procedure n (Array Firing)).Quiet := by
  refine quiet_look.bind fun s => (quiet_act (by nofun)).bind fun _ => ?_
  split
  · exact quiet_pure _
  · exact quiet_sync.bind fun _ => quiet_look.bind fun _ => (quiet_drain _ _ _ _).bind fun _ =>
      quiet_rearm.bind fun _ => quiet_pure _

theorem quiet_handOver : (handOver : Procedure n Snapshot).Quiet :=
  quiet_sync.bind fun _ => quiet_look.bind fun _ => (quiet_act (by nofun)).bind fun _ =>
    (quiet_act (by nofun)).bind fun _ => quiet_pure _

theorem quiet_restart (counter elapsedUs : Nat) :
    (restart counter elapsedUs : Procedure n Unit).Quiet :=
  quiet_look.bind fun _ => (quiet_act (by nofun)).bind fun _ => (quiet_act (by nofun)).bind fun _ =>
    quiet_act (by nofun)

theorem quiet_alignSlots (slots : List Nat) (due : Nat) :
    (alignSlots slots due : Procedure n Nat).Quiet := by
  induction slots generalizing due with
  | nil => exact quiet_pure _
  | cons slot rest ih =>
    refine quiet_look.bind fun s => ?_
    split
    · exact ih due
    · exact (quiet_act (by nofun)).bind fun _ => (quiet_act (by nofun)).bind fun _ => ih _

theorem quiet_takeBack (counter elapsedUs : Nat) :
    (takeBack counter elapsedUs : Procedure n Nat).Quiet :=
  (quiet_restart _ _).bind fun _ => (quiet_alignSlots _ _).bind fun _ =>
    quiet_rearm.bind fun _ => quiet_pure _

section Carrying

variable {H K : Type} [TimerHardware H] [EventSink K] {s : Scheduler H K n}

/-- A `Quiet` procedure that begins while interrupts are masked is done while they are masked, and
leaves them so. -/
theorem Quiet.masked (hworks : IrqMask.Works H) {p : Procedure n α} (h : p.Quiet)
    (hmasked : TimerHardware.interruptsEnabled s.hw = false) :
    (∀ entry ∈ p.record s, entry.enabled = false) ∧
      TimerHardware.interruptsEnabled (p.run s).2.hw = false := by
  induction p generalizing s with
  | answers answer => exact ⟨fun _ hmem => absurd hmem List.not_mem_nil, hmasked⟩
  | looks next ih => exact ih _ (h _) hmasked
  | asks next ih => exact ih _ (h _) hmasked
  | reads next ih =>
    obtain ⟨hrecord, hafter⟩ := ih _ (h.2 _) (Act.masked hworks h.1 hmasked)
    exact ⟨List.forall_mem_cons.mpr ⟨hmasked, hrecord⟩, hafter⟩
  | acts act next ih =>
    obtain ⟨hrecord, hafter⟩ := ih h.2 (Act.masked hworks h.1 hmasked)
    exact ⟨List.forall_mem_cons.mpr ⟨hmasked, hrecord⟩, hafter⟩

/-! ## Masked sections -/

/-- With interrupts enabled no `Act` is done but to mask them, and in the end they are enabled if
they were before. -/
structure Balanced (p : Procedure n α) (s : Scheduler H K n) : Prop where
  /-- Nothing else is recorded with interrupts enabled. -/
  masked : ∀ entry ∈ p.record s, entry.enabled = true → entry.act = .call .disable
  /-- Interrupts are enabled in the end if they were before. -/
  enabled : TimerHardware.interruptsEnabled (p.run s).2.hw =
    TimerHardware.interruptsEnabled s.hw

theorem balanced_pure (answer : α) : (pure answer : Procedure n α).Balanced s where
  masked _ hmem := absurd hmem List.not_mem_nil
  enabled := rfl

theorem balanced_look (s : Scheduler H K n) : look.Balanced s where
  masked _ hmem := absurd hmem List.not_mem_nil
  enabled := rfl

/-- A procedure that goes on is `Balanced` if both of its parts are. -/
theorem Balanced.bind {p : Procedure n α} {f : α → Procedure n β} (h : p.Balanced s)
    (hf : (f (p.run s).1).Balanced (p.run s).2) : (p >>= f).Balanced s where
  masked := by
    rw [record_bind]
    exact List.forall_mem_append.mpr ⟨h.masked, hf.masked⟩
  enabled := by
    rw [run_bind]
    exact hf.enabled.trans h.enabled

/-- A procedure stays `Balanced` when its answer is mapped. -/
theorem Balanced.map (f : α → β) {p : Procedure n α} (h : p.Balanced s) : (f <$> p).Balanced s :=
  h.bind (balanced_pure _)

/-- A masked section is `Balanced` if its body is `Quiet`. -/
theorem balanced_masked (hworks : IrqMask.Works H) {body : Procedure n α} (h : body.Quiet)
    (s : Scheduler H K n) : (masked body).Balanced s := by
  have hnone : ∀ {record : List (Entry n)}, (∀ entry ∈ record, entry.enabled = false) →
      ∀ entry ∈ record, entry.enabled = true → entry.act = .call .disable :=
    fun hrecord entry hmem henabled =>
      absurd ((hrecord entry hmem).symm.trans henabled) Bool.false_ne_true
  unfold masked
  by_cases hfound : TimerHardware.interruptsEnabled s.hw = true
  · -- They are masked, and enabled again in the end.
    have hmasked := hworks.disable s.hw
    obtain ⟨hrecord, hafter⟩ := h.masked (s := (Act.call .disable).apply s) hworks hmasked
    constructor
    case masked =>
      rw [record_ask_bind, if_pos hfound, record_act_bind, record_bind, if_pos hfound]
      have hlast : ∀ entry ∈ [(⟨.call .enable, TimerHardware.interruptsEnabled
          (body.run ((Act.call .disable).apply s)).2.hw⟩ : Entry n)], entry.enabled = false :=
        List.forall_mem_singleton.mpr hafter
      exact List.forall_mem_cons.mpr
        ⟨fun _ => rfl, List.forall_mem_append.mpr ⟨hnone hrecord, hnone hlast⟩⟩
    case enabled =>
      rw [run_ask_bind, if_pos hfound, run_act_bind, run_bind, if_pos hfound]
      exact (hworks.enable _).trans hfound.symm
  · -- They are masked already, and stay so.
    have hmasked : TimerHardware.interruptsEnabled s.hw = false := Bool.eq_false_iff.mpr hfound
    obtain ⟨hrecord, hafter⟩ := h.masked hworks hmasked
    constructor
    case masked =>
      rw [record_ask_bind, if_neg hfound, record_bind, if_neg hfound]
      exact List.forall_mem_append.mpr
        ⟨hnone hrecord, fun _ hmem => absurd hmem List.not_mem_nil⟩
    case enabled =>
      rw [run_ask_bind, if_neg hfound, run_bind, if_neg hfound]
      exact hafter.trans hmasked.symm

/-- `readClock` is `Balanced`. -/
theorem balanced_readClock (hworks : IrqMask.Works H) (f : Clock → Nat) (s : Scheduler H K n) :
    (readClock f).Balanced s :=
  balanced_masked hworks (quiet_sync.bind fun _ => quiet_look.bind fun _ => quiet_pure _) s

/-- `pollUntil` is `Balanced`, for any number of readings. -/
theorem balanced_pollUntil (hworks : IrqMask.Works H) (start us readings : Nat)
    (s : Scheduler H K n) : (pollUntil start us readings).Balanced s := by
  induction readings generalizing s with
  | zero => exact balanced_pure _
  | succ readings ih =>
    refine (balanced_readClock hworks _ s).bind ?_
    split
    · exact ih _
    · exact balanced_pure _

/-- The procedure of every `Command` is `Balanced`. -/
theorem balanced_ofCommand (hworks : IrqMask.Works H) (c : Command) (s : Scheduler H K n) :
    (ofCommand c).Balanced s := by
  cases c with
  | timeMs | timeUs => exact (balanced_readClock hworks _ s).map _
  | schedule request => exact (balanced_masked hworks (quiet_register request) s).map _
  | cancel ident value => exact (balanced_masked hworks (quiet_withdraw ident value) s).map _
  | rearm => exact (balanced_masked hworks quiet_rearm s).map _
  | interrupt source => exact (balanced_masked hworks (quiet_handle source) s).map _
  | compareMatch channel =>
    have hmatch : (compareMatch channel).Balanced s := by
      refine (balanced_look s).bind ?_
      split
      · exact balanced_masked hworks (quiet_handle _) s
      · exact balanced_pure _
    exact hmatch.map _
  | wait span =>
    have hwait : (wait span).Balanced s := by
      refine (balanced_look s).bind ?_
      split
      · exact balanced_pure _
      · exact (balanced_readClock hworks _ s).bind
          ((balanced_look _).bind (balanced_pollUntil hworks _ _ _ _))
    exact hwait.map _
  | suspend => exact (balanced_masked hworks quiet_handOver s).map _
  | resume counter elapsedUs =>
    exact (balanced_masked hworks (quiet_takeBack counter elapsedUs) s).map _

end Carrying

end Procedure

/-! ## Keeping a journal -/

/-- Hardware with a journal of its calls, in front of the hardware `inner`. -/
structure Journal (H : Type) where
  /-- The hardware itself. -/
  inner : H
  /-- The calls so far, and whether interrupts were enabled when they were made. -/
  notes : List (HwCall × Bool)
deriving DecidableEq

namespace Journal

variable {H : Type} [TimerHardware H]

/-- The journal after a call, which has made the hardware `after`. -/
def note (hw : Journal H) (call : HwCall) (after : H) : Journal H :=
  ⟨after, hw.notes ++ [(call, TimerHardware.interruptsEnabled hw.inner)]⟩

instance : TimerHardware (Journal H) where
  width hw := TimerHardware.width hw.inner
  tickHz hw := TimerHardware.tickHz hw.inner
  readCounter hw :=
    let (reading, after) := TimerHardware.readCounter hw.inner
    (reading, hw.note .read after)
  armChannel hw channel reading :=
    hw.note (.arm channel reading) (TimerHardware.armChannel hw.inner channel reading)
  enableInterrupts hw := hw.note .enable (TimerHardware.enableInterrupts hw.inner)
  disableInterrupts hw := hw.note .disable (TimerHardware.disableInterrupts hw.inner)
  interruptsEnabled hw := TimerHardware.interruptsEnabled hw.inner

/-- `apply` of a call does the same to the hardware if a journal is kept, and notes the call. -/
theorem apply_eq (hw : Journal H) (call : HwCall) :
    call.apply hw = hw.note call (call.apply hw.inner) := by
  cases call <;> rfl

end Journal

section Noted

variable {H K : Type} {n : Nat} [TimerHardware H] [EventSink K]

/-- An `Act` does the same if a journal is kept, and notes the call if it is one. -/
theorem Act.apply_journal (act : Act n) (s : Scheduler H K n) (notes : List (HwCall × Bool)) :
    act.apply (s.on (⟨s.hw, notes⟩ : Journal H)) = (act.apply s).on ⟨(act.apply s).hw,
      notes ++ (Entry.call? ⟨act, TimerHardware.interruptsEnabled s.hw⟩).toList⟩ := by
  cases act with
  | call call =>
    show (s.on (call.apply (⟨s.hw, notes⟩ : Journal H))) = _
    rw [Journal.apply_eq]
    rfl
  | pool | deliver | clock | stats | suspended =>
    show _ = Scheduler.on _ (Journal.mk _ (notes ++ []))
    rw [List.append_nil]
    rfl

/-- The calls of a record that begins with an `Entry` are its call, if it is one, and the others. -/
theorem Entry.filterMap_call?_cons (first : Entry n) (rest : List (Entry n)) :
    (first :: rest).filterMap Entry.call? = first.call?.toList ++ rest.filterMap Entry.call? := by
  rw [List.filterMap_cons]
  cases first.call? <;> rfl

/-- `run` gives the same answer and scheduler if a journal is kept, and the journal shows the calls
of the `record`. -/
theorem Procedure.run_journal {α : Type} (p : Procedure n α) (s : Scheduler H K n)
    (notes : List (HwCall × Bool)) :
    p.run (s.on (⟨s.hw, notes⟩ : Journal H)) = ((p.run s).1,
      (p.run s).2.on ⟨(p.run s).2.hw, notes ++ (p.record s).filterMap Entry.call?⟩) := by
  -- What is left to do finds the scheduler with the call noted, if it was one.
  induction p generalizing s notes with
  | answers answer =>
    show _ = (_, Scheduler.on s (Journal.mk _ (notes ++ [])))
    rw [List.append_nil]
    rfl
  | looks next ih => exact ih _ s notes
  | asks next ih => exact ih _ s notes
  | reads next ih =>
    show (next _).run ((Act.call .read).apply (s.on (⟨s.hw, notes⟩ : Journal H))) = _
    unfold record
    rw [Act.apply_journal, ih, Entry.filterMap_call?_cons, ← List.append_assoc]
    rfl
  | acts act next ih =>
    show next.run (act.apply (s.on (⟨s.hw, notes⟩ : Journal H))) = _
    unfold record
    rw [Act.apply_journal, ih, Entry.filterMap_call?_cons, ← List.append_assoc]
    rfl

end Noted

namespace Scheduler

variable {H K : Type} {n : Nat} [TimerHardware H] [EventSink K]

/-- A `Command` is kept from being interrupted, and leaves it at that. -/
structure KeepsOut (s : Scheduler H K n) (c : Command) : Prop where
  /-- The operation is what its procedure does. -/
  done : (Procedure.ofCommand c).run s = s.exec c
  /-- What becomes of the scheduler is what the recorded acts make of it, one after another. -/
  replayed : (s.exec c).2 = s.replay ((Procedure.ofCommand c).record s)
  /-- Every act is recorded with the interrupts as the acts before it have left them. -/
  faithful : ∀ before entry after,
    (Procedure.ofCommand c).record s = before ++ entry :: after →
      entry.enabled = TimerHardware.interruptsEnabled (s.replay before).hw
  /-- Nothing is done with interrupts enabled but to mask them. -/
  masked : ∀ entry ∈ (Procedure.ofCommand c).record s,
    entry.enabled = true → entry.act = .call .disable
  /-- Afterwards interrupts are enabled if they were before. -/
  enabled : TimerHardware.interruptsEnabled (s.exec c).2.hw =
    TimerHardware.interruptsEnabled s.hw
  /-- If the hardware keeps a journal of its calls nothing else changes, and the journal shows the
  calls that are recorded. -/
  noted : ∀ notes, (s.on (⟨s.hw, notes⟩ : Journal H)).exec c = ((s.exec c).1, (s.exec c).2.on
    ⟨(s.exec c).2.hw, notes ++ ((Procedure.ofCommand c).record s).filterMap Entry.call?⟩)

/-- A `Command` is kept from being interrupted on hardware that `Works`, as `KeepsOut` says. -/
theorem keepsOut (hworks : IrqMask.Works H) (s : Scheduler H K n) (c : Command) :
    KeepsOut s c := by
  have hrun := Procedure.run_ofCommand s c
  have hbalanced := Procedure.balanced_ofCommand hworks c s
  constructor
  case done => exact hrun
  case replayed => rw [← hrun, Procedure.run_snd]
  case faithful => exact fun _ _ _ hrecord => Procedure.enabled_of_record hrecord
  case masked => exact hbalanced.masked
  case enabled =>
    rw [← hrun]
    exact hbalanced.enabled
  case noted =>
    intro notes
    rw [← Procedure.run_ofCommand, ← hrun]
    exact Procedure.run_journal _ s notes

end Scheduler

end SoftTimer
