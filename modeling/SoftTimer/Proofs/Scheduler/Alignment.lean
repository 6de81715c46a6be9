import SoftTimer.Proofs.Dispatch.Occurrences
import SoftTimer.Proofs.Pool.Contents
import SoftTimer.Scheduler.Suspend

/-!
# Lining up slot by slot

Time tracking is taken back by lining up all due events in one go (`Scheduler.alignDue`). The same
comes of going through the slots one after another (`Scheduler.alignSlots`), looking at each whether
its event is due, counting it if so, and lining it up before the next slot is looked at.

When the first few slots have been gone through, their due events have been counted and lined up,
and the other slots have not changed (`Scheduler.alignSlots_eq`).
-/

namespace SoftTimer

namespace Pool

variable {n : Nat}

/-- The due events of the slots below `slots`, in ascending order. -/
def overdueBelow (p : Pool n) (slots now : Nat) : List Event :=
  ((List.range slots).filterMap p.get?).filter (·.isDue now)

/-- One more slot adds its event to `overdueBelow` if it is due. -/
theorem overdueBelow_succ (p : Pool n) (slot now : Nat) :
    p.overdueBelow (slot + 1) now =
      p.overdueBelow slot now ++ ((p.get? slot).filter (·.isDue now)).toList := by
  have hone : List.filterMap p.get? [slot] = (p.get? slot).toList := by
    cases hget : p.get? slot <;> simp [hget]
  unfold overdueBelow
  rw [List.range_succ, List.filterMap_append, List.filter_append, hone, Option.toList_filter]

/-- No more events are `overdueBelow` than there are slots. -/
theorem length_overdueBelow_le (p : Pool n) (slots now : Nat) :
    (p.overdueBelow slots now).length ≤ slots := by
  have hevents := List.length_filterMap_le p.get? (List.range slots)
  rw [List.length_range] at hevents
  exact Nat.le_trans (List.length_filter_le _ _) hevents

/-- The events `overdueBelow` the capacity are all that are `overdue`. -/
theorem overdueBelow_all (p : Pool n) (now : Nat) : p.overdueBelow n now = p.overdue now := by
  have hevents : p.events = (List.range n).filterMap p.get? := by
    simp [events, entries, List.map_filterMap, Option.map_map, Function.comp_def]
  unfold overdueBelow overdue
  rw [hevents]

end Pool

namespace Scheduler

variable {H K : Type} {n : Nat}

/-- Lines up the event of a slot if it is due, counts what it skips, and adds one to the number
`due`. -/
def alignSlot (slot due : Nat) (s : Scheduler H K n) : Nat × Scheduler H K n :=
  match (s.pool.get? slot).filter (·.isDue s.clock.timeUs) with
  | none => (due, s)
  | some e =>
    let (skipped, later) := e.align s.clock.timeUs
    (due + 1, { s with
      pool := s.pool.set slot (some later)
      stats := s.stats.recordCollapsed skipped })

/-- Goes through some slots one after another with `alignSlot`, counting the due events from zero.
-/
def alignSlots (slots : List Nat) (s : Scheduler H K n) : Nat × Scheduler H K n :=
  slots.foldl (fun (due, s) slot => s.alignSlot slot due) (0, s)

/-- The number of events `overdueBelow` a slot, and the scheduler with what they skip counted and
its pool replaced. -/
def alignedBelow (slots : Nat) (p : Pool n) (s : Scheduler H K n) : Nat × Scheduler H K n :=
  let due := s.pool.overdueBelow slots s.clock.timeUs
  (due.length, { s with
    pool := p
    stats := due.foldl (fun stats e => stats.recordCollapsed (e.align s.clock.timeUs).1) s.stats })

/-- The pool `p'` is `p` with its due events below `slots` lined up. -/
structure AlignedBelow (slots now : Nat) (p p' : Pool n) : Prop where
  /-- The first slots hold their events lined up, and the others what they held. -/
  get? : ∀ i, p'.get? i =
    if i < slots then (p.get? i).map fun e => (e.align now).2 else p.get? i
  /-- The pool remembers the same slot. -/
  next : p'.next = p.next
  /-- The pool has given out as many numbers. -/
  nextSeq : p'.nextSeq = p.nextSeq

variable {s : Scheduler H K n}

/-- `alignSlot` of the next slot changes that slot of an `AlignedBelow` pool and no other. -/
theorem alignSlot_alignedBelow {slot : Nat} (hslot : slot < n) {p : Pool n}
    (h : AlignedBelow slot s.clock.timeUs s.pool p) :
    ∃ p', AlignedBelow (slot + 1) s.clock.timeUs s.pool p' ∧
      alignSlot slot (s.alignedBelow slot p).1 (s.alignedBelow slot p).2 =
        s.alignedBelow (slot + 1) p' := by
  have hsame : p.get? slot = s.pool.get? slot := by
    rw [h.get?, if_neg (Nat.lt_irrefl slot)]
  -- It is enough to put the lined-up event into the slot.
  have hput : ∀ p' : Pool n, p'.next = p.next → p'.nextSeq = p.nextSeq →
      (∀ i, p'.get? i = if i = slot then
        (s.pool.get? slot).map fun e => (e.align s.clock.timeUs).2 else p.get? i) →
      AlignedBelow (slot + 1) s.clock.timeUs s.pool p' := by
    intro p' hnext hseq hget
    refine ⟨fun i => ?_, hnext.trans h.next, hseq.trans h.nextSeq⟩
    rw [hget, h.get?]
    by_cases hi : i = slot
    · rw [if_pos hi, if_pos (by omega), hi]
    · rw [if_neg hi]
      exact if_congr (by omega) rfl rfl
  unfold alignSlot alignedBelow
  dsimp only
  rw [s.pool.overdueBelow_succ slot s.clock.timeUs, hsame]
  cases hdue : (s.pool.get? slot).filter (·.isDue s.clock.timeUs) with
  | none =>
    -- There is no event in the slot, or it is not due and would not move.
    refine ⟨p, hput p rfl rfl fun i => ?_, ?_⟩
    · split
      · next hi =>
        rw [hi, hsame]
        cases hevent : s.pool.get? slot with
        | none => rfl
        | some e =>
          rw [hevent, Option.filter_eq_none_iff] at hdue
          have hnot := Event.align_of_lt ((Event.isDue_eq_false e s.clock.timeUs).mp
            (Bool.eq_false_iff.mpr (hdue e rfl)))
          rw [Option.map_some, hnot]
      · rfl
    · rw [Option.toList_none, List.append_nil]
  | some e =>
    obtain ⟨hevent, -⟩ := Option.filter_eq_some_iff.mp hdue
    refine ⟨p.set slot (some (e.align s.clock.timeUs).2), hput _ rfl rfl fun i => ?_, ?_⟩
    · rw [Pool.get?_set hslot, hevent, Option.map_some]
    · rw [Option.toList_some, List.length_append, List.foldl_append]
      rfl

/-- `alignSlots` over the first slots leads to a pool that is `AlignedBelow`, with its due events
counted. -/
theorem alignSlots_range {slots : Nat} (hslots : slots ≤ n) :
    ∃ p, AlignedBelow slots s.clock.timeUs s.pool p ∧
      s.alignSlots (List.range slots) = s.alignedBelow slots p := by
  induction slots with
  | zero => exact ⟨s.pool, ⟨fun _ => rfl, rfl, rfl⟩, rfl⟩
  | succ slot ih =>
    obtain ⟨p, hp, hbelow⟩ := ih (Nat.le_of_succ_le hslots)
    obtain ⟨p', hp', hstep⟩ := alignSlot_alignedBelow hslots hp
    refine ⟨p', hp', ?_⟩
    unfold alignSlots at hbelow ⊢
    rw [List.range_succ, List.foldl_append, hbelow, List.foldl_cons, List.foldl_nil]
    exact hstep

/-- `alignSlots` over all slots does what `alignDue` does. -/
theorem alignSlots_eq (s : Scheduler H K n) : s.alignSlots (List.range n) = s.alignDue := by
  obtain ⟨p, hp, hbelow⟩ := alignSlots_range (s := s) (Nat.le_refl n)
  have hpool : p = (s.pool.alignAll s.clock.timeUs).2 := by
    refine Pool.ext_get? (fun i => ?_) hp.next hp.nextSeq
    show p.get? i = (s.pool.map _).get? i
    rw [hp.get?, Pool.get?_map]
    split
    · rfl
    · next hi => rw [Pool.get?_eq_none_of_le (Nat.le_of_not_lt hi), Option.map_none]
  rw [hbelow, hpool]
  unfold alignedBelow alignDue
  rw [Pool.overdueBelow_all]

/-- `alignSlots` counts no more due events than it has gone through slots. -/
theorem alignSlots_fst_le {slots : Nat} (hslots : slots ≤ n) :
    (s.alignSlots (List.range slots)).1 ≤ slots := by
  obtain ⟨p, -, hbelow⟩ := alignSlots_range (s := s) hslots
  rw [hbelow]
  exact s.pool.length_overdueBelow_le slots s.clock.timeUs

end Scheduler

end SoftTimer
