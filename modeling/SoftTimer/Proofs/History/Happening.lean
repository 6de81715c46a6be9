import SoftTimer.Scheduler.Operations
import SoftTimer.Proofs.Dispatch.Drain

/-!
# What happens to registrations

Whatever a scheduler does to its events comes down to four happenings (`Happening`), each of which
changes one slot. `Pool.Happens` says what each of them requires of the pool and what it does to it,
and `Pool.History` chains them. A drain is a history of firings (`Drain.Drains.history`), and a
change of several slots at once is a history of one change after another
(`Pool.History.of_entries`).
-/

namespace SoftTimer

/-- A registration that was accepted: when, what was asked for, and the number it was given. -/
structure Acceptance where
  /-- When it was accepted. -/
  now : Nat
  /-- What was asked for. -/
  request : Request
  /-- The number it was given. -/
  seq : Nat
deriving DecidableEq, Repr

/-- The event that an `Acceptance` starts as. -/
def Acceptance.event (a : Acceptance) : Event := { a.request.registration a.now with seq := a.seq }

/-- Something that happens to a registration, as an entry of a log. -/
inductive Happening where
  /-- The registration is accepted. -/
  | accepted (a : Acceptance)
  /-- The registration's event fires. -/
  | fired (f : Firing)
  /-- The registration's event skips some occurrences, as time tracking is taken back. -/
  | aligned (e : Event) (skipped : Nat)
  /-- The registration's event is cancelled. -/
  | cancelled (e : Event)
deriving DecidableEq, Repr

namespace Happening

/-- The number `seq` of the registration that something happens to. -/
def seq : Happening → Nat
  | accepted a => a.seq
  | fired f => f.event.seq
  | aligned e _ => e.seq
  | cancelled e => e.seq

/-- The `Firing`, if what happens is one. -/
def firing? : Happening → Option Firing
  | fired f => some f
  | _ => none

/-- How often the event fires in one `Happening`: once or not at all. -/
def fires : Happening → Nat
  | fired _ => 1
  | _ => 0

/-- How many occurrences the event skips in one `Happening`. -/
def skips : Happening → Nat
  | fired f => f.collapsed
  | aligned _ skipped => skipped
  | _ => 0

end Happening

/-- Every `Firing` of a log, in order. -/
def firings (log : List Happening) : List Firing := log.filterMap Happening.firing?

/-- The `firings` of a log of firings alone are those. -/
theorem firings_map_fired (list : List Firing) : firings (list.map .fired) = list := by
  unfold firings
  rw [List.filterMap_map]
  exact List.filterMap_some

/-- A log in which nothing is a firing has no `firings`. -/
theorem firings_map_eq_nil {α : Type} {what : α → Happening} {list : List α}
    (h : ∀ x, (what x).firing? = none) : firings (list.map what) = [] := by
  unfold firings
  rw [List.filterMap_map]
  exact List.filterMap_eq_nil_iff.mpr fun x _ => h x

/-- The `firings` of a log with one more entry are those before and that of the entry. -/
theorem firings_append (log : List Happening) (x : Happening) :
    firings (log ++ [x]) = firings log ++ x.firing?.toList := by
  unfold firings
  rw [List.filterMap_append]
  cases x <;> rfl

/-- The sum of `fires` over a log is the number of its `firings`. -/
theorem sum_fires (log : List Happening) : (log.map (·.fires)).sum = (firings log).length := by
  induction log with
  | nil => rfl
  | cons x rest ih =>
    rw [List.map_cons, List.sum_cons, ih]
    cases x with
    | fired f => exact Nat.add_comm 1 _
    | accepted | aligned | cancelled => exact Nat.zero_add _

namespace Event

/-- `align` moves a due event on by fewer periods than it has due occurrences. -/
theorem align_fst_lt {e : Event} {now : Nat} (hdue : e.timestamp ≤ now) :
    (e.align now).1 < e.occurrencesBy now := by
  unfold align
  cases hrep : e.repeats with
  | true =>
    rw [occurrencesBy_of_repeats hdue hrep, (isDue_iff e now).mpr hdue]
    exact Nat.lt_succ_self _
  | false =>
    rw [occurrencesBy_of_once hdue hrep]
    exact Nat.one_pos

/-- `align` moves a due event to the `occurrence` that comes after those it skips. -/
theorem align_snd_eq_occurrence {e : Event} {now : Nat} (hdue : e.timestamp ≤ now) :
    (e.align now).2 = e.occurrence (e.align now).1 := by
  unfold align
  cases hrep : e.repeats with
  | true =>
    rw [(isDue_iff e now).mpr hdue]
    rfl
  | false => exact e.occurrence_zero.symm

/-- `align` moves a due event on by a `shift` over the periods it skips, short of the end of time.
-/
theorem align_snd {e : Event} {now : Nat} (hnow : now < max64) (hdue : e.timestamp ≤ now) :
    (e.align now).2 = e.shift (e.align now).1 := by
  -- Moving on saturates, lining up does not. Short of the end of time this is no difference.
  rw [shift_eq_occurrence hnow (align_fst_lt hdue)]
  exact align_snd_eq_occurrence hdue

/-- A `shift` by fewer occurrences than are due does not make the `key` smaller, short of the end of
time. -/
theorem key_le_key_shift {e : Event} {now k : Nat} (hnow : now < max64)
    (h : k < e.occurrencesBy now) : e.key ≤ (e.shift k).key := by
  rw [shift_eq_occurrence hnow h]
  exact e.key_le_key_occurrence k

end Event

namespace Pool

variable {n : Nat}

/-- Slot by slot `p'` holds what `p` does, and both have given out the same numbers. -/
structure Same (p p' : Pool n) : Prop where
  /-- Every slot holds the same. -/
  get? : ∀ i, p'.get? i = p.get? i
  /-- The numbers given out are the same. -/
  nextSeq : p'.nextSeq = p.nextSeq

theorem Same.rfl {p : Pool n} : p.Same p := ⟨fun _ => .refl _, .refl _⟩

theorem same_recompute (p : Pool n) : p.Same p.recompute := ⟨fun _ => rfl, rfl⟩

/-- The slot comes to hold `content`, and no other slot changes. -/
def Puts (slot : Nat) (content : Option Event) (p p' : Pool n) : Prop :=
  ∀ i, p'.get? i = if i = slot then content else p.get? i

/-- A happening at `now` turns one pool into another. -/
inductive Happens (now : Nat) : Happening → Pool n → Pool n → Prop
  /-- A registration that makes sense takes a free slot and the next number. -/
  | accepted {a : Acceptance} {slot : Nat} {p p' : Pool n} (hnow : a.now = now)
    (hgood : a.request.repeating = true → 0 < a.request.period.toUs) (hnumber : a.seq = p.nextSeq)
    (hslot : slot < n) (hfree : p.get? slot = none) (hput : Puts slot (some a.event) p p')
    (hseq : p'.nextSeq = p.nextSeq + 1) : Happens now (.accepted a) p p'
  /-- A due event fires, before all that are then pending. It is gone or has moved on, by one due
  occurrence and those it skips. -/
  | fired {f : Firing} {slot : Nat} {p p' : Pool n} (hget : p.get? slot = some f.event)
    (hdue : f.event.timestamp ≤ now) (hskip : f.collapsed < f.event.occurrencesBy now)
    (hfirst : ∀ i e, p'.get? i = some e → f.event.key < e.key) (hput : Puts slot f.rest p p')
    (hseq : p'.nextSeq = p.nextSeq) : Happens now (.fired f) p p'
  /-- A due event moves on by all but one of its due occurrences, or fewer. -/
  | aligned {e : Event} {skipped slot : Nat} {p p' : Pool n} (hget : p.get? slot = some e)
    (hdue : e.timestamp ≤ now) (hskip : skipped < e.occurrencesBy now)
    (hput : Puts slot (some (e.shift skipped)) p p') (hseq : p'.nextSeq = p.nextSeq) :
    Happens now (.aligned e skipped) p p'
  /-- An event is gone. -/
  | cancelled {e : Event} {slot : Nat} {p p' : Pool n} (hget : p.get? slot = some e)
    (hput : Puts slot none p p') (hseq : p'.nextSeq = p.nextSeq) : Happens now (.cancelled e) p p'

/-- Happenings at `now`, one after another, turn one pool into another. -/
inductive History (now : Nat) : List Happening → Pool n → Pool n → Prop
  /-- Nothing happens. -/
  | nil {p p' : Pool n} (h : p.Same p') : History now [] p p'
  /-- One thing happens, and then the rest. -/
  | cons {x : Happening} {rest : List Happening} {p p' p'' : Pool n} (h : Happens now x p p')
    (hrest : History now rest p' p'') : History now (x :: rest) p p''

namespace History

variable {now : Nat}

/-- A `History` to one pool is one to any pool that is the `Same`, whichever slot it remembers. -/
theorem same_right {log : List Happening} {p q q' : Pool n} (h : History now log p q)
    (hsame : q.Same q') : History now log p q' := by
  induction h with
  | nil h =>
    exact .nil ⟨fun i => (hsame.get? i).trans (h.get? i), hsame.nextSeq.trans h.nextSeq⟩
  | cons hx _ ih => exact .cons hx (ih hsame)

/-- What every `Happens` preserves, a `History` preserves. -/
theorem induct {Inv : List Happening → Pool n → Prop}
    (hsame : ∀ {log p p'}, p.Same p' → Inv log p → Inv log p')
    (hstep : ∀ {log x p p'}, Happens now x p p' → Inv log p → Inv (log ++ [x]) p')
    {log more : List Happening} {p q : Pool n} (h : History now more p q) (hinv : Inv log p) :
    Inv (log ++ more) q := by
  induction h generalizing log with
  | nil h =>
    rw [List.append_nil]
    exact hsame h hinv
  | cons hx _ ih =>
    rw [List.append_cons]
    exact ih (hstep hx hinv)

end History

/-- A change of several slots at once is a `History` of one change after another. -/
theorem History.of_entries (what : Event → Happening) (content : Event → Option Event)
    {now : Nat} {entries : List (Nat × Event)} {p q : Pool n} (hnodup : (entries.map (·.1)).Nodup)
    (hget : ∀ x ∈ entries, p.get? x.1 = some x.2)
    (hstep : ∀ x ∈ entries, ∀ a b : Pool n, a.get? x.1 = some x.2 → Puts x.1 (content x.2) a b →
      b.nextSeq = a.nextSeq → Happens now (what x.2) a b)
    (hchanged : ∀ x ∈ entries, q.get? x.1 = content x.2)
    (hkept : ∀ i, i ∉ entries.map (·.1) → q.get? i = p.get? i) (hseq : q.nextSeq = p.nextSeq) :
    History now (entries.map fun x => what x.2) p q := by
  -- Each change is made to the pool that those before it have left, which still holds in the slots
  -- of the others what it held at first, because the slots are different.
  induction entries generalizing p with
  | nil => exact .nil ⟨fun i => hkept i List.not_mem_nil, hseq⟩
  | cons x rest ih =>
    rw [List.map_cons, List.nodup_cons] at hnodup
    obtain ⟨hnew, hnodup⟩ := hnodup
    have hx : p.get? x.1 = some x.2 := hget x List.mem_cons_self
    have hput : Puts x.1 (content x.2) p (p.set x.1 (content x.2)) :=
      get?_set (lt_of_get?_eq_some hx) _
    rw [List.map_cons]
    refine .cons (hstep x List.mem_cons_self _ _ hx hput rfl) (ih hnodup ?_ ?_ ?_ ?_ ?_)
    · intro y hy
      have hne : y.1 ≠ x.1 := fun heq => hnew (heq ▸ List.mem_map_of_mem hy)
      rw [hput, if_neg hne]
      exact hget y (List.mem_cons_of_mem _ hy)
    · exact fun y hy => hstep y (List.mem_cons_of_mem _ hy)
    · exact fun y hy => hchanged y (List.mem_cons_of_mem _ hy)
    · intro i hi
      rw [hput]
      split
      · next heq => rw [heq, hchanged x List.mem_cons_self]
      · next hne =>
        apply hkept
        rw [List.map_cons, List.mem_cons]
        exact fun hmem => hmem.elim hne hi
    · exact hseq

/-- A change of all events that satisfy `accept` at once is a `History` of one change after another.
-/
theorem History.of_filter {what : Event → Happening} (content : Event → Option Event)
    {accept : Event → Bool} {now : Nat} {p q : Pool n}
    (hstep : ∀ {slot : Nat} {e : Event}, accept e = true → ∀ a b : Pool n, a.get? slot = some e →
      Puts slot (content e) a b → b.nextSeq = a.nextSeq → Happens now (what e) a b)
    (hslots : ∀ i, q.get? i = (p.get? i).bind fun e => if accept e then content e else some e)
    (hseq : q.nextSeq = p.nextSeq) : History now ((p.events.filter accept).map what) p q := by
  have hlist : (p.events.filter accept).map what =
      (p.entries.filter fun x => accept x.2).map fun x => what x.2 := by
    unfold events
    rw [List.filter_map, List.map_map]
    rfl
  have hmem : ∀ x : Nat × Event, x ∈ p.entries.filter (fun x => accept x.2) ↔
      p.get? x.1 = some x.2 ∧ accept x.2 = true := by
    intro x
    rw [List.mem_filter, mem_entries]
  rw [hlist]
  refine .of_entries what content ?_ (fun x hx => ((hmem x).mp hx).1) ?_ ?_ ?_ hseq
  · exact p.nodup_entries.sublist (List.filter_sublist.map _)
  · exact fun x hx => hstep ((hmem x).mp hx).2
  · intro x hx
    obtain ⟨hget, haccept⟩ := (hmem x).mp hx
    rw [hslots, hget, Option.bind_some, if_pos haccept]
  · -- A slot that is not listed is free or holds an event of another kind.
    intro i hi
    rw [hslots]
    cases hget : p.get? i with
    | none => rfl
    | some e =>
      have hother : ¬ accept e = true := fun haccept =>
        hi (List.mem_map.mpr ⟨(i, e), (hmem _).mpr ⟨hget, haccept⟩, rfl⟩)
      rw [Option.bind_some, if_neg hother]

end Pool

/-- The firings of `Drains` are a `History` between the pools of the drain. -/
theorem Drain.Drains.history {n : Nat} {config : Config} {now : Nat} (hnow : now < max64)
    {d d' : Drain n} {firings : List Firing} (hready : d.Ready config now)
    (h : Drains config now d firings d') :
    Pool.History now (firings.map .fired) d.pool d'.pool := by
  induction h with
  | done => exact .nil .rfl
  | @fire d d' slot e firings hfirst _ ih =>
    obtain ⟨hget, hdue, -⟩ := Pool.firstDue?_eq_some hfirst
    have hskip := collapsed_lt config d slot hdue
    have hlater : ∀ i e', (d.fire config now slot e).pool.get? i = some e' → e.key < e'.key :=
      fun _ _ hi => key_lt_of_fire hnow hready hfirst hi
    rw [List.map_cons]
    refine .cons ?_ (ih (hready.fire hnow hget hdue))
    exact .fired hget hdue hskip hlater (get?_fire hget hdue) (nextSeq_fire _ _ _ _ _)

end SoftTimer
