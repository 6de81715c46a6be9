import Mathlib.Algebra.Group.Action.Defs
import Mathlib.Algebra.Order.BigOperators.Group.List
import Mathlib.Algebra.Order.Group.Nat
import SoftTimer.Proofs.Dispatch.Interrupt
import SoftTimer.Proofs.Pool.Aging
import SoftTimer.Scheduler.Operations
import SoftTimer.Proofs.Words.Arithmetic

/-!
# Pools on machine words

Accepting a registration counts up the number of the next event. Draining a pool counts the firings
of each event in a 32-bit word, and all firings in a word of the machine, the largest of which is
`word` here.

Accepting fails only when the numbers are used up (`Pool.insert?_eq`). Short of the end of time a
drain fails only when more events fire than a word of the machine can count (`Pool.drain?_eq`), for
which three things are needed. No event fires more often than the configuration lets it, so the
count of each slot stays small (`Drain.Ready`). The drain ends. And no repeating event is due at
time zero (`Pool.Fits`), so each of them can catch up; a pool never comes to have such an event as
it ages (`Pool.Fits.ages`).

How many events fire is a sum over the pending ones (`Pool.size_drain`), of which no more than
`Config.burst` can come from one slot (`Pool.size_drain_le`).
-/

namespace SoftTimer

open Word

/-- The `timestamp` is a 64-bit word, and not zero if the event repeats. -/
structure Event.Fits (e : Event) : Prop where
  /-- The timestamp is a word. -/
  timestamp_le : e.timestamp ≤ max64
  /-- The first occurrence of a repeating event is a period away from the start. -/
  pos : e.repeats = true → 0 < e.timestamp

/-- The registration of a request that makes sense `Fits`, at any time and with any number. -/
theorem Request.registration_fits (r : Request)
    (hgood : r.repeating = true → 0 < r.period.toUs) (now seq : Nat) :
    Event.Fits { r.registration now with seq := seq } where
  timestamp_le := sat64_le _
  pos hrep := by
    rw [Event.repeats_iff] at hrep
    have hpos : 0 < r.period.toUs := by
      by_contra hzero
      have hrepeating : r.repeating = true := by
        by_contra honce
        simp [Request.registration, honce] at hrep
      exact hzero (hgood hrepeating)
    exact Nat.lt_min.mpr ⟨Nat.lt_of_lt_of_le hpos (Nat.le_add_left _ _), by decide⟩

/-- An event that `Fits` still does when it has aged. -/
theorem Event.Fits.ages {e e' : Event} (h : e.Fits) (hages : e.Ages e') : e'.Fits where
  timestamp_le := (hages.timestamp h.timestamp_le).2
  pos hrep := by
    have hle := (hages.timestamp h.timestamp_le).1
    rw [repeats_iff, hages.period, ← repeats_iff] at hrep
    exact Nat.lt_of_lt_of_le (h.pos hrep) hle

namespace Pool

variable {n : Nat} {p p' : Pool n}

/-- Every pending event `Fits`. -/
def Fits (p : Pool n) : Prop := ∀ ⦃slot : Nat⦄ ⦃e : Event⦄, p.get? slot = some e → e.Fits

/-- A pool that `Fits` still does when it has aged. -/
theorem Fits.ages (h : p.Fits) (hages : p.Ages p') : p'.Fits := by
  intro slot e' he'
  obtain ⟨e, he, hold⟩ := hages.get? he'
  exact (h he).ages hold

/-- A pool that `Fits` still does when an event that does is put into a slot. -/
theorem Fits.put (h : p.Fits) {slot : Nat} {e : Event}
    (hput : ∀ i, p'.get? i = if i = slot then some e else p.get? i) (he : e.Fits) : p'.Fits := by
  intro i e' hi
  rw [hput] at hi
  split at hi
  · cases hi
    exact he
  · exact h hi

/-- `insert` on words. The number is counted up before the slot is filled. -/
def insert? (p : Pool n) (r : Registration) : Option (Except TimerError (Nat × Pool n)) :=
  match p.allocate with
  | .error reason => some (.error reason)
  | .ok slot => do
    let nextSeq ← fit? max64 (p.nextSeq + 1)
    let _ ← p.slots[slot]?
    return .ok (slot, { p.set slot (some { r with seq := p.nextSeq }) with nextSeq := nextSeq })

/-- `insert?` does not fail as long as the numbers last. -/
theorem insert?_eq {r : Registration}
    (hlast : ∀ slot p', p.insert r = .ok (slot, p') → p'.nextSeq ≤ max64) :
    p.insert? r = some (p.insert r) := by
  unfold insert? insert allocate at *
  cases hfree : p.freeSlot? with
  | none => rfl
  | some slot =>
    rw [hfree] at hlast
    have hseq : p.nextSeq + 1 ≤ max64 := hlast slot _ rfl
    obtain ⟨content, hcontent⟩ : ∃ content, p.slots[slot]? = some content :=
      ⟨_, Vector.getElem?_eq_getElem (freeSlot?_eq_some hfree).1⟩
    show (fit? max64 (p.nextSeq + 1) >>= _) = _
    rw [fit?_bind _ hseq, hcontent]
    rfl

end Pool

/-- The `burst` of a configuration is a 32-bit word if its bound `maxReplay` is. -/
theorem Config.burst_le {c : Config} (hreplay : c.maxReplay ≤ max32) : c.burst ≤ max32 := by
  unfold burst
  split
  · decide
  · exact Nat.max_le.mpr ⟨by decide, hreplay⟩

namespace Drain

variable {n : Nat}

/-- `moveOn` on words. -/
def moveOn? (config : Config) (now count : Nat) (e : Event) : Option (Nat × Event) :=
  if config.replays count then
    some (0, e.shift 1)
  else do
    let (steps, later) ← e.catchUp? now
    return (steps - 1, later)

/-- `fire` on words. -/
def fire? (word : Nat) (config : Config) (now slot : Nat) (e : Event) (d : Drain n) :
    Option (Drain n) := do
  let _ ← fit? word (d.firings.size + 1)
  if e.repeats then
    let before ← d.counts[slot]?
    let count ← fit? max32 (before + 1)
    let (skipped, later) ← moveOn? config now count e
    return {
      pool := d.pool.set slot (some later)
      counts := d.counts.setIfInBounds slot count
      firings := d.firings.push ⟨e, skipped⟩ }
  else
    return { d with
      pool := (d.pool.release slot).2
      firings := d.firings.push ⟨e, 0⟩ }

/-- `run` on words. It fails as well when an event is still due after so many steps. -/
def run? (word : Nat) (config : Config) (now : Nat) : Nat → Drain n → Option (Drain n)
  | 0, d => if (d.pool.firstDue? now).isNone then some d else none
  | steps + 1, d =>
    match d.pool.firstDue? now with
    | none => some d
    | some (slot, e) => do run? word config now steps (← d.fire? word config now slot e)

variable {word : Nat} {config : Config} {now : Nat}

/-- `moveOn?` does not fail for an event that `Fits`. -/
theorem moveOn?_eq (hnow : now ≤ max64) (count : Nat) {e : Event} (hfits : e.Fits) :
    moveOn? config now count e = some (moveOn config now count e) := by
  unfold moveOn? moveOn
  split
  · rfl
  · rw [Event.catchUp?_eq hnow hfits.pos]
    rfl

/-- `fire?` does not fail for a due event that `Fits`, as long as the firings can be counted. -/
theorem fire?_eq (hnow : now ≤ max64) {d : Drain n} {slot : Nat} {e : Event}
    (hget : d.pool.get? slot = some e) (hfits : e.Fits) (hfired : d.firings.size + 1 ≤ word)
    (hcount : d.count slot + 1 ≤ max32) :
    d.fire? word config now slot e = some (d.fire config now slot e) := by
  obtain ⟨before, hbefore⟩ : ∃ before, d.counts[slot]? = some before :=
    ⟨_, Vector.getElem?_eq_getElem (Pool.lt_of_get?_eq_some hget)⟩
  unfold count at hcount
  unfold fire? fire
  rw [fit?_bind _ hfired]
  cases e.repeats with
  | false => rfl
  | true =>
    rw [hbefore, Option.getD_some] at hcount
    rw [if_pos rfl, if_pos rfl, hbefore, Option.getD_some]
    show (fit? max32 (before + 1) >>= _) = _
    rw [fit?_bind _ hcount, moveOn?_eq hnow _ hfits]
    rfl

/-- `fire?` fails once as many have fired as `word` can count. -/
theorem fire?_eq_none (config : Config) (now slot : Nat) (e : Event) {d : Drain n}
    (hfired : word < d.firings.size + 1) : d.fire? word config now slot e = none := by
  unfold fire? fit?
  rw [if_neg (Nat.not_le.mpr hfired)]
  rfl

/-- With as many steps as there are firings to come, `run?` does not fail if `word` can count all
that has fired in the end, and fails if it cannot. -/
theorem Drains.run?_eq (hnow : now < max64) (hreplay : config.maxReplay ≤ max32)
    {d d' : Drain n} {firings : List Firing} (h : Drains config now d firings d')
    (hready : d.Ready config now) (hfits : d.pool.Fits) (hfired : d.firings.size ≤ word)
    {steps : Nat} (hsteps : firings.length ≤ steps) :
    run? word config now steps d = Option.guard (fun d => d.firings.size ≤ word) d' := by
  induction h generalizing steps with
  | @done d hnone =>
    have hcounted : Option.guard (fun d : Drain n => d.firings.size ≤ word) d = some d :=
      Option.guard_pos (decide_eq_true hfired)
    rw [hcounted]
    cases steps with
    | zero =>
      unfold run?
      rw [hnone]
      rfl
    | succ steps =>
      unfold run?
      rw [hnone]
  | @fire d d' slot e firings hfirst hrest ih =>
    obtain ⟨hget, hdue, -⟩ := Pool.firstDue?_eq_some hfirst
    rw [List.length_cons] at hsteps
    obtain ⟨steps, rfl⟩ := Nat.exists_eq_add_of_le' (Nat.le_trans (Nat.le_add_left 1 _) hsteps)
    have hcount : d.count slot + 1 ≤ max32 :=
      Nat.le_trans (hready.count_lt hget hdue) (Config.burst_le hreplay)
    have hsize : (d.fire config now slot e).firings.size = d.firings.size + 1 := by
      rw [firings_fire, Array.size_push]
    unfold run?
    rw [hfirst]
    show (d.fire? word config now slot e >>= _) = _
    rcases Nat.lt_or_ge word (d.firings.size + 1) with hmany | hfew
    · -- The firings cannot be counted now, and there are only going to be more of them.
      have hgrows : d.firings.size + 1 ≤ d'.firings.size := by
        rw [hrest.firings_eq, Array.size_append, hsize]
        exact Nat.le_add_right _ _
      have huncounted : Option.guard (fun d : Drain n => d.firings.size ≤ word) d' = none :=
        Option.guard_eq_none_iff.mpr (decide_eq_false (by omega))
      rw [fire?_eq_none config now slot e hmany, huncounted]
      rfl
    · rw [fire?_eq (Nat.le_of_lt hnow) hget (hfits hget) hfew hcount]
      exact ih (hready.fire hnow hget hdue) (hfits.ages (ages_fire config hget hdue))
        (by omega) (by omega)

end Drain

namespace Pool

variable {n : Nat}

/-- A `drain` fires as many events as the pending ones have `firingsBy` between them. -/
theorem size_drain {p : Pool n} (config : Config) {now : Nat} (hnow : now < max64)
    (hdistinct : p.Distinct) :
    (p.drain config now).1.size = (p.events.map (·.firingsBy config now)).sum := by
  have hready : (Drain.start p).Ready config now := Drain.ready_start hdistinct
  obtain ⟨firings, d, hdrains, hdrain⟩ := p.drain_eq config hnow
  have hevents := congrArg Multiset.card (hdrains.events_eq hnow hready)
  have hoccurrences : (p.occurrences config now).length =
      (p.events.map (·.firingsBy config now)).sum := by
    unfold occurrences
    simp only [List.length_flatMap, List.length_map, List.length_range]
  rw [upcoming_start, Multiset.coe_card, Multiset.coe_card, List.length_map] at hevents
  rw [hdrain, List.size_toArray, hevents, hoccurrences]

/-- A `drain` fires no more events than the `burst` of the configuration for each slot. -/
theorem size_drain_le {p : Pool n} (config : Config) {now : Nat} (hnow : now < max64)
    (hdistinct : p.Distinct) : (p.drain config now).1.size ≤ n * config.burst := by
  have hevents : p.events.length ≤ n := by
    have hslots := List.length_filterMap_le (fun slot => (p.get? slot).map (slot, ·)) (List.range n)
    rw [List.length_range] at hslots
    rw [events, List.length_map]
    exact hslots
  have hburst : ∀ firings ∈ p.events.map (·.firingsBy config now), firings ≤ config.burst :=
    List.forall_mem_map.mpr fun _ _ => Nat.min_le_right _ _
  have hsum := List.sum_le_card_nsmul _ _ hburst
  rw [List.length_map, smul_eq_mul] at hsum
  calc (p.drain config now).1.size
      = (p.events.map (·.firingsBy config now)).sum := size_drain config hnow hdistinct
    _ ≤ p.events.length * config.burst := hsum
    _ ≤ n * config.burst := Nat.mul_le_mul_right _ hevents

/-- `drain` on words. -/
def drain? (word : Nat) (p : Pool n) (config : Config) (now : Nat) :
    Option (Array Firing × Pool n) := do
  let d ← Drain.run? word config now (p.backlog now) (.start p)
  return (d.firings, d.pool)

/-- Short of the end of time `drain?` does not fail if `word` can count its firings, and fails if it
cannot. -/
theorem drain?_eq {word : Nat} {p : Pool n} {config : Config} {now : Nat} (hnow : now < max64)
    (hreplay : config.maxReplay ≤ max32) (hfits : p.Fits) (hdistinct : p.Distinct) :
    p.drain? word config now =
      Option.guard (fun drained => drained.1.size ≤ word) (p.drain config now) := by
  have hready : (Drain.start p).Ready config now := Drain.ready_start hdistinct
  have hsteps : (Drain.start p).pool.backlog now ≤ p.backlog now := Nat.le_refl _
  obtain ⟨firings, hdrains⟩ := Drain.run_drains config hnow hsteps
  -- Every firing uses up an occurrence that was due.
  have hfew : firings.length ≤ p.backlog now :=
    Nat.le_of_add_right_le (Nat.le_of_eq (hdrains.length_add_sum_collapsed hnow))
  unfold drain? drain
  rw [hdrains.run?_eq hnow hreplay hready hfits (Nat.zero_le word) hfew]
  exact guard_bind_some rfl rfl

end Pool

end SoftTimer
