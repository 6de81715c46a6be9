import Mathlib.Algebra.GroupWithZero.Nat
import Mathlib.Data.Finset.Card
import SoftTimer.Proofs.Bench.Distance
import SoftTimer.Proofs.Clock.Ticks

/-!
# From match to match

A simulated timer is driven by steps, each with the ticks that are left, until a step meets no
channel. Such a sweep misses no match and makes none up: it meets the channels that are armed within
its ticks, each once and after as many ticks as it was away in the beginning, and it takes all its
ticks (`SimTimer.Swept`).

All of it comes down to what one step does to the distances. The channel it stops on is the first of
the armed channels (`step_eq_some_iff`), where a channel comes before another if it is nearer, or
equally near with a lower number (`SimTimer.Sooner`). The counter passes no channel on its way, so
every other distance becomes smaller by the ticks taken and none wraps (`ticksUntil?_met`).
-/

namespace SoftTimer

namespace SimTimer

variable {t t' : SimTimer} {channel ticks maxTicks : Nat}

/-- Of two channels, each with its distance, the first comes before the second: it is nearer, or as
near with a lower number. -/
def Sooner (x y : Nat × Nat) : Prop := x.2 < y.2 ∨ x.2 = y.2 ∧ x.1 < y.1

/-- A channel that comes `Sooner` is no further away. -/
theorem Sooner.le {x y : Nat × Nat} (h : Sooner x y) : x.2 ≤ y.2 :=
  h.elim Nat.le_of_lt fun heq => heq.1.le

/-- Two advances in a row are one `advance` by their sum. -/
theorem advance_advance (t : SimTimer) (a b : Nat) :
    (t.advance a).advance b = t.advance (a + b) := by
  ext1 <;> try rfl
  exact t.width.offset_offset t.counter a b

/-! ## Which channel comes first -/

/-- The list `armed` has the armed channels in ascending order. -/
theorem pairwise_armed (t : SimTimer) : t.armed.Pairwise (·.1 < ·.1) := by
  unfold armed
  rw [List.pairwise_filterMap]
  refine List.pairwise_lt_range.imp fun {i j} hlt x hx y hy => ?_
  obtain ⟨_, -, rfl⟩ := Option.map_eq_some_iff.mp hx
  obtain ⟨_, -, rfl⟩ := Option.map_eq_some_iff.mp hy
  exact hlt

/-- Looking with `nearer` through entries listed by number ends with the one that comes before all
others. -/
theorem foldl_nearer_sooner {entries : List (Nat × Nat)} {best found : Nat × Nat}
    (hlisted : (best :: entries).Pairwise (·.1 < ·.1))
    (hfound : entries.foldl nearer (some best) = some found) :
    ∀ x ∈ best :: entries, x = found ∨ Sooner found x := by
  induction entries generalizing best with
  | nil =>
    cases hfound
    intro x hx
    exact .inl (List.mem_singleton.mp hx)
  | cons next rest ih =>
    obtain ⟨hbest, hlisted'⟩ := List.pairwise_cons.mp hlisted
    have hnumber : best.1 < next.1 := hbest next List.mem_cons_self
    rw [List.foldl_cons, nearer] at hfound
    by_cases hnearer : next.2 < best.2
    · -- The next entry takes over.
      rw [if_pos hnearer] at hfound
      have hrest := ih hlisted' hfound
      refine List.forall_mem_cons.mpr ⟨.inr ?_, hrest⟩
      rcases hrest next List.mem_cons_self with rfl | hnext
      · exact .inl hnearer
      · unfold Sooner at hnext ⊢
        omega
    · rw [if_neg hnearer] at hfound
      have hrest := ih ((List.pairwise_cons.mpr
        ⟨fun x hx => hbest x (List.mem_cons_of_mem _ hx), hlisted'.tail⟩)) hfound
      obtain ⟨hfirst, hothers⟩ := List.forall_mem_cons.mp hrest
      refine List.forall_mem_cons.mpr ⟨hfirst, List.forall_mem_cons.mpr ⟨.inr ?_, hothers⟩⟩
      unfold Sooner at hfirst ⊢
      rcases hfirst with rfl | hsooner
      · omega
      · omega

/-- The channel that `nextCompare?` finds is the one that comes `Sooner` than all other armed
channels. -/
theorem nextCompare?_eq_some_iff :
    t.nextCompare? = some (channel, ticks) ↔ t.ticksUntil? channel = some ticks ∧
      ∀ i distance, t.ticksUntil? i = some distance → i ≠ channel →
        Sooner (channel, ticks) (i, distance) := by
  have hfirst : ∀ {c d}, t.nextCompare? = some (c, d) →
      ∀ i distance, t.ticksUntil? i = some distance → i ≠ c → Sooner (c, d) (i, distance) := by
    intro c d hfound i distance hi hne
    have hmem := mem_armed.mpr hi
    have hlisted := t.pairwise_armed
    unfold nextCompare? at hfound
    cases harmed : t.armed with
    | nil =>
      rw [harmed] at hmem
      cases hmem
    | cons first rest =>
      rw [harmed] at hmem hlisted hfound
      rcases foldl_nearer_sooner hlisted hfound _ hmem with heq | hsooner
      · exact absurd (congrArg Prod.fst heq) hne
      · exact hsooner
  constructor
  · intro hfound
    exact ⟨(nextCompare?_eq_some hfound).1, hfirst hfound⟩
  · rintro ⟨harmed, hsooner⟩
    cases hfound : t.nextCompare? with
    | none =>
      rw [nextCompare?_eq_none hfound] at harmed
      cases harmed
    | some other =>
      obtain ⟨c, d⟩ := other
      have hc := (nextCompare?_eq_some hfound).1
      by_cases heq : c = channel
      · subst heq
        rw [hc] at harmed
        cases harmed
        rfl
      · -- Each of the two would come before the other.
        have hone := hsooner c d hc heq
        have hother := hfirst hfound channel ticks harmed (Ne.symm heq)
        unfold Sooner at hone hother
        omega

/-! ## One step -/

/-- `step` stops on the channel that comes first, if that one is within reach. -/
theorem step_eq_some_iff :
    (t.step maxTicks).1 = some (channel, ticks) ↔
      t.ticksUntil? channel = some ticks ∧ ticks ≤ maxTicks ∧
        ∀ i distance, t.ticksUntil? i = some distance → i ≠ channel →
          Sooner (channel, ticks) (i, distance) := by
  have hreach : (t.step maxTicks).1 = some (channel, ticks) ↔
      t.nextCompare? = some (channel, ticks) ∧ ticks ≤ maxTicks := by
    unfold step
    cases t.nextCompare? with
    | none => simp
    | some found =>
      dsimp only
      split
      · next hle =>
        constructor
        · rintro ⟨⟩
          exact ⟨rfl, hle⟩
        · rintro ⟨⟨⟩, -⟩
          rfl
      · next hfar =>
        constructor
        · rintro ⟨⟩
        · rintro ⟨⟨⟩, hle⟩
          exact absurd hle hfar
  rw [hreach, nextCompare?_eq_some_iff, and_assoc, and_comm (a := ticks ≤ maxTicks)]

/-- `step` meets no channel exactly if none is within reach. -/
theorem step_eq_none_iff :
    (t.step maxTicks).1 = none ↔ ∀ i distance, t.ticksUntil? i = some distance →
      maxTicks < distance := by
  rcases t.step_cases maxTicks with ⟨hstep, hfar⟩ | ⟨channel, ticks, hstep, hle, harmed, -⟩
  · rw [hstep]
    exact iff_of_true rfl hfar
  · rw [hstep]
    refine iff_of_false (Option.some_ne_none _) fun hfar => ?_
    exact absurd hle (Nat.not_le_of_lt (hfar channel ticks harmed))

/-- `step` that stops on a channel moves the counter there and disarms the channel. -/
theorem step_of_some (h : (t.step maxTicks).1 = some (channel, ticks)) :
    (t.step maxTicks).2 = (t.advance ticks).disarm channel := by
  rcases t.step_cases maxTicks with ⟨hstep, -⟩ | ⟨c, d, hstep, -⟩
  · rw [hstep] at h
    cases h
  · rw [hstep] at h ⊢
    cases h
    rfl

/-- `step` that meets no channel goes the whole way. -/
theorem step_of_none (h : (t.step maxTicks).1 = none) :
    (t.step maxTicks).2 = t.advance maxTicks := by
  rcases t.step_cases maxTicks with ⟨hstep, -⟩ | ⟨c, d, hstep, -⟩
  · rw [hstep]
  · rw [hstep] at h
    cases h

/-- A channel is not armed after `disarm`. -/
theorem compare?_disarm_self (t : SimTimer) (channel : Nat) :
    (t.disarm channel).compare? channel = none := by
  unfold disarm compare?
  rw [Vector.getElem?_setIfInBounds_self]
  split <;> rfl

/-- `advance` that does not pass a channel comes nearer to it, by the ticks it takes. -/
theorem ticksUntil?_advance_iff (h : ∀ d, t.ticksUntil? channel = some d → ticks ≤ d)
    (distance : Nat) :
    (t.advance ticks).ticksUntil? channel = some distance ↔
      t.ticksUntil? channel = some (distance + ticks) := by
  cases harmed : t.ticksUntil? channel with
  | none =>
    have hnone : (t.advance ticks).ticksUntil? channel = none := by
      unfold ticksUntil? at harmed ⊢
      rw [Option.map_eq_none_iff] at harmed ⊢
      exact harmed
    rw [hnone]
    exact iff_of_false (fun hsome => nomatch hsome) fun hsome => nomatch hsome
  | some d =>
    have hle := h d harmed
    rw [ticksUntil?_advance harmed hle, Option.some_inj, Option.some_inj]
    omega

/-- `step` that stops on a channel comes nearer to the others, by the ticks it takes. -/
theorem ticksUntil?_met (h : (t.step maxTicks).1 = some (channel, ticks)) (i distance : Nat) :
    (t.step maxTicks).2.ticksUntil? i = some distance ↔
      i ≠ channel ∧ t.ticksUntil? i = some (distance + ticks) := by
  obtain ⟨harmed, -, hfirst⟩ := step_eq_some_iff.mp h
  rw [step_of_some h]
  by_cases hi : i = channel
  · subst hi
    refine iff_of_false (fun hsome => ?_) fun hne => hne.1 rfl
    unfold ticksUntil? at hsome
    rw [compare?_disarm_self] at hsome
    cases hsome
  · have hle : ∀ d, t.ticksUntil? i = some d → ticks ≤ d := fun d hd => (hfirst i d hd hi).le
    have hsame : ((t.advance ticks).disarm channel).ticksUntil? i =
        (t.advance ticks).ticksUntil? i := by
      unfold ticksUntil?
      rw [compare?_disarm hi]
      rfl
    rw [hsame, ticksUntil?_advance_iff hle, and_iff_right hi]

/-- No other channel was nearer than the one that `step` stops on. -/
theorem ticksUntil?_met_of_ne (h : (t.step maxTicks).1 = some (channel, ticks)) {i distance : Nat}
    (hne : i ≠ channel) (hi : t.ticksUntil? i = some distance) :
    ticks ≤ distance ∧ (t.step maxTicks).2.ticksUntil? i = some (distance - ticks) := by
  have hle : ticks ≤ distance := ((step_eq_some_iff.mp h).2.2 i distance hi hne).le
  refine ⟨hle, (ticksUntil?_met h i _).mpr ⟨hne, ?_⟩⟩
  rw [Nat.sub_add_cancel hle, hi]

/-- `step` after one that met no channel is a longer step from where that one began. -/
theorem step_step {a : Nat} (h : (t.step a).1 = none) (b : Nat) :
    t.step (a + b) = (((t.step a).2.step b).1.map fun found => (found.1, a + found.2),
      ((t.step a).2.step b).2) := by
  have hfar := step_eq_none_iff.mp h
  have hnearer : ∀ {i distance}, t.ticksUntil? i = some distance →
      a < distance ∧ (t.advance a).ticksUntil? i = some (distance - a) := fun hi =>
    ⟨hfar _ _ hi, ticksUntil?_advance hi (Nat.le_of_lt (hfar _ _ hi))⟩
  rw [step_of_none h]
  cases hnext : ((t.advance a).step b).1 with
  | none =>
    have hfar' := step_eq_none_iff.mp hnext
    have hnone : (t.step (a + b)).1 = none := by
      rw [step_eq_none_iff]
      intro i distance hi
      obtain ⟨hlt, hafter⟩ := hnearer hi
      have hlt' := hfar' i _ hafter
      omega
    rw [step_of_none hnext, advance_advance, ← step_of_none hnone]
    exact Prod.ext hnone rfl
  | some found =>
    obtain ⟨c, d⟩ := found
    obtain ⟨harmed, hle, hfirst⟩ := step_eq_some_iff.mp hnext
    have hsome : (t.step (a + b)).1 = some (c, a + d) := by
      have hbefore : t.ticksUntil? c = some (d + a) :=
        (ticksUntil?_advance_iff (fun d hd => Nat.le_of_lt (hfar c d hd)) d).mp harmed
      rw [step_eq_some_iff, Nat.add_comm a d]
      refine ⟨hbefore, by omega, fun i distance hi hne => ?_⟩
      obtain ⟨hlt, hafter⟩ := hnearer hi
      have hsooner := hfirst i _ hafter hne
      unfold Sooner at hsooner ⊢
      omega
    rw [step_of_some hnext, advance_advance, ← step_of_some hsome]
    exact Prod.ext hsome rfl

/-! ## Step after step -/

/-- Each `step` is taken with the ticks that are left, until one meets no channel. -/
inductive Sweeps : SimTimer → Nat → List (Nat × Nat) → SimTimer → Prop
  /-- No channel is met with what is left. -/
  | done {t : SimTimer} {left : Nat} (hnone : (t.step left).1 = none) :
    Sweeps t left [] (t.step left).2
  /-- A channel is met, and what is left afterwards is used for further steps. -/
  | met {t t' : SimTimer} {left channel ticks : Nat} {later : List (Nat × Nat)}
    (hsome : (t.step left).1 = some (channel, ticks))
    (hlater : Sweeps (t.step left).2 (left - ticks) later t') :
    Sweeps t left ((channel, ticks) :: later) t'

/-- The channels that are armed no more than `ticks` ahead of the counter. -/
def within (t : SimTimer) (ticks : Nat) : Finset Nat :=
  (Finset.range 4).filter fun i => (t.ticksUntil? i).any (· ≤ ticks)

/-- A channel is `within` some ticks if it is armed and no further away. -/
theorem mem_within : channel ∈ t.within ticks ↔
    ∃ distance, t.ticksUntil? channel = some distance ∧ distance ≤ ticks := by
  unfold within
  rw [Finset.mem_filter, Finset.mem_range, Option.any_eq_true]
  simp only [decide_eq_true_eq]
  exact and_iff_right_of_imp fun ⟨distance, harmed, _⟩ => lt_of_ticksUntil? harmed

/-- After a `step` that stops on a channel there are those to meet that there were, as far ahead,
but for this one. -/
theorem within_met (h : (t.step maxTicks).1 = some (channel, ticks)) (more : Nat) :
    (t.step maxTicks).2.within more = (t.within (ticks + more)).erase channel := by
  ext i
  rw [Finset.mem_erase, mem_within, mem_within]
  constructor
  · rintro ⟨distance, hi, hnear⟩
    obtain ⟨hne, hbefore⟩ := (ticksUntil?_met h i distance).mp hi
    exact ⟨hne, distance + ticks, hbefore, by omega⟩
  · rintro ⟨hne, distance, hi, hnear⟩
    obtain ⟨hle, hafter⟩ := ticksUntil?_met_of_ne h hne hi
    exact ⟨distance - ticks, hafter, by omega⟩

/-- After a `step` that stops on a channel the ticks that it leaves meet all that were `within` its
own, but for this one. -/
theorem within_left (h : (t.step maxTicks).1 = some (channel, ticks)) :
    (t.step maxTicks).2.within (maxTicks - ticks) = (t.within maxTicks).erase channel := by
  rw [within_met h, Nat.add_sub_cancel' (step_eq_some_iff.mp h).2.1]

/-- The channel that `step` stops on is one of those `within` its ticks. -/
theorem mem_within_of_met (h : (t.step maxTicks).1 = some (channel, ticks)) :
    channel ∈ t.within maxTicks := by
  obtain ⟨harmed, hle, -⟩ := step_eq_some_iff.mp h
  exact mem_within.mpr ⟨ticks, harmed, hle⟩

/-- `Sweeps` come to an end: each match leaves one channel less to meet. -/
theorem exists_sweeps (t : SimTimer) (left : Nat) : ∃ met t', Sweeps t left met t' := by
  cases hstep : (t.step left).1 with
  | none => exact ⟨[], _, .done hstep⟩
  | some found =>
    obtain ⟨later, t', hlater⟩ := exists_sweeps (t.step left).2 (left - found.2)
    exact ⟨found :: later, t', .met hstep hlater⟩
termination_by (t.within left).card
decreasing_by
  rw [within_left hstep]
  exact Finset.card_erase_lt_of_mem (mem_within_of_met hstep)

namespace Sweeps

variable {left : Nat} {met : List (Nat × Nat)}

/-- The matches of `Sweeps` take no more than all the ticks. -/
theorem ticks_le (h : Sweeps t left met t') : (met.map (·.2)).sum ≤ left := by
  induction h with
  | done => exact Nat.zero_le _
  | met hsome _ ih =>
    have hle := (step_eq_some_iff.mp hsome).2.1
    rw [List.map_cons, List.sum_cons]
    omega

/-- `Sweeps` move the counter on by all the ticks, and change nothing else but the channels. -/
theorem moved (h : Sweeps t left met t') :
    t' = { t.advance left with channels := t'.channels } := by
  induction h with
  | done hnone => rw [step_of_none hnone]
  | @met t t' left channel ticks later hsome _ ih =>
    have hle := (step_eq_some_iff.mp hsome).2.1
    have hway : ((t.advance ticks).advance (left - ticks)) = t.advance left := by
      rw [advance_advance, Nat.add_sub_cancel' hle]
    rw [step_of_some hsome] at ih
    rw [ih, ← hway]
    rfl

/-- `Sweeps` meet exactly the channels that are `within` the ticks. -/
theorem mem_iff (h : Sweeps t left met t') (i : Nat) :
    i ∈ met.map (·.1) ↔ i ∈ t.within left := by
  induction h with
  | done hnone =>
    refine iff_of_false List.not_mem_nil fun hmem => ?_
    obtain ⟨distance, harmed, hle⟩ := mem_within.mp hmem
    exact absurd hle (Nat.not_le_of_lt (step_eq_none_iff.mp hnone i distance harmed))
  | @met t t' left channel ticks later hsome _ ih =>
    rw [List.map_cons, List.mem_cons, ih, within_left hsome, Finset.mem_erase]
    constructor
    · rintro (rfl | ⟨-, hi⟩)
      · exact mem_within_of_met hsome
      · exact hi
    · intro hi
      by_cases hne : i = channel
      · exact .inl hne
      · exact .inr ⟨hne, hi⟩

/-- What `Sweeps` meet later is another channel than the one that is met first. -/
theorem ne_of_mem_later {channel ticks : Nat} {later : List (Nat × Nat)}
    (hsome : (t.step left).1 = some (channel, ticks))
    (hlater : Sweeps (t.step left).2 (left - ticks) later t') {i : Nat}
    (hi : i ∈ later.map (·.1)) : i ≠ channel := by
  rw [hlater.mem_iff, within_left hsome] at hi
  exact (Finset.mem_erase.mp hi).1

/-- `Sweeps` meet no channel twice. -/
theorem nodup (h : Sweeps t left met t') : (met.map (·.1)).Nodup := by
  induction h with
  | done => exact List.nodup_nil
  | met hsome hlater ih =>
    rw [List.map_cons, List.nodup_cons]
    exact ⟨fun hmem => ne_of_mem_later hsome hlater hmem rfl, ih⟩

/-- `Sweeps` disarm the channels that they meet and no others. -/
theorem compare?_eq (h : Sweeps t left met t') (i : Nat) :
    t'.compare? i = if i ∈ met.map (·.1) then none else t.compare? i := by
  induction h with
  | done hnone =>
    rw [List.map_nil, if_neg List.not_mem_nil, step_of_none hnone]
    rfl
  | @met t t' left channel ticks later hsome hlater ih =>
    rw [ih, step_of_some hsome, List.map_cons]
    by_cases hlist : i ∈ later.map (·.1)
    · rw [if_pos hlist, if_pos (List.mem_cons_of_mem _ hlist)]
    · rw [if_neg hlist]
      by_cases hi : i = channel
      · rw [hi, compare?_disarm_self, if_pos List.mem_cons_self]
      · rw [compare?_disarm hi, if_neg (List.not_mem_cons_of_ne_of_not_mem hi hlist)]
        rfl

/-- `Sweeps` meet a channel after as many ticks as it was away in the beginning. -/
theorem timely (h : Sweeps t left met t') {before after : List (Nat × Nat)} {channel ticks : Nat}
    (hmet : met = before ++ (channel, ticks) :: after) :
    t.ticksUntil? channel = some ((before.map (·.2)).sum + ticks) := by
  induction h generalizing before with
  | done => exact absurd hmet.symm (List.append_ne_nil_of_right_ne_nil _ (List.cons_ne_nil _ _))
  | met hsome _ ih =>
    cases before with
    | nil =>
      cases hmet
      rw [List.map_nil, List.sum_nil, Nat.zero_add]
      exact (step_eq_some_iff.mp hsome).1
    | cons first before =>
      cases hmet
      have hrest := (ticksUntil?_met hsome _ _).mp (ih rfl)
      rw [hrest.2, List.map_cons, List.sum_cons]
      congr 1
      omega

/-- Of two channels `Sweeps` meet the one first that comes `Sooner`. -/
theorem sorted (h : Sweeps t left met t') : (met.map (·.1)).Pairwise fun i j => ∀ d d',
    t.ticksUntil? i = some d → t.ticksUntil? j = some d' → Sooner (i, d) (j, d') := by
  induction h with
  | done => exact .nil
  | @met t t' left channel ticks later hsome hlater ih =>
    obtain ⟨harmed, -, hfirst⟩ := step_eq_some_iff.mp hsome
    have hother : ∀ {i d}, i ∈ later.map (·.1) → t.ticksUntil? i = some d →
        Sooner (channel, ticks) (i, d) ∧
          (t.step left).2.ticksUntil? i = some (d - ticks) := by
      intro i d hmem hi
      have hne := ne_of_mem_later hsome hlater hmem
      exact ⟨hfirst i d hi hne, (ticksUntil?_met_of_ne hsome hne hi).2⟩
    rw [List.map_cons, List.pairwise_cons]
    constructor
    · intro j hj d d' hd hd'
      rw [harmed] at hd
      cases hd
      exact (hother hj hd').1
    · -- All distances have become smaller by the same number of ticks.
      refine ih.imp_of_mem fun {i j} hi hj hij d d' hd hd' => ?_
      obtain ⟨hsooner, hi'⟩ := hother hi hd
      obtain ⟨hsooner', hj'⟩ := hother hj hd'
      have hrest := hij _ _ hi' hj'
      unfold Sooner at hsooner hsooner' hrest ⊢
      omega

end Sweeps

/-! ## All that stepping does -/

/-- What comes of `Sweeps` with some ticks: the channels met, each after how many ticks, and the
timer in the end. -/
structure Swept (t : SimTimer) (maxTicks : Nat) (met : List (Nat × Nat)) (t' : SimTimer) :
    Prop where
  /-- The matches take no more than all the ticks. -/
  ticks_le : (met.map (·.2)).sum ≤ maxTicks
  /-- The counter moves on by all the ticks, and nothing else but the channels changes. -/
  moved : t' = { t.advance maxTicks with channels := t'.channels }
  /-- Exactly the channels are met that are armed within the ticks. -/
  met_iff : ∀ channel, channel ∈ met.map (·.1) ↔
    ∃ distance, t.ticksUntil? channel = some distance ∧ distance ≤ maxTicks
  /-- No channel is met twice. -/
  once : (met.map (·.1)).Nodup
  /-- A channel is met after as many ticks as it was away in the beginning. -/
  timely : ∀ before channel ticks after, met = before ++ (channel, ticks) :: after →
    t.ticksUntil? channel = some ((before.map (·.2)).sum + ticks)
  /-- Of two channels the one is met first that was nearer in the beginning, or that has the lower
  number if they were equally near. -/
  sorted : (met.map (·.1)).Pairwise fun i j => ∀ d d', t.ticksUntil? i = some d →
    t.ticksUntil? j = some d' → d < d' ∨ d = d' ∧ i < j
  /-- A channel that was met is not armed any more. -/
  disarmed : ∀ channel ∈ met.map (·.1), t'.compare? channel = none
  /-- Any other channel is armed as before, and the counter has come nearer to it by all the ticks.
  -/
  kept : ∀ channel, channel ∉ met.map (·.1) → t'.compare? channel = t.compare? channel ∧
    ∀ distance, t.ticksUntil? channel = some distance →
      maxTicks < distance ∧ t'.ticksUntil? channel = some (distance - maxTicks)

/-- `Sweeps` miss no match and make none up, as `Swept` says. -/
theorem Sweeps.swept {met : List (Nat × Nat)} (h : Sweeps t maxTicks met t') :
    Swept t maxTicks met t' := by
  have hmet : ∀ channel, channel ∈ met.map (·.1) ↔
      ∃ distance, t.ticksUntil? channel = some distance ∧ distance ≤ maxTicks := fun channel =>
    (h.mem_iff channel).trans mem_within
  constructor
  case ticks_le => exact h.ticks_le
  case moved => exact h.moved
  case met_iff => exact hmet
  case once => exact h.nodup
  case timely => exact fun before channel ticks after => h.timely
  case sorted => exact h.sorted
  case disarmed =>
    intro channel hmem
    rw [h.compare?_eq, if_pos hmem]
  case kept =>
    intro channel hmem
    have hsame : t'.compare? channel = t.compare? channel := by
      rw [h.compare?_eq, if_neg hmem]
    refine ⟨hsame, fun distance harmed => ?_⟩
    have hlt : maxTicks < distance := by
      by_contra hle
      exact hmem ((hmet channel).mpr ⟨distance, harmed, Nat.le_of_not_lt hle⟩)
    have hwidth : t'.width = t.width := by rw [h.moved]; rfl
    have hcounter : t'.counter = t.width.offset t.counter maxTicks := by rw [h.moved]; rfl
    exact ⟨hlt, ticksUntil?_moved hwidth hcounter hsame harmed (Nat.le_of_lt hlt)⟩

/-- What `step` does on a simulated timer: a step, step after step, and a step cut in two. -/
structure Unerring (t : SimTimer) : Prop where
  /-- A step meets a channel exactly if one is armed within reach. -/
  meets_iff : ∀ maxTicks, (t.step maxTicks).1.isSome ↔
    ∃ channel distance, t.ticksUntil? channel = some distance ∧ distance ≤ maxTicks
  /-- The channel is the nearest of those that are armed, with the lowest number of those equally
  near. -/
  met_iff : ∀ maxTicks channel ticks, (t.step maxTicks).1 = some (channel, ticks) ↔
    t.ticksUntil? channel = some ticks ∧ ticks ≤ maxTicks ∧
      ∀ i distance, t.ticksUntil? i = some distance → i ≠ channel →
        ticks < distance ∨ ticks = distance ∧ channel < i
  /-- The counter moves on to the channel met, which is disarmed. Every other channel is armed as
  before, and the counter has come nearer to it by as many ticks. -/
  met : ∀ maxTicks channel ticks, (t.step maxTicks).1 = some (channel, ticks) →
    (t.step maxTicks).2 = (t.advance ticks).disarm channel ∧
      (t.step maxTicks).2.compare? channel = none ∧
      ∀ i, i ≠ channel → (t.step maxTicks).2.compare? i = t.compare? i ∧
        ∀ distance, t.ticksUntil? i = some distance →
          ticks ≤ distance ∧ (t.step maxTicks).2.ticksUntil? i = some (distance - ticks)
  /-- If none is met the counter moves on all the way, and comes nearer to every armed channel. -/
  passed : ∀ maxTicks, (t.step maxTicks).1 = none →
    (t.step maxTicks).2 = t.advance maxTicks ∧
      ∀ i distance, t.ticksUntil? i = some distance →
        maxTicks < distance ∧ (t.step maxTicks).2.ticksUntil? i = some (distance - maxTicks)
  /-- Stepping with what is left ends. -/
  sweeps : ∀ maxTicks, ∃ met t', Sweeps t maxTicks met t'
  /-- A sweep misses no match and makes none up. -/
  swept : ∀ maxTicks met t', Sweeps t maxTicks met t' → Swept t maxTicks met t'
  /-- A step after one that met no channel stops where a step of both lengths stops. -/
  split : ∀ a b, (t.step a).1 = none →
    t.step (a + b) = (((t.step a).2.step b).1.map fun found => (found.1, a + found.2),
      ((t.step a).2.step b).2)

/-- Steps of a `SimTimer` neither lose matches nor double them, whatever the width, the counter and
the channels, as `Unerring` says. -/
theorem unerring (t : SimTimer) : t.Unerring := by
  constructor
  case meets_iff =>
    intro maxTicks
    rw [← Option.ne_none_iff_isSome, Ne, step_eq_none_iff]
    push Not
    rfl
  case met_iff => exact fun maxTicks channel ticks => step_eq_some_iff
  case met =>
    intro maxTicks channel ticks h
    have hstep := step_of_some h
    refine ⟨hstep, ?_, fun i hne => ⟨?_, fun distance => ticksUntil?_met_of_ne h hne⟩⟩
    · rw [hstep]
      exact compare?_disarm_self _ _
    · rw [hstep, compare?_disarm hne]
      rfl
  case passed =>
    intro maxTicks h
    have hstep := step_of_none h
    refine ⟨hstep, fun i distance harmed => ?_⟩
    have hlt := step_eq_none_iff.mp h i distance harmed
    rw [hstep]
    exact ⟨hlt, ticksUntil?_advance harmed (Nat.le_of_lt hlt)⟩
  case sweeps => exact t.exists_sweeps
  case swept => exact fun maxTicks met t' h => h.swept
  case split => exact fun a b h => step_step h b

end SimTimer

end SoftTimer
