import Mathlib.Data.Nat.Basic
import SoftTimer.SimTimer.Bench
import SoftTimer.Proofs.Passes

/-!
# Distances on the bench

A distance on a wrapping counter is the one number below a full turn that leads from a reading to
another (`CounterWidth.elapsed_unique`). So a counter that moves on comes nearer to what lies ahead
(`elapsed_offset_left`) and further from what lies behind (`elapsed_offset_right`), by as many ticks
as it moves.

The nearest armed channel of a simulated timer is one that is armed, and no other is nearer
(`SimTimer.nextCompare?_eq_some`). A step therefore never passes an armed channel: either it stays
short of them all, or it stops on one of the nearest (`SimTimer.step_cases`).
-/

namespace SoftTimer

namespace CounterWidth

variable (w : CounterWidth)

/-- The distance `elapsed` leads from the one reading to the other. -/
theorem reduce_add_elapsed (start stop : Nat) :
    (w.reduce start + w.elapsed start stop) % w.modulus = w.reduce stop := by
  have hstart := w.reduce_lt start
  have hstop := w.reduce_lt stop
  have hsum : w.reduce start + (w.reduce stop + w.modulus - w.reduce start) =
      w.reduce stop + w.modulus := by omega
  calc (w.reduce start + w.elapsed start stop) % w.modulus
      = (w.reduce start + (w.reduce stop + w.modulus - w.reduce start)) % w.modulus :=
        Nat.add_mod_mod _ _ _
    _ = (w.reduce stop + w.modulus) % w.modulus := by rw [hsum]
    _ = w.reduce stop := by rw [Nat.add_mod_right, Nat.mod_eq_of_lt hstop]

/-- Only the distance `elapsed` leads from the one reading to the other in less than a turn. -/
theorem elapsed_unique {start stop ticks : Nat} (hlt : ticks < w.modulus)
    (h : (w.reduce start + ticks) % w.modulus = w.reduce stop) :
    w.elapsed start stop = ticks := by
  have hoffset : w.offset start ticks = w.reduce stop := by
    rw [← h]
    unfold offset reduce
    rw [Nat.mod_add_mod]
  -- Only the low bits of the second reading matter.
  have hstop : w.elapsed start (w.reduce stop) = w.elapsed start stop := by
    unfold elapsed
    rw [reduce_of_lt (w.reduce_lt stop)]
  calc w.elapsed start stop = w.elapsed start (w.offset start ticks) := by rw [hoffset, hstop]
    _ = ticks := elapsed_offset start hlt

/-- The reading of a counter after `offset` is its own and the ticks, within a turn. -/
theorem reduce_offset (base ticks : Nat) :
    w.reduce (w.offset base ticks) = (w.reduce base + ticks) % w.modulus := by
  rw [reduce_of_lt (w.offset_lt base ticks)]
  unfold offset reduce
  rw [Nat.mod_add_mod]

/-- The distance to what lies ahead of a counter is `ticks` less after `offset` by that many. -/
theorem elapsed_offset_left {base stop ticks : Nat} (h : ticks ≤ w.elapsed base stop) :
    w.elapsed (w.offset base ticks) stop = w.elapsed base stop - ticks := by
  have hlt := w.elapsed_lt base stop
  apply elapsed_unique
  · omega
  · have hsum : w.reduce base + ticks + (w.elapsed base stop - ticks) =
        w.reduce base + w.elapsed base stop := by omega
    rw [reduce_offset, Nat.mod_add_mod, hsum, reduce_add_elapsed]

/-- The distance from what lies behind a counter is `ticks` more after `offset` by that many, if
both are less than a turn. -/
theorem elapsed_offset_right {start base ticks : Nat}
    (h : w.elapsed start base + ticks < w.modulus) :
    w.elapsed start (w.offset base ticks) = w.elapsed start base + ticks := by
  apply elapsed_unique w h
  rw [← Nat.add_assoc, ← Nat.mod_add_mod, reduce_add_elapsed, reduce_offset]

end CounterWidth

namespace SimTimer

variable {t : SimTimer}

/-! ## Channels -/

/-- `armChannel` arms a channel of the timer and leaves the others alone. -/
theorem compare?_armChannel {channel : Nat} (h : channel < 4) (reading i : Nat) :
    (t.armChannel channel reading).compare? i =
      if i = channel then some (t.width.reduce reading) else t.compare? i := by
  unfold armChannel compare?
  rw [if_pos h]
  by_cases hi : i = channel
  · rw [if_pos hi, hi, Vector.getElem?_setIfInBounds_self_of_lt h]
    rfl
  · rw [if_neg hi, Vector.getElem?_setIfInBounds_ne (Ne.symm hi)]

/-- `disarm` leaves the other channels alone. -/
theorem compare?_disarm {channel i : Nat} (h : i ≠ channel) :
    (t.disarm channel).compare? i = t.compare? i := by
  unfold disarm compare?
  rw [Vector.getElem?_setIfInBounds_ne (Ne.symm h)]

/-- A channel that `armChannel` has armed some ticks ahead is that far away. -/
theorem ticksUntil?_armChannel {channel ticks : Nat} (h : channel < 4)
    (hlt : ticks < t.width.modulus) :
    (t.armChannel channel (t.width.offset t.counter ticks)).ticksUntil? channel = some ticks := by
  have hsame : (t.armChannel channel (t.width.offset t.counter ticks)).counter = t.counter ∧
      (t.armChannel channel (t.width.offset t.counter ticks)).width = t.width := by
    unfold armChannel
    rw [if_pos h]
    exact ⟨rfl, rfl⟩
  unfold ticksUntil?
  rw [hsame.1, hsame.2, compare?_armChannel h, if_pos rfl, Option.map_some,
    CounterWidth.reduce_of_lt (t.width.offset_lt _ _), CounterWidth.elapsed_offset _ hlt]

/-- `advance` comes nearer to an armed channel that it does not pass. -/
theorem ticksUntil?_advance {channel distance ticks : Nat}
    (h : t.ticksUntil? channel = some distance) (hle : ticks ≤ distance) :
    (t.advance ticks).ticksUntil? channel = some (distance - ticks) := by
  unfold ticksUntil? at h ⊢
  show (t.compare? channel).map _ = _
  obtain ⟨reading, hreading, hdistance⟩ := Option.map_eq_some_iff.mp h
  rw [hreading, Option.map_some]
  show some (t.width.elapsed (t.width.offset t.counter ticks) reading) = _
  rw [t.width.elapsed_offset_left (hdistance ▸ hle), hdistance]

/-- However the counter came to move on, it is nearer by `ticksUntil?` to a channel that is armed as
before. -/
theorem ticksUntil?_moved {t' : SimTimer} {channel distance ticks : Nat}
    (hwidth : t'.width = t.width) (hcounter : t'.counter = t.width.offset t.counter ticks)
    (hsame : t'.compare? channel = t.compare? channel)
    (h : t.ticksUntil? channel = some distance) (hle : ticks ≤ distance) :
    t'.ticksUntil? channel = some (distance - ticks) := by
  rw [← ticksUntil?_advance h hle]
  unfold ticksUntil?
  rw [hsame, hwidth, hcounter]
  rfl

/-- `ticksUntil?` gives a distance for the four channels of the timer alone. -/
theorem lt_of_ticksUntil? {channel distance : Nat} (h : t.ticksUntil? channel = some distance) :
    channel < 4 := by
  apply Nat.lt_of_not_le
  intro hle
  unfold ticksUntil? compare? at h
  rw [Vector.getElem?_eq_none hle] at h
  cases h

/-! ## The nearest channel -/

/-- The list `armed` has the armed channels with their distances. -/
theorem mem_armed {channel distance : Nat} :
    (channel, distance) ∈ t.armed ↔ t.ticksUntil? channel = some distance := by
  unfold armed
  rw [List.mem_filterMap]
  constructor
  · rintro ⟨i, -, hi⟩
    obtain ⟨d, hd, heq⟩ := Option.map_eq_some_iff.mp hi
    cases heq
    exact hd
  · intro h
    exact ⟨channel, List.mem_range.mpr (lt_of_ticksUntil? h), by rw [h]; rfl⟩

/-- `nearer` keeps the entry of the smaller distance. -/
theorem keeps_nearer : Keeps nearer fun entry => entry.2 where
  first _ := rfl
  better best x := by
    by_cases hnearer : x.2 < best.2
    · exact ⟨x, if_pos hnearer, .inr rfl, Nat.le_of_lt hnearer, Nat.le_refl _⟩
    · exact ⟨best, if_neg hnearer, .inl rfl, Nat.le_refl _, Nat.le_of_not_lt hnearer⟩

/-- The channel that `nextCompare?` finds is armed, and no armed channel is nearer. -/
theorem nextCompare?_eq_some {channel ticks : Nat} (h : t.nextCompare? = some (channel, ticks)) :
    t.ticksUntil? channel = some ticks ∧
      ∀ i distance, t.ticksUntil? i = some distance → ticks ≤ distance := by
  obtain ⟨hmem, hle⟩ := keeps_nearer.foldl_none h
  exact ⟨mem_armed.mp hmem, fun i distance hi => hle (i, distance) (mem_armed.mpr hi)⟩

/-- `nextCompare?` finds no channel only when none is armed. -/
theorem nextCompare?_eq_none (h : t.nextCompare? = none) (i : Nat) : t.ticksUntil? i = none := by
  have hnil : t.armed = [] := keeps_nearer.foldl_eq_none.mp h
  rw [Option.eq_none_iff_forall_ne_some]
  intro distance hi
  have hmem := mem_armed.mpr hi
  rw [hnil] at hmem
  cases hmem

/-- `step` goes the whole way and meets no armed channel, or it stops on a channel that no other is
nearer than, and disarms it. -/
theorem step_cases (t : SimTimer) (maxTicks : Nat) :
    (t.step maxTicks = (none, t.advance maxTicks) ∧
      ∀ i distance, t.ticksUntil? i = some distance → maxTicks < distance) ∨
    ∃ channel ticks,
      t.step maxTicks = (some (channel, ticks), (t.advance ticks).disarm channel) ∧
        ticks ≤ maxTicks ∧ t.ticksUntil? channel = some ticks ∧
        ∀ i distance, t.ticksUntil? i = some distance → ticks ≤ distance := by
  unfold step
  cases hnext : t.nextCompare? with
  | none =>
    refine .inl ⟨rfl, fun i distance hi => ?_⟩
    rw [nextCompare?_eq_none hnext] at hi
    cases hi
  | some found =>
    obtain ⟨channel, ticks⟩ := found
    obtain ⟨harmed, hle⟩ := nextCompare?_eq_some hnext
    by_cases hreach : ticks ≤ maxTicks
    · exact .inr ⟨channel, ticks, if_pos hreach, hreach, harmed, hle⟩
    · -- The nearest channel is out of reach, and so are the others.
      refine .inl ⟨if_neg hreach, fun i distance hi => ?_⟩
      exact Nat.lt_of_lt_of_le (Nat.lt_of_not_le hreach) (hle i distance hi)

/-- How many ticks a `step` takes: those to the channel that it stops on, or the whole way. -/
def stepTicks (t : SimTimer) (maxTicks : Nat) : Nat :=
  match (t.step maxTicks).1 with
  | some (_, ticks) => ticks
  | none => maxTicks

/-- `step` moves the counter on, past no armed channel, and disarms none but the one it stops on. -/
theorem step_moves (t : SimTimer) (maxTicks : Nat) :
    (t.step maxTicks).2.width = t.width ∧
      (t.step maxTicks).2.autoAdvance = t.autoAdvance ∧
      (t.step maxTicks).2.counter = t.width.offset t.counter (t.stepTicks maxTicks) ∧
      (∀ i distance, t.ticksUntil? i = some distance → t.stepTicks maxTicks ≤ distance) ∧
      ∀ i, (∀ ticks, (t.step maxTicks).1 ≠ some (i, ticks)) →
        (t.step maxTicks).2.compare? i = t.compare? i := by
  unfold stepTicks
  rcases t.step_cases maxTicks with ⟨hstep, hle⟩ | ⟨channel, ticks, hstep, -, -, hle⟩
  · rw [hstep]
    exact ⟨rfl, rfl, rfl, fun i distance hi => Nat.le_of_lt (hle i distance hi), fun _ _ => rfl⟩
  · rw [hstep]
    refine ⟨rfl, rfl, rfl, hle, fun i hi => compare?_disarm fun heq => ?_⟩
    exact hi ticks (heq ▸ rfl)

end SimTimer

end SoftTimer
