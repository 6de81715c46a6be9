import SoftTimer.Proofs.Clock.Ticks
import SoftTimer.Proofs.Dispatch.Occurrences

/-!
# Arithmetic on machine words

Clocks and events hold numbers of any size here. On a machine they are words of 32 and 64 bits, with
one product of 128 bits on the way, and a step of arithmetic on words can fail: when a result does
not fit in its word, when a difference would be below zero, and when something is divided by zero.

The functions of this module take one such step at a time, in the order in which a machine does, and
give nothing as soon as one step fails. Each of them is then shown to give what the function of the
same name does that computes with numbers of any size (`Clock.sync?_eq`, `Event.align?_eq` and so
on). Only of `Event.catchUp?` is that not true for all words. The one event for which it fails is
found in `Event.max64_lt_catchUp_fst`: it repeats every microsecond from time zero on.
-/

namespace SoftTimer

/-- The largest 128-bit value. -/
abbrev max128 : Nat := 0xffffffffffffffffffffffffffffffff

namespace Word

/-- The number as a word of at most `most`, if it fits. -/
def fit? (most n : Nat) : Option Nat := if n ≤ most then some n else none

/-- The difference `a - b` of two words, if it is not below zero. -/
def sub? (a b : Nat) : Option Nat := if b ≤ a then some (a - b) else none

/-- The quotient `a / b` of two words, unless the divisor is zero. -/
def div? (a b : Nat) : Option Nat := if b = 0 then none else some (a / b)

/-- The value nearest to a word in the range from `least` to `most`, unless the range is empty. -/
def clamp? (least most a : Nat) : Option Nat :=
  if least ≤ most then some (min (max a least) most) else none

/-- `fit?` gives a number that fits. -/
theorem fit?_of_le {most n : Nat} (h : n ≤ most) : fit? most n = some n := if_pos h

section Steps

variable {α : Type} (next : Nat → Option α)

/-- A `fit?` of a number that fits goes on with it. -/
theorem fit?_bind {most n : Nat} (h : n ≤ most) : (fit? most n >>= next) = next n := by
  unfold fit?
  rw [if_pos h]
  rfl

/-- A `sub?` that is not below zero goes on with the difference. -/
theorem sub?_bind {a b : Nat} (h : b ≤ a) : (sub? a b >>= next) = next (a - b) := by
  unfold sub?
  rw [if_pos h]
  rfl

/-- A `div?` by a divisor that is not zero goes on with the quotient. -/
theorem div?_bind {a b : Nat} (h : 0 < b) : (div? a b >>= next) = next (a / b) := by
  unfold div?
  rw [if_neg (Nat.ne_of_gt h)]
  rfl

/-- A `clamp?` to a range that is not empty goes on with the nearest value in it. -/
theorem clamp?_bind {least most : Nat} (h : least ≤ most) (a : Nat) :
    (clamp? least most a >>= next) = next (min (max a least) most) := by
  unfold clamp?
  rw [if_pos h]
  rfl

end Steps

section Guards

variable {α β : Type} {p : α → Bool} {q r : β → Bool} {a : α} {b : β} {next : α → Option β}

/-- A guarded value that goes on to another guarded one comes to a value that is guarded by both. -/
theorem guard_bind (hnext : next a = Option.guard q b) (hboth : r b = (p a && q b)) :
    (Option.guard p a >>= next) = Option.guard r b := by
  unfold Option.guard at hnext ⊢
  rw [hboth]
  cases p a with
  | true => exact hnext
  | false => rfl

/-- A guarded value that goes on to another value comes to one with the same guard. -/
theorem guard_bind_some (hnext : next a = some b) (hsame : q b = p a) :
    (Option.guard p a >>= next) = Option.guard q b := by
  have hgoes : next a = Option.guard (fun _ => true) b := hnext
  exact guard_bind hgoes (hsame.trans (Bool.and_true _).symm)

end Guards

end Word

open Word

/-! ## The clock -/

namespace Clock

variable (c : Clock)

/-- The clock with its times in microseconds and in milliseconds set, both saturating, and with as
much of a millisecond left as `rest` has beyond whole ones. -/
def setTo (us ms rest : Nat) : Clock :=
  { c with
    timeUs := sat64 us
    timeMs := sat64 ms
    subMs := rest % 1000
    timeUs_le := sat64_le us
    timeMs_le := sat64_le ms
    subMs_lt := Nat.mod_lt rest (by decide) }

/-- `advanceUs` on words. The milliseconds and what is left of them are added apart. -/
def advanceUs? (us : Nat) : Option Clock := do
  let carried ← fit? max64 (c.subMs + us % 1000)
  let ms ← fit? max64 (us / 1000 + carried / 1000)
  return c.setTo (c.timeUs + us) (c.timeMs + ms) carried

/-- `advanceTicks` on words. -/
def advanceTicks? (ticks : Nat) : Option Clock := do
  let product ← fit? max64 (ticks * usPerSecond)
  let scaled ← fit? max64 (product + c.subUs)
  let us ← div? scaled c.tickHz
  (c.leaving (scaled % c.tickHz) (Nat.mod_lt _ c.tickHz_pos)).advanceUs? us

/-- `sync` on words. The reading is taken without dropping a carried tick, and no ticks are credited
unless the counter has moved. -/
def sync? (raw : Nat) : Option Clock :=
  let reading := c.width.reduce raw
  let ticks := c.width.elapsed c.reading reading
  let seen : Clock := { c.resync raw with
    wraps := if reading < c.reading then (c.wraps + 1) % 0x100000000 else c.wraps
    subUs := c.subUs
    subUs_lt := c.subUs_lt }
  if ticks = 0 then some seen else seen.advanceTicks? ticks

/-- `usToTicks` on words. The product is one of 128 bits, and so is the quotient that is rounded up.
-/
def usToTicks? (us : Nat) : Option Nat := do
  let product ← fit? max128 (us * c.tickHz)
  let ticks ← fit? max128
    (product / usPerSecond + if product % usPerSecond = 0 then 0 else 1)
  fit? max64 (min ticks max64)

variable {c}

/-- `advanceUs?` of an interval of 64 bits does not fail. -/
theorem advanceUs?_eq {us : Nat} (hus : us ≤ max64) : c.advanceUs? us = some (c.advanceUs us) := by
  have hms := c.subMs_lt
  have hcarried : c.subMs + us % 1000 ≤ max64 := by
    unfold max64
    omega
  have hsum : us / 1000 + (c.subMs + us % 1000) / 1000 ≤ max64 := by
    unfold max64 at hus ⊢
    omega
  -- Whole milliseconds can be taken off before the rest is added up.
  have hwhole : us / 1000 + (c.subMs + us % 1000) / 1000 = (c.subMs + us) / 1000 := by omega
  have hrest : (c.subMs + us % 1000) % 1000 = (c.subMs + us) % 1000 := by omega
  unfold advanceUs?
  rw [fit?_bind _ hcarried, fit?_bind _ hsum]
  refine congrArg some ?_
  ext
  case timeMs => exact congrArg (fun ms => sat64 (c.timeMs + ms)) hwhole
  case subMs => exact hrest
  all_goals rfl

/-- `advanceTicks?` of no more ticks than a 32-bit word has does not fail, if the counter's rate is
one. -/
theorem advanceTicks?_eq (hrate : c.tickHz ≤ max32) {ticks : Nat} (hticks : ticks ≤ max32) :
    c.advanceTicks? ticks = some (c.advanceTicks ticks) := by
  have hus := c.subUs_lt
  have hscaled : ticks * usPerSecond + c.subUs ≤ max64 := by
    unfold usPerSecond max64
    unfold max32 at hrate hticks
    omega
  have hproduct : ticks * usPerSecond ≤ max64 := Nat.le_trans (Nat.le_add_right _ _) hscaled
  have hquotient : (ticks * usPerSecond + c.subUs) / c.tickHz ≤ max64 :=
    Nat.le_trans (Nat.div_le_self _ _) hscaled
  unfold advanceTicks?
  rw [fit?_bind _ hproduct, fit?_bind _ hscaled, div?_bind _ c.tickHz_pos, advanceTicks_eq]
  exact advanceUs?_eq hquotient

/-- `sync?` of any reading does not fail, if the counter's rate is a 32-bit word. -/
theorem sync?_eq (hrate : c.tickHz ≤ max32) (raw : Nat) : c.sync? raw = some (c.sync raw) := by
  have hturn : c.width.modulus ≤ max32 + 1 := by cases c.width <;> decide
  have hticks := c.width.elapsed_lt c.reading (c.width.reduce raw)
  unfold sync? sync
  dsimp only
  split
  · next hzero =>
    rw [hzero, advanceTicks_zero]
    rfl
  · refine advanceTicks?_eq ?_ ?_
    · exact hrate
    · omega

/-- `usToTicks?` of a time of 64 bits does not fail, if the counter's rate is a 32-bit word. -/
theorem usToTicks?_eq (hrate : c.tickHz ≤ max32) {us : Nat} (hus : us ≤ max64) :
    c.usToTicks? us = some (c.usToTicks us) := by
  have hproduct : us * c.tickHz ≤ max64 * max32 := Nat.mul_le_mul hus hrate
  have hfits : us * c.tickHz ≤ max128 := Nat.le_trans hproduct (by decide)
  have hceil : us * c.tickHz / usPerSecond + (if us * c.tickHz % usPerSecond = 0 then 0 else 1) =
      c.ticksFor us := by
    unfold ticksFor usPerSecond
    split <;> omega
  have hticks : c.ticksFor us ≤ max128 := by
    unfold ticksFor usPerSecond
    omega
  unfold usToTicks?
  rw [fit?_bind _ hfits, hceil, fit?_bind _ hticks]
  exact fit?_of_le (Nat.min_le_right _ _)

end Clock

/-! ## Events -/

namespace Event

variable (e : Event)

/-- `catchUp` on words. The new timestamp saturates, and so does what is added to it. -/
def catchUp? (now : Nat) : Option (Nat × Event) :=
  if e.repeats && e.isDue now then do
    let late ← sub? now e.timestamp
    let periods ← div? late e.period
    let steps ← fit? max64 (periods + 1)
    return (steps, { e with timestamp := sat64 (e.timestamp + sat64 (steps * e.period)) })
  else
    some (0, e)

/-- `align` on words. -/
def align? (now : Nat) : Option (Nat × Event) :=
  if e.repeats && e.isDue now then do
    let late ← sub? now e.timestamp
    let steps ← div? late e.period
    let added ← fit? max64 (steps * e.period)
    let timestamp ← fit? max64 (e.timestamp + added)
    return (steps, { e with timestamp := timestamp })
  else
    some (0, e)

variable {e} {now : Nat}

/-- `catchUp?` fails on the count of periods and on nothing else. -/
theorem catchUp?_eq_ite (e : Event) (now : Nat) :
    e.catchUp? now = if (e.catchUp now).1 ≤ max64 then some (e.catchUp now) else none := by
  unfold catchUp? catchUp
  cases hlate : e.repeats && e.isDue now with
  | false => rfl
  | true =>
    rw [Bool.and_eq_true, repeats_iff, isDue_iff] at hlate
    obtain ⟨hperiod, hdue⟩ := hlate
    have hperiods : (now - e.timestamp) / e.period = e.periodsBy now := rfl
    have hsat : sat64 (e.timestamp + sat64 ((e.periodsBy now + 1) * e.period)) =
        (e.shift (e.periodsBy now + 1)).timestamp := by
      rw [Nat.add_comm, sat64_sat64_add, Nat.add_comm, shift_timestamp]
    rw [if_pos rfl, if_pos rfl, sub?_bind _ hdue, div?_bind _ hperiod, hperiods]
    show _ = if e.periodsBy now + 1 ≤ max64 then _ else _
    split
    · next hsteps =>
      rw [fit?_bind _ hsteps]
      exact congrArg (fun t => some (e.periodsBy now + 1, { e with timestamp := t })) hsat
    · next hmany =>
      unfold fit?
      exact if_neg hmany ▸ rfl

/-- Of all the events and times made of words, the count of `catchUp` is too large for one event:
the one that repeats every microsecond from time zero on, at the end of time. -/
theorem max64_lt_catchUp_fst (hnow : now ≤ max64) :
    max64 < (e.catchUp now).1 ↔ e.timestamp = 0 ∧ e.period = 1 ∧ now = max64 := by
  unfold catchUp
  split
  · next hlate =>
    rw [Bool.and_eq_true, repeats_iff, isDue_iff] at hlate
    show max64 < e.periodsBy now + 1 ↔ _
    constructor
    · -- As many periods as there are words can only be periods of one microsecond each.
      intro hmany
      have hspan : max64 * e.period ≤ now - e.timestamp :=
        (Nat.le_div_iff_mul_le hlate.1).mp (Nat.le_of_lt_succ hmany)
      have hperiod : max64 * e.period = max64 * 1 :=
        Nat.le_antisymm (by omega) (Nat.mul_le_mul_left _ hlate.1)
      have hone := Nat.eq_of_mul_eq_mul_left (by decide) hperiod
      omega
    · rintro ⟨hzero, hone, rfl⟩
      unfold periodsBy
      rw [hzero, hone]
      decide
  · next hearly =>
    rw [Bool.and_eq_true, repeats_iff, isDue_iff] at hearly
    omega

/-- The count of `catchUp` is a word unless the event repeats from time zero on. -/
theorem catchUp_fst_le (hnow : now ≤ max64) (hlate : e.repeats = true → 0 < e.timestamp) :
    (e.catchUp now).1 ≤ max64 := by
  by_contra hmany
  obtain ⟨hzero, hone, -⟩ := (max64_lt_catchUp_fst hnow).mp (Nat.lt_of_not_le hmany)
  have hpos := hlate ((repeats_iff e).mpr (by omega))
  omega

/-- `catchUp?` does not fail for an event that does not repeat from time zero on. -/
theorem catchUp?_eq (hnow : now ≤ max64) (hlate : e.repeats = true → 0 < e.timestamp) :
    e.catchUp? now = some (e.catchUp now) := by
  rw [catchUp?_eq_ite, if_pos (catchUp_fst_le hnow hlate)]

/-- `align?` does not fail for any event. -/
theorem align?_eq (e : Event) (hnow : now ≤ max64) : e.align? now = some (e.align now) := by
  unfold align? align
  cases hlate : e.repeats && e.isDue now with
  | false => rfl
  | true =>
    rw [Bool.and_eq_true, repeats_iff, isDue_iff] at hlate
    obtain ⟨hperiod, hdue⟩ := hlate
    have hadded : e.periodsBy now * e.period ≤ now - e.timestamp := Nat.div_mul_le_self _ _
    have hproduct : (now - e.timestamp) / e.period * e.period ≤ max64 := by
      unfold periodsBy at hadded
      omega
    have hsum : e.timestamp + (now - e.timestamp) / e.period * e.period ≤ max64 := by
      unfold periodsBy at hadded
      omega
    rw [if_pos rfl, if_pos rfl, sub?_bind _ hdue, div?_bind _ hperiod, fit?_bind _ hproduct,
      fit?_bind _ hsum]
    rfl

end Event

end SoftTimer
