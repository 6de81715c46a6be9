import Mathlib.Data.Nat.Basic
import SoftTimer.Clock

/-!
# Ticks in instalments

It makes no difference to a clock whether what is credited comes at once or in instalments: not for
intervals in microseconds (`Clock.advanceUs_advanceUs`), and not for ticks
(`Clock.advanceTicks_advanceTicks`), because what is not worth a microsecond is kept. So a clock
that observes the counter in between ends up as one that does not (`Clock.tick_tick`,
`Clock.sync_tick`), as long as the counter makes less than a turn meanwhile, for then it wraps once
at most.
-/

namespace SoftTimer

namespace CounterWidth

/-- `offset` by `a` and then by `b` is `offset` by the sum. -/
theorem offset_offset (w : CounterWidth) (base a b : Nat) :
    w.offset (w.offset base a) b = w.offset base (a + b) := by
  unfold offset reduce
  rw [Nat.mod_add_mod, Nat.add_assoc]

/-- `offset` by no ticks stays at a reading. -/
theorem offset_zero {w : CounterWidth} {base : Nat} (h : base < w.modulus) :
    w.offset base 0 = base := reduce_of_lt h

/-- `offset` by less than a turn wraps once at most. -/
theorem offset_eq {w : CounterWidth} {base ticks : Nat} (hbase : base < w.modulus)
    (hticks : ticks < w.modulus) :
    w.offset base ticks =
      if w.modulus ≤ base + ticks then base + ticks - w.modulus else base + ticks := by
  unfold offset reduce
  split
  · next hwrap => rw [Nat.mod_eq_sub_mod hwrap, Nat.mod_eq_of_lt (by omega)]
  · next hbelow => exact Nat.mod_eq_of_lt (Nat.lt_of_not_le hbelow)

end CounterWidth

namespace Clock

/-! ## Instalments -/

/-- `advanceUs` of an interval in two parts is `advanceUs` of it at once. -/
theorem advanceUs_advanceUs (c : Clock) (x y : Nat) :
    (c.advanceUs x).advanceUs y = c.advanceUs (x + y) := by
  ext <;> simp only [advanceUs]
  case timeUs => rw [sat64_sat64_add, Nat.add_assoc]
  case timeMs =>
    have hwhole : (c.subMs + x) / 1000 + ((c.subMs + x) % 1000 + y) / 1000 =
        (c.subMs + (x + y)) / 1000 := by omega
    rw [sat64_sat64_add, Nat.add_assoc, hwhole]
  case subMs => omega

/-- `c.leaving rest h` is the clock with `rest` left over instead of `subUs`. -/
def leaving (c : Clock) (rest : Nat) (h : rest < c.tickHz) : Clock :=
  { c with subUs := rest, subUs_lt := h }

/-- `advanceTicks` credits what the ticks are worth, and what is not worth a microsecond is left
over. -/
theorem advanceTicks_eq (c : Clock) (ticks : Nat) :
    c.advanceTicks ticks =
      (c.leaving ((ticks * usPerSecond + c.subUs) % c.tickHz)
        (Nat.mod_lt _ c.tickHz_pos)).advanceUs ((ticks * usPerSecond + c.subUs) / c.tickHz) := rfl

/-- `advanceTicks` adds what the ticks are worth to the time, together with what was left over. -/
theorem timeUs_advanceTicks (c : Clock) (ticks : Nat) :
    (c.advanceTicks ticks).timeUs =
      sat64 (c.timeUs + (ticks * usPerSecond + c.subUs) / c.tickHz) := rfl

/-- `advanceTicks` leaves over in `subUs` what is not worth a microsecond. -/
theorem subUs_advanceTicks (c : Clock) (ticks : Nat) :
    (c.advanceTicks ticks).subUs = (ticks * usPerSecond + c.subUs) % c.tickHz := rfl

/-- `leaving` does not change the rate. -/
theorem tickHz_leaving (c : Clock) {rest : Nat} (h : rest < c.tickHz) :
    (c.leaving rest h).tickHz = c.tickHz := rfl

/-- `advanceTicks` does not change the rate. -/
theorem tickHz_advanceTicks (c : Clock) (ticks : Nat) :
    (c.advanceTicks ticks).tickHz = c.tickHz := by
  -- By unfolding alone the kernel would compare the clocks, and work out the time of each.
  rw [advanceTicks_eq, advanceUs_tickHz, tickHz_leaving]

/-- `leaving` does not matter to `advanceUs`, nor `advanceUs` to `leaving`. -/
theorem leaving_advanceUs (c : Clock) {rest rest' : Nat} (h : rest < c.tickHz) (us : Nat)
    (h' : rest' < ((c.leaving rest h).advanceUs us).tickHz) :
    ((c.leaving rest h).advanceUs us).leaving rest' h' = (c.leaving rest' h').advanceUs us := rfl

/-- `advanceTicks` credits ticks together with what is left over of those before. -/
theorem advanceTicks_leaving (c : Clock) {rest : Nat} (h : rest < c.tickHz) (us ticks : Nat) :
    ((c.leaving rest h).advanceUs us).advanceTicks ticks =
      (c.leaving ((ticks * usPerSecond + rest) % c.tickHz)
        (Nat.mod_lt _ c.tickHz_pos)).advanceUs
          (us + (ticks * usPerSecond + rest) / c.tickHz) := by
  have hrest : ((c.leaving rest h).advanceUs us).subUs = rest := rfl
  have hrate : ((c.leaving rest h).advanceUs us).tickHz = c.tickHz := rfl
  rw [← advanceUs_advanceUs, advanceTicks_eq]
  simp only [hrest, hrate]
  rw [leaving_advanceUs]

/-- What a division by `hz` leaves over can be divided with the rest. -/
theorem div_add_div_mod {hz : Nat} (hhz : 0 < hz) (x y : Nat) :
    x / hz + (y + x % hz) / hz = (x + y) / hz ∧ (y + x % hz) % hz = (x + y) % hz := by
  have hsplit : x + y = hz * (x / hz) + (y + x % hz) := by
    have hdiv := Nat.div_add_mod x hz
    omega
  rw [hsplit, Nat.mul_add_div hhz, Nat.mul_add_mod]
  exact ⟨rfl, rfl⟩

/-- `advanceTicks` of ticks in two parts is `advanceTicks` of them at once. -/
theorem advanceTicks_advanceTicks (c : Clock) (a b : Nat) :
    (c.advanceTicks a).advanceTicks b = c.advanceTicks (a + b) := by
  obtain ⟨hwhole, hrest⟩ :=
    div_add_div_mod c.tickHz_pos (a * usPerSecond + c.subUs) (b * usPerSecond)
  have hscaled : a * usPerSecond + c.subUs + b * usPerSecond = (a + b) * usPerSecond + c.subUs := by
    rw [Nat.add_mul, Nat.add_right_comm]
  rw [hscaled] at hwhole hrest
  rw [advanceTicks_eq c a, advanceTicks_leaving, advanceTicks_eq c (a + b)]
  simp only [hwhole, hrest]

/-! ## Observing the counter -/

/-- `c.moved ticks` is the clock with its last reading moved on, and the wrap on the way counted,
but no time credited. -/
def moved (c : Clock) (ticks : Nat) : Clock :=
  { c with
    reading := c.width.offset c.reading ticks
    wraps := if c.width.offset c.reading ticks < c.reading then (c.wraps + 1) % 0x100000000
      else c.wraps
    reading_lt := c.width.offset_lt _ _ }

/-- `tick` observes the counter some ticks further on, and so credits these ticks. -/
theorem tick_eq (c : Clock) {ticks : Nat} (h : ticks < c.width.modulus) :
    c.tick ticks = (c.moved ticks).advanceTicks ticks := by
  have hreduce : c.width.reduce (c.width.offset c.reading ticks) = c.width.offset c.reading ticks :=
    CounterWidth.reduce_of_lt (c.width.offset_lt _ _)
  have helapsed := CounterWidth.elapsed_offset c.reading h
  unfold tick sync moved
  simp only [hreduce, helapsed]

/-- `moved` twice, by less than a turn, is `moved` once by the sum. -/
theorem moved_moved (c : Clock) {a b : Nat} (h : a + b < c.width.modulus) :
    (c.moved a).moved b = c.moved (a + b) := by
  have hreading := c.reading_lt
  have hfirst := CounterWidth.offset_eq hreading (Nat.lt_of_le_of_lt (Nat.le_add_right a b) h)
  have hwhole := CounterWidth.offset_eq hreading h
  ext <;> simp only [moved, CounterWidth.offset_offset]
  case wraps =>
    -- The counter wraps on the first part of the way, or on the second, or not at all.
    rw [hfirst, hwhole]
    split_ifs <;> omega

/-- `tick` twice, over less than a turn, is `tick` once: observing the counter in between makes no
difference. -/
theorem tick_tick (c : Clock) {a b : Nat} (h : a + b < c.width.modulus) :
    (c.tick a).tick b = c.tick (a + b) := by
  have ha : a < c.width.modulus := Nat.lt_of_le_of_lt (Nat.le_add_right a b) h
  have hb : b < c.width.modulus := Nat.lt_of_le_of_lt (Nat.le_add_left b a) h
  have hwidth : (c.tick a).width = c.width := rfl
  rw [(c.tick a).tick_eq (hwidth ▸ hb), c.tick_eq ha, c.tick_eq h, ← moved_moved c h,
    ← advanceTicks_advanceTicks]
  rfl

/-- `c.ticksFor us` is no more than `ticks` exactly when `us` is no more than what these ticks are
worth. -/
theorem ticksFor_le_iff (c : Clock) (us ticks : Nat) :
    c.ticksFor us ≤ ticks ↔ us ≤ ticks * usPerSecond / c.tickHz := by
  have hceil : c.ticksFor us ≤ ticks ↔ us * c.tickHz ≤ ticks * usPerSecond := by
    unfold ticksFor usPerSecond
    omega
  rw [hceil, Nat.le_div_iff_mul_le c.tickHz_pos]

/-- `tick` by no ticks changes nothing. -/
theorem tick_zero (c : Clock) : c.tick 0 = c := by
  unfold tick
  rw [CounterWidth.offset_zero c.reading_lt, sync_self]

/-- `sync` at a raw value observes the reading that it stands for. -/
theorem sync_reduce (c : Clock) (raw : Nat) : c.sync (c.width.reduce raw) = c.sync raw := by
  have hreduce := CounterWidth.reduce_of_lt (c.width.reduce_lt raw)
  unfold sync
  simp only [hreduce]

/-- `sync` at a reading is `tick` by the distance to it. -/
theorem sync_eq_tick (c : Clock) {reading : Nat} (h : reading < c.width.modulus) :
    c.sync reading = c.tick (c.width.elapsed c.reading reading) := by
  unfold tick
  rw [CounterWidth.offset_elapsed c.reading_lt h]

/-- A clock that has observed the counter on its way to `reading` is the same there as one that has
not. -/
theorem sync_tick (c : Clock) {ticks reading : Nat} (hreading : reading < c.width.modulus)
    (hticks : ticks ≤ c.width.elapsed c.reading reading) :
    (c.tick ticks).sync reading = c.sync reading := by
  obtain ⟨rest, hrest⟩ := Nat.exists_eq_add_of_le hticks
  have hlt : ticks + rest < c.width.modulus := hrest ▸ c.width.elapsed_lt _ _
  -- The reading lies the rest of the ticks ahead of the clock that is already on its way.
  have hahead : reading = c.width.offset (c.width.offset c.reading ticks) rest := by
    rw [CounterWidth.offset_offset, ← hrest, CounterWidth.offset_elapsed c.reading_lt hreading]
  have hway : (c.tick ticks).sync reading = (c.tick ticks).tick rest := by
    have hread : (c.tick ticks).reading = c.width.offset c.reading ticks :=
      CounterWidth.reduce_of_lt (c.width.offset_lt _ _)
    have hwidth : (c.tick ticks).width = c.width := rfl
    unfold tick at hread hwidth ⊢
    rw [hread, hwidth, ← hahead]
  rw [hway, c.tick_tick hlt, ← hrest, sync_eq_tick c hreading]

end Clock

end SoftTimer
