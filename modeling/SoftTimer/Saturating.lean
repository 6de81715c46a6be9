/-!
# Saturating words

Times and long counts are 64-bit words and short counts are 32-bit words. Both stop at their largest
value instead of wrapping, so a sum is formed exactly on natural numbers and then clamped once, by
`sat64` or `sat32`. Clamping an operand first changes nothing (`sat64_sat64_add`), so a chain of
saturating additions is the clamp of the exact total.
-/

namespace SoftTimer

/-- `max64` is the largest 64-bit value. -/
abbrev max64 : Nat := 0xffffffffffffffff

/-- `max32` is the largest 32-bit value. -/
abbrev max32 : Nat := 0xffffffff

/-- The 64-bit word nearest to `n`: `n` itself, or the largest word when `n` does not fit. -/
def sat64 (n : Nat) : Nat := min n max64

/-- The 32-bit word nearest to `n`: `n` itself, or the largest word when `n` does not fit. -/
def sat32 (n : Nat) : Nat := min n max32

/-- A value clamped by `sat64` fits in 64 bits. -/
theorem sat64_le (n : Nat) : sat64 n ≤ max64 := Nat.min_le_right _ _

/-- A value clamped by `sat32` fits in 32 bits. -/
theorem sat32_le (n : Nat) : sat32 n ≤ max32 := Nat.min_le_right _ _

/-- `sat64` keeps a value that fits in 64 bits. -/
theorem sat64_of_le {n : Nat} (h : n ≤ max64) : sat64 n = n := Nat.min_eq_left h

/-- `sat32` keeps a value that fits in 32 bits. -/
theorem sat32_of_le {n : Nat} (h : n ≤ max32) : sat32 n = n := Nat.min_eq_left h

/-- `sat64` keeps the order. -/
theorem sat64_mono {a b : Nat} (h : a ≤ b) : sat64 a ≤ sat64 b := by
  unfold sat64
  omega

/-- Clamping the summand `a` first does not change the clamped sum `a + b`. -/
theorem sat64_sat64_add (a b : Nat) : sat64 (sat64 a + b) = sat64 (a + b) := by
  unfold sat64
  omega

/-- Clamping the summand `a` first does not change the sum `a + b` clamped to 32 bits. -/
theorem sat32_sat32_add (a b : Nat) : sat32 (sat32 a + b) = sat32 (a + b) := by
  unfold sat32
  omega

end SoftTimer
