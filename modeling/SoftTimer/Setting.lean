import SoftTimer.Saturating

/-!
# Settings given as text

A numeric setting is written as a decimal numeral: one or more ASCII digits, with any number of
leading zeros. `numeral?` reads the digits from the left and gives up at the first character that is
not a digit, or as soon as the number no longer fits in 64 bits. `read` then falls back to a
default.
-/

namespace SoftTimer.Setting

/-- `word? n` is the number `n`, if it fits in 64 bits. -/
def word? (n : Nat) : Option Nat := if n ≤ max64 then some n else none

/-- `digit? c` is the value of an ASCII digit. -/
def digit? (c : Char) : Option Nat := if c.isDigit then some (c.toNat - '0'.toNat) else none

/-- The number whose numeral is that of `value` followed by `c`, if `c` is a digit and neither the
shifted value nor the sum outgrows 64 bits. -/
def appendDigit (value : Nat) (c : Char) : Option Nat := do
  let digit ← digit? c
  let shifted ← word? (value * 10)
  word? (shifted + digit)

/-- `numeral?` is the value of a numeral, if the characters are one and its value fits in 64 bits.
-/
def numeral? : List Char → Option Nat
  | [] => none
  | digits@(_ :: _) => digits.foldlM appendDigit 0

/-- The value of a setting: the number that the text writes, or `fallback` for any other text. -/
def read (text : String) (fallback : Nat) : Nat := (numeral? text.toList).getD fallback

end SoftTimer.Setting
