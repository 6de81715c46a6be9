import Mathlib.Data.List.Induction
import Mathlib.Data.Nat.Digits.Defs
import SoftTimer.Setting

/-!
# What a setting's text writes

A setting is read character by character, and reading stops at the first character that is not a
digit, or as soon as the number has outgrown its word. The main statement, `reads_numerals`, says
what comes of it without the reading, and of the bytes in which a text is kept. The text is a
numeral if it has a byte at all and every byte is the code of a digit (`IsNumeral`). What it then
writes is the number with these decimal digits (`value`), and the setting has that value if it is a
64-bit word. Any other text gives the default.

Reading bytes comes to the same as reading characters, because the first byte of a character beyond
ASCII is no digit either (`appendDigit_eq_foldlM`). And stopping early loses nothing, because a
number that has outgrown its word only grows with the digits that follow (`value_append`).
-/

namespace SoftTimer.Setting

/-- `bytes text` are the bytes of a text, in UTF-8. -/
def bytes (text : String) : List UInt8 := text.toByteArray.data.toList

/-- One of the codes of the digits from `0` to `9`. -/
def IsDigitCode (b : UInt8) : Prop := 48 ≤ b.toNat ∧ b.toNat ≤ 57

instance (b : UInt8) : Decidable (IsDigitCode b) :=
  inferInstanceAs (Decidable (48 ≤ b.toNat ∧ b.toNat ≤ 57))

/-- Every one of the `bytes` is the code of a digit. -/
def AllDigits (bytes : List UInt8) : Prop := ∀ b ∈ bytes, IsDigitCode b

instance (bytes : List UInt8) : Decidable (AllDigits bytes) :=
  List.decidableBAll IsDigitCode bytes

/-- There is at least one byte, and `AllDigits` holds. -/
def IsNumeral (bytes : List UInt8) : Prop := bytes ≠ [] ∧ AllDigits bytes

instance (bytes : List UInt8) : Decidable (IsNumeral bytes) :=
  inferInstanceAs (Decidable (bytes ≠ [] ∧ AllDigits bytes))

/-- `value bytes` is the number with these decimal digits, of which the last counts ones. -/
def value (bytes : List UInt8) : Nat :=
  Nat.ofDigits 10 (bytes.map fun b => b.toNat - 48).reverse

/-! ## Characters and bytes -/

/-- `digitCode? b` is the value of the code of a digit. -/
def digitCode? (b : UInt8) : Option Nat := if IsDigitCode b then some (b.toNat - 48) else none

/-- The number whose numeral is that of `number` followed by a byte, if the byte is the code of a
digit and neither the shifted number nor the sum outgrows 64 bits. -/
def appendByte (number : Nat) (b : UInt8) : Option Nat := do
  let digit ← digitCode? b
  let shifted ← word? (number * 10)
  word? (shifted + digit)

/-- `appendByte` gives up at a byte that is not the code of a digit. -/
theorem appendByte_eq_none {number : Nat} {b : UInt8} (h : ¬ IsDigitCode b) :
    appendByte number b = none := by
  unfold appendByte digitCode?
  rw [if_neg h]
  rfl

/-- The `bytes` of a text are those of its characters. -/
theorem bytes_eq_flatMap (text : String) :
    bytes text = text.toList.flatMap String.utf8EncodeChar := by
  unfold bytes
  rw [← String.utf8Encode_toList]
  exact List.toList_data_toByteArray

/-- Beyond ASCII `String.utf8EncodeChar` begins with a byte that is not the code of a digit. -/
theorem utf8EncodeChar_of_lt {c : Char} (h : 127 < c.toNat) :
    ∃ b rest, String.utf8EncodeChar c = b :: rest ∧ ¬ IsDigitCode b := by
  have hlead : ∀ {x y : Nat}, 192 ≤ y → x + y < 256 → ¬ IsDigitCode (UInt8.ofNat (x + y)) := by
    intro x y hy hlt hdigit
    unfold IsDigitCode at hdigit
    rw [UInt8.toNat_ofNat_of_lt' hlt] at hdigit
    omega
  have hlong : ¬ c.val.toNat ≤ 127 := Nat.not_le_of_lt h
  rw [String.utf8EncodeChar.eq_1, if_neg hlong]
  split_ifs
  · exact ⟨_, _, rfl, hlead (by decide) (by omega)⟩
  · exact ⟨_, _, rfl, hlead (by decide) (by omega)⟩
  · exact ⟨_, _, rfl, hlead (by decide) (by omega)⟩

/-- `appendDigit` of a character appends its bytes by `appendByte`. -/
theorem appendDigit_eq_foldlM (number : Nat) (c : Char) :
    appendDigit number c = (String.utf8EncodeChar c).foldlM appendByte number := by
  rcases Nat.lt_or_ge 127 c.toNat with hlong | hshort
  · -- The character is not a digit, and neither is its first byte.
    obtain ⟨b, rest, hbytes, hother⟩ := utf8EncodeChar_of_lt hlong
    have hchar : ¬ c.isDigit = true := fun hdigit => by
      have hle : c.toNat ≤ 57 := (Char.isDigit_iff_toNat.mp hdigit).2
      omega
    rw [hbytes, List.foldlM_cons, appendByte_eq_none hother]
    unfold appendDigit digit?
    rw [if_neg hchar]
    rfl
  · have hcode : (UInt8.ofNat c.val.toNat).toNat = c.toNat :=
      UInt8.toNat_ofNat_of_lt' (Nat.lt_of_le_of_lt hshort (by decide))
    have hdigit : c.isDigit = true ↔ IsDigitCode (UInt8.ofNat c.val.toNat) := by
      unfold IsDigitCode
      rw [hcode]
      exact Char.isDigit_iff_toNat
    have hsame : appendDigit number c = appendByte number (UInt8.ofNat c.val.toNat) := by
      unfold appendDigit digit? appendByte digitCode?
      rw [hcode, if_congr hdigit rfl rfl]
      rfl
    have hone : String.utf8EncodeChar c = [UInt8.ofNat c.val.toNat] := by
      rw [String.utf8EncodeChar.eq_1]
      exact if_pos hshort
    rw [hone, hsame]
    exact (bind_pure (appendByte number (UInt8.ofNat c.val.toNat))).symm

/-- `appendDigit` of several characters appends their bytes by `appendByte`. -/
theorem foldlM_appendDigit (number : Nat) (chars : List Char) :
    chars.foldlM appendDigit number =
      (chars.flatMap String.utf8EncodeChar).foldlM appendByte number := by
  induction chars generalizing number with
  | nil => rfl
  | cons c rest ih =>
    rw [List.foldlM_cons, List.flatMap_cons, List.foldlM_append, appendDigit_eq_foldlM]
    exact congrArg _ (funext ih)

/-! ## Digits and numbers -/

/-- The `value` of one more digit counts ones, and those before it ten times what they counted. -/
theorem value_append (before : List UInt8) (b : UInt8) :
    value (before ++ [b]) = value before * 10 + (b.toNat - 48) := by
  unfold value
  rw [List.map_append, List.reverse_append, List.map_singleton, List.reverse_singleton,
    List.singleton_append, Nat.ofDigits_cons]
  omega

/-- `appendByte` appends a digit unless the number outgrows 64 bits. -/
theorem appendByte_eq (number : Nat) (b : UInt8) :
    appendByte number b =
      if IsDigitCode b ∧ number * 10 + (b.toNat - 48) ≤ max64
        then some (number * 10 + (b.toNat - 48)) else none := by
  by_cases hdigit : IsDigitCode b
  · unfold appendByte digitCode? word?
    rw [if_pos hdigit]
    -- If the shifted number does not fit, neither does the sum.
    by_cases hshifted : number * 10 ≤ max64
    · simp [hdigit, hshifted]
    · have hsum : ¬ number * 10 + (b.toNat - 48) ≤ max64 := by omega
      simp [hshifted, hsum]
  · rw [appendByte_eq_none hdigit, if_neg fun h => hdigit h.1]

/-- `AllDigits` of one more byte asks that this byte is a digit as well. -/
theorem allDigits_append (before : List UInt8) (b : UInt8) :
    AllDigits (before ++ [b]) ↔ AllDigits before ∧ IsDigitCode b := by
  unfold AllDigits
  rw [List.forall_mem_append, List.forall_mem_singleton]

/-- Appending all `bytes` to zero gives their `value`, if they are digits and the value fits. -/
theorem foldlM_appendByte (bytes : List UInt8) :
    bytes.foldlM appendByte 0 =
      if AllDigits bytes ∧ value bytes ≤ max64 then some (value bytes) else none := by
  induction bytes using List.reverseRecOn with
  | nil =>
    rw [if_pos ⟨fun _ h => absurd h List.not_mem_nil, Nat.zero_le max64⟩]
    rfl
  | append_singleton before last ih =>
    rw [List.foldlM_append, ih]
    by_cases hbefore : AllDigits before ∧ value before ≤ max64
    · rw [if_pos hbefore]
      show (appendByte (value before) last >>= pure) = _
      rw [bind_pure, appendByte_eq, value_append]
      refine if_congr (and_congr_left' ?_) rfl rfl
      rw [allDigits_append]
      exact ⟨fun hlast => ⟨hbefore.1, hlast⟩, And.right⟩
    · -- What has stopped the reading before is still there.
      have hnow : ¬ (AllDigits (before ++ [last]) ∧ value (before ++ [last]) ≤ max64) := by
        rw [allDigits_append, value_append]
        exact fun h => hbefore ⟨h.1.1, by omega⟩
      rw [if_neg hbefore, if_neg hnow]
      rfl

/-- `read text fallback` is the `value` that the text writes, if the text is a numeral and its value
is a 64-bit word, and `fallback` otherwise. -/
theorem reads_numerals (text : String) (fallback : Nat) :
    read text fallback =
      if IsNumeral (bytes text) ∧ value (bytes text) ≤ max64 then value (bytes text)
        else fallback := by
  unfold read
  rw [bytes_eq_flatMap]
  cases text.toList with
  | nil => rfl
  | cons c rest =>
    have hsome : (c :: rest).flatMap String.utf8EncodeChar ≠ [] := by
      rw [List.flatMap_cons]
      exact List.append_ne_nil_of_left_ne_nil String.utf8EncodeChar_ne_nil _
    show ((c :: rest).foldlM appendDigit 0).getD fallback = _
    rw [foldlM_appendDigit, foldlM_appendByte]
    generalize (c :: rest).flatMap String.utf8EncodeChar = bytes at hsome
    unfold IsNumeral
    simp only [hsome, ne_eq, not_false_eq_true, true_and]
    split <;> rfl

end SoftTimer.Setting
