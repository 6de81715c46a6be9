import Mathlib.Order.Basic

/-!
# Choosing in one pass

The earliest event of a pool and the nearest channel of a timer are both found by one pass that
keeps the best entry so far. All that matters of the step of such a pass is that it keeps one of two
entries, and one that is no worse than the other (`Keeps`). What comes out is then one of the
entries and no worse than any of them (`Keeps.foldl_none`), and something comes out unless there are
no entries (`Keeps.foldl_eq_none`).
-/

namespace SoftTimer

/-- A step `pick` of a pass keeps the better of two entries. The smaller the `key`, the better. -/
structure Keeps {α β : Type} [Preorder β] (pick : Option α → α → Option α) (key : α → β) :
    Prop where
  /-- The first entry is kept. -/
  first : ∀ x, pick none x = some x
  /-- Of two entries one is kept, and its key is no larger than that of either. -/
  better : ∀ best x, ∃ kept, pick (some best) x = some kept ∧ (kept = best ∨ kept = x) ∧
    key kept ≤ key best ∧ key kept ≤ key x

namespace Keeps

variable {α β : Type} [Preorder β] {pick : Option α → α → Option α} {key : α → β}

/-- A pass that begins with the entry `best` ends with it or with one that it has looked at, and no
entry is better. -/
theorem foldl_some (h : Keeps pick key) (entries : List α) (best : α) :
    ∃ found, entries.foldl pick (some best) = some found ∧ (found = best ∨ found ∈ entries) ∧
      key found ≤ key best ∧ ∀ x ∈ entries, key found ≤ key x := by
  induction entries generalizing best with
  | nil => exact ⟨best, rfl, .inl rfl, le_refl _, fun x hx => absurd hx List.not_mem_nil⟩
  | cons x rest ih =>
    obtain ⟨kept, hkept, hfrom, hbest, hx⟩ := h.better best x
    obtain ⟨found, hfound, hmem, hle, hrest⟩ := ih kept
    refine ⟨found, ?_, ?_, le_trans hle hbest, ?_⟩
    · rw [List.foldl_cons, hkept, hfound]
    · -- Whatever comes out is the best entry before, this one, or one of the rest.
      rcases hmem with rfl | hmem
      · rcases hfrom with hold | hnew
        · exact .inl hold
        · exact .inr (hnew ▸ List.mem_cons_self)
      · exact .inr (List.mem_cons_of_mem _ hmem)
    · rw [List.forall_mem_cons]
      exact ⟨le_trans hle hx, hrest⟩

/-- A pass that begins with nothing ends with one of the `entries`, and no entry is better. -/
theorem foldl_none (h : Keeps pick key) {entries : List α} {found : α}
    (hfound : entries.foldl pick none = some found) :
    found ∈ entries ∧ ∀ x ∈ entries, key found ≤ key x := by
  cases entries with
  | nil => cases hfound
  | cons first rest =>
    obtain ⟨found', hpass, hmem, hfirst, hrest⟩ := h.foldl_some rest first
    rw [List.foldl_cons, h.first, hpass] at hfound
    cases hfound
    exact ⟨List.mem_cons.mpr hmem, List.forall_mem_cons.mpr ⟨hfirst, hrest⟩⟩

/-- A pass that begins with nothing ends with nothing exactly when there are no `entries`. -/
theorem foldl_eq_none (h : Keeps pick key) {entries : List α} :
    entries.foldl pick none = none ↔ entries = [] := by
  constructor
  · intro hnone
    cases entries with
    | nil => rfl
    | cons first rest =>
      obtain ⟨found, hfound, -⟩ := h.foldl_some rest first
      rw [List.foldl_cons, h.first, hfound] at hnone
      cases hnone
  · rintro rfl
    rfl

end Keeps

end SoftTimer
