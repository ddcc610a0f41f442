import Mathlib.Order.Interval.Set.LinearOrder
import Mathlib.Tactic.Common

/-!
# A range cut into steps

A range, given by its start and its length, is a set of cells. `Tiles n a rs b` says that the ranges
`rs` follow one another from `a` to `b` in steps of `n` cells, of which the last may be shorter.
-/

namespace Tiles

/-- The cells of a range. -/
def cells (r : ℕ × ℕ) : Set ℕ := Set.Ico r.1 (r.1 + r.2)

theorem mem_cells {r : ℕ × ℕ} {x : ℕ} : x ∈ cells r ↔ r.1 ≤ x ∧ x < r.1 + r.2 := Iff.rfl

theorem cells_subset {r : ℕ × ℕ} {a b : ℕ} (ha : a ≤ r.1) (hb : r.1 + r.2 ≤ b) :
    cells r ⊆ Set.Ico a b := Set.Ico_subset_Ico ha hb

end Tiles

/-- The ranges go from `a` to `b` in steps of `n` cells. -/
inductive Tiles (n : ℕ) : ℕ → List (ℕ × ℕ) → ℕ → Prop where
  | nil (a : ℕ) : Tiles n a [] a
  | cons {a l b : ℕ} {rs : List (ℕ × ℕ)} (hpos : 0 < l) (hle : l ≤ n) (hfull : rs ≠ [] → l = n)
      (h : Tiles n (a + l) rs b) : Tiles n a ((a, l) :: rs) b

namespace Tiles

variable {n a b : ℕ} {rs : List (ℕ × ℕ)}

theorem le (h : Tiles n a rs b) : a ≤ b := by
  induction h with
  | nil => exact Nat.le_refl _
  | cons _ _ _ _ ih => exact Nat.le_trans (Nat.le_add_right _ _) ih

theorem lt_of_ne_nil (h : Tiles n a rs b) (hne : rs ≠ []) : a < b := by
  cases h with
  | nil => exact absurd rfl hne
  | cons hpos _ _ h => exact Nat.lt_of_lt_of_le (Nat.lt_add_of_pos_right hpos) h.le

end Tiles
