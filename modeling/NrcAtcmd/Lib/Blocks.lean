import Mathlib.Data.List.Basic
import Mathlib.Tactic.Common

/-!
# Blocks of one length

A list of blocks that all have `n` elements is cut at its blocks where its concatenation is cut at
multiples of `n`.
-/

namespace Blocks

variable {α : Type*} {n : ℕ} {l : List (List α)}

theorem length_flatten (h : ∀ b ∈ l, b.length = n) : l.flatten.length = n * l.length := by
  induction l with
  | nil => simp
  | cons b l ih =>
    rw [List.flatten_cons, List.length_append, h b (by simp),
      ih fun b hb => h b (List.mem_cons_of_mem _ hb), List.length_cons, Nat.mul_succ, Nat.add_comm]

theorem length_flatten_le (h : ∀ b ∈ l, b.length ≤ n) : l.flatten.length ≤ l.length * n := by
  induction l with
  | nil => simp
  | cons b l ih =>
    have hb := h b List.mem_cons_self
    have := ih fun b hb => h b (List.mem_cons_of_mem _ hb)
    rw [List.flatten_cons, List.length_append, List.length_cons, Nat.add_mul]
    omega

theorem flatten_take (h : ∀ b ∈ l, b.length = n) {k : ℕ} (hk : k ≤ l.length) :
    (l.take k).flatten = l.flatten.take (n * k) := by
  have hl : (l.take k).flatten.length = n * k := by
    rw [length_flatten fun b hb => h b (List.mem_of_mem_take hb), List.length_take,
      Nat.min_eq_left hk]
  conv_rhs => rw [← List.take_append_drop k l, List.flatten_append, ← hl, List.take_left]

theorem flatten_drop (h : ∀ b ∈ l, b.length = n) {k : ℕ} (hk : k ≤ l.length) :
    (l.drop k).flatten = l.flatten.drop (n * k) := by
  have hl : (l.take k).flatten.length = n * k := by
    rw [length_flatten fun b hb => h b (List.mem_of_mem_take hb), List.length_take,
      Nat.min_eq_left hk]
  conv_rhs => rw [← List.take_append_drop k l, List.flatten_append, ← hl, List.drop_left]

end Blocks
