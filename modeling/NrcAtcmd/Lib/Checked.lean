import Mathlib.Algebra.Group.Int.Defs
import Mathlib.Algebra.Group.Nat.Defs
import Mathlib.Data.Int.Notation
import Mathlib.Tactic.Common

/-!
# Checked arithmetic

An operation on machine integers has no result where the language gives it none, or where it wraps
around: a signed value outside of its type, a negative value in an unsigned one, and a division by
zero. A program over these has a result exactly if none of this happens.
-/

namespace Checked

/-- A value of an `int32_t`. -/
def int32 (v : ℤ) : Option ℤ := if -2 ^ 31 ≤ v ∧ v < 2 ^ 31 then some v else none

/-- A value in an unsigned type of `w` bits, which it may be too large for. -/
def uint (w : ℕ) (v : ℤ) : Option ℕ := if 0 ≤ v then some (v.toNat % 2 ^ w) else none

/-- A length, which is not negative. -/
def size (v : ℤ) : Option ℕ := if 0 ≤ v then some v.toNat else none

/-- A quotient, rounded towards zero. -/
def div (a b : ℤ) : Option ℤ := if b = 0 then none else some (a.tdiv b)

theorem int32_of_mem {v : ℤ} (h₀ : -2 ^ 31 ≤ v) (h₁ : v < 2 ^ 31) : int32 v = some v :=
  if_pos ⟨h₀, h₁⟩

theorem int32_eq_some {v w : ℤ} : int32 v = some w ↔ (-2 ^ 31 ≤ v ∧ v < 2 ^ 31) ∧ v = w := by
  rw [int32, Option.ite_none_right_eq_some, Option.some.injEq]

theorem uint_natCast (w n : ℕ) : uint w n = some (n % 2 ^ w) := if_pos (Int.natCast_nonneg n)

theorem uint_of_neg {w : ℕ} {v : ℤ} (h : v < 0) : uint w v = none := if_neg (by omega)

@[simp] theorem size_natCast (n : ℕ) : size n = some n := if_pos (Int.natCast_nonneg n)

theorem size_of_neg {v : ℤ} (h : v < 0) : size v = none := if_neg (by omega)

@[simp] theorem div_zero (a : ℤ) : div a 0 = none := if_pos rfl

theorem div_natCast (a : ℕ) {b : ℕ} (h : b ≠ 0) : div a b = some ((a / b : ℕ) : ℤ) := by
  rw [div, if_neg (by omega), Option.some.injEq]
  exact (Int.ofNat_tdiv a b).symm

theorem div_neg_natCast (a : ℕ) {b : ℕ} (h : b ≠ 0) :
    div a (-b) = some (-((a / b : ℕ) : ℤ)) := by
  rw [div, if_neg (by omega), Int.tdiv_neg, Option.some.injEq]
  exact congrArg Neg.neg (Int.ofNat_tdiv a b).symm

theorem div_neg_neg_natCast (a : ℕ) {b : ℕ} (h : b ≠ 0) :
    div (-a) (-b) = some ((a / b : ℕ) : ℤ) := by
  rw [div, if_neg (by omega), Int.neg_tdiv_neg, Option.some.injEq]
  exact (Int.ofNat_tdiv a b).symm

theorem uint_neg_natCast (w n : ℕ) : uint w (-n) = if n = 0 then some 0 else none := by
  unfold uint
  rcases Nat.eq_zero_or_pos n with rfl | h
  · simp
  · rw [if_neg (by omega), if_neg (by omega)]

end Checked
