import Mathlib.Data.List.TakeWhile
import NrcAtcmd.Lib.Memory

/-!
# Checked accesses to a buffer

An access to cells of a buffer has no result if one is outside of it, so a program over these has a
result exactly if all its accesses are inside.

`str` reads a string up to its terminator `0`. A buffer is taken apart at a string where one is
read (`str_mid`), and a string is the same in a longer buffer (`str_append`, `str_append_right`).
-/

namespace Cells

variable {α : Type*}

/-- A cell is written. -/
def store (b : List α) (i : ℕ) (x : α) : Option (List α) :=
  if i < b.length then some (b.set i x) else none

theorem store_mid (u w : List α) (x y : α) {i : ℕ} (h : i = u.length) :
    store (u ++ x :: w) i y = some (u ++ y :: w) := by
  subst h
  unfold store
  rw [if_pos (by simp), List.set_append_right _ _ (Nat.le_refl _), Nat.sub_self, List.set_cons_zero]

theorem store_eq_none {b : List α} {i : ℕ} (h : b.length ≤ i) (x : α) : store b i x = none :=
  if_neg (by omega)

/-- Cells are written one after the other. -/
def copy (b : List α) (i : ℕ) (s : List α) : Option (List α) :=
  if i + s.length ≤ b.length then some (Memory.memcpy b i s) else none

theorem copy_eq_some {b b' s : List α} {i : ℕ} :
    copy b i s = some b' ↔ i + s.length ≤ b.length ∧ Memory.memcpy b i s = b' := by
  unfold copy
  split_ifs with h <;> simp [h]

/-- `n` cells are read from a cell on. -/
def fetch (b : List α) (i n : ℕ) : Option (List α) :=
  if i + n ≤ b.length then some (Memory.read b i n) else none

theorem fetch_of_le {b : List α} {i n : ℕ} (h : i + n ≤ b.length) :
    fetch b i n = some (Memory.read b i n) := if_pos h

theorem copy_of_le {b : List α} {i : ℕ} {s : List α} (h : i + s.length ≤ b.length) :
    copy b i s = some (Memory.memcpy b i s) := if_pos h

variable [Zero α] [DecidableEq α]

/-- The string from a cell on, all of it read. -/
def str (b : List α) (i : ℕ) : Option (List α) :=
  let s := (b.drop i).takeWhile (· ≠ 0)
  if i + s.length < b.length then some s else none

theorem str_mid {s : List α} (hs : 0 ∉ s) (u w : List α) {i : ℕ} (h : i = u.length) :
    str (u ++ s ++ 0 :: w) i = some s := by
  subst h
  have htake : (s ++ 0 :: w).takeWhile (· ≠ 0) = s := by
    rw [List.takeWhile_append_of_pos, List.takeWhile_cons_of_neg (by simp), List.append_nil]
    intro x hx
    simpa using fun h0 : x = 0 => hs (h0 ▸ hx)
  unfold str
  simp only [List.append_assoc, List.drop_left, htake]
  rw [if_pos (by simp)]

theorem str_append {b s : List α} {i : ℕ} (h : str b i = some s) (w : List α) :
    str (b ++ w) i = some s := by
  unfold str at h ⊢
  simp only at h ⊢
  split_ifs at h with hlt
  simp only [Option.some.injEq] at h
  have hle : i ≤ b.length := by omega
  have hne : ((b.drop i).takeWhile (· ≠ 0)).length ≠ (b.drop i).length := by
    rw [List.length_drop]
    omega
  rw [List.drop_append_of_le_length hle, List.takeWhile_append, if_neg hne, h,
    List.length_append, if_pos (by rw [← h]; omega)]

theorem str_append_right (u w : List α) (i : ℕ) : str (u ++ w) (u.length + i) = str w i := by
  unfold str
  simp only [List.drop_append, List.length_append, Nat.add_sub_cancel_left]
  rw [List.drop_eq_nil_of_le (by omega), List.nil_append]
  by_cases h : i + ((w.drop i).takeWhile (· ≠ 0)).length < w.length
  · rw [if_pos h, if_pos (by omega)]
  · rw [if_neg h, if_neg (by omega)]

/-- A buffer that a string is read from, taken apart at it. -/
theorem str_eq_some {b s : List α} {i : ℕ} (h : str b i = some s) :
    ∃ u w, b = u ++ s ++ 0 :: w ∧ u.length = i ∧ 0 ∉ s := by
  unfold str at h
  simp only at h
  split_ifs at h with hlt
  simp only [Option.some.injEq] at h
  have hs : 0 ∉ s := by
    intro h0
    rw [← h] at h0
    simpa using List.mem_takeWhile_imp h0
  have hdrop := List.takeWhile_append_dropWhile (p := (· ≠ 0)) (l := b.drop i)
  rw [h] at hdrop hlt
  rcases hw : (b.drop i).dropWhile (· ≠ 0) with _ | ⟨x, w⟩
  · have hlen := congrArg List.length hdrop
    rw [hw, List.append_nil, List.length_drop] at hlen
    omega
  · have hx : x = 0 := by
      have := List.head?_dropWhile_not (fun x : α => decide (x ≠ 0)) (b.drop i)
      rw [hw] at this
      simpa using this
    rw [hw, hx] at hdrop
    refine ⟨b.take i, w, ?_, by rw [List.length_take]; omega, hs⟩
    rw [List.append_assoc, hdrop, List.take_append_drop]

/-- A string as long as the one before is written over it. -/
theorem memcpy_str {b s s' : List α} {i : ℕ} (h : str b i = some s) (hs : 0 ∉ s')
    (hlen : s'.length = s.length) :
    (Memory.memcpy b i s').length = b.length ∧ str (Memory.memcpy b i s') i = some s'
      ∧ ∀ j, i + s.length < j → str (Memory.memcpy b i s') j = str b j := by
  obtain ⟨u, w, rfl, rfl, -⟩ := str_eq_some h
  have heq : Memory.memcpy (u ++ s ++ 0 :: w) u.length s' = u ++ s' ++ 0 :: w := by
    unfold Memory.memcpy
    rw [hlen, List.append_assoc u, List.take_left, ← List.append_assoc u, ← List.length_append,
      List.drop_left]
  rw [heq]
  refine ⟨by simp [hlen], str_mid hs u w rfl, fun j hj => ?_⟩
  obtain ⟨k, rfl⟩ : ∃ k, j = (u ++ s ++ [0]).length + k := ⟨j - (u ++ s ++ [0]).length, by
    rw [List.length_append, List.length_append, List.length_singleton]
    omega⟩
  have hsplit : ∀ s : List α, u ++ s ++ 0 :: w = (u ++ s ++ [0]) ++ w := fun s => by simp
  rw [hsplit s, hsplit s', str_append_right]
  have hk : (u ++ s ++ [0]).length + k = (u ++ s' ++ [0]).length + k := by simp [hlen]
  rw [hk, str_append_right]

/-! ## Buffers of a fixed size -/

/-- A buffer of `n` cells. -/
structure Buffer (α : Type*) (n : ℕ) where
  cells : List α
  length : cells.length = n

namespace Buffer

variable {α : Type*} {n : ℕ}

/-- All cells are set. -/
def fill (_ : Buffer α n) (x : α) : Buffer α n := ⟨List.replicate n x, List.length_replicate⟩

/-- Cells are written one after the other. -/
def copy (b : Buffer α n) (i : ℕ) (s : List α) : Option (Buffer α n) :=
  if h : i + s.length ≤ n then
    some ⟨Memory.memcpy b.cells i s, by rw [Memory.length_memcpy (by rwa [b.length]), b.length]⟩
  else none

theorem copy_of_le (b : Buffer α n) {i : ℕ} {s : List α} (h : i + s.length ≤ n) :
    ∃ b', b.copy i s = some b' ∧ b'.cells = Memory.memcpy b.cells i s := by
  rw [copy, dif_pos h]
  exact ⟨_, rfl, rfl⟩

theorem copy_eq_none (b : Buffer α n) {i : ℕ} {s : List α} (h : n < i + s.length) :
    b.copy i s = none := dif_neg (Nat.not_le.2 h)

variable [Zero α]

/-- A string, and zeros up to the end of the buffer, which begins with `s`. -/
theorem copy_fill (b : Buffer α n) {s : List α} (h : s.length ≤ n) :
    ∃ b', (b.fill 0).copy 0 s = some b' ∧ b'.cells = s ++ List.replicate (n - s.length) 0 := by
  obtain ⟨b', hb, hcells⟩ := (b.fill 0).copy_of_le (i := 0) (s := s) (by omega)
  refine ⟨b', hb, ?_⟩
  rw [hcells, Memory.memcpy, List.take_zero, List.nil_append, Nat.zero_add, fill,
    List.drop_replicate]

variable [DecidableEq α]

/-- The string in a buffer. -/
def str (b : Buffer α n) : Option (List α) := Cells.str b.cells 0

theorem str_of_cells {b : Buffer α n} {s w : List α} (hs : 0 ∉ s) (h : b.cells = s ++ 0 :: w) :
    b.str = some s := by
  rw [str, h]
  exact str_mid hs [] w rfl

/-- A string that fills its buffer does not end in it. -/
theorem str_of_full {b : Buffer α n} (hs : 0 ∉ b.cells) : b.str = none := by
  have htake : b.cells.takeWhile (· ≠ 0) = b.cells := by
    rw [List.takeWhile_eq_self_iff]
    intro x hx
    simpa using fun h0 : x = 0 => hs (h0 ▸ hx)
  unfold str Cells.str
  rw [List.drop_zero, htake]
  simp

end Buffer

end Cells
