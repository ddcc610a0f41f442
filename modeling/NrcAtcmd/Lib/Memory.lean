import Mathlib.Data.List.Basic
import Mathlib.Tactic.Common

/-!
# Copies into a buffer

`memcpy dst off src` is the buffer `dst` after `src` was copied to its offset `off`. A copy that
does not fit leaves a buffer longer than it was (`length_memcpy`), so a bound on the copies is a
fact to prove and not part of the definition.

`read` reads cells. It reads back what was copied (`read_memcpy`), and a copy beside it does not
change it; `memcpys` are copies one after the other, of which the last one of a cell is read.
-/

namespace Memory

variable {α : Type*}

/-- The buffer after a copy of `src` to offset `off`. -/
def memcpy (dst : List α) (off : ℕ) (src : List α) : List α :=
  dst.take off ++ src ++ dst.drop (off + src.length)

/-- A copy keeps the length exactly if it fits, or there is nothing to copy. -/
theorem length_memcpy_iff {dst src : List α} {off : ℕ} :
    (memcpy dst off src).length = dst.length ↔ src = [] ∨ off + src.length ≤ dst.length := by
  rw [← List.length_eq_zero_iff]
  simp only [memcpy, List.length_append, List.length_take, List.length_drop]
  omega

theorem length_memcpy {dst src : List α} {off : ℕ} (h : off + src.length ≤ dst.length) :
    (memcpy dst off src).length = dst.length :=
  length_memcpy_iff.2 (Or.inr h)

theorem le_length_memcpy {dst src : List α} {off : ℕ} (h : off ≤ dst.length) :
    off + src.length ≤ (memcpy dst off src).length := by
  simp only [memcpy, List.length_append, List.length_take]
  omega

theorem length_le_memcpy {dst src : List α} {off : ℕ} (h : off ≤ dst.length) :
    dst.length ≤ (memcpy dst off src).length := by
  simp only [memcpy, List.length_append, List.length_take, List.length_drop]
  omega

@[simp] theorem memcpy_nil (dst : List α) (off : ℕ) : memcpy dst off [] = dst := by
  simp [memcpy]

/-- The buffer up to the end of the copy: what was there before it, then the copy. -/
theorem take_memcpy {dst src : List α} {off : ℕ} (h : off ≤ dst.length) :
    (memcpy dst off src).take (off + src.length) = dst.take off ++ src := by
  have hl : (dst.take off ++ src).length = off + src.length := by
    simp [List.length_take, h]
  rw [memcpy, ← hl, List.take_left]

/-- A copy behind a part that stays. -/
theorem memcpy_append {u w src : List α} {off : ℕ} (h : u.length = off) :
    memcpy (u ++ w) off src = u ++ src ++ w.drop src.length := by
  rw [memcpy, ← h, List.take_left, List.drop_append, List.drop_eq_nil_of_le (by omega),
    List.nil_append, Nat.add_sub_cancel_left]

/-! ## Reads -/

/-- `n` cells of the buffer from `off` on. -/
def read (b : List α) (off n : ℕ) : List α := (b.drop off).take n

theorem getElem?_read (b : List α) (off n i : ℕ) :
    (read b off n)[i]? = if i < n then b[off + i]? else none := by
  rw [read, List.getElem?_take, List.getElem?_drop]

theorem getElem?_memcpy {dst : List α} {off : ℕ} (src : List α) (h : off ≤ dst.length) (i : ℕ) :
    (memcpy dst off src)[i]? =
      if i < off then dst[i]? else if i < off + src.length then src[i - off]? else dst[i]? := by
  rw [memcpy, List.append_assoc, List.getElem?_append, List.length_take, Nat.min_eq_left h]
  split_ifs with h₁ h₂
  · rw [List.getElem?_take, if_pos h₁]
  · rw [List.getElem?_append_left (by omega)]
  · rw [List.getElem?_append_right (by omega), List.getElem?_drop]
    congr 1
    omega

/-- A copy is read back. -/
theorem read_memcpy {dst : List α} {off : ℕ} (src : List α) (h : off ≤ dst.length) :
    read (memcpy dst off src) off src.length = src := by
  refine List.ext_getElem? fun i => ?_
  rw [getElem?_read]
  split_ifs with hi
  · rw [getElem?_memcpy src h, if_neg (by omega), if_pos (by omega), Nat.add_sub_cancel_left]
  · rw [List.getElem?_eq_none (by omega)]

/-- Two ranges of cells have none in common. -/
def Apart (a n b m : ℕ) : Prop := a + n ≤ b ∨ b + m ≤ a

instance (a n b m : ℕ) : Decidable (Apart a n b m) := inferInstanceAs (Decidable (_ ∨ _))

theorem Apart.mono {a n n' b m m' : ℕ} (h : Apart a n b m) (hn : n' ≤ n) (hm : m' ≤ m) :
    Apart a n' b m' := by
  unfold Apart at *
  omega

/-- A copy beside the cells that are read. -/
theorem read_memcpy_of_apart {dst src : List α} {off a n : ℕ} (h : off ≤ dst.length)
    (hd : Apart a n off src.length) : read (memcpy dst off src) a n = read dst a n := by
  refine List.ext_getElem? fun i => ?_
  rw [getElem?_read, getElem?_read]
  split_ifs with hi
  · rw [getElem?_memcpy src h]
    rcases hd with hd | hd
    · rw [if_pos (by omega)]
    · rw [if_neg (by omega), if_neg (by omega)]
  · rfl

/-- Copies one after the other, each to its offset. -/
def memcpys (b : List α) (ws : List (ℕ × List α)) : List α :=
  ws.foldl (fun b w => memcpy b w.1 w.2) b

theorem memcpys_append (b : List α) (us vs : List (ℕ × List α)) :
    memcpys b (us ++ vs) = memcpys (memcpys b us) vs := List.foldl_append

theorem length_memcpys : ∀ {ws : List (ℕ × List α)} {b : List α},
    (∀ w ∈ ws, w.1 + w.2.length ≤ b.length) → (memcpys b ws).length = b.length
  | [], _, _ => rfl
  | w :: ws, b, h => by
    have hw := length_memcpy (h w (List.mem_cons_self ..))
    have hws : (memcpys (memcpy b w.1 w.2) ws).length = (memcpy b w.1 w.2).length :=
      length_memcpys fun v hv => by
        rw [hw]
        exact h v (List.mem_cons_of_mem _ hv)
    exact hws.trans hw

/-- Copies beside the cells that are read. -/
theorem read_memcpys_of_apart {a n : ℕ} : ∀ {ws : List (ℕ × List α)} {b : List α},
    (∀ w ∈ ws, w.1 + w.2.length ≤ b.length) → (∀ w ∈ ws, Apart a n w.1 w.2.length) →
      read (memcpys b ws) a n = read b a n
  | [], _, _, _ => rfl
  | w :: ws, b, h, hd => by
    have hw := h w (List.mem_cons_self ..)
    have hws : read (memcpys (memcpy b w.1 w.2) ws) a n = read (memcpy b w.1 w.2) a n :=
      read_memcpys_of_apart
        (fun v hv => by
          rw [length_memcpy hw]
          exact h v (List.mem_cons_of_mem _ hv))
        (fun v hv => hd v (List.mem_cons_of_mem _ hv))
    exact hws.trans (read_memcpy_of_apart (by omega) (hd w (List.mem_cons_self ..)))

/-- One of several copies is read back, if those after it are beside it. -/
theorem read_memcpys {us vs : List (ℕ × List α)} {w : ℕ × List α} {b : List α}
    (h : ∀ v ∈ us ++ w :: vs, v.1 + v.2.length ≤ b.length)
    (hd : ∀ v ∈ vs, Apart w.1 w.2.length v.1 v.2.length) :
    read (memcpys b (us ++ w :: vs)) w.1 w.2.length = w.2 := by
  have hus : (memcpys b us).length = b.length :=
    length_memcpys fun v hv => h v (List.mem_append_left _ hv)
  have hw := h w (by simp)
  have hvs : ∀ v ∈ vs, v.1 + v.2.length ≤ (memcpy (memcpys b us) w.1 w.2).length := by
    intro v hv
    rw [length_memcpy (by omega), hus]
    exact h v (by simp [hv])
  rw [memcpys_append]
  exact (read_memcpys_of_apart hvs hd).trans (read_memcpy w.2 (by omega))

end Memory
