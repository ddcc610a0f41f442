import Mathlib.Data.List.Rotate
import NrcAtcmd.Lib.Memory

/-!
# A ring over a buffer

A ring reads its buffer from an index on and comes back to the start at the end of it, so what the
ring holds is seen in the buffer rotated by that index. A copy to the cell `j` past the index that
does not cross the end of the buffer is a copy to the offset `j` of the rotated buffer
(`rotate_memcpy`), and a read of such cells is one there (`take_drop_rotate`). Free-running indices
that wrap at a multiple of the buffer's length see the same ring (`rotate_mod_of_dvd`).
-/

namespace Ring

open Memory (memcpy)

variable {α : Type*} {b : List α} {q j k c w : ℕ}

theorem rotate_eq (hj : j ≤ b.length) : b.rotate j = b.drop j ++ b.take j :=
  List.rotate_eq_drop_append_take hj

theorem rotate_mod_of_dvd (h : b.length ∣ w) (i : ℕ) : b.rotate (i % w) = b.rotate i := by
  rw [← List.rotate_mod b (i % w), Nat.mod_mod_of_dvd i h, List.rotate_mod]

/-- What is left of the first `c` cells once the ring starts `k` cells later. -/
theorem take_rotate (hk : k ≤ c) (hc : c ≤ b.length) :
    (b.rotate k).take (c - k) = (b.take c).drop k := by
  rw [rotate_eq (hk.trans hc), List.take_append_of_le_length (by simp; omega), List.drop_take]

theorem take_drop_rotate (hw : (q + j) % b.length + k ≤ b.length) (hj : j + k ≤ b.length) :
    (b.drop ((q + j) % b.length)).take k = ((b.rotate q).drop j).take k := by
  have hjr : j ≤ (b.rotate q).length := by rw [List.length_rotate]; omega
  have hr : b.rotate (q + j) = (b.rotate q).drop j ++ (b.rotate q).take j := by
    rw [← List.rotate_rotate, rotate_eq hjr]
  have h := congrArg (List.take k) hr
  rw [← List.rotate_mod, rotate_eq (by omega), List.take_append_of_le_length (by simp; omega),
    List.take_append_of_le_length (by simp; omega)] at h
  exact h

/-- A copy that stays inside the buffer, in the buffer rotated to where it starts. -/
theorem rotate_memcpy_self {p : ℕ} {l : List α} (h : p + l.length ≤ b.length) :
    (memcpy b p l).rotate p = l ++ (b.rotate p).drop l.length := by
  have hp : p ≤ b.length := by omega
  have ht : (b.take p).length = p := by simp [hp]
  have hd : (memcpy b p l).drop p = l ++ b.drop (p + l.length) := by
    rw [memcpy, List.append_assoc, List.drop_append, ht, Nat.sub_self, List.drop_zero,
      List.drop_eq_nil_of_le ht.le, List.nil_append]
  have htk : (memcpy b p l).take p = b.take p := by
    rw [memcpy, List.append_assoc, List.take_append_of_le_length ht.ge, List.take_of_length_le ht.le]
  have hr : ((b.rotate p).drop l.length) = b.drop (p + l.length) ++ b.take p := by
    rw [rotate_eq hp, List.drop_append_of_le_length (by rw [List.length_drop]; omega),
      List.drop_drop]
  rw [rotate_eq (by rw [Memory.length_memcpy h]; exact hp), hd, htk, hr, List.append_assoc]

theorem rotate_memcpy {l : List α} (hw : (q + j) % b.length + l.length ≤ b.length)
    (hj : j + l.length ≤ b.length) :
    (memcpy b ((q + j) % b.length) l).rotate q = memcpy (b.rotate q) j l := by
  have hl := Memory.length_memcpy hw
  have hj' : j ≤ b.length := by omega
  have h : ((memcpy b ((q + j) % b.length) l).rotate q).rotate j =
      (memcpy (b.rotate q) j l).rotate j := by
    rw [rotate_memcpy_self (by rw [List.length_rotate]; omega), List.rotate_rotate,
      List.rotate_rotate, ← List.rotate_mod b (q + j), ← rotate_memcpy_self hw,
      ← List.rotate_mod _ (q + j), hl]
  exact List.rotate_injective j h

end Ring
