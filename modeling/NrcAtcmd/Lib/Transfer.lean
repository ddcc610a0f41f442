import Mathlib.Data.Nat.ModEq
import Mathlib.Tactic.Common

/-!
# Transfers through linked descriptors

A transfer engine moves units one at a time to where its descriptor says and takes the next
descriptor when the piece is done. Over descriptors that cover a buffer slot by slot, with the last
linked to the first (`ring`), the unit number `t` goes to the place `t` of the buffer taken as a ring
(`advance_ring`).
-/

namespace Transfer

/-- A piece of a transfer, and the descriptor that follows it. -/
structure Desc where
  dest : ℕ
  size : ℕ
  next : ℕ

/-- Where the next unit goes, how many are left of the piece, and the descriptor after it. -/
structure Cursor where
  dest : ℕ
  left : ℕ
  next : ℕ

def Desc.load (d : Desc) : Cursor := ⟨d.dest, d.size, d.next⟩

/-- The engine after one unit. It reads a descriptor only when it takes it. -/
def advance (fetch : ℕ → Option Desc) (c : Cursor) : Option Cursor :=
  if c.left ≤ 1 then (fetch c.next).map Desc.load else some ⟨c.dest + 1, c.left - 1, c.next⟩

/-- Over descriptors that are linked among themselves the engine does not stop. -/
theorem advance_of_lt {ds : List Desc} {c : Cursor} (hc : c.next < ds.length)
    (hd : ∀ d ∈ ds, d.next < ds.length) :
    ∃ c', advance (fun i => ds[i]?) c = some c' ∧ c'.next < ds.length := by
  unfold advance
  split_ifs
  · simp only [List.getElem?_eq_getElem hc, Option.map_some]
    exact ⟨_, rfl, hd _ (List.getElem_mem hc)⟩
  · exact ⟨_, rfl, hc⟩

/-- `n` slots one after the other from `base` on. -/
def ring (base slot n : ℕ) : List Desc :=
  (List.range n).map fun i => ⟨base + i * slot, slot, if i + 1 < n then i + 1 else 0⟩

/-- The engine on such a ring after `t` units. -/
def onRing (base slot n t : ℕ) : Cursor :=
  ⟨base + t % (slot * n), slot - t % slot, (t / slot + 1) % n⟩

variable {base slot n t : ℕ}

theorem getElem?_ring {i : ℕ} (hi : i < n) : (ring base slot n)[i]? =
    some ⟨base + i * slot, slot, if i + 1 < n then i + 1 else 0⟩ := by
  simp [ring, hi]

@[simp] theorem length_ring : (ring base slot n).length = n := by simp [ring]

theorem next_lt_of_mem_ring {d : Desc} (hd : d ∈ ring base slot n) :
    d.next < (ring base slot n).length := by
  simp only [ring, List.mem_map, List.mem_range] at hd
  obtain ⟨i, hi, rfl⟩ := hd
  rw [length_ring]
  dsimp only
  split_ifs <;> omega

theorem load_ring (hn : 0 < n) :
    (ring base slot n)[0]?.map Desc.load = some (onRing base slot n 0) := by
  rw [getElem?_ring hn]
  simp only [Option.map_some, Desc.load, onRing, Nat.zero_mul, Nat.zero_mod, Nat.sub_zero,
    Nat.zero_div, Nat.zero_add, Option.some.injEq, Cursor.mk.injEq, true_and]
  split_ifs with h
  · exact (Nat.mod_eq_of_lt h).symm
  · obtain rfl : n = 1 := by omega
    rfl

theorem succ_mod_eq (hn : 0 < n) (k : ℕ) :
    (k + 1) % n = if k % n + 1 < n then k % n + 1 else 0 := by
  have hk := Nat.mod_lt k hn
  rw [← Nat.mod_add_mod]
  split_ifs with h
  · exact Nat.mod_eq_of_lt h
  · rw [show k % n + 1 = n by omega, Nat.mod_self]

theorem advance_ring (hs : 0 < slot) (hn : 0 < n) :
    advance (fun i => (ring base slot n)[i]?) (onRing base slot n t) =
      some (onRing base slot n (t + 1)) := by
  have ht := Nat.mod_lt t hs
  have hdiv := Nat.div_add_mod t slot
  unfold advance
  split_ifs with h
  · -- the piece is done, so the next unit is the first one of a slot
    simp only [onRing] at h
    have hu : t + 1 = slot * (t / slot + 1) := by rw [Nat.mul_add]; omega
    have hd : (t + 1) / slot = t / slot + 1 := by rw [hu, Nat.mul_div_cancel_left _ hs]
    have hm : (t + 1) % slot = 0 := by rw [hu, Nat.mul_mod_right]
    have hr : (t + 1) % (slot * n) = slot * ((t / slot + 1) % n) := by
      rw [hu, Nat.mul_mod_mul_left]
    simp only [onRing]
    rw [getElem?_ring (Nat.mod_lt _ hn), Option.map_some, hd, hm, hr, succ_mod_eq hn (t / slot + 1),
      Nat.mul_comm slot]
    rfl
  · simp only [onRing] at h
    have hd : (t + 1) / slot = t / slot := by
      rw [Nat.div_eq_iff hs, Nat.mul_comm]
      omega
    have hm : (t + 1) % slot = t % slot + 1 := by
      rw [← Nat.mod_add_mod, Nat.mod_eq_of_lt (by omega)]
    have hr : (t + 1) % (slot * n) = t % (slot * n) + 1 := by
      rw [succ_mod_eq (Nat.mul_pos hs hn), if_pos]
      have := Nat.mod_lt t (Nat.mul_pos hs hn)
      have hne : t % (slot * n) + 1 ≠ slot * n := by
        intro he
        have h0 : (t % (slot * n) + 1) % slot = 0 := by rw [he, Nat.mul_mod_right]
        rw [← Nat.mod_add_mod, Nat.mod_mul_right_mod, Nat.mod_eq_of_lt (by omega)] at h0
        omega
      omega
    simp only [onRing, hd, hm, hr, Option.some.injEq, Cursor.mk.injEq, and_true]
    omega

end Transfer
