import Mathlib.Data.List.Basic
import Mathlib.Tactic.Common

/-!
# Contents with a digest on record

A record vouches for the first letters of a store by their number and their digest. It is `Sound`
while the digest of those letters is the one on record. Changes that spare the letters on record
keep it sound, and so do giving the record up and making it anew from the contents.
-/

/-- Contents, and the number and the digest of the letters that are vouched for. -/
structure Attested (α δ : Type*) where
  content : ℕ → α
  record : Option (ℕ × δ)

namespace Attested

variable {α δ : Type*} {digest : List α → δ} {a b c : Attested α δ}

/-- The first `n` letters. -/
def image (content : ℕ → α) (n : ℕ) : List α := (List.range n).map content

/-- The digest on record is that of the contents. -/
def Sound (digest : List α → δ) (a : Attested α δ) : Prop :=
  ∀ n d, a.record = some (n, d) → digest (image a.content n) = d

/-- From `a` to `b` the record stays, and so do the letters it vouches for. -/
structure Spares (a b : Attested α δ) : Prop where
  record : b.record = a.record
  content : ∀ n d, a.record = some (n, d) → ∀ i < n, b.content i = a.content i

theorem image_congr {f g : ℕ → α} {n : ℕ} (h : ∀ i < n, f i = g i) : image f n = image g n := by
  unfold image
  refine List.map_congr_left fun i hi => h i (List.mem_range.1 hi)

theorem Spares.refl (a : Attested α δ) : Spares a a := ⟨rfl, fun _ _ _ _ _ => rfl⟩

theorem Spares.trans (h : Spares a b) (h' : Spares b c) : Spares a c where
  record := h'.record.trans h.record
  content n d hr i hi := by
    rw [h'.content n d (h.record.trans hr) i hi, h.content n d hr i hi]

/-- Where nothing is on record, any change spares it. -/
theorem Spares.of_none (ha : a.record = none) (hb : b.record = none) : Spares a b where
  record := hb.trans ha.symm
  content n d hr := by
    rw [ha] at hr
    cases hr

theorem Sound.spares (h : Sound digest a) (hs : Spares a b) : Sound digest b := by
  intro n d hr
  rw [hs.record] at hr
  rw [image_congr (hs.content n d hr), h n d hr]

theorem Sound.of_none (h : a.record = none) : Sound digest a := by
  intro n d hr
  rw [h] at hr
  cases hr

theorem Sound.attest {n : ℕ} {d : δ} (hr : a.record = some (n, d))
    (h : digest (image a.content n) = d) : Sound digest a := by
  intro m e hm
  rw [hr, Option.some.injEq, Prod.mk.injEq] at hm
  rw [← hm.1, ← hm.2, h]

end Attested
