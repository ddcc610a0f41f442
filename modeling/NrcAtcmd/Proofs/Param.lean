import NrcAtcmd.Param

/-!
# The numbers `%u` writes are the numbers the parameters are

A parameter that `printf` wrote is read back as the number it was, up to the largest `long`.
-/

namespace NrcAtcmd

open Decimal

lemma ofNat_cons (n : ℕ) : ∃ d ds, ofNat n = d :: ds ∧ isDigit d = true := by
  rcases hn : ofNat n with _ | ⟨d, ds⟩
  · exact absurd hn (ofNat_ne_nil n)
  · exact ⟨d, ds, rfl, isDigit_of_mem_ofNat n d (by rw [hn]; exact List.mem_cons_self)⟩

lemma isDigit_ne {d : UInt8} (h : isDigit d = true) : isSpace d = false ∧ d ≠ 43 ∧ d ≠ 45 := by
  simp only [isDigit, Bool.and_eq_true, decide_eq_true_eq] at h
  refine ⟨?_, ?_, ?_⟩
  · simp only [isSpace, Bool.or_eq_false_iff, beq_eq_false_iff_ne, Bool.and_eq_false_iff,
      decide_eq_false_iff_not]
    exact ⟨by grind, by grind⟩
  · grind
  · grind

/-- `strtol` passes over spaces, reads digits, and stops where they end. -/
theorem strtol_digits {pad ds : Bytes} {n : ℕ} (hpad : ∀ b ∈ pad, isSpace b = true)
    (hds : scan 0 ds = (n, [])) (hne : ds ≠ []) {bs : Bytes}
    (h : ∀ b ∈ bs.head?, isDigit b = false) : strtol (pad ++ ds ++ bs) = (longOf n, bs) := by
  obtain ⟨d, ds, rfl⟩ := List.exists_cons_of_ne_nil hne
  have hdig : isDigit d = true := by
    by_contra hd
    rw [scan, if_neg hd] at hds
    simp at hds
  obtain ⟨hspace, hplus, hminus⟩ := isDigit_ne hdig
  have hscan : scan 0 (d :: (ds ++ bs)) = (n, bs) := by
    rw [← List.cons_append, scan_append hds, scan_of_not_digit n h]
  have hsign : signOf (d :: (ds ++ bs)) = (false, d :: (ds ++ bs)) := by
    unfold signOf
    split <;> simp_all
  unfold strtol
  rw [List.append_assoc, List.dropWhile_append_of_pos hpad, List.cons_append,
    List.dropWhile_cons_of_neg (by simp [hspace]), hsign]
  simp only [hdig, if_true, hscan, Bool.false_eq_true, if_false]

/-- `strtol` reads the digits `%u` wrote, and stops where they end. -/
theorem strtol_ofNat (n : ℕ) (bs : Bytes) (h : ∀ b ∈ bs.head?, isDigit b = false) :
    strtol (ofNat n ++ bs) = (longOf n, bs) := by
  have hscan : scan 0 (ofNat n) = (n, []) := by
    have hnil : ∀ b ∈ ([] : List UInt8).head?, isDigit b = false := by simp
    simpa using scan_ofNat n hnil
  exact strtol_digits (List.forall_mem_nil _) hscan (ofNat_ne_nil n) h

theorem atoi_ofNat {n : ℕ} (hn : n < 2 ^ 31) {bs : Bytes} (h : ∀ b ∈ bs.head?, isDigit b = false) :
    atoi (ofNat n ++ bs) = n := by
  unfold atoi
  rw [strtol_ofNat n bs h]
  unfold longOf
  omega

theorem atcmdParamToUint_ofNat {n : ℕ} (hn : n < 2 ^ 31) :
    atcmdParamToUint_ (ofNat n) = some n := by
  have hs := strtol_ofNat n [] (by simp)
  rw [List.append_nil] at hs
  obtain ⟨d, ds, hd, hdig⟩ := ofNat_cons n
  have hne : (ofNat n).head? ≠ some 45 := by
    rw [hd]
    simpa using (isDigit_ne hdig).2.2
  have hl : (longOf n % 2 ^ 32).toNat = n := by
    unfold longOf
    omega
  unfold atcmdParamToUint_
  rw [if_neg hne, hs]
  simp only [ne_eq, not_true_eq_false, if_false, hl]

theorem atcmdParamToUint32_ofNat {n : ℕ} (hn : n < 2 ^ 31) :
    atcmdParamToUint32 (ofNat n) = some (.ofNat n) := by
  unfold atcmdParamToUint32
  rw [atcmdParamToUint_ofNat hn, Option.map_some]

end NrcAtcmd
