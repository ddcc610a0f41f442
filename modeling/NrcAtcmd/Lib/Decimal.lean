import Mathlib.Data.List.Basic
import Mathlib.Data.List.Induction
import Mathlib.Data.Int.Notation
import Mathlib.Tactic.Common
import Mathlib.Tactic.IntervalCases

/-!
# Decimal numbers in ASCII

`ofNat` and `ofInt` write a number the way `%u` and `%d` do. `scan` reads the digits at the front of
a text, and reads back what `ofNat` wrote when no further digit follows (`scan_ofNat`). What `ofNat`
writes are the numerals: digits with no zero before them (`numeral_iff`).
-/

namespace Decimal

def isDigit (b : UInt8) : Bool := decide (48 ≤ b) && decide (b ≤ 57)

/-- The digits of `n`. -/
def ofNat (n : ℕ) : List UInt8 := (Nat.toDigits 10 n).map fun c => UInt8.ofNat c.toNat

/-- The digits of `n` after its sign. -/
def ofInt : ℤ → List UInt8
  | .ofNat n => ofNat n
  | .negSucc n => 45 :: ofNat (n + 1)

/-- The number the digits at the front of a text continue `n` to, and the text after them. -/
def scan : ℕ → List UInt8 → ℕ × List UInt8
  | n, [] => (n, [])
  | n, b :: bs => if isDigit b then scan (10 * n + (b.toNat - 48)) bs else (n, b :: bs)

lemma digitChar_toNat {d : ℕ} (h : d < 10) :
    UInt8.ofNat (Nat.digitChar d).toNat = UInt8.ofNat (48 + d) := by
  interval_cases d <;> rfl

/-- The last digit comes off the end. -/
lemma ofNat_eq (n : ℕ) :
    ofNat n = (if n < 10 then [] else ofNat (n / 10)) ++ [UInt8.ofNat (48 + n % 10)] := by
  have hd : n % 10 < 10 := Nat.mod_lt _ (by omega)
  unfold ofNat
  rw [Nat.toDigits_eq_if (by omega)]
  split_ifs with h
  · rw [Nat.mod_eq_of_lt h, List.map_singleton, digitChar_toNat h, List.nil_append]
  · rw [List.map_append, List.map_singleton, digitChar_toNat hd]

lemma ofNat_ne_nil (n : ℕ) : ofNat n ≠ [] := by
  rw [ofNat_eq]
  simp

/-- A number below `10 ^ k` has at most `k` digits. -/
theorem length_ofNat_le : ∀ {k n : ℕ}, 0 < k → n < 10 ^ k → (ofNat n).length ≤ k
  | 0, _, h, _ => absurd h (Nat.lt_irrefl 0)
  | k + 1, n, _, hn => by
    rw [ofNat_eq]
    split_ifs with h
    · simp
    · have hk : 0 < k := by
        rcases Nat.eq_zero_or_pos k with rfl | hk
        · simp at hn
          omega
        · exact hk
      have := length_ofNat_le hk (n := n / 10) (by rw [Nat.pow_succ] at hn; omega)
      simpa using this

lemma isDigit_digit {d : ℕ} (h : d < 10) : isDigit (UInt8.ofNat (48 + d)) = true := by
  interval_cases d <;> rfl

lemma digit_toNat {d : ℕ} (h : d < 10) : (UInt8.ofNat (48 + d)).toNat - 48 = d := by
  interval_cases d <;> rfl

lemma isDigit_of_mem_ofNat (n : ℕ) : ∀ b ∈ ofNat n, isDigit b = true := by
  induction n using Nat.strong_induction_on with
  | _ n ih =>
    intro b hb
    rw [ofNat_eq] at hb
    rcases List.mem_append.1 hb with hb | hb
    · split_ifs at hb with h
      · cases hb
      · exact ih (n / 10) (by omega) b hb
    · rw [List.mem_singleton] at hb
      rw [hb]
      exact isDigit_digit (Nat.mod_lt _ (by omega))

/-- The digits of `n` are read as `n`, whatever comes after them. -/
theorem scan_ofNat_append (n : ℕ) : ∀ bs : List UInt8, scan 0 (ofNat n ++ bs) = scan n bs := by
  induction n using Nat.strong_induction_on with
  | _ n ih =>
    intro bs
    have hd : n % 10 < 10 := Nat.mod_lt _ (by omega)
    have hlast : ∀ m, scan m (UInt8.ofNat (48 + n % 10) :: bs) = scan (10 * m + n % 10) bs := by
      intro m
      simp only [scan, isDigit_digit hd, if_true, digit_toNat hd]
    rw [ofNat_eq, List.append_assoc, List.singleton_append]
    split_ifs with h
    · rw [List.nil_append, hlast, Nat.mod_eq_of_lt h, Nat.mul_zero, Nat.zero_add]
    · rw [ih (n / 10) (by omega), hlast, Nat.div_add_mod]

lemma scan_of_not_digit (n : ℕ) : ∀ {bs : List UInt8}, (∀ b ∈ bs.head?, isDigit b = false) →
    scan n bs = (n, bs)
  | [], _ => rfl
  | b :: bs, h => by
    rw [scan, if_neg (by simp [h b rfl])]

/-- A number goes on where its digits do. -/
theorem scan_append {n m : ℕ} {ds : List UInt8} (h : scan n ds = (m, [])) (bs : List UInt8) :
    scan n (ds ++ bs) = scan m bs := by
  induction ds generalizing n with
  | nil =>
    simp only [scan, Prod.mk.injEq, and_true] at h
    rw [h, List.nil_append]
  | cons d ds ih =>
    rw [scan] at h
    split_ifs at h with hd
    · rw [List.cons_append, scan, if_pos hd, ih h]
    · simp at h

theorem scan_ofNat (n : ℕ) {bs : List UInt8} (h : ∀ b ∈ bs.head?, isDigit b = false) :
    scan 0 (ofNat n ++ bs) = (n, bs) := by
  rw [scan_ofNat_append, scan_of_not_digit n h]

/-! ## Numerals -/

/-- A text is the digits of a number, with no zero before another digit. -/
structure Numeral (s : List UInt8) (n : ℕ) : Prop where
  scan : scan 0 s = (n, [])
  ne_nil : s ≠ []
  head : s.head? = some 48 → s = [48]

lemma ofNat_of_lt {n : ℕ} (h : n < 10) : ofNat n = [UInt8.ofNat (48 + n)] := by
  rw [ofNat_eq, if_pos h, List.nil_append, Nat.mod_eq_of_lt h]

/-- Only zero begins with a zero. -/
lemma eq_zero_of_head (n : ℕ) (h : (ofNat n).head? = some 48) : n = 0 := by
  induction n using Nat.strong_induction_on with
  | _ n ih =>
    by_cases hn : n < 10
    · rw [ofNat_of_lt hn] at h
      interval_cases n
      all_goals first | rfl | exact absurd h (by decide)
    · rw [ofNat_eq, if_neg hn, List.head?_append_of_ne_nil _ (ofNat_ne_nil _)] at h
      have := ih (n / 10) (by omega) h
      omega

/-- A text is read to its end if all of it is digits. -/
lemma scan_concat {n m : ℕ} {ds : List UInt8} {d : UInt8} : scan n (ds ++ [d]) = (m, []) ↔
    ∃ k, scan n ds = (k, []) ∧ isDigit d = true ∧ m = 10 * k + (d.toNat - 48) := by
  induction ds generalizing n with
  | nil =>
    simp only [List.nil_append, scan, Prod.mk.injEq, and_true, exists_eq_left']
    split_ifs with hd <;> simp [hd, eq_comm]
  | cons b ds ih =>
    simp only [List.cons_append, scan]
    split_ifs
    · exact ih
    · simp

lemma digit_eq {d : UInt8} (h : isDigit d = true) : UInt8.ofNat (48 + (d.toNat - 48)) = d := by
  simp only [isDigit, Bool.and_eq_true, decide_eq_true_eq, UInt8.le_iff_toNat_le] at h
  have h48 : (48 : UInt8).toNat = 48 := rfl
  rw [Nat.add_sub_of_le (by omega), UInt8.ofNat_toNat]

lemma digit_lt {d : UInt8} (h : isDigit d = true) : d.toNat - 48 < 10 := by
  simp only [isDigit, Bool.and_eq_true, decide_eq_true_eq, UInt8.le_iff_toNat_le] at h
  have h57 : (57 : UInt8).toNat = 57 := rfl
  omega

/-- A numeral is what `ofNat` writes. -/
theorem Numeral.ofNat_eq {s : List UInt8} {n : ℕ} (h : Numeral s n) : ofNat n = s := by
  obtain ⟨hscan, hne, hhead⟩ := h
  induction s using List.reverseRecOn generalizing n with
  | nil => exact absurd rfl hne
  | append_singleton ds d ih =>
    obtain ⟨k, hk, hd, rfl⟩ := scan_concat.1 hscan
    have hlt := digit_lt hd
    by_cases hnil : ds = []
    · subst hnil
      obtain rfl : k = 0 := by simpa [Decimal.scan, eq_comm] using hk
      rw [Nat.mul_zero, Nat.zero_add, ofNat_of_lt hlt, digit_eq hd, List.nil_append]
    · have hhead' : ds.head? = some 48 → ds = [48] := by
        intro h0
        have := hhead (by rw [List.head?_append_of_ne_nil _ hnil, h0])
        have := congrArg List.length this
        have := List.length_pos_iff.2 hnil
        simp only [List.length_append, List.length_singleton] at *
        omega
      have hds := ih hk hnil hhead'
      have hpos : k ≠ 0 := by
        rintro rfl
        have h48 : ds = [48] := by rw [← hds]; rfl
        have := hhead (by rw [h48]; rfl)
        rw [h48] at this
        simp at this
      rw [Decimal.ofNat_eq, if_neg (by omega), show (10 * k + (d.toNat - 48)) / 10 = k by omega,
        show (10 * k + (d.toNat - 48)) % 10 = d.toNat - 48 by omega, hds, digit_eq hd]

theorem numeral_ofNat (n : ℕ) : Numeral (ofNat n) n where
  scan := by
    have h : ∀ b ∈ ([] : List UInt8).head?, isDigit b = false := by simp
    simpa using scan_ofNat n h
  ne_nil := ofNat_ne_nil n
  head h := by
    rw [eq_zero_of_head n h]
    rfl

theorem numeral_iff {s : List UInt8} {n : ℕ} : Numeral s n ↔ ofNat n = s :=
  ⟨Numeral.ofNat_eq, fun h => h ▸ numeral_ofNat n⟩

end Decimal
