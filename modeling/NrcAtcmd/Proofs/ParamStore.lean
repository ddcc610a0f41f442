import NrcAtcmd.HostRecv
import NrcAtcmd.ParamStore
import NrcAtcmd.Proofs.Param

/-!
# What the parsers take

A number is taken in the spelling `printf` gives it, so what is taken is one of its spellings
(`canonical_iff`), and it is one that `strtol` reads without cutting it to a `long`. What is left of
the range of a type is what its parser misses.
-/

namespace NrcAtcmd.ParamStore

open Decimal
open Memory (memcpy)

/-! ## Spellings of integers -/

theorem canonical_iff {s : Bytes} {v : ℤ} : Canonical s v ↔ ofInt v = s := by
  constructor
  · rintro (⟨h⟩ | ⟨h, hpos⟩)
    · exact numeral_iff.1 h
    · rename_i s n
      obtain ⟨m, rfl⟩ := Nat.exists_eq_add_of_lt hpos
      rw [Nat.zero_add, show -((m + 1 : ℕ) : ℤ) = .negSucc m from rfl, ofInt, ← h.ofNat_eq,
        Nat.zero_add]
  · rintro rfl
    rcases v with n | n
    · exact .nonneg (numeral_ofNat n)
    · exact .neg (numeral_ofNat (n + 1)) (by omega)

/-- `strtol` reads what `printf` wrote, and `errno` stays if it need not cut it. -/
theorem strtol_ofInt (errno v : ℤ) :
    strtol errno (ofInt v) = ((longOf v, []), if longOf v = v then errno else erange) := by
  rcases v with n | n
  · obtain ⟨d, ds, hd, hdig⟩ := ofNat_cons n
    obtain ⟨hspace, hplus, hminus⟩ := isDigit_ne hdig
    have hs := strtol_ofNat n [] (by simp)
    have hscan := (numeral_ofNat n).scan
    have hdrop : (d :: ds).dropWhile isSpace = d :: ds :=
      List.dropWhile_cons_of_neg (by simp [hspace])
    have hsign : signOf (d :: ds) = (false, d :: ds) := by
      unfold signOf
      split <;> simp_all
    rw [List.append_nil] at hs
    unfold strtol
    rw [ofInt, hs]
    rw [hd] at hscan ⊢
    rw [hdrop, hsign]
    simp only [hscan, Bool.false_eq_true, if_false, Int.ofNat_eq_natCast]
  · obtain ⟨d, ds, hd, hdig⟩ := ofNat_cons (n + 1)
    have hscan := (numeral_ofNat (n + 1)).scan
    have hdrop : (45 :: d :: ds).dropWhile isSpace = 45 :: d :: ds :=
      List.dropWhile_cons_of_neg (by decide)
    have hv : -((n + 1 : ℕ) : ℤ) = .negSucc n := rfl
    rw [hd] at hscan
    unfold strtol NrcAtcmd.strtol
    rw [ofInt, hd, hdrop, signOf]
    simp only [hscan, hdig, if_true, hv]

theorem ofInt_injective {v w : ℤ} (h : ofInt v = ofInt w) : v = w := by
  have hneg : ∀ n m : ℕ, 45 :: ofNat (n + 1) ≠ ofNat m := by
    intro n m he
    have := isDigit_of_mem_ofNat m 45 (by rw [← he]; exact List.mem_cons_self)
    exact absurd this (by decide)
  have hnat : ∀ n m : ℕ, ofNat n = ofNat m → n = m := by
    intro n m he
    have hs := (numeral_ofNat n).scan
    rw [he, (numeral_ofNat m).scan] at hs
    exact (Prod.mk.inj hs).1.symm
  rcases v with n | n <;> rcases w with m | m
  · rw [hnat n m h]
  · exact absurd h.symm (hneg m n)
  · exact absurd h (hneg n m)
  · rw [Int.negSucc_inj]
    have := hnat _ _ (List.cons.inj h).2
    omega

theorem Canonical.eq {s : Bytes} {v w : ℤ} (hv : Canonical s v) (hw : Canonical s w) : v = w :=
  ofInt_injective ((canonical_iff.1 hv).trans (canonical_iff.1 hw).symm)

theorem longOf_eq {v : ℤ} : longOf v = v ↔ -2 ^ 31 ≤ v ∧ v ≤ 2 ^ 31 - 1 := by
  unfold longOf
  omega

/-- The ends of a `long`, which `strtol` also returns for what lies outside. -/
def AtEnd (v : ℤ) : Prop := v = -2 ^ 31 ∨ v = 2 ^ 31 - 1

/-- `_atcmd_param_to_int` takes the spelling of a `long`, but for its ends while `errno` is
`ERANGE`. -/
theorem paramToInt_spec (errno : ℤ) (str : Bytes) (val : ℤ) :
    ((atcmdParamToInt_ errno str val).1 = 0
        ∧ Canonical str (atcmdParamToInt_ errno str val).2.1
        ∧ longOf (atcmdParamToInt_ errno str val).2.1 = (atcmdParamToInt_ errno str val).2.1
        ∧ ¬ (errno = erange ∧ AtEnd (atcmdParamToInt_ errno str val).2.1))
      ∨ ((atcmdParamToInt_ errno str val).1 = -1 ∧ ∀ v, Canonical str v →
        -2 ^ 31 ≤ v → v ≤ 2 ^ 31 - 1 → errno = erange ∧ AtEnd v) := by
  by_cases h : ∃ v, Canonical str v ∧ longOf v = v
  · obtain ⟨v, hv, hl⟩ := h
    obtain rfl := canonical_iff.1 hv
    unfold atcmdParamToInt_
    rw [strtol_ofInt, hl, if_pos rfl]
    simp only [ne_eq, not_true_eq_false, if_false]
    split_ifs with he
    · exact .inr ⟨rfl, fun w hw _ _ => hv.eq hw ▸ he⟩
    · exact .inl ⟨rfl, hv, hl, he⟩
  · refine .inr ⟨?_, fun v hv hlo hhi => absurd ⟨v, hv, longOf_eq.2 ⟨hlo, hhi⟩⟩ h⟩
    unfold atcmdParamToInt_
    dsimp only
    split_ifs with hend he hne
    · rfl
    · rfl
    · rfl
    · refine absurd ⟨(strtol errno str).1.1, canonical_iff.2 (not_not.1 hne), ?_⟩ h
      have hs := strtol_ofInt errno (strtol errno str).1.1
      rw [not_not.1 hne] at hs
      exact (congrArg (fun p => p.1.1) hs).symm

theorem paramToUint_spec (errno : ℤ) (str : Bytes) (val : ℤ) :
    ((atcmdParamToUint_ errno str val).1 = 0
        ∧ Canonical str (atcmdParamToUint_ errno str val).2.1
        ∧ 0 ≤ (atcmdParamToUint_ errno str val).2.1
        ∧ (atcmdParamToUint_ errno str val).2.1 ≤ 2 ^ 31 - 1)
      ∨ ((atcmdParamToUint_ errno str val).1 = -1 ∧ ∀ v, Canonical str v →
        0 ≤ v → 2 ^ 31 - 1 < v) := by
  unfold atcmdParamToUint_
  by_cases hneg : str.head? = some 45
  · rw [if_pos hneg]
    refine .inr ⟨rfl, fun v hv h0 => ?_⟩
    obtain ⟨n, rfl⟩ := Int.eq_ofNat_of_zero_le h0
    obtain ⟨d, ds, hd, hdig⟩ := ofNat_cons n
    rw [← canonical_iff.1 hv, show ofInt (n : ℤ) = ofNat n from rfl, hd, List.head?_cons,
      Option.some.injEq] at hneg
    exact absurd hneg (isDigit_ne hdig).2.2
  · rw [if_neg hneg]
    by_cases h : ∃ v, Canonical str v ∧ 0 ≤ v ∧ v ≤ 2 ^ 31 - 1
    · obtain ⟨v, hv, h0, hhi⟩ := h
      have hl : longOf v = v := longOf_eq.2 ⟨by omega, hhi⟩
      have hmod : v % 2 ^ 32 = v := by omega
      obtain rfl := canonical_iff.1 hv
      rw [strtol_ofInt, hl, if_pos rfl]
      simp only [ne_eq, not_true_eq_false, if_false, hmod]
      rw [if_neg (by omega)]
      exact .inl ⟨rfl, hv, h0, hhi⟩
    · refine .inr ⟨?_, fun v hv h0 => by_contra fun hlt => h ⟨v, hv, h0, by omega⟩⟩
      dsimp only
      split_ifs with hend he hne
      · rfl
      · rfl
      · rfl
      · -- what was read is spelled as the text is, so it was not cut
        set v := (strtol errno str).1.1 % 2 ^ 32 with hv
        have hs := strtol_ofInt errno v
        rw [not_not.1 hne] at hs
        have hl : (strtol errno str).1.1 = longOf v := congrArg (fun p => p.1.1) hs
        rw [hl] at hv
        have h0 : 0 ≤ v := by omega
        have hlo : longOf v = v := by
          unfold longOf at hv ⊢
          omega
        exact absurd ⟨v, canonical_iff.2 (not_not.1 hne), h0, (longOf_eq.1 hlo).2⟩ h

/-- What `strtol` read, and `errno`: a number that is spelled as it was read was not cut. -/
theorem strtol_spelled (errno : ℤ) (str : Bytes) :
    ∃ errno', strtol errno str = (NrcAtcmd.strtol str, errno')
      ∧ (ofInt (NrcAtcmd.strtol str).1 = str → errno' = errno) := by
  refine ⟨_, rfl, fun h => ?_⟩
  have hs := strtol_ofInt errno (NrcAtcmd.strtol str).1
  rw [h] at hs
  have hl : (NrcAtcmd.strtol str).1 = longOf (NrcAtcmd.strtol str).1 :=
    congrArg (fun p => p.1.1) hs
  rw [if_pos hl.symm] at hs
  exact congrArg Prod.snd hs

/-- `NrcAtcmd.atcmdParamToInt_` is this parser without the destination. -/
theorem paramToInt_eq (errno : ℤ) (str : Bytes) (val : ℤ) :
    NrcAtcmd.atcmdParamToInt_ (decide (errno = erange)) str =
      if (atcmdParamToInt_ errno str val).1 = 0 then some (atcmdParamToInt_ errno str val).2.1
      else none := by
  obtain ⟨errno', hs, herrno⟩ := strtol_spelled errno str
  unfold NrcAtcmd.atcmdParamToInt_ atcmdParamToInt_
  rcases hr : NrcAtcmd.strtol str with ⟨ret, end_⟩
  rw [hr] at hs herrno
  rw [hs]
  by_cases hnil : end_ = []
  · by_cases hne : ofInt ret = str
    · obtain rfl := herrno hne
      by_cases hend : errno' = erange ∧ (ret = -2147483648 ∨ ret = 2147483647)
      · simp [hnil, hend.1, hend.2]
      · have hcut : (decide (errno' = erange) && (ret == -2147483648 || ret == 2147483647)) =
            false := by
          simpa using hend
        simp [hnil, hend, hne, hcut]
    · simp only [hnil, ne_eq, not_true_eq_false, if_false, hne, not_false_eq_true, if_true]
      split_ifs <;> simp_all
  · simp [hnil]

theorem paramToUint_eq (errno : ℤ) (str : Bytes) (val : ℤ) :
    NrcAtcmd.atcmdParamToUint_ str =
      if (atcmdParamToUint_ errno str val).1 = 0 then
        some (atcmdParamToUint_ errno str val).2.1.toNat
      else none := by
  obtain ⟨errno', hs, -⟩ := strtol_spelled errno str
  have hend : ofInt (2 ^ 32 - 1) = str → (NrcAtcmd.strtol str).1 % 2 ^ 32 ≠ 2 ^ 32 - 1 := by
    intro hv
    have hl := congrArg (fun p => p.1.1) (strtol_ofInt errno (2 ^ 32 - 1))
    rw [hv, hs] at hl
    simp only at hl
    rw [hl]
    decide
  unfold NrcAtcmd.atcmdParamToUint_ atcmdParamToUint_
  rw [hs]
  rcases hr : NrcAtcmd.strtol str with ⟨ret, end_⟩
  rw [hr] at hend
  have hnat : ofNat (ret % 2 ^ 32).toNat = ofInt (ret % 2 ^ 32) := by
    obtain ⟨n, hn⟩ := Int.eq_ofNat_of_zero_le (show 0 ≤ ret % 2 ^ 32 by omega)
    rw [hn]
    rfl
  by_cases hneg : str.head? = some 45
  · simp [hneg]
  · by_cases hnil : end_ = []
    · simp only [hneg, hnil, hnat, if_false, ne_eq, not_true_eq_false]
      by_cases hne : ofInt (ret % 2 ^ 32) = str
      · have hmax : ret % 2 ^ 32 ≠ 2 ^ 32 - 1 := fun h => hend (h ▸ hne) h
        simp only [hne, hmax, and_false, not_true_eq_false, if_false, if_true]
      · simp only [hne, not_false_eq_true, if_true]
        split_ifs <;> simp_all
    · simp [hneg, hnil]

/-! ## Types -/

/-- A parser that checks the range stores exactly the values of its type, where the inner parser
misses none of them. -/
theorem exact_store {t : IntType} {errno : ℤ} {str : Bytes} (cast : ℤ → ℤ) (inner : ℤ × ℤ × ℤ)
    (ht : ∀ val, t.parse errno str val = store t.lo t.hi cast val inner)
    (hcast : ∀ v, t.lo ≤ v → v ≤ t.hi → cast v = v)
    (hinner : (inner.1 = 0 ∧ Canonical str inner.2.1)
      ∨ (inner.1 = -1 ∧ ∀ v, Canonical str v → ¬ (t.lo ≤ v ∧ v ≤ t.hi))) :
    Exact t errno str := by
  obtain ⟨ret, v, e⟩ := inner
  rcases hinner with ⟨rfl, hv⟩ | ⟨rfl, hno⟩
  · refine ⟨fun w hw hlo hhi val => ?_, fun h val => ?_⟩
    · obtain rfl : v = w := Canonical.eq hv hw
      rw [ht, store, if_neg (by simp), if_neg (by omega)]
      exact ⟨rfl, hcast v hlo hhi⟩
    · have : ¬ (t.lo ≤ v ∧ v ≤ t.hi) := h v hv
      rw [ht, store, if_neg (by simp), if_pos (by omega)]
      exact ⟨rfl, rfl⟩
  · refine ⟨fun w hw hlo hhi => absurd ⟨hlo, hhi⟩ (hno w hw), fun _ val => ?_⟩
    rw [ht, store, if_pos (by simp)]
    exact ⟨rfl, rfl⟩

theorem exact_int {t : IntType} {errno : ℤ} {str : Bytes} (cast : ℤ → ℤ)
    (ht : ∀ val, t.parse errno str val =
      store t.lo t.hi cast val (atcmdParamToInt_ errno str 0))
    (hcast : ∀ v, t.lo ≤ v → v ≤ t.hi → cast v = v) (hlo : -2 ^ 31 < t.lo)
    (hhi : t.hi < 2 ^ 31 - 1) : Exact t errno str := by
  refine exact_store cast _ ht hcast ?_
  rcases paramToInt_spec errno str 0 with h | h
  · exact .inl ⟨h.1, h.2.1⟩
  · refine .inr ⟨h.1, fun v hv hr => ?_⟩
    have hend := (h.2 v hv (by omega) (by omega)).2
    unfold AtEnd at hend
    omega

theorem exact_uint {t : IntType} {errno : ℤ} {str : Bytes} (cast : ℤ → ℤ)
    (ht : ∀ val, t.parse errno str val =
      store t.lo t.hi cast val (atcmdParamToUint_ errno str 0))
    (hcast : ∀ v, t.lo ≤ v → v ≤ t.hi → cast v = v) (hlo : 0 ≤ t.lo)
    (hhi : t.hi ≤ 2 ^ 31 - 1) : Exact t errno str := by
  refine exact_store cast _ ht hcast ?_
  rcases paramToUint_spec errno str 0 with h | h
  · exact .inl ⟨h.1, h.2.1⟩
  · refine .inr ⟨h.1, fun v hv hr => ?_⟩
    have := h.2 v hv (by omega)
    omega

/-- A parser that stores what the inner parser stored is exact where that takes exactly the values
of its type. -/
theorem exact_storeAll_iff {t : IntType} {errno : ℤ} {str : Bytes} (cast : ℤ → ℤ)
    (inner : ℤ × ℤ × ℤ) (ht : ∀ val, t.parse errno str val = storeAll cast val inner)
    (hcast : ∀ v, t.lo ≤ v → v ≤ t.hi → cast v = v)
    (hinner : inner.1 = -1 ∨ inner.1 = 0 ∧ Canonical str inner.2.1
      ∧ t.lo ≤ inner.2.1 ∧ inner.2.1 ≤ t.hi) :
    Exact t errno str ↔ ∀ v, Canonical str v → t.lo ≤ v → v ≤ t.hi → inner.1 = 0 := by
  obtain ⟨ret, v, e⟩ := inner
  rcases hinner with rfl | ⟨rfl, hv, hlo, hhi⟩
  · have hrej : ∀ val, t.parse errno str val = (-1, val, e) := fun val => by
      rw [ht, storeAll, if_pos (by simp)]
    constructor
    · intro h w hw hlo hhi
      have := (h.accepts w hw hlo hhi 0).1
      rw [hrej] at this
      exact this
    · intro h
      exact ⟨fun w hw hlo hhi => absurd (h w hw hlo hhi) (by simp), fun _ val => by
        rw [hrej]
        exact ⟨rfl, rfl⟩⟩
  · refine iff_of_true ⟨fun w hw _ _ val => ?_, fun h => absurd ⟨hlo, hhi⟩ (h v hv)⟩
      fun _ _ _ _ => rfl
    obtain rfl : v = w := Canonical.eq hv hw
    rw [ht, storeAll, if_neg (by simp)]
    exact ⟨rfl, hcast v hlo hhi⟩

theorem atEnd_iff {str : Bytes} {v : ℤ} (hv : Canonical str v) :
    AtEnd v ↔ str = bytes "-2147483648" ∨ str = bytes "2147483647" := by
  have hlo : ofInt (-2 ^ 31) = bytes "-2147483648" := by decide
  have hhi : ofInt (2 ^ 31 - 1) = bytes "2147483647" := by decide
  rw [← hlo, ← hhi, ← canonical_iff.1 hv]
  constructor
  · rintro (rfl | rfl)
    · exact .inl rfl
    · exact .inr rfl
  · rintro (h | h)
    · exact .inl (ofInt_injective h)
    · exact .inr (ofInt_injective h)

/-- For every text, every type and every `errno`, the parser takes the spellings of the type's
values, stores them, and stores nothing else, unless it misses the text. -/
theorem param_int_iff (t : IntType) (errno : ℤ) (str : Bytes) :
    Exact t errno str ↔ ¬ Misses errno str t := by
  cases t with
  | int8 =>
    refine iff_of_true (exact_int (·.bmod (2 ^ 8)) (fun _ => rfl) (fun v hlo hhi => ?_)
      (by decide) (by decide)) id
    simp only [IntType.lo, IntType.hi] at hlo hhi
    exact Int.bmod_eq_of_le (by omega) (by omega)
  | int16 =>
    refine iff_of_true (exact_int (·.bmod (2 ^ 16)) (fun _ => rfl) (fun v hlo hhi => ?_)
      (by decide) (by decide)) id
    simp only [IntType.lo, IntType.hi] at hlo hhi
    exact Int.bmod_eq_of_le (by omega) (by omega)
  | uint8 =>
    refine iff_of_true (exact_uint (· % 2 ^ 8) (fun _ => rfl) (fun v hlo hhi => ?_)
      (by decide) (by decide)) id
    simp only [IntType.lo, IntType.hi] at hlo hhi
    omega
  | uint16 =>
    refine iff_of_true (exact_uint (· % 2 ^ 16) (fun _ => rfl) (fun v hlo hhi => ?_)
      (by decide) (by decide)) id
    simp only [IntType.lo, IntType.hi] at hlo hhi
    omega
  | int32 =>
    have hspec := paramToInt_spec errno str 0
    rw [exact_storeAll_iff (·.bmod (2 ^ 32)) (atcmdParamToInt_ errno str 0) (fun _ => rfl)]
    · simp only [IntType.lo, IntType.hi, Misses]
      rcases hspec with ⟨hret, hv, hl, hno⟩ | ⟨hret, hno⟩
      · refine iff_of_true (fun _ _ _ _ => hret) ?_
        rwa [← atEnd_iff hv]
      · rw [hret]
        constructor
        · rintro h ⟨-, hs⟩
          have hv : ∃ v, Canonical str v ∧ AtEnd v := by
            rcases hs with rfl | rfl
            · exact ⟨_, canonical_iff.2 (show ofInt (-2 ^ 31) = _ by decide), .inl rfl⟩
            · exact ⟨_, canonical_iff.2 (show ofInt (2 ^ 31 - 1) = _ by decide), .inr rfl⟩
          obtain ⟨v, hv, hend⟩ := hv
          unfold AtEnd at hend
          exact absurd (h v hv (by omega) (by omega)) (by decide)
        · intro h v hv hlo hhi
          obtain ⟨he, hend⟩ := hno v hv hlo hhi
          exact absurd ⟨he, (atEnd_iff hv).1 hend⟩ h
    · intro v hlo hhi
      simp only [IntType.lo, IntType.hi] at hlo hhi
      exact Int.bmod_eq_of_le (by omega) (by omega)
    · rcases hspec with ⟨hret, hv, hl, -⟩ | ⟨hret, -⟩
      · exact .inr ⟨hret, hv, (longOf_eq.1 hl).1, (longOf_eq.1 hl).2⟩
      · exact .inl hret
  | uint32 =>
    have hspec := paramToUint_spec errno str 0
    rw [exact_storeAll_iff (· % 2 ^ 32) (atcmdParamToUint_ errno str 0) (fun _ => rfl)]
    · simp only [IntType.lo, IntType.hi, Misses]
      rcases hspec with ⟨hret, hv, h0, hhi⟩ | ⟨hret, hno⟩
      · refine iff_of_true (fun _ _ _ _ => hret) ?_
        rintro ⟨w, hw, hlo, -⟩
        have := hv.eq hw
        omega
      · rw [hret]
        constructor
        · rintro h ⟨w, hw, hlo, hhi⟩
          exact absurd (h w hw (by omega) (by omega)) (by decide)
        · intro h v hv hlo hhi
          have := hno v hv hlo
          exact absurd ⟨v, hv, by omega, by omega⟩ h
    · intro v hlo hhi
      simp only [IntType.lo, IntType.hi] at hlo hhi
      omega
    · rcases hspec with ⟨hret, hv, h0, hhi⟩ | ⟨hret, -⟩
      · refine .inr ⟨hret, hv, h0, ?_⟩
        simp only [IntType.hi]
        omega
      · exact .inl hret

/-- The greatest `uint32_t` is refused, because it is read with `strtol`. -/
theorem param_int_misses_uint32 : ¬ Exact .uint32 0 (bytes "4294967295") := fun h =>
  absurd (h.accepts (2 ^ 32 - 1) (canonical_iff.2 (by decide)) (by decide) (by decide) 0).1
    (by decide)

/-! ## Hexadecimal numbers -/

theorem hexValue_eq_none {ds : Bytes} : ∀ {n : ℕ},
    ds.foldlM (fun n b => (hexDigit b).map fun d => 16 * n + d.toNat) n = none ↔
      ∃ b ∈ ds, hexDigit b = none := by
  induction ds with
  | nil => simp
  | cons b ds ih =>
    intro n
    rw [List.foldlM_cons]
    rcases hb : hexDigit b with _ | d
    · simp [hb]
    · simpa [hb] using ih

theorem hexDigit_lt {b : UInt8} {d : UInt32} (h : hexDigit b = some d) : d.toNat < 16 := by
  unfold hexDigit at h
  split_ifs at h with h0 h1 h2 <;> simp only [Option.some.injEq] at h <;> subst h
  all_goals
    simp only [UInt8.le_iff_toNat_le, UInt8.toNat_toUInt32, UInt8.toNat_add, UInt8.toNat_sub] at *
    simp only [UInt8.reduceToNat] at *
    omega

theorem hexNext_eq (n : ℕ) (d : UInt32) :
    (UInt32.ofNat n) <<< 4 + d = .ofNat (16 * n + d.toNat) := by
  apply UInt32.toNat.inj
  simp only [UInt32.toNat_add, UInt32.toNat_shiftLeft, UInt32.toNat_ofNat', UInt32.reduceToNat,
    Nat.shiftLeft_eq, Nat.reduceMod, Nat.reducePow]
  omega

theorem hexLoop_eq {ds : Bytes} : ∀ {n m : ℕ},
    ds.foldlM (fun n b => (hexDigit b).map fun d => 16 * n + d.toNat) n = some m →
      hexLoop (.ofNat n) ds = (0, .ofNat m) ∧ m < 16 ^ ds.length * (n + 1) := by
  induction ds with
  | nil =>
    intro n m h
    simp only [List.foldlM_nil, Option.pure_def, Option.some.injEq] at h
    subst h
    exact ⟨rfl, by simp⟩
  | cons b ds ih =>
    intro n m h
    rw [List.foldlM_cons] at h
    rcases hb : hexDigit b with _ | d
    · simp [hb] at h
    · simp only [hb, Option.map_some, Option.bind_eq_bind, Option.bind_some] at h
      obtain ⟨hloop, hlt⟩ := ih h
      have hd := hexDigit_lt hb
      refine ⟨by simp only [hexLoop, hb, hexNext_eq, hloop], hlt.trans_le ?_⟩
      rw [List.length_cons, Nat.pow_succ, Nat.mul_assoc]
      exact Nat.mul_le_mul_left _ (by omega)

theorem atcmdParamToHex_eq {ds : Bytes} (h : ds.length ≤ 8) (val : UInt32) :
    atcmdParamToHex (bytes "0x" ++ ds) val = hexLoop 0 ds := by
  have hl : (bytes "0x").length = 2 := by decide
  unfold atcmdParamToHex
  rw [← hl, List.drop_left, List.take_left, List.length_append, if_neg]
  simp
  omega

theorem not_spellsHex {ds : Bytes} (h : ∃ b ∈ ds, hexDigit b = none) (n : ℕ) :
    ¬ SpellsHex (bytes "0x" ++ ds) n := by
  rintro ⟨ds', hd, -, -, hn⟩
  obtain rfl := List.append_cancel_left hd
  rw [hexValue, hexValue_eq_none.2 h] at hn
  simp at hn

/-- For every text, the parser takes the spellings of a number in hexadecimal, stores it, and stores
nothing else, unless it misses the text. -/
theorem param_hex_iff (param : Bytes) : ExactHex param ↔ ¬ MissesHex param := by
  have hl : (bytes "0x").length = 2 := by decide
  constructor
  · rintro h (rfl | ⟨ds, rfl, hds, hbad⟩)
    · have hno : ∀ n, ¬ SpellsHex (bytes "0x") n := by
        rintro n ⟨ds, hd, h1, -⟩
        have := congrArg List.length hd
        rw [List.length_append] at this
        omega
      exact absurd (h.rejects hno 0).1 (by decide)
    · have h0 := (h.rejects (not_spellsHex hbad) 0).2
      have h1 := (h.rejects (not_spellsHex hbad) 1).2
      rw [atcmdParamToHex_eq hds] at h0 h1
      exact absurd (h0.symm.trans h1) (by decide)
  · intro h
    refine ⟨?_, fun hno val => ?_⟩
    · rintro n ⟨ds, rfl, -, h8, hn⟩ val
      obtain ⟨hloop, hlt⟩ := hexLoop_eq hn
      have hpow : 16 ^ ds.length ≤ 16 ^ 8 := Nat.pow_le_pow_right (by omega) h8
      rw [atcmdParamToHex_eq h8, show hexLoop 0 ds = hexLoop (.ofNat 0) ds from rfl, hloop]
      refine ⟨rfl, ?_⟩
      rw [UInt32.toNat_ofNat', Nat.mod_eq_of_lt (by omega)]
    · unfold atcmdParamToHex
      split_ifs with hc
      · exact ⟨rfl, rfl⟩
      · simp only [not_or, Nat.not_lt, ne_eq, not_not] at hc
        obtain ⟨h2, h10, htake⟩ := hc
        have hsplit : param = bytes "0x" ++ param.drop 2 := by
          rw [← htake, List.take_append_drop]
        have hlen : (param.drop 2).length ≤ 8 := by
          rw [List.length_drop]
          omega
        refine absurd ?_ h
        by_cases hnil : param.drop 2 = []
        · exact .inl (by rw [hsplit, hnil, List.append_nil])
        · refine .inr ⟨_, hsplit, hlen, ?_⟩
          rcases hv : hexValue (param.drop 2) with _ | n
          · exact hexValue_eq_none.1 hv
          · exact absurd ⟨_, hsplit, List.length_pos_iff.2 hnil, hlen, hv⟩ (hno n)

/-- A character that is not a digit is found after a digit was stored. -/
theorem param_hex_misses_digit : ¬ ExactHex (bytes "0x1g") := fun h =>
  
  have hbad : ∃ b ∈ bytes "1g", hexDigit b = none := by decide +kernel
  absurd (h.rejects (not_spellsHex hbad) 0).2 (by decide)

theorem paramToHex_eq (param : Bytes) (val : UInt32) :
    NrcAtcmd.atcmdParamToHex param =
      if (atcmdParamToHex param val).1 = 0 then some (atcmdParamToHex param val).2 else none := by
  have hloop : ∀ (ds : Bytes) (n : UInt32),
      (ds.foldlM (fun val b => (hexDigit b).map (val <<< 4 + ·)) n : Option UInt32) =
        if (hexLoop n ds).1 = 0 then some (hexLoop n ds).2 else none := by
    intro ds
    induction ds with
    | nil => intro n; rfl
    | cons b ds ih =>
      intro n
      rw [List.foldlM_cons, hexLoop]
      rcases hexDigit b with _ | d
      · rfl
      · exact ih _
  unfold NrcAtcmd.atcmdParamToHex atcmdParamToHex
  by_cases h : param.length < 2 ∨ 10 < param.length ∨ param.take 2 ≠ bytes "0x"
  · rw [if_pos h, if_pos h]
    rfl
  · rw [if_neg h, if_neg h, hloop]

/-! ## Strings -/

theorem str_stored {s b : Bytes} (h0 : 0 ∉ s) (h : s.length < b.length) :
    ((Cells.copy b 0 s).bind fun b => Cells.store b s.length 0).bind (fun b => Cells.str b 0) =
      some s := by
  obtain ⟨x, w, hw⟩ := List.exists_cons_of_ne_nil
    (List.ne_nil_of_length_pos (show 0 < (b.drop s.length).length by rw [List.length_drop]; omega))
  have hcopy : Cells.copy b 0 s = some (s ++ x :: w) := by
    rw [Cells.copy, if_pos (by omega), memcpy, Nat.zero_add, List.take_zero, List.nil_append, hw]
  rw [hcopy, Option.bind_some, Cells.store_mid s w x 0 rfl, Option.bind_some]
  exact Cells.str_mid h0 [] w rfl

theorem length_inner {param : Bytes} : (param.tail.dropLast).length = param.length - 2 := by
  simp only [List.length_dropLast, List.length_tail]
  omega

theorem take_inner (param : Bytes) :
    (param.drop 1).take (param.length - 2) = param.tail.dropLast := by
  rw [List.dropLast_eq_take, List.length_tail, List.drop_one]
  congr 1

theorem inner_nul {param : Bytes} (h0 : 0 ∉ param) : 0 ∉ param.tail.dropLast := fun h =>
  h0 (List.mem_of_mem_tail (List.dropLast_subset _ h))

theorem inner_stored {param str : Bytes} (h0 : 0 ∉ param) (h : param.length - 2 < str.length) :
    ((Cells.copy str 0 ((param.drop 1).take (param.length - 2))).bind fun str =>
      Cells.store str (param.length - 2) 0).bind (fun str => Cells.str str 0) =
      some param.tail.dropLast := by
  rw [take_inner, ← length_inner]
  exact str_stored (inner_nul h0) (by rwa [length_inner])

theorem decodes_target (param : CStr) (str : Bytes) : Decodes atcmdParamToStr param.1 str := by
  obtain ⟨param, h0⟩ := param
  unfold Decodes Decoder.decode atcmdParamToStr
  simp only [← List.head?_eq_getElem?, ← List.getLast?_eq_getElem?]
  by_cases hq : IsQuoted param ∧ param.length - 2 < str.length
  · obtain ⟨⟨h2, hhead, hlast⟩, hlen⟩ := hq
    rw [if_neg (by omega), if_neg (by omega), if_neg (by simp [hhead, hlast]),
      if_pos ⟨⟨h2, hhead, hlast⟩, hlen⟩]
    exact inner_stored h0 hlen
  · rw [if_neg hq]
    split_ifs with hz hlen hends
    · rfl
    · rfl
    · rfl
    · simp only [ne_eq, not_or, not_not] at hends
      exact absurd ⟨⟨by omega, hends⟩, by omega⟩ hq

/-- The decoder of the host takes what has a quote at either end, if anything is between them. -/
theorem decode_host {param str : Bytes} (h0 : 0 ∉ param) :
    Decoder.decode nrcAtcmdParamToStr param str =
      if 3 ≤ param.length ∧ param.length - 2 < str.length
          ∧ (param.head? = some 34 ∨ param.getLast? = some 34) then some param.tail.dropLast
      else none := by
  unfold Decoder.decode nrcAtcmdParamToStr
  simp only [← List.head?_eq_getElem?, ← List.getLast?_eq_getElem?]
  by_cases ht : 3 ≤ param.length ∧ param.length - 2 < str.length
      ∧ (param.head? = some 34 ∨ param.getLast? = some 34)
  · obtain ⟨h3, hlen, hends⟩ := ht
    rw [if_neg (by omega), if_neg (by omega), if_neg fun h => hends.elim h.1 h.2,
      if_pos ⟨h3, hlen, hends⟩]
    exact inner_stored h0 hlen
  · rw [if_neg ht]
    split_ifs with hz hlen hends
    · rfl
    · rfl
    · rfl
    · rw [not_and_or, not_not, not_not] at hends
      exact absurd ⟨by omega, by omega, hends⟩ ht

/-- The decoder of the host takes the quoted parameters where it does not go wrong. -/
theorem decodes_host_iff (param : CStr) (str : Bytes) :
    Decodes nrcAtcmdParamToStr param.1 str ↔ ¬ Disagree param.1 str := by
  obtain ⟨param, h0⟩ := param
  have hite : ∀ (P Q : Prop) [Decidable P] [Decidable Q] (t : Bytes),
      ((if P then some t else none) = if Q then some t else none) ↔ (P ↔ Q) := by
    intro P Q _ _ t
    by_cases hP : P <;> by_cases hQ : Q <;> simp [hP, hQ]
  have hpos : str ≠ [] ↔ 0 < str.length := List.length_pos_iff.symm
  have htwo : param = bytes "\"\"" ↔
      param.length = 2 ∧ param.head? = some 34 ∧ param.getLast? = some 34 := by
    constructor
    · rintro rfl
      decide
    · rintro ⟨hl, hhead, hlast⟩
      obtain ⟨a, b, rfl⟩ := List.length_eq_two.1 hl
      simp only [List.head?_cons, Option.some.injEq, List.getLast?_cons_cons,
        List.getLast?_singleton] at hhead hlast
      rw [hhead, hlast]
      rfl
  rw [Decodes, decode_host h0, hite]
  simp only [Disagree, IsQuoted, htwo, hpos]
  by_cases hhead : param.head? = some 34 <;> by_cases hlast : param.getLast? = some 34
  · simp only [hhead, hlast, or_self, and_self, and_true, not_true_eq_false, ne_eq, iff_false,
      and_false, or_false]
    omega
  · simp [hhead, hlast]
  · simp [hhead, hlast]
  · simp [hhead, hlast]

theorem paramToStr_eq (param : CStr) (str : Bytes) :
    NrcAtcmd.atcmdParamToStr param.1 str.length = Decoder.decode atcmdParamToStr param.1 str := by
  rw [decodes_target param str]
  unfold NrcAtcmd.atcmdParamToStr
  by_cases hroom : 2 ≤ param.1.length ∧ param.1.length - 2 < str.length
  · rw [if_neg (by omega), List.drop_one]
    by_cases hends : param.1.head? = some 34 ∧ param.1.getLast? = some 34
    · rw [if_neg (by simp [hends]), if_pos ⟨⟨hroom.1, hends⟩, hroom.2⟩]
    · rw [if_pos (by rwa [ne_eq, ne_eq, ← not_and_or]), if_neg fun h => hends h.1.2]
  · have hno : ¬ (IsQuoted param.1 ∧ param.1.length - 2 < str.length) := fun h =>
      hroom ⟨h.1.1, h.2⟩
    rw [if_neg hno, if_pos (by omega)]

theorem hostParamToStr_eq (param : CStr) (str : Bytes) :
    NrcAtcmd.nrcAtcmdParamToStr param.1 str.length =
      Decoder.decode nrcAtcmdParamToStr param.1 str := by
  rw [decode_host param.2]
  unfold NrcAtcmd.nrcAtcmdParamToStr
  rw [take_inner]
  by_cases hroom : 3 ≤ param.1.length ∧ param.1.length - 2 < str.length
  · rw [if_neg (by omega), if_neg (by omega)]
    by_cases hends : param.1.head? = some 34 ∨ param.1.getLast? = some 34
    · rw [if_neg (by rwa [ne_eq, ne_eq, ← not_or, not_not]), if_pos ⟨hroom.1, hroom.2, hends⟩]
    · rw [if_pos (by rwa [ne_eq, ne_eq, ← not_or]), if_neg fun h => hends h.2.2]
  · have hno : ¬ (3 ≤ param.1.length ∧ param.1.length - 2 < str.length
        ∧ (param.1.head? = some 34 ∨ param.1.getLast? = some 34)) := fun h => hroom ⟨h.1, h.2.1⟩
    rw [if_neg hno]
    by_cases hz : str.length = 0
    · rw [if_pos hz]
    · rw [if_neg hz, if_pos (by omega)]

theorem quoted_nul (s : CStr) : 0 ∉ quoted s.1 := by
  intro h
  simp only [quoted, List.mem_append, List.mem_cons, List.not_mem_nil, or_false] at h
  rcases h with (h | h) | h
  · exact absurd h (by decide)
  · exact s.2 h
  · exact absurd h (by decide)

theorem isQuoted_quoted (s : Bytes) : IsQuoted (quoted s) :=
  ⟨by simp [quoted], rfl, List.getLast?_concat⟩

theorem quoted_inner (s : Bytes) : (quoted s).tail.dropLast = s := by
  simp [quoted]

theorem strToParam_eq (s : CStr) (param : Bytes) (h : s.1.length + 2 < param.length) :
    ∃ param', atcmdStrToParam s.1 param param.length = some param'
      ∧ Cells.str param' 0 = some (quoted s.1) := by
  have hl : (quoted s.1).length = s.1.length + 2 := by simp [quoted]
  have hcopy : Cells.copy param 0 (quoted s.1 ++ [0]) =
      some (quoted s.1 ++ 0 :: param.drop (s.1.length + 3)) := by
    rw [Cells.copy, if_pos (by simp [hl]; omega), memcpy, Nat.zero_add, List.take_zero,
      List.nil_append, List.length_append, hl, List.append_assoc]
    rfl
  refine ⟨quoted s.1 ++ 0 :: param.drop (s.1.length + 3), ?_,
    Cells.str_mid (quoted_nul s) [] _ rfl⟩
  unfold atcmdStrToParam
  rw [if_neg (by omega), if_neg (by omega), hcopy, Option.bind_some,
    Cells.store_mid _ _ 0 0 hl.symm]

/-- What is encoded is decoded if the decoder takes it. -/
theorem roundTrips_iff (d : Decoder) (s : CStr) : RoundTrips d s ↔
    ∀ str : Bytes, s.1.length < str.length → d.decode (quoted s.1) str = some s.1 := by
  constructor
  · intro h str hs
    obtain ⟨param', text, he, ht, hd⟩ := h (List.replicate (s.1.length + 3) 0) str
      (by simp) hs
    obtain ⟨param'', he', ht'⟩ := strToParam_eq s
      (List.replicate (s.1.length + 3) 0) (by simp)
    obtain rfl := Option.some.inj (he.symm.trans he')
    rw [ht, Option.some.injEq] at ht'
    rwa [ht'] at hd
  · intro h param str hp hs
    obtain ⟨param', he, ht⟩ := strToParam_eq s _ hp
    exact ⟨param', _, he, ht, h str hs⟩

theorem decode_quoted {d : Decoder} {s : CStr} {str : Bytes} (h : Decodes d (quoted s.1) str)
    (hs : s.1.length < str.length) : d.decode (quoted s.1) str = some s.1 := by
  rw [h, if_pos ⟨isQuoted_quoted s.1, by simp [quoted]; omega⟩, quoted_inner]

/-- Both decoders read back what the encoder wrote, unless it is the empty string; and they take the
same parameters, and those that are quoted, unless the host goes wrong. -/
theorem param_str_iff (s param : CStr) (str : Bytes) :
    ((RoundTrips atcmdParamToStr s ∧ RoundTrips nrcAtcmdParamToStr s) ↔ s.1 ≠ [])
      ∧ ((Decodes atcmdParamToStr param.1 str ∧ Decodes nrcAtcmdParamToStr param.1 str) ↔
        ¬ Disagree param.1 str) := by
  refine ⟨?_, ?_⟩
  · have htarget : RoundTrips atcmdParamToStr s := (roundTrips_iff _ s).2 fun str hs =>
      decode_quoted (decodes_target ⟨_, quoted_nul s⟩ str) hs
    rw [and_iff_right htarget]
    constructor
    · rintro h hs
      have hd := (roundTrips_iff _ s).1 h [0] (by rw [hs]; decide)
      rw [hs] at hd
      exact absurd hd (by decide)
    · intro hs
      have hpos := List.length_pos_iff.2 hs
      refine (roundTrips_iff _ s).2 fun str hlen => decode_quoted
        ((decodes_host_iff ⟨_, quoted_nul s⟩ str).2 ?_) hlen
      rintro (⟨-, he⟩ | ⟨-, -, hq⟩)
      · have := congrArg List.length he
        have hb : (bytes "\"\"").length = 2 := by decide
        simp only [quoted, List.length_append, List.length_cons, List.length_nil] at this
        omega
      · exact hq.1 (isQuoted_quoted s.1).2.1 (isQuoted_quoted s.1).2.2
  · rw [and_iff_right (decodes_target param str)]
    exact decodes_host_iff param str

/-- The host refuses the encoding of the empty string. -/
theorem param_str_refused : ¬ RoundTrips nrcAtcmdParamToStr ⟨[], by decide⟩ := fun h =>
  absurd ((roundTrips_iff _ _).1 h [7] (by decide)) (by decide)

end NrcAtcmd.ParamStore
