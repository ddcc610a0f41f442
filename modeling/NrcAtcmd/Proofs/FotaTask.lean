import NrcAtcmd.FotaTask
import NrcAtcmd.Proofs.Firmware
import NrcAtcmd.Proofs.HttpGet

/-!
# A download is bounded while the server sends what it announced

While a request runs, the count of its callback is what was received of the body, and the count of
the other callback is zero; when it ends, in whatever way, both are. So a block is stored where the
one before it ended, and leads behind what was announced exactly if the server sends more than that.
-/

namespace NrcAtcmd

open Machine

variable {φ : Type*} {D : UtilFota φ} {cJSONParse : Bytes → Option (List CJson)}

/-! ## The callbacks -/

section check

variable {data : Bytes} {total : UInt32} {heap : Option Bytes} {c : FotaCheck}

theorem check_reset : (atcmdFotaFwCheckCallback_ cJSONParse [] 0 heap c).2 =
    { c with fotaInfo := none, cnt := 0 } := by
  unfold atcmdFotaFwCheckCallback_
  rw [if_pos (Or.inl rfl)]

variable (cJSONParse) in
theorem check_none (hd : data ≠ []) (ht : total ≠ 0) (hc : c.fotaInfo = none) :
    atcmdFotaFwCheckCallback_ cJSONParse data total none c = (-1, c) := by
  unfold atcmdFotaFwCheckCallback_
  rw [if_neg (by simp [hd, ht]), hc]
  rfl

variable (cJSONParse) in
/-- A block is stored at the count, and a terminator behind the last one. -/
theorem check_some (hd : data ≠ []) (ht : total ≠ 0) {block : HeapBlock}
    (hb : c.fotaInfo.or (heap.map (HeapBlock.mk (total.toNat + 1))) = some block) :
    ∃ c', atcmdFotaFwCheckCallback_ cJSONParse data total heap c = (0, c') ∧
      if c.cnt + .ofNat data.length = total then
        c'.fotaInfo = none ∧ c'.cnt = 0 ∧ c'.writes =
          c.writes ++ [⟨block.size, c.cnt.toNat, data.length⟩, ⟨block.size, total.toNat, 1⟩]
      else
        (∃ b, c'.fotaInfo = some b ∧ b.size = block.size)
          ∧ c'.cnt = c.cnt + .ofNat data.length
          ∧ c'.writes = c.writes ++ [⟨block.size, c.cnt.toNat, data.length⟩] := by
  unfold atcmdFotaFwCheckCallback_
  rw [if_neg (by simp [hd, ht]), hb]
  dsimp only
  split_ifs with hlast
  · exact ⟨_, rfl, rfl, rfl, by simp⟩
  · exact ⟨_, rfl, ⟨_, rfl, rfl⟩, rfl, rfl⟩

end check

section update

variable {data : Bytes} {total : UInt32} {fw : Firmware (φ × List (ℕ × ℕ))}

theorem update_reset : (atcmdFotaFwUpdateCallback_ D.logged [] 0 fw).2 =
    { fw with fota := { fw.fota with cnt := 0, event := 0 } } := by
  unfold atcmdFotaFwUpdateCallback_
  rw [if_pos (Or.inl rfl)]

theorem update_refused (hd : data ≠ []) (ht : total ≠ 0) (hcnt : fw.fota.cnt = 0)
    (hmax : D.maxFwSize < total) :
    atcmdFotaFwUpdateCallback_ D.logged data total fw = (-1, fw) := by
  unfold atcmdFotaFwUpdateCallback_
  rw [if_neg (by simp [hd, ht])]
  exact if_pos ⟨hcnt, hmax⟩

theorem update_write (hd : data ≠ []) (ht : total ≠ 0)
    (hmax : ¬ (fw.fota.cnt = 0 ∧ D.maxFwSize < total)) :
    ∃ fw', atcmdFotaFwUpdateCallback_ D.logged data total fw = (0, fw')
      ∧ fw'.flash.2 = fw.flash.2 ++ [(fw.fota.cnt.toNat, data.length)]
      ∧ fw'.fota.cnt = if fw.fota.cnt + .ofNat data.length = total then 0
        else fw.fota.cnt + .ofNat data.length := by
  unfold atcmdFotaFwUpdateCallback_
  rw [if_neg (by simp [hd, ht])]
  dsimp only
  rw [if_neg (show ¬ (fw.fota.cnt = 0 ∧ D.logged.maxFwSize < total) from hmax)]
  refine ⟨_, rfl, ?_, ?_⟩
  · split_ifs <;> rfl
  · split_ifs <;> rfl

end update

/-- The driver without the log behaves as the one with it. -/
theorem update_unlogged (data : Bytes) (total : UInt32) (fw : Firmware (φ × List (ℕ × ℕ))) :
    atcmdFotaFwUpdateCallback_ D data total { fw with flash := fw.flash.1 } =
      ((atcmdFotaFwUpdateCallback_ D.logged data total fw).1,
        { (atcmdFotaFwUpdateCallback_ D.logged data total fw).2 with
          flash := (atcmdFotaFwUpdateCallback_ D.logged data total fw).2.flash.1 }) := by
  unfold atcmdFotaFwUpdateCallback_
  by_cases h0 : data = [] ∨ total = 0
  · simp only [if_pos h0]
  by_cases hmax : fw.fota.cnt = 0 ∧ D.maxFwSize < total
  · have hmax' : fw.fota.cnt = 0 ∧ D.logged.maxFwSize < total := hmax
    simp only [if_neg h0, if_pos hmax, if_pos hmax']
  · have hmax' : ¬ (fw.fota.cnt = 0 ∧ D.logged.maxFwSize < total) := hmax
    simp only [if_neg h0, if_neg hmax, if_neg hmax']
    by_cases hcnt : fw.fota.cnt = 0
    · simp only [if_pos hcnt]
      rfl
    · simp only [if_neg hcnt]
      rfl

theorem consecutive_concat {w : ℕ × ℕ} : ∀ {ws : List (ℕ × ℕ)} {n : ℕ},
    Consecutive n (ws ++ [w]) ↔ Consecutive n ws ∧ w.1 = n + (ws.map Prod.snd).sum
  | [], n => by simp [Consecutive]
  | v :: ws, n => by
    have ih : Consecutive (n + v.2) (ws ++ [w]) ↔ _ := consecutive_concat
    simp only [List.cons_append, Consecutive, ih, List.map_cons, List.sum_cons, and_assoc,
      Nat.add_assoc]

/-! ## What holds between two steps -/

namespace FotaTask

variable {s : FotaTask φ}

/-- No request runs, and the callbacks are as they were at first. -/
structure Idle (s : FotaTask φ) : Prop where
  busy : s.request.busy = false
  info : s.check.fotaInfo = none
  infoCnt : s.check.cnt = 0
  fwCnt : s.fw.fota.cnt = 0

/-- A request for the manifest runs. One byte more than announced still fits the allocation. -/
structure Checking (s : FotaTask φ) : Prop where
  busy : s.request.busy = true
  check : s.request.check = true
  total_lt : s.request.total < 2 ^ 31
  infoCnt : (s.check.cnt.toNat : ℤ) = s.request.done
  size : ∀ b ∈ s.check.fotaInfo, b.size = s.request.total.toNat + 1
  noInfo : s.check.fotaInfo = none ↔ s.request.done = 0
  done_le : s.request.done = 0 ∨
    s.request.done ≤ s.request.total + 1 ∧ s.request.done ≠ s.request.total
  fwCnt : s.fw.fota.cnt = 0

variable (D) in
/-- A request for the firmware runs. -/
structure Updating (s : FotaTask φ) : Prop where
  busy : s.request.busy = true
  check : s.request.check = false
  total_lt : s.request.total < 2 ^ 31
  fwCnt : (s.fw.fota.cnt.toNat : ℤ) = s.request.done
  written : ((s.fw.flash.2.map Prod.snd).sum : ℤ) = s.request.done
  done_lt : s.request.done = 0 ∨ s.request.done < s.request.total
  le_max : s.request.done ≠ 0 → s.request.total ≤ D.maxFwSize.toNat
  info : s.check.fotaInfo = none
  infoCnt : s.check.cnt = 0

/-- The end of a request whose callback has nothing left, or is told to give it up. -/
theorem finish_idle {ret : ℤ}
    (hc : (ret < 0 ∧ s.request.check = true) ∨ s.check.fotaInfo = none ∧ s.check.cnt = 0)
    (hf : (ret < 0 ∧ s.request.check = false) ∨ s.fw.fota.cnt = 0) :
    (s.finish D cJSONParse ret).Idle := by
  unfold finish callback
  by_cases hret : ret < 0
  · cases hcheck : s.request.check
    · have hc := hc.resolve_left (by simp [hcheck])
      simp only [if_pos hret, hcheck, Bool.false_eq_true, if_false, update_reset]
      exact ⟨rfl, hc.1, hc.2, rfl⟩
    · have hf := hf.resolve_left (by simp [hcheck])
      simp only [if_pos hret, hcheck, if_true, check_reset]
      exact ⟨rfl, rfl, rfl, hf⟩
  · have hc := hc.resolve_left fun h => hret h.1
    have hf := hf.resolve_left fun h => hret h.1
    rw [if_neg hret]
    exact ⟨rfl, hc.1, hc.2, hf⟩

variable (cJSONParse) in
theorem finish_frame (ret : ℤ) : (s.finish D cJSONParse ret).request.total = s.request.total
    ∧ (s.finish D cJSONParse ret).check.writes = s.check.writes
    ∧ (s.finish D cJSONParse ret).fw.flash = s.fw.flash := by
  unfold finish callback
  by_cases hret : ret < 0
  · cases hcheck : s.request.check
    · simp only [if_pos hret, Bool.false_eq_true, if_false, update_reset, and_self]
    · simp only [if_pos hret, if_true, check_reset, and_self]
  · simp only [if_neg hret, and_self]

theorem finish_bounds {ret : ℤ} (h : s.InBounds) : (s.finish D cJSONParse ret).InBounds := by
  obtain ⟨ht, hw, hf⟩ := finish_frame (D := D) cJSONParse (s := s) ret
  constructor
  · rw [ht, hw]
    exact h.heap
  · rw [hf]
    exact h.start
  · rw [ht, hf]
    exact h.flash

end FotaTask

/-- The count of a callback is compared with the total as it is with what was received. -/
lemma cnt_add {cnt : UInt32} {total done : ℤ} {len : ℕ} (hcnt : (cnt.toNat : ℤ) = done)
    (ht : 0 < total) (hlt : total < 2 ^ 31) (hdone : done ≤ total + 1) (hlen : len ≤ 8 * 1024) :
    UInt32.ofNat total.toNat ≠ 0 ∧ (UInt32.ofNat total.toNat).toNat = total.toNat
      ∧ ((cnt + .ofNat len).toNat : ℤ) = done + len
      ∧ (cnt + .ofNat len = .ofNat total.toNat ↔ done + len = total) := by
  have htotal : (UInt32.ofNat total.toNat).toNat = total.toNat := by
    rw [UInt32.toNat_ofNat', Nat.mod_eq_of_lt (by omega)]
  have hsum : (cnt + .ofNat len).toNat = cnt.toNat + len := by
    rw [UInt32.toNat_add, UInt32.toNat_ofNat', Nat.mod_eq_of_lt (show len < 2 ^ 32 by omega),
      Nat.mod_eq_of_lt (by omega)]
  refine ⟨?_, htotal, by rw [hsum]; omega, ?_⟩
  · intro h0
    rw [h0, UInt32.toNat_zero] at htotal
    omega
  · rw [← UInt32.toNat_inj, htotal, hsum]
    omega

/-! ## Blocks -/

namespace FotaTask

variable {s : FotaTask φ} {data : Bytes} {heap : Option Bytes}

theorem Checking.block_none (h : s.Checking) (ht : 0 < s.request.total) (hk : s.Takes data heap)
    (hinfo : s.check.fotaInfo = none) (hheap : heap = none) :
    fotaStep D cJSONParse s (.block data heap) = some (s.finish D cJSONParse (-1)) := by
  have hd : data ≠ [] := List.ne_nil_of_length_pos hk.2.1
  have hzero : s.request.done = 0 := h.noInfo.1 hinfo
  have hadd := cnt_add h.infoCnt ht h.total_lt (by omega) hk.2.2.1
  have hcb := check_none cJSONParse hd hadd.1 hinfo
  simp only [fotaStep, if_pos hk, if_pos ht]
  subst hheap
  simp only [callback, h.check, if_true, hcb, FotaRequest.afterBlock]
  rfl

variable (cJSONParse) in
theorem Checking.block_some (h : s.Checking) (ht : 0 < s.request.total) (hk : s.Takes data heap)
    (hmem : s.check.fotaInfo.isSome ∨ heap.isSome) :
    ∃ s', fotaStep D cJSONParse s (.block data heap) = some s'
      ∧ s'.request.total = s.request.total ∧ s'.fw.flash = s.fw.flash
      ∧ s'.check.writes = s.check.writes
        ++ ⟨s.request.total.toNat + 1, s.request.done.toNat, data.length⟩
        :: (if s.request.done + data.length = s.request.total then
            [⟨s.request.total.toNat + 1, s.request.total.toNat, 1⟩] else [])
      ∧ (s.request.done + data.length ≤ s.request.total + 1 → s'.Idle ∨ s'.Checking) := by
  have hd : data ≠ [] := List.ne_nil_of_length_pos hk.2.1
  have hle : s.request.done ≤ s.request.total + 1 := by
    rcases h.done_le with h0 | h0 <;> omega
  obtain ⟨hne, htotal, hsum, hlast⟩ := cnt_add h.infoCnt ht h.total_lt hle hk.2.2.1
  have hcnt : s.check.cnt.toNat = s.request.done.toNat := by
    have := h.infoCnt
    omega
  obtain ⟨block, hb, hsize⟩ : ∃ block, s.check.fotaInfo.or (heap.map (HeapBlock.mk
      ((UInt32.ofNat s.request.total.toNat).toNat + 1))) = some block
      ∧ block.size = s.request.total.toNat + 1 := by
    rcases hinfo : s.check.fotaInfo with _ | block
    · obtain ⟨mem, rfl⟩ := Option.isSome_iff_exists.1 (hmem.resolve_left (by simp [hinfo]))
      exact ⟨_, rfl, by rw [htotal]⟩
    · exact ⟨block, rfl, h.size block hinfo⟩
  obtain ⟨c, hcb, hc⟩ := check_some cJSONParse hd hne hb
  rw [hsize, hcnt, htotal] at hc
  simp only [fotaStep, if_pos hk, if_pos ht]
  simp only [callback, h.check, if_true, hcb, FotaRequest.afterBlock]
  simp only [hlast] at hc
  by_cases hall : s.request.done + data.length = s.request.total
  · rw [if_pos hall] at hc
    simp only [lt_irrefl, if_false, if_pos hall]
    obtain ⟨ht', hw, hf⟩ := finish_frame (D := D) cJSONParse (s := (
      { s with check := c, request := { s.request with done := s.request.done + data.length } } :
        FotaTask φ)) 0
    refine ⟨_, rfl, ht', hf, hw.trans hc.2.2, fun _ => Or.inl ?_⟩
    exact finish_idle (Or.inr ⟨hc.1, hc.2.1⟩) (Or.inr h.fwCnt)
  · rw [if_neg hall] at hc
    simp only [lt_irrefl, if_false, if_neg hall, zero_lt_one, if_true]
    obtain ⟨⟨b, hinfo, hbs⟩, hcnt', hw⟩ := hc
    refine ⟨_, rfl, rfl, rfl, hw, fun hbound => Or.inr ?_⟩
    constructor
    · exact h.busy
    · rfl
    · exact h.total_lt
    · rw [hcnt', hsum]
    · intro b' hb'
      obtain rfl := Option.some.inj (hinfo.symm.trans hb')
      exact hbs
    · have := h.infoCnt
      have := hk.2.1
      simp only [hinfo, reduceCtorEq, false_iff]
      omega
    · exact Or.inr ⟨hbound, hall⟩
    · exact h.fwCnt

theorem Updating.block_refused (h : s.Updating D) (ht : 0 < s.request.total)
    (hk : s.Takes data heap) (hmax : ¬ s.request.total ≤ D.maxFwSize.toNat) :
    fotaStep D cJSONParse s (.block data heap) = some (s.finish D cJSONParse (-1)) := by
  have hd : data ≠ [] := List.ne_nil_of_length_pos hk.2.1
  have hzero : s.request.done = 0 := by
    by_contra hne
    exact hmax (h.le_max hne)
  obtain ⟨hne, htotal, -, -⟩ := cnt_add h.fwCnt ht h.total_lt (by omega) hk.2.2.1
  have hcnt : s.fw.fota.cnt = 0 := UInt32.toNat_inj.1 (by
    have := h.fwCnt
    rw [UInt32.toNat_zero]
    omega)
  have hlt : D.maxFwSize < UInt32.ofNat s.request.total.toNat := by
    rw [UInt32.lt_iff_toNat_lt, htotal]
    omega
  have hcb := update_refused hd hne hcnt hlt
  simp only [fotaStep, if_pos hk, if_pos ht]
  simp only [callback, h.check, Bool.false_eq_true, if_false, hcb, FotaRequest.afterBlock]
  rfl

variable (cJSONParse) in
theorem Updating.block_write (h : s.Updating D) (ht : 0 < s.request.total)
    (hk : s.Takes data heap) (hmax : s.request.total ≤ D.maxFwSize.toNat) :
    ∃ s', fotaStep D cJSONParse s (.block data heap) = some s'
      ∧ s'.request.total = s.request.total ∧ s'.check.writes = s.check.writes
      ∧ s'.fw.flash.2 = s.fw.flash.2 ++ [(s.request.done.toNat, data.length)]
      ∧ (s.request.done + data.length ≤ s.request.total → s'.Idle ∨ s'.Updating D) := by
  have hd : data ≠ [] := List.ne_nil_of_length_pos hk.2.1
  have hle : s.request.done ≤ s.request.total + 1 := by
    rcases h.done_lt with h0 | h0 <;> omega
  obtain ⟨hne, htotal, hsum, hlast⟩ := cnt_add h.fwCnt ht h.total_lt hle hk.2.2.1
  have hcnt : s.fw.fota.cnt.toNat = s.request.done.toNat := by
    have := h.fwCnt
    omega
  have hle' : ¬ (s.fw.fota.cnt = 0 ∧ D.maxFwSize < UInt32.ofNat s.request.total.toNat) := by
    rw [UInt32.lt_iff_toNat_lt, htotal]
    omega
  obtain ⟨fw, hcb, hflash, hcnt'⟩ := update_write hd hne hle'
  rw [hcnt] at hflash
  simp only [hlast] at hcnt'
  simp only [fotaStep, if_pos hk, if_pos ht]
  simp only [callback, h.check, Bool.false_eq_true, if_false, hcb, FotaRequest.afterBlock]
  by_cases hall : s.request.done + data.length = s.request.total
  · rw [if_pos hall] at hcnt'
    simp only [lt_irrefl, if_false, if_pos hall]
    obtain ⟨ht', hw, hf⟩ := finish_frame (D := D) cJSONParse (s := (
      { s with fw := fw, request := { s.request with done := s.request.done + data.length } } :
        FotaTask φ)) 0
    refine ⟨_, rfl, ht', hw, (congrArg Prod.snd hf).trans hflash, fun _ => Or.inl ?_⟩
    exact finish_idle (Or.inr ⟨h.info, h.infoCnt⟩) (Or.inr hcnt')
  · rw [if_neg hall] at hcnt'
    simp only [lt_irrefl, if_false, if_neg hall, zero_lt_one, if_true]
    refine ⟨_, rfl, rfl, rfl, hflash, fun hbound => Or.inr ?_⟩
    constructor
    · exact h.busy
    · rfl
    · exact h.total_lt
    · rw [hcnt', hsum]
    · have := h.written
      simp only [hflash, List.map_append, List.sum_append, List.map_singleton,
        List.sum_singleton]
      omega
    · exact Or.inr (lt_of_le_of_ne hbound hall)
    · exact fun _ => hmax
    · exact h.info
    · exact h.infoCnt

variable (D) in
/-- What holds of the task between two steps, while each block fits. -/
structure Inv (s : FotaTask φ) : Prop where
  bounds : s.InBounds
  phase : s.Idle ∨ s.Checking ∨ s.Updating D

theorem Inv.header {check : Bool} {total : ℤ} {s' : FotaTask φ} (h : s.Inv D)
    (hs : fotaStep D cJSONParse s (.header check total) = some s') : s'.Inv D := by
  simp only [fotaStep, Option.ite_none_right_eq_some, Option.some.injEq] at hs
  obtain ⟨⟨hbusy, -, hlt⟩, rfl⟩ := hs
  have hidle : s.Idle := by
    rcases h.phase with hi | hc | hu
    · exact hi
    · simp [hc.busy] at hbusy
    · simp [hu.busy] at hbusy
  refine ⟨⟨by simp, trivial, by simp⟩, Or.inr ?_⟩
  cases check
  · exact Or.inr ⟨rfl, rfl, hlt, by simp [hidle.fwCnt], by simp, Or.inl rfl, by simp, hidle.info,
      hidle.infoCnt⟩
  · exact Or.inl ⟨rfl, rfl, hlt, by simp [hidle.infoCnt], by simp [hidle.info],
      by simp [hidle.info], Or.inl rfl, hidle.fwCnt⟩

/-- A request that ends, with an error or because all of it came, leaves nothing behind. -/
theorem Inv.ends {ret : ℤ} (h : s.Inv D) (hbusy : s.request.busy = true)
    (hret : ret < 0 ∨ s.request.done = s.request.total) :
    (s.finish D cJSONParse ret).Inv D := by
  refine ⟨finish_bounds h.bounds, Or.inl ?_⟩
  rcases h.phase with hi | hc | hu
  · simp [hi.busy] at hbusy
  · refine finish_idle (hret.imp (fun hneg => ⟨hneg, hc.check⟩) fun hall => ?_) (Or.inr hc.fwCnt)
    have hzero := hc.done_le.resolve_right fun hne => hne.2 hall
    have hcnt := hc.infoCnt
    refine ⟨hc.noInfo.2 hzero, UInt32.toNat_inj.1 ?_⟩
    rw [UInt32.toNat_zero]
    omega
  · refine finish_idle (Or.inr ⟨hu.info, hu.infoCnt⟩) (hret.imp (fun hneg => ⟨hneg, hu.check⟩)
      fun hall => UInt32.toNat_inj.1 ?_)
    have hcnt := hu.fwCnt
    have hlt := hu.done_lt
    rw [UInt32.toNat_zero]
    omega

theorem Inv.block {s' : FotaTask φ} (h : s.Inv D) (hfit : s.Fits D (.block data heap))
    (hs : fotaStep D cJSONParse s (.block data heap) = some s') : s'.Inv D := by
  by_cases hk : s.Takes data heap
  swap
  · simp only [fotaStep, if_neg hk, reduceCtorEq] at hs
  by_cases ht : 0 < s.request.total
  swap
  · simp only [fotaStep, if_pos hk, if_neg ht, Option.some.injEq] at hs
    exact hs ▸ h
  have hbound := hfit hk ht
  rcases h.phase with hi | hc | hu
  · have := hi.busy.symm.trans hk.1
    simp at this
  · rw [if_pos hc.check] at hbound
    by_cases hmem : s.check.fotaInfo.isSome ∨ heap.isSome
    · obtain ⟨m, hm, hmt, hmf, hmw, hphase⟩ :=
        hc.block_some (D := D) cJSONParse ht hk hmem
      obtain rfl := Option.some.inj (hm.symm.trans hs)
      have hle := hbound hmem
      have hcnt := hc.infoCnt
      refine ⟨⟨?_, ?_, ?_⟩, (hphase hle).imp_right Or.inl⟩
      · intro w hw
        rw [hmw] at hw
        rw [hmt]
        rcases List.mem_append.1 hw with hw | hw
        · exact h.bounds.heap w hw
        rcases List.mem_cons.1 hw with rfl | hw
        · dsimp only
          omega
        · split_ifs at hw
          · obtain rfl := List.mem_singleton.1 hw
            exact ⟨rfl, le_rfl⟩
          · cases hw
      · rw [hmf]
        exact h.bounds.start
      · rw [hmf, hmt]
        exact h.bounds.flash
    · rw [not_or, Option.not_isSome_iff_eq_none, Option.not_isSome_iff_eq_none] at hmem
      rw [hc.block_none ht hk hmem.1 hmem.2, Option.some.injEq] at hs
      exact hs ▸ h.ends hc.busy (Or.inl (by decide))
  · simp only [hu.check, Bool.false_eq_true, if_false] at hbound
    by_cases hmax : s.request.total ≤ D.maxFwSize.toNat
    · obtain ⟨m, hm, hmt, hmw, hmf, hphase⟩ := hu.block_write cJSONParse ht hk hmax
      obtain rfl := Option.some.inj (hm.symm.trans hs)
      have hle := hbound hmax
      have hsum := hu.written
      refine ⟨⟨?_, ?_, ?_⟩, (hphase hle).imp_right Or.inr⟩
      · rw [hmw, hmt]
        exact h.bounds.heap
      · rw [hmf, consecutive_concat]
        exact ⟨h.bounds.start, by dsimp only; omega⟩
      · rw [hmf, hmt, List.map_append, List.sum_append, List.map_singleton, List.sum_singleton]
        omega
    · rw [hu.block_refused ht hk hmax, Option.some.injEq] at hs
      exact hs ▸ h.ends hu.busy (Or.inl (by decide))

theorem Inv.step {i : FotaInput} {s' : FotaTask φ} (h : s.Inv D) (hfit : s.Fits D i)
    (hs : fotaStep D cJSONParse s i = some s') : s'.Inv D := by
  cases i with
  | header check total => exact h.header hs
  | block data heap => exact h.block hfit hs
  | close =>
    simp only [fotaStep, Option.ite_none_right_eq_some, Option.some.injEq] at hs
    obtain ⟨hbusy, rfl⟩ := hs
    refine h.ends hbusy ?_
    split_ifs with hall
    · exact Or.inr hall
    · exact Or.inl (by decide)
  | fail =>
    simp only [fotaStep, Option.ite_none_right_eq_some, Option.some.injEq] at hs
    obtain ⟨hbusy, rfl⟩ := hs
    exact h.ends hbusy (Or.inl (by decide))

/-- A block that does not fit is stored all the same. -/
theorem Inv.overrun {i : FotaInput} (h : s.Inv D) (hfit : ¬ s.Fits D i) :
    ∃ s', fotaStep D cJSONParse s i = some s' ∧ ¬ s'.InBounds := by
  cases i with
  | block data heap =>
    simp only [Fits, Classical.not_imp] at hfit
    obtain ⟨hk, ht, hbound⟩ := hfit
    rcases h.phase with hi | hc | hu
    · have := hi.busy.symm.trans hk.1
      simp at this
    · rw [if_pos hc.check, Classical.not_imp] at hbound
      obtain ⟨m, hm, hmt, -, hmw, -⟩ :=
        hc.block_some (D := D) cJSONParse ht hk hbound.1
      refine ⟨m, hm, fun hb => ?_⟩
      have hin := (hb.heap _ (by
        rw [hmw]
        exact List.mem_append_right _ (List.mem_cons_self ..))).2
      have := hc.infoCnt
      dsimp only at hin
      omega
    · simp only [hu.check, Bool.false_eq_true, if_false, Classical.not_imp] at hbound
      obtain ⟨m, hm, hmt, -, hmf, -⟩ := hu.block_write cJSONParse ht hk hbound.1
      refine ⟨m, hm, fun hb => ?_⟩
      have hin := hb.flash
      have hsum := hu.written
      rw [hmf, hmt, List.map_append, List.sum_append, List.map_singleton,
        List.sum_singleton] at hin
      omega
  | header => exact absurd trivial hfit
  | close => exact absurd trivial hfit
  | fail => exact absurd trivial hfit

end FotaTask

theorem FotaTask.boot_inv (x : φ) (info : InfoMem) : (FotaTask.boot x info).Inv D where
  bounds := ⟨by simp [boot], trivial, by simp [boot, Firmware.boot]⟩
  phase := Or.inl ⟨rfl, rfl, rfl, rfl⟩

/-- For all downloads one after the other, whatever the server announces and sends and however they
end: the manifest stays inside its allocation and the firmware inside what was announced, from the
start of its area on, exactly while each block fits. -/
theorem fota_bounds_iff (D : UtilFota φ) (cJSONParse : Bytes → Option (List CJson)) (x : φ)
    (info : InfoMem) (is : List FotaInput) :
    (∀ js s, js <+: is → run (fotaStep D cJSONParse) (.boot x info) js = some s → s.InBounds)
      ↔ Along (fotaStep D cJSONParse) (FotaTask.Fits D) (.boot x info) is :=
  along_iff (I := fun s => s.Inv D) (fun _ h => h.bounds) (fun _ _ _ h hfit hs => h.step hfit hs)
    (fun _ _ h hfit => h.overrun hfit) is _ (FotaTask.boot_inv x info)

/-- A manifest that is announced with two bytes and sent with four, and a firmware that is announced
with two and sent with three. -/
theorem fota_bounds_exceeded :
    (∃ s, run (fotaStep norFlash fun _ => none) (.boot blank ⟨[], []⟩)
        [.header true 2, .block (bytes "null") (some [0, 0, 0])] = some s ∧ ¬ s.InBounds)
      ∧ ∃ s, run (fotaStep norFlash fun _ => none) (.boot blank ⟨[], []⟩)
        [.header false 2, .block (bytes "abc") none] = some s ∧ ¬ s.InBounds := by
  constructor
  · have hrun : ((run (fotaStep norFlash fun _ => none) (.boot blank ⟨[], []⟩)
        [.header true 2, .block (bytes "null") (some [0, 0, 0])]).map
        fun s => s.check.writes) = some [⟨3, 0, 4⟩] := by decide +kernel
    obtain ⟨s, hr, hw⟩ := Option.map_eq_some_iff.1 hrun
    exact ⟨s, hr, fun h => absurd (h.heap ⟨3, 0, 4⟩ (by simp [hw])).2 (by decide)⟩
  · have hrun : ((run (fotaStep norFlash fun _ => none) (.boot blank ⟨[], []⟩)
        [.header false 2, .block (bytes "abc") none]).map
        fun s => (s.fw.flash.2, s.request.total)) = some ([(0, 3)], 2) := by decide +kernel
    obtain ⟨s, hr, hw⟩ := Option.map_eq_some_iff.1 hrun
    simp only [Prod.mk.injEq] at hw
    refine ⟨s, hr, fun h => ?_⟩
    have hflash := h.flash
    rw [hw.1, hw.2] at hflash
    exact absurd hflash (by decide)

/-- The loop of `FotaGet` does with a block what the step of the task does with it. -/
theorem FotaGet.pass_block {bufLen : ℕ} {accept : ℕ → Bool} {closed : Bool} {s : FotaGet}
    (check : Bool) (hv : s.resp.version = true)
    (hb : 0 < s.resp.contentLength ∧ 0 < s.recvedSize)
    (hm : s.dataIn + s.recvedSize ≤ s.mem.length) :
    ∃ data : Bytes, (s.pass bufLen accept closed).calls = s.calls ++ [data]
      ∧ ((data.length : ℕ) : ℤ) = s.recvedSize
      ∧ ∃ r ret, (FotaRequest.mk true check s.resp.contentLength
          s.resp.contentLengthDone).afterBlock data.length
          (if accept s.calls.length then 0 else -1) = (r, ret)
        ∧ (s.pass bufLen accept closed).resp.contentLengthDone = r.done
        ∧ (ret ≤ 0 → (s.pass bufLen accept closed).ret = ret) := by
  have hlen : ((((s.mem.drop s.dataIn).take s.recvedSize.toNat).length : ℕ) : ℤ) =
      s.recvedSize := by
    rw [List.length_take, List.length_drop]
    omega
  unfold FotaGet.pass
  rw [if_neg (by simp [hv]), if_pos hb]
  cases hacc : accept s.calls.length
  · exact ⟨_, rfl, hlen, _, _, rfl, rfl, fun _ => rfl⟩
  · simp only [Bool.not_true, Bool.false_eq_true, if_false, if_true]
    by_cases hall : s.resp.contentLengthDone + s.recvedSize = s.resp.contentLength
    · rw [if_pos hall]
      refine ⟨_, rfl, hlen, _, _, rfl, by rw [hlen], fun _ => ?_⟩
      rw [hlen]
      exact (if_pos hall).symm
    · rw [if_neg hall]
      refine ⟨_, recv_frame.2.1, hlen, _, _, rfl, ?_, fun hret => ?_⟩
      · rw [recv_frame.1, hlen]
      · rw [hlen] at hret
        simp [hall] at hret

end NrcAtcmd
