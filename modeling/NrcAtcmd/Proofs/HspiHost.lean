import NrcAtcmd.HspiHost
import NrcAtcmd.Proofs.HspiTx

/-!
# What the host takes it may lose

A read that spans several slots returns -1 at a transfer that fails, and with it the payload of the
slots before. A slot of no more than its header is accepted by `hspi_ready`, and the divisions of
both calls are by what a slot holds.
-/

namespace NrcAtcmd

open Checked

namespace HspiHost

/-- The data of a slot of which the header is valid. -/
def hspiPayload (size : ℕ) (data : Slot) : Bytes :=
  let slot := (List.range size).map data
  let hdr := hspiHdrOf slot
  if hdr.start ≠ bytes "HS" ∨ size - 4 < hdr.len then [] else (slot.drop 4).take hdr.len

/-- The data of the slots that the transfers from `i` to before `t` bring. -/
def hspiPayloads (size : ℕ) (transfer : ℕ → Option Slot) (i t : ℕ) : Bytes :=
  (List.range' i (t - i)).flatMap fun m => ((transfer m).map (hspiPayload size)).getD []

theorem length_hspiPayload_le (size : ℕ) (data : Slot) :
    (hspiPayload size data).length ≤ size - 4 := by
  unfold hspiPayload
  simp only
  split_ifs with h
  · exact Nat.zero_le _
  · rw [not_or, Nat.not_lt] at h
    exact Nat.le_trans (List.length_take_le _ _) h.2

@[simp] theorem hspiPayloads_self (size : ℕ) (transfer : ℕ → Option Slot) (i : ℕ) :
    hspiPayloads size transfer i i = [] := by
  simp [hspiPayloads]

theorem hspiPayloads_step {size : ℕ} {transfer : ℕ → Option Slot} {i t : ℕ} {data : Slot}
    (hi : transfer i = some data) (hit : i + 1 ≤ t) :
    hspiPayloads size transfer i t =
      hspiPayload size data ++ hspiPayloads size transfer (i + 1) t := by
  obtain ⟨n, rfl⟩ := Nat.exists_eq_add_of_le hit
  rw [hspiPayloads, hspiPayloads, show i + 1 + n - i = n + 1 by omega, Nat.add_sub_cancel_left,
    List.range'_succ, List.flatMap_cons, hi]
  rfl

theorem hspiHdrOf_memcpy {slotBuf slot : Bytes} (h : 4 ≤ slot.length) :
    hspiHdrOf (Memory.memcpy slotBuf 0 slot) = hspiHdrOf slot := by
  match slot, h with
  | _ :: _ :: _ :: _ :: _, _ => rfl

theorem hspiHdrOf_start {slot : Bytes} (h : 4 ≤ slot.length) :
    (hspiHdrOf slot).start.length = 2 := by
  match slot, h with
  | _ :: _ :: _ :: _ :: _, _ => rfl

/-- What a read of at most `n` slots, from the `i`-th transfer and byte `j` on, leaves. -/
structure Reads (size : ℕ) (transfer : ℕ → Option Slot) (n i j : ℕ) (buf : Bytes)
    (r : Taken) : Prop where
  le_taken : i ≤ r.taken
  taken_le : r.taken ≤ i + n
  taken : ∀ m, i ≤ m → m < r.taken → transfer m ≠ none
  failed : r.failed = true ↔ r.taken < i + n
  failing : r.taken < i + n → transfer r.taken = none
  len : r.len = j + (hspiPayloads size transfer i r.taken).length
  length : r.buf.length = buf.length
  data : r.buf.take r.len = buf.take j ++ hspiPayloads size transfer i r.taken

/-- One transfer that succeeds: its payload is behind what was counted before. -/
theorem hspiReadSlot_step {size : ℕ} (h₀ : 4 ≤ size) (h₁ : size ≤ 512)
    {transfer : ℕ → Option Slot} {i j : ℕ} {data : Slot} (hi : transfer i = some data) (n : ℕ)
    {slotBuf buf : Bytes} (seq : ℕ) (hslot : slotBuf.length = 512)
    (hle : j + (size - 4) ≤ buf.length) :
    ∃ slotBuf' seq', slotBuf'.length = 512 ∧
      hspiReadSlot size transfer (n + 1) i j slotBuf buf seq =
        hspiReadSlot size transfer n (i + 1) (j + (hspiPayload size data).length) slotBuf'
          (Memory.memcpy buf j (hspiPayload size data)) seq' := by
  obtain ⟨slot, hs⟩ : ∃ slot, (List.range size).map data = slot := ⟨_, rfl⟩
  have hlen : slot.length = size := by simp [← hs]
  have hcopy : (Memory.memcpy slotBuf 0 slot).length = 512 := by
    rw [Memory.length_memcpy (by rw [hlen, hslot]; omega), hslot]
  have hread : hspiReadSlot size transfer (n + 1) i j slotBuf buf seq =
      let slotBuf := Memory.memcpy slotBuf 0 slot
      let hdr := hspiHdrOf slot
      if hdr.start ≠ bytes "HS" ∨ (size : ℤ) - 4 < hdr.len then
        (Cells.copy slotBuf 0 { hdr with len := 0 }.bytes).bind fun slotBuf =>
          hspiReadSlot size transfer n (i + 1) j slotBuf buf seq
      else
        (Cells.fetch slotBuf 4 hdr.len).bind fun data =>
          (Cells.copy buf j data).bind fun buf =>
            hspiReadSlot size transfer n (i + 1) (j + hdr.len) slotBuf buf
              (hspiSeqNext hdr.seq) := by
    rw [hspiReadSlot, hi]
    simp only [Option.bind_eq_bind, hs]
    rw [Cells.copy_of_le (by rw [hlen, hslot]; omega), Option.bind_some,
      hspiHdrOf_memcpy (by omega)]
  have hint : ∀ n : ℕ, (size : ℤ) - 4 < n ↔ size - 4 < n := fun n => by omega
  rw [hread]
  unfold hspiPayload
  simp only [hint, hs]
  by_cases hhdr : (hspiHdrOf slot).start ≠ bytes "HS" ∨ size - 4 < (hspiHdrOf slot).len
  · rw [if_pos hhdr, if_pos hhdr]
    have hbytes :
        (HspiHdr.bytes ⟨(hspiHdrOf slot).start, 0, (hspiHdrOf slot).seq⟩).length = 4 := by
      simp [HspiHdr.bytes, hspiHdrOf_start (h₀.trans hlen.ge)]
    rw [Cells.copy_of_le (by rw [hbytes, hcopy]; omega), Option.bind_some]
    refine ⟨Memory.memcpy (Memory.memcpy slotBuf 0 slot) 0
      (HspiHdr.bytes ⟨(hspiHdrOf slot).start, 0, (hspiHdrOf slot).seq⟩), seq, ?_, ?_⟩
    · exact (Memory.length_memcpy (by rw [hbytes, hcopy]; omega)).trans hcopy
    · simp [Memory.memcpy]
  · rw [if_neg hhdr, if_neg hhdr]
    rw [not_or, Nat.not_lt] at hhdr
    have hdata : Memory.read (Memory.memcpy slotBuf 0 slot) 4 (hspiHdrOf slot).len =
        (slot.drop 4).take (hspiHdrOf slot).len := by
      rw [Memory.memcpy, Memory.read, List.take_zero, List.nil_append,
        List.drop_append_of_le_length (by omega), List.take_append_of_le_length]
      rw [List.length_drop, hlen]
      exact hhdr.2
    have hlen' : ((slot.drop 4).take (hspiHdrOf slot).len).length = (hspiHdrOf slot).len := by
      rw [List.length_take, List.length_drop, hlen]
      omega
    rw [Cells.fetch_of_le (by rw [hcopy]; omega), Option.bind_some, hdata,
      Cells.copy_of_le (by rw [hlen']; omega), Option.bind_some, hlen']
    exact ⟨_, _, hcopy, rfl⟩

theorem Reads.step {size n i j : ℕ} {transfer : ℕ → Option Slot} {data : Slot} {buf : Bytes}
    {r : Taken} (hi : transfer i = some data) (hle : j + (size - 4) ≤ buf.length)
    (h : Reads size transfer n (i + 1) (j + (hspiPayload size data).length)
      (Memory.memcpy buf j (hspiPayload size data)) r) :
    Reads size transfer (n + 1) i j buf r := by
  have hpay := length_hspiPayload_le size data
  refine ⟨by have := h.le_taken; omega, by have := h.taken_le; omega, ?_, ?_, ?_, ?_, ?_, ?_⟩
  · intro m hm hm'
    rcases Nat.eq_or_lt_of_le hm with rfl | hm
    · simp [hi]
    · exact h.taken m hm hm'
  · rw [h.failed]
    omega
  · intro hlt
    exact h.failing (by omega)
  · rw [h.len, hspiPayloads_step hi h.le_taken, List.length_append, Nat.add_assoc]
  · rw [h.length, Memory.length_memcpy (by omega)]
  · rw [h.data, hspiPayloads_step hi h.le_taken, Memory.take_memcpy (by omega), List.append_assoc]

theorem hspiReadSlot_spec (size : ℕ) (h₀ : 4 ≤ size) (h₁ : size ≤ 512)
    (transfer : ℕ → Option Slot) : ∀ (n i j : ℕ) (slotBuf buf : Bytes) (seq : ℕ),
      slotBuf.length = 512 → j + n * (size - 4) ≤ buf.length →
      ∃ r, hspiReadSlot size transfer n i j slotBuf buf seq = some r
        ∧ Reads size transfer n i j buf r
  | 0, i, j, slotBuf, buf, seq, _, _ => by
    refine ⟨_, rfl, Nat.le_refl i, Nat.le_refl i, fun m hm hm' => ?_, by simp, ?_, by simp, rfl,
      by simp⟩
    · exact absurd hm' (Nat.not_lt.2 hm)
    · exact fun h => absurd h (Nat.lt_irrefl i)
  | n + 1, i, j, slotBuf, buf, seq, hslot, hle => by
    rw [Nat.succ_mul] at hle
    rcases ht : transfer i with _ | data
    · rw [hspiReadSlot, ht]
      refine ⟨_, rfl, Nat.le_refl i, Nat.le_add_right _ _, fun m hm hm' => ?_, by simp,
        fun _ => ht, by simp, rfl, by simp⟩
      exact absurd hm' (Nat.not_lt.2 hm)
    · have hpay := length_hspiPayload_le size data
      obtain ⟨slotBuf', seq', hslot', heq⟩ := hspiReadSlot_step h₀ h₁ ht n seq hslot
        (show j + (size - 4) ≤ buf.length by omega)
      have hcopy := Memory.length_memcpy
        (show j + (hspiPayload size data).length ≤ buf.length by omega)
      rw [heq]
      obtain ⟨r, hr, hreads⟩ := hspiReadSlot_spec size h₀ h₁ transfer n (i + 1)
        (j + (hspiPayload size data).length) slotBuf'
        (Memory.memcpy buf j (hspiPayload size data)) seq' hslot' (by omega)
      exact ⟨r, hr, hreads.step ht (by omega)⟩

theorem Reads.len_le {size n i : ℕ} {transfer : ℕ → Option Slot} {buf : Bytes} {r : Taken}
    (h : Reads size transfer n i 0 buf r) : r.len ≤ buf.length := by
  have hdata := congrArg List.length h.data
  rw [List.take_zero, List.nil_append, List.length_take, h.length] at hdata
  have := h.len
  omega

/-- The slots that a read of `len` bytes asks for: what has room, no more than the queue has, and no
more than are counted, after a new status where the count was too low. -/
def slotNumOf (info : HspiInfo) (new : Option HspiStatus) (len : ℕ) : ℕ :=
  let slotNum := min (len / (info.slotSize - 4) % 2 ^ 16) info.slotNum
  if slotNum ≤ info.slotCnt then slotNum
  else if new = none then 0 else min slotNum (hspiStatusUpdate info new).2.slotCnt

@[simp] theorem hspiStatusUpdate_slotSize (info : HspiInfo) (new : Option HspiStatus) :
    (hspiStatusUpdate info new).2.slotSize = info.slotSize := by
  unfold hspiStatusUpdate
  split
  · rfl
  · split_ifs <;> rfl

theorem hspiStatusUpdate_err (info : HspiInfo) (new : Option HspiStatus) :
    (hspiStatusUpdate info new).1 ≠ 0 ↔ new = none := by
  unfold hspiStatusUpdate
  split
  · simp
  · split_ifs <;> simp

theorem ite_lt_eq_min (a b : ℕ) : (if a < b then a else b) = min b a := by
  rw [Nat.min_def]
  split_ifs <;> omega

theorem hspiReadCounted_spec (info : HspiInfo) (h₀ : 4 < info.slotSize) (h₁ : info.slotSize ≤ 512)
    {slotNum : ℕ} (transfer : ℕ → Option Slot) (stale : Slot) {buf : Bytes}
    (hle : slotNum * (info.slotSize - 4) ≤ buf.length) :
    ∃ r t, hspiReadCounted info slotNum transfer stale buf = some r
      ∧ Reads info.slotSize transfer (min slotNum info.slotCnt) 0 0 buf t
      ∧ r.taken = t.taken ∧ r.buf = t.buf ∧ r.ret = if t.failed then -1 else (t.len : ℤ) := by
  unfold hspiReadCounted
  rw [ite_lt_eq_min]
  have hle' : 0 + min slotNum info.slotCnt * (info.slotSize - 4) ≤ buf.length := by
    rw [Nat.zero_add]
    exact Nat.le_trans (Nat.mul_le_mul_right _ (Nat.min_le_left _ _)) hle
  obtain ⟨t, ht, hreads⟩ := hspiReadSlot_spec info.slotSize (by omega) h₁ transfer
    (min slotNum info.slotCnt) 0 0 (slotBuf stale) buf info.seq (by simp [slotBuf]) hle'
  simp only [Option.bind_eq_bind]
  split_ifs with h0
  · rw [h0, hspiReadSlot] at ht
    cases ht
    exact ⟨_, _, rfl, hreads, rfl, rfl, rfl⟩
  · rw [ht, Option.bind_some]
    rcases hf : t.failed with - | -
    · have hcast : (info.slotCnt : ℤ) - min slotNum info.slotCnt =
          ((info.slotCnt - min slotNum info.slotCnt : ℕ) : ℤ) := by omega
      rw [if_neg (by simp), hcast, uint_natCast]
      exact ⟨_, t, rfl, hreads, rfl, rfl, by simp [hf]⟩
    · rw [if_pos rfl]
      exact ⟨_, t, rfl, hreads, rfl, rfl, by simp [hf]⟩

/-- A read that returns before it asks for slots, or else reads as many as it asks for. -/
theorem hspiRead_spec (info : HspiInfo) (h₀ : 4 < info.slotSize) (h₁ : info.slotSize ≤ 512)
    (new : Option HspiStatus) (transfer : ℕ → Option Slot) (stale : Slot) (buf : Bytes) :
    ∃ r, hspiRead info new transfer stale buf = some r ∧
      ((r.taken = 0 ∧ r.buf = buf ∧ r.ret = -1 ∧
          (info.active = false ∨ slotNumOf info new buf.length = 0)) ∨
        ∃ t, info.active = true ∧
          Reads info.slotSize transfer (slotNumOf info new buf.length) 0 0 buf t ∧
          r.taken = t.taken ∧ r.buf = t.buf ∧ r.ret = if t.failed then -1 else (t.len : ℤ)) := by
  unfold hspiRead
  split_ifs with hact
  · refine ⟨_, rfl, .inl ⟨rfl, rfl, rfl, ?_⟩⟩
    rcases hact with hbuf | hact
    · right
      simp [slotNumOf, hbuf]
    · left
      simpa using hact
  simp only [not_or, Bool.not_eq_true, Bool.not_eq_false'] at hact
  have hsub : (info.slotSize : ℤ) - 4 = ((info.slotSize - 4 : ℕ) : ℤ) := by omega
  simp only [Option.bind_eq_bind]
  rw [hsub, div_natCast _ (by omega), Option.bind_some, uint_natCast, Option.bind_some,
    ite_lt_eq_min]
  unfold slotNumOf
  simp only
  have hle : min (buf.length / (info.slotSize - 4) % 2 ^ 16) info.slotNum * (info.slotSize - 4) ≤
      buf.length :=
    Nat.le_trans (Nat.mul_le_mul_right _ ((Nat.min_le_left _ _).trans (Nat.mod_le _ _)))
      (Nat.div_mul_le_self _ _)
  generalize min (buf.length / (info.slotSize - 4) % 2 ^ 16) info.slotNum = slotNum at hle ⊢
  by_cases hcnt : slotNum ≤ info.slotCnt
  · rw [if_neg (Nat.not_lt.2 hcnt), if_neg (by simp), if_pos hcnt]
    obtain ⟨r, t, hr, ht⟩ := hspiReadCounted_spec _ h₀ h₁ transfer stale hle
    rw [Nat.min_eq_left hcnt] at ht
    exact ⟨r, hr, .inr ⟨t, hact.2, ht⟩⟩
  · rw [if_pos (Nat.not_le.1 hcnt), if_neg hcnt]
    by_cases hnew : new = none
    · rw [if_pos ((hspiStatusUpdate_err info new).2 hnew), if_pos hnew]
      exact ⟨_, rfl, .inl ⟨rfl, rfl, rfl, .inr rfl⟩⟩
    · rw [if_neg (fun h => hnew ((hspiStatusUpdate_err info new).1 h)), if_neg hnew]
      have hsize := hspiStatusUpdate_slotSize info new
      obtain ⟨r, t, hr, ht⟩ := hspiReadCounted_spec (hspiStatusUpdate info new).2
        (by omega) (by omega) transfer stale (by rw [hsize]; exact hle)
      rw [hsize] at ht
      exact ⟨r, hr, .inr ⟨t, hact.2, ht⟩⟩

/-- The slots that the transfers bring. -/
def slotsOf (size : ℕ) (transfer : ℕ → Option Slot) (i : ℕ) : Option Bytes :=
  (transfer i).map fun data => (List.range size).map data

theorem hspiReadSlot_cons (size : ℕ) {transfer : ℕ → Option Slot} {i : ℕ} {data : Slot}
    (hi : transfer i = some data) (slots : List (Option Bytes)) (seq : ℕ) : ∃ seq',
      (NrcAtcmd.hspiReadSlot size (slotsOf size transfer i :: slots) seq).1 =
        (NrcAtcmd.hspiReadSlot size slots seq').1.map (hspiPayload size data ++ ·) := by
  unfold slotsOf
  rw [hi, Option.map_some, NrcAtcmd.hspiReadSlot]
  unfold hspiPayload
  simp only
  split_ifs
  · exact ⟨seq, by cases (NrcAtcmd.hspiReadSlot size slots seq).1 <;> rfl⟩
  · exact ⟨_, rfl⟩

theorem Reads.hspiReadSlot (size : ℕ) {transfer : ℕ → Option Slot} {t : ℕ} : ∀ {n i : ℕ},
    i ≤ t → t ≤ i + n → (∀ m, i ≤ m → m < t → transfer m ≠ none) →
      (t < i + n → transfer t = none) → ∀ seq,
      (NrcAtcmd.hspiReadSlot size ((List.range' i n).map (slotsOf size transfer)) seq).1 =
        if t < i + n then none else some (hspiPayloads size transfer i t)
  | 0, i, hi, ht, _, _, seq => by
    obtain rfl : t = i := by omega
    simp [NrcAtcmd.hspiReadSlot]
  | n + 1, i, hi, ht, hsome, hnone, seq => by
    rw [List.range'_succ, List.map_cons]
    rcases hti : transfer i with _ | data
    · obtain rfl : t = i := by
        by_contra hne
        exact hsome i (Nat.le_refl i) (by omega) hti
      rw [if_pos (by omega), slotsOf, hti]
      rfl
    · have hlt : i < t := by
        by_contra hge
        obtain rfl : t = i := by omega
        rw [hnone (by omega)] at hti
        cases hti
      obtain ⟨seq', hcons⟩ := hspiReadSlot_cons size hti
        ((List.range' (i + 1) n).map (slotsOf size transfer)) seq
      rw [hcons, Reads.hspiReadSlot size hlt (by omega) (fun m hm => hsome m (by omega))
        (fun h => hnone (by omega)), hspiPayloads_step hti hlt,
        show i + 1 + n = i + (n + 1) by omega]
      split_ifs <;> rfl

/-- For slots that hold data a read is the one of `Hspi.lean`, on the slots that are brought. -/
theorem hspiRead_eq {info : HspiInfo} (h₀ : 4 < info.slotSize) (h₁ : info.slotSize ≤ 512)
    {new : Option HspiStatus} {transfer : ℕ → Option Slot} {stale : Slot} {buf : Bytes}
    {r : ReadRet} (hr : hspiRead info new transfer stale buf = some r) :
    (NrcAtcmd.hspiRead info new (slotsOf info.slotSize transfer) buf.length).1 = r.ret
      ∧ (0 ≤ r.ret → (NrcAtcmd.hspiRead info new (slotsOf info.slotSize transfer) buf.length).2.1 =
          r.buf.take r.ret.toNat) := by
  have hsub : (info.slotSize : ℤ) - 4 = ((info.slotSize - 4 : ℕ) : ℤ) := by omega
  unfold hspiRead at hr
  unfold NrcAtcmd.hspiRead
  by_cases hact : buf.length = 0 ∨ !info.active
  · rw [if_pos hact] at hr ⊢
    cases hr
    exact ⟨rfl, fun h => absurd h (show ¬ (0 : ℤ) ≤ -1 by decide)⟩
  rw [if_neg hact] at hr ⊢
  simp only [Option.bind_eq_bind] at hr
  rw [hsub, div_natCast _ (by omega), Option.bind_some, uint_natCast, Option.bind_some,
    ite_lt_eq_min] at hr
  simp only [ite_lt_eq_min]
  have hle : min (buf.length / (info.slotSize - 4) % 2 ^ 16) info.slotNum * (info.slotSize - 4) ≤
      buf.length :=
    Nat.le_trans (Nat.mul_le_mul_right _ ((Nat.min_le_left _ _).trans (Nat.mod_le _ _)))
      (Nat.div_mul_le_self _ _)
  generalize min (buf.length / (info.slotSize - 4) % 2 ^ 16) info.slotNum = slotNum at hle hr ⊢
  obtain ⟨err, info₁, hstatus, hsize⟩ : ∃ err info₁,
      (if info.slotCnt < slotNum then hspiStatusUpdate info new else (0, info)) = (err, info₁)
        ∧ info₁.slotSize = info.slotSize := by
    split_ifs
    · exact ⟨_, _, rfl, hspiStatusUpdate_slotSize info new⟩
    · exact ⟨_, _, rfl, rfl⟩
  rw [hstatus] at hr ⊢
  by_cases herr : err ≠ 0
  · simp only [if_pos herr] at hr ⊢
    cases hr
    exact ⟨rfl, fun h => absurd h (show ¬ (0 : ℤ) ≤ -1 by decide)⟩
  simp only [if_neg herr] at hr ⊢
  rw [← hsize] at h₀ h₁ hle ⊢
  obtain ⟨r', t, hr', hreads, -, hbuf, hret⟩ := hspiReadCounted_spec _ h₀ h₁ transfer stale hle
  obtain rfl := Option.some.inj (hr.symm.trans hr')
  have htake := hreads.data
  have hfailed := hreads.failed
  have hslots := Reads.hspiReadSlot info₁.slotSize hreads.le_taken hreads.taken_le
    hreads.taken hreads.failing info₁.seq
  rw [← List.range_eq_range'] at hslots
  rw [List.take_zero, List.nil_append] at htake
  by_cases h0 : min slotNum info₁.slotCnt = 0
  · have := hreads.taken_le
    have hf : t.failed = false := by
      by_contra hf
      have := hfailed.1 (by simpa using hf)
      omega
    have ht0 : t.taken = 0 := by omega
    have hlen := hreads.len
    rw [ht0] at hlen
    simp only [hspiPayloads_self, List.length_nil] at hlen
    rw [if_pos h0, hret, if_neg (by simp [hf]), hlen]
    exact ⟨rfl, fun _ => rfl⟩
  · rw [if_neg h0]
    generalize NrcAtcmd.hspiReadSlot info₁.slotSize
      ((List.range (min slotNum info₁.slotCnt)).map (slotsOf info₁.slotSize transfer))
      info₁.seq = w at hslots ⊢
    obtain ⟨w, seq⟩ := w
    simp only at hslots
    rw [hslots, hret]
    by_cases hlt : t.taken < 0 + min slotNum info₁.slotCnt
    · rw [if_pos hlt, if_pos (hfailed.2 hlt)]
      exact ⟨rfl, fun h => absurd h (show ¬ (0 : ℤ) ≤ -1 by decide)⟩
    · rw [if_neg hlt, if_neg (fun hf => hlt (hfailed.1 hf)), hbuf, Int.toNat_natCast, htake]
      refine ⟨?_, fun _ => rfl⟩
      have hlen := hreads.len
      rw [Nat.zero_add] at hlen
      rw [hlen]

/-- A read of slots that hold no data: its division is by zero, or its quotient is negative. -/
theorem hspiRead_of_le (info : HspiInfo) (h₀ : 0 < info.slotSize) (h₁ : info.slotSize ≤ 4)
    (new : Option HspiStatus) (transfer : ℕ → Option Slot) (stale : Slot) (buf : Bytes) :
    hspiRead info new transfer stale buf =
      if buf.length = 0 ∨ !info.active then some ⟨-1, buf, 0, info⟩
      else if buf.length + info.slotSize < 4 then some ⟨0, buf, 0, info⟩ else none := by
  unfold hspiRead
  split_ifs with hact hlt
  · rfl
  · have hsub : (info.slotSize : ℤ) - 4 = -((4 - info.slotSize : ℕ) : ℤ) := by omega
    simp only [Option.bind_eq_bind]
    rw [hsub, div_neg_natCast _ (by omega), Option.bind_some, uint_neg_natCast,
      if_pos (Nat.div_eq_of_lt (by omega)), Option.bind_some]
    simp [hspiReadCounted]
  · simp only [Option.bind_eq_bind]
    rcases Nat.eq_or_lt_of_le h₁ with h4 | h4
    · rw [h4]
      rfl
    · have hsub : (info.slotSize : ℤ) - 4 = -((4 - info.slotSize : ℕ) : ℤ) := by omega
      have hpos : 0 < buf.length / (4 - info.slotSize) := Nat.div_pos (by omega) (by omega)
      rw [hsub, div_neg_natCast _ (by omega), Option.bind_some, uint_neg_natCast,
        if_neg (by omega), Option.bind_none]

theorem hspiSlot_spec {msg : UInt32} {q : ℕ × ℕ} (h : hspiSlot msg = some q) :
    0 < q.1 ∧ 0 < q.2 ∧ q.2 ≤ 512 := by
  unfold hspiSlot at h
  simp only at h
  split_ifs at h with h₁ h₂
  cases h
  exact ⟨Nat.pos_of_ne_zero h₁, Nat.pos_of_ne_zero fun h => h₂ (.inl h),
    Nat.not_lt.1 fun h => h₂ (.inr h)⟩

theorem hspiReadyLoop_spec {reads : ℕ → Option HspiMsg} {txq rxq : ℕ × ℕ} :
    ∀ {n i : ℕ} {msg : HspiMsg}, hspiReadyLoop reads n i msg = some (txq, rxq) →
      (0 < txq.1 ∧ 0 < txq.2 ∧ txq.2 ≤ 512) ∧ (0 < rxq.1 ∧ 0 < rxq.2 ∧ rxq.2 ≤ 512)
  | 0, _, _, h => by cases h
  | n + 1, i, msg, h => by
    unfold hspiReadyLoop at h
    simp only [Option.bind_eq_bind] at h
    split_ifs at h
    · obtain ⟨tx, htx, h⟩ := Option.bind_eq_some_iff.1 h
      obtain ⟨rx, hrx, h⟩ := Option.bind_eq_some_iff.1 h
      cases h
      exact ⟨hspiSlot_spec htx, hspiSlot_spec hrx⟩
    · obtain ⟨msg', -, h⟩ := Option.bind_eq_some_iff.1 h
      exact hspiReadyLoop_spec h

/-- A geometry that is accepted. -/
theorem hspiReady_spec {active : Bool} {reads : ℕ → Option HspiMsg} {txq rxq : ℕ × ℕ}
    (h : hspiReady active reads = some (txq, rxq)) :
    (0 < txq.1 ∧ 0 < txq.2 ∧ txq.2 ≤ 512) ∧ (0 < rxq.1 ∧ 0 < rxq.2 ∧ rxq.2 ≤ 512) := by
  unfold hspiReady at h
  split_ifs at h
  obtain ⟨msg, -, h⟩ := Option.bind_eq_some_iff.1 h
  exact hspiReadyLoop_spec h

/-! ## Nothing taken is lost -/

/-- What the call took from the device is what it returns, and it fails only if that is nothing. -/
def ReadRet.Delivers (r : ReadRet) (size : ℕ) (transfer : ℕ → Option Slot) : Prop :=
  (0 ≤ r.ret → r.buf.take r.ret.toNat = hspiPayloads size transfer 0 r.taken)
    ∧ (r.ret < 0 → hspiPayloads size transfer 0 r.taken = [])

/-- A transfer fails in one of the `n` slots asked for, and a slot before it had data. -/
def FailsLate (size : ℕ) (transfer : ℕ → Option Slot) (n : ℕ) : Prop :=
  ∃ t < n, transfer t = none ∧ (∀ m < t, transfer m ≠ none)
    ∧ hspiPayloads size transfer 0 t ≠ []

theorem Reads.delivers_iff {size n : ℕ} {transfer : ℕ → Option Slot} {buf : Bytes} {t : Taken}
    (h : Reads size transfer n 0 0 buf t) {r : ReadRet} (htaken : r.taken = t.taken)
    (hbuf : r.buf = t.buf) (hret : r.ret = if t.failed then -1 else (t.len : ℤ)) :
    r.Delivers size transfer ↔ ¬ FailsLate size transfer n := by
  have hdata := h.data
  rw [List.take_zero, List.nil_append] at hdata
  have hfailed := h.failed
  rw [Nat.zero_add] at hfailed
  unfold ReadRet.Delivers
  rw [hret, htaken, hbuf]
  rcases hf : t.failed with - | -
  · rw [if_neg (by simp)]
    constructor
    · rintro - ⟨k, hk, hnone, -, -⟩
      refine h.taken k (Nat.zero_le k) ?_ hnone
      have := h.taken_le
      have : ¬ t.taken < n := fun hlt => by simp [hfailed.2 hlt] at hf
      omega
    · intro _
      exact ⟨fun _ => by simpa using hdata, fun hneg => absurd hneg (by omega)⟩
  · have hlt : t.taken < n := hfailed.1 hf
    rw [if_pos rfl]
    constructor
    · rintro ⟨-, hnil⟩ ⟨k, hk, hnone, hall, hne⟩
      have hk : k = t.taken := by
        rcases Nat.lt_trichotomy k t.taken with hkt | hkt | hkt
        · exact absurd hnone (h.taken k (Nat.zero_le k) hkt)
        · exact hkt
        · exact absurd (h.failing (by omega)) (hall t.taken hkt)
      exact hne (hk ▸ hnil (by decide))
    · intro hlate
      refine ⟨fun hge => absurd hge (by decide), fun _ => ?_⟩
      by_contra hne
      exact hlate ⟨t.taken, hlt, h.failing (by omega), fun m hm => h.taken m (Nat.zero_le m) hm,
        hne⟩

/-- A queue with slots of a geometry, as many of them counted. -/
def infoOf (slot : ℕ × ℕ) (slotCnt seq : ℕ) : HspiInfo := ⟨true, slot.1, slot.2, slotCnt, seq⟩

/-- A read delivers what it takes, exactly if no transfer fails after one that brought data. -/
theorem hspi_read_lossless_iff {reads : ℕ → Option HspiMsg} {txq rxq : ℕ × ℕ}
    (hready : hspiReady true reads = some (txq, rxq)) (slotCnt seq : ℕ) (new : Option HspiStatus)
    (transfer : ℕ → Option Slot) (stale : Slot) (buf : Bytes) :
    ((4 < txq.2 → (hspiRead (infoOf txq slotCnt seq) new transfer stale buf).isSome) ∧
        ∀ r, hspiRead (infoOf txq slotCnt seq) new transfer stale buf = some r →
          r.Delivers txq.2 transfer) ↔
      ¬ FailsLate txq.2 transfer (slotNumOf (infoOf txq slotCnt seq) new buf.length) := by
  obtain ⟨⟨-, hpos, hle⟩, -⟩ := hspiReady_spec hready
  by_cases h4 : 4 < txq.2
  · obtain ⟨r, hr, hspec⟩ := hspiRead_spec (infoOf txq slotCnt seq) h4 hle new transfer
      stale buf
    rw [hr]
    have hiff : r.Delivers txq.2 transfer ↔
        ¬ FailsLate txq.2 transfer (slotNumOf (infoOf txq slotCnt seq) new buf.length) := by
      rcases hspec with ⟨htaken, hbuf, hret, hact⟩ | ⟨t, -, hreads, htaken, hbuf, hret⟩
      · rcases hact with hact | hn
        · cases hact
        · rw [hn, ReadRet.Delivers, htaken, hret]
          simp [FailsLate]
      · exact hreads.delivers_iff htaken hbuf hret
    rw [← hiff]
    constructor
    · exact fun h => h.2 r rfl
    · intro h
      refine ⟨fun _ => rfl, fun r' hr' => ?_⟩
      cases hr'
      exact h
  · have hn : slotNumOf (infoOf txq slotCnt seq) new buf.length = 0 := by
      have : txq.2 - 4 = 0 := by omega
      simp [slotNumOf, infoOf, this]
    rw [hn]
    refine iff_of_true ⟨fun h => absurd h h4, fun r hr => ?_⟩ (by simp [FailsLate])
    rw [hspiRead_of_le (infoOf txq slotCnt seq) hpos (Nat.not_lt.1 h4)] at hr
    split_ifs at hr <;> cases hr <;> simp [ReadRet.Delivers]

/-- The message of this repository's target: two queues of 32 slots, each of 512 bytes. -/
def hspiMsg : HspiMsg := ⟨bytes "NRC-HSPI", 0x00200200, 0x00200200⟩

theorem hspiReady_msg :
    hspiReady true (fun _ => some hspiMsg) = some ((32, 512), (32, 512)) := by
  decide +kernel

/-- A slot with one byte of data. -/
def oneByte : Slot := fun i => (bytes "HS" ++ [1, 0, 65]).getD i 0

theorem slotNumOf_full {n : ℕ} (h : n ≤ 32) :
    slotNumOf (infoOf (32, 512) n 0) none (List.replicate (508 * n) (0 : UInt8)).length = n := by
  rw [List.length_replicate]
  simp only [slotNumOf, infoOf]
  split_ifs <;> omega

/-- A slot without a header, a transfer that fails, and slots with data. -/
def failsEarly (i : ℕ) : Option Slot :=
  if i = 0 then some fun _ => 0 else if i = 1 then none else some oneByte

/-- What comes after the failed transfer is left for the next read. -/
theorem hspi_read_lossless_iff_one : ∃ r,
    hspiRead (infoOf (32, 512) 3 0) none failsEarly (fun _ => 0) (List.replicate (508 * 3) 0) =
      some r ∧ r.Delivers 512 failsEarly := by
  have hlate : ¬ FailsLate 512 failsEarly 3 := by
    rintro ⟨t, -, hnone, -, hne⟩
    obtain rfl : t = 1 := by
      by_contra h1
      unfold failsEarly at hnone
      split_ifs at hnone
    exact hne (by decide +kernel)
  rw [← slotNumOf_full (n := 3) (by decide)] at hlate
  have h := (hspi_read_lossless_iff hspiReady_msg 3 0 none failsEarly (fun _ => 0)
    (List.replicate (508 * 3) 0)).2 hlate
  obtain ⟨r, hr⟩ := Option.isSome_iff_exists.1 (h.1 (by decide))
  exact ⟨r, hr, h.2 r hr⟩

/-- The first of two transfers brings a byte, and the second fails. -/
theorem hspi_read_loses : ∃ r,
    hspiRead (infoOf (32, 512) 2 0) none (fun i => if i = 0 then some oneByte else none)
        (fun _ => 0) (List.replicate (508 * 2) 0) = some r
      ∧ ¬ r.Delivers 512 fun i => if i = 0 then some oneByte else none := by
  have hlate : FailsLate 512 (fun i => if i = 0 then some oneByte else none) 2 :=
    ⟨1, by decide, rfl, fun m hm => by simp [Nat.lt_one_iff.1 hm], by decide +kernel⟩
  obtain ⟨r, hr, hspec⟩ := hspiRead_spec (infoOf (32, 512) 2 0) (by decide) (by decide) none
    (fun i => if i = 0 then some oneByte else none) (fun _ => 0) (List.replicate (508 * 2) 0)
  rw [slotNumOf_full (n := 2) (by decide)] at hspec
  obtain ⟨-, -, -, hact | hn⟩ | ⟨t, -, hreads, htaken, hbuf, hret⟩ := hspec
  · cases hact
  · cases hn
  · exact ⟨r, hr, fun h => (hreads.delivers_iff htaken hbuf hret).1 h hlate⟩

/-! ## The geometry -/

/-- The slot buffer, with zeros behind data of a length. -/
def Padded (size slotLen : ℕ) (slotBuf : Bytes) : Prop :=
  slotBuf.length = 512 ∧
    ∃ w, slotBuf.drop (4 + slotLen) = List.replicate (size - 4 - slotLen) 0 ++ w

theorem length_hdr_bytes (len seq : ℕ) : (HspiHdr.bytes ⟨bytes "HS", len, seq⟩).length = 4 := rfl

theorem hspiPad_spec {size slotLen j L : ℕ} {slotBuf : Bytes} (h₁ : size ≤ 512)
    (hlen : slotLen ≤ size - 4) (hj : j ≤ L) (hpad : Padded size slotLen slotBuf) :
    ∃ slotBuf', Padded size (min (L - j) slotLen) slotBuf' ∧
      hspiPad size L j slotLen slotBuf = some (min (L - j) slotLen, slotBuf') := by
  unfold hspiPad
  by_cases hlt : L - j < slotLen
  · have hcast : (L : ℤ) - j = ((L - j : ℕ) : ℤ) := by omega
    have hsize : (size : ℤ) - 4 - ((L - j : ℕ) : ℤ) = ((size - 4 - (L - j) : ℕ) : ℤ) := by omega
    have hcopy : 4 + (L - j) + (List.replicate (size - 4 - (L - j)) (0 : UInt8)).length ≤
        slotBuf.length := by
      rw [List.length_replicate, hpad.1]
      omega
    rw [if_pos (by omega), Nat.min_eq_left (by omega), hcast, uint_natCast,
      Nat.mod_eq_of_lt (by omega)]
    simp only [Option.bind_eq_bind, Option.bind_some]
    rw [hsize, uint_natCast, Nat.mod_eq_of_lt (by omega), Option.bind_some,
      Cells.copy_of_le hcopy, Option.bind_some]
    refine ⟨_, ⟨(Memory.length_memcpy hcopy).trans hpad.1, slotBuf.drop (4 + (L - j) +
      (List.replicate (size - 4 - (L - j)) (0 : UInt8)).length), ?_⟩, rfl⟩
    rw [Memory.memcpy, List.append_assoc, List.drop_left' (by rw [List.length_take]; omega)]
  · rw [if_neg (by omega), Nat.min_eq_right (by omega)]
    exact ⟨slotBuf, hpad, rfl⟩

/-- The slot buffer once the header and the data are in it. -/
theorem fill_spec {size slotLen : ℕ} {slotBuf data : Bytes} (h₀ : 4 ≤ size) (h₁ : size ≤ 512)
    (hlen : slotLen ≤ size - 4) (hpad : Padded size slotLen slotBuf) (hdata : data.length = slotLen)
    (seq : ℕ) : ∃ slotBuf', Padded size slotLen slotBuf' ∧
      ((Cells.copy slotBuf 0 (HspiHdr.bytes ⟨bytes "HS", slotLen, seq⟩)).bind fun slotBuf =>
        Cells.copy slotBuf 4 data) = some slotBuf' ∧
      Cells.fetch slotBuf' 0 size = some (HspiHdr.bytes ⟨bytes "HS", slotLen, seq⟩ ++ data ++
        List.replicate (size - 4 - slotLen) 0) := by
  obtain ⟨h512, w, hw⟩ := hpad
  have hhdr := length_hdr_bytes slotLen seq
  generalize HspiHdr.bytes ⟨bytes "HS", slotLen, seq⟩ = hdr at hhdr ⊢
  have hhdr0 : Memory.memcpy slotBuf 0 hdr = hdr ++ slotBuf.drop 4 := by
    rw [Memory.memcpy, List.take_zero, List.nil_append, Nat.zero_add, hhdr]
  have hfill : Memory.memcpy (hdr ++ slotBuf.drop 4) 4 data =
      hdr ++ data ++ (List.replicate (size - 4 - slotLen) 0 ++ w) := by
    rw [Memory.memcpy_append hhdr, List.drop_drop, hdata, hw]
  have hlen512 : (hdr ++ slotBuf.drop 4).length = 512 := by
    rw [List.length_append, List.length_drop]
    omega
  have hcopy : 4 + data.length ≤ (hdr ++ slotBuf.drop 4).length := by omega
  have hfull : (hdr ++ data ++ (List.replicate (size - 4 - slotLen) 0 ++ w)).length = 512 := by
    rw [← hfill, Memory.length_memcpy hcopy, hlen512]
  refine ⟨_, ⟨hfull, w, ?_⟩, ?_, ?_⟩
  · exact List.drop_left' (by rw [List.length_append]; omega)
  · rw [Cells.copy_of_le (by omega), Option.bind_some, hhdr0, Cells.copy_of_le hcopy, hfill]
  · rw [Cells.fetch_of_le (by omega), Memory.read, List.drop_zero, ← List.append_assoc,
      List.take_left' (by simp only [List.length_append, List.length_replicate]; omega)]

/-- Each pass fills and sends the slot that holds what is next of the data. -/
theorem hspiWriteSlot_eq {size : ℕ} (h₀ : 4 ≤ size) (h₁ : size ≤ 512) (transfer : ℕ → Bool)
    {buf : Bytes} {L : ℕ} (hL : L ≤ buf.length) : ∀ (n i j slotLen : ℕ) (slotBuf : Bytes)
      (seq : ℕ), slotLen ≤ size - 4 → j ≤ L → Padded size slotLen slotBuf →
      hspiWriteSlot size transfer buf L n i j slotLen slotBuf seq =
        let w := NrcAtcmd.hspiWriteSlot size transfer n i ((buf.take L).drop j) slotLen seq
        some ⟨i + w.1.length, j + w.2.1, w.1, w.2.2⟩
  | 0, i, j, slotLen, slotBuf, seq, _, _, _ => rfl
  | n + 1, i, j, slotLen, slotBuf, seq, hlen, hj, hpad => by
    have hrest : ((buf.take L).drop j).length = L - j := by
      rw [List.length_drop, List.length_take, Nat.min_eq_left hL]
    obtain ⟨slotBuf₁, hpad₁, hif⟩ := hspiPad_spec h₁ hlen hj hpad
    have hdata : (Memory.read buf j (min (L - j) slotLen)).length = min (L - j) slotLen := by
      rw [Memory.read, List.length_take, List.length_drop]
      omega
    obtain ⟨slotBuf₂, hpad₂, hfill, hfetch⟩ := fill_spec h₀ h₁ (by omega) hpad₁ hdata seq
    have htake : Memory.read buf j (min (L - j) slotLen) =
        ((buf.take L).drop j).take (min (L - j) slotLen) := by
      rw [Memory.read, List.drop_take, List.take_take,
        Nat.min_eq_left (Nat.min_le_left _ _)]
    obtain ⟨slotBuf₃, hcopy, hfill⟩ := Option.bind_eq_some_iff.1 hfill
    unfold hspiWriteSlot NrcAtcmd.hspiWriteSlot
    simp only [Option.bind_eq_bind]
    rw [hif, Option.bind_some, hcopy, Option.bind_some, Cells.fetch_of_le (by omega),
      Option.bind_some, hfill, Option.bind_some, hfetch, Option.bind_some, hrest, ite_lt_eq_min,
      Nat.min_comm slotLen, htake]
    split_ifs
    · rw [hspiWriteSlot_eq h₀ h₁ transfer hL n (i + 1) (j + min (L - j) slotLen) _ slotBuf₂ _
        (by omega) (by omega) hpad₂, Option.bind_some, List.drop_drop]
      simp [Nat.add_assoc, Nat.add_comm 1]
    · rfl

theorem hspiWriteSlot_len_le (size : ℕ) (transfer : ℕ → Bool) : ∀ (n i : ℕ) (rest : Bytes)
    (slotLen seq : ℕ),
    (NrcAtcmd.hspiWriteSlot size transfer n i rest slotLen seq).2.1 ≤ rest.length
      ∧ (NrcAtcmd.hspiWriteSlot size transfer n i rest slotLen seq).1.length ≤ n
  | 0, _, _, _, _ => ⟨Nat.zero_le _, Nat.zero_le _⟩
  | n + 1, i, rest, slotLen, seq => by
    unfold NrcAtcmd.hspiWriteSlot
    rw [ite_lt_eq_min]
    split_ifs
    · have ih := hspiWriteSlot_len_le size transfer n (i + 1) (rest.drop (min slotLen rest.length))
        (min slotLen rest.length) (hspiSeqNext seq)
      rw [List.length_drop] at ih
      obtain ⟨hj, hn⟩ := ih
      refine ⟨?_, Nat.succ_le_succ hn⟩
      have hmin : min slotLen rest.length ≤ rest.length := Nat.min_le_right _ _
      exact (Nat.add_le_add_left hj _).trans (Nat.add_sub_cancel' hmin).le
    · exact ⟨Nat.zero_le _, Nat.zero_le _⟩

/-- The data of a write is inside the caller's buffer. -/
theorem hspiWriteCounted_spec {info : HspiInfo} (h₀ : 4 < info.slotSize)
    (h₁ : info.slotSize ≤ 512) {slotNum : ℕ} (transfer : ℕ → Bool) (stale : Slot) {buf : Bytes}
    (hle : info.slotCnt < slotNum → info.slotCnt * (info.slotSize - 4) ≤ buf.length) :
    ∃ info', hspiWriteCounted info slotNum transfer stale buf =
      let (n, len) := if slotNum ≤ info.slotCnt then (slotNum, buf.length)
        else (info.slotCnt, info.slotCnt * (info.slotSize - 4))
      let w := NrcAtcmd.hspiWriteSlot info.slotSize transfer n 0 (buf.take len)
        (info.slotSize - 4) info.seq
      some ((w.2.1 : ℤ), w.1, info') := by
  have hsub : (info.slotSize : ℤ) - 4 = ((info.slotSize - 4 : ℕ) : ℤ) := by omega
  have hpad : Padded info.slotSize (info.slotSize - 4) (slotBuf stale) := by
    refine ⟨by simp [slotBuf], (slotBuf stale).drop (4 + (info.slotSize - 4)), ?_⟩
    rw [Nat.sub_self, List.replicate_zero, List.nil_append]
  -- the loop, for a number of slots that are counted and as many bytes as the buffer has
  have hloop : ∀ {n L : ℕ}, n ≤ info.slotCnt → L ≤ buf.length → ∃ info',
      ((hspiWriteSlot info.slotSize transfer buf L n 0 0 (info.slotSize - 4) (slotBuf stale)
        info.seq).bind fun r =>
          if r.ret < n then some ((r.len : ℤ), r.slots, { info with slotCnt := 0, seq := r.seq })
          else (uint 8 ((info.slotCnt : ℤ) - n)).bind fun slotCnt =>
            some ((r.len : ℤ), r.slots, { info with slotCnt := slotCnt, seq := r.seq })) =
      let w := NrcAtcmd.hspiWriteSlot info.slotSize transfer n 0 (buf.take L)
        (info.slotSize - 4) info.seq
      some ((w.2.1 : ℤ), w.1, info') := by
    intro n L hn hL
    have hcast : (info.slotCnt : ℤ) - n = ((info.slotCnt - n : ℕ) : ℤ) := by omega
    rw [hspiWriteSlot_eq (by omega) h₁ transfer hL n 0 0 _ _ _ (Nat.le_refl _) (Nat.zero_le _) hpad,
      List.drop_zero]
    simp only [Option.bind_some, hcast, uint_natCast, Nat.zero_add]
    split_ifs
    · exact ⟨_, rfl⟩
    · exact ⟨_, rfl⟩
  unfold hspiWriteCounted
  simp only [Option.bind_eq_bind]
  rw [hsub, uint_natCast, Nat.mod_eq_of_lt (by omega), Option.bind_some]
  by_cases hcnt : slotNum ≤ info.slotCnt
  · rw [if_pos hcnt, if_pos hcnt]
    exact hloop hcnt (Nat.le_refl _)
  · rw [if_neg hcnt, if_neg hcnt]
    have := hloop (Nat.le_refl _) (hle (Nat.not_le.1 hcnt))
    rwa [Int.natCast_mul] at this

/-- For slots that hold data a write is the one of `Hspi.lean`, and no more than was asked for. -/
theorem hspiWrite_spec (info : HspiInfo) (h₀ : 4 < info.slotSize) (h₁ : info.slotSize ≤ 512)
    (new : Option HspiStatus) (transfer : ℕ → Bool) (stale : Slot) {buf : Bytes}
    (hlen : buf.length + (info.slotSize - 5) < 2 ^ 31) :
    ∃ info', hspiWrite info new transfer stale buf =
        some ((NrcAtcmd.hspiWrite info new transfer buf).1,
          (NrcAtcmd.hspiWrite info new transfer buf).2.1, info')
      ∧ (NrcAtcmd.hspiWrite info new transfer buf).1 ≤ buf.length := by
  have hsub : (info.slotSize : ℤ) - 4 = ((info.slotSize - 4 : ℕ) : ℤ) := by omega
  have hsum : (buf.length : ℤ) + (((info.slotSize - 4 : ℕ) : ℤ) - 1) =
      ((buf.length + (info.slotSize - 4 - 1) : ℕ) : ℤ) := by omega
  -- what follows the count, whatever the count is
  have htail : ∀ {info₁ : HspiInfo}, info₁.slotSize = info.slotSize → ∃ info',
      hspiWriteCounted info₁ ((buf.length + (info.slotSize - 4 - 1)) / (info.slotSize - 4) % 2 ^ 16)
          transfer stale buf =
        (let (n, len) :=
          if (buf.length + (info.slotSize - 4 - 1)) / (info.slotSize - 4) % 2 ^ 16 ≤ info₁.slotCnt
          then ((buf.length + (info.slotSize - 4 - 1)) / (info.slotSize - 4) % 2 ^ 16, buf.length)
          else (info₁.slotCnt, info₁.slotCnt * (info₁.slotSize - 4))
        let w := NrcAtcmd.hspiWriteSlot info₁.slotSize transfer n 0 (buf.take len)
          (info₁.slotSize - 4) info₁.seq
        some ((w.2.1 : ℤ), w.1, info')) := by
    intro info₁ hsize
    refine hspiWriteCounted_spec (by omega) (by omega) transfer stale fun hcnt => ?_
    have hmul := Nat.mul_le_mul_right (info.slotSize - 4)
      ((Nat.succ_le_of_lt hcnt).trans (Nat.mod_le _ _))
    have hdiv := Nat.div_mul_le_self (buf.length + (info.slotSize - 4 - 1)) (info.slotSize - 4)
    rw [Nat.succ_mul] at hmul
    rw [hsize]
    omega
  unfold hspiWrite NrcAtcmd.hspiWrite
  simp only [Option.bind_eq_bind]
  rw [hsub, hsum, int32_of_mem (by omega) (by omega), Option.bind_some,
    div_natCast _ (by omega), Option.bind_some, uint_natCast, Option.bind_some]
  generalize (buf.length + (info.slotSize - 4 - 1)) / (info.slotSize - 4) % 2 ^ 16 = slotNum
    at htail ⊢
  by_cases hact : buf.length = 0 ∨ !info.active
  · rw [if_pos hact, if_pos hact]
    exact ⟨_, rfl, by simp only; omega⟩
  rw [if_neg hact, if_neg hact]
  obtain ⟨err, info₁, hstatus, hsize⟩ : ∃ err info₁,
      (if info.slotCnt < slotNum then hspiStatusUpdate info new else (0, info)) = (err, info₁)
        ∧ info₁.slotSize = info.slotSize := by
    split_ifs
    · exact ⟨_, _, rfl, hspiStatusUpdate_slotSize info new⟩
    · exact ⟨_, _, rfl, rfl⟩
  rw [hstatus]
  by_cases herr : err ≠ 0
  · simp only [if_pos herr]
    exact ⟨_, rfl, by omega⟩
  simp only [if_neg herr]
  obtain ⟨info', htail⟩ := htail hsize
  refine ⟨info', htail, ?_⟩
  have hle := fun n len => (hspiWriteSlot_len_le info₁.slotSize transfer n 0 (buf.take len)
    (info₁.slotSize - 4) info₁.seq).1
  split_ifs
  · exact Int.ofNat_le.2 ((hle _ _).trans (List.length_take_le' _ _))
  · exact Int.ofNat_le.2 ((hle _ _).trans (List.length_take_le' _ _))

theorem hspiWriteCounted_of_lt (info : HspiInfo) (h : info.slotSize < 4) (slotNum : ℕ)
    (transfer : ℕ → Bool) (stale : Slot) (buf : Bytes) :
    hspiWriteCounted info slotNum transfer stale buf = none := by
  have hneg : uint 10 ((info.slotSize : ℤ) - 4) = none := uint_of_neg (by omega)
  unfold hspiWriteCounted
  simp only [hneg, Option.bind_eq_bind, Option.bind_none]

/-- A write of slots that hold no data comes to an end only before it fills one: for a single byte,
with no slot counted and no status. -/
theorem hspiWrite_of_le (info : HspiInfo) (h₀ : 0 < info.slotSize) (h₁ : info.slotSize ≤ 4)
    (hact : info.active = true) (new : Option HspiStatus) (transfer : ℕ → Bool) (stale : Slot)
    {buf : Bytes} (hbuf : 0 < buf.length) (hlen : buf.length < 2 ^ 31) :
    hspiWrite info new transfer stale buf =
      if info.slotSize < 4 ∧ buf.length = 1 ∧ info.slotCnt = 0 ∧ new = none then
        some (-1, [], info) else none := by
  have hearly : ¬ (buf.length = 0 ∨ (!info.active) = true) := by
    rw [hact]
    simpa using Nat.ne_of_gt hbuf
  unfold hspiWrite
  rw [if_neg hearly]
  simp only [Option.bind_eq_bind]
  rw [int32_of_mem (by omega) (by omega), Option.bind_some]
  rcases Nat.eq_or_lt_of_le h₁ with h4 | h4
  · rw [if_neg (by omega), h4]
    rfl
  obtain ⟨d, hd, hd0⟩ : ∃ d : ℕ, (info.slotSize : ℤ) - 4 = -d ∧ d ≠ 0 :=
    ⟨4 - info.slotSize, by omega, by omega⟩
  have hcounted := fun info₁ (hsize : info₁.slotSize = info.slotSize) slotNum =>
    hspiWriteCounted_of_lt info₁ (hsize.trans_lt h4) slotNum transfer stale buf
  -- the quotient is 1 for a single byte, and else 0 or negative
  by_cases h1 : buf.length = 1
  · have hsum : (buf.length : ℤ) + (-d - 1) = -d := by omega
    rw [hd, hsum, div_neg_neg_natCast d hd0, Option.bind_some, uint_natCast, Option.bind_some,
      Nat.div_self (by omega)]
    by_cases hcnt : info.slotCnt = 0
    · have hlt : info.slotCnt < 1 % 2 ^ 16 := by omega
      rw [if_pos hlt]
      by_cases hnew : new = none
      · have hend : info.slotSize < 4 ∧ buf.length = 1 ∧ info.slotCnt = 0 ∧ new = none :=
          ⟨h4, h1, hcnt, hnew⟩
        rw [if_pos hend, hnew]
        rfl
      · have herr : ¬ (hspiStatusUpdate info new).1 ≠ 0 :=
          fun h => hnew ((hspiStatusUpdate_err info new).1 h)
        have hend : ¬ (info.slotSize < 4 ∧ buf.length = 1 ∧ info.slotCnt = 0 ∧ new = none) :=
          fun h => hnew h.2.2.2
        rw [if_neg herr, if_neg hend, hcounted _ (hspiStatusUpdate_slotSize info new)]
    · have hlt : ¬ info.slotCnt < 1 % 2 ^ 16 := by omega
      have hend : ¬ (info.slotSize < 4 ∧ buf.length = 1 ∧ info.slotCnt = 0 ∧ new = none) :=
        fun h => hcnt h.2.2.1
      rw [if_neg hlt, if_neg hend]
      exact hcounted _ rfl _
  · have hquot : ∃ q : ℕ, div ((buf.length : ℤ) + (-d - 1)) (-d) = some (-(q : ℤ)) := by
      by_cases hpos : d + 1 ≤ buf.length
      · have hsum : (buf.length : ℤ) + (-d - 1) = ((buf.length - d - 1 : ℕ) : ℤ) := by omega
        exact ⟨_, hsum ▸ div_neg_natCast _ hd0⟩
      · have hsum : (buf.length : ℤ) + (-d - 1) = -((d + 1 - buf.length : ℕ) : ℤ) := by omega
        refine ⟨0, ?_⟩
        rw [hsum, div_neg_neg_natCast _ hd0, Nat.div_eq_of_lt (by omega)]
        rfl
    obtain ⟨q, hq⟩ := hquot
    have hend : ¬ (info.slotSize < 4 ∧ buf.length = 1 ∧ info.slotCnt = 0 ∧ new = none) :=
      fun h => h1 h.2.1
    rw [hd, hq, Option.bind_some, uint_neg_natCast, if_neg hend]
    by_cases hq0 : q = 0
    · rw [if_pos hq0, Option.bind_some, if_neg (Nat.not_lt_zero _)]
      simp only [hcounted info rfl, ne_eq, not_true_eq_false, if_false]
    · rw [if_neg hq0, Option.bind_none]

/-- `hspi_read` is defined, and inside of the caller's buffer. -/
def ReadSafe (info : HspiInfo) (new : Option HspiStatus) (transfer : ℕ → Option Slot)
    (stale : Slot) (buf : Bytes) : Prop :=
  ∃ r, hspiRead info new transfer stale buf = some r ∧ r.ret ≤ buf.length
    ∧ r.buf.length = buf.length

/-- `hspi_write` is defined, and inside of the caller's buffer. -/
def WriteSafe (info : HspiInfo) (new : Option HspiStatus) (transfer : ℕ → Bool) (stale : Slot)
    (buf : Bytes) : Prop :=
  ∃ r, hspiWrite info new transfer stale buf = some r ∧ r.1 ≤ buf.length

theorem readSafe_iff {slot : ℕ × ℕ} (hpos : 0 < slot.2) (hle : slot.2 ≤ 512) (slotCnt seq : ℕ)
    (new : Option HspiStatus) (transfer : ℕ → Option Slot) (stale : Slot) (buf : Bytes) :
    ReadSafe (infoOf slot slotCnt seq) new transfer stale buf ↔
      buf = [] ∨ 4 < slot.2 ∨ buf.length + slot.2 < 4 := by
  rw [← List.length_eq_zero_iff]
  by_cases h4 : 4 < slot.2
  · refine iff_of_true ?_ (.inr (.inl h4))
    obtain ⟨r, hr, ⟨-, hbuf, hret, -⟩ | ⟨t, -, hreads, -, hbuf, hret⟩⟩ := hspiRead_spec
      (infoOf slot slotCnt seq) h4 hle new transfer stale buf
    · exact ⟨r, hr, by omega, by rw [hbuf]⟩
    · have := hreads.len_le
      refine ⟨r, hr, ?_, by rw [hbuf, hreads.length]⟩
      rw [hret]
      split_ifs <;> omega
  · have hread := hspiRead_of_le (infoOf slot slotCnt seq) hpos (Nat.not_lt.1 h4) new
      transfer stale buf
    by_cases h0 : buf.length = 0
    · rw [if_pos (.inl h0)] at hread
      exact iff_of_true ⟨_, hread, by simp only; omega, rfl⟩ (.inl h0)
    rw [if_neg (by simpa [infoOf] using h0)] at hread
    by_cases hlt : buf.length + slot.2 < 4
    · rw [infoOf, if_pos hlt] at hread
      exact iff_of_true ⟨_, hread, by simp only; omega, rfl⟩ (.inr (.inr hlt))
    · rw [infoOf, if_neg hlt] at hread
      refine iff_of_false ?_ (by omega)
      rintro ⟨r, hr, -⟩
      rw [infoOf, hread] at hr
      cases hr

theorem writeSafe_iff {slot : ℕ × ℕ} (hpos : 0 < slot.2) (hle : slot.2 ≤ 512) (slotCnt seq : ℕ)
    (new : Option HspiStatus) (transfer : ℕ → Bool) (stale : Slot) {buf : Bytes}
    (hlen : buf.length < 2 ^ 31) :
    WriteSafe (infoOf slot slotCnt seq) new transfer stale buf ↔
      buf = [] ∨ (4 < slot.2 ∧ buf.length + (slot.2 - 5) < 2 ^ 31)
        ∨ (slot.2 < 4 ∧ buf.length = 1 ∧ slotCnt = 0 ∧ new = none) := by
  rw [← List.length_eq_zero_iff]
  by_cases h0 : buf.length = 0
  · refine iff_of_true ⟨(-1, [], infoOf slot slotCnt seq), ?_, by simp only; omega⟩ (.inl h0)
    rw [hspiWrite, if_pos (.inl h0)]
  by_cases h4 : 4 < slot.2
  · by_cases hsum : buf.length + (slot.2 - 5) < 2 ^ 31
    · refine iff_of_true ?_ (.inr (.inl ⟨h4, hsum⟩))
      obtain ⟨info', hw, hret⟩ := hspiWrite_spec (infoOf slot slotCnt seq) h4 hle new
        transfer stale hsum
      exact ⟨_, hw, hret⟩
    · refine iff_of_false ?_ (by omega)
      have hnone : int32 (buf.length + ((slot.2 : ℤ) - 4 - 1)) = none := if_neg (by omega)
      rintro ⟨r, hr, -⟩
      rw [hspiWrite, if_neg (by simpa [infoOf] using h0)] at hr
      simp only [infoOf, hnone, Option.bind_eq_bind, Option.bind_none] at hr
      cases hr
  · have hwrite := hspiWrite_of_le (infoOf slot slotCnt seq) hpos (Nat.not_lt.1 h4) rfl new
      transfer stale (Nat.pos_of_ne_zero h0) hlen
    by_cases h : slot.2 < 4 ∧ buf.length = 1 ∧ slotCnt = 0 ∧ new = none
    · rw [infoOf, if_pos h] at hwrite
      exact iff_of_true ⟨_, hwrite, by simp only; omega⟩ (.inr (.inr h))
    · rw [infoOf, if_neg h] at hwrite
      refine iff_of_false ?_ (fun hiff => hiff.elim h0 fun hiff => hiff.elim (fun h' => h4 h'.1) h)
      rintro ⟨r, hr, -⟩
      rw [infoOf, hwrite] at hr
      cases hr

/-- With a geometry that is accepted both calls are safe exactly if there is nothing to copy, or the
slots of both queues hold data and the length can be rounded up; or else if the call returns before
it uses its quotient. -/
theorem hspi_geometry_safe_iff {reads : ℕ → Option HspiMsg} {txq rxq : ℕ × ℕ}
    (hready : hspiReady true reads = some (txq, rxq)) (cnt cnt' seq seq' : ℕ)
    (new new' : Option HspiStatus) (transfer : ℕ → Option Slot) (sends : ℕ → Bool)
    (stale stale' : Slot) {buf : Bytes} (hlen : buf.length < 2 ^ 31) :
    ReadSafe (infoOf txq cnt seq) new transfer stale buf
        ∧ WriteSafe (infoOf rxq cnt' seq') new' sends stale' buf ↔
      buf = [] ∨ ((4 < txq.2 ∨ buf.length + txq.2 < 4) ∧
        ((4 < rxq.2 ∧ buf.length + (rxq.2 - 5) < 2 ^ 31)
          ∨ (rxq.2 < 4 ∧ buf.length = 1 ∧ cnt' = 0 ∧ new' = none))) := by
  obtain ⟨⟨-, hpos, hle⟩, -, hpos', hle'⟩ := hspiReady_spec hready
  rw [readSafe_iff hpos hle, writeSafe_iff hpos' hle' _ _ _ _ _ hlen]
  exact or_and_left.symm

theorem hspi_geometry_safe_iff_full :
    ReadSafe (infoOf (32, 512) 1 0) none (fun _ => none) (fun _ => 0) [65]
      ∧ WriteSafe (infoOf (32, 512) 1 0) none (fun _ => true) (fun _ => 0) [65] :=
  (hspi_geometry_safe_iff hspiReady_msg 1 1 0 0 none none (fun _ => none) (fun _ => true)
    (fun _ => 0) (fun _ => 0) (by decide)).2
    (.inr ⟨.inl (by decide), .inl ⟨by decide, by decide⟩⟩)

/-- Slots of no more than a header are accepted, and a read divides by zero. -/
theorem hspi_geometry_div_zero :
    hspiReady true (fun _ => some { hspiMsg with txq := 0x00200004 }) = some ((32, 4), (32, 512))
      ∧ ¬ ReadSafe (infoOf (32, 4) 1 0) none (fun _ => none) (fun _ => 0) [65] := by
  refine ⟨by decide +kernel, ?_⟩
  rintro ⟨r, hr, -⟩
  cases hr

end HspiHost

end NrcAtcmd
