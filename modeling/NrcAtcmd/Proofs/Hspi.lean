import Mathlib.Data.List.Forall2
import NrcAtcmd.Hspi
import NrcAtcmd.Proofs.HifFifo

/-!
# Slots and their addresses

A slot carries data when its header counts it and it follows the header (`Carries`). Slots never
cross the end of the ring, because its size and its indices are whole slots, so an address that the
device is given is that of a slot the pop index sees (`pushAddr_eq`).
-/

namespace NrcAtcmd

/-! ## Slots -/

def Carries (slot data : Bytes) : Prop :=
  slot.length = 512 ∧ data.length ≤ 508 ∧
    ∃ seq pad, slot = (HspiHdr.mk (bytes "HS") data.length seq).bytes ++ data ++ pad

theorem length_hdr (len seq : ℕ) : (HspiHdr.mk (bytes "HS") len seq).bytes.length = 4 := rfl

theorem hspiHdrOf_bytes {len : ℕ} (seq : ℕ) (rest : Bytes) (h : len < 2 ^ 10) :
    hspiHdrOf ((HspiHdr.mk (bytes "HS") len seq).bytes ++ rest) =
      ⟨bytes "HS", len, seq % 2 ^ 6⟩ := by
  have hb : bytes "HS" = [0x48, 0x53] := by decide
  simp only [HspiHdr.bytes, hb, List.cons_append, List.nil_append, hspiHdrOf, HspiHdr.mk.injEq,
    UInt8.toNat_ofNat', true_and]
  omega

namespace Carries

variable {slot data : Bytes}

theorem hdr (h : Carries slot data) {n : ℕ} (hn : 4 ≤ n) :
    ∃ seq, hspiHdrOf (slot.take n) = ⟨bytes "HS", data.length, seq⟩ := by
  obtain ⟨_, hd, seq, pad, rfl⟩ := h
  refine ⟨seq % 2 ^ 6, ?_⟩
  rw [List.append_assoc, List.take_append, List.take_of_length_le (by rw [length_hdr]; exact hn),
    hspiHdrOf_bytes _ _ (by omega)]

theorem data_eq (h : Carries slot data) : (slot.drop 4).take data.length = data := by
  obtain ⟨_, _, seq, pad, rfl⟩ := h
  rw [List.append_assoc, ← length_hdr data.length seq, List.drop_left, List.take_left]

end Carries

theorem length_of_carries {slots data : List Bytes} (h : List.Forall₂ Carries slots data) :
    ∀ b ∈ slots, b.length = 512 := by
  induction h with
  | nil => simp
  | cons hc _ ih =>
    intro b hb
    rcases List.mem_cons.1 hb with rfl | hb
    · exact hc.1
    · exact ih b hb

/-! ## Addresses -/

namespace HifFifo

variable {f : HifFifo}

/-- The address of the slot that is `m` slots past the pop index. -/
def slotAddr (f : HifFifo) (m : ℕ) : ℕ := (f.popIdx + 512 * m) % f.size

/-- The FIFO of `num` slots, read and written in whole slots. -/
structure Slotted (f : HifFifo) (num : ℕ) : Prop where
  wf : f.Wf
  size : f.size = 512 * num
  pop : 512 ∣ f.popIdx

variable {num : ℕ}

theorem Slotted.pos (h : f.Slotted num) : 0 < num := by
  have := h.wf.pos
  have := h.size
  omega

theorem Slotted.slotAddr (h : f.Slotted num) (m : ℕ) :
    f.slotAddr m % 512 = 0 ∧ f.slotAddr m + 512 ≤ f.size := by
  obtain ⟨a, ha⟩ := h.pop
  have hm : f.slotAddr m = 512 * ((a + m) % num) := by
    rw [HifFifo.slotAddr, ha, h.size, ← Nat.mul_add, Nat.mul_mod_mul_left]
  have := Nat.mod_lt (a + m) h.pos
  rw [hm, h.size]
  omega

theorem slotAddr_popped (h : f.Slotted num) (k m : ℕ) :
    (f.popped (512 * k)).slotAddr m = f.slotAddr (k + m) := by
  simp only [HifFifo.slotAddr, HifFifo.popped]
  rw [Nat.add_mod, Nat.mod_mod_of_dvd _ h.wf.dvd, ← Nat.add_mod]
  congr 1
  omega

theorem Slotted.popped (h : f.Slotted num) {k : ℕ} (hk : 512 * k ≤ f.cnt) :
    (f.popped (512 * k)).Slotted num where
  wf := h.wf.popped hk
  size := h.size
  pop := by
    have := h.pop
    simp only [HifFifo.popped]
    omega

theorem Slotted.pushed (h : f.Slotted num) {b : Bytes} {k : ℕ} (hb : b.length = f.size)
    (hk : f.cnt + k ≤ f.size) : (f.pushed b k).Slotted num :=
  ⟨h.wf.pushed hb hk, h.size, h.pop⟩

theorem Slotted.push (h : f.Slotted num) (hc : 512 ∣ f.cnt) : 512 ∣ f.pushIdx := by
  have hs : 512 ∣ f.size := ⟨num, h.size⟩
  have hp : f.pushIdx % 512 = (f.popIdx + f.cnt) % 512 := by
    rw [← Nat.mod_mod_of_dvd f.pushIdx hs, h.wf.push, Nat.mod_mod_of_dvd _ hs]
  have := h.pop
  omega

/-- The push address `offset` bytes away is that of a slot the pop index sees. -/
theorem pushAddr_eq (h : f.Slotted num) {offset : ℤ} {m : ℕ} (hm : f.cnt + offset = 512 * m) :
    hifFifoPushAddr_ f offset = f.slotAddr m := by
  have hd : (f.size : ℤ) ∣ 2 ^ 32 := by exact_mod_cast h.wf.dvd
  have hp : (f.pushIdx : ℤ) % f.size = (f.popIdx + f.cnt : ℤ) % f.size := by
    exact_mod_cast h.wf.push
  have he : (f.pushIdx + offset) % 2 ^ 32 % f.size = ((f.slotAddr m : ℕ) : ℤ) := by
    rw [Int.emod_emod_of_dvd _ hd, Int.add_emod, hp, ← Int.add_emod, Int.add_assoc, hm]
    simp [HifFifo.slotAddr]
  rw [hifFifoPushAddr_, he]
  rfl

end HifFifo

theorem foldl_queueUpdate {g : ℕ → ℕ} (queue : List ℕ) : ∀ {n : ℕ}, (∀ i < n, g i % 512 = 0) →
    (List.range n).foldl (fun queue i => hifHspiQueueUpdate_ queue (g i)) queue =
      queue ++ (List.range n).map g
  | 0, _ => by simp
  | n + 1, h => by
    have hg := h n (by omega)
    rw [List.range_succ, List.foldl_append, foldl_queueUpdate queue fun i hi => h i (by omega),
      List.map_append, ← List.append_assoc]
    simp only [List.foldl_cons, List.foldl_nil, hifHspiQueueUpdate_, List.map_cons, List.map_nil]
    rw [if_neg (by omega)]

/-! ## The start and the status -/

theorem HspiSlots.slotted (slots : HspiSlots) :
    (hifFifoCreate_ slots.mem).Slotted slots.num := by
  have h := slots.length
  have := slots.lt
  have := slots.pos
  exact ⟨HifFifo.Wf.create (by omega) (by omega) (h ▸ slots.dvd), h, 0, rfl⟩

/-- Memory for two slots. -/
def twoSlots : HspiSlots where
  num := 2
  mem := List.replicate 1024 0
  pos := by decide
  length := List.length_replicate.trans (by decide)
  lt := by decide
  dvd := by decide

theorem hspiStatusUpdate_le {info : HspiInfo} {new : Option HspiStatus} {n : ℕ}
    (hi : info.slotCnt ≤ n) (hn : slotCntOf new ≤ n) :
    (hspiStatusUpdate info new).2.slotCnt ≤ n ∧
      (hspiStatusUpdate info new).2.slotSize = info.slotSize := by
  rcases new with _ | new
  · exact ⟨hi, rfl⟩
  · simp only [hspiStatusUpdate]
    split_ifs
    · exact ⟨hn, rfl⟩
    · exact ⟨hi, rfl⟩

/-- A call that wants more slots than it knows of asks the registers again. -/
theorem hspiRefresh_le {info : HspiInfo} {new : Option HspiStatus} {n : ℕ}
    (hs : info.slotSize = 512) (hi : info.slotCnt ≤ n) (hn : slotCntOf new ≤ n) (want : ℕ) :
    ∃ err info', (if info.slotCnt < want then hspiStatusUpdate info new else (0, info)) =
      (err, info') ∧ info'.slotCnt ≤ n ∧ info'.slotSize = 512 := by
  split_ifs
  · obtain ⟨hc, hz⟩ := hspiStatusUpdate_le hi hn
    exact ⟨_, _, rfl, hc, hz.trans hs⟩
  · exact ⟨_, _, rfl, hi, hs⟩

end NrcAtcmd
