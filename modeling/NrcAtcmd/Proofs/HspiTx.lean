import NrcAtcmd.Lib.Blocks
import NrcAtcmd.Proofs.Hspi

/-!
# What the target sends over HSPI

The ring of the TX FIFO, from the pop index on, has the slots that were transferred and are still
counted, then the ones the device has yet to send (`HspiQueue.Tx`). A write first drops the slots it
sees transferred and then adds as many whole slots as are free, so no write to the FIFO is cut short;
a transfer takes the first slot of the queue. So the bytes the target accepted are at every moment
those the host returned and then those the queued slots carry. A write is also the row of its calls of
`_hif_fifo_write`, which add up to its slots (`hifHspiWriteSlots_writes`, `sum_slotWrites`).
-/

namespace NrcAtcmd

open Machine
open Ring (take_drop_rotate)

/-! ## The target writes -/

theorem hifHspiWriteLoop_nil (fuel i len : ℕ) (q : HspiQueue) :
    hifHspiWriteLoop_ fuel q [] i len = (i, len, q) := by
  rcases fuel with _ | fuel <;> simp [hifHspiWriteLoop_]

/-- The loop writes one slot for each 508 bytes begun, all but the padding of the last. -/
theorem hifHspiWriteLoop_eq : ∀ (fuel : ℕ) (rest : Bytes) {i m : ℕ} {q : HspiQueue}, q.fifo.Wf →
    rest.length ≤ fuel → rest.length ≤ 508 * m → 508 * m < rest.length + 508 →
    q.fifo.cnt + 512 * m ≤ q.fifo.size →
    ∃ len w fifo seq, hifHspiWriteLoop_ fuel q rest i 508 =
        (i + rest.length, len, { q with fifo := fifo, seq := seq }) ∧
      len ≤ 508 ∧ q.fifo.Grown fifo w ∧ w.length + (508 - len) = 512 * m ∧
      ∀ pad : Bytes, pad.length = 508 - len → ∃ slots ds, List.Forall₂ Carries slots ds ∧
        slots.length = m ∧ slots.flatten = w ++ pad ∧ ds.flatten = rest
  | 0, rest, i, m, q, hw, hf, hm, hm', hsz => by
    obtain rfl : rest = [] := List.length_eq_zero_iff.1 (by omega)
    obtain rfl : m = 0 := by simp at hm'; omega
    refine ⟨508, [], q.fifo, q.seq, rfl, le_rfl, .refl hw, rfl, fun pad hp => ?_⟩
    exact ⟨[], [], .nil, rfl, by simpa using (List.length_eq_zero_iff.1 hp).symm, rfl⟩
  | fuel + 1, rest, i, m, q, hw, hf, hm, hm', hsz => by
    by_cases h0 : rest.length = 0
    · obtain rfl : rest = [] := List.length_eq_zero_iff.1 h0
      obtain rfl : m = 0 := by simp at hm'; omega
      refine ⟨508, [], q.fifo, q.seq, hifHspiWriteLoop_nil _ _ _ _, le_rfl, .refl hw, rfl,
        fun pad hp => ?_⟩
      exact ⟨[], [], .nil, rfl, by simpa using (List.length_eq_zero_iff.1 hp).symm, rfl⟩
    obtain ⟨m, rfl⟩ : ∃ n, m = n + 1 := ⟨m - 1, by omega⟩
    set n := if rest.length < 508 then rest.length else 508 with hn
    have hnr : n ≤ rest.length ∧ n ≤ 508 := by
      rw [hn]
      split_ifs <;> omega
    have hlt : (rest.take n).length = n := by rw [List.length_take]; omega
    set hdr : HspiHdr := ⟨bytes "HS", n, q.seq⟩ with hhdr
    have hlh : hdr.bytes.length = 4 := rfl
    obtain ⟨f₁, he₁, hg₁⟩ := HifFifo.write_grown hw hdr.bytes (by omega)
    obtain ⟨f₂, he₂, hg₂⟩ := HifFifo.write_grown hg₁.wf (rest.take n)
      (by rw [hg₁.cnt, hg₁.size]; omega)
    have hg := hg₁.trans hg₂
    have hgl : (hdr.bytes ++ rest.take n).length = 4 + n := by rw [List.length_append, hlh, hlt]
    rw [hlh] at he₁
    rw [hlt] at he₂
    have hslot : ∀ pad : Bytes, pad.length = 508 - n →
        Carries (hdr.bytes ++ rest.take n ++ pad) (rest.take n) := by
      intro pad hp
      refine ⟨by rw [List.length_append, hgl, hp]; omega, by omega, q.seq, pad, ?_⟩
      rw [hlt]
    unfold hifHspiWriteLoop_
    simp only [if_neg h0, ← hn, ← hhdr, he₁, he₂]
    by_cases hlast : rest.length < 508
    · have hnl : n = rest.length := by rw [hn, if_pos hlast]
      obtain rfl : m = 0 := by omega
      rw [hnl, List.drop_length, hifHspiWriteLoop_nil]
      rw [hnl, List.take_length] at hg hgl hslot
      refine ⟨rest.length, hdr.bytes ++ rest, f₂, _, rfl, hlast.le, hg, by omega, fun pad hp => ?_⟩
      exact ⟨[_], [rest], .cons (hslot pad hp) .nil, rfl, by simp, by simp⟩
    · have hnl : n = 508 := by rw [hn, if_neg hlast]
      rw [hnl] at hg hgl hslot hlt ⊢
      have hgc := hg.cnt
      have hgs := hg.size
      obtain ⟨len, w, f₃, seq, he, hlen, hg₃, hwl, hpad⟩ := hifHspiWriteLoop_eq fuel
        (rest.drop 508) (i := i + 508) (m := m)
        (q := { q with fifo := f₂, seq := hspiSeqNext q.seq }) hg.wf (by rw [List.length_drop]; omega)
        (by rw [List.length_drop]; omega) (by rw [List.length_drop]; omega)
        (by simp only; omega)
      refine ⟨len, _, f₃, seq, ?_, hlen, hg.trans hg₃, ?_, fun pad hp => ?_⟩
      · rw [he, List.length_drop]
        simp only [Prod.mk.injEq, and_true]
        omega
      · rw [List.length_append, hgl]
        omega
      · obtain ⟨slots, ds, hc, hsl, hfl, hds⟩ := hpad pad hp
        refine ⟨_ :: slots, rest.take 508 :: ds, .cons (hslot [] rfl) hc, by simp [hsl], ?_, ?_⟩
        · simp only [List.flatten_cons, hfl, List.append_nil, List.append_assoc]
        · rw [List.flatten_cons, hds, List.take_append_drop]

/-- A write frames its data in whole slots. -/
theorem hifHspiWriteSlots_eq {q : HspiQueue} (buf : Bytes) {m : ℕ} (hw : q.fifo.Wf)
    (hm : buf.length ≤ 508 * m) (hm' : 508 * m < buf.length + 508)
    (hsz : q.fifo.cnt + 512 * m ≤ q.fifo.size) :
    ∃ fifo seq slots ds, hifHspiWriteSlots_ q buf =
        (buf.length, { q with fifo := fifo, seq := seq }) ∧
      q.fifo.Grown fifo slots.flatten ∧ List.Forall₂ Carries slots ds ∧ slots.length = m ∧
      ds.flatten = buf := by
  obtain ⟨len, w, fifo, seq, he, hl, hg, hwl, hpad⟩ :=
    hifHspiWriteLoop_eq buf.length buf (i := 0) hw le_rfl hm hm' hsz
  unfold hifHspiWriteSlots_
  simp only [he, Nat.zero_add]
  by_cases hlen : len < 508
  · obtain ⟨f', pad, he', hpl, hg'⟩ := HifFifo.skip_grown hg.wf (508 - len)
      (by rw [hg.cnt, hg.size]; omega)
    obtain ⟨slots, ds, hc, hsl, hfl, hds⟩ := hpad pad hpl
    refine ⟨f', seq, slots, ds, ?_, ?_, hc, hsl, hds⟩
    · rw [if_pos hlen, he']
    · rw [hfl]
      exact hg.trans hg'
  · obtain ⟨slots, ds, hc, hsl, hfl, hds⟩ := hpad [] (by simp; omega)
    refine ⟨fifo, seq, slots, ds, by rw [if_neg hlen], ?_, hc, hsl, hds⟩
    rw [hfl, List.append_nil]
    exact hg

theorem hifHspiSlotWrites_nil (fuel seq len : ℕ) :
    hifHspiSlotWrites fuel seq [] len = if len < 508 then [(none, 508 - len)] else [] := by
  rcases fuel with _ | fuel <;> simp [hifHspiSlotWrites]

/-- The writes to the FIFO add up to whole slots. -/
theorem sum_slotWrites : ∀ (fuel : ℕ) {seq m : ℕ} {rest : Bytes}, rest.length ≤ fuel →
    rest.length ≤ 508 * m → 508 * m < rest.length + 508 →
    ((hifHspiSlotWrites fuel seq rest 508).map Prod.snd).sum = 512 * m
  | 0, seq, m, rest, hf, hm, hm' => by
    obtain rfl : m = 0 := by omega
    rfl
  | fuel + 1, seq, m, rest, hf, hm, hm' => by
    by_cases h0 : rest.length = 0
    · obtain rfl : m = 0 := by omega
      rw [List.length_eq_zero_iff.1 h0, hifHspiSlotWrites_nil]
      rfl
    obtain ⟨m, rfl⟩ : ∃ n, m = n + 1 := ⟨m - 1, by omega⟩
    unfold hifHspiSlotWrites
    by_cases hlast : rest.length < 508
    · obtain rfl : m = 0 := by omega
      simp only [if_neg h0, if_pos hlast, List.drop_length, hifHspiSlotWrites_nil, List.map_cons,
        List.map_nil, List.sum_cons, List.sum_nil]
      omega
    · simp only [if_neg h0, if_neg hlast, List.map_cons, List.sum_cons]
      rw [sum_slotWrites fuel (m := m) (by rw [List.length_drop]; omega)
        (by rw [List.length_drop]; omega) (by rw [List.length_drop]; omega)]
      omega

/-- The loop and the padding behind it make these writes and no others. -/
theorem hifHspiWriteLoop_writes : ∀ (fuel : ℕ) (q : HspiQueue) (rest : Bytes) (i len : ℕ),
    ∃ i' len' q', hifHspiWriteLoop_ fuel q rest i len = (i', len', q') ∧
      (hifHspiSlotWrites fuel q.seq rest len).foldl HifFifo.put q.fifo =
        if len' < 508 then (hifFifoWrite_ q'.fifo none (508 - len')).2 else q'.fifo
  | 0, q, rest, i, len => by
    refine ⟨i, len, q, rfl, ?_⟩
    rw [hifHspiSlotWrites]
    by_cases hl : len < 508 <;> simp only [hl, if_true, if_false] <;> rfl
  | fuel + 1, q, rest, i, len => by
    unfold hifHspiSlotWrites hifHspiWriteLoop_
    by_cases h0 : rest.length = 0
    · refine ⟨i, len, q, by rw [if_pos h0], ?_⟩
      rw [if_pos h0]
      by_cases hl : len < 508 <;> simp only [hl, if_true, if_false] <;> rfl
    · set n := if rest.length < 508 then rest.length else len
      set hdr : HspiHdr := ⟨bytes "HS", n, q.seq⟩
      obtain ⟨i', len', q', he, hw⟩ := hifHspiWriteLoop_writes fuel
        { q with
          fifo := (q.fifo.put (some hdr.bytes, 4)).put (some (rest.take n), n)
          seq := hspiSeqNext q.seq }
        (rest.drop n) (i + n) n
      exact ⟨i', len', q', by rw [if_neg h0]; exact he, by rw [if_neg h0]; exact hw⟩

theorem hifHspiWriteSlots_writes (q : HspiQueue) (buf : Bytes) :
    (hifHspiWriteSlots_ q buf).2.fifo =
      (hifHspiSlotWrites buf.length q.seq buf 508).foldl HifFifo.put q.fifo := by
  obtain ⟨i, len, q', he, hw⟩ := hifHspiWriteLoop_writes buf.length q buf 0 508
  rw [hw, hifHspiWriteSlots_, he]
  by_cases hl : len < 508 <;> simp only [hl, if_true, if_false]

/-! ## The queue -/

/-- The TX side: behind `done` slots that were transferred and are still counted, the ring has the
blocks, and the device their addresses. -/
structure HspiQueue.Tx (q : HspiQueue) (num done : ℕ) (blocks data : List Bytes) : Prop where
  slotted : q.fifo.Slotted num
  carries : List.Forall₂ Carries blocks data
  total : q.total = done + blocks.length
  cnt : q.fifo.cnt = 512 * (done + blocks.length)
  room : q.total ≤ min num 63
  contents : q.fifo.contents.drop (512 * done) = blocks.flatten
  queue : q.queue = (List.range' done blocks.length).map q.fifo.slotAddr

namespace HspiQueue.Tx

variable {q : HspiQueue} {num done : ℕ} {blocks data : List Bytes}

theorem start (slots : HspiSlots) : slots.open.Tx slots.num 0 [] [] where
  slotted := slots.slotted
  carries := .nil
  total := rfl
  cnt := rfl
  room := by
    simp only [HspiSlots.open]
    omega
  contents := by simp [HspiSlots.open]
  queue := rfl

theorem length_queue (h : q.Tx num done blocks data) : q.queue.length = blocks.length := by
  simpa using congrArg List.length h.queue

/-- The slots transferred since the last count leave the FIFO. -/
theorem counted (h : q.Tx num done blocks data) {count : ℕ} (hq : q.queue.length ≤ count)
    (ht : count ≤ q.total) : (if 0 < q.total - count then
        { q with
          total := q.total - (q.total - count)
          fifo := (hifFifoRead_ q.fifo false ((q.total - count) * 512).toNat).2.2 }
      else q) = { q with total := count, fifo := q.dropped count } ∧
      ∃ done', HspiQueue.Tx { q with total := count, fifo := q.dropped count } num done' blocks
        data := by
  have hl := h.length_queue
  have htot := h.total
  have hcnt := h.cnt
  have hroom := h.room
  unfold HspiQueue.dropped
  split_ifs with hd
  · refine ⟨by rw [Int.sub_sub_self], ?_⟩
    obtain ⟨k, hk⟩ : ∃ k : ℕ, q.total - count = k := ⟨(q.total - count).toNat, by omega⟩
    have hkc : 512 * k ≤ q.fifo.cnt := by omega
    have hks : ((q.total - count) * 512).toNat = 512 * k := by omega
    refine ⟨done - k, ?_⟩
    rw [HifFifo.hifFifoRead_eq h.slotted.wf, hks, Nat.min_eq_left hkc]
    refine ⟨h.slotted.popped hkc, h.carries, ?_, ?_, ?_, ?_, ?_⟩
    · simp only
      omega
    · simp only [HifFifo.popped]
      omega
    · simp only
      omega
    · rw [HifFifo.contents_popped h.slotted.wf hkc, List.drop_drop, ← h.contents]
      congr 1
      omega
    · have hs : (q.fifo.popped (512 * k)).slotAddr = q.fifo.slotAddr ∘ (k + ·) :=
        funext fun m => HifFifo.slotAddr_popped h.slotted k m
      simp only [hs, ← List.map_map, List.map_add_range']
      rw [show k + (done - k) = done by omega]
      exact h.queue
  · have htc : (count : ℤ) = q.total := by omega
    rw [htc]
    exact ⟨rfl, done, h⟩

/-- The slots written join the queue. -/
theorem post (h : q.Tx num done blocks data) {fifo : HifFifo} {m : ℕ} {slots ds : List Bytes}
    (seq : ℕ) (hg : q.fifo.Grown fifo slots.flatten) (hc : List.Forall₂ Carries slots ds)
    (hm : slots.length = m) (hroom : q.total + m ≤ min num 63) :
    HspiQueue.Tx { q with
      fifo := fifo
      seq := seq
      queue := (List.range m).foldl (fun queue (i : ℕ) => hifHspiQueueUpdate_ queue
        (hifFifoPushAddr_ fifo ((i - (m : ℤ)) * 512))) q.queue
      total := q.total + m } num done (blocks ++ slots) (data ++ ds) := by
  have hcnt := h.cnt
  have htot := h.total
  have hlen := Blocks.length_flatten (length_of_carries hc)
  have hgc := hg.cnt
  have hs : fifo.Slotted num := ⟨hg.wf, hg.size.trans h.slotted.size, hg.pop ▸ h.slotted.pop⟩
  have hsa : fifo.slotAddr = q.fifo.slotAddr := by
    funext n
    rw [HifFifo.slotAddr, HifFifo.slotAddr, hg.pop, hg.size]
  have haddr : ∀ i : ℕ, hifFifoPushAddr_ fifo ((i - (m : ℤ)) * 512) =
      fifo.slotAddr (done + blocks.length + i) := fun i =>
    HifFifo.pushAddr_eq hs (by omega)
  refine ⟨hs, List.rel_append h.carries hc, ?_, ?_, hroom, ?_, ?_⟩
  · simp only [List.length_append]
    omega
  · simp only [List.length_append]
    omega
  · have hcl := h.slotted.wf.length_contents
    rw [hg.contents, List.drop_append_of_le_length (by omega), h.contents, List.flatten_append]
  · simp only [haddr, List.length_append, hm]
    rw [foldl_queueUpdate _ fun i _ => (hs.slotAddr _).1, ← List.range'_append_1, List.map_append,
      hsa, ← h.queue, List.range'_eq_map_range, List.map_map]
    rfl

/-- A write queues slots that carry what it returns of the data, and writes them whole. -/
theorem writeWhole (h : q.Tx num done blocks data) {count : ℕ} (hq : q.queue.length ≤ count)
    (ht : count ≤ q.total) {buf : Bytes} (h0 : buf.length ≠ 0) : ∃ ret q' done' slots ds,
      hifHspiWrite_ num q count buf = (ret, q') ∧ ds.flatten = buf.take ret ∧
      q'.Tx num done' (blocks ++ slots) (data ++ ds) ∧ ret ≤ buf.length ∧
      q'.total = count + slots.length ∧ q'.queue.length = q.queue.length + slots.length ∧
      (q.dropped count).Grown q'.fifo slots.flatten ∧ List.Forall₂ Carries slots ds ∧
      (q.dropped count).Whole (hifHspiSlotWrites ret q.seq (buf.take ret) 508) ∧
      q'.fifo = (hifHspiSlotWrites ret q.seq (buf.take ret) 508).foldl HifFifo.put
        (q.dropped count) := by
  obtain ⟨he₁, done₁, h₁⟩ := h.counted hq ht
  unfold hifHspiWrite_
  set q₁ : HspiQueue := { q with total := count, fifo := q.dropped count } with hq₁
  have hcnt := h₁.cnt
  have htot := h₁.total
  have hroom := h₁.room
  have hsize := h₁.slotted.size
  simp only [if_neg h0, he₁]
  set all : ℕ := buf.length / 508 + if buf.length % 508 ≠ 0 then 1 else 0 with hall
  have hallc : buf.length ≤ 508 * all ∧ 508 * all < buf.length + 508 := by
    rw [hall]
    split_ifs <;> omega
  -- the number of slots is what the data needs, cut to the slots that are free
  obtain ⟨m, hm, hmin⟩ : ∃ m : ℕ, (if 63 < (if (num : ℤ) < all + q₁.total then num - q₁.total
        else all) + q₁.total then 63 - q₁.total
      else if (num : ℤ) < all + q₁.total then num - q₁.total else all) = (m : ℤ) ∧
      (m : ℤ) = min (all : ℤ) (((min num 63 : ℕ) : ℤ) - q₁.total) := by
    refine ⟨(min (all : ℤ) (((min num 63 : ℕ) : ℤ) - q₁.total)).toNat, ?_, by omega⟩
    split_ifs <;> omega
  simp only [hm]
  by_cases hpos : 0 < (m : ℤ)
  · rw [if_pos hpos]
    set len : ℕ := if (m : ℤ) * 508 < buf.length then m * 508 else buf.length with hlen
    have hlenc : (if (m : ℤ) * 508 < buf.length then (m : ℤ) * 508 else buf.length).toNat = len := by
      rw [hlen]
      split_ifs <;> omega
    have hlt : (buf.take len).length = len ∧ len ≤ 508 * m ∧ 508 * m < len + 508 := by
      rw [List.length_take, hlen]
      split_ifs <;> omega
    have hw := hifHspiWriteSlots_writes q₁ (buf.take len)
    obtain ⟨fifo, seq, slots, ds, he, hg, hc, hsl, hds⟩ := hifHspiWriteSlots_eq (q := q₁)
      (buf.take len) (m := m) h₁.slotted.wf (by omega) (by omega) (by omega)
    have hpost := h₁.post seq hg hc hsl (by omega)
    have hql := hpost.length_queue
    have hlt' := h₁.slotted.wf.lt
    have hfit : q₁.fifo.cnt + 512 * m ≤ q₁.fifo.size := by omega
    rw [he, hlt.1] at hw
    refine ⟨len, _, done₁, slots, ds, ?_, hds, hpost, by omega, ?_, ?_, hg, hc, ?_, hw⟩
    · simp only [hlenc, he, hlt.1, Int.toNat_natCast]
    · rw [hsl]
    · rw [hql, List.length_append, ← h₁.length_queue]
    · refine HifFifo.whole_of_room _ hlt' ?_
      rw [sum_slotWrites _ hlt.1.le (by rw [hlt.1]; exact hlt.2.1) (by rw [hlt.1]; exact hlt.2.2)]
      exact hfit
  · rw [if_neg hpos]
    exact ⟨0, q₁, done₁, [], [], rfl, by simp, by simpa using h₁, Nat.zero_le _, by simp [hq₁],
      by simp [hq₁], .refl h₁.slotted.wf, .nil, trivial, rfl⟩

theorem write (h : q.Tx num done blocks data) {count : ℕ} (hq : q.queue.length ≤ count)
    (ht : count ≤ q.total) (buf : Bytes) : ∃ ret q' done' slots ds,
      hifHspiWrite_ num q count buf = (ret, q') ∧ ds.flatten = buf.take ret ∧
      q'.Tx num done' (blocks ++ slots) (data ++ ds) := by
  by_cases h0 : buf.length = 0
  · exact ⟨0, q, done, [], [], by rw [hifHspiWrite_, if_pos h0], by simp, by simpa using h⟩
  · obtain ⟨ret, q', done', slots, ds, he, hds, htx, -⟩ := h.writeWhole hq ht h0
    exact ⟨ret, q', done', slots, ds, he, hds, htx⟩

/-- The device sends the blocks in order. -/
theorem slot_eq (h : q.Tx num done blocks data) (i : ℕ) : q.slot i = blocks[i]? := by
  by_cases hi : i < blocks.length
  · have hlen := h.slotted.wf.length
    have hsize := h.slotted.size
    have hroom := h.room
    have htot := h.total
    have hcnt := h.cnt
    have hb := length_of_carries h.carries
    have hslot := (h.slotted.slotAddr (done + i)).2
    have hblock : ((blocks.flatten).drop (512 * i)).take 512 = blocks[i] := by
      rw [← Blocks.flatten_drop hb hi.le, List.drop_eq_getElem_cons hi, List.flatten_cons,
        ← hb _ (List.getElem_mem hi), List.take_left]
    have hring := take_drop_rotate (b := q.fifo.buffer) (q := q.fifo.popIdx)
      (j := 512 * (done + i)) (k := 512) (by rw [hlen]; exact hslot) (by rw [hlen]; omega)
    have hval : (q.fifo.buffer.drop (q.fifo.slotAddr (done + i))).take 512 = blocks[i] := by
      rw [← hblock, ← h.contents, List.drop_drop, HifFifo.contents, List.drop_take, List.take_take,
        Nat.min_eq_left (by omega), ← Nat.mul_add, HifFifo.slotAddr, ← hlen]
      exact hring
    rw [HspiQueue.slot, h.queue, List.getElem?_map, List.getElem?_range' hi, Option.map_some,
      Option.map_some, List.getElem?_eq_getElem hi, Nat.one_mul, hval]
  · rw [HspiQueue.slot, h.queue, List.getElem?_eq_none (by simp; omega),
      List.getElem?_eq_none (by omega)]
    rfl

/-- Slots leave the front of the queue. -/
theorem send (h : q.Tx num done blocks data) {k : ℕ} (hk : k ≤ blocks.length) :
    HspiQueue.Tx { q with queue := q.queue.drop k } num (done + k) (blocks.drop k)
      (data.drop k) := by
  have htot := h.total
  have hcnt := h.cnt
  refine ⟨h.slotted, List.forall₂_drop k h.carries, ?_, ?_, h.room, ?_, ?_⟩
  · simp only [List.length_drop]
    omega
  · simp only [List.length_drop]
    omega
  · simp only
    rw [Nat.mul_add, ← List.drop_drop, h.contents,
      Blocks.flatten_drop (length_of_carries h.carries) hk]
  · simp only
    rw [h.queue, ← List.map_drop, List.drop_range', Nat.mul_one, List.length_drop]

end HspiQueue.Tx

/-! ## The host reads -/

theorem hspiReadSlot_eq {slots ds : List Bytes} (hc : List.Forall₂ Carries slots ds) (seq : ℕ) :
    ∃ seq', hspiReadSlot 512 (slots.map some) seq = (some ds.flatten, seq') := by
  induction hc generalizing seq with
  | nil => exact ⟨seq, rfl⟩
  | @cons slot d slots ds hc _ ih =>
    obtain ⟨s, hhdr⟩ := hc.hdr (n := 512) (by omega)
    rw [List.take_of_length_le hc.1.le] at hhdr
    obtain ⟨seq', he⟩ := ih (hspiSeqNext s)
    refine ⟨seq', ?_⟩
    have hd := hc.2.1
    simp only [List.map_cons, hspiReadSlot, hhdr, ne_eq, not_true_eq_false, false_or,
      if_neg (show ¬ 512 - 4 < d.length by omega), he, hc.data_eq, Option.map_some,
      List.flatten_cons]

/-- A read returns what the next slots carry, no more of them than it knew to be queued. -/
theorem hspiRead_eq {info : HspiInfo} {new : Option HspiStatus} {blocks data : List Bytes}
    {transfer : ℕ → Option Bytes} (hc : List.Forall₂ Carries blocks data)
    (ht : ∀ i, transfer i = blocks[i]?) (hs : info.slotSize = 512)
    (hi : info.slotCnt ≤ blocks.length) (hn : slotCntOf new ≤ blocks.length) (len : ℕ) :
    ∃ ret d k info', hspiRead info new transfer len = (ret, d, k, info') ∧
      d.take ret.toNat = (data.take k).flatten ∧ k + info'.slotCnt ≤ blocks.length ∧
      info'.slotSize = 512 := by
  unfold hspiRead
  split_ifs with h0
  · exact ⟨-1, [], 0, info, rfl, by simp, by simpa using hi, hs⟩
  simp only
  set want := if info.slotNum < len / (info.slotSize - 4) % 2 ^ 16 then info.slotNum
    else len / (info.slotSize - 4) % 2 ^ 16
  obtain ⟨err, info₁, hu, hi₁, hs₁⟩ := hspiRefresh_le hs hi hn want
  simp only [hu, hs₁]
  by_cases he : err ≠ 0
  · rw [if_pos he]
    exact ⟨-1, [], 0, info₁, rfl, by simp, by simpa using hi₁, hs₁⟩
  rw [if_neg he]
  set k := if info₁.slotCnt < want then info₁.slotCnt else want with hk
  have hkc : k ≤ info₁.slotCnt := by
    rw [hk]
    split_ifs <;> omega
  by_cases hk0 : k = 0
  · rw [if_pos hk0]
    exact ⟨0, [], 0, info₁, rfl, by simp, by simpa using hi₁, hs₁⟩
  rw [if_neg hk0]
  have hmap : (List.range k).map transfer = (blocks.take k).map some := by
    refine List.ext_getElem (by simp; omega) fun i h₁ h₂ => ?_
    rw [List.length_map, List.length_range] at h₁
    rw [List.getElem_map, List.getElem_range, ht, List.getElem_map, List.getElem_take,
      List.getElem?_eq_getElem]
  obtain ⟨seq', hr⟩ := hspiReadSlot_eq (List.forall₂_take k hc) info₁.seq
  simp only [hmap, hr]
  refine ⟨_, _, k, _, rfl, by rw [Int.toNat_natCast, List.take_length], ?_, rfl⟩
  simp only
  omega

/-! ## From the target to the host -/

/-- The bytes sent are those received and those the queued slots carry. -/
structure Hspi.TxInv (slots : HspiSlots) (s : Hspi) (done : ℕ) (blocks data : List Bytes) :
    Prop where
  tx : s.target.Tx slots.num done blocks data
  slotSize : s.host.slotSize = 512
  slotCnt : s.host.slotCnt ≤ blocks.length
  bytes : s.received ++ data.flatten = s.sent

theorem Hspi.TxInv.step {slots : HspiSlots} {s s' : Hspi} {i : HspiTxStep}
    (h : ∃ done blocks data, s.TxInv slots done blocks data)
    (hs : hspiTxStep slots s i = some s') :
    ∃ done blocks data, s'.TxInv slots done blocks data := by
  obtain ⟨done, blocks, data, h⟩ := h
  have hl := h.tx.length_queue
  rcases i with new | ⟨buf, count⟩ | ⟨len, new⟩ <;> simp only [hspiTxStep] at hs <;>
    split_ifs at hs with hg <;> simp only [Option.some.injEq] at hs <;> subst hs
  · obtain ⟨hc, hz⟩ := hspiStatusUpdate_le h.slotCnt (hg.trans hl.le)
    exact ⟨done, blocks, data, h.tx, hz.trans h.slotSize, hc, h.bytes⟩
  · obtain ⟨ret, q', done', slots', ds, he, hd, htx⟩ := h.tx.write hg.1 hg.2 buf
    simp only [he]
    refine ⟨done', blocks ++ slots', data ++ ds, htx, h.slotSize, ?_, ?_⟩
    · have := h.slotCnt
      rw [List.length_append]
      simp only
      omega
    · simp only
      rw [List.flatten_append, ← List.append_assoc, h.bytes, hd]
  · obtain ⟨ret, d, k, info', he, hd, hk, hz⟩ := hspiRead_eq h.tx.carries h.tx.slot_eq h.slotSize
      h.slotCnt (hg.trans hl.le) len
    simp only [he, hd]
    refine ⟨done + k, blocks.drop k, data.drop k, h.tx.send (by omega), hz, ?_, ?_⟩
    · rw [List.length_drop]
      simp only
      omega
    · simp only
      rw [← h.bytes, List.append_assoc, ← List.flatten_append, List.take_append_drop]

theorem Hspi.TxInv.run {slots : HspiSlots} {active : Bool} {is : List HspiTxStep} {s : Hspi}
    (h : run (hspiTxStep slots) (slots.start active) is = some s) :
    ∃ done blocks data, s.TxInv slots done blocks data :=
  run_inv (P := fun s => ∃ done blocks data, Hspi.TxInv slots s done blocks data)
    (fun _ _ _ h hs => Hspi.TxInv.step h hs)
    ⟨0, [], [], HspiQueue.Tx.start slots, rfl, le_rfl, rfl⟩ h

/-- What the host reads is a first part of what the target's writes accepted, and all of it once
every queued slot has been transferred. -/
theorem hspi_tx_stream {slots : HspiSlots} {active : Bool} {is : List HspiTxStep} {s : Hspi}
    (h : run (hspiTxStep slots) (slots.start active) is = some s) :
    s.received <+: s.sent ∧ (s.target.queue = [] → s.received = s.sent) := by
  obtain ⟨done, blocks, data, hi⟩ := Hspi.TxInv.run h
  refine ⟨⟨_, hi.bytes⟩, fun hq => ?_⟩
  have hb := hi.tx.length_queue
  have hl := hi.tx.carries.length_eq
  rw [hq, List.length_nil] at hb
  have hd : data = [] := List.length_eq_zero_iff.1 (by omega)
  simpa [hd] using hi.bytes

theorem hspi_tx_stream_two : ∃ s, run (hspiTxStep twoSlots) (twoSlots.start true)
      [.write [1, 2, 3] 0, .write (List.replicate 600 4) 1, .read 600 (some ⟨2, 128, 256⟩),
        .write [5] 2, .write [6] 1] = some s ∧
    s.received = [1, 2, 3] ∧ s.sent = [1, 2, 3] ++ List.replicate 508 4 ++ [6] ∧
    s.received <+: s.sent := by
  obtain ⟨s, hs, hb⟩ := Option.map_eq_some_iff.1 (show (run (hspiTxStep twoSlots)
      (twoSlots.start true) [.write [1, 2, 3] 0, .write (List.replicate 600 4) 1,
        .read 600 (some ⟨2, 128, 256⟩), .write [5] 2, .write [6] 1]).map
      (fun s => (s.received, s.sent)) =
    some ([1, 2, 3], [1, 2, 3] ++ List.replicate 508 4 ++ [6]) by decide +kernel)
  obtain ⟨hr, hse⟩ := Prod.mk.inj hb
  exact ⟨s, hs, hr, hse, (hspi_tx_stream hs).1⟩

/-! ## The target alone -/

theorem HspiQueue.Tx.run {slots : HspiSlots} {is : List HspiTxqStep} {q : HspiQueue}
    (h : run (hspiTxqStep slots.num) slots.open is = some q) :
    ∃ done blocks data, q.Tx slots.num done blocks data := by
  refine run_inv (P := fun q => ∃ done blocks data, HspiQueue.Tx q slots.num done blocks data) ?_
    ⟨0, [], [], HspiQueue.Tx.start slots⟩ h
  rintro q i q' ⟨done, blocks, data, htx⟩ hs
  rcases i with _ | ⟨buf, count⟩
  · have hl := htx.length_queue
    rcases hq : q.queue with _ | ⟨addr, queue⟩ <;> simp only [hspiTxqStep, hq] at hs
    · simp at hs
    · obtain rfl := Option.some.inj hs
      rw [hq, List.length_cons] at hl
      have hsend := htx.send (k := 1) (by omega)
      rw [hq, List.drop_one, List.tail_cons] at hsend
      exact ⟨_, _, _, hsend⟩
  · simp only [hspiTxqStep] at hs
    split_ifs at hs with hg
    obtain rfl := Option.some.inj hs
    obtain ⟨ret, q', done', slots', ds, he, -, htx'⟩ := htx.write hg.1 hg.2 buf
    rw [he]
    exact ⟨_, _, _, htx'⟩

/-- After a write the FIFO has the slots counted, whole and from a slot's start, and the bytes it
returns are those that the frames it added carry. -/
theorem hspi_txq_accounting {slots : HspiSlots} {is : List HspiTxqStep} {q q' : HspiQueue}
    {buf : Bytes} {count ret : ℕ} (h : run (hspiTxqStep slots.num) slots.open is = some q)
    (hq : q.queue.length ≤ count) (ht : count ≤ q.total) (hb : 0 < buf.length)
    (hw : hifHspiWrite_ slots.num q count buf = (ret, q')) :
    q'.fifo.cnt = 512 * q'.total ∧ q'.total ≤ min slots.num 63 ∧ 512 ∣ q'.fifo.pushIdx ∧
      (q.dropped count).Whole (hifHspiSlotWrites ret q.seq (buf.take ret) 508) ∧
      q'.fifo = (hifHspiSlotWrites ret q.seq (buf.take ret) 508).foldl HifFifo.put
        (q.dropped count) ∧
      ∃ frames ds, q'.fifo.contents = (q.dropped count).contents ++ frames.flatten ∧
        q'.total = count + frames.length ∧
        q'.queue.length = q.queue.length + frames.length ∧ List.Forall₂ Carries frames ds ∧
        ds.flatten = buf.take ret ∧ ds.flatten.length = ret := by
  obtain ⟨done, blocks, data, htx⟩ := HspiQueue.Tx.run h
  obtain ⟨ret', q'', done', frames, ds, he, hds, htx', hret, htot, hlen, hg, hc, hwhole, hput⟩ :=
    htx.writeWhole hq ht hb.ne'
  obtain ⟨rfl, rfl⟩ := Prod.mk.inj (hw.symm.trans he)
  have hcnt := htx'.cnt
  have htot' := htx'.total
  refine ⟨by omega, htx'.room, htx'.slotted.push (by omega), hwhole, hput, frames, ds, hg.contents,
    htot, hlen, hc, hds, ?_⟩
  rw [hds, List.length_take, Nat.min_eq_left hret]

theorem hspi_txq_accounting_two : ∃ q, run (hspiTxqStep 2) twoSlots.open
      [.write [1, 2, 3] 0, .write (List.replicate 600 4) 1, .done] = some q ∧
    ∃ ret q', hifHspiWrite_ 2 q 1 [5, 6] = (ret, q') ∧ ret = 2 ∧ q'.total = 2 ∧
      q'.fifo.cnt = 512 * q'.total := by
  obtain ⟨q, hs, hb⟩ := Option.map_eq_some_iff.1 (show (run (hspiTxqStep 2) twoSlots.open
      [.write [1, 2, 3] 0, .write (List.replicate 600 4) 1, .done]).map
      (fun q => (q.queue.length, q.total, (hifHspiWrite_ 2 q 1 [5, 6]).1,
        (hifHspiWrite_ 2 q 1 [5, 6]).2.total)) = some (1, 2, 2, 2) by decide +kernel)
  rcases hw : hifHspiWrite_ 2 q 1 [5, 6] with ⟨ret, q'⟩
  simp only [hw, Prod.mk.injEq] at hb
  obtain ⟨hl, ht, hr, htot⟩ := hb
  have hacc :=
    @hspi_txq_accounting twoSlots _ _ _ _ _ _ hs hl.le (by rw [ht]; decide) (by decide) hw
  exact ⟨q, hs, ret, q', hw, hr, htot, hacc.1⟩

end NrcAtcmd
