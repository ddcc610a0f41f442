import NrcAtcmd.Lib.Blocks
import NrcAtcmd.Proofs.Hspi

/-!
# What the host sends over HSPI

The ring of the RX FIFO, from the pop index on, has the slots counted and not read, then those filled
and not counted, then the ones lent to the device (`HspiQueue.Lent`). A transfer fills the first of the
lent, a read takes slots from the front and lends the free ones behind; the host transfers no more
slots than were lent. So the bytes the host reported are at every moment those the target returned
and then those the filled slots carry (`HspiQueue.Rx`).

What the slots hold decides nothing about whose they are: a slot that is not one is read whole too, so
the device and the target go around the ring at one distance (`HspiRxq.Owned`).
-/

namespace NrcAtcmd

open Machine
open Memory (memcpy take_memcpy length_memcpy)
open Ring (take_rotate rotate_memcpy)

/-! ## The target reads -/

/-- The RX side: behind `filled` slots from the pop index on, the device has those the target still
takes for lent or has not looked at. -/
structure HspiQueue.Lent (q : HspiQueue) (num filled : ℕ) : Prop where
  slotted : q.fifo.Slotted num
  count : 512 * (filled + q.queue.length : ℤ) = q.fifo.cnt + 512 * q.total
  lent : q.queue.length ≤ q.total
  room : (q.fifo.cnt : ℤ) + 512 * q.total ≤ 512 * min num 63
  queue : q.queue = (List.range' filled q.queue.length).map q.fifo.slotAddr

namespace HspiQueue.Lent

variable {q : HspiQueue} {num filled : ℕ}

theorem start (slots : HspiSlots) : slots.open.Lent slots.num 0 where
  slotted := slots.slotted
  count := by simp [HspiSlots.open, hifFifoCreate_]
  lent := by simp [HspiSlots.open]
  room := by
    simp only [HspiSlots.open, hifFifoCreate_]
    omega
  queue := by simp [HspiSlots.open]

/-- The device fills the oldest slot lent. -/
theorem fill (h : q.Lent num filled) {slot : Bytes} {addr : ℕ} {queue : List ℕ}
    (hs : slot.length = 512) (hq : q.queue = addr :: queue) :
    addr = q.fifo.slotAddr filled ∧ (q.fill slot).Lent num (filled + 1) := by
  obtain ⟨fifo, seq, total, _, reset⟩ := q
  subst hq
  have hqueue := h.queue
  simp only [List.length_cons, List.range'_succ, List.map_cons, List.cons.injEq] at hqueue
  obtain ⟨haddr, hqueue⟩ := hqueue
  have hslot := (h.slotted.slotAddr filled).2
  have hl : (memcpy fifo.buffer addr slot).length = fifo.size := by
    rw [length_memcpy, h.slotted.wf.length]
    rw [haddr, hs, h.slotted.wf.length]
    exact hslot
  have hcount := h.count
  have hlent := h.lent
  simp only [List.length_cons] at hcount hlent
  refine ⟨haddr, ⟨⟨hl, h.slotted.wf.pos, h.slotted.wf.lt, h.slotted.wf.dvd, h.slotted.wf.cnt_le,
    h.slotted.wf.pop_lt, h.slotted.wf.push_lt, h.slotted.wf.push⟩, h.slotted.size, h.slotted.pop⟩,
    ?_, ?_, h.room, hqueue⟩
  · simp only [HspiQueue.fill]
    omega
  · simp only [HspiQueue.fill]
    omega

/-- The slots filled since the last count join the FIFO. -/
theorem counted (h : q.Lent num filled) {count : ℕ} (hq : q.queue.length ≤ count)
    (ht : count ≤ q.total) : ∃ fifo, (if 0 < q.total - count then
        { q with
          total := q.total - (q.total - count)
          fifo := (hifFifoWrite_ q.fifo none ((q.total - count) * 512).toNat).2 }
      else q) = { q with fifo := fifo, total := count } ∧
      HspiQueue.Lent { q with fifo := fifo, total := count } num filled ∧
      fifo.popIdx = q.fifo.popIdx ∧ fifo.buffer = q.fifo.buffer := by
  have hc := h.count
  have hroom := h.room
  have hsize := h.slotted.size
  split_ifs with hd
  · refine ⟨_, by rw [Int.sub_sub_self], ?_⟩
    rw [HifFifo.hifFifoWrite_none h.slotted.wf]
    set k := min ((q.total - count) * 512).toNat (q.fifo.size - q.fifo.cnt) with hk
    refine ⟨⟨h.slotted.pushed h.slotted.wf.length (by omega), ?_, ?_, ?_, h.queue⟩, rfl, rfl⟩ <;>
      simp only [HifFifo.pushed] <;> omega
  · have htc : (count : ℤ) = q.total := by omega
    refine ⟨q.fifo, ?_, ?_, rfl, rfl⟩ <;> rw [htc]
    exact h

/-- Whole slots are taken from the front. -/
theorem taken (h : q.Lent num filled) {k : ℕ} (hk : 512 * k ≤ q.fifo.cnt) (seq : ℕ)
    (reset : Bool) : k ≤ filled ∧
      HspiQueue.Lent { q with fifo := q.fifo.popped (512 * k), seq := seq, reset := reset } num
        (filled - k) := by
  have hc := h.count
  have hl := h.lent
  have hroom := h.room
  have hkb : k ≤ filled := by omega
  refine ⟨hkb, h.slotted.popped hk, ?_, hl, ?_, ?_⟩
  · simp only [HifFifo.popped]
    omega
  · simp only [HifFifo.popped]
    omega
  · have hs : (q.fifo.popped (512 * k)).slotAddr = q.fifo.slotAddr ∘ (k + ·) :=
      funext fun m => HifFifo.slotAddr_popped h.slotted k m
    simp only [hs, ← List.map_map, List.map_add_range']
    rw [Nat.add_sub_cancel' hkb]
    exact h.queue

/-- A read lends what is missing to all the slots, or to as many as the device can count. -/
theorem update (h : q.Lent num filled) {update : ℤ} (hu : update = (if 63 < num then
      ((hifFifoFreeSize_ q.fifo / 512 : ℕ) : ℤ) - q.total - (num - 63)
    else ((hifFifoFreeSize_ q.fifo / 512 : ℕ) : ℤ) - q.total)) :
    q.fifo.cnt + 512 * (q.total + update) = 512 * min num 63 := by
  have hsize := h.slotted.size
  have hc := h.count
  have hl := h.lent
  have hroom := h.room
  simp only [hifFifoFreeSize_] at hu
  split_ifs at hu <;> omega

/-- The free slots behind those lent are lent too, as many as the device can count. -/
theorem lend (h : q.Lent num filled) {update : ℤ}
    (hu : q.fifo.cnt + 512 * (q.total + update) = 512 * min num 63) :
    (List.range update.toNat).foldl (fun queue (i : ℕ) => hifHspiQueueUpdate_ queue
        (hifFifoPushAddr_ q.fifo ((q.total + i) * 512))) q.queue =
      q.queue ++ (List.range' (filled + q.queue.length) update.toNat).map q.fifo.slotAddr ∧
    HspiQueue.Lent { q with
      queue := q.queue ++
        (List.range' (filled + q.queue.length) update.toNat).map q.fifo.slotAddr
      total := q.total + update } num filled := by
  have hc := h.count
  have hl := h.lent
  have hroom := h.room
  have haddr : ∀ i : ℕ, hifFifoPushAddr_ q.fifo ((q.total + i) * 512) =
      q.fifo.slotAddr (filled + q.queue.length + i) := fun i =>
    HifFifo.pushAddr_eq h.slotted (by omega)
  refine ⟨?_, h.slotted, ?_, ?_, ?_, ?_⟩
  · simp only [haddr]
    rw [foldl_queueUpdate _ fun i _ => (h.slotted.slotAddr _).1, List.range'_eq_map_range,
      List.map_map]
    rfl
  · simp only [List.length_append, List.length_map, List.length_range']
    omega
  · simp only [List.length_append, List.length_map, List.length_range']
    omega
  · simp only
    omega
  · simp only [List.length_append, List.length_map, List.length_range']
    rw [← List.range'_append_1, List.map_append, ← h.queue]

end HspiQueue.Lent

/-- The slots filled hold the blocks, and the blocks the data. -/
structure HspiQueue.Rx (q : HspiQueue) (num : ℕ) (blocks data : List Bytes) : Prop
    extends q.Lent num blocks.length where
  carries : List.Forall₂ Carries blocks data
  ring : q.fifo.ring.take (512 * blocks.length) = blocks.flatten
  reset : q.reset = false

namespace HspiQueue.Rx

variable {q : HspiQueue} {num : ℕ} {blocks data : List Bytes}

theorem start (slots : HspiSlots) : slots.open.Rx slots.num [] [] where
  toLent := .start slots
  carries := .nil
  ring := by simp
  reset := rfl

/-- A slot the host transfers joins the blocks, at the address of the oldest slot lent. -/
theorem fill (h : q.Rx num blocks data) {slot d : Bytes} (hc : Carries slot d)
    (hq : 0 < q.queue.length) : (q.fill slot).Rx num (blocks ++ [slot]) (data ++ [d]) ∧
      (q.fill slot).queue.length + 1 = q.queue.length := by
  rcases hqueue : q.queue with _ | ⟨addr, queue⟩
  · simp [hqueue] at hq
  obtain ⟨haddr, hlent⟩ := h.toLent.fill hc.1 hqueue
  have hfifo : q.fill slot =
      { q with fifo := { q.fifo with buffer := memcpy q.fifo.buffer addr slot }, queue := queue } := by
    rw [HspiQueue.fill, hqueue]
  have hlen := h.slotted.wf.length
  have hsize := h.slotted.size
  have hcount := h.count
  have hroom := h.room
  have hslot := (h.slotted.slotAddr blocks.length).2
  have hr : (memcpy q.fifo.buffer addr slot).rotate q.fifo.popIdx =
      memcpy q.fifo.ring (512 * blocks.length) slot := by
    rw [haddr, HifFifo.slotAddr, ← hlen]
    refine rotate_memcpy ?_ (by rw [hc.1, hlen, hsize]; omega)
    rw [hc.1, hlen]
    exact hslot
  have hring : (memcpy q.fifo.ring (512 * blocks.length) slot).take
      (512 * blocks.length + slot.length) = q.fifo.ring.take (512 * blocks.length) ++ slot :=
    take_memcpy (by rw [h.slotted.wf.length_ring, hsize]; omega)
  rw [hc.1, h.ring] at hring
  refine ⟨⟨by rw [List.length_append]; exact hlent, List.rel_append h.carries (.cons hc .nil), ?_,
    ?_⟩, by rw [hfifo, List.length_cons]⟩
  · rw [hfifo, HifFifo.ring, hr, List.length_append, List.length_singleton, Nat.mul_add, Nat.mul_one,
      hring, List.flatten_append, List.flatten_singleton]
  · rw [hfifo]
    exact h.reset

theorem fillAll {slots ds : List Bytes} (hs : List.Forall₂ Carries slots ds) :
    ∀ {q : HspiQueue} {blocks data : List Bytes}, q.Rx num blocks data →
      slots.length ≤ q.queue.length →
      (slots.foldl HspiQueue.fill q).Rx num (blocks ++ slots) (data ++ ds) ∧
        (slots.foldl HspiQueue.fill q).queue.length + slots.length = q.queue.length := by
  induction hs with
  | nil =>
    intro q blocks data h _
    simpa using h
  | cons hc _ ih =>
    intro q blocks data h hl
    rw [List.length_cons] at hl
    obtain ⟨h', hq⟩ := h.fill hc (by omega)
    obtain ⟨h'', hq'⟩ := ih h' (by omega)
    rw [List.append_assoc, List.append_assoc] at h''
    refine ⟨h'', ?_⟩
    rw [List.foldl_cons, List.length_cons]
    omega

end HspiQueue.Rx

/-- A slot's payload in the user's buffer: the padding copied behind it is not counted. -/
theorem take_memcpy_payload {buf src d : Bytes} {i : ℕ} (hi : i ≤ buf.length)
    (hd : src.take d.length = d) : (memcpy buf i src).take (i + d.length) = buf.take i ++ d := by
  have hl : d.length ≤ src.length := by
    rw [← hd, List.length_take]
    omega
  have hti : (buf.take i).length = i := by simp [hi]
  have h : ((memcpy buf i src).take (i + src.length)).take (i + d.length) =
      (buf.take i ++ src).take (i + d.length) := by rw [take_memcpy hi]
  have ht : (buf.take i).take (i + d.length) = buf.take i := List.take_of_length_le (by omega)
  rw [List.take_take, Nat.min_eq_left (by omega), List.take_append, ht, hti,
    Nat.add_sub_cancel_left, hd] at h
  exact h

/-- The loop takes whole slots until one more may not fit, and returns what they carry. -/
theorem hifHspiReadSlots_eq {blocks data : List Bytes} (hc : List.Forall₂ Carries blocks data) :
    ∀ (fuel : ℕ) (buf : Bytes) {i : ℕ} {q : HspiQueue}, q.fifo.Wf → q.fifo.contents = blocks.flatten →
      i ≤ buf.length → blocks.length < fuel →
      ∃ k seq buf', k ≤ blocks.length ∧
        hifHspiReadSlots_ fuel q buf i = (i + (data.take k).flatten.length, buf',
          { q with fifo := q.fifo.popped (512 * k), seq := seq }) ∧
        buf'.length = buf.length ∧ i + (data.take k).flatten.length ≤ buf.length ∧
        buf'.take (i + (data.take k).flatten.length) = buf.take i ++ (data.take k).flatten ∧
        (k < blocks.length → buf.length < i + (data.take k).flatten.length + 508) := by
  induction hc with
  | nil =>
    intro fuel buf i q hw hq hi hf
    obtain ⟨fuel, rfl⟩ : ∃ n, fuel = n + 1 := ⟨fuel - 1, by omega⟩
    have hcnt : q.fifo.cnt = 0 := by rw [← hw.length_contents, hq]; rfl
    refine ⟨0, q.seq, buf, le_rfl, ?_, rfl, by simpa using hi, by simp, by simp⟩
    unfold hifHspiReadSlots_
    simp only [HifFifo.hifFifoRead_eq hw, hcnt, Nat.mul_zero, Nat.min_zero, HifFifo.popped_zero hw]
    split_ifs <;> simp_all
  | @cons slot d blocks data hsd hbd ih =>
    intro fuel buf i q hw hq hi hf
    obtain ⟨fuel, rfl⟩ : ∃ n, fuel = n + 1 := ⟨fuel - 1, by omega⟩
    unfold hifHspiReadSlots_
    by_cases hroom : buf.length - i < 508
    · refine ⟨0, q.seq, buf, Nat.zero_le _, ?_, rfl, by simpa using hi, by simp, ?_⟩
      · rw [if_pos hroom, Nat.mul_zero, HifFifo.popped_zero hw]
        simp
      · intro _
        simp only [List.take_zero, List.flatten_nil, List.length_nil]
        omega
    have hcnt : 512 ≤ q.fifo.cnt := by
      rw [← hw.length_contents, hq, List.flatten_cons, List.length_append, hsd.1]
      omega
    have hw₄ := hw.popped (k := 4) (by omega)
    obtain ⟨seq, hhdr⟩ := hsd.hdr le_rfl
    have htake : q.fifo.contents.take 4 = slot.take 4 := by
      rw [hq, List.flatten_cons, List.take_append_of_le_length (by rw [hsd.1]; omega)]
    have hrest : (q.fifo.popped 4).contents.take 508 = slot.drop 4 := by
      have hl : (slot.drop 4).length = 508 := by rw [List.length_drop, hsd.1]
      rw [HifFifo.contents_popped hw (by omega), hq, List.flatten_cons,
        List.drop_append_of_le_length (by rw [hsd.1]; omega), ← hl, List.take_left]
    set src := if decide (0 < d.length) then (q.fifo.popped 4).contents.take 508 else [] with hsrc
    have hd : src.take d.length = d := by
      by_cases h0 : 0 < d.length
      · rw [hsrc, if_pos (by simpa using h0), hrest, hsd.data_eq]
      · obtain rfl : d = [] := List.length_eq_zero_iff.1 (by omega)
        simp
    have hsl : src.length ≤ 508 := by
      rw [hsrc]
      split_ifs
      · rw [List.length_take]
        omega
      · exact Nat.zero_le _
    have hml : (memcpy buf i src).length = buf.length := length_memcpy (by omega)
    have hpop : ((q.fifo.popped 4).popped 508) = q.fifo.popped 512 := HifFifo.popped_popped 4
    obtain ⟨k, s, buf', hk, he, hb', hi', ht, hlt⟩ := ih
      fuel (memcpy buf i src) (i := i + d.length)
      (q := { q with fifo := q.fifo.popped 512, seq := hspiSeqNext seq }) (hw.popped hcnt) (by
        show (q.fifo.popped 512).contents = blocks.flatten
        rw [HifFifo.contents_popped hw hcnt, hq, List.flatten_cons, ← hsd.1, List.drop_left])
      (by have := hsd.2.1; omega) (by rw [List.length_cons] at hf; omega)
    rw [hml] at hb' hi' hlt
    refine ⟨k + 1, s, buf', by rw [List.length_cons]; omega, ?_, hb', ?_, ?_, ?_⟩
    · rw [if_neg hroom, HifFifo.hifFifoRead_eq hw]
      simp only [Nat.min_eq_left (show 4 ≤ q.fifo.cnt by omega), htake, hhdr, if_true, ne_eq,
        not_true_eq_false, if_false, false_or,
        if_neg (show ¬ 508 < d.length by have := hsd.2.1; omega),
        HifFifo.hifFifoRead_eq hw₄, ← hsrc, hpop,
        Nat.min_eq_left (show 508 ≤ (q.fifo.popped 4).cnt by simp only [HifFifo.popped]; omega), he]
      rw [List.take_succ_cons, List.flatten_cons, List.length_append, Nat.add_assoc,
        HifFifo.popped_popped, Nat.mul_succ, Nat.add_comm 512]
    · rw [List.take_succ_cons, List.flatten_cons, List.length_append]
      omega
    · rw [List.take_succ_cons, List.flatten_cons, List.length_append, ← Nat.add_assoc, ht,
        take_memcpy_payload hi hd, List.append_assoc]
    · intro h
      rw [List.length_cons] at h
      have := hlt (by omega)
      rw [List.take_succ_cons, List.flatten_cons, List.length_append]
      omega

theorem length_flatten_carried {slots data : List Bytes} (h : List.Forall₂ Carries slots data)
    (k : ℕ) : (data.take k).flatten.length ≤ 508 * k := by
  induction h generalizing k with
  | nil => simp
  | @cons slot d slots data hc _ ih =>
    rcases k with _ | k
    · simp
    · have := hc.2.1
      have := ih k
      rw [List.take_succ_cons, List.flatten_cons, List.length_append]
      omega

namespace HspiQueue.Rx

variable {q : HspiQueue} {num : ℕ} {blocks data : List Bytes}

theorem contents (h : q.Rx num blocks data) :
    q.fifo.contents = (blocks.take (q.fifo.cnt / 512)).flatten := by
  have hc := h.count
  have hl := h.lent
  rw [HifFifo.contents, Blocks.flatten_take (length_of_carries h.carries) (by omega), ← h.ring,
    List.take_take]
  congr 1
  omega

/-- Whole slots are taken from the front. -/
theorem taken (h : q.Rx num blocks data) {k : ℕ} (hk : 512 * k ≤ q.fifo.cnt) (seq : ℕ) :
    HspiQueue.Rx { q with fifo := q.fifo.popped (512 * k), seq := seq } num (blocks.drop k)
      (data.drop k) := by
  obtain ⟨hkb, hlent⟩ := h.toLent.taken hk seq q.reset
  have hc := h.count
  have hl := h.lent
  have hroom := h.room
  have hsize := h.slotted.size
  refine ⟨by rw [List.length_drop]; exact hlent, List.forall₂_drop k h.carries, ?_, h.reset⟩
  show (q.fifo.popped (512 * k)).ring.take (512 * (blocks.drop k).length) = _
  rw [HifFifo.ring_popped h.slotted.wf, List.length_drop, Nat.mul_sub,
    take_rotate (by omega) (by rw [h.slotted.wf.length_ring]; omega), h.ring,
    Blocks.flatten_drop (length_of_carries h.carries) hkb]

end HspiQueue.Rx

/-- A read returns what the oldest slots carry; one that counts every slot filled and has room for
all of them returns everything. -/
theorem HspiQueue.Rx.read {q : HspiQueue} {num : ℕ} {blocks data : List Bytes}
    (h : q.Rx num blocks data) {count : ℕ} (hq : q.queue.length ≤ count) (ht : count ≤ q.total)
    (buf : Bytes) : ∃ k buf' q', hifHspiRead_ num q count buf =
        ((data.take k).flatten.length, buf', q') ∧
      buf'.take (data.take k).flatten.length = (data.take k).flatten ∧
      q'.Rx num (blocks.drop k) (data.drop k) ∧ q.queue.length ≤ q'.queue.length ∧
      (count = q.queue.length → 508 * num ≤ buf.length → k = blocks.length) := by
  unfold hifHspiRead_
  by_cases h0 : buf.length = 0
  · refine ⟨0, buf, q, ?_, by simp, by simpa using h, le_rfl, ?_⟩
    · rw [if_pos h0]
      simp
    · have := h.slotted.pos
      omega
  obtain ⟨fifo₁, he₁, hlent₁, hpop₁, hbuf₁⟩ := h.toLent.counted hq ht
  set q₁ : HspiQueue := { q with fifo := fifo₁, total := count } with hq₁
  have hring₁ : fifo₁.ring = q.fifo.ring := by rw [HifFifo.ring, HifFifo.ring, hpop₁, hbuf₁]
  have h₁ : q₁.Rx num blocks data := ⟨hlent₁, h.carries, by rw [← h.ring, ← hring₁], h.reset⟩
  have hc₁ := h₁.count
  have hl₁ := h₁.lent
  have hroom₁ := h₁.room
  have hcarries : List.Forall₂ Carries (blocks.take (q₁.fifo.cnt / 512))
      (data.take (q₁.fifo.cnt / 512)) := List.forall₂_take _ h.carries
  obtain ⟨k, seq, buf', hk, he, hbl, hi, htk, hroom⟩ := hifHspiReadSlots_eq hcarries
    (q₁.fifo.cnt + 1) buf (i := 0) h₁.slotted.wf h₁.contents (Nat.zero_le _)
    (by rw [List.length_take]; omega)
  rw [List.length_take] at hk hroom
  have hmin : min k (q₁.fifo.cnt / 512) = k := by omega
  rw [List.take_take, hmin] at he hi htk hroom
  have h₂ := h₁.taken (k := k) (by omega) seq
  set q₂ : HspiQueue := { q₁ with fifo := q₁.fifo.popped (512 * k), seq := seq } with hq₂
  have hsize := h₂.slotted.size
  have hc₂ := h₂.count
  have hl₂ := h₂.lent
  have hroom₂ := h₂.room
  obtain ⟨hq₃, h₃⟩ := h₂.toLent.lend (h₂.toLent.update rfl)
  refine ⟨k, buf', _, ?_, by simpa using htk, ⟨h₃, h₂.carries, h₂.ring, h₂.reset⟩, ?_, ?_⟩
  · rw [if_neg h0]
    simp only [he₁, he, Nat.zero_add, hq₃]
  · simp only [List.length_append]
    exact Nat.le_add_right _ _
  · intro hcount hroomy
    by_contra hne
    have hq₁l : q₁.queue.length = count := hcount.symm
    have ht₁ : q₁.total = count := rfl
    have := length_flatten_carried h.carries k
    have := hroom (by omega)
    omega

/-! ## The host writes -/

theorem carries_slot {len : ℕ} {rest : Bytes} (seq : ℕ) (hl : len ≤ 508) (hr : len ≤ rest.length) :
    Carries ((HspiHdr.mk (bytes "HS") len seq).bytes ++ rest.take len ++
      List.replicate (512 - 4 - len) 0) (rest.take len) := by
  have hlt : (rest.take len).length = len := by rw [List.length_take]; omega
  refine ⟨?_, by omega, seq, List.replicate (512 - 4 - len) 0, by rw [hlt]⟩
  simp only [List.length_append, length_hdr, hlt, List.length_replicate]
  omega

/-- The slots written carry a first part of the data, in order. -/
theorem hspiWriteSlot_carries (transfer : ℕ → Bool) : ∀ (slotNum i : ℕ) (rest : Bytes)
    (len seq : ℕ), len ≤ 508 → ∃ slots ds seq',
      hspiWriteSlot 512 transfer slotNum i rest len seq = (slots, ds.flatten.length, seq') ∧
      List.Forall₂ Carries slots ds ∧ slots.length ≤ slotNum ∧ ds.flatten <+: rest
  | 0, i, rest, len, seq, _ => ⟨[], [], seq, rfl, .nil, le_rfl, by simp⟩
  | slotNum + 1, i, rest, len, seq, hl => by
    unfold hspiWriteSlot
    set n := if rest.length < len then rest.length else len with hn
    have hnl : n ≤ 508 ∧ n ≤ rest.length := by
      rw [hn]
      split_ifs <;> omega
    by_cases ht : transfer i
    · obtain ⟨slots, ds, seq', he, hc, hlen, hpre⟩ :=
        hspiWriteSlot_carries transfer slotNum (i + 1) (rest.drop n) n (hspiSeqNext seq) hnl.1
      refine ⟨_ :: slots, rest.take n :: ds, seq', ?_, .cons (carries_slot seq hnl.1 hnl.2) hc, ?_,
        ?_⟩
      · simp only [ht, if_true, he, List.flatten_cons, List.length_append, List.length_take,
          Nat.min_eq_left hnl.2]
      · rw [List.length_cons]
        omega
      · rw [List.flatten_cons]
        conv_rhs => rw [← List.take_append_drop n rest]
        exact (List.prefix_append_right_inj _).2 hpre
    · exact ⟨[], [], seq, by simp [ht], .nil, Nat.zero_le _, by simp⟩

/-- A write reports the data of the slots it transferred, no more of them than it knew to be free. -/
theorem hspiWrite_carries {info : HspiInfo} {new : Option HspiStatus} {n : ℕ}
    (hs : info.slotSize = 512) (hi : info.slotCnt ≤ n) (hn : slotCntOf new ≤ n)
    (transfer : ℕ → Bool) (buf : Bytes) :
    ∃ ret slots ds info', hspiWrite info new transfer buf = (ret, slots, info') ∧
      List.Forall₂ Carries slots ds ∧ ds.flatten = buf.take ret.toNat ∧
      slots.length + info'.slotCnt ≤ n ∧ info'.slotSize = 512 := by
  unfold hspiWrite
  split_ifs with h0
  · exact ⟨-1, [], [], info, rfl, .nil, by simp, by simpa using hi, hs⟩
  set slotNum := (buf.length + (info.slotSize - 4 - 1)) / (info.slotSize - 4) % 2 ^ 16
  obtain ⟨err, info₁, hu, hi₁, hs₁⟩ := hspiRefresh_le hs hi hn slotNum
  simp only [hu, hs₁]
  by_cases he : err ≠ 0
  · rw [if_pos he]
    exact ⟨-1, [], [], info₁, rfl, .nil, by simp, by simpa using hi₁, hs₁⟩
  rw [if_neg he]
  by_cases hcnt : slotNum ≤ info₁.slotCnt
  · simp only [if_pos hcnt]
    obtain ⟨slots, ds, seq', hw, hc, hlen, hpre⟩ :=
      hspiWriteSlot_carries transfer slotNum 0 (buf.take buf.length) (512 - 4) info₁.seq (by omega)
    simp only [hw]
    refine ⟨_, _, ds, _, rfl, hc, ?_, ?_, rfl⟩
    · rw [List.take_length] at hpre
      rw [Int.toNat_natCast]
      exact List.prefix_iff_eq_take.1 hpre
    · simp only
      split_ifs <;> omega
  · simp only [if_neg hcnt]
    obtain ⟨slots, ds, seq', hw, hc, hlen, hpre⟩ := hspiWriteSlot_carries transfer info₁.slotCnt 0
      (buf.take (info₁.slotCnt * (512 - 4))) (512 - 4) info₁.seq (by omega)
    simp only [hw]
    refine ⟨_, _, ds, _, rfl, hc, ?_, ?_, rfl⟩
    · rw [Int.toNat_natCast]
      exact List.prefix_iff_eq_take.1 (hpre.trans (List.take_prefix _ _))
    · simp only
      split_ifs <;> omega

/-! ## From the host to the target -/

/-- The bytes sent are those received and those the blocks carry. -/
structure Hspi.RxInv (slots : HspiSlots) (s : Hspi) (blocks data : List Bytes) : Prop where
  rx : s.target.Rx slots.num blocks data
  slotSize : s.host.slotSize = 512
  slotCnt : s.host.slotCnt ≤ s.target.queue.length
  bytes : s.received ++ data.flatten = s.sent

theorem Hspi.RxInv.step {slots : HspiSlots} {s s' : Hspi} {i : HspiRxStep}
    (h : ∃ blocks data, s.RxInv slots blocks data) (hs : hspiRxStep slots s i = some s') :
    ∃ blocks data, s'.RxInv slots blocks data := by
  obtain ⟨blocks, data, h⟩ := h
  rcases i with new | ⟨buf, new⟩ | ⟨buf, count⟩ <;> simp only [hspiRxStep] at hs <;>
    split_ifs at hs with hg <;> simp only [Option.some.injEq] at hs <;> subst hs
  · obtain ⟨hc, hz⟩ := hspiStatusUpdate_le h.slotCnt hg
    exact ⟨blocks, data, h.rx, hz.trans h.slotSize, hc, h.bytes⟩
  · obtain ⟨ret, written, ds, host, he, hc, hd, hl, hz⟩ :=
      hspiWrite_carries h.slotSize h.slotCnt hg (fun _ => true) buf
    obtain ⟨hrx, hq⟩ := h.rx.fillAll hc (by omega)
    simp only [he]
    refine ⟨blocks ++ written, data ++ ds, hrx, hz, ?_, ?_⟩
    · simp only
      omega
    · simp only
      rw [List.flatten_append, ← List.append_assoc, h.bytes, hd]
  · obtain ⟨k, buf', q', he, htk, hrx, hq, -⟩ := h.rx.read hg.1 hg.2 buf
    simp only [he, htk]
    refine ⟨_, _, hrx, h.slotSize, h.slotCnt.trans hq, ?_⟩
    rw [← h.bytes, List.append_assoc, ← List.flatten_append, List.take_append_drop]

theorem Hspi.RxInv.run {slots : HspiSlots} {active : Bool} {is : List HspiRxStep} {s : Hspi}
    (h : run (hspiRxStep slots) (slots.start active) is = some s) :
    ∃ blocks data, s.RxInv slots blocks data :=
  run_inv (P := fun s => ∃ blocks data, Hspi.RxInv slots s blocks data)
    (fun _ _ _ h hs => Hspi.RxInv.step h hs)
    ⟨[], [], HspiQueue.Rx.start slots, rfl, Nat.zero_le _, rfl⟩ h

/-- What the target reads is what the host wrote: always a first part of it, all of it where
nothing is in a slot, and a read that sees every slot and has room for them brings the rest. -/
theorem hspi_rx_stream {slots : HspiSlots} {active : Bool} {is : List HspiRxStep} {s : Hspi}
    (h : run (hspiRxStep slots) (slots.start active) is = some s) :
    s.received <+: s.sent ∧ s.target.reset = false ∧
      (s.target.fifo.cnt = 0 → s.target.total = s.target.queue.length → s.received = s.sent) ∧
      ∀ buf : Bytes, 508 * slots.num ≤ buf.length →
        ∃ s', hspiRxStep slots s (.read buf s.target.queue.length) = some s' ∧
          s'.received = s.sent := by
  obtain ⟨blocks, data, hi⟩ := Hspi.RxInv.run h
  have hc := hi.rx.count
  have hl := hi.rx.carries.length_eq
  refine ⟨⟨_, hi.bytes⟩, hi.rx.reset, ?_, ?_⟩
  · intro h0 ht
    have hd : data = [] := List.length_eq_zero_iff.1 (by omega)
    simpa [hd] using hi.bytes
  · intro buf hb
    obtain ⟨k, buf', q', he, htk, -, -, hall⟩ := hi.rx.read le_rfl hi.rx.lent buf
    refine ⟨{ s with target := q', received := s.received ++ (data.take k).flatten }, ?_, ?_⟩
    · simp only [hspiRxStep, he, htk]
      rw [if_pos ⟨le_rfl, hi.rx.lent⟩]
    · simp only
      rw [hall rfl hb, hl, List.take_length, hi.bytes]

theorem hspi_rx_stream_two : ∃ s, run (hspiRxStep twoSlots) (twoSlots.start true)
      [.read (List.replicate 508 0) 0, .write [1, 2, 3] (some ⟨2, 128, 256⟩),
        .write (List.replicate 600 4) (some ⟨1, 128, 128⟩), .read (List.replicate 508 0) 1] =
      some s ∧
    s.received = [1, 2, 3] ∧ s.sent = [1, 2, 3] ++ List.replicate 508 4 ∧
    s.received <+: s.sent := by
  obtain ⟨s, hs, hb⟩ := Option.map_eq_some_iff.1 (show (run (hspiRxStep twoSlots)
      (twoSlots.start true) [.read (List.replicate 508 0) 0,
        .write [1, 2, 3] (some ⟨2, 128, 256⟩),
        .write (List.replicate 600 4) (some ⟨1, 128, 128⟩), .read (List.replicate 508 0) 1]).map
      (fun s => (s.received, s.sent)) =
    some ([1, 2, 3], [1, 2, 3] ++ List.replicate 508 4) by decide +kernel)
  obtain ⟨hr, hse⟩ := Prod.mk.inj hb
  exact ⟨s, hs, hr, hse, (hspi_rx_stream hs).1⟩

/-! ## The target alone -/

/-- Whatever the slots hold, the loop takes whole ones. -/
theorem hifHspiReadSlots_whole : ∀ (fuel : ℕ) {q : HspiQueue} {n : ℕ} (buf : Bytes) (i : ℕ),
    q.fifo.Wf → q.fifo.cnt = 512 * n → ∃ ret buf' k seq reset, k ≤ n ∧
      hifHspiReadSlots_ fuel q buf i =
        (ret, buf', { q with fifo := q.fifo.popped (512 * k), seq := seq, reset := reset })
  | 0, q, n, buf, i, hw, hn => by
    refine ⟨i, buf, 0, q.seq, q.reset, Nat.zero_le _, ?_⟩
    rw [Nat.mul_zero, HifFifo.popped_zero hw]
    rfl
  | fuel + 1, q, n, buf, i, hw, hn => by
    unfold hifHspiReadSlots_
    by_cases hroom : buf.length - i < 508
    · refine ⟨i, buf, 0, q.seq, q.reset, Nat.zero_le _, ?_⟩
      rw [if_pos hroom, Nat.mul_zero, HifFifo.popped_zero hw]
    rw [if_neg hroom, HifFifo.hifFifoRead_eq hw]
    rcases n with _ | n
    · refine ⟨i, buf, 0, q.seq, q.reset, le_rfl, ?_⟩
      simp only [hn, Nat.mul_zero, Nat.min_zero, HifFifo.popped_zero hw]
      rw [if_pos (by decide)]
    have hcnt : 512 ≤ q.fifo.cnt := by omega
    have hw₄ := hw.popped (k := 4) (by omega)
    have hmin : min 508 (q.fifo.popped 4).cnt = 508 := by
      simp only [HifFifo.popped]
      omega
    have hpop : (q.fifo.popped 4).popped 508 = q.fifo.popped 512 := HifFifo.popped_popped 4
    have hnext : (q.fifo.popped 512).cnt = 512 * n := by
      simp only [HifFifo.popped]
      omega
    simp only [Nat.min_eq_left (show 4 ≤ q.fifo.cnt by omega), ne_eq, not_true_eq_false, if_false,
      if_true, HifFifo.hifFifoRead_eq hw₄, hmin, hpop]
    set hdr := hspiHdrOf (q.fifo.contents.take 4)
    by_cases hbad : ¬ hdr.start = bytes "HS" ∨ 508 < hdr.len
    · rw [if_pos hbad]
      obtain ⟨ret, buf', k, seq, reset, hk, he⟩ := hifHspiReadSlots_whole fuel
        (q := { q with fifo := q.fifo.popped 512, reset := true }) buf i (hw.popped hcnt) hnext
      refine ⟨ret, buf', k + 1, seq, reset, by omega, ?_⟩
      rw [he, HifFifo.popped_popped, Nat.mul_succ, Nat.add_comm 512]
    · rw [if_neg hbad]
      obtain ⟨ret, buf', k, seq, reset, hk, he⟩ := hifHspiReadSlots_whole fuel
        (q := { q with fifo := q.fifo.popped 512, seq := hspiSeqNext hdr.seq }) (memcpy buf i _)
        (i + hdr.len) (hw.popped hcnt) hnext
      refine ⟨ret, buf', k + 1, seq, reset, by omega, ?_⟩
      rw [he, HifFifo.popped_popped, Nat.mul_succ, Nat.add_comm 512]

/-- A read takes whole slots and lends the free ones. -/
theorem HspiQueue.Lent.read {q : HspiQueue} {num filled : ℕ} (h : q.Lent num filled) {count : ℕ}
    (hq : q.queue.length ≤ count) (ht : count ≤ q.total) (buf : Bytes) :
    ∃ ret buf' q' k m, hifHspiRead_ num q count buf = (ret, buf', q') ∧ k ≤ filled ∧
      512 * k ≤ q.fifo.size ∧ q'.Lent num (filled - k) ∧
      q'.fifo.popIdx = (q.fifo.popIdx + 512 * k) % 2 ^ 32 ∧
      q'.queue = q.queue ++
        (List.range' (filled + q.queue.length) m).map q.fifo.slotAddr := by
  unfold hifHspiRead_
  by_cases h0 : buf.length = 0
  · refine ⟨0, buf, q, 0, 0, by rw [if_pos h0], Nat.zero_le _, Nat.zero_le _, h, ?_, by simp⟩
    rw [Nat.mul_zero, Nat.add_zero, Nat.mod_eq_of_lt h.slotted.wf.pop_lt]
  obtain ⟨fifo₁, he₁, h₁, hpop₁, hbuf₁⟩ := h.counted hq ht
  set q₁ : HspiQueue := { q with fifo := fifo₁, total := count } with hq₁
  have hc₁ := h₁.count
  obtain ⟨ret, buf', k, seq, reset, hk, he⟩ := hifHspiReadSlots_whole (q₁.fifo.cnt + 1)
    (n := q₁.fifo.cnt / 512) buf 0 h₁.slotted.wf (by omega)
  obtain ⟨hkf, h₂⟩ := h₁.taken (k := k) (by omega) seq reset
  set q₂ : HspiQueue := { q₁ with fifo := q₁.fifo.popped (512 * k), seq := seq, reset := reset }
    with hq₂
  obtain ⟨hq₃, h₃⟩ := h₂.lend (h₂.update rfl)
  have hsize : fifo₁.size = q.fifo.size := h₁.slotted.size.trans h.slotted.size.symm
  have haddr : ∀ m, q₂.fifo.slotAddr (filled - k + m) = q.fifo.slotAddr (filled + m) := by
    intro m
    rw [hq₂, HifFifo.slotAddr_popped h₁.slotted, HifFifo.slotAddr, HifFifo.slotAddr, hpop₁, hsize,
      ← Nat.add_assoc, Nat.add_sub_cancel' hkf]
  have hqueue : ∀ m, (List.range' (filled - k + q₂.queue.length) m).map q₂.fifo.slotAddr =
      (List.range' (filled + q.queue.length) m).map q.fifo.slotAddr := by
    intro m
    rw [List.range'_eq_map_range, List.range'_eq_map_range, List.map_map, List.map_map]
    refine List.map_congr_left fun i _ => ?_
    simp only [Function.comp_apply, Nat.add_assoc]
    exact haddr _
  refine ⟨ret, buf', _, k, _, ?_, hkf, ?_, h₃, ?_, congrArg (q.queue ++ ·) (hqueue _)⟩
  · rw [if_neg h0]
    simp only [he₁, he, hq₃]
  · have hcnt : q₁.fifo.cnt ≤ fifo₁.size := h₁.slotted.wf.cnt_le
    rw [← hsize]
    omega
  · rw [← hpop₁]
    rfl

/-- The address of the `i`-th slot that goes through the ring. -/
def ringAddr (num i : ℕ) : ℕ := 512 * (i % num)

/-- What was posted, filled and read so far are the first `p`, `f` and `c` slots of the ring. -/
structure HspiRxq.Owned (s : HspiRxq) (num p f c : ℕ) : Prop where
  posted : s.posted = (List.range p).map (ringAddr num)
  filled : s.filled = (List.range f).map (ringAddr num)
  consumed : s.consumed = (List.range c).map (ringAddr num)
  le : c ≤ f
  count : p = f + s.target.queue.length
  pop : s.target.fifo.popIdx = 512 * c % 2 ^ 32
  lent : s.target.Lent num (f - c)

namespace HspiRxq.Owned

variable {s : HspiRxq} {num p f c : ℕ}

theorem start (slots : HspiSlots) :
    HspiRxq.Owned ⟨slots.open, [], [], []⟩ slots.num 0 0 0 :=
  ⟨rfl, rfl, rfl, le_rfl, rfl, rfl, .start slots⟩

theorem slotAddr (h : s.Owned num p f c) (m : ℕ) :
    s.target.fifo.slotAddr m = ringAddr num (c + m) := by
  rw [HifFifo.slotAddr, h.pop, Nat.add_mod, Nat.mod_mod_of_dvd _ h.lent.slotted.wf.dvd,
    ← Nat.add_mod, h.lent.slotted.size, ← Nat.mul_add, Nat.mul_mod_mul_left]
  rfl

theorem map_slotAddr (h : s.Owned num p f c) (i n : ℕ) :
    (List.range' i n).map s.target.fifo.slotAddr = (List.range' (c + i) n).map (ringAddr num) := by
  have hs : s.target.fifo.slotAddr = ringAddr num ∘ (c + ·) := funext h.slotAddr
  rw [hs, ← List.map_map, List.map_add_range']

theorem fill (h : s.Owned num p f c) {slot : Bytes} {addr : ℕ} {queue : List ℕ}
    (hs : slot.length = 512) (hq : s.target.queue = addr :: queue) :
    HspiRxq.Owned { s with target := s.target.fill slot, filled := s.filled ++ [addr] } num p
      (f + 1) c := by
  have hle := h.le
  obtain ⟨haddr, hlent⟩ := h.lent.fill hs hq
  rw [h.slotAddr, Nat.add_sub_cancel' hle] at haddr
  have hfill : (s.target.fill slot).queue = queue ∧
      (s.target.fill slot).fifo.popIdx = s.target.fifo.popIdx := by
    rw [HspiQueue.fill, hq]
    exact ⟨rfl, rfl⟩
  refine ⟨h.posted, ?_, h.consumed, by omega, ?_, hfill.2.trans h.pop, ?_⟩
  · simp only
    rw [h.filled, haddr, List.range_succ, List.map_append, List.map_singleton]
  · have := h.count
    rw [hq, List.length_cons] at this
    simp only
    rw [hfill.1]
    omega
  · rw [Nat.sub_add_comm hle]
    exact hlent

theorem read (h : s.Owned num p f c) {count : ℕ} (hq : s.target.queue.length ≤ count)
    (ht : count ≤ s.target.total) (buf : Bytes) : ∃ k m, HspiRxq.Owned
      { s with
        target := (hifHspiRead_ num s.target count buf).2.2
        posted := s.posted ++
          (hifHspiRead_ num s.target count buf).2.2.queue.drop s.target.queue.length
        consumed := s.consumed ++
          s.target.fifo.slotsTo (hifHspiRead_ num s.target count buf).2.2.fifo }
      num (p + m) f (c + k) := by
  have hle := h.le
  have hcount := h.count
  obtain ⟨ret, buf', q', k, m, he, hk, hks, hlent, hpop, hqueue⟩ := h.lent.read hq ht buf
  have hlt := h.lent.slotted.wf.lt
  have hplt := h.lent.slotted.wf.pop_lt
  refine ⟨k, m, ?_, h.filled, ?_, by omega, ?_, ?_, ?_⟩ <;> simp only [he]
  · rw [hqueue, List.drop_left, h.map_slotAddr, h.posted, ← List.map_append,
      ← Nat.add_assoc, Nat.add_sub_cancel' hle, ← hcount, List.range_eq_range',
      List.range_eq_range', ← List.range'_append_1, Nat.zero_add]
  · have hn : (q'.fifo.popIdx + 2 ^ 32 - s.target.fifo.popIdx) % 2 ^ 32 / 512 = k := by
      rw [hpop]
      omega
    have hs : s.target.fifo.slotsTo q'.fifo = (List.range' 0 k).map s.target.fifo.slotAddr := by
      rw [HifFifo.slotsTo, hn, List.range_eq_range']
      rfl
    rw [hs, h.map_slotAddr, h.consumed, ← List.map_append, List.range_eq_range',
      List.range_eq_range', ← List.range'_append_1, Nat.zero_add, Nat.add_zero]
  · rw [hqueue, List.length_append, List.length_map, List.length_range']
    omega
  · rw [hpop, h.pop]
    omega
  · rw [← Nat.sub_sub]
    exact hlent

theorem step {i : HspiRxqStep} {s' : HspiRxq} (h : ∃ p f c, s.Owned num p f c)
    (hs : hspiRxqStep num s i = some s') : ∃ p f c, s'.Owned num p f c := by
  obtain ⟨p, f, c, h⟩ := h
  rcases i with slot | ⟨buf, count⟩
  · rcases hq : s.target.queue with _ | ⟨addr, queue⟩ <;> simp only [hspiRxqStep, hq] at hs
    · simp at hs
    · split_ifs at hs with hl
      obtain rfl := Option.some.inj hs
      exact ⟨_, _, _, h.fill hl hq⟩
  · simp only [hspiRxqStep] at hs
    split_ifs at hs with hg
    obtain rfl := Option.some.inj hs
    obtain ⟨k, m, h'⟩ := h.read hg.1 hg.2 buf
    exact ⟨_, _, _, h'⟩

theorem run {slots : HspiSlots} {is : List HspiRxqStep}
    (h : run (hspiRxqStep slots.num) ⟨slots.open, [], [], []⟩ is = some s) :
    ∃ p f c, s.Owned slots.num p f c :=
  run_inv (P := fun s => ∃ p f c, HspiRxq.Owned s slots.num p f c)
    (fun _ _ _ h hs => HspiRxq.Owned.step h hs) ⟨0, 0, 0, HspiRxq.Owned.start slots⟩ h

/-- The slots not yet read are as many as the ring has at most. -/
theorem room (h : s.Owned num p f c) : p - c ≤ min num 63 := by
  have := h.le
  have := h.count
  have := h.lent.count
  have := h.lent.room
  omega

end HspiRxq.Owned

theorem mod_ne_of_lt {num x y : ℕ} (h : x < y) (hn : y < x + num) : x % num ≠ y % num := by
  intro he
  have hd := Nat.dvd_of_mod_eq_zero (Nat.sub_mod_eq_zero_of_mod_eq he.symm)
  have := Nat.le_of_dvd (by omega) hd
  omega

/-- Slots that go through the ring in a row, no more than it has, are different ones. -/
theorem nodup_ringAddr {num i n : ℕ} (h : n ≤ num) :
    ((List.range' i n).map (ringAddr num)).Nodup := by
  refine List.Nodup.map_on (fun x hx y hy hxy => ?_) List.nodup_range'
  rw [List.mem_range'_1] at hx hy
  simp only [ringAddr] at hxy
  have hm : x % num = y % num := by omega
  by_contra hne
  rcases Nat.lt_or_gt_of_ne hne with hlt | hlt
  · exact mod_ne_of_lt hlt (by omega) hm
  · exact mod_ne_of_lt hlt (by omega) hm.symm

/-- In every state the slots read are the first of those filled, which are the first of those
posted, in the order of the ring; the slots filled and not read and those posted and not filled are
different ones, no more of them than the ring has or the device counts, and the FIFO's indices count
them. -/
theorem hspi_rxq_ownership {slots : HspiSlots} {is : List HspiRxqStep} {s : HspiRxq}
    (h : run (hspiRxqStep slots.num) ⟨slots.open, [], [], []⟩ is = some s) :
    s.filled.length - s.consumed.length + s.target.queue.length ≤ min slots.num 63 ∧
      (s.filled.drop s.consumed.length ++ s.target.queue).Nodup ∧
      s.consumed <+: s.filled ∧ s.filled ++ s.target.queue = s.posted ∧
      s.posted = (List.range s.posted.length).map (fun i => 512 * (i % slots.num)) ∧
      s.target.fifo.popIdx = 512 * s.consumed.length % 2 ^ 32 ∧
      (s.target.fifo.cnt + 512 * s.target.total : ℤ) =
        512 * (s.filled.length - s.consumed.length + s.target.queue.length) := by
  obtain ⟨p, f, c, ho⟩ := HspiRxq.Owned.run h
  have hle := ho.le
  have hcount := ho.count
  have hroom := ho.room
  have hlc := ho.lent.count
  have hp : s.posted.length = p := by rw [ho.posted, List.length_map, List.length_range]
  have hf : s.filled.length = f := by rw [ho.filled, List.length_map, List.length_range]
  have hc : s.consumed.length = c := by rw [ho.consumed, List.length_map, List.length_range]
  have hqueue := ho.lent.queue
  rw [ho.map_slotAddr, Nat.add_sub_cancel' hle] at hqueue
  have hpq : s.filled ++ s.target.queue = s.posted := by
    rw [ho.filled, ho.posted, hqueue, ← List.map_append, List.range_eq_range', hcount,
      List.range_eq_range', ← List.range'_append_1, Nat.zero_add]
  rw [hf, hc, hp]
  refine ⟨by omega, ?_, ?_, hpq, ho.posted, ho.pop, by omega⟩
  · rw [← List.drop_append_of_le_length (by omega), hpq, ho.posted, ← List.map_drop,
      List.range_eq_range', List.drop_range', Nat.mul_one]
    exact nodup_ringAddr (by omega)
  · rw [ho.consumed, ho.filled]
    exact (List.prefix_iff_eq_take.2 (by simp [List.take_range, hle])).map _

theorem hspi_rxq_ownership_two : ∃ s, run (hspiRxqStep 2) ⟨twoSlots.open, [], [], []⟩
      [.read [0] 0, .fill (List.replicate 512 7), .read (List.replicate 600 0) 1,
        .fill (List.replicate 512 1)] = some s ∧
    s.posted = [0, 512, 0] ∧ s.filled = [0, 512] ∧ s.consumed = [0] ∧
    s.filled.length - s.consumed.length + s.target.queue.length ≤ 2 := by
  obtain ⟨s, hs, hb⟩ := Option.map_eq_some_iff.1 (show (run (hspiRxqStep 2)
      ⟨twoSlots.open, [], [], []⟩ [.read [0] 0, .fill (List.replicate 512 7),
        .read (List.replicate 600 0) 1, .fill (List.replicate 512 1)]).map
      (fun s => (s.posted, s.filled, s.consumed)) = some ([0, 512, 0], [0, 512], [0]) by
    decide +kernel)
  simp only [Prod.mk.injEq] at hb
  have hroom := (@hspi_rxq_ownership twoSlots _ _ hs).1
  exact ⟨s, hs, hb.1, hb.2.1, hb.2.2, hroom.trans (by decide)⟩

end NrcAtcmd
