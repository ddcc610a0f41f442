import NrcAtcmd.HifFifo
import NrcAtcmd.Lib.Ring

/-!
# The FIFO is a bounded queue of bytes

What the FIFO holds is the first `cnt` bytes of its buffer rotated to the pop index
(`HifFifo.contents`). Its copy loops end at the end of the buffer and start again at the beginning,
so a read takes the oldest bytes and a write adds the first ones that fit, whatever the indices have
grown to, as long as the size divides the 2^32 at which they wrap.
-/

namespace NrcAtcmd

open Memory (memcpy take_memcpy length_memcpy)
open Ring (rotate_mod_of_dvd take_rotate take_drop_rotate rotate_memcpy)

namespace HifFifo

/-- What every operation keeps. -/
structure Wf (f : HifFifo) : Prop where
  length : f.buffer.length = f.size
  pos : 0 < f.size
  lt : f.size < 2 ^ 32
  dvd : f.size ∣ 2 ^ 32
  cnt_le : f.cnt ≤ f.size
  pop_lt : f.popIdx < 2 ^ 32
  push_lt : f.pushIdx < 2 ^ 32
  push : f.pushIdx % f.size = (f.popIdx + f.cnt) % f.size

/-- The buffer from the pop index on. -/
def ring (f : HifFifo) : Bytes := f.buffer.rotate f.popIdx

def contents (f : HifFifo) : Bytes := f.ring.take f.cnt

/-- The FIFO after its `k` oldest bytes were taken. -/
def popped (f : HifFifo) (k : ℕ) : HifFifo :=
  { f with popIdx := (f.popIdx + k) % 2 ^ 32, cnt := f.cnt - k }

/-- The FIFO after `k` bytes were added, over the memory they left. -/
def pushed (f : HifFifo) (buffer : Bytes) (k : ℕ) : HifFifo :=
  { f with buffer := buffer, pushIdx := (f.pushIdx + k) % 2 ^ 32, cnt := f.cnt + k }

variable {f : HifFifo} {b data : Bytes} {k len : ℕ}

theorem Wf.create (hp : 0 < b.length) (hl : b.length < 2 ^ 32) (hd : b.length ∣ 2 ^ 32) :
    (hifFifoCreate_ b).Wf :=
  ⟨rfl, hp, hl, hd, by simp [hifFifoCreate_], by simp [hifFifoCreate_], by simp [hifFifoCreate_],
    rfl⟩

@[simp] theorem contents_create : (hifFifoCreate_ b).contents = [] := by
  simp [contents, hifFifoCreate_]

theorem Wf.length_ring (h : f.Wf) : f.ring.length = f.size := by
  simp [ring, h.length]

theorem Wf.length_contents (h : f.Wf) : f.contents.length = f.cnt := by
  rw [contents, List.length_take, h.length_ring, Nat.min_eq_left h.cnt_le]

/-! ## Taking bytes out -/

theorem ring_popped (h : f.Wf) (k : ℕ) : (f.popped k).ring = f.ring.rotate k := by
  have hd : f.buffer.length ∣ 2 ^ 32 := h.length ▸ h.dvd
  simp only [ring, popped]
  rw [rotate_mod_of_dvd hd, List.rotate_rotate]

theorem contents_popped (h : f.Wf) (hk : k ≤ f.cnt) :
    (f.popped k).contents = f.contents.drop k := by
  have hc : f.cnt ≤ f.ring.length := by rw [h.length_ring]; exact h.cnt_le
  rw [contents, ring_popped h, contents, ← take_rotate hk hc]
  rfl

theorem Wf.popped (h : f.Wf) (hk : k ≤ f.cnt) : (f.popped k).Wf where
  length := h.length
  pos := h.pos
  lt := h.lt
  dvd := h.dvd
  cnt_le := (Nat.sub_le _ _).trans h.cnt_le
  pop_lt := Nat.mod_lt _ (by decide)
  push_lt := h.push_lt
  push := by
    simp only [HifFifo.popped]
    rw [h.push, Nat.add_mod ((f.popIdx + k) % 2 ^ 32), Nat.mod_mod_of_dvd _ h.dvd, ← Nat.add_mod]
    congr 1
    omega

theorem popped_popped (j : ℕ) : (f.popped j).popped k = f.popped (j + k) := by
  simp only [HifFifo.popped, HifFifo.mk.injEq, true_and, and_true]
  omega

theorem popped_zero (h : f.Wf) : f.popped 0 = f := by
  have := h.pop_lt
  simp only [HifFifo.popped, Nat.add_zero, Nat.sub_zero, Nat.mod_eq_of_lt this]

theorem hifFifoPop_eq (h : f.Wf) : ∀ (fuel len popIdx : ℕ), len ≤ fuel → len ≤ f.size →
    popIdx < 2 ^ 32 →
    hifFifoPop f fuel popIdx len = ((f.buffer.rotate popIdx).take len, (popIdx + len) % 2 ^ 32)
  | 0, len, popIdx, hf, _, hp => by
    obtain rfl : len = 0 := by omega
    rw [Nat.add_zero, Nat.mod_eq_of_lt hp]
    rfl
  | fuel + 1, len, popIdx, hf, hl, hp => by
    have hd : f.buffer.length ∣ 2 ^ 32 := h.length ▸ h.dvd
    have hm : popIdx % f.size < f.size := Nat.mod_lt _ h.pos
    unfold hifFifoPop
    split_ifs with h0
    · rw [h0, Nat.add_zero, Nat.mod_eq_of_lt hp]
      rfl
    · set n := min (f.size - popIdx % f.size) len with hn
      have hn0 : 0 < n := by omega
      have hnl : n ≤ len := by omega
      have hrest : (f.buffer.rotate ((popIdx + n) % 2 ^ 32)).take (len - n) =
          ((f.buffer.rotate popIdx).take len).drop n := by
        rw [rotate_mod_of_dvd hd, ← List.rotate_rotate,
          take_rotate hnl (by rw [List.length_rotate, h.length]; exact hl)]
      have hpart : (f.buffer.drop (popIdx % f.size)).take n =
          ((f.buffer.rotate popIdx).take len).take n := by
        have := take_drop_rotate (b := f.buffer) (q := popIdx) (j := 0) (k := n)
          (by rw [h.length, Nat.add_zero]; omega) (by rw [h.length]; omega)
        rw [h.length, Nat.add_zero, List.drop_zero] at this
        rw [this, List.take_take, Nat.min_eq_left hnl]
      simp only [← hn, hifFifoPop_eq h fuel (len - n) _ (by omega) (by omega)
        (Nat.mod_lt _ (show 0 < 2 ^ 32 by decide)), hrest, hpart, List.take_append_drop,
        Prod.mk.injEq, true_and]
      omega

theorem hifFifoRead_eq (h : f.Wf) (buf : Bool) (len : ℕ) : hifFifoRead_ f buf len =
    (min len f.cnt, if buf then f.contents.take len else [], f.popped (min len f.cnt)) := by
  unfold hifFifoRead_
  split_ifs with h0 hb
  · simp [h0, popped_zero h]
  · simp [h0, popped_zero h]
  · simp only [hifFifoFillSize_]
    rw [hifFifoPop_eq h _ _ _ le_rfl ((Nat.min_le_right _ _).trans h.cnt_le) h.pop_lt, contents,
      List.take_take]
    simp only [popped, ring]
  · simp only [hifFifoFillSize_, popped]

/-! ## Adding bytes -/

theorem contents_pushed : (f.pushed b k).contents = (b.rotate f.popIdx).take (f.cnt + k) := rfl

theorem Wf.pushed (h : f.Wf) (hb : b.length = f.size) (hk : f.cnt + k ≤ f.size) :
    (f.pushed b k).Wf where
  length := hb
  pos := h.pos
  lt := h.lt
  dvd := h.dvd
  cnt_le := hk
  pop_lt := h.pop_lt
  push_lt := Nat.mod_lt _ (by decide)
  push := by
    simp only [HifFifo.pushed]
    rw [Nat.mod_mod_of_dvd _ h.dvd, Nat.add_mod, h.push, ← Nat.add_mod, Nat.add_assoc]

/-- The copy loop keeps the ring before the data and leaves the data behind it. -/
theorem hifFifoPush_eq (h : f.Wf) : ∀ (fuel : ℕ) (data b : Bytes) (pushIdx j : ℕ),
    data.length ≤ fuel → b.length = f.size → j + data.length ≤ f.size → pushIdx < 2 ^ 32 →
    pushIdx % f.size = (f.popIdx + j) % f.size →
    ∃ b', hifFifoPush f fuel b pushIdx data = (b', (pushIdx + data.length) % 2 ^ 32) ∧
      b'.length = f.size ∧
      (b'.rotate f.popIdx).take (j + data.length) = (b.rotate f.popIdx).take j ++ data
  | 0, data, b, pushIdx, j, hf, hb, _, hp, _ => by
    obtain rfl : data = [] := List.length_eq_zero_iff.1 (by omega)
    refine ⟨b, ?_, hb, by simp⟩
    rw [List.length_nil, Nat.add_zero, Nat.mod_eq_of_lt hp]
    rfl
  | fuel + 1, data, b, pushIdx, j, hf, hb, hj, hp, hpj => by
    unfold hifFifoPush
    split_ifs with h0
    · subst h0
      refine ⟨b, ?_, hb, by simp⟩
      rw [List.length_nil, Nat.add_zero, Nat.mod_eq_of_lt hp]
    · have hm : pushIdx % f.size < f.size := Nat.mod_lt _ h.pos
      have hl : 0 < data.length := List.length_pos_iff.2 h0
      set n := min (f.size - pushIdx % f.size) data.length with hn
      have hnl : (data.take n).length = n := by rw [List.length_take]; omega
      have hw : (f.popIdx + j) % b.length + (data.take n).length ≤ b.length := by
        rw [hb, hnl, ← hpj]; omega
      set b₁ := memcpy b (pushIdx % f.size) (data.take n) with hb₁
      have hr : b₁.rotate f.popIdx = memcpy (b.rotate f.popIdx) j (data.take n) := by
        rw [← rotate_memcpy hw (by rw [hnl, hb]; omega), hb₁, hb, hpj]
      have hlb : b₁.length = f.size := by
        rw [hb₁, length_memcpy (by rw [hnl, hb]; omega), hb]
      obtain ⟨b', he, hlb', ht⟩ := hifFifoPush_eq h fuel (data.drop n) b₁ ((pushIdx + n) % 2 ^ 32)
        (j + n) (by rw [List.length_drop]; omega) hlb (by rw [List.length_drop]; omega)
        (Nat.mod_lt _ (by decide))
        (by rw [Nat.mod_mod_of_dvd _ h.dvd, Nat.add_mod, hpj, ← Nat.add_mod, Nat.add_assoc])
      refine ⟨b', ?_, hlb', ?_⟩
      · simp only
        rw [he, List.length_drop]
        congr 1
        omega
      · have hc : (memcpy (b.rotate f.popIdx) j (data.take n)).take (j + (data.take n).length) =
            (b.rotate f.popIdx).take j ++ data.take n :=
          take_memcpy (by rw [List.length_rotate, hb]; omega)
        rw [hnl] at hc
        rw [show j + data.length = j + n + (data.drop n).length by rw [List.length_drop]; omega, ht,
          hr, hc, List.append_assoc, List.take_append_drop]

theorem hifFifoWrite_none (h : f.Wf) (len : ℕ) : hifFifoWrite_ f none len =
    (min len (f.size - f.cnt), f.pushed f.buffer (min len (f.size - f.cnt))) := by
  have := h.push_lt
  have := h.cnt_le
  have := h.lt
  unfold hifFifoWrite_
  split_ifs with h0
  · rw [h0, Nat.zero_min, pushed, Nat.add_zero, Nat.add_zero, Nat.mod_eq_of_lt h.push_lt]
  · simp only [hifFifoFreeSize_, pushed, Prod.mk.injEq, true_and, HifFifo.mk.injEq, and_true]
    exact Nat.mod_eq_of_lt (by omega)

theorem hifFifoWrite_some (h : f.Wf) (hk : k = min data.length (f.size - f.cnt)) :
    ∃ b, hifFifoWrite_ f (some data) data.length = (k, f.pushed b k) ∧ b.length = f.size ∧
      (f.pushed b k).contents = f.contents ++ data.take k := by
  have := h.push_lt
  have := h.cnt_le
  have := h.lt
  unfold hifFifoWrite_
  split_ifs with h0
  · obtain rfl : k = 0 := by omega
    refine ⟨f.buffer, ?_, h.length, ?_⟩
    · simp only [pushed, Nat.add_zero, Nat.mod_eq_of_lt h.push_lt]
    · rw [contents_pushed, List.take_zero, List.append_nil]
      rfl
  · have hl : (data.take k).length = k := by rw [List.length_take]; omega
    obtain ⟨b, he, hb, ht⟩ := hifFifoPush_eq h k (data.take k) f.buffer f.pushIdx f.cnt hl.le
      h.length (by omega) h.push_lt h.push
    refine ⟨b, ?_, hb, ?_⟩
    · rw [hl] at he
      simp only [hifFifoFreeSize_, ← hk, he, pushed, Prod.mk.injEq, true_and, HifFifo.mk.injEq,
        and_true]
      exact Nat.mod_eq_of_lt (by omega)
    · rw [hl] at ht
      rw [contents_pushed, ht]
      rfl

/-! ## Bytes added at the end -/

/-- Nothing was taken out and `w` was added. -/
structure Grown (f f' : HifFifo) (w : Bytes) : Prop where
  wf : f'.Wf
  size : f'.size = f.size
  pop : f'.popIdx = f.popIdx
  cnt : f'.cnt = f.cnt + w.length
  contents : f'.contents = f.contents ++ w

variable {f' f'' : HifFifo} {w w' : Bytes}

theorem Grown.refl (h : f.Wf) : f.Grown f [] := ⟨h, rfl, rfl, rfl, by simp⟩

theorem Grown.trans (h : f.Grown f' w) (h' : f'.Grown f'' w') : f.Grown f'' (w ++ w') where
  wf := h'.wf
  size := h'.size.trans h.size
  pop := h'.pop.trans h.pop
  cnt := by rw [h'.cnt, h.cnt, List.length_append, Nat.add_assoc]
  contents := by rw [h'.contents, h.contents, List.append_assoc]

theorem write_grown (h : f.Wf) (data : Bytes) (hd : f.cnt + data.length ≤ f.size) :
    ∃ f', hifFifoWrite_ f (some data) data.length = (data.length, f') ∧ f.Grown f' data := by
  obtain ⟨b, he, hb, hc⟩ := hifFifoWrite_some h
    (show data.length = min data.length (f.size - f.cnt) by omega)
  rw [List.take_length] at hc
  exact ⟨_, he, h.pushed hb hd, rfl, rfl, rfl, hc⟩

/-- A row of writes is whole if there is room for all of it. -/
theorem whole_of_room : ∀ (ws : List (Option Bytes × ℕ)) {f : HifFifo}, f.size < 2 ^ 32 →
    f.cnt + (ws.map Prod.snd).sum ≤ f.size → f.Whole ws
  | [], _, _, _ => trivial
  | (buf, len) :: ws, f, hlt, h => by
    rw [List.map_cons, List.sum_cons] at h
    have hput : (f.put (buf, len)).size = f.size ∧ (f.put (buf, len)).cnt = f.cnt + len := by
      simp only [put, hifFifoWrite_, hifFifoFreeSize_]
      split_ifs with h0
      · exact ⟨rfl, by rw [h0, Nat.add_zero]⟩
      · refine ⟨rfl, ?_⟩
        simp only
        rw [Nat.mod_eq_of_lt (by omega)]
        omega
    refine ⟨?_, whole_of_room ws (by rw [hput.1]; exact hlt) (by rw [hput.1, hput.2]; omega)⟩
    simp only [hifFifoWrite_, hifFifoFreeSize_]
    split_ifs <;> simp only <;> omega

theorem skip_grown (h : f.Wf) (len : ℕ) (hd : f.cnt + len ≤ f.size) :
    ∃ f' w, hifFifoWrite_ f none len = (len, f') ∧ w.length = len ∧ f.Grown f' w := by
  have hm : min len (f.size - f.cnt) = len := by omega
  have hr := h.length_ring
  refine ⟨f.pushed f.buffer len, (f.ring.drop f.cnt).take len, ?_, ?_, ?_⟩
  · rw [hifFifoWrite_none h len, hm]
  · rw [List.length_take, List.length_drop]
    omega
  · refine ⟨h.pushed h.length hd, rfl, rfl, ?_, ?_⟩
    · simp only [HifFifo.pushed, List.length_take, List.length_drop]
      omega
    · rw [contents_pushed, List.take_add]
      rfl

/-! ## The operations -/

/-- A byte is put as a block of one. -/
theorem hifFifoPutc_eq (h : f.Wf) (hk : f.cnt < f.size) (c : UInt8) :
    ∃ b, hifFifoPutc_ f c = f.pushed b 1 ∧ b.length = f.size ∧
      (f.pushed b 1).contents = f.contents ++ [c] := by
  obtain ⟨b, he, hb, hc⟩ := hifFifoWrite_some h
    (show 1 = min [c].length (f.size - f.cnt) by simp only [List.length_singleton]; omega)
  have hm : f.pushIdx % f.size < f.buffer.length := by
    rw [h.length]
    exact Nat.mod_lt _ h.pos
  have hput : hifFifoWrite_ f (some [c]) 1 = (1, hifFifoPutc_ f c) := by
    have hlen : min 1 (f.size - f.cnt) = 1 := by omega
    have hpush : min (f.size - f.pushIdx % f.size) 1 = 1 := by
      rw [h.length] at hm
      omega
    have hset : memcpy f.buffer (f.pushIdx % f.size) [c] =
        f.buffer.set (f.pushIdx % f.size) c := by
      rw [memcpy, List.set_eq_take_append_cons_drop, if_pos hm, List.append_assoc]
      rfl
    simp [hifFifoWrite_, hifFifoFreeSize_, hlen, hifFifoPush, hpush, hset, hifFifoPutc_]
  refine ⟨b, ?_, hb, hc⟩
  exact (Prod.mk.inj (hput.symm.trans he)).2

/-- A byte is got as a block of one. -/
theorem hifFifoGetc_eq (h : f.Wf) (hk : 0 < f.cnt) :
    ∃ c, hifFifoGetc_ f = (c, f.popped 1) ∧ f.contents = c :: (f.popped 1).contents := by
  have hm : f.popIdx % f.size < f.buffer.length := by
    rw [h.length]
    exact Nat.mod_lt _ h.pos
  have hlt := h.lt
  have hle := h.cnt_le
  have hcnt : (f.cnt + (2 ^ 32 - 1)) % 2 ^ 32 = f.cnt - 1 := by omega
  refine ⟨f.buffer.getD (f.popIdx % f.size) 0, ?_, ?_⟩
  · rw [hifFifoGetc_, hcnt]
    rfl
  · have hne : f.contents ≠ [] := by
      rw [← List.length_pos_iff, h.length_contents]
      exact hk
    obtain ⟨c, l, hcl⟩ := List.exists_cons_of_ne_nil hne
    have hhead : f.contents[0]? = some (f.buffer.getD (f.popIdx % f.size) 0) := by
      have hmod : f.popIdx % f.size = f.popIdx % f.buffer.length := by rw [h.length]
      rw [contents, List.getElem?_take, if_pos hk, ring, List.getElem?_rotate (by omega),
        Nat.zero_add, ← hmod, List.getD_eq_getElem?_getD, List.getElem?_eq_getElem hm,
        Option.getD_some]
    rw [hcl] at hhead
    have hc : c = f.buffer.getD (f.popIdx % f.size) 0 := Option.some.inj hhead
    rw [contents_popped h hk, hcl, ← hc, List.drop_one, List.tail_cons]

theorem Wf.reset (h : f.Wf) : (hifFifoReset_ f).Wf :=
  ⟨h.length, h.pos, h.lt, h.dvd, Nat.zero_le _, by simp [hifFifoReset_], by simp [hifFifoReset_],
    rfl⟩

theorem hifFifoWrite_take {len : ℕ} (hlen : len ≤ data.length) :
    hifFifoWrite_ f (some data) len =
      hifFifoWrite_ f (some (data.take len)) (data.take len).length := by
  have hl : (data.take len).length = len := by rw [List.length_take]; omega
  rw [hl, hifFifoWrite_, hifFifoWrite_]
  simp only [List.take_take, Nat.min_eq_left (Nat.min_le_left len (hifFifoFreeSize_ f))]

/-- An operation of the FIFO is one of the queue of its contents. -/
theorem Wf.step (h : f.Wf) {op : BoundedQueue.Op UInt8} {a : BoundedQueue.Answer UInt8}
    {f' : HifFifo} (hs : f.step op = some (a, f')) :
    f'.Wf ∧ f'.size = f.size ∧ BoundedQueue.Step f.size f.contents op a f'.contents := by
  have hcl := h.length_contents
  have hcnt := h.cnt_le
  cases op with
  | write data len =>
    simp only [HifFifo.step] at hs
    split_ifs at hs with hlen
    obtain ⟨b, he, hb, hc⟩ := hifFifoWrite_some h
      (show min len.toNat (f.size - f.cnt) = min (data.take len.toNat).length (f.size - f.cnt) by
        rw [List.length_take]
        omega)
    rw [hifFifoWrite_take (by omega), he] at hs
    obtain ⟨rfl, rfl⟩ := Prod.mk.inj (Option.some.inj hs)
    refine ⟨h.pushed hb (by omega), rfl, ?_⟩
    rw [hc, List.take_take, Nat.min_eq_left (Nat.min_le_left _ _)]
    exact .write hlen (by rw [hcl])
  | advance len =>
    simp only [HifFifo.step, hifFifoWrite_none h] at hs
    obtain ⟨rfl, rfl⟩ := Prod.mk.inj (Option.some.inj hs)
    obtain ⟨f', w, he, hw, hg⟩ := skip_grown h (min len.toNat (f.size - f.cnt)) (by omega)
    rw [hifFifoWrite_none h, Nat.min_eq_left (by omega)] at he
    obtain rfl := (Prod.mk.inj he).2
    refine ⟨hg.wf, rfl, ?_⟩
    rw [hg.contents, ← hw]
    exact .advance (by rw [hcl, hw])
  | read len =>
    simp only [HifFifo.step, hifFifoRead_eq h, if_true] at hs
    obtain ⟨rfl, rfl⟩ := Prod.mk.inj (Option.some.inj hs)
    refine ⟨h.popped (Nat.min_le_right _ _), rfl, ?_⟩
    rw [contents_popped h (Nat.min_le_right _ _), ← hcl, List.take_eq_take_min]
    exact .read rfl
  | skip len =>
    simp only [HifFifo.step, hifFifoRead_eq h] at hs
    obtain ⟨rfl, rfl⟩ := Prod.mk.inj (Option.some.inj hs)
    refine ⟨h.popped (Nat.min_le_right _ _), rfl, ?_⟩
    rw [contents_popped h (Nat.min_le_right _ _), ← hcl]
    exact .skip rfl
  | push c =>
    simp only [HifFifo.step] at hs
    split_ifs at hs with hfree
    have hk : 0 < f.size - f.cnt := hfree
    obtain ⟨rfl, rfl⟩ := Prod.mk.inj (Option.some.inj hs)
    obtain ⟨b, he, hb, hc⟩ := hifFifoPutc_eq h (by omega) c
    rw [he, hc]
    exact ⟨h.pushed hb (by omega), rfl, .push (by omega)⟩
  | pop =>
    simp only [HifFifo.step] at hs
    split_ifs at hs with hfill
    have hk : 0 < f.cnt := hfill
    obtain ⟨c, he, hc⟩ := hifFifoGetc_eq h hk
    rw [he] at hs
    obtain ⟨rfl, rfl⟩ := Prod.mk.inj (Option.some.inj hs)
    refine ⟨h.popped hk, rfl, ?_⟩
    rw [hc]
    exact .pop
  | clear =>
    obtain ⟨rfl, rfl⟩ := Prod.mk.inj (Option.some.inj hs)
    refine ⟨h.reset, rfl, ?_⟩
    rw [show (hifFifoReset_ f).contents = [] from List.take_zero]
    exact .clear

theorem Wf.step_isSome (h : f.Wf) (op : BoundedQueue.Op UInt8) :
    (f.step op).isSome ↔ BoundedQueue.Allowed f.size f.contents op := by
  have hcl := h.length_contents
  cases op with
  | write data len =>
    simp only [HifFifo.step, BoundedQueue.Allowed]
    split_ifs with hlen <;> simp [hlen]
  | push c =>
    simp only [HifFifo.step, BoundedQueue.Allowed, hcl]
    split_ifs with hfree
    · have hk : 0 < f.size - f.cnt := hfree
      exact ⟨fun _ => by omega, fun _ => rfl⟩
    · have hk : ¬ 0 < f.size - f.cnt := hfree
      exact ⟨fun h => by simp at h, fun _ => by omega⟩
  | pop =>
    simp only [HifFifo.step, BoundedQueue.Allowed, ← List.length_pos_iff, hcl]
    split_ifs with hfill
    · exact ⟨fun _ => hfill, fun _ => rfl⟩
    · exact ⟨fun h => by simp at h, fun h => absurd h hfill⟩
  | advance len => exact ⟨fun _ => trivial, fun _ => rfl⟩
  | read len => exact ⟨fun _ => trivial, fun _ => rfl⟩
  | skip len => exact ⟨fun _ => trivial, fun _ => rfl⟩
  | clear => exact ⟨fun _ => trivial, fun _ => rfl⟩

end HifFifo

/-- A FIFO whose size divides the range of its indices is a bounded queue of bytes, and its counts
are those of the queue. -/
theorem hif_fifo_refines {mem : Bytes} (hp : 0 < mem.length) (hl : mem.length < 2 ^ 31)
    (hd : mem.length ∣ 2 ^ 32) {ops : List (BoundedQueue.Op UInt8)}
    {as : List (BoundedQueue.Answer UInt8)} {f : HifFifo}
    (hr : BoundedQueue.run HifFifo.step (hifFifoCreate_ mem) ops = some (as, f)) :
    BoundedQueue.Run mem.length [] ops as f.contents ∧
      f.contents.length ≤ mem.length ∧
      hifFifoFillSize_ f = f.contents.length ∧
      hifFifoFreeSize_ f = mem.length - f.contents.length ∧
      ∀ op, (f.step op).isSome ↔ BoundedQueue.Allowed mem.length f.contents op := by
  obtain ⟨⟨h, hsize⟩, hrun⟩ := BoundedQueue.Run.of_step (n := mem.length)
    (I := fun f => f.Wf ∧ f.size = mem.length) (fun f op a f' ⟨h, hn⟩ hs => by
      obtain ⟨h', hn', hstep⟩ := h.step hs
      exact ⟨⟨h', hn'.trans hn⟩, hn ▸ hstep⟩)
    ⟨HifFifo.Wf.create hp (by omega) hd, rfl⟩ hr
  have hcl := h.length_contents
  rw [HifFifo.contents_create] at hrun
  refine ⟨hrun, ?_, hcl.symm, ?_, fun op => hsize ▸ h.step_isSome op⟩
  · rw [hcl, ← hsize]
    exact h.cnt_le
  · rw [hcl, ← hsize]
    rfl

/-- A write and a read that cross the end of a FIFO of four bytes. -/
theorem hif_fifo_refines_four :
    BoundedQueue.Run 4 ([] : Bytes) [.write [1, 2, 3] 3, .read 2, .write [4, 5, 6, 7] 4, .pop, .read 9,
        .advance (-1)]
      [⟨3, []⟩, ⟨2, [1, 2]⟩, ⟨3, []⟩, ⟨0, [3]⟩, ⟨3, [4, 5, 6]⟩, ⟨0, []⟩] [] := by
  obtain ⟨⟨as, f⟩, hr, ha⟩ := Option.map_eq_some_iff.1 (show (BoundedQueue.run HifFifo.step
      (hifFifoCreate_ [0, 0, 0, 0]) [.write [1, 2, 3] 3, .read 2, .write [4, 5, 6, 7] 4, .pop,
        .read 9, .advance (-1)]).map (fun r => (r.1, r.2.contents)) =
    some ([⟨3, []⟩, ⟨2, [1, 2]⟩, ⟨3, []⟩, ⟨0, [3]⟩, ⟨3, [4, 5, 6]⟩, ⟨0, []⟩], []) by
      decide +kernel)
  obtain ⟨rfl, hc⟩ := Prod.mk.inj ha
  have h := (hif_fifo_refines (by decide) (by decide) (by decide) hr).1
  rw [hc] at h
  exact h

end NrcAtcmd
