import NrcAtcmd.Proofs.HifFifo
import NrcAtcmd.Proofs.UartBlocks

/-!
# The FIFO follows the DMA

The DMA writes the byte number `t` since its start to the cell `t` of the FIFO's memory taken as a
ring. The push index and the slot address are moved to where it is at the time of a read, so both
are the number of bytes handed on, modulo the size. What is readable are the last of these, and the
memory holds the last bytes written.
-/

namespace NrcAtcmd

open HifUartState

variable {b : HifBuild} {s s' : HifUartState} {dma dma' : DmaOutcome} {new : HifUart}
  {n p c addr pushed t : ℕ} {d : HifUartDma} {f : HifFifo}

/-- What the DMA changes in the FIFO. -/
theorem HifFifo.Wf.set (h : f.Wf) (i : ℕ) (x : UInt8) :
    HifFifo.Wf { f with buffer := f.buffer.set i x } :=
  { h with length := by rw [List.length_set, h.length] }

/-- There are memory and a channel for a registration when no channel of the UART is on. -/
def DmaOutcome.Free (dma : DmaOutcome) : Prop :=
  dma.malloc = true ∧ ∃ c < hifDmaChannelMax, c ∉ dma.busy

namespace HifUartState

/-- The slot address is the push index in the memory of the FIFO, and every byte that is readable
is one the DMA wrote. -/
def Synced (s : HifUartState) : Prop :=
  s.uart.usesDma = true → ∃ p d addr f, s.rxDma = some p ∧ Heap.get s.heap p = some d ∧
    s.rxFifo = some (addr, f) ∧ addr ≤ d.slotAddr ∧
    (d.slotAddr - addr) % f.size = f.pushIdx % f.size ∧
    ∀ j < f.cnt, ∃ i < s.rxd.length, i % f.size = (f.popIdx + j) % f.size ∧
      f.buffer[(f.popIdx + j) % f.size]? = s.rxd[i]?

/-- The DMA is on, `pushed` of the bytes it wrote were handed on, and the block `d` of the address
`p` is that of its channel `c`. -/
structure Streaming (n : ℕ) (s : HifUartState) (p c addr : ℕ) (d : HifUartDma) (f : HifFifo)
    (pushed : ℕ) : Prop where
  rxDma : s.rxDma = some p
  block : Heap.get s.heap p = some d
  fifo : s.rxFifo = some (addr, f)
  wf : f.Wf
  size : f.size = n
  fits : addr + n ≤ 2 ^ 32
  memAddr : d.memAddr = addr
  memSize : d.memSize = n
  desc : d.desc = Transfer.ring addr hifUartSlotSize (n / hifUartSlotSize)
  channel : d.channel = c
  lt : c < hifDmaChannelMax
  on : s.dmaChannel c =
    ⟨true, p, Transfer.onRing addr hifUartSlotSize (n / hifUartSlotSize) s.rxd.length⟩
  only : ∀ i, (s.dmaChannel i).enable = true → i = c
  enable : s.dmaEnable = true
  dmacr : s.dmacr = true
  rxIrq : s.rxIrq = false
  slot : d.slotAddr = addr + pushed % n
  push : f.pushIdx % n = pushed % n
  cnt : f.cnt ≤ pushed
  le : pushed ≤ s.rxd.length
  written : ∀ k < s.rxd.length, s.rxd.length ≤ k + n → f.buffer[k % n]? = s.rxd[k]?

/-- The last number that is congruent to `a` and less than `t`. -/
theorem exists_last (hn : 0 < n) {a : ℕ} (ha : a < t) :
    ∃ i < t, t ≤ i + n ∧ i % n = a % n := by
  refine ⟨a + n * ((t - 1 - a) / n), ?_, ?_, Nat.add_mul_mod_self_left _ _ _⟩
  · have := Nat.mul_div_le (t - 1 - a) n
    omega
  · have := Nat.lt_mul_div_succ (t - 1 - a) hn
    rw [Nat.mul_add] at this
    omega

theorem Streaming.synced (h : Streaming n s p c addr d f pushed) : s.Synced := fun _ => by
  have hn : 0 < n := h.size ▸ h.wf.pos
  refine ⟨p, d, addr, f, h.rxDma, h.block, h.fifo, ?_, ?_, fun j hj => ?_⟩
  · rw [h.slot]
    omega
  · rw [h.slot, Nat.add_sub_cancel_left, h.size, Nat.mod_mod, h.push]
  · have hle := h.cnt
    have hle' := h.le
    have hpop : f.popIdx ≡ pushed - f.cnt [MOD n] := by
      refine Nat.ModEq.add_right_cancel' f.cnt ?_
      rw [Nat.sub_add_cancel hle]
      exact (h.size ▸ h.wf.push).symm.trans h.push
    obtain ⟨i, hi, hlast, hmod⟩ := exists_last hn (show pushed - f.cnt + j < s.rxd.length by omega)
    rw [h.size, show (f.popIdx + j) % n = i % n from (hpop.add_right j).trans hmod.symm]
    exact ⟨i, hi, rfl, h.written i hi hlast⟩

/-! ## A byte from the UART -/

theorem Streaming.first (h : Streaming n s p c addr d f pushed) :
    ((List.range hifDmaChannelMax).find? fun i => (s.dmaChannel i).enable) = some c := by
  rcases hi : (List.range hifDmaChannelMax).find? fun i => (s.dmaChannel i).enable with _ | i
  · have := List.find?_eq_none.1 hi c (List.mem_range.2 h.lt)
    simp [h.on] at this
  · rw [h.only i (by simpa using List.find?_some hi)]

theorem Streaming.transfer (h : Streaming n s p c addr d f pushed) (hn : hifUartSlotSize ∣ n)
    (x : UInt8) :
    ∃ s' f', dmaTransfer x s = some s' ∧ Streaming n s' p c addr d f' pushed ∧ s'.uart = s.uart := by
  have hn0 : 0 < n := h.size ▸ h.wf.pos
  have hmul : hifUartSlotSize * (n / hifUartSlotSize) = n := Nat.mul_div_cancel' hn
  have hslots : 0 < n / hifUartSlotSize := Nat.div_pos (Nat.le_of_dvd hn0 hn) (by decide)
  have hlt := Nat.mod_lt s.rxd.length hn0
  have hdest : (s.dmaChannel c).cursor.dest = addr + s.rxd.length % n := by
    rw [h.on, Transfer.onRing, hmul]
  have hadv : Transfer.advance
      (fun j => (Heap.get s.heap (s.dmaChannel c).block).bind fun d => d.desc[j]?)
      (s.dmaChannel c).cursor =
      some (Transfer.onRing addr hifUartSlotSize (n / hifUartSlotSize) (s.rxd.length + 1)) := by
    rw [h.on]
    simp only [h.block, Option.bind_some, h.desc]
    exact Transfer.advance_ring (by decide) hslots
  have hstore : dmaStore (addr, f) (s.dmaChannel c).cursor.dest x =
      (addr, { f with buffer := f.buffer.set (s.rxd.length % n) x }) := by
    rw [hdest, dmaStore, if_pos ⟨by simp, by simp only [h.size]; omega⟩]
    simp
  unfold dmaTransfer
  rw [h.enable, h.dmacr, h.first]
  simp only [Bool.and_self, if_true, hadv, Option.bind_eq_bind, Option.bind_some, h.fifo,
    Option.map_some, hstore]
  refine ⟨_, _, rfl, { h with
    fifo := rfl, wf := h.wf.set _ x, enable := rfl, dmacr := rfl, on := ?_
    only := fun i hi => ?_, le := ?_, written := fun k hk hlast => ?_ }, rfl⟩
  · simp [h.on]
  · rcases eq_or_ne i c with rfl | hne
    · rfl
    · simp only [Function.update_of_ne hne] at hi
      exact h.only i hi
  · have := h.le
    simp
    omega
  · simp only [List.length_append, List.length_singleton] at hk hlast
    have hlen := h.wf.length
    rw [h.size] at hlen
    rcases Nat.lt_or_ge k s.rxd.length with hk' | hk'
    · have hne : s.rxd.length % n ≠ k % n := by
        intro he
        have := Nat.le_of_dvd (by omega) ((Nat.modEq_iff_dvd' hk'.le).1 he.symm)
        omega
      rw [List.getElem?_set_ne hne, List.getElem?_append_left hk']
      exact h.written k hk' (by omega)
    · obtain rfl : k = s.rxd.length := by omega
      rw [List.getElem?_set_self (by rw [hlen]; exact hlt)]
      simp

/-! ## A read -/

theorem doneSize_eq {x y : ℕ} (hslot : d.slotAddr = addr + x) (haddr : d.memAddr = addr)
    (hsize : d.memSize = n) (hx : x < n) (hy : y < n) (hfit : addr + n ≤ 2 ^ 32) :
    hifUartRxDmaDoneSize_ d (addr + y) = if x ≤ y then y - x else n - x + y := by
  unfold hifUartRxDmaDoneSize_ sub32
  rw [hslot, haddr, hsize]
  dsimp only
  split_ifs <;> omega

theorem nextSlot_eq {x done : ℕ} (hslot : d.slotAddr = addr + x) (haddr : d.memAddr = addr)
    (hsize : d.memSize = n) (hx : x < n) (hdone : done < n) (hfit : addr + n ≤ 2 ^ 32)
    (hn : 2 * n ≤ 2 ^ 32) :
    d.nextSlot done = addr + (x + done) % n := by
  have hmod : (x + done) % n = if x + done < n then x + done else x + done - n := by
    split_ifs with h
    · exact Nat.mod_eq_of_lt h
    · rw [Nat.mod_eq_sub_mod (by omega), Nat.mod_eq_of_lt (by omega)]
  unfold HifUartDma.nextSlot sub32
  rw [hslot, haddr, hsize, hmod]
  dsimp only
  split_ifs <;> omega

/-- How far `t` is past `u` on a ring. -/
theorem ring_gap (hn : 0 < n) {u : ℕ} (h : u ≤ t) :
    (if u % n ≤ t % n then t % n - u % n else n - u % n + t % n) = (t - u) % n := by
  have hu := Nat.mod_lt u hn
  have ht := Nat.mod_lt t hn
  set g := if u % n ≤ t % n then t % n - u % n else n - u % n + t % n with hg
  have hlt : g < n := by
    rw [hg]
    split_ifs <;> omega
  have hsum : g + u ≡ t [MOD n] := by
    rw [Nat.ModEq, Nat.add_mod, Nat.mod_eq_of_lt hlt, hg]
    split_ifs
    · rw [Nat.sub_add_cancel (by omega), Nat.mod_mod]
    · rw [show n - u % n + t % n + u % n = t % n + n by omega, Nat.add_mod_right, Nat.mod_mod]
  rw [← Nat.mod_eq_of_lt hlt]
  refine Nat.ModEq.add_right_cancel' u ?_
  rwa [Nat.sub_add_cancel h]

/-- A read hands on what the DMA has written modulo the size, or halts. -/
theorem Streaming.update (h : Streaming n s p c addr d f pushed) (hn : hifUartSlotSize ∣ n) :
    (∃ s', hifUartRxDmaUpdateFifo_ s = some (.halted, s') ∧
      Streaming n s' p c addr d f pushed ∧ s'.uart = s.uart) ∨
    ∃ s' d' f' pushed', hifUartRxDmaUpdateFifo_ s = some (.ok, s') ∧
      Streaming n s' p c addr d' f' pushed' ∧ s'.uart = s.uart := by
  have hn0 : 0 < n := h.size ▸ h.wf.pos
  have hmul : hifUartSlotSize * (n / hifUartSlotSize) = n := Nat.mul_div_cancel' hn
  have hle := h.le
  have hcnt := h.cnt
  have hdone : hifUartRxDmaDoneSize_ d (s.dmaChannel d.channel).cursor.dest =
      (s.rxd.length - pushed) % n := by
    rw [h.channel, h.on, Transfer.onRing, hmul, doneSize_eq h.slot h.memAddr h.memSize
      (Nat.mod_lt _ hn0) (Nat.mod_lt _ hn0) h.fits, ring_gap hn0 h.le]
  set done := (s.rxd.length - pushed) % n with hdef
  have hlt : done < n := Nat.mod_lt _ hn0
  have hgap : done ≤ s.rxd.length - pushed := Nat.mod_le _ _
  obtain ⟨rts, he⟩ := hifUartRxDmaUpdateFifo_eq h.fifo h.rxDma h.block hdone
  rw [he]
  split_ifs with hfree h0
  · exact .inl ⟨s, rfl, h, rfl⟩
  · exact .inr ⟨_, d, f, pushed, rfl, { h with }, rfl⟩
  · have hhalf : 2 * n ≤ 2 ^ 32 := by
      obtain ⟨k, hk⟩ := h.wf.dvd
      have hlt := h.wf.lt
      rw [h.size] at hk hlt
      have : k ≠ 1 := by
        rintro rfl
        omega
      have : k ≠ 0 := by
        rintro rfl
        omega
      rw [hk, Nat.mul_comm]
      exact Nat.mul_le_mul_left n (by omega)
    have hnext : d.nextSlot done = addr + (pushed + done) % n := by
      rw [nextSlot_eq h.slot h.memAddr h.memSize (Nat.mod_lt _ hn0) hlt h.fits hhalf,
        Nat.mod_add_mod]
    have hfit : f.cnt + done ≤ f.size := by
      have := h.wf.cnt_le
      rw [hifFifoFreeSize_] at hfree
      omega
    have hw : hifFifoWrite_ f none done = (done, f.pushed f.buffer done) := by
      rw [HifFifo.hifFifoWrite_none h.wf, Nat.min_eq_left (by omega)]
    rw [hw, hnext]
    refine .inr ⟨_, { d with slotAddr := addr + (pushed + done) % n }, f.pushed f.buffer done,
      pushed + done, rfl, { h with
        block := ?_, fifo := rfl, wf := h.wf.pushed h.wf.length hfit, slot := rfl, push := ?_
        cnt := ?_, le := ?_ }, rfl⟩
    · rw [Heap.get_set (Heap.live_of_get h.block), if_pos rfl]
    · have hd : n ∣ 2 ^ 32 := h.size ▸ h.wf.dvd
      simp only [HifFifo.pushed]
      rw [Nat.mod_mod_of_dvd _ hd, Nat.add_mod, h.push, ← Nat.add_mod]
    · simp only [HifFifo.pushed]
      omega
    · dsimp only
      omega

/-- A read of the FIFO leaves the rest of it to the DMA. -/
theorem Streaming.popped (h : Streaming n s p c addr d f pushed) {k : ℕ} (hk : k ≤ f.cnt) :
    Streaming n { s with rxFifo := some (addr, f.popped k) } p c addr d (f.popped k) pushed :=
  { h with
    fifo := rfl
    wf := h.wf.popped hk
    cnt := (Nat.sub_le _ _).trans h.cnt }

theorem Streaming.read (h : Streaming n s p c addr d f pushed) (hn : hifUartSlotSize ∣ n)
    (hc : s.uart.channel = 1) (hi : ¬ (s.uart.hfc = .enable ∧ s.uart.hfcRxIrq = true)) (len : ℕ) :
    ∃ r data s' d' f' pushed', hifUartRead_ len s = some (r, data, s') ∧
      Streaming n s' p c addr d' f' pushed' ∧ s'.uart = s.uart := by
  unfold hifUartRead_
  rw [if_neg (by omega), if_neg (by simp [h.fifo]), if_neg hi]
  rcases h.update hn with ⟨s₁, he, h₁, hu⟩ | ⟨s₁, d', f', pushed', he, h₁, hu⟩
  · rw [he]
    exact ⟨_, _, _, d, f, pushed, rfl, h₁, hu⟩
  · rw [he]
    simp only [Option.bind_eq_bind, Option.bind_some, reduceCtorEq, if_false, h₁.fifo,
      HifFifo.hifFifoRead_eq h₁.wf]
    exact ⟨_, _, _, d', _, pushed', rfl, h₁.popped (Nat.min_le_right _ _), hu⟩

theorem Streaming.inttc (h : Streaming n s p c addr d f pushed) :
    ∃ r s', hifDmaInttcIsr_ s = some (r, s') ∧ Streaming n s' p c addr d f pushed ∧
      s'.uart = s.uart := by
  unfold hifDmaInttcIsr_ hifUartRxDmaInttcIsr_
  simp only [h.fifo, h.rxDma, h.block, Option.bind_eq_bind, Option.bind_some]
  split_ifs
  · exact ⟨_, _, rfl, h, rfl⟩
  · exact ⟨_, _, rfl, { h with rxDma := rfl, fifo := rfl }, rfl⟩
  · exact ⟨_, _, rfl, h, rfl⟩
  · exact ⟨_, _, rfl, h, rfl⟩

/-! ## A registration -/

/-- The FIFO is empty and nothing is registered when the DMA is started. -/
theorem Streaming.registered (hch : ∀ i, (s.dmaChannel i).enable = false)
    (hf : s.rxFifo = some (addr, f)) (hwf : f.Wf) (hsize : f.size = n) (hfit : addr + n ≤ 2 ^ 32)
    (hpush : f.pushIdx = 0) (hcnt : f.cnt = 0) (hc : c < hifDmaChannelMax)
    (hirq : s.rxIrq = false) :
    Streaming n (s.registered c addr n) s.heap.length c addr (uartDmaBlock c addr n) f 0 where
  rxDma := rfl
  block := Heap.get_alloc_self
  fifo := hf
  wf := hwf
  size := hsize
  fits := hfit
  memAddr := rfl
  memSize := rfl
  desc := rfl
  channel := rfl
  lt := hc
  on := Function.update_self ..
  only i hi := by
    by_contra hne
    simp [HifUartState.registered, Function.update_of_ne hne, hch] at hi
  enable := rfl
  dmacr := rfl
  rxIrq := hirq
  slot := by rw [Nat.zero_mod]; rfl
  push := by rw [hpush]
  cnt := hcnt.le
  le := Nat.zero_le _
  written k hk := by simp [HifUartState.registered] at hk

/-! ## The open UART -/

/-- The memory of the receive FIFO. -/
def HasMemory (b : HifBuild) (s : HifUartState) : Prop :=
  ∃ addr f, s.rxFifo = some (addr, f) ∧ f.buffer.length = b.rxFifoSize ∧
    addr + b.rxFifoSize ≤ 2 ^ 32

/-- What the open UART keeps. -/
structure Following (b : HifBuild) (s : HifUartState) : Prop extends Inv b s where
  opened : s.uart.channel = 1
  memory : s.HasMemory b
  dma : s.uart.usesDma = true →
    ∃ p c addr d f pushed, Streaming b.rxFifoSize s p c addr d f pushed
  irq : s.uart.usesDma = false → s.uart.hfc = .enable ∧ s.rxIrq = true ∧ ∀ p, ¬ Heap.Live s.heap p

/-- Nothing is registered. -/
structure Quiet (b : HifBuild) (s : HifUartState) : Prop extends Inv b s where
  heap : ∀ p, ¬ Heap.Live s.heap p
  off : ∀ c, (s.dmaChannel c).enable = false
  memory : s.HasMemory b

/-- The FIFO is empty and the DMA can be started. -/
structure Ready (b : HifBuild) (s : HifUartState) : Prop extends Quiet b s where
  opened : s.uart.channel = 1
  usesDma : s.uart.usesDma = true
  rxIrq : s.rxIrq = false
  empty : ∀ f, s.rxFifo = some f → f.2.pushIdx = 0 ∧ f.2.popIdx = 0 ∧ f.2.cnt = 0

theorem Following.synced (h : Following b s) : s.Synced := fun hu => by
  obtain ⟨p, c, addr, d, f, pushed, hs⟩ := h.dma hu
  exact hs.synced hu

theorem Quiet.enabling (h : Quiet b s) (hc : new.channel = 1) : Quiet b (s.enabled new) :=
  ⟨h.toInv.enabling hc, h.heap, h.off, h.memory⟩

theorem Quiet.emptied (h : Quiet b s) : Quiet b s.emptied := by
  refine ⟨h.toInv.frame (fun _ => rfl) rfl rfl id (.inr rfl) fun f hf => ?_, h.heap, h.off, ?_⟩
  · obtain ⟨g, hg, rfl⟩ := Option.map_eq_some_iff.1 hf
    exact h.fifo g hg
  · obtain ⟨addr, f, hf, hl, hfit⟩ := h.memory
    exact ⟨addr, hifFifoReset_ f, by simp [HifUartState.emptied, hf], hl, hfit⟩

theorem Quiet.refused (h : Quiet b s) (hr : Refused s s') : Quiet b s' := by
  refine ⟨h.toInv.refused hr, fun p => ?_, ?_, ?_⟩
  · rw [Heap.Live, hr.get]
    exact h.heap p
  · rw [hr.eq]
    exact h.off
  · rw [hr.eq]
    exact h.memory

/-- A setting with receive interrupts needs no DMA. -/
theorem Quiet.following (h : Quiet b (s.enabled new)) (hc : new.channel = 1)
    (hu : new.usesDma = false) (hfc : new.hfc = .enable) : Following b (s.enabled new) := by
  have hirq : new.hfcRxIrq = true := by
    simpa [HifUart.usesDma, hfc] using hu
  have hen : new.enabled = new := by simp [HifUart.enabled, hirq]
  refine ⟨h.toInv, by simp [HifUartState.enabled, hc], h.memory, fun hu' => ?_,
    fun _ => ⟨by simp [HifUartState.enabled, hen, hfc], by simp [HifUartState.enabled, hu], h.heap⟩⟩
  simp [HifUartState.enabled, hu] at hu'

theorem registers_iff (hoff : ∀ c, (s.dmaChannel c).enable = false) :
    s.Registers dma ↔ dma.Free := by
  simp [Registers, DmaOutcome.Free, hifDmaGetChannel_, hoff]

theorem Ready.register (h : Ready b s) (hd : dma.Free) :
    ∃ s', hifUartDmaRegister_ dma s = some (.ok, s') ∧ Following b s' := by
  obtain ⟨addr, f, hf, hl, hfit⟩ := h.memory
  have hsize : f.size = b.rxFifoSize := h.fifo _ hf
  obtain ⟨hpush, hpop, hcnt⟩ : f.pushIdx = 0 ∧ f.popIdx = 0 ∧ f.cnt = 0 := h.empty _ hf
  obtain ⟨c, hch, he⟩ := hifUartDmaRegister_ok h.opened hf hsize ((registers_iff h.off).2 hd)
  have hwf : f.Wf :=
    { length := hl.trans hsize.symm
      pos := hsize ▸ b.rxFifoSize_pos
      lt := by rw [hsize]; cases b <;> decide
      dvd := by rw [hsize]; cases b <;> decide
      cnt_le := by omega
      pop_lt := by omega
      push_lt := by omega
      push := by rw [hpush, hpop, hcnt] }
  have hlt : c < hifDmaChannelMax := List.mem_range.1 (List.mem_of_find?_eq_some hch)
  have hinv := h.toInv.registered h.opened h.heap c addr f.size (hsize ▸ b.rxSlots_pos)
  refine ⟨_, he, hinv, h.opened, ⟨addr, f, hf, hl, hfit⟩, fun _ => ?_, fun hu => ?_⟩
  · rw [hsize]
    exact ⟨_, c, addr, _, f, 0,
      Streaming.registered h.off hf hwf hsize hfit hpush hcnt hlt h.rxIrq⟩
  · rw [show (s.registered c addr f.size).uart = s.uart from rfl, h.usesDma] at hu
    cases hu

theorem Ready.refuses (h : Ready b s) (hd : ¬ dma.Free) :
    ∃ s', hifUartDmaRegister_ dma s = some (.fail, s') ∧ Refused s s' := by
  obtain ⟨addr, f, hf, -⟩ := h.memory
  exact hifUartDmaRegister_fail hf (h.fifo _ hf) (mt (registers_iff h.off).1 hd)

/-- The state in which a change registers the DMA. -/
theorem Quiet.ready (h : Quiet b s) (hc : new.channel = 1) (hu : new.usesDma = true) :
    Ready b (s.enabled new).emptied :=
  ⟨(h.enabling hc).emptied, by simp [HifUartState.emptied, HifUartState.enabled, hc],
    by simp [HifUartState.emptied, HifUartState.enabled, hu],
    by simp [HifUartState.emptied, HifUartState.enabled, hu], fun f hf => by
      obtain ⟨g, -, rfl⟩ := Option.map_eq_some_iff.1 hf
      exact ⟨rfl, rfl, rfl⟩⟩

/-- The old setting finds the FIFO as the new one left it. -/
theorem Ready.enabling (h : Ready b s) (hc : new.channel = 1) (hu : new.usesDma = true) :
    Ready b (s.enabled new) :=
  ⟨h.toQuiet.enabling hc, by simp [HifUartState.enabled, hc], by simp [HifUartState.enabled, hu],
    by simp [HifUartState.enabled, hu], h.empty⟩

theorem Ready.refused (h : Ready b s) (hr : Refused s s') : Ready b s' := by
  refine ⟨h.toQuiet.refused hr, ?_, ?_, ?_, ?_⟩ <;> rw [hr.eq]
  · exact h.opened
  · exact h.usesDma
  · exact h.rxIrq
  · exact h.empty

/-- Neither the new setting nor the old one gets the DMA back. -/
def Strands (old new : HifUart) (dma dma' : DmaOutcome) : Prop :=
  old.usesDma = true ∧ new.usesDma = true ∧ ¬ dma.Free ∧ ¬ dma'.Free

theorem Following.labelled (h : Following b s) (type : HifType) (halted : Bool) :
    Following b { s with type := type, halted := halted } :=
  ⟨h.toInv.frame (fun _ => rfl) rfl rfl id (.inr rfl) h.fifo, h.opened, h.memory, fun hu => by
    obtain ⟨p, c, addr, d, f, pushed, hs⟩ := h.dma hu
    exact ⟨p, c, addr, d, f, pushed, { hs with }⟩, h.irq⟩

theorem Quiet.switch {old : HifUart} (h : Quiet b s) (hold : old.channel = 1)
    (hfc : old.usesDma = false → old.hfc = .enable) (hv : new.Valid)
    (hreq : new.hfc = .disable ∨ new.hfc = .enable) (hs : ¬ Strands old new dma dma') :
    ∃ r s', hifUartSwitch old new dma dma' s = some (r, s') ∧ r ≠ .halted ∧ Following b s' := by
  unfold hifUartSwitch
  split_ifs with hn
  · have hready := h.ready hv.1 hn
    by_cases hd : dma.Free
    · obtain ⟨s₁, he, h₁⟩ := hready.register hd
      rw [he, Option.bind_some, hifUartSettle]
      exact ⟨_, _, rfl, by simp, h₁.labelled _ _⟩
    · obtain ⟨s₁, he, hr⟩ := hready.refuses hd
      rw [he, Option.bind_some]
      simp only [hifUartSettle, hifUartFallBack]
      split_ifs with ho
      · have hd' : dma'.Free := by
          by_contra hd'
          exact hs ⟨ho, hn, hd, hd'⟩
        obtain ⟨s₂, he₂, h₂⟩ := ((hready.refused hr).enabling hold ho).register hd'
        rw [he₂]
        exact ⟨_, _, rfl, by simp, h₂⟩
      · have hu : old.usesDma = false := by simpa using ho
        exact ⟨_, _, rfl, by simp,
          ((hready.refused hr).toQuiet.enabling hold).following hold hu (hfc hu)⟩
  · have hu : new.usesDma = false := by simpa using hn
    have hne : new.hfc = .enable := hreq.resolve_left fun hdis => by
      simp [HifUart.usesDma, hdis] at hu
    exact ⟨_, _, rfl, by simp, ((h.enabling hv.1).following hv.1 hu hne).labelled _ _⟩

theorem Quiet.strands {old : HifUart} (h : Quiet b s) (hold : old.channel = 1) (hv : new.Valid)
    (hs : Strands old new dma dma') :
    ∃ s', hifUartSwitch old new dma dma' s = some (.fail, s') ∧ Ready b s' := by
  obtain ⟨ho, hn, hd, hd'⟩ := hs
  have hready := h.ready hv.1 hn
  obtain ⟨s₁, he₁, hr₁⟩ := hready.refuses hd
  have hback := (hready.refused hr₁).enabling hold ho
  obtain ⟨s₂, he₂, hr₂⟩ := hback.refuses hd'
  refine ⟨s₂, ?_, hback.refused hr₂⟩
  simp only [hifUartSwitch, hn, if_true, he₁, Option.bind_some, hifUartSettle, hifUartFallBack, ho,
    he₂, reduceCtorEq, if_false]

/-- What a change finds once it unregistered the DMA of the old setting. -/
theorem Following.unregister (h : Following b s) : ∃ s₁,
    (if s.uart.usesDma then hifUartDmaUnregister_ s else some s) = some s₁ ∧ Quiet b s₁ := by
  split_ifs with hu
  · obtain ⟨p, c, addr, d, f, pushed, hs⟩ := h.dma hu
    have hd : ¬ s.Dangling := by
      rintro ⟨q, hq, hl⟩
      obtain rfl := Option.some.inj (hs.rxDma.symm.trans hq)
      exact hl (Heap.live_of_get hs.block)
    obtain ⟨ch, heap, he, hheap, hch⟩ := hifUartDmaUnregister_spec h.toInv h.opened hd
    exact ⟨_, he, .of_unused hheap hch (.inl h.opened) h.fifo, hheap, hch, h.memory⟩
  · have hl := (h.irq (by simpa using hu)).2.2
    exact ⟨s, rfl, h.toInv, hl, fun c => Bool.eq_false_iff.2 fun hc => hl _ (h.chan c hc), h.memory⟩

/-! ## Runs -/

theorem Streaming.following (h : Streaming b.rxFifoSize s p c addr d f pushed) (hinv : Inv b s)
    (hc : s.uart.channel = 1) (hu : s.uart.usesDma = true) : Following b s where
  toInv := hinv
  opened := hc
  memory := ⟨addr, f, h.fifo, h.wf.length.trans h.size, h.fits⟩
  dma _ := ⟨p, c, addr, d, f, pushed, h⟩
  irq hu' := by
    rw [hu] at hu'
    cases hu'

/-- The interrupts change what is in the FIFO. -/
theorem Following.refilled (h : Following b s) (hu : s.uart.usesDma = false) {g : HifFifo}
    (hf : s.rxFifo = some (addr, f)) (hsize : g.size = f.size)
    (hlen : g.buffer.length = f.buffer.length) :
    Following b { s with rxFifo := some (addr, g) } := by
  obtain ⟨addr', f', hf', hl, hfit⟩ := h.memory
  obtain ⟨rfl, rfl⟩ := Prod.mk.inj (Option.some.inj (hf.symm.trans hf'))
  refine ⟨h.toInv.frame (fun _ => rfl) rfl rfl id (.inr rfl) fun e he => ?_, h.opened,
    ⟨addr, g, rfl, hlen.trans hl, hfit⟩, fun hu' => ?_, h.irq⟩
  · obtain rfl := Option.some.inj he
    exact hsize.trans (h.fifo _ hf)
  · rw [show s.uart.usesDma = true from hu'] at hu
    cases hu

theorem putc_size (data : Bytes) (f : HifFifo) : (data.foldl hifFifoPutc_ f).size = f.size ∧
    (data.foldl hifFifoPutc_ f).buffer.length = f.buffer.length := by
  induction data generalizing f with
  | nil => exact ⟨rfl, rfl⟩
  | cons x data ih =>
    obtain ⟨hs, hl⟩ := ih (hifFifoPutc_ f x)
    exact ⟨hs, hl.trans (List.length_set ..)⟩

theorem Following.receive (h : Following b s) (data : Bytes) :
    ∃ s', hifUartReceive data s = some s' ∧ Following b s' := by
  cases hu : s.uart.usesDma
  · obtain ⟨addr, f, hf, -⟩ := h.memory
    obtain ⟨-, hi, -⟩ := h.irq hu
    obtain ⟨hs, hl⟩ := putc_size (data.take (hifFifoFreeSize_ f)) f
    refine ⟨_, ?_, h.refilled hu hf hs hl⟩
    simp only [hifUartReceive, hi, if_true, hifUartRxIsr_, hf, Option.bind_eq_bind, Option.bind_some]
  · have hi : s.rxIrq = false := by
      obtain ⟨p, c, addr, d, f, pushed, hs⟩ := h.dma hu
      exact hs.rxIrq
    simp only [hifUartReceive, hi, Bool.false_eq_true, if_false]
    clear hi
    induction data generalizing s with
    | nil => exact ⟨s, rfl, h⟩
    | cons x data ih =>
      obtain ⟨p, c, addr, d, f, pushed, hs⟩ := h.dma hu
      obtain ⟨s₁, f', he, hs₁, hu₁⟩ := hs.transfer b.dvd_rxFifoSize x
      obtain ⟨s₂, he₂, hinv⟩ := dmaTransfer_inv h.toInv x
      obtain rfl := Option.some.inj (he.symm.trans he₂)
      have h₁ := hs₁.following hinv (hu₁ ▸ h.opened) (hu₁ ▸ hu)
      obtain ⟨s', he', h'⟩ := ih h₁ (hu₁ ▸ hu)
      refine ⟨s', ?_, h'⟩
      rw [List.foldlM_cons, he]
      exact he'

theorem Following.inttc (h : Following b s) :
    ∃ r s', hifDmaInttcIsr_ s = some (r, s') ∧ Following b s' := by
  cases hu : s.uart.usesDma
  · have hl := (h.irq hu).2.2
    have hoff : ¬ ((List.range hifDmaChannelMax).any fun c => (s.dmaChannel c).enable) = true := by
      simp only [List.any_eq_true, not_exists, not_and]
      exact fun c _ hc => hl _ (h.chan c hc)
    exact ⟨_, _, if_neg hoff, h⟩
  · obtain ⟨p, c, addr, d, f, pushed, hs⟩ := h.dma hu
    obtain ⟨r, s₁, he, hs₁, hu₁⟩ := hs.inttc
    obtain ⟨r', s₂, he₂, hinv⟩ := hifDmaInttcIsr_inv h.toInv fun _ => by simp [hs.fifo]
    obtain ⟨rfl, rfl⟩ := Prod.mk.inj (Option.some.inj (he.symm.trans he₂))
    exact ⟨_, _, he, hs₁.following hinv (hu₁ ▸ h.opened) (hu₁ ▸ hu)⟩

theorem Following.read (h : Following b s) (len : ℕ) :
    ∃ r data s', hifUartRead_ len s = some (r, data, s') ∧ Following b s' := by
  cases hu : s.uart.usesDma
  · obtain ⟨addr, f, hf, -⟩ := h.memory
    obtain ⟨hfc, -, -⟩ := h.irq hu
    have hirq : s.uart.hfcRxIrq = true := by simpa [HifUart.usesDma, hfc] using hu
    have hbuf : (hifFifoRead_ f true len).2.2.buffer = f.buffer := by
      unfold hifFifoRead_
      split_ifs <;> rfl
    refine ⟨.ok, (hifFifoRead_ f true len).2.1, _, ?_,
      h.refilled hu hf (hifFifoRead_size f true len) (congrArg _ hbuf)⟩
    have hop := h.opened
    unfold hifUartRead_
    rw [if_neg (by omega), if_neg (by simp [hf]), if_pos ⟨hfc, hirq⟩]
    simp only [Option.bind_eq_bind, Option.bind_some, reduceCtorEq, if_false, hf]
  · obtain ⟨p, c, addr, d, f, pushed, hs⟩ := h.dma hu
    have hpath : ¬ (s.uart.hfc = .enable ∧ s.uart.hfcRxIrq = true) := by
      rintro ⟨hfc, hirq⟩
      simp [HifUart.usesDma, hfc, hirq] at hu
    obtain ⟨r, data, s₁, d', f', pushed', he, hs₁, hu₁⟩ := hs.read b.dvd_rxFifoSize h.opened hpath len
    obtain ⟨r', s₂, he₂, hinv⟩ := hifUartRead_inv h.toInv
      (fun _ => ⟨p, hs.rxDma, Heap.live_of_get hs.block⟩) len
    obtain ⟨rfl, rfl⟩ := Prod.mk.inj (Option.some.inj (he.symm.trans he₂))
    exact ⟨_, _, _, he, hs₁.following hinv (hu₁ ▸ h.opened) (hu₁ ▸ hu)⟩

end HifUartState

/-- What the line, the controller, the receive task and the handler of `AT+UART` do. The handler
asks for flow control in full or for none. -/
def HifUartInput.Traffic : HifUartInput b → Prop
  | .uartChange new _ _ => new.hfc = .disable ∨ new.hfc = .enable
  | .receive _ | .inttc | .read _ => True
  | .uartOpen .. | .uartClose => False

/-- A change between two settings with the DMA that registers it for neither. -/
def HifUartState.StrandedBy (s : HifUartState) : HifUartInput b → Prop
  | .uartChange new dma dma' => new.Valid ∧ Strands s.uart new dma dma'
  | _ => False

theorem step_following (h : Following b s) {i : HifUartInput b} (ht : i.Traffic)
    (hi : s.halted = false → ¬ s.StrandedBy i) :
    ∃ s', s.step i = some s' ∧ Following b s' := by
  unfold HifUartState.step
  split_ifs with hh
  · exact ⟨s, rfl, h⟩
  · cases i with
    | uartOpen type uart fifo dma => exact ht.elim
    | uartClose => exact ht.elim
    | uartChange new dma dma' =>
      by_cases hv : new.Valid
      · have hs : ¬ Strands s.uart new dma dma' := fun hs => hi (by simpa using hh) ⟨hv, hs⟩
        obtain ⟨s₁, he₁, h₁⟩ := h.unregister
        obtain ⟨r, s₂, he₂, -, h₂⟩ := h₁.switch h.opened (fun hu => (h.irq hu).1) hv ht hs
        refine ⟨_, ?_, h₂.labelled s₂.type (r == .halted)⟩
        simp only [hifUartChange_valid hv, he₁, Option.bind_some, he₂, Option.map_some]
        rfl
      · refine ⟨_, ?_, h.labelled s.type false⟩
        simp only [hifUartChange_invalid hv, Option.map_some]
        rfl
    | receive data => exact h.receive data
    | inttc =>
      obtain ⟨r, s', he, h'⟩ := h.inttc
      refine ⟨_, ?_, h'.labelled s'.type (r == .halted)⟩
      simp only [he, Option.map_some]
      rfl
    | read len =>
      obtain ⟨r, data, s', he, h'⟩ := h.read len
      refine ⟨_, ?_, h'.labelled s'.type (r == .halted)⟩
      simp only [he, Option.map_some]
      rfl

/-- The setting with the DMA is taken back without the DMA, and a read uses the block that was
freed. -/
theorem step_stranded (h : Following b s) {i : HifUartInput b} (hh : s.halted = false)
    (hi : s.StrandedBy i) : ∃ s', s.step i = some s' ∧ ¬ s'.Synced ∧
      ∀ len, s'.step (b := b) (.read len) = none := by
  cases i with
  | uartChange new dma dma' =>
    obtain ⟨hv, hs⟩ := hi
    obtain ⟨s₁, he₁, h₁⟩ := h.unregister
    obtain ⟨s₂, he₂, hready⟩ := h₁.strands h.opened hv hs
    have hdma : ¬ (s₂.uart.hfc = .enable ∧ s₂.uart.hfcRxIrq = true) := by
      rintro ⟨hfc, hirq⟩
      have hu := hready.usesDma
      simp [HifUart.usesDma, hfc, hirq] at hu
    obtain ⟨addr, f, hf, -⟩ := hready.memory
    have hrx : s₂.rxFifo.isSome := by simp [hf]
    have hno : ¬ ∃ p, (after (.fail, s₂)).rxDma = some p ∧
        Heap.Live (after (.fail, s₂)).heap p := by
      rintro ⟨p, -, hl⟩
      exact hready.heap p hl
    have hread := hifUartRead_refuses (s := after (.fail, s₂)) ⟨hready.opened, hrx, hdma⟩ hno
    refine ⟨after (.fail, s₂), ?_, fun hsync => ?_, fun len => ?_⟩
    · simp only [HifUartState.step, hh, Bool.false_eq_true, if_false, hifUartChange_valid hv, he₁,
        Option.bind_some, he₂, Option.map_some]
    · obtain ⟨p, d, -, -, -, hget, -⟩ := hsync hready.usesDma
      exact hready.heap p (Heap.live_of_get hget)
    · simp only [HifUartState.step, show (after (.fail, s₂)).halted = false from rfl,
        Bool.false_eq_true, if_false, hread len, Option.map_none]
  | _ => exact hi.elim

/-- The UART after it was opened with nothing registered. -/
theorem HifUartState.Unused.opened {s₀ : HifUartState} {type : HifType} {uart : HifUart}
    {fifo : FifoOutcome b} (h : s₀.Unused) (hreq : uart.hfc = .disable ∨ uart.hfc = .enable)
    (hopen : hifUartOpen_ type uart fifo dma s₀ = some (.ok, s)) : Following b s := by
  have ho : UartOpens type uart fifo := by
    by_contra ho
    obtain ⟨rx, tx, he, -⟩ := hifUartOpen_refuses (s := s₀) dma ho
    simp [he] at hopen
  obtain ⟨block, tx, -, he⟩ := hifUartOpen_opens (s := s₀) dma ho
  set s₁ := HifUartState.enabled { s₀ with rxFifo := some (hifFifoAlloc block), txFifo := tx } uart
    with hs₁
  have hc : s₁.uart.channel = 1 := by simp [hs₁, HifUartState.enabled, ho.2.1.1]
  have hq : HifUartState.Quiet b s₁ := by
    refine ⟨.of_unused h.heap h.chan (.inl hc) fun f hf => ?_, h.heap, h.chan,
      block.addr, hifFifoCreate_ block.bytes, rfl, block.length, block.fits⟩
    obtain rfl := Option.some.inj hf
    exact block.length
  rw [he] at hopen
  dsimp only at hopen
  split_ifs at hopen with hu
  · have hr : HifUartState.Ready b s₁ := by
      refine ⟨hq, hc, by simp [hs₁, HifUartState.enabled, hu],
        by simp [hs₁, HifUartState.enabled, hu], fun f hf => ?_⟩
      obtain rfl := Option.some.inj hf
      exact ⟨rfl, rfl, rfl⟩
    by_cases hd : dma.Free
    · obtain ⟨s₂, he₂, h₂⟩ := hr.register hd
      obtain rfl := (Prod.mk.inj (Option.some.inj (he₂.symm.trans hopen))).2
      exact h₂
    · obtain ⟨s₂, he₂, -⟩ := hr.refuses hd
      simp [he₂] at hopen
  · obtain rfl := (Prod.mk.inj (Option.some.inj hopen)).2
    have hu : uart.usesDma = false := by simpa using hu
    refine hq.following ho.2.1.1 hu (hreq.resolve_left fun hdis => ?_)
    simp [HifUart.usesDma, hdis] at hu

/-- From a UART that was opened, the DMA and the FIFO stay together along exactly the runs in which
no change between two settings with the DMA is left without it. -/
theorem hif_uart_ring_iff {s₀ : HifUartState} {type : HifType} {uart : HifUart}
    {fifo : FifoOutcome b} (h : s₀.Unused) (hreq : uart.hfc = .disable ∨ uart.hfc = .enable)
    (hopen : hifUartOpen_ type uart fifo dma s₀ = some (.ok, s))
    (is : List {i : HifUartInput b // i.Traffic}) :
    (∀ js, js <+: is → ∃ s', Machine.run (fun s i => s.step i.1) s js = some s' ∧ s'.Synced) ↔
      Machine.Along (fun s i => HifUartState.step s i.1)
        (fun s i => s.halted = false → ¬ s.StrandedBy i.1) s is := by
  refine Machine.along_iff_total (I := Following b) (fun s h => h.synced)
    (fun s i h hC => step_following h i.2 hC) (fun s i s' h hC he => ?_) is s (h.opened hreq hopen)
  simp only [not_forall, not_not] at hC
  obtain ⟨hh, hi⟩ := hC
  obtain ⟨s₁, he₁, hs₁, -⟩ := step_stranded h hh hi
  obtain rfl := Option.some.inj (he.symm.trans he₁)
  exact hs₁

theorem hif_uart_ring_iff_plain : ∃ s,
    hifUartOpen_ .uart plainUart plainFifo ⟨true, []⟩ init = some (.ok, s) ∧
      ∀ is : List {i : HifUartInput .uart // i.Traffic},
        (∀ js, js <+: is → ∃ s', Machine.run (fun s i => s.step i.1) s js = some s' ∧ s'.Synced) ↔
          Machine.Along (fun s i => HifUartState.step s i.1)
            (fun s i => s.halted = false → ¬ s.StrandedBy i.1) s is := by
  obtain ⟨block, tx, c, he⟩ := hifUartOpen_registers uartOpens_plain rfl registers_init
  exact ⟨_, he, fun is =>
    hif_uart_ring_iff ⟨fun _ => Heap.not_live_nil, fun _ => rfl⟩ (.inl rfl) he is⟩

/-- `AT+UART=9600,0` when there is no memory for a block, neither for the new setting nor for the
old one. -/
def strandingChange : HifUartInput .uart :=
  .uartChange ⟨1, 9600, .disable, false⟩ ⟨false, []⟩ ⟨false, []⟩

theorem hif_uart_change_strands : ∃ s s',
    hifUartOpen_ .uart plainUart plainFifo ⟨true, []⟩ init = some (.ok, s) ∧
      s.step strandingChange = some s' ∧ ¬ s'.Synced ∧ s'.step (b := .uart) (.read 1) = none := by
  obtain ⟨block, tx, c, he⟩ := hifUartOpen_registers uartOpens_plain rfl registers_init
  have h : Following .uart _ := Unused.opened ⟨fun _ => Heap.not_live_nil, fun _ => rfl⟩
    (.inl rfl) he
  have hs : Strands plainUart ⟨1, 9600, .disable, false⟩ ⟨false, []⟩ ⟨false, []⟩ :=
    ⟨rfl, rfl, by simp [DmaOutcome.Free], by simp [DmaOutcome.Free]⟩
  obtain ⟨s', he', hs', hread⟩ := step_stranded (i := strandingChange) h rfl
    ⟨⟨rfl, by decide⟩, hs⟩
  exact ⟨_, s', he, he', hs', hread 1⟩

end NrcAtcmd
