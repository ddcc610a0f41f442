import NrcAtcmd.Lib.Machine
import NrcAtcmd.Proofs.HifUart

/-!
# The lifetime of the control blocks

A step uses no block after it was freed, frees none twice and loses none exactly if it is `Sound`:
the address that is kept is not that of a freed block where the code uses it, and nothing is
registered over a live block.
-/

namespace NrcAtcmd

open HifUartState

variable {b : HifBuild} {s s' : HifUartState} {new : HifUart} {dma dma' : DmaOutcome} {p : ℕ}

/-! ## Receiving -/

theorem dmaStore_size (f : ℕ × HifFifo) (dest : ℕ) (c : UInt8) :
    (dmaStore f dest c).2.size = f.2.size := by
  unfold dmaStore
  split_ifs <;> rfl

theorem dmaTransfer_inv (h : s.Inv b) (c : UInt8) :
    ∃ s', dmaTransfer c s = some s' ∧ s'.Inv b := by
  unfold dmaTransfer
  split_ifs
  · split
    · exact ⟨_, rfl, h⟩
    · next i hi =>
      have hon : (s.dmaChannel i).enable = true := by simpa using List.find?_some hi
      obtain ⟨d, hd⟩ := (h.chan i hon).exists
      obtain ⟨cursor, hadv, hnext⟩ :=
        Transfer.advance_of_lt (h.cursor i d hon hd) (h.desc _ d hd)
      simp only [hd, Option.bind_some, hadv, Option.bind_eq_bind]
      have hsame : ∀ j, (Function.update s.dmaChannel i
          { s.dmaChannel i with cursor := cursor } j).enable = (s.dmaChannel j).enable ∧
          (Function.update s.dmaChannel i
            { s.dmaChannel i with cursor := cursor } j).block = (s.dmaChannel j).block := by
        intro j
        rcases eq_or_ne j i with rfl | hne
        · rw [Function.update_self]
          exact ⟨rfl, rfl⟩
        · rw [Function.update_of_ne hne]
          exact ⟨rfl, rfl⟩
      refine ⟨_, rfl, ⟨⟨h.live, fun j hj => ?_, h.closed⟩, h.channel, fun f hf => ?_,
        fun j hj => ?_, h.desc, fun j e hj he => ?_⟩⟩
      · rw [(hsame j).1] at hj
        rw [(hsame j).2]
        exact h.chan j hj
      · obtain ⟨g, hg, rfl⟩ := Option.map_eq_some_iff.1 hf
        rw [dmaStore_size]
        exact h.fifo g hg
      · rw [(hsame j).1] at hj
        exact h.enabled j hj
      · rw [(hsame j).1] at hj
        rw [(hsame j).2] at he
        rcases eq_or_ne j i with rfl | hne
        · simp only [Function.update_self]
          obtain rfl := Option.some.inj (hd.symm.trans he)
          exact hnext
        · simp only [Function.update_of_ne hne]
          exact h.cursor j e hj he
  · exact ⟨_, rfl, h⟩

theorem hifUartRxIsr_inv (h : s.Inv b) {f : ℕ × HifFifo} (hf : s.rxFifo = some f) (data : Bytes) :
    ∃ s', hifUartRxIsr_ data s = some s' ∧ s'.Inv b := by
  have hsize : ∀ (l : Bytes) (g : HifFifo), (l.foldl hifFifoPutc_ g).size = g.size := by
    intro l
    induction l with
    | nil => exact fun g => rfl
    | cons c l ih => exact fun g => ih _
  simp only [hifUartRxIsr_, hf, Option.bind_eq_bind, Option.bind_some]
  refine ⟨_, rfl, h.frame (fun p => rfl) rfl rfl id (.inr rfl) fun g hg => ?_⟩
  obtain rfl := Option.some.inj hg
  exact (hsize _ _).trans (h.fifo f hf)

theorem hifUartReceive_inv (h : s.Inv b) (hf : s.rxIrq = true → s.rxFifo.isSome) (data : Bytes) :
    ∃ s', hifUartReceive data s = some s' ∧ s'.Inv b := by
  unfold hifUartReceive
  split_ifs with hi
  · obtain ⟨f, hf⟩ := Option.isSome_iff_exists.1 (hf hi)
    exact hifUartRxIsr_inv h hf data
  · clear hf hi
    induction data generalizing s with
    | nil => exact ⟨s, rfl, h⟩
    | cons c data ih =>
      obtain ⟨s₁, he, h₁⟩ := dmaTransfer_inv h c
      obtain ⟨s₂, he₂, h₂⟩ := ih h₁
      refine ⟨s₂, ?_, h₂⟩
      rw [List.foldlM_cons, he]
      exact he₂

theorem hifDmaInttcIsr_inv (h : s.Inv b)
    (hf : (∃ c < hifDmaChannelMax, (s.dmaChannel c).enable = true) → s.rxFifo.isSome) :
    ∃ r s', hifDmaInttcIsr_ s = some (r, s') ∧ s'.Inv b := by
  unfold hifDmaInttcIsr_
  split_ifs with hc
  · simp only [List.any_eq_true, List.mem_range] at hc
    obtain ⟨f, hf⟩ := Option.isSome_iff_exists.1 (hf hc)
    obtain ⟨c, -, hon⟩ := hc
    obtain ⟨d, hd⟩ := (h.chan c hon).exists
    simp only [hifUartRxDmaInttcIsr_, hf, h.live _ (h.chan c hon), hd, Option.bind_eq_bind,
      Option.bind_some]
    split_ifs
    · exact ⟨_, _, rfl, h⟩
    · exact ⟨_, _, rfl, h.frame (fun p => rfl) (h.live _ (h.chan c hon)).symm rfl id (.inr rfl)
        fun g hg => h.fifo g (hf.trans hg)⟩
    · exact ⟨_, _, rfl, h⟩
  · exact ⟨_, _, rfl, h⟩

theorem HifUartState.Inv.put (h : s.Inv b) {d e : HifUartDma} (hd : Heap.get s.heap p = some d)
    (he : e.desc = d.desc) : HifUartState.Inv b { s with heap := s.heap.set p (some e) } := by
  have hp := Heap.live_of_get hd
  have hl : ∀ q, Heap.Live (s.heap.set p (some e)) q ↔ Heap.Live s.heap q := fun q =>
    Heap.live_set_some_iff hp
  have hget : ∀ q a, Heap.get (s.heap.set p (some e)) q = some a →
      ∃ a', Heap.get s.heap q = some a' ∧ a.desc = a'.desc := fun q a ha => by
    rw [Heap.get_set hp] at ha
    split_ifs at ha with hq
    · obtain rfl := Option.some.inj ha
      exact ⟨d, hq ▸ hd, he⟩
    · exact ⟨a, ha, rfl⟩
  refine ⟨⟨fun q hq => h.live q ((hl q).1 hq), fun c hc => (hl _).2 (h.chan c hc),
    fun hc q hq => h.closed hc q ((hl q).1 hq)⟩, h.channel, h.fifo, h.enabled, ?_, ?_⟩
  · intro q a ha
    obtain ⟨a', ha', hdesc⟩ := hget q a ha
    rw [hdesc]
    exact h.desc q a' ha'
  · intro c a hc ha
    obtain ⟨a', ha', hdesc⟩ := hget _ a ha
    rw [hdesc]
    exact h.cursor c a' hc ha'

theorem hifFifoWrite_size (f : HifFifo) (buf : Option Bytes) (len : ℕ) :
    (hifFifoWrite_ f buf len).2.size = f.size := by
  unfold hifFifoWrite_
  split_ifs <;> rfl

theorem hifFifoRead_size (f : HifFifo) (buf : Bool) (len : ℕ) :
    (hifFifoRead_ f buf len).2.2.size = f.size := by
  unfold hifFifoRead_
  split_ifs <;> rfl

theorem hifUartRxDmaUpdateFifo_inv (h : s.Inv b) (hf : s.rxFifo.isSome) (hp : s.rxDma = some p)
    (hl : Heap.Live s.heap p) :
    ∃ r s', hifUartRxDmaUpdateFifo_ s = some (r, s') ∧ s'.Inv b ∧ s'.rxFifo.isSome := by
  obtain ⟨⟨addr, fifo⟩, hf⟩ := Option.isSome_iff_exists.1 hf
  obtain ⟨d, hd⟩ := hl.exists
  obtain ⟨done, hdone⟩ : ∃ n, hifUartRxDmaDoneSize_ d (s.dmaChannel d.channel).cursor.dest = n :=
    ⟨_, rfl⟩
  obtain ⟨rts, he⟩ := hifUartRxDmaUpdateFifo_eq hf hp hd hdone
  rw [he]
  split_ifs
  · exact ⟨_, _, rfl, h, by simp [hf]⟩
  · exact ⟨_, _, rfl, h.frame (fun p => rfl) rfl rfl id (.inr rfl) h.fifo, by simp [hf]⟩
  · have hput := h.put (e := { d with slotAddr := d.nextSlot done }) hd rfl
    refine ⟨_, _, rfl, hput.frame (fun p => rfl) rfl rfl id (.inr rfl) fun g hg => ?_, rfl⟩
    obtain rfl := Option.some.inj hg
    exact (hifFifoWrite_size _ _ _).trans (h.fifo _ hf)

/-- The read takes the bytes of the DMA into the FIFO first. -/
def HifUartState.ReadsDma (s : HifUartState) : Prop :=
  s.uart.channel = 1 ∧ s.rxFifo.isSome ∧ ¬ (s.uart.hfc = .enable ∧ s.uart.hfcRxIrq = true)

theorem hifUartRead_inv (h : s.Inv b)
    (hr : s.ReadsDma → ∃ p, s.rxDma = some p ∧ Heap.Live s.heap p) (len : ℕ) :
    ∃ r s', hifUartRead_ len s = some (r, s') ∧ s'.2.Inv b := by
  have hread : ∀ {t : HifUartState} {f : ℕ × HifFifo}, t.Inv b → t.rxFifo = some f →
      { t with rxFifo := some (f.1, (hifFifoRead_ f.2 true len).2.2) }.Inv b := by
    intro t f ht hf
    refine ht.frame (fun p => rfl) rfl rfl id (.inr rfl) fun g hg => ?_
    obtain rfl := Option.some.inj hg
    exact (hifFifoRead_size _ _ _).trans (ht.fifo f hf)
  unfold hifUartRead_
  split_ifs with hc hn hi
  · exact ⟨_, _, rfl, h⟩
  · exact ⟨_, _, rfl, h⟩
  · obtain ⟨f, hf⟩ := Option.isSome_iff_exists.1 (Option.isSome_iff_ne_none.2 (by simpa using hn))
    simp only [hf, Option.bind_eq_bind, Option.bind_some]
    exact ⟨_, _, rfl, hread h hf⟩
  · have hf : s.rxFifo.isSome := Option.isSome_iff_ne_none.2 (by simpa using hn)
    have hc1 : s.uart.channel = 1 := by
      rcases h.channel with hc1 | ⟨hc1, -⟩
      · exact hc1
      · rw [hc1] at hc
        exact absurd (by decide) hc
    obtain ⟨p, hp, hl⟩ := hr ⟨hc1, hf, hi⟩
    obtain ⟨r, s₁, he, h₁, hf₁⟩ := hifUartRxDmaUpdateFifo_inv h hf hp hl
    simp only [he, Option.bind_eq_bind, Option.bind_some]
    split_ifs
    · exact ⟨_, _, rfl, h₁⟩
    · obtain ⟨f, hf⟩ := Option.isSome_iff_exists.1 hf₁
      simp only [hf, Option.bind_some]
      exact ⟨_, _, rfl, hread h₁ hf⟩

theorem hifUartClose_inv (h : s.Inv b) (hd : s.uart.channel = 1 → ¬ s.Dangling) :
    ∃ s', hifUartClose_ s = some s' ∧ s'.Inv b := by
  unfold hifUartClose_
  split_ifs with hc
  · have hc : s.uart.channel = 1 := by simpa [hifUartChannelValid_] using hc
    obtain ⟨ch, heap, he, hheap, hch⟩ := hifUartDmaUnregister_spec h hc (hd hc)
    rw [he]
    have hval : hifUartChannelValid_ s.uart.channel = true := by
      rw [hc]
      rfl
    simp only [Option.bind_eq_bind, Option.bind_some, hifUartDisable_, hval, if_true,
      hifUartFifoDelete_]
    refine ⟨_, rfl, .of_unused hheap hch (.inr ⟨rfl, rfl⟩) fun f hf => ?_⟩
    cases hf
  · exact ⟨_, rfl, h⟩

/-! ## What receiving and reading keep -/

namespace HifUartState

variable {s'' : HifUartState}

/-- The setting, the control blocks and the channels are the same, and so is whether there is a
FIFO. -/
structure Keeps (s s' : HifUartState) : Prop where
  type : s'.type = s.type
  uart : s'.uart = s.uart
  rxFifo : s'.rxFifo.isSome = s.rxFifo.isSome
  rxIrq : s'.rxIrq = s.rxIrq
  rxDma : s'.rxDma = s.rxDma
  live : ∀ p, Heap.Live s'.heap p ↔ Heap.Live s.heap p
  chan : ∀ c, (s'.dmaChannel c).enable = (s.dmaChannel c).enable ∧
    (s'.dmaChannel c).block = (s.dmaChannel c).block

theorem Keeps.of_eq (htype : s'.type = s.type) (huart : s'.uart = s.uart)
    (hf : s'.rxFifo.isSome = s.rxFifo.isSome) (hirq : s'.rxIrq = s.rxIrq)
    (hrx : s'.rxDma = s.rxDma) (hheap : s'.heap = s.heap) (hch : s'.dmaChannel = s.dmaChannel) :
    Keeps s s' :=
  ⟨htype, huart, hf, hirq, hrx, fun p => by rw [hheap], fun c => by rw [hch]; exact ⟨rfl, rfl⟩⟩

theorem Keeps.refl (s : HifUartState) : Keeps s s := .of_eq rfl rfl rfl rfl rfl rfl rfl

theorem Keeps.trans (h : Keeps s s') (h' : Keeps s' s'') : Keeps s s'' :=
  ⟨h'.type.trans h.type, h'.uart.trans h.uart, h'.rxFifo.trans h.rxFifo,
    h'.rxIrq.trans h.rxIrq, h'.rxDma.trans h.rxDma,
    fun p => (h'.live p).trans (h.live p),
    fun c => ⟨(h'.chan c).1.trans (h.chan c).1, (h'.chan c).2.trans (h.chan c).2⟩⟩

theorem Keeps.owned (h : Keeps s s') (ho : Owned s) : Owned s' where
  live p hp := by rw [h.rxDma, ho.live p ((h.live p).1 hp)]
  chan c hc := by
    rw [(h.chan c).1] at hc
    rw [(h.chan c).2]
    exact (h.live _).2 (ho.chan c hc)
  closed hc p hp := ho.closed (h.uart ▸ hc) p ((h.live p).1 hp)

theorem keeps_dmaTransfer {c : UInt8} (h : dmaTransfer c s = some s') : Keeps s s' := by
  unfold dmaTransfer at h
  split_ifs at h
  · split at h
    · obtain rfl := Option.some.inj h
      exact .refl s
    · next i _ =>
      obtain ⟨cursor, -, h⟩ := Option.bind_eq_some_iff.1 h
      obtain rfl := Option.some.inj h
      refine ⟨rfl, rfl, Option.isSome_map, rfl, rfl, fun _ => Iff.rfl, fun j => ?_⟩
      rcases eq_or_ne j i with rfl | hne
      · simp
      · simp [Function.update_of_ne hne]
  · obtain rfl := Option.some.inj h
    exact .refl s

theorem keeps_hifUartReceive {data : Bytes} (h : hifUartReceive data s = some s') :
    Keeps s s' := by
  unfold hifUartReceive at h
  split_ifs at h with hi
  · obtain ⟨f, hf, h⟩ := Option.bind_eq_some_iff.1 h
    obtain rfl := Option.some.inj h
    exact .of_eq rfl rfl (by rw [hf]; rfl) rfl rfl rfl rfl
  · clear hi
    induction data generalizing s with
    | nil =>
      obtain rfl := Option.some.inj h
      exact .refl s
    | cons c data ih =>
      obtain ⟨s₁, h₁, h⟩ := Option.bind_eq_some_iff.1 h
      exact (keeps_dmaTransfer h₁).trans (ih h)

theorem keeps_hifDmaInttcIsr {r : HifRet} (h : hifDmaInttcIsr_ s = some (r, s')) :
    Keeps s s' := by
  unfold hifDmaInttcIsr_ at h
  split_ifs at h
  · simp only [hifUartRxDmaInttcIsr_, Option.bind_eq_bind, Option.bind_eq_some_iff] at h
    obtain ⟨f, -, p, -, d, -, h⟩ := h
    split_ifs at h <;> obtain ⟨-, rfl⟩ := Option.some.inj h
    all_goals exact .of_eq rfl rfl rfl rfl rfl rfl rfl
  · obtain ⟨-, rfl⟩ := Option.some.inj h
    exact .refl s

theorem keeps_hifUartRxDmaUpdateFifo {r : HifRet}
    (h : hifUartRxDmaUpdateFifo_ s = some (r, s')) : Keeps s s' := by
  have hparts := h
  simp only [hifUartRxDmaUpdateFifo_, Option.bind_eq_bind, Option.bind_eq_some_iff] at hparts
  obtain ⟨⟨addr, fifo⟩, hf, p, hp, d, hd, -⟩ := hparts
  obtain ⟨rts, he⟩ := hifUartRxDmaUpdateFifo_eq hf hp hd rfl
  rw [he] at h
  split_ifs at h <;> obtain ⟨-, rfl⟩ := Option.some.inj h
  · exact .refl s
  · exact .of_eq rfl rfl rfl rfl rfl rfl rfl
  · exact ⟨rfl, rfl, by rw [hf]; rfl, rfl, rfl, fun q => Heap.live_set_some_iff (Heap.live_of_get hd),
      fun _ => ⟨rfl, rfl⟩⟩

theorem keeps_hifUartRead {len : ℕ} {r : HifRet} {data : Bytes}
    (h : hifUartRead_ len s = some (r, data, s')) : Keeps s s' := by
  have hcopy : ∀ {t : HifUartState} (r₁ : HifRet), Keeps s t →
      (if r₁ = .halted then some (HifRet.halted, ([] : Bytes), t)
        else t.rxFifo.bind fun f => some (HifRet.ok, (hifFifoRead_ f.2 true len).2.1,
          { t with rxFifo := some (f.1, (hifFifoRead_ f.2 true len).2.2) })) = some (r, data, s') →
      Keeps s s' := by
    intro t r₁ ht h
    split_ifs at h
    · obtain ⟨-, -, rfl⟩ := Option.some.inj h
      exact ht
    · obtain ⟨f, hf, h⟩ := Option.bind_eq_some_iff.1 h
      obtain ⟨-, -, rfl⟩ := Option.some.inj h
      exact ht.trans (.of_eq rfl rfl (by rw [hf]; rfl) rfl rfl rfl rfl)
  unfold hifUartRead_ at h
  split_ifs at h
  · obtain ⟨-, -, rfl⟩ := Option.some.inj h
    exact .refl s
  · obtain ⟨-, -, rfl⟩ := Option.some.inj h
    exact .refl s
  · exact hcopy .ok (.refl s) h
  · obtain ⟨⟨r₁, s₁⟩, h₁, h⟩ := Option.bind_eq_some_iff.1 h
    exact hcopy r₁ (keeps_hifUartRxDmaUpdateFifo h₁) h

end HifUartState

/-! ## The machine -/

/-- The step neither uses a block that is freed nor loses one. -/
def HifUartState.Sound (s : HifUartState) : HifUartInput b → Prop
  | .uartOpen type uart fifo dma =>
    UartOpens type uart fifo → uart.usesDma = true → s.Registers dma → ∀ p, ¬ Heap.Live s.heap p
  | .uartChange new dma _ =>
    new.Valid → s.uart.channel = 1 ∧
      (s.uart.usesDma = true → ¬ s.Dangling) ∧
      (s.uart.usesDma = false → new.usesDma = true → s.rxFifo.isSome → s.Registers dma →
        ∀ p, ¬ Heap.Live s.heap p)
  | .uartClose => s.uart.channel = 1 → ¬ s.Dangling
  | .receive _ => s.rxIrq = true → s.rxFifo.isSome
  | .inttc => (∃ c < hifDmaChannelMax, (s.dmaChannel c).enable = true) → s.rxFifo.isSome
  | .read _ => s.ReadsDma → ∃ p, s.rxDma = some p ∧ Heap.Live s.heap p

theorem HifUartState.Inv.after {r : HifRet × HifUartState} (h : r.2.Inv b) :
    (after r).Inv b :=
  h.frame (fun _ => rfl) rfl rfl id (.inr rfl) h.fifo

theorem step_sound (h : s.Inv b) (i : HifUartInput b) (hi : s.halted = false → s.Sound i) :
    ∃ s', s.step i = some s' ∧ s'.Inv b := by
  unfold HifUartState.step
  split_ifs with hh
  · exact ⟨s, rfl, h⟩
  · replace hi := hi (by simpa using hh)
    cases i with
    | uartOpen type uart fifo dma =>
      obtain ⟨r, s', he, -, h'⟩ := hifUartOpen_inv h hi
      exact ⟨_, by simp only [he, Option.map_some], Inv.after (r := (r, s')) h'⟩
    | uartChange new dma dma' =>
      by_cases hv : new.Valid
      · obtain ⟨hc, hd, hr⟩ := hi hv
        obtain ⟨r, s', he, -, h'⟩ := hifUartChange_inv dma' h hv hc hd hr
        exact ⟨_, by simp only [he, Option.map_some], Inv.after (r := (r, s')) h'⟩
      · exact ⟨_, by simp only [hifUartChange_invalid hv, Option.map_some],
          Inv.after (r := (.invalid, s)) h⟩
    | uartClose => exact hifUartClose_inv h hi
    | receive data => exact hifUartReceive_inv h hi data
    | inttc =>
      obtain ⟨r, s', he, h'⟩ := hifDmaInttcIsr_inv h hi
      exact ⟨_, by simp only [he, Option.map_some], Inv.after (r := (r, s')) h'⟩
    | read len =>
      obtain ⟨r, s', he, h'⟩ := hifUartRead_inv h hi len
      exact ⟨_, by simp only [he, Option.map_some], Inv.after (r := (r, s'.2)) h'⟩

/-- Two live blocks are one too many. -/
theorem not_owned_registered {c addr n : ℕ} (hp : Heap.Live s.heap p)
    (hs' : s'.heap = (s.registered c addr n).heap) : ¬ Owned s' := fun ho => by
  have hl₁ : Heap.Live s'.heap p := by
    rw [hs']
    exact Heap.live_alloc_iff.2 (.inl hp)
  have hl₂ : Heap.Live s'.heap s.heap.length := by
    rw [hs']
    exact Heap.live_alloc_iff.2 (.inr rfl)
  have := hp.lt
  have := Option.some.inj ((ho.live _ hl₁).symm.trans (ho.live _ hl₂))
  omega

theorem hifUartOpen_registers {type : HifType} {uart : HifUart} {fifo : FifoOutcome b}
    (ho : UartOpens type uart fifo) (hd : uart.usesDma = true) (hr : s.Registers dma) :
    ∃ (block : Block b.rxFifoSize) (tx : Option (ℕ × HifFifo)) (c : ℕ),
      hifUartOpen_ type uart fifo dma s = some (.ok, HifUartState.registered
        (HifUartState.enabled { s with rxFifo := some (hifFifoAlloc block), txFifo := tx } uart)
        c block.addr b.rxFifoSize) := by
  obtain ⟨block, tx, -, he⟩ := hifUartOpen_opens (s := s) dma ho
  set s₁ := HifUartState.enabled { s with rxFifo := some (hifFifoAlloc block), txFifo := tx } uart
    with hs₁
  have hc : s₁.uart.channel = 1 := by simp [hs₁, HifUartState.enabled, ho.2.1.1]
  have hf : s₁.rxFifo = some (block.addr, hifFifoCreate_ block.bytes) := rfl
  have hr₁ : s₁.Registers dma := hr
  obtain ⟨c, -, hreg⟩ := hifUartDmaRegister_ok (b := b) hc hf block.length hr₁
  refine ⟨block, tx, c, ?_⟩
  rw [he]
  simp only [hd, if_true, hreg, hifFifoCreate_, block.length, ← hs₁]

theorem hifUartOpen_loses {type : HifType} {uart : HifUart} {fifo : FifoOutcome b}
    {r : HifRet × HifUartState} (ho : UartOpens type uart fifo) (hd : uart.usesDma = true)
    (hr : s.Registers dma) (hp : Heap.Live s.heap p)
    (he : hifUartOpen_ type uart fifo dma s = some r) : ¬ Owned (after r) := by
  obtain ⟨block, tx, c, he'⟩ := hifUartOpen_registers ho hd hr
  obtain rfl := Option.some.inj (he'.symm.trans he)
  exact not_owned_registered (s := HifUartState.enabled
    { s with rxFifo := some (hifFifoAlloc block), txFifo := tx } uart) hp rfl

theorem hifUartChange_loses {r : HifRet × HifUartState} (h : s.Inv b) (hv : new.Valid)
    (hu : s.uart.usesDma = false) (hn : new.usesDma = true) (hf : s.rxFifo.isSome)
    (hr : s.Registers dma) (hp : Heap.Live s.heap p)
    (he : hifUartChange_ new dma dma' s = some r) : ¬ Owned (after r) := by
  obtain ⟨f, hf⟩ := Option.isSome_iff_exists.1 hf
  set s₁ := (s.enabled new).emptied with hs₁
  have hc : s₁.uart.channel = 1 := by simp [hs₁, HifUartState.enabled, emptied, hv.1]
  have hf₁ : s₁.rxFifo = some (f.1, hifFifoReset_ f.2) := by
    simp [hs₁, HifUartState.enabled, emptied, hf]
  have hr₁ : s₁.Registers dma := hr
  obtain ⟨c, -, hreg⟩ := hifUartDmaRegister_ok (b := b) hc hf₁ (h.fifo f hf) hr₁
  rw [hifUartChange_valid hv] at he
  simp only [hu, Bool.false_eq_true, if_false, Option.bind_some, hifUartSwitch, hn, if_true,
    ← hs₁, hreg, hifUartSettle] at he
  obtain rfl := Option.some.inj he
  exact not_owned_registered (s := s₁) hp rfl

theorem hifUartChange_refuses (h : s.Inv b) (hv : new.Valid)
    (hs : s.uart.channel ≠ 1 ∨ s.uart.usesDma = true ∧ s.Dangling) :
    hifUartChange_ new dma dma' s = none := by
  rw [hifUartChange_valid hv]
  by_cases hc : s.uart.channel = 1
  · obtain ⟨hu, hd⟩ := hs.resolve_left (not_not.2 hc)
    rw [if_pos hu, hifUartDmaUnregister_dangling hc hd, Option.bind_none]
  · obtain ⟨hc, hfc⟩ := h.channel.resolve_left hc
    rw [if_pos (by simp [HifUart.usesDma, hfc]), hifUartDmaUnregister_closed hc, Option.bind_none]

theorem hifUartClose_dangling (hc : s.uart.channel = 1) (hd : s.Dangling) :
    hifUartClose_ s = none := by
  simp [hifUartClose_, hifUartChannelValid_, hc, hifUartDmaUnregister_dangling hc hd]

theorem hifUartRead_refuses (hr : s.ReadsDma) (hn : ¬ ∃ p, s.rxDma = some p ∧ Heap.Live s.heap p)
    (len : ℕ) : hifUartRead_ len s = none := by
  obtain ⟨hc, hf, hi⟩ := hr
  have hu : hifUartRxDmaUpdateFifo_ s = none := by
    obtain ⟨f, hf⟩ := Option.isSome_iff_exists.1 hf
    rcases hp : s.rxDma with _ | p
    · simp only [hifUartRxDmaUpdateFifo_, hf, hp, Option.bind_eq_bind, Option.bind_some,
        Option.bind_none]
    · have hl : ¬ Heap.Live s.heap p := fun hl => hn ⟨p, hp, hl⟩
      simp only [hifUartRxDmaUpdateFifo_, hf, hp, Heap.get_of_not_live hl, Option.bind_eq_bind,
        Option.bind_some, Option.bind_none]
  have hnn : ¬ s.rxFifo.isNone = true := by simpa [Option.isSome_iff_ne_none] using hf
  unfold hifUartRead_
  rw [if_neg (by omega), if_neg hnn, if_neg hi, hu]
  rfl

theorem step_unsound (h : s.Inv b) (i : HifUartInput b) (hh : s.halted = false) (hi : ¬ s.Sound i)
    (he : s.step i = some s') : ¬ Owned s' := by
  simp only [HifUartState.step, hh, Bool.false_eq_true, if_false] at he
  cases i with
  | uartOpen type uart fifo dma =>
    simp only [Sound, not_forall, not_not] at hi
    obtain ⟨ho, hd, hr, p, hp⟩ := hi
    obtain ⟨r, hcall, rfl⟩ := Option.map_eq_some_iff.1 he
    exact hifUartOpen_loses ho hd hr hp hcall
  | uartChange new dma dma' =>
    simp only [Sound, not_forall] at hi
    obtain ⟨hv, hi⟩ := hi
    obtain ⟨r, hcall, rfl⟩ := Option.map_eq_some_iff.1 he
    by_cases hs : s.uart.channel ≠ 1 ∨ s.uart.usesDma = true ∧ s.Dangling
    · rw [hifUartChange_refuses h hv hs] at hcall
      cases hcall
    · obtain ⟨hc, hd⟩ := not_or.1 hs
      rw [not_not] at hc
      simp only [hc, true_and, not_and_or, not_forall, not_not] at hi
      rcases hi with ⟨hu, hd'⟩ | ⟨hu, hn, hf, hr, p, hp⟩
      · exact absurd ⟨hu, hd'⟩ hd
      · exact hifUartChange_loses h hv hu hn hf hr hp hcall
  | uartClose =>
    simp only [Sound, not_forall, not_not] at hi
    obtain ⟨hc, hd⟩ := hi
    simp only [hifUartClose_dangling hc hd, reduceCtorEq] at he
  | receive data =>
    simp only [Sound, not_forall, Option.not_isSome_iff_eq_none] at hi
    obtain ⟨hr, hf⟩ := hi
    simp [hifUartReceive, hr, hifUartRxIsr_, hf] at he
  | inttc =>
    simp only [Sound, not_forall, Option.not_isSome_iff_eq_none] at hi
    obtain ⟨hc, hf⟩ := hi
    have hany : ((List.range hifDmaChannelMax).any fun c => (s.dmaChannel c).enable) = true := by
      simpa only [List.any_eq_true, List.mem_range] using hc
    simp [hifDmaInttcIsr_, hany, hifUartRxDmaInttcIsr_, hf] at he
  | read len =>
    simp only [Sound, not_forall] at hi
    obtain ⟨hr, hn⟩ := hi
    simp only [hifUartRead_refuses hr hn, Option.map_none, reduceCtorEq] at he

/-- An open without flow control for which there is everything. -/
def plainUart : HifUart := ⟨1, 115200, .disable, false⟩

def plainFifo : FifoOutcome .uart :=
  ⟨some ⟨0x20000000, List.replicate _ 0, List.length_replicate, by decide⟩, none⟩

theorem uartOpens_plain : UartOpens .uart plainUart plainFifo :=
  ⟨.inl rfl, ⟨rfl, by decide⟩, rfl, fun h => absurd h (by decide)⟩

theorem registers_init : init.Registers ⟨true, []⟩ := ⟨rfl, by decide⟩

end NrcAtcmd
