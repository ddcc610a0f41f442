import NrcAtcmd.HifUart

/-!
# The control blocks of the UART's DMA

A control block is live from its registration until it is freed. `Owned` says that the code can
still free the live block, that no channel runs on a block that is freed, and that a closed UART
has none.
-/

namespace NrcAtcmd

namespace HifUartState

/-- No block is lost, and no channel is. -/
structure Owned (s : HifUartState) : Prop where
  live : ∀ p, Heap.Live s.heap p → s.rxDma = some p
  chan : ∀ c, (s.dmaChannel c).enable = true → Heap.Live s.heap (s.dmaChannel c).block
  closed : s.uart.channel = -1 → ∀ p, ¬ Heap.Live s.heap p

/-- Nothing is registered. -/
structure Unused (s : HifUartState) : Prop where
  heap : ∀ p, ¬ Heap.Live s.heap p
  chan : ∀ c, (s.dmaChannel c).enable = false

/-- The address kept is that of a freed block. -/
def Dangling (s : HifUartState) : Prop := ∃ p, s.rxDma = some p ∧ ¬ Heap.Live s.heap p

/-- What every call keeps. -/
structure Inv (b : HifBuild) (s : HifUartState) : Prop extends Owned s where
  channel : s.uart.channel = 1 ∨ s.uart.channel = -1 ∧ s.uart.hfc = .disable
  fifo : ∀ f, s.rxFifo = some f → f.2.size = b.rxFifoSize
  enabled : ∀ c, (s.dmaChannel c).enable = true → s.dmaEnable = true
  desc : ∀ p d, Heap.get s.heap p = some d → ∀ x ∈ d.desc, x.next < d.desc.length
  cursor : ∀ c d, (s.dmaChannel c).enable = true →
    Heap.get s.heap (s.dmaChannel c).block = some d →
    (s.dmaChannel c).cursor.next < d.desc.length

end HifUartState

variable {b : HifBuild} {s s' : HifUartState} {dma dma' : DmaOutcome} {uart new : HifUart} {p : ℕ}

open HifUartState

theorem HifBuild.dvd_rxFifoSize (b : HifBuild) : hifUartSlotSize ∣ b.rxFifoSize := by
  cases b <;> decide

theorem HifBuild.limit_le_rxFifoSize (b : HifBuild) :
    2 * hifUartHfcDmaRxSwFifoLimit ≤ b.rxFifoSize := by
  cases b <;> decide

theorem HifBuild.rxSlots_pos (b : HifBuild) : 0 < b.rxFifoSize / hifUartSlotSize := by
  cases b <;> decide

theorem HifBuild.rxFifoSize_pos (b : HifBuild) : 0 < b.rxFifoSize := by
  cases b <;> decide

theorem HifUartState.Inv.init : HifUartState.init.Inv b where
  live p hp := by simp [HifUartState.init] at hp
  chan c hc := by simp [HifUartState.init] at hc
  closed _ p := by simp [HifUartState.init]
  channel := .inr ⟨rfl, rfl⟩
  fifo f hf := by simp [HifUartState.init] at hf
  enabled c hc := by simp [HifUartState.init] at hc
  desc p d hp := by simp [HifUartState.init, Heap.get] at hp
  cursor c d hc := by simp [HifUartState.init] at hc

/-! ## Unregistering -/

theorem hifUartRegBase_open (h : s.uart.channel = 1) : hifUartRegBase s = some () := by
  rw [hifUartRegBase, h, if_pos (by decide)]

theorem hifUartRegBase_closed (h : s.uart.channel = -1) : hifUartRegBase s = none := by
  rw [hifUartRegBase, h, if_neg (by decide)]

theorem hifDmaStop_spec (c : ℕ) (s : HifUartState) : ∃ ch,
    hifDmaStop_ c s = { s with dmaChannel := ch } ∧
      ∀ i, (ch i).enable = true → (s.dmaChannel i).enable = true := by
  unfold hifDmaStop_
  split_ifs
  · refine ⟨_, rfl, fun i hi => ?_⟩
    rcases eq_or_ne i c with rfl | hne
    · simp at hi
    · rwa [Function.update_of_ne hne] at hi
  · exact ⟨_, rfl, fun i => id⟩

theorem hifDmaDisable_spec (h : ∀ c, (s.dmaChannel c).enable = true → s.dmaEnable = true) : ∃ ch,
    hifDmaDisable_ s = { s with dmaChannel := ch, dmaEnable := false } ∧
      ∀ c, (ch c).enable = false := by
  unfold hifDmaDisable_
  split_ifs with hs
  · exact ⟨_, rfl, fun c => rfl⟩
  · rw [Bool.not_eq_true] at hs
    refine ⟨s.dmaChannel, by rw [← hs], fun c => Bool.eq_false_iff.2 fun hc => ?_⟩
    rw [h c hc] at hs
    cases hs

theorem hifUartRxDmaUnregister_spec (h : ∀ p, Heap.Live s.heap p → s.rxDma = some p)
    (hd : ¬ s.Dangling) : ∃ ch heap,
    hifUartRxDmaUnregister_ s = some { s with dmaChannel := ch, heap := heap } ∧
      (∀ p, ¬ Heap.Live heap p) ∧ ∀ c, (ch c).enable = true → (s.dmaChannel c).enable = true := by
  unfold hifUartRxDmaUnregister_
  split
  · next hp =>
    exact ⟨_, _, rfl, fun q hq => by simpa [hp] using h q hq, fun c => id⟩
  · next p hp =>
    have hl : Heap.Live s.heap p := by_contra fun hl => hd ⟨p, hp, hl⟩
    obtain ⟨d, hg⟩ := hl.exists
    obtain ⟨ch, he, hch⟩ := hifDmaStop_spec d.channel s
    refine ⟨ch, s.heap.set p none, ?_, fun q hq => ?_, hch⟩
    · simp only [hg, he, Heap.free_of_live hl, Option.bind_eq_bind, Option.bind_some]
    · obtain ⟨hq, hne⟩ := (Heap.live_set_none_iff hl).1 hq
      exact hne (Option.some.inj ((h q hq).symm.trans hp))

theorem hifUartDmaUnregister_spec (h : s.Inv b) (hc : s.uart.channel = 1) (hd : ¬ s.Dangling) :
    ∃ ch heap, hifUartDmaUnregister_ s =
        some { s with dmacr := false, dmaChannel := ch, heap := heap, dmaEnable := false } ∧
      (∀ p, ¬ Heap.Live heap p) ∧ ∀ c, (ch c).enable = false := by
  obtain ⟨ch, heap, he, hheap, hch⟩ :=
    hifUartRxDmaUnregister_spec (s := { s with dmacr := false }) h.live hd
  obtain ⟨ch', he', hch'⟩ := hifDmaDisable_spec
    (s := { s with dmacr := false, dmaChannel := ch, heap := heap })
    fun c hc => h.enabled c (hch c hc)
  refine ⟨ch', heap, ?_, hheap, hch'⟩
  simp only [hifUartDmaUnregister_, hifUartRegBase_open hc, he, he', Option.bind_eq_bind,
    Option.bind_some]

theorem hifUartDmaUnregister_dangling (h : s.uart.channel = 1) (hd : s.Dangling) :
    hifUartDmaUnregister_ s = none := by
  obtain ⟨p, hp, hl⟩ := hd
  simp only [hifUartDmaUnregister_, hifUartRegBase_open h, hifUartRxDmaUnregister_, hp,
    Heap.get_of_not_live hl, Option.bind_eq_bind, Option.bind_some, Option.bind_none]

theorem hifUartDmaUnregister_closed (h : s.uart.channel = -1) :
    hifUartDmaUnregister_ s = none := by
  simp only [hifUartDmaUnregister_, hifUartRegBase_closed h, Option.bind_eq_bind, Option.bind_none]

/-! ## Registering -/

/-- There are memory for a block and a channel for it. -/
def HifUartState.Registers (s : HifUartState) (dma : DmaOutcome) : Prop :=
  dma.malloc = true ∧ (hifDmaGetChannel_ dma.busy s).isSome

/-- The block of a transfer that starts. -/
def uartDmaBlock (channel addr size : ℕ) : HifUartDma :=
  ⟨channel, addr, size, addr, hifUartSlotSize, size / hifUartSlotSize,
    Transfer.ring addr hifUartSlotSize (size / hifUartSlotSize)⟩

/-- The state after a registration that succeeds. -/
def HifUartState.registered (s : HifUartState) (channel addr size : ℕ) : HifUartState :=
  { s with
    dmaEnable := true
    dmacr := true
    heap := Heap.alloc s.heap (uartDmaBlock channel addr size)
    rxDma := some s.heap.length
    dmaChannel := Function.update s.dmaChannel channel
      ⟨true, s.heap.length,
        Transfer.onRing addr hifUartSlotSize (size / hifUartSlotSize) 0⟩
    rxd := [] }

theorem hifUartDmaRegister_none (hc : s.uart.channel = 1) (hf : s.rxFifo = none) :
    hifUartDmaRegister_ dma s = some (.ok, { s with dmaEnable := true, dmacr := true }) := by
  simp [hifUartDmaRegister_, hifDmaEnable_, hf, hifUartRegBase, hc]

theorem rxFifo_large {fifo : HifFifo} (hn : fifo.size = b.rxFifoSize) (u : Bool) :
    (u && decide (fifo.size < 2 * hifUartHfcDmaRxSwFifoLimit)) = false := by
  have := b.limit_le_rxFifoSize
  rw [decide_eq_false (by omega), Bool.and_false]

theorem hifUartDmaRegister_ok (hc : s.uart.channel = 1) {addr : ℕ} {fifo : HifFifo}
    (hf : s.rxFifo = some (addr, fifo)) (hn : fifo.size = b.rxFifoSize) (hr : s.Registers dma) :
    ∃ c, hifDmaGetChannel_ dma.busy s = some c ∧
      hifUartDmaRegister_ dma s = some (.ok, s.registered c addr fifo.size) := by
  obtain ⟨hm, hch⟩ := hr
  obtain ⟨c, hch⟩ := Option.isSome_iff_exists.1 hch
  have hch' : hifDmaGetChannel_ dma.busy (hifDmaEnable_ s) = some c := hch
  have hslot : 0 < fifo.size / hifUartSlotSize := hn ▸ b.rxSlots_pos
  have hreg : hifUartRxDmaRegister_ addr fifo.size dma (hifDmaEnable_ s) =
      some (.ok, { s.registered c addr fifo.size with dmacr := s.dmacr }) := by
    simp only [hifUartRxDmaRegister_, hm, hch', Bool.true_eq_false, if_false, Option.bind_eq_bind]
    rw [show hifUartRxDmaDesc = Transfer.ring from rfl, Transfer.load_ring hslot]
    rfl
  refine ⟨c, hch, ?_⟩
  simp only [hifUartDmaRegister_, show (hifDmaEnable_ s).rxFifo = s.rxFifo from rfl, hf,
    rxFifo_large hn, Bool.false_eq_true, if_false, hreg, Option.bind_eq_bind, Option.bind_some,
    if_true, hifUartRegBase_open (s := { s.registered c addr fifo.size with dmacr := s.dmacr }) hc]
  rfl

/-- The state after a registration that fails. -/
structure Refused (s s' : HifUartState) : Prop where
  get : ∀ p, Heap.get s'.heap p = Heap.get s.heap p
  eq : s' = { s with dmaEnable := true, heap := s'.heap }

theorem hifUartDmaRegister_fail {addr : ℕ} {fifo : HifFifo}
    (hf : s.rxFifo = some (addr, fifo)) (hn : fifo.size = b.rxFifoSize) (hr : ¬ s.Registers dma) :
    ∃ s', hifUartDmaRegister_ dma s = some (.fail, s') ∧ Refused s s' := by
  have hreg : ∃ s', hifUartRxDmaRegister_ addr fifo.size dma (hifDmaEnable_ s) =
      some (.fail, s') ∧ Refused s s' := by
    unfold hifUartRxDmaRegister_
    split_ifs with hm
    · exact ⟨_, rfl, fun p => rfl, rfl⟩
    · have hch : hifDmaGetChannel_ dma.busy (hifDmaEnable_ s) = none := by
        by_contra hch
        exact hr ⟨by simpa using hm, Option.isSome_iff_ne_none.2 hch⟩
      simp only [hch, show (hifDmaEnable_ s).heap = s.heap from rfl, Heap.free_alloc,
        Option.bind_eq_bind, Option.bind_some]
      exact ⟨_, rfl, fun p => Heap.get_append_none, rfl⟩
  obtain ⟨s', hreg, hs'⟩ := hreg
  refine ⟨s', ?_, hs'⟩
  simp only [hifUartDmaRegister_, show (hifDmaEnable_ s).rxFifo = s.rxFifo from rfl, hf,
    rxFifo_large hn, Bool.false_eq_true, if_false, hreg, Option.bind_eq_bind, Option.bind_some,
    reduceCtorEq]

namespace HifUartState

/-! ## What keeps the invariant -/

theorem Inv.of_unused (hheap : ∀ p, ¬ Heap.Live s.heap p)
    (hch : ∀ c, (s.dmaChannel c).enable = false)
    (hc : s.uart.channel = 1 ∨ s.uart.channel = -1 ∧ s.uart.hfc = .disable)
    (hf : ∀ f, s.rxFifo = some f → f.2.size = b.rxFifoSize) : Inv b s where
  live p hp := absurd hp (hheap p)
  chan c hc := by simp [hch] at hc
  closed _ := hheap
  channel := hc
  fifo := hf
  enabled c hc := by simp [hch] at hc
  desc p d hp := absurd (Heap.live_of_get hp) (hheap p)
  cursor c d hc := by simp [hch] at hc

theorem Inv.frame (h : Inv b s) (hheap : ∀ p, Heap.get s'.heap p = Heap.get s.heap p)
    (hrx : s'.rxDma = s.rxDma) (hch : s'.dmaChannel = s.dmaChannel)
    (hen : s.dmaEnable = true → s'.dmaEnable = true)
    (hc : s'.uart.channel = 1 ∨ s'.uart = s.uart)
    (hf : ∀ f, s'.rxFifo = some f → f.2.size = b.rxFifoSize) : Inv b s' := by
  have hl : ∀ p, Heap.Live s'.heap p ↔ Heap.Live s.heap p := fun p => by simp only [Heap.Live, hheap]
  refine ⟨⟨fun p hp => ?_, fun c hc' => ?_, fun hcl p hp => ?_⟩, ?_, hf, fun c hc' => ?_, ?_, ?_⟩
  · rw [hrx, h.live p ((hl p).1 hp)]
  · rw [hch] at hc' ⊢
    exact (hl _).2 (h.chan c hc')
  · rcases hc with hc | hc
    · rw [hc] at hcl
      cases hcl
    · exact h.closed (hc ▸ hcl) p ((hl p).1 hp)
  · rcases hc with hc | hc
    · exact .inl hc
    · rw [hc]
      exact h.channel
  · rw [hch] at hc'
    exact hen (h.enabled c hc')
  · intro p d hp
    rw [hheap] at hp
    exact h.desc p d hp
  · intro c d hc' hp
    rw [hch] at hc' hp ⊢
    rw [hheap] at hp
    exact h.cursor c d hc' hp

theorem Inv.refused (h : Inv b s) (hr : Refused s s') : Inv b s' := by
  have he := hr.eq
  refine h.frame hr.get ?_ ?_ ?_ (.inr ?_) ?_
  all_goals rw [he]
  · exact fun _ => rfl
  · exact h.fifo

theorem Inv.registered (h : Inv b s) (hc : s.uart.channel = 1) (hheap : ∀ p, ¬ Heap.Live s.heap p)
    (c addr n : ℕ) (hn : 0 < n / hifUartSlotSize) : Inv b (s.registered c addr n) := by
  have hl : ∀ p, Heap.Live (s.registered c addr n).heap p ↔ p = s.heap.length := fun p => by
    rw [HifUartState.registered, Heap.live_alloc_iff, or_iff_right (hheap p)]
  have hoff : ∀ i, (s.dmaChannel i).enable = false := fun i =>
    Bool.eq_false_iff.2 fun hi => hheap _ (h.chan i hi)
  have hon : ∀ i, ((s.registered c addr n).dmaChannel i).enable = true → i = c := fun i hi => by
    by_contra hne
    simp [HifUartState.registered, Function.update_of_ne hne, hoff] at hi
  have hget : ∀ p d, Heap.get (s.registered c addr n).heap p = some d → d.desc =
      Transfer.ring addr hifUartSlotSize (n / hifUartSlotSize) := fun p d hp => by
    obtain rfl := (hl p).1 (Heap.live_of_get hp)
    rw [HifUartState.registered, Heap.get_alloc_self, Option.some.injEq] at hp
    rw [← hp]
    rfl
  refine ⟨⟨fun p hp => ?_, fun i hi => ?_, fun hcl => ?_⟩, .inl hc, h.fifo, fun i hi => rfl, ?_, ?_⟩
  · rw [(hl p).1 hp]
    rfl
  · obtain rfl := hon i hi
    rw [hl]
    simp [HifUartState.registered]
  · rw [show (s.registered c addr n).uart = s.uart from rfl, hc] at hcl
    cases hcl
  · intro p d hp x hx
    rw [hget p d hp] at hx ⊢
    exact Transfer.next_lt_of_mem_ring hx
  · intro i d hi hp
    obtain rfl := hon i hi
    rw [hget _ d hp, Transfer.length_ring]
    simp only [HifUartState.registered, Function.update_self]
    exact Nat.mod_lt _ hn

end HifUartState

/-- Registering keeps the invariant, unless it loses a block. -/
theorem hifUartDmaRegister_inv (dma : DmaOutcome) (h : s.Inv b) (hc : s.uart.channel = 1)
    (hr : s.rxFifo.isSome → s.Registers dma → ∀ p, ¬ Heap.Live s.heap p) :
    ∃ r s', hifUartDmaRegister_ dma s = some (r, s') ∧ s'.Inv b ∧
      (s'.uart = s.uart ∧ s'.type = s.type) ∧
      (r = .ok ∨ r = .fail ∧ ∀ p, Heap.Live s'.heap p → Heap.Live s.heap p) := by
  rcases hf : s.rxFifo with _ | ⟨addr, fifo⟩
  · exact ⟨_, _, hifUartDmaRegister_none hc hf, h.frame (fun p => rfl) rfl rfl (fun _ => rfl)
      (.inl hc) h.fifo, ⟨rfl, rfl⟩, .inl rfl⟩
  · have hn : fifo.size = b.rxFifoSize := h.fifo _ hf
    by_cases hreg : s.Registers dma
    · obtain ⟨c, -, he⟩ := hifUartDmaRegister_ok hc hf hn hreg
      refine ⟨_, _, he, h.registered hc (hr (by simp [hf]) hreg) c addr _ ?_, ⟨rfl, rfl⟩, .inl rfl⟩
      rw [hn]
      exact b.rxSlots_pos
    · obtain ⟨s', he, hs'⟩ := hifUartDmaRegister_fail hf hn hreg
      refine ⟨_, _, he, h.refused hs', by rw [hs'.eq]; exact ⟨rfl, rfl⟩, .inr ⟨rfl, fun p hp => ?_⟩⟩
      rwa [Heap.Live, hs'.get] at hp

/-! ## Enabling -/

/-- The setting that is stored for a request. -/
def HifUart.enabled (uart : HifUart) : HifUart :=
  if uart.hfc = .enable ∧ uart.hfcRxIrq = false then { uart with hfc := .ctsEnable } else uart

@[simp] theorem HifUart.channel_enabled (uart : HifUart) : uart.enabled.channel = uart.channel := by
  unfold HifUart.enabled
  split_ifs <;> rfl

@[simp] theorem HifUart.usesDma_enabled (uart : HifUart) : uart.enabled.usesDma = uart.usesDma := by
  unfold HifUart.enabled
  split_ifs with h
  · simp [HifUart.usesDma, h.2]
  · rfl

/-- The state with the UART enabled. -/
def HifUartState.enabled (s : HifUartState) (uart : HifUart) : HifUartState :=
  { s with uart := uart.enabled, rxIrq := !uart.usesDma }

theorem hifUartEnable_eq (uart : HifUart) (s : HifUartState) :
    hifUartEnable_ uart s = (uart.enabled, s.enabled uart) := by
  rw [HifUartState.enabled, ← HifUart.usesDma_enabled]
  rfl

/-- Disabling leaves nothing that enabling does not set. -/
theorem hifUartEnable_disable (uart : HifUart) (s : HifUartState) :
    hifUartEnable_ uart (hifUartDisable_ s) = (uart.enabled, s.enabled uart) := by
  rw [hifUartEnable_eq]
  unfold hifUartDisable_
  split_ifs <;> rfl

theorem HifUartState.Inv.enabling (h : s.Inv b) (hc : uart.channel = 1) : (s.enabled uart).Inv b :=
  h.frame (fun p => rfl) rfl rfl id (.inl (by simp [HifUartState.enabled, hc])) h.fifo

/-! ## Opening -/

/-- There is memory for the FIFOs. -/
def FifoOutcome.Given (o : FifoOutcome b) : Prop :=
  o.rx.isSome ∧ (0 < b.txFifoSize → o.tx.isSome)

theorem hifUartFifoCreate_ok {o : FifoOutcome b} (h : o.Given) :
    ∃ block tx, o.rx = some block ∧ hifUartFifoCreate_ o s =
      (.ok, { s with rxFifo := some (hifFifoAlloc block), txFifo := tx }) := by
  obtain ⟨hr, ht⟩ := h
  obtain ⟨block, hr⟩ := Option.isSome_iff_exists.1 hr
  have hn : ¬ (0 < b.txFifoSize ∧ o.tx.isNone = true) := fun hn => by
    simpa [Option.isNone_iff_eq_none.1 hn.2] using ht hn.1
  unfold hifUartFifoCreate_
  simp only [b.rxFifoSize_pos, if_true, hr, Option.map_some, true_and, Option.isNone_some,
    Bool.false_eq_true, if_false, if_neg hn]
  split_ifs
  · exact ⟨block, _, rfl, rfl⟩
  · exact ⟨block, _, rfl, rfl⟩

theorem hifUartFifoCreate_fail {o : FifoOutcome b} (h : ¬ o.Given) :
    ∃ tx, hifUartFifoCreate_ o s = (.fail, { s with rxFifo := none, txFifo := tx }) ∧
      (tx = s.txFifo ∨ tx = none) := by
  unfold hifUartFifoCreate_
  simp only [b.rxFifoSize_pos, if_true, true_and]
  rcases hr : o.rx with _ | block
  · exact ⟨_, rfl, .inl rfl⟩
  · have ht : 0 < b.txFifoSize ∧ o.tx.isNone = true := by
      by_contra ht
      refine h ⟨by simp [hr], fun h0 => ?_⟩
      by_contra hn
      exact ht ⟨h0, by simpa using hn⟩
    simp only [Option.map_some, Option.isNone_some, Bool.false_eq_true, if_false, ht, and_self,
      if_true, hifUartFifoDelete_]
    exact ⟨_, rfl, .inr rfl⟩

def HifUart.Valid (uart : HifUart) : Prop :=
  uart.channel = 1 ∧ hifUartBaudrateValid_ uart.baudrate = true

instance : DecidablePred HifUart.Valid := fun _ => inferInstanceAs (Decidable (_ ∧ _))

/-- Nothing is missing before the UART is enabled. -/
def UartOpens (type : HifType) (uart : HifUart) (fifo : FifoOutcome b) : Prop :=
  (type = .uart ∨ type = .uartHfc) ∧ uart.Valid ∧ fifo.Given

variable {type : HifType} {fifo : FifoOutcome b}

theorem hifUartOpen_opens (dma : DmaOutcome) (h : UartOpens type uart fifo) :
    ∃ block tx, fifo.rx = some block ∧ hifUartOpen_ type uart fifo dma s =
      let s' := HifUartState.enabled
        { s with rxFifo := some (hifFifoAlloc block), txFifo := tx } uart
      if uart.usesDma then hifUartDmaRegister_ dma s' else some (.ok, s') := by
  obtain ⟨ht, ⟨hc, hb⟩, hg⟩ := h
  obtain ⟨block, tx, hr, he⟩ := hifUartFifoCreate_ok (s := s) hg
  refine ⟨block, tx, hr, ?_⟩
  have htype : ¬ (type ≠ .uart ∧ type ≠ .uartHfc) := by
    rintro ⟨h₁, h₂⟩
    exact ht.elim h₁ h₂
  simp only [hifUartOpen_, if_neg htype, hifUartChannelValid_, hc, hb, he, hifUartEnable_eq,
    HifUart.usesDma_enabled, beq_self_eq_true, Bool.true_eq_false, if_false]

/-- An open whose arguments are valid and for which there is no memory deletes the FIFOs. -/
theorem hifUartOpen_refuses (dma : DmaOutcome) (h : ¬ UartOpens type uart fifo) : ∃ rx tx,
    hifUartOpen_ type uart fifo dma s = some (.fail, { s with rxFifo := rx, txFifo := tx }) ∧
      rx = (if (type = .uart ∨ type = .uartHfc) ∧ uart.Valid then none else s.rxFifo) ∧
      (tx = s.txFifo ∨ tx = none) := by
  by_cases hv : (type = .uart ∨ type = .uartHfc) ∧ uart.Valid
  · have htype : ¬ (type ≠ .uart ∧ type ≠ .uartHfc) := fun hn => hv.1.elim hn.1 hn.2
    obtain ⟨tx, he, htx⟩ := hifUartFifoCreate_fail (s := s) fun hg => h ⟨hv.1, hv.2, hg⟩
    refine ⟨none, tx, ?_, (if_pos hv).symm, htx⟩
    simp only [hifUartOpen_, if_neg htype, hifUartChannelValid_, hv.2.1, hv.2.2, he,
      beq_self_eq_true, Bool.true_eq_false, if_false]
  · refine ⟨s.rxFifo, s.txFifo, ?_, (if_neg hv).symm, .inl rfl⟩
    unfold hifUartOpen_
    split_ifs with ht hc hb
    · rfl
    · rfl
    · rfl
    · refine absurd ⟨?_, by simpa [hifUartChannelValid_] using hc, by simpa using hb⟩ hv
      by_contra hne
      exact ht (not_or.1 hne)

theorem hifUartOpen_inv (h : s.Inv b)
    (hr : UartOpens type uart fifo → uart.usesDma = true → s.Registers dma →
      ∀ p, ¬ Heap.Live s.heap p) :
    ∃ r s', hifUartOpen_ type uart fifo dma s = some (r, s') ∧ r ≠ .halted ∧ s'.Inv b := by
  by_cases ho : UartOpens type uart fifo
  · obtain ⟨block, tx, -, he⟩ := hifUartOpen_opens (s := s) dma ho
    set s₁ := HifUartState.enabled
      { s with rxFifo := some (hifFifoAlloc block), txFifo := tx } uart with hs₁
    have h₁ : s₁.Inv b := h.frame (fun p => rfl) rfl rfl id
      (.inl (by simp [hs₁, HifUartState.enabled, ho.2.1.1])) fun f hf => by
        obtain rfl := Option.some.inj hf
        exact block.length
    rw [he]
    dsimp only
    split_ifs with hd
    · obtain ⟨r, s', he', h', -, hr'⟩ := hifUartDmaRegister_inv dma h₁
        (by simp [hs₁, HifUartState.enabled, ho.2.1.1]) fun _ hreg => hr ho hd hreg
      refine ⟨r, s', he', ?_, h'⟩
      rcases hr' with rfl | ⟨rfl, -⟩ <;> simp
    · exact ⟨_, _, rfl, by simp, h₁⟩
  · obtain ⟨rx, tx, he, hrx, -⟩ := hifUartOpen_refuses (s := s) dma ho
    refine ⟨_, _, he, by simp, h.frame (fun p => rfl) rfl rfl id (.inr rfl) fun f hf => ?_⟩
    subst hrx
    split_ifs at hf
    exact h.fifo f hf

/-! ## Changing -/

theorem hifUartChange_invalid (h : ¬ new.Valid) :
    hifUartChange_ new dma dma' s = some (.invalid, s) := by
  unfold hifUartChange_
  split_ifs with hc hb
  · rfl
  · rfl
  · exact absurd ⟨by simpa [hifUartChannelValid_] using hc, by simpa using hb⟩ h

/-- The state with the FIFOs emptied. -/
def HifUartState.emptied (s : HifUartState) : HifUartState :=
  { s with
    rxFifo := s.rxFifo.map fun f => (f.1, hifFifoReset_ f.2)
    txFifo := s.txFifo.map fun f => (f.1, hifFifoReset_ f.2) }

theorem HifUartState.Inv.emptied (h : s.Inv b) : s.emptied.Inv b :=
  h.frame (fun p => rfl) rfl rfl id (.inr rfl) fun f hf => by
    obtain ⟨g, hg, rfl⟩ := Option.map_eq_some_iff.1 hf
    exact h.fifo g hg

/-- The old setting is taken back. -/
def hifUartFallBack (old : HifUart) (dma' : DmaOutcome) (s : HifUartState) :
    Option (HifRet × HifUartState) :=
  (if old.usesDma then hifUartDmaRegister_ dma' (s.enabled old) else some (.ok, s.enabled old)).bind
    fun r => some (if r.1 = .halted then .halted else .fail, r.2)

/-- What a change does after the new setting was tried. -/
def hifUartSettle (old new : HifUart) (dma' : DmaOutcome) :
    HifRet × HifUartState → Option (HifRet × HifUartState)
  | (.ok, s) => some (.ok, { s with type := if new.enabled.hfc = .enable then .uartHfc else .uart })
  | (.halted, s) => some (.halted, s)
  | (_, s) => hifUartFallBack old dma' s

/-- What a change does once the old DMA is unregistered. -/
def hifUartSwitch (old new : HifUart) (dma dma' : DmaOutcome) (s : HifUartState) :
    Option (HifRet × HifUartState) :=
  (if new.usesDma then hifUartDmaRegister_ dma (s.enabled new).emptied
    else some (.ok, s.enabled new)).bind (hifUartSettle old new dma')

theorem hifUartChange_valid (h : new.Valid) : hifUartChange_ new dma dma' s =
    (if s.uart.usesDma then hifUartDmaUnregister_ s else some s).bind
      (hifUartSwitch s.uart new dma dma') := by
  simp only [hifUartChange_, hifUartChannelValid_, h.1, h.2, beq_self_eq_true, Bool.true_eq_false,
    if_false, hifUartEnable_disable, HifUart.usesDma_enabled]
  unfold hifUartSwitch
  cases hu : s.uart.usesDma
  · cases hn : new.usesDma
    · rfl
    · refine congrArg (Option.bind (hifUartDmaRegister_ dma (s.enabled new).emptied))
        (funext fun r => ?_)
      rcases r with ⟨_ | _ | _ | _, s₂⟩ <;> simp only [hifUartSettle, hifUartFallBack, hu] <;> rfl
  · refine congrArg (Option.bind (hifUartDmaUnregister_ s)) (funext fun s₁ => ?_)
    cases hn : new.usesDma
    · rfl
    · refine congrArg (Option.bind (hifUartDmaRegister_ dma (s₁.enabled new).emptied))
        (funext fun r => ?_)
      rcases r with ⟨_ | _ | _ | _, s₂⟩ <;> simp only [hifUartSettle, hifUartFallBack, hu] <;> rfl

theorem hifUartSwitch_inv (h : s.Inv b) {old : HifUart} (hold : old.channel = 1) (hv : new.Valid)
    (ho : old.usesDma = true → ∀ p, ¬ Heap.Live s.heap p)
    (hr : new.usesDma = true → s.rxFifo.isSome → s.Registers dma → ∀ p, ¬ Heap.Live s.heap p) :
    ∃ r s', hifUartSwitch old new dma dma' s = some (r, s') ∧ r ≠ .halted ∧ s'.Inv b := by
  have he : (s.enabled new).emptied.Inv b := (h.enabling hv.1).emptied
  have hc : (s.enabled new).emptied.uart.channel = 1 := by
    simp [HifUartState.emptied, HifUartState.enabled, hv.1]
  unfold hifUartSwitch
  split_ifs with hn
  · obtain ⟨r, s₁, he₁, h₁, -, hres⟩ := hifUartDmaRegister_inv dma he hc
      fun hf hreg => hr hn (by simpa [HifUartState.emptied, HifUartState.enabled] using hf) hreg
    rw [he₁, Option.bind_some]
    rcases hres with rfl | ⟨rfl, hl⟩
    · exact ⟨_, _, rfl, by simp, h₁.frame (fun p => rfl) rfl rfl id (.inr rfl) h₁.fifo⟩
    · have hb := h₁.enabling hold
      simp only [hifUartSettle, hifUartFallBack]
      split_ifs with hd
      · obtain ⟨r, s₂, he₂, h₂, -, hres₂⟩ := hifUartDmaRegister_inv dma' hb
          (by simp [HifUartState.enabled, hold]) fun _ _ p hp => ho hd p (hl p hp)
        rw [he₂, Option.bind_some]
        refine ⟨_, _, rfl, ?_, h₂⟩
        rcases hres₂ with rfl | ⟨rfl, -⟩ <;> simp
      · exact ⟨_, _, rfl, by simp, hb⟩
  · exact ⟨_, _, rfl, by simp, (h.enabling hv.1).frame (fun p => rfl) rfl rfl id (.inr rfl) h.fifo⟩

theorem hifUartChange_inv (dma' : DmaOutcome) (h : s.Inv b) (hv : new.Valid)
    (hc : s.uart.channel = 1) (hd : s.uart.usesDma = true → ¬ s.Dangling)
    (hr : s.uart.usesDma = false → new.usesDma = true → s.rxFifo.isSome → s.Registers dma →
      ∀ p, ¬ Heap.Live s.heap p) :
    ∃ r s', hifUartChange_ new dma dma' s = some (r, s') ∧ r ≠ .halted ∧ s'.Inv b := by
  rw [hifUartChange_valid hv]
  split_ifs with hu
  · obtain ⟨ch, heap, he, hheap, hch⟩ := hifUartDmaUnregister_spec h hc (hd hu)
    rw [he, Option.bind_some]
    have hs : HifUartState.Inv b
        { s with dmacr := false, dmaChannel := ch, heap := heap, dmaEnable := false } :=
      .of_unused hheap hch (.inl hc) h.fifo
    exact hifUartSwitch_inv hs hc hv (fun _ => hheap) fun _ _ _ => hheap
  · rw [Option.bind_some]
    exact hifUartSwitch_inv h hc hv (fun hu' => absurd hu' hu)
      (hr (by simpa using hu))

/-! ## Reading -/

/-- Where the slot address is moved. -/
def HifUartDma.nextSlot (uartDma : HifUartDma) (doneSize : ℕ) : ℕ :=
  let next := (uartDma.slotAddr + doneSize) % 2 ^ 32
  if uartDma.memSize ≤ sub32 next uartDma.memAddr then sub32 next uartDma.memSize else next

theorem hifUartRxDmaUpdateFifo_eq {addr : ℕ} {fifo : HifFifo} {d : HifUartDma} {done : ℕ}
    (hf : s.rxFifo = some (addr, fifo)) (hp : s.rxDma = some p) (hd : Heap.get s.heap p = some d)
    (hdone : hifUartRxDmaDoneSize_ d (s.dmaChannel d.channel).cursor.dest = done) :
    ∃ rts, hifUartRxDmaUpdateFifo_ s =
      if hifFifoFreeSize_ fifo < done then some (.halted, s)
      else if done = 0 then some (.ok, { s with rts := rts })
      else some (.ok, { s with
        rts := rts
        rxFifo := some (addr, (hifFifoWrite_ fifo none done).2)
        heap := s.heap.set p (some { d with slotAddr := d.nextSlot done }) }) := by
  unfold hifUartRxDmaUpdateFifo_
  simp only [hf, hp, hd, hdone, Option.bind_eq_bind, Option.bind_some]
  cases s.uart.usesRts
  · refine ⟨s.rts, ?_⟩
    simp only [Bool.false_eq_true, if_false, Heap.put_of_live (Heap.live_of_get hd),
      Option.bind_some, ← hf, ← hp]
    rfl
  · refine ⟨decide (hifUartHfcDmaRxSwFifoLimit ≤ hifFifoFreeSize_ fifo - done), ?_⟩
    simp only [if_true, Heap.put_of_live (Heap.live_of_get hd), Option.bind_some, ← hf, ← hp]
    rfl

end NrcAtcmd
