import NrcAtcmd.Hif
import NrcAtcmd.Proofs.UartBlocks

/-!
# Opening the host interface

Without a type nothing is left of an interface, unless an open failed after it enabled its device:
the close it calls does nothing as the type is not set yet, and a task that cannot be created does
not even call it. `Settled` is what the other steps keep.
-/

namespace NrcAtcmd

namespace HifUartState

variable {b : HifBuild} {s s' : HifUartState}

/-- Nothing of the UART is left. -/
structure Closed (s : HifUartState) : Prop where
  rxFifo : s.rxFifo = none
  txFifo : s.txFifo = none
  heap : ∀ p, ¬ Heap.Live s.heap p
  chan : ∀ c, (s.dmaChannel c).enable = false
  dma : s.dmaEnable = false
  request : s.dmacr = false
  irq : s.rxIrq = false
  channel : s.uart.channel = -1
  hfc : s.uart.hfc = .disable

/-- The UART is open. -/
structure Running (b : HifBuild) (s : HifUartState) : Prop extends Inv b s where
  opened : s.uart.channel = 1
  unused : s.uart.usesDma = false → ∀ p, ¬ Heap.Live s.heap p

theorem Closed.init : Closed HifUartState.init :=
  ⟨rfl, rfl, fun _ => Heap.not_live_nil, fun _ => rfl, rfl, rfl, rfl, rfl, rfl⟩

theorem Closed.inv (h : Closed s) : Inv b s :=
  .of_unused h.heap h.chan (.inr ⟨h.channel, h.hfc⟩) fun f hf => by
    rw [h.rxFifo] at hf
    cases hf

/-! ## What happens while a UART is open -/

variable {dma dma' : DmaOutcome} {old new : HifUart} {r : HifRet}

/-- A change that begins without a block ends with one only if the DMA serves the UART. -/
theorem hifUartSwitch_unused (h : Inv b s) (hold : old.channel = 1) (hv : new.Valid)
    (hl : ∀ p, ¬ Heap.Live s.heap p) (he : hifUartSwitch old new dma dma' s = some (r, s')) :
    s'.uart.channel = 1 ∧ (s'.uart.usesDma = false → ∀ p, ¬ Heap.Live s'.heap p) ∧
      (s'.type = s.type ∨ s'.type = .uart ∨ s'.type = .uartHfc) := by
  unfold hifUartSwitch at he
  split_ifs at he with hn
  · obtain ⟨r₁, s₁, he₁, h₁, ⟨hu, ht⟩, hres⟩ := hifUartDmaRegister_inv dma
      (h.enabling hv.1).emptied (by simp [emptied, enabled, hv.1]) fun _ _ => hl
    rw [he₁, Option.bind_some] at he
    have hu : s₁.uart = new.enabled := hu
    rcases hres with rfl | ⟨rfl, hl₁⟩
    · obtain ⟨-, rfl⟩ := Option.some.inj he
      refine ⟨by simp [hu, hv.1], fun hd => ?_, ?_⟩
      · simp [hu, hn] at hd
      · dsimp only
        split_ifs <;> simp
    · have hnone : ∀ p, ¬ Heap.Live s₁.heap p := fun p hp => hl p (hl₁ p hp)
      simp only [hifUartSettle, hifUartFallBack] at he
      split_ifs at he with hd
      · obtain ⟨r₂, s₂, he₂, -, ⟨hu₂, ht₂⟩, -⟩ := hifUartDmaRegister_inv dma' (h₁.enabling hold)
          (by simp [enabled, hold]) fun _ _ => hnone
        rw [he₂, Option.bind_some] at he
        obtain ⟨-, rfl⟩ := Option.some.inj he
        have hu₂ : s₂.uart = old.enabled := hu₂
        refine ⟨by simp [hu₂, hold], fun hd' => ?_, .inl (ht₂.trans ht)⟩
        simp [hu₂, hd] at hd'
      · obtain ⟨-, rfl⟩ := Option.some.inj he
        exact ⟨by simp [enabled, hold], fun _ => hnone, .inl ht⟩
  · obtain ⟨-, rfl⟩ := Option.some.inj he
    refine ⟨by simp [enabled, hv.1], fun _ => hl, ?_⟩
    dsimp only
    split_ifs <;> simp

theorem Running.change (h : Running b s) (he : hifUartChange_ new dma dma' s = some (r, s')) :
    Running b s' ∧ (s'.type = s.type ∨ s'.type = .uart ∨ s'.type = .uartHfc) := by
  by_cases hv : new.Valid
  · have hd : s.uart.usesDma = true → ¬ s.Dangling := fun hu hd => by
      rw [hifUartChange_refuses h.toInv hv (.inr ⟨hu, hd⟩)] at he
      cases he
    obtain ⟨r₁, s₁, he₁, -, h₁⟩ := hifUartChange_inv dma' h.toInv hv h.opened hd
      fun hu _ _ _ => h.unused hu
    obtain ⟨rfl, rfl⟩ := Prod.mk.inj (Option.some.inj (he₁.symm.trans he))
    rw [hifUartChange_valid hv] at he
    split_ifs at he with hu
    · obtain ⟨ch, heap, hun, hheap, hch⟩ := hifUartDmaUnregister_spec h.toInv h.opened (hd hu)
      rw [hun, Option.bind_some] at he
      obtain ⟨hc, hnone, ht⟩ := hifUartSwitch_unused
        (s := { s with dmacr := false, dmaChannel := ch, heap := heap, dmaEnable := false })
        (.of_unused hheap hch (.inl h.opened) h.fifo) h.opened hv hheap he
      exact ⟨⟨h₁, hc, hnone⟩, ht⟩
    · rw [Option.bind_some] at he
      obtain ⟨hc, hnone, ht⟩ := hifUartSwitch_unused h.toInv h.opened hv
        (h.unused (by simpa using hu)) he
      exact ⟨⟨h₁, hc, hnone⟩, ht⟩
  · rw [hifUartChange_invalid hv] at he
    obtain ⟨-, rfl⟩ := Option.some.inj he
    exact ⟨h, .inl rfl⟩

theorem Running.of_keeps (h : Running b s) (hh : s.halted = false) {i : HifUartInput b}
    (hs : s.step i = some s') (hk : Keeps s s') : Running b s' := by
  have hi : s.Sound i := by
    by_contra hi
    exact step_unsound h.toInv i hh hi hs (hk.owned h.toOwned)
  obtain ⟨s₁, hs₁, h₁⟩ := step_sound h.toInv i fun _ => hi
  obtain rfl := Option.some.inj (hs₁.symm.trans hs)
  refine ⟨h₁, hk.uart ▸ h.opened, fun hu p hp => ?_⟩
  exact h.unused (hk.uart ▸ hu) p ((hk.live p).1 hp)

theorem Running.step (h : Running b s) {i : HifUartInput b} (hi : i.runs = true)
    (hs : s.step i = some s') :
    Running b s' ∧ (s'.type = s.type ∨ s'.type = .uart ∨ s'.type = .uartHfc) := by
  rcases hh : s.halted with _ | _
  · have hafter : ∀ x : HifRet × HifUartState, Keeps x.2 (after x) := fun x =>
      .of_eq rfl rfl rfl rfl rfl rfl rfl
    have hs₁ := hs
    simp only [HifUartState.step, hh, Bool.false_eq_true, if_false] at hs₁
    cases i with
    | uartOpen type uart fifo dma => cases hi
    | uartClose => cases hi
    | uartChange new dma dma' =>
      obtain ⟨x, he, rfl⟩ := Option.map_eq_some_iff.1 hs₁
      obtain ⟨h₁, ht⟩ := h.change he
      exact ⟨⟨h₁.toInv.after, h₁.opened, h₁.unused⟩, ht⟩
    | receive data =>
      have hk := keeps_hifUartReceive hs₁
      exact ⟨h.of_keeps hh hs hk, .inl hk.type⟩
    | inttc =>
      obtain ⟨x, he, rfl⟩ := Option.map_eq_some_iff.1 hs₁
      have hk := (keeps_hifDmaInttcIsr he).trans (hafter x)
      exact ⟨h.of_keeps hh hs hk, .inl hk.type⟩
    | read len =>
      obtain ⟨x, he, rfl⟩ := Option.map_eq_some_iff.1 hs₁
      have hk := (keeps_hifUartRead he).trans (hafter (x.1, x.2.2))
      exact ⟨h.of_keeps hh hs hk, .inl hk.type⟩
  · simp only [HifUartState.step, hh, if_true] at hs
    obtain rfl := Option.some.inj hs
    exact ⟨h, .inl rfl⟩

/-! ## Opening and closing a UART -/

variable {type : HifType} {uart : HifUart} {fifo : FifoOutcome b}

theorem Closed.refused (h : Closed s) (dma : DmaOutcome) (ho : ¬ UartOpens type uart fifo) :
    hifUartOpen_ type uart fifo dma s = some (.fail, s) := by
  obtain ⟨rx, tx, he, hrx, htx⟩ := hifUartOpen_refuses (s := s) dma ho
  have hrx : rx = s.rxFifo := by
    rw [hrx, h.rxFifo, ite_self]
  have htx : tx = s.txFifo := by
    rcases htx with rfl | rfl
    · rfl
    · exact h.txFifo.symm
  rw [he, hrx, htx]

theorem Closed.opens (h : Closed s) (ho : UartOpens type uart fifo)
    (hr : uart.usesDma = true → s.Registers dma) :
    ∃ s', hifUartOpen_ type uart fifo dma s = some (.ok, s') ∧ Running b s' ∧
      s'.rxFifo.isSome ∧ s'.type = s.type := by
  obtain ⟨r, s₁, he, -, h₁⟩ : ∃ r s₁, hifUartOpen_ type uart fifo dma s = some (r, s₁) ∧
      r ≠ .halted ∧ s₁.Inv b := hifUartOpen_inv h.inv fun _ _ _ => h.heap
  rcases hu : uart.usesDma with _ | _
  · obtain ⟨block, tx, -, he'⟩ := hifUartOpen_opens (s := s) dma ho
    simp only [hu, Bool.false_eq_true, if_false] at he'
    obtain ⟨rfl, rfl⟩ := Prod.mk.inj (Option.some.inj (he.symm.trans he'))
    exact ⟨_, he, ⟨h₁, by simp [enabled, ho.2.1.1], fun _ => h.heap⟩, rfl, rfl⟩
  · obtain ⟨block, tx, c, he'⟩ := hifUartOpen_registers ho hu (hr hu)
    obtain ⟨rfl, rfl⟩ := Prod.mk.inj (Option.some.inj (he.symm.trans he'))
    refine ⟨_, he, ⟨h₁, by simp [registered, enabled, ho.2.1.1], fun hd => ?_⟩, rfl, rfl⟩
    simp [registered, enabled, hu] at hd

/-- A registration that fails leaves the FIFO and the UART that was enabled for it. -/
theorem hifUartOpen_leaves (ho : UartOpens type uart fifo) (hu : uart.usesDma = true)
    (hr : ¬ s.Registers dma) :
    ∃ s', hifUartOpen_ type uart fifo dma s = some (.fail, s') ∧ s'.rxFifo.isSome ∧
      s'.uart.channel = 1 ∧ s'.type = s.type := by
  obtain ⟨block, tx, -, he⟩ := hifUartOpen_opens (s := s) dma ho
  obtain ⟨s₁, he₁, hs₁⟩ := hifUartDmaRegister_fail (b := b)
    (s := HifUartState.enabled { s with rxFifo := some (hifFifoAlloc block), txFifo := tx } uart)
    rfl block.length hr
  refine ⟨s₁, ?_, ?_⟩
  · rw [he]
    simp only [hu, if_true, he₁]
  · rw [hs₁.eq]
    exact ⟨rfl, by simp [enabled, ho.2.1.1], rfl⟩

theorem Running.closes (h : Running b s) (he : hifUartClose_ s = some s') : Closed s' := by
  have hval : hifUartChannelValid_ s.uart.channel = true := by
    rw [h.opened]
    rfl
  have hd : ¬ s.Dangling := fun hd => by
    rw [hifUartClose_dangling h.opened hd] at he
    cases he
  obtain ⟨ch, heap, hun, hheap, hch⟩ := hifUartDmaUnregister_spec h.toInv h.opened hd
  simp only [hifUartClose_, hval, if_true, hun, Option.bind_eq_bind, Option.bind_some,
    hifUartDisable_, hifUartFifoDelete_] at he
  obtain rfl := Option.some.inj he
  exact ⟨rfl, rfl, hheap, hch, rfl, rfl, rfl, rfl, rfl⟩

end HifUartState

/-! ## What is left of an interface -/

variable {c : HifConfig} {s s' : HifState} {info : HifInfo} {o : HifOutcome c}

def HspiQueReg.Off (q : HspiQueReg) : Prop :=
  q.enable = false ∧ q.irqEnable = false ∧ q.isr = false

namespace HifState

/-- Nothing of the HSPI is left. -/
structure HspiOff (s : HifState) : Prop where
  hspiRxFifo : s.hspiRxFifo = none
  hspiTxFifo : s.hspiTxFifo = none
  txq : s.txq.Off
  rxq : s.rxq.Off
  pins : s.hspiPins = false

/-- No FIFO, control block, enabled device or task is left. -/
structure Clean (s : HifState) : Prop extends s.Closed, s.HspiOff where
  task : s.rxTask = none

/-- What is left is that of the type. -/
structure Settled (b : HifBuild) (s : HifState) : Prop where
  none : s.type = .none → s.Clean
  hspi : s.type = .hspi → s.Closed
  uart : s.type = .uart ∨ s.type = .uartHfc → s.Running b ∧ s.HspiOff

theorem Clean.init : Clean .init :=
  ⟨HifUartState.Closed.init, ⟨rfl, rfl, ⟨rfl, rfl, rfl⟩, ⟨rfl, rfl, rfl⟩, rfl⟩, rfl⟩

theorem Settled.of_clean {b : HifBuild} (h : s.Clean) (ht : s.type = .none) : s.Settled b where
  none _ := h
  hspi _ := h.toClosed
  uart hu := by rcases hu with hu | hu <;> rw [ht] at hu <;> cases hu

/-- Everything that an open does once the device is enabled succeeds. -/
def Completes (s : HifState) (info : HifInfo) (o : HifOutcome c) : Prop :=
  (info.type ≠ .hspi → info.uart.usesDma = true → s.Registers o.dma) ∧
    info.rxParams.addr ≠ 0 ∧ info.rxParams.size ≠ 0 ∧ info.rxParams.cb ≠ 0 ∧ o.task = true

end HifState

/-- The device of the type takes the setting. -/
def HifInfo.Valid (info : HifInfo) : Prop :=
  info.type = .hspi ∨ (info.type = .uart ∨ info.type = .uartHfc) ∧ info.uart.Valid

/-- An open fails before the device is enabled, if at all. -/
def HifState.Atomic (s : HifState) : HifInput c → Prop
  | .hifOpen (some info) o => info.type ≠ .none → s.type = .none →
    c.has info.type = true ∧ (info.Valid → o.fifo.Given → s.Completes info o)
  | _ => True

/-! ## A call through the table -/

theorem HifConfig.txFifoSize_pos (h : c.hspi = true) : 0 < c.build.txFifoSize := by
  rw [HifConfig.build, if_pos h]
  decide

theorem hifHspiFifoCreate_ok {b : HifBuild} {o : FifoOutcome b} (htx : 0 < b.txFifoSize)
    (h : o.Given) : ∃ rx tx, hifHspiFifoCreate_ o s =
      (.ok, { s with hspiRxFifo := some rx, hspiTxFifo := some tx }) := by
  obtain ⟨rx, hrx⟩ := Option.isSome_iff_exists.1 h.1
  obtain ⟨tx, htx'⟩ := Option.isSome_iff_exists.1 (h.2 htx)
  exact ⟨hifFifoAlloc rx, hifFifoAlloc tx, by
    simp [hifHspiFifoCreate_, b.rxFifoSize_pos, htx, hrx, htx']⟩

theorem hifHspiFifoCreate_fail {b : HifBuild} {o : FifoOutcome b} (htx : 0 < b.txFifoSize)
    (hs : s.HspiOff) (h : ¬ o.Given) : hifHspiFifoCreate_ o s = (.fail, s) := by
  have hnone : o.rx = none ∨ o.tx = none := by
    by_contra hn
    rw [not_or] at hn
    exact h ⟨Option.isSome_iff_ne_none.2 hn.1, fun _ => Option.isSome_iff_ne_none.2 hn.2⟩
  have hs : { s with hspiRxFifo := none, hspiTxFifo := none } = s := by
    obtain ⟨hrx, htx, -⟩ := hs
    cases s
    simp only at hrx htx
    rw [hrx, htx]
  have hcond : (o.rx.map (hifFifoAlloc (n := b.rxFifoSize))).isNone ||
      (o.tx.map (hifFifoAlloc (n := b.txFifoSize))).isNone := by
    rcases hnone with hn | hn <;> simp [hn]
  simp only [hifHspiFifoCreate_, b.rxFifoSize_pos, htx, if_true, hcond, hifHspiFifoDelete_, hs]

theorem uartOpens_iff (ht : info.type ≠ .hspi) :
    UartOpens info.type info.uart o.fifo ↔ info.Valid ∧ o.fifo.Given := by
  simp [UartOpens, HifInfo.Valid, ht, and_assoc]

theorem hifOpenTable_uart (hc : c.has info.type = true) (ht : info.type ≠ .hspi) :
    hifOpenTable c info o s =
      (hifUartOpen_ info.type info.uart o.fifo o.dma s.toHifUartState).map fun r =>
        (r.1, { s with toHifUartState := r.2 }) := by
  unfold hifOpenTable
  rw [if_pos hc]
  split
  · next hh => exact absurd hh ht
  · rfl

theorem hifOpenTable_refused (h : s.Clean) (hc : c.has info.type = true)
    (hn : ¬ (info.Valid ∧ o.fifo.Given)) : hifOpenTable c info o s = some (.fail, s) := by
  by_cases ht : info.type = .hspi
  · have hhspi : c.hspi = true := by simpa [ht, HifConfig.has] using hc
    have hg : ¬ o.fifo.Given := fun hg => hn ⟨.inl ht, hg⟩
    unfold hifOpenTable
    rw [if_pos hc, ht]
    simp only [hifHspiOpen_, ht, ne_eq, not_true_eq_false, if_false,
      hifHspiFifoCreate_fail (HifConfig.txFifoSize_pos hhspi) h.toHspiOff hg]
  · rw [hifOpenTable_uart hc ht, h.toClosed.refused o.dma ((uartOpens_iff ht).not.2 hn)]
    rfl

/-- A device that is opened has a FIFO, and belongs to its type. -/
theorem hifOpenTable_opens (h : s.Clean) (hc : c.has info.type = true) (hv : info.Valid)
    (hg : o.fifo.Given)
    (hr : info.type ≠ .hspi → info.uart.usesDma = true → s.Registers o.dma) :
    ∃ s', hifOpenTable c info o s = some (.ok, s') ∧ s'.type = s.type ∧ s'.rxTask = none ∧
      (s'.rxFifo.isSome ∨ s'.hspiRxFifo.isSome) ∧
      ∀ task, HifState.Settled c.build { s' with rxTask := task, type := info.type } := by
  by_cases ht : info.type = .hspi
  · have hhspi : c.hspi = true := by simpa [ht, HifConfig.has] using hc
    obtain ⟨rx, tx, he⟩ := hifHspiFifoCreate_ok (s := s) (HifConfig.txFifoSize_pos hhspi) hg
    unfold hifOpenTable
    rw [if_pos hc, ht]
    simp only [hifHspiOpen_, ht, ne_eq, not_true_eq_false, if_false, he]
    refine ⟨_, rfl, rfl, h.task, .inr rfl, fun task => ⟨fun hn => ?_, fun _ => ?_, fun hu => ?_⟩⟩
    · cases hn
    · exact ⟨h.rxFifo, h.txFifo, h.heap, h.chan, h.dma, h.request, h.irq, h.channel, h.hfc⟩
    · rcases hu with hu | hu <;> cases hu
  · obtain ⟨u, he, hrun, hfifo, htype⟩ := h.toClosed.opens
      ((uartOpens_iff ht).2 ⟨hv, hg⟩) (hr ht)
    rw [hifOpenTable_uart hc ht, he]
    refine ⟨_, rfl, htype, h.task, .inl hfifo, fun task => ⟨fun hn => ?_, fun hh => ?_, fun _ => ?_⟩⟩
    · rcases hv.resolve_left ht with ⟨hu | hu, -⟩ <;> rw [hu] at hn <;> cases hn
    · exact absurd hh ht
    · exact ⟨⟨hrun.toInv.frame (fun _ => rfl) rfl rfl id (.inr rfl) hrun.fifo, hrun.opened,
        hrun.unused⟩, h.hspiRxFifo, h.hspiTxFifo, h.txq, h.rxq, h.pins⟩

theorem hifOpenTable_leaves (hc : c.has info.type = true) (ht : info.type ≠ .hspi)
    (hv : info.Valid) (hg : o.fifo.Given) (hu : info.uart.usesDma = true)
    (hr : ¬ s.Registers o.dma) :
    ∃ s', hifOpenTable c info o s = some (.fail, s') ∧ s'.type = s.type ∧ s'.rxFifo.isSome := by
  obtain ⟨u, he, hfifo, -, htype⟩ := HifUartState.hifUartOpen_leaves (s := s.toHifUartState)
    ((uartOpens_iff ht).2 ⟨hv, hg⟩) hu hr
  rw [hifOpenTable_uart hc ht, he]
  exact ⟨_, rfl, htype, hfifo⟩

/-! ## Opening and closing -/

theorem HifState.Clean.ne (h : s.Clean) (hl : s'.rxFifo.isSome ∨ s'.hspiRxFifo.isSome) :
    s' ≠ s := by
  rintro rfl
  rcases hl with hl | hl
  · simp [h.rxFifo] at hl
  · simp [h.hspiRxFifo] at hl

theorem hifRxTaskCreate_ok (h : s.rxTask = none) {params : HifRxParams}
    (hp : params.addr ≠ 0 ∧ params.size ≠ 0 ∧ params.cb ≠ 0) :
    hifRxTaskCreate_ params true s = (.ok, { s with rxTask := some params }) := by
  simp [hifRxTaskCreate_, hp, h]

theorem hifRxTaskCreate_fail {params : HifRxParams} {task : Bool}
    (hp : ¬ (params.addr ≠ 0 ∧ params.size ≠ 0 ∧ params.cb ≠ 0 ∧ task = true)) :
    hifRxTaskCreate_ params task s = (.fail, s) := by
  unfold hifRxTaskCreate_
  split_ifs with h₁ h₂ h₃
  · rfl
  · rfl
  · exact absurd ⟨fun h => h₁ (.inl h), fun h => h₁ (.inr (.inl h)), fun h => h₁ (.inr (.inr h)),
      h₃⟩ hp
  · rfl

theorem hifOpen_refused (h : info.type = .none ∨ s.type ≠ .none) :
    hifOpen_ c (some info) o s = some (.fail, s) := by
  unfold hifOpen_
  rcases h with h | h
  · simp [h, hifValidType_]
  · simp [h]

/-- The part of an open after its checks. -/
theorem hifOpen_checked (ht : info.type ≠ .none) (hs : s.type = .none) {ret : HifRet}
    (he : hifOpenTable c info o s = some (ret, s')) : hifOpen_ c (some info) o s =
      match ret with
      | .ok =>
        if (hifRxTaskCreate_ info.rxParams o.task s').1 ≠ .ok then
          some (.fail, (hifRxTaskCreate_ info.rxParams o.task s').2)
        else some (.ok, { (hifRxTaskCreate_ info.rxParams o.task s').2 with type := info.type })
      | .halted => some (.halted, s')
      | _ => (hifClose_ c s').bind fun s' => some (.fail, s') := by
  have hval : hifValidType_ info.type = true := by
    cases h : info.type
    · exact absurd h ht
    all_goals rfl
  simp only [hifOpen_, hval, Bool.true_eq_false, if_false, hs, ne_eq, not_true_eq_false, he,
    Option.bind_eq_bind, Option.bind_some]
  cases ret <;> rfl

theorem hifClose_none (h : s.type = .none) : hifClose_ c s = some s := by
  rw [hifClose_, if_pos h]

/-- What an open does that fails in time, if at all. -/
theorem hifOpen_atomic (h : s.Settled c.build) {info : Option HifInfo}
    (hi : s.Atomic (.hifOpen info o)) :
    ∃ ret s', hifOpen_ c info o s = some (ret, s') ∧
      (ret = .ok ∧ s'.Settled c.build ∨ ret = .fail ∧ s' = s) := by
  rcases info with _ | info
  · exact ⟨_, _, rfl, .inr ⟨rfl, rfl⟩⟩
  by_cases hr : info.type = .none ∨ s.type ≠ .none
  · exact ⟨_, _, hifOpen_refused hr, .inr ⟨rfl, rfl⟩⟩
  obtain ⟨ht, hs⟩ := not_or.1 hr
  rw [not_not] at hs
  obtain ⟨hc, hdone⟩ := hi ht hs
  by_cases hd : info.Valid ∧ o.fifo.Given
  · obtain ⟨hreg, ha, hn, hcb, htask⟩ := hdone hd.1 hd.2
    obtain ⟨s₁, he, -, htask₁, -, hset⟩ := hifOpenTable_opens (h.none hs) hc hd.1 hd.2 hreg
    rw [hifOpen_checked ht hs he]
    simp only [htask, hifRxTaskCreate_ok htask₁ ⟨ha, hn, hcb⟩, ne_eq, not_true_eq_false, if_false]
    exact ⟨_, _, rfl, .inl ⟨rfl, hset _⟩⟩
  · rw [hifOpen_checked ht hs (hifOpenTable_refused (h.none hs) hc hd)]
    simp only [hifClose_none hs, Option.bind_some]
    exact ⟨_, _, rfl, .inr ⟨rfl, rfl⟩⟩

/-- What an open does that fails too late. -/
theorem hifOpen_broken (h : s.Settled c.build) {info : Option HifInfo}
    (hi : ¬ s.Atomic (.hifOpen info o)) {ret : HifRet}
    (he : hifOpen_ c info o s = some (ret, s')) : ret ≠ .ok ∧ s' ≠ s := by
  rcases info with _ | info
  · exact absurd trivial hi
  simp only [HifState.Atomic, not_forall, exists_prop] at hi
  obtain ⟨ht, hs, hi⟩ := hi
  have hc : c.has info.type = true := by
    by_contra hc
    have hval : hifValidType_ info.type = true := by
      cases h : info.type
      · exact absurd h ht
      all_goals rfl
    simp [hifOpen_, hval, hs, hifOpenTable, hc] at he
  simp only [hc, true_and, not_forall, exists_prop] at hi
  obtain ⟨hv, hg, hi⟩ := hi
  have hclean := h.none hs
  by_cases hreg : info.type ≠ .hspi → info.uart.usesDma = true → s.Registers o.dma
  · obtain ⟨s₁, he₁, -, htask₁, hl, -⟩ := hifOpenTable_opens hclean hc hv hg hreg
    have hp : ¬ (info.rxParams.addr ≠ 0 ∧ info.rxParams.size ≠ 0 ∧ info.rxParams.cb ≠ 0 ∧
      o.task = true) := fun hp => hi ⟨hreg, hp⟩
    rw [hifOpen_checked ht hs he₁] at he
    simp only [hifRxTaskCreate_fail hp, ne_eq, reduceCtorEq, not_false_eq_true, if_true] at he
    obtain ⟨rfl, rfl⟩ := Prod.mk.inj (Option.some.inj he)
    exact ⟨by simp, hclean.ne hl⟩
  · simp only [not_forall, exists_prop] at hreg
    obtain ⟨hh, hu, hreg⟩ := hreg
    obtain ⟨s₁, he₁, ht₁, hl⟩ := hifOpenTable_leaves hc hh hv hg hu hreg
    rw [hifOpen_checked ht hs he₁] at he
    simp only [hifClose_none (ht₁.trans hs), Option.bind_some] at he
    obtain ⟨rfl, rfl⟩ := Prod.mk.inj (Option.some.inj he)
    exact ⟨by simp, hclean.ne (.inl hl)⟩

/-! ## The machine -/

namespace HifState

variable {b : HifBuild}

theorem Clean.halt (h : s.Clean) (x : Bool) : Clean { s with halted := x } :=
  ⟨⟨h.rxFifo, h.txFifo, h.heap, h.chan, h.dma, h.request, h.irq, h.channel, h.hfc⟩,
    ⟨h.hspiRxFifo, h.hspiTxFifo, h.txq, h.rxq, h.pins⟩, h.task⟩

theorem Settled.halt (h : s.Settled b) (x : Bool) : Settled b { s with halted := x } where
  none ht := (h.none ht).halt x
  hspi ht :=
    have hc := h.hspi ht
    ⟨hc.rxFifo, hc.txFifo, hc.heap, hc.chan, hc.dma, hc.request, hc.irq, hc.channel, hc.hfc⟩
  uart ht := by
    obtain ⟨hr, hoff⟩ := h.uart ht
    exact ⟨⟨hr.toInv.frame (fun _ => rfl) rfl rfl id (.inr rfl) hr.fifo, hr.opened, hr.unused⟩,
      hoff.hspiRxFifo, hoff.hspiTxFifo, hoff.txq, hoff.rxq, hoff.pins⟩

theorem Settled.close (h : s.Settled b) (he : hifClose_ c s = some s') : s'.Settled b := by
  unfold hifClose_ at he
  split_ifs at he with ht
  · obtain rfl := Option.some.inj he
    exact h
  · obtain ⟨s₁, h₁, he⟩ := Option.bind_eq_some_iff.1 he
    obtain rfl := Option.some.inj he
    refine .of_clean ?_ rfl
    unfold hifCloseTable at h₁
    split_ifs at h₁
    split at h₁
    · next hh =>
      obtain rfl := Option.some.inj h₁
      have hc := h.hspi hh
      exact ⟨⟨hc.rxFifo, hc.txFifo, hc.heap, hc.chan, hc.dma, hc.request, hc.irq, hc.channel,
        hc.hfc⟩, ⟨rfl, rfl, ⟨rfl, rfl, rfl⟩, ⟨rfl, rfl, rfl⟩, rfl⟩, rfl⟩
    · next hh =>
      obtain ⟨u, hu, rfl⟩ := Option.map_eq_some_iff.1 h₁
      have hu' : s.type = .uart ∨ s.type = .uartHfc := by
        cases htype : s.type
        · exact absurd htype ht
        · exact absurd htype hh
        · exact .inl rfl
        · exact .inr rfl
      obtain ⟨hr, hoff⟩ := h.uart hu'
      have hc := hr.closes hu
      exact ⟨⟨hc.rxFifo, hc.txFifo, hc.heap, hc.chan, hc.dma, hc.request, hc.irq, hc.channel,
        hc.hfc⟩, ⟨hoff.hspiRxFifo, hoff.hspiTxFifo, hoff.txq, hoff.rxq, hoff.pins⟩, rfl⟩

theorem Settled.step (h : s.Settled c.build) {i : HifInput c}
    (hi : s.halted = false → s.Atomic i) (hs : s.step c i = some s') : s'.Settled c.build := by
  unfold HifState.step at hs
  split_ifs at hs with hh
  · obtain rfl := Option.some.inj hs
    exact h
  · replace hi := hi (by simpa using hh)
    cases i with
    | hifOpen info o =>
      obtain ⟨r, he, rfl⟩ := Option.map_eq_some_iff.1 hs
      obtain ⟨ret, s₁, he₁, hres⟩ := hifOpen_atomic h hi
      obtain rfl := Option.some.inj (he₁.symm.trans he)
      rcases hres with ⟨-, h₁⟩ | ⟨-, rfl⟩
      · exact h₁.halt _
      · exact h.halt _
    | hifClose => exact h.close hs
    | uart i =>
      dsimp only at hs
      split_ifs at hs with hu
      obtain ⟨u, hu₁, rfl⟩ := Option.map_eq_some_iff.1 hs
      obtain ⟨hr, hoff⟩ := h.uart hu.1
      obtain ⟨hr₁, ht⟩ := hr.step hu.2 hu₁
      have htype : u.type = .uart ∨ u.type = .uartHfc := by
        rcases ht with ht | ht
        · rw [ht]
          exact hu.1
        · exact ht
      refine ⟨fun hn => ?_, fun hn => ?_, fun _ =>
        ⟨hr₁, hoff.hspiRxFifo, hoff.hspiTxFifo, hoff.txq, hoff.rxq, hoff.pins⟩⟩
      · rcases htype with ht | ht <;> rw [show u.type = _ from hn] at ht <;> cases ht
      · rcases htype with ht | ht <;> rw [show u.type = _ from hn] at ht <;> cases ht

end HifState

/-- After opens that fail in time, if at all, nothing is left where there is no type, and the next
open leaves nothing when it fails exactly if it fails in time. -/
theorem hif_open_atomic_iff (c : HifConfig) {is : List (HifInput c)} {s : HifState}
    (hC : Machine.Along (HifState.step c) (fun s i => s.halted = false → s.Atomic i) .init is)
    (hr : Machine.run (HifState.step c) .init is = some s) (info : Option HifInfo)
    (o : HifOutcome c) :
    (s.type = .none → s.Clean) ∧
      ((∃ ret s', hifOpen_ c info o s = some (ret, s') ∧ (ret ≠ .ok → s' = s)) ↔
        s.Atomic (.hifOpen info o)) := by
  have h : s.Settled c.build := Machine.run_along
    (fun _ _ _ h hi hs => HifState.Settled.step h hi hs) (.of_clean .init rfl) hC hr
  refine ⟨h.none, fun ⟨ret, s', he, hs'⟩ => ?_, fun hi => ?_⟩
  · by_contra hi
    obtain ⟨hne, hchanged⟩ := hifOpen_broken h hi he
    exact hchanged (hs' hne)
  · obtain ⟨ret, s', he, hres⟩ := hifOpen_atomic h hi
    refine ⟨ret, s', he, fun hne => ?_⟩
    rcases hres with ⟨hok, -⟩ | ⟨-, hs'⟩
    · exact absurd hok hne
    · exact hs'

/-- A firmware with the UART only, and an open of it. -/
def uartConfig : HifConfig := ⟨false, true, false⟩

def plainInfo : HifInfo := ⟨.uart, plainUart, ⟨0, 0⟩, ⟨0x20010000, 512, 0x10000⟩⟩

/-- The UART is opened and closed. -/
def openedThenClosed : List (HifInput uartConfig) :=
  [.hifOpen (some plainInfo) ⟨plainFifo, ⟨true, []⟩, true⟩, .hifClose]

/-- The UART with its channels registered, and no freed block left to it. -/
theorem hifOpenTable_plain : ∃ u : HifUartState, u.Inv .uart ∧ ¬ u.Dangling ∧
    hifOpenTable uartConfig plainInfo ⟨plainFifo, ⟨true, []⟩, true⟩ .init =
      some (.ok, { HifState.init with toHifUartState := u }) := by
  obtain ⟨block, tx, n, he⟩ := hifUartOpen_registers uartOpens_plain rfl registers_init
  refine ⟨HifUartState.registered (HifUartState.enabled
    { HifUartState.init with rxFifo := some (hifFifoAlloc block), txFifo := tx } plainUart)
    n block.addr HifBuild.uart.rxFifoSize, ?_, ?_, ?_⟩
  · obtain ⟨r, s, hs, -, h⟩ := hifUartOpen_inv HifUartState.Inv.init
      fun _ _ _ _ => Heap.not_live_nil
    obtain ⟨-, rfl⟩ := Prod.mk.inj (Option.some.inj (he.symm.trans hs))
    exact h
  · rintro ⟨p, hp, hl⟩
    obtain rfl := Option.some.inj hp
    exact hl (Heap.live_alloc_iff.2 (.inr rfl))
  · rw [hifOpenTable_uart rfl (by decide)]
    exact congrArg (Option.map _) he

theorem run_openedThenClosed :
    ∃ s, Machine.run (HifState.step uartConfig) .init openedThenClosed = some s ∧
      Machine.Along (HifState.step uartConfig) (fun s i => s.halted = false → s.Atomic i) .init
        openedThenClosed := by
  obtain ⟨u, hinv, hd, htable⟩ := hifOpenTable_plain
  have hopen : HifState.step uartConfig .init (.hifOpen (some plainInfo)
      ⟨plainFifo, ⟨true, []⟩, true⟩) = some { HifState.init with
        toHifUartState := { u with type := .uart, halted := false }
        rxTask := some plainInfo.rxParams } := by
    rw [HifState.step, if_neg (by decide)]
    dsimp only
    rw [hifOpen_checked (by decide) rfl htable]
    rfl
  have hrun : HifUartState.Inv .uart { u with type := .uart, halted := false } :=
    hinv.frame (fun _ => rfl) rfl rfl id (.inr rfl) hinv.fifo
  obtain ⟨v, hv, -⟩ := hifUartClose_inv hrun fun _ => hd
  have hclose : HifState.step uartConfig { HifState.init with
        toHifUartState := { u with type := .uart, halted := false }
        rxTask := some plainInfo.rxParams } .hifClose =
      some { HifState.init with toHifUartState := { v with type := .none } } := by
    rw [HifState.step, if_neg Bool.false_ne_true]
    dsimp only
    rw [hifClose_, if_neg (by simp)]
    simp only [hifCloseTable, hifRxTaskDelete_, HifConfig.has, uartConfig, if_true, hv,
      Option.map_some, Option.bind_eq_bind, Option.bind_some]
    rfl
  refine ⟨_, Machine.run_cons_eq_some.2 ⟨_, hopen, Machine.run_cons_eq_some.2 ⟨_, hclose, rfl⟩⟩,
    fun _ _ _ => ⟨rfl, fun _ _ => ⟨fun _ _ => registers_init, by decide⟩⟩, fun _ _ =>
      ⟨fun _ => trivial, fun _ _ => trivial⟩⟩

/-- The next open has no memory for the FIFO. -/
theorem hif_open_atomic_iff_plain :
    ∃ s, Machine.run (HifState.step uartConfig) .init openedThenClosed = some s ∧
      ∃ ret s', hifOpen_ uartConfig (some plainInfo) ⟨⟨none, none⟩, ⟨true, []⟩, true⟩ s =
        some (ret, s') ∧ (ret ≠ .ok → s' = s) := by
  obtain ⟨s, hr, hC⟩ := run_openedThenClosed
  exact ⟨s, hr, (hif_open_atomic_iff uartConfig hC hr (some plainInfo)
    ⟨⟨none, none⟩, ⟨true, []⟩, true⟩).2.2 fun _ _ => ⟨rfl, fun _ hg => by cases hg.1⟩⟩

/-- An open whose task cannot be created leaves the UART open, and the next one opens it again: the
first control block stays, and its channel runs. -/
theorem hif_open_leaks : ∃ s₁ s₂,
    hifOpen_ uartConfig (some plainInfo) ⟨plainFifo, ⟨true, []⟩, false⟩ .init = some (.fail, s₁) ∧
      s₁ ≠ .init ∧ s₁.type = .none ∧ s₁.uart.channel = 1 ∧ s₁.rxFifo.isSome ∧
      Heap.Live s₁.heap 0 ∧
      hifOpen_ uartConfig (some plainInfo) ⟨plainFifo, ⟨true, []⟩, true⟩ s₁ = some (.ok, s₂) ∧
      Heap.Live s₂.heap 0 ∧ s₂.rxDma = some 1 := by
  obtain ⟨block, tx, n, he⟩ := hifUartOpen_registers uartOpens_plain rfl registers_init
  obtain ⟨u, hu⟩ : ∃ u, u = HifUartState.registered (HifUartState.enabled
      { HifUartState.init with rxFifo := some (hifFifoAlloc block), txFifo := tx } plainUart)
      n block.addr HifBuild.uart.rxFifoSize := ⟨_, rfl⟩
  rw [← hu] at he
  have hreg : u.Registers ⟨true, []⟩ := by
    refine ⟨rfl, ?_⟩
    rw [hifDmaGetChannel_, List.find?_isSome]
    refine ⟨if n = 0 then 1 else 0, by split_ifs <;> decide, ?_⟩
    have hne : (if n = 0 then 1 else 0) ≠ n := by split_ifs <;> omega
    simp [hu, HifUartState.registered, HifUartState.enabled, HifUartState.init,
      Function.update_of_ne hne]
  obtain ⟨block', tx', n', he'⟩ := hifUartOpen_registers (s := u) uartOpens_plain rfl hreg
  obtain ⟨v, hv⟩ : ∃ v, v = HifUartState.registered (HifUartState.enabled
      { u with rxFifo := some (hifFifoAlloc block'), txFifo := tx' } plainUart)
      n' block'.addr HifBuild.uart.rxFifoSize := ⟨_, rfl⟩
  rw [← hv] at he'
  have h₁ : hifOpenTable uartConfig plainInfo ⟨plainFifo, ⟨true, []⟩, false⟩ .init =
      some (.ok, { HifState.init with toHifUartState := u }) := by
    rw [hifOpenTable_uart rfl (by decide)]
    exact congrArg (Option.map _) he
  have h₂ : hifOpenTable uartConfig plainInfo ⟨plainFifo, ⟨true, []⟩, true⟩
      { HifState.init with toHifUartState := u } =
      some (.ok, { HifState.init with toHifUartState := v }) := by
    rw [hifOpenTable_uart rfl (by decide)]
    exact congrArg (Option.map _) he'
  have ht : u.type = .none := by rw [hu]; rfl
  have hlive : Heap.Live u.heap 0 := by
    rw [hu]
    exact Heap.live_alloc_iff.2 (.inr rfl)
  refine ⟨{ HifState.init with toHifUartState := u },
    { HifState.init with
      toHifUartState := { v with type := .uart }, rxTask := some plainInfo.rxParams },
    ?_, ?_, ht, ?_, ?_, hlive, ?_, ?_, ?_⟩
  · rw [hifOpen_checked (by decide) rfl h₁]
    rfl
  · exact HifState.Clean.init.ne (.inl (by rw [hu]; rfl))
  · rw [hu]
    rfl
  · rw [hu]
    rfl
  · rw [hifOpen_checked (by decide) ht h₂]
    rfl
  · rw [hv]
    exact Heap.live_alloc_iff.2 (.inl hlive)
  · rw [hv, hu]
    rfl

end NrcAtcmd
