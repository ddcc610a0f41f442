import NrcAtcmd.HifUart

/-!
# The host interface

`_hif_open` opens the device of a type, creates the task that receives from it, and sets the type
last. `_hif_close` does nothing while there is no type.

A type that the firmware is not built with has no entry in the tables of the two, and a call through
it has no result. The registers and the pins of the HSPI are set without a check.
-/

namespace NrcAtcmd

/-- The interfaces the firmware is built with. -/
structure HifConfig where
  hspi : Bool
  uart : Bool
  uartHfc : Bool

def HifConfig.build (c : HifConfig) : HifBuild := if c.hspi then .hspi else .uart

/-- The types with an entry in the tables. -/
def HifConfig.has (c : HifConfig) : HifType → Bool
  | .none => false
  | .hspi => c.hspi
  | .uart => c.uart
  | .uartHfc => c.uartHfc

/-- `_hif_rx_params_t`, where 0 is a null pointer. -/
structure HifRxParams where
  addr : ℕ
  size : ℤ
  cb : ℕ

/-- `_hif_hspi_t`. -/
structure HifHspi where
  swId : UInt32
  bdId : UInt32

/-- `_hif_info_t`. The two settings share their memory, and only that of the type is read. The
memory and the sizes of the FIFOs are those that `_hif_open` sets. -/
structure HifInfo where
  type : HifType
  uart : HifUart
  hspi : HifHspi
  rxParams : HifRxParams

/-- The registers of a queue, and whether its interrupt has a handler. -/
structure HspiQueReg where
  targetSize : ℕ
  targetIntmask : Bool
  enable : Bool
  irqEnable : Bool
  isr : Bool

/-- What the host reads: the name, and the number and the size of the slots of each queue. -/
structure HspiMessage where
  id : Bytes
  tx : ℕ × ℕ
  rx : ℕ × ℕ

structure HifState extends HifUartState where
  hspiRxFifo : Option (ℕ × HifFifo)
  hspiTxFifo : Option (ℕ × HifFifo)
  hspiInfo : HifHspi
  hspiMessage : HspiMessage
  txq : HspiQueReg
  rxq : HspiQueReg
  hspiPins : Bool
  /-- `g_hif_rx_task`, with the parameters that the task was given. -/
  rxTask : Option HifRxParams

def HifState.init : HifState where
  toHifUartState := .init
  hspiRxFifo := none
  hspiTxFifo := none
  hspiInfo := ⟨0, 0⟩
  hspiMessage := ⟨[], (0, 0), (0, 0)⟩
  txq := ⟨0, true, false, false, false⟩
  rxq := ⟨0, true, false, false, false⟩
  hspiPins := false
  rxTask := none

/-- What the steps of an open get: the memory of the FIFOs, what the DMA needs, and whether there is
memory for the task. -/
structure HifOutcome (c : HifConfig) where
  fifo : FifoOutcome c.build
  dma : DmaOutcome
  task : Bool

/-! ## The HSPI -/

def hspiSlotNum : ℕ := 32 * 1024 / 512 / 2

def hspiSlotSize : ℕ := 512

def hifHspiFifoDelete_ (s : HifState) : HifState :=
  { s with hspiRxFifo := none, hspiTxFifo := none }

def hifHspiFifoCreate_ {b : HifBuild} (o : FifoOutcome b) (s : HifState) : HifRet × HifState :=
  let s := if 0 < b.rxFifoSize then { s with hspiRxFifo := o.rx.map hifFifoAlloc } else s
  let s := if 0 < b.txFifoSize then { s with hspiTxFifo := o.tx.map hifFifoAlloc } else s
  if s.hspiRxFifo.isNone || s.hspiTxFifo.isNone then (.fail, hifHspiFifoDelete_ s)
  else (.ok, s)

def hifHspiSlotSetup_ (s : HifState) : HifState :=
  { s with
    hspiMessage := ⟨bytes "NRC-HSPI", (hspiSlotNum, hspiSlotSize), (hspiSlotNum, hspiSlotSize)⟩ }

def HspiQueReg.setup (size : ℕ) (irq : Bool) (q : HspiQueReg) : HspiQueReg :=
  { q with targetSize := size >>> 2, targetIntmask := !irq }

/-- The loop of `_hif_hspi_open` for a queue. -/
def HspiQueReg.on (irq : Bool) (q : HspiQueReg) : HspiQueReg :=
  let q := { q.setup hspiSlotSize irq with enable := true }
  if irq then { q with irqEnable := true, isr := true } else q

/-- The loop of `_hif_hspi_close` for a queue. -/
def HspiQueReg.off (q : HspiQueReg) : HspiQueReg :=
  let q := { q with irqEnable := false, enable := false }
  { q.setup 0 false with isr := false }

def hifHspiOpen_ {b : HifBuild} (info : HifInfo) (o : FifoOutcome b) (s : HifState) :
    HifRet × HifState :=
  if info.type ≠ .hspi then (.fail, s)
  else
    match hifHspiFifoCreate_ o s with
    | (.ok, s) =>
      let s := hifHspiSlotSetup_ { s with hspiInfo := info.hspi }
      (.ok, { s with txq := s.txq.on false, rxq := s.rxq.on true, hspiPins := true })
    | (ret, s) => (ret, s)

def hifHspiClose_ (s : HifState) : HifState :=
  { hifHspiFifoDelete_ { s with txq := s.txq.off, rxq := s.rxq.off } with hspiPins := false }

/-! ## Opening and closing -/

def hifValidType_ : HifType → Bool
  | .hspi | .uart | .uartHfc => true
  | .none => false

def hifRxTaskCreate_ (params : HifRxParams) (task : Bool) (s : HifState) : HifRet × HifState :=
  if params.addr = 0 ∨ params.size = 0 ∨ params.cb = 0 then (.fail, s)
  else if s.rxTask.isSome then (.fail, s)
  else if task then (.ok, { s with rxTask := some params })
  else (.fail, s)

def hifRxTaskDelete_ (s : HifState) : HifState := { s with rxTask := none }

/-- A call through the table of `_hif_close`. -/
def hifCloseTable (c : HifConfig) (s : HifState) : Option HifState :=
  if c.has s.type then
    match s.type with
    | .hspi => some (hifHspiClose_ s)
    | _ => (hifUartClose_ s.toHifUartState).map fun u => { s with toHifUartState := u }
  else none

def hifClose_ (c : HifConfig) (s : HifState) : Option HifState :=
  if s.type = .none then some s
  else do
    let s ← hifCloseTable c (hifRxTaskDelete_ s)
    some { s with type := .none }

/-- A call through the table of `_hif_open`. -/
def hifOpenTable (c : HifConfig) (info : HifInfo) (o : HifOutcome c) (s : HifState) :
    Option (HifRet × HifState) :=
  if c.has info.type then
    match info.type with
    | .hspi => some (hifHspiOpen_ info o.fifo s)
    | _ => (hifUartOpen_ info.type info.uart o.fifo o.dma s.toHifUartState).map fun r =>
        (r.1, { s with toHifUartState := r.2 })
  else none

def hifOpen_ (c : HifConfig) (info : Option HifInfo) (o : HifOutcome c) (s : HifState) :
    Option (HifRet × HifState) :=
  match info with
  | none => some (.fail, s)
  | some info =>
    if hifValidType_ info.type = false then some (.fail, s)
    else if s.type ≠ .none then some (.fail, s)
    else do
      let (ret, s) ← hifOpenTable c info o s
      match ret with
      | .ok =>
        let (ret, s) := hifRxTaskCreate_ info.rxParams o.task s
        if ret ≠ .ok then some (.fail, s) else some (.ok, { s with type := info.type })
      | .halted => some (.halted, s)
      | _ =>
        let s ← hifClose_ c s
        some (.fail, s)

/-! ## The machine -/

/-- What happens to a UART while it is open. -/
def HifUartInput.runs {b : HifBuild} : HifUartInput b → Bool
  | .uartOpen .. | .uartClose => false
  | .uartChange .. | .receive _ | .inttc | .read _ => true

inductive HifInput (c : HifConfig)
  | hifOpen (info : Option HifInfo) (o : HifOutcome c)
  | hifClose
  | uart (i : HifUartInput c.build)

def HifState.step (c : HifConfig) (s : HifState) (i : HifInput c) : Option HifState :=
  if s.halted then some s
  else
    match i with
    | .hifOpen info o => (hifOpen_ c info o s).map fun r => { r.2 with halted := r.1 == .halted }
    | .hifClose => hifClose_ c s
    | .uart i =>
      if (s.type = .uart ∨ s.type = .uartHfc) ∧ i.runs then
        (s.toHifUartState.step i).map fun u => { s with toHifUartState := u }
      else none

end NrcAtcmd
