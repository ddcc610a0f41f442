import Mathlib.Logic.Function.Basic
import NrcAtcmd.HifFifo
import NrcAtcmd.Lib.Heap
import NrcAtcmd.Lib.Transfer

/-!
# The UART of the host interface

A UART without receive interrupts is served by the DMA controller: its channel walks a ring of
descriptors over the memory of the receive FIFO, and a read moves the push index after it. The
control block of the transfer, with the descriptors in it, is allocated when the DMA is registered
and freed when it is unregistered. `g_hif_uart_rx_dma` keeps its address.

The channel of this chip is 1. All of its pins are valid, so enabling it cannot fail. A call has no
result where the code uses a block that is freed or a null pointer, or takes the registers of
channel -1. `halted` is the result of a failed assertion.
-/

namespace NrcAtcmd

inductive HifType | none | hspi | uart | uartHfc
  deriving DecidableEq

/-- `enum uart_hardware_flow_control`, whose values are the bits CTS and RTS. -/
inductive UartHfc | disable | ctsEnable | rtsEnable | enable
  deriving DecidableEq

inductive HifRet | ok | fail | invalid | halted
  deriving DecidableEq

/-- `_hif_uart_t` as far as it is read. -/
structure HifUart where
  channel : ℤ
  baudrate : ℤ
  hfc : UartHfc
  hfcRxIrq : Bool

/-- `_hif_uart_dma_t`. The next field of a descriptor is the number of one in the same block. -/
structure HifUartDma where
  channel : ℕ
  memAddr : ℕ
  memSize : ℕ
  slotAddr : ℕ
  slotSize : ℕ
  nDesc : ℕ
  desc : List Transfer.Desc

/-- The registers of a channel of the controller: the block that its next descriptor is in, and the
current piece. -/
structure DmaChannel where
  enable : Bool
  block : ℕ
  cursor : Transfer.Cursor

structure HifUartState where
  type : HifType
  uart : HifUart
  rxFifo : Option (ℕ × HifFifo)
  txFifo : Option (ℕ × HifFifo)
  /-- The control blocks. -/
  heap : List (Option HifUartDma)
  /-- `g_hif_uart_rx_dma`. -/
  rxDma : Option ℕ
  dmaEnable : Bool
  dmaChannel : ℕ → DmaChannel
  /-- The UART asks the controller to take what it receives. -/
  dmacr : Bool
  rxIrq : Bool
  rts : Bool
  /-- What the controller has written since its channel was started. -/
  rxd : Bytes
  halted : Bool

namespace HifUartState

variable (s : HifUartState)

def init : HifUartState where
  type := .none
  uart := ⟨-1, -1, .disable, false⟩
  rxFifo := none
  txFifo := none
  heap := []
  rxDma := none
  dmaEnable := false
  dmaChannel _ := ⟨false, 0, ⟨0, 0, 0⟩⟩
  dmacr := false
  rxIrq := false
  rts := false
  rxd := []
  halted := false

end HifUartState

/-! ## What the outside answers -/

/-- Memory that an allocation gives. -/
structure Block (n : ℕ) where
  addr : ℕ
  bytes : Bytes
  length : bytes.length = n
  fits : addr + n ≤ 2 ^ 32

/-- The sizes of the FIFOs, for the interfaces the firmware is built with. -/
inductive HifBuild | hspi | uart

def HifBuild.rxFifoSize : HifBuild → ℕ
  | hspi => 512 * (32 * 1024 / 512 / 2)
  | uart => 128 * (32 * 1024 / 128 * 2)

def HifBuild.txFifoSize : HifBuild → ℕ
  | hspi => 512 * (32 * 1024 / 512 / 2)
  | uart => 128 * 0

structure FifoOutcome (b : HifBuild) where
  rx : Option (Block b.rxFifoSize)
  tx : Option (Block b.txFifoSize)

/-- Whether there is memory for a control block, and the channels others use. -/
structure DmaOutcome where
  malloc : Bool
  busy : List ℕ

/-! ## The DMA controller -/

def hifDmaChannelMax : ℕ := 8

def hifDmaEnable_ (s : HifUartState) : HifUartState := { s with dmaEnable := true }

def hifDmaStop_ (channel : ℕ) (s : HifUartState) : HifUartState :=
  if s.dmaEnable then
    { s with
      dmaChannel := Function.update s.dmaChannel channel
        { s.dmaChannel channel with enable := false } }
  else s

def hifDmaDisable_ (s : HifUartState) : HifUartState :=
  if s.dmaEnable then
    { s with dmaChannel := fun c => { s.dmaChannel c with enable := false }, dmaEnable := false }
  else s

def hifDmaGetChannel_ (busy : List ℕ) (s : HifUartState) : Option ℕ :=
  (List.range hifDmaChannelMax).find? fun c => !(s.dmaChannel c).enable && c ∉ busy

/-- A byte is written where it is in the memory of the receive FIFO. -/
def dmaStore (fifo : ℕ × HifFifo) (dest : ℕ) (c : UInt8) : ℕ × HifFifo :=
  if fifo.1 ≤ dest ∧ dest < fifo.1 + fifo.2.size then
    (fifo.1, { fifo.2 with buffer := fifo.2.buffer.set (dest - fifo.1) c })
  else fifo

/-- The controller takes a byte off the UART, on the first of the channels that are enabled. -/
def dmaTransfer (c : UInt8) (s : HifUartState) : Option HifUartState :=
  if s.dmaEnable && s.dmacr then
    match (List.range hifDmaChannelMax).find? fun i => (s.dmaChannel i).enable with
    | none => some s
    | some i => do
      let ch := s.dmaChannel i
      let cursor ← Transfer.advance
        (fun j => (Heap.get s.heap ch.block).bind fun d => d.desc[j]?) ch.cursor
      some { s with
        rxFifo := s.rxFifo.map fun fifo => dmaStore fifo ch.cursor.dest c
        dmaChannel := Function.update s.dmaChannel i { ch with cursor := cursor }
        rxd := s.rxd ++ [c] }
  else some s

/-! ## The DMA of the UART -/

def hifUartSlotSize : ℕ := 128

def hifUartHfcDmaRxSwFifoLimit : ℕ := 8 * 1024

/-- The test for a UART that the DMA serves. -/
def HifUart.usesDma (uart : HifUart) : Bool := uart.hfc == .disable || !uart.hfcRxIrq

/-- The test for flow control by the level of the FIFO. -/
def HifUart.usesRts (uart : HifUart) : Bool := uart.hfc != .disable && !uart.hfcRxIrq

/-- `_HIF_UART_REG_BASE` takes its entry of the table. -/
def hifUartRegBase (s : HifUartState) : Option Unit :=
  if 0 ≤ s.uart.channel ∧ s.uart.channel < 4 then some () else none

/-- Subtraction of `uint32_t`. -/
def sub32 (a b : ℕ) : ℕ := (a + 2 ^ 32 - b) % 2 ^ 32

def hifUartRxDmaDoneSize_ (uartDma : HifUartDma) (endAddr : ℕ) : ℕ :=
  let startAddr := uartDma.slotAddr
  if startAddr ≤ endAddr then endAddr - startAddr
  else
    let memStartAddr := uartDma.memAddr
    let memEndAddr := (uartDma.memAddr + uartDma.memSize) % 2 ^ 32
    (sub32 memEndAddr startAddr + sub32 endAddr memStartAddr) % 2 ^ 32

def hifUartRxDmaUpdateFifo_ (s : HifUartState) : Option (HifRet × HifUartState) := do
  let (addr, fifo) ← s.rxFifo
  let p ← s.rxDma
  let uartDma ← Heap.get s.heap p
  let freeSize := hifFifoFreeSize_ fifo
  let doneSize := hifUartRxDmaDoneSize_ uartDma (s.dmaChannel uartDma.channel).cursor.dest
  if freeSize < doneSize then some (.halted, s)
  else
    let s := if s.uart.usesRts then
        { s with rts := decide (hifUartHfcDmaRxSwFifoLimit ≤ freeSize - doneSize) }
      else s
    if doneSize = 0 then some (.ok, s)
    else
      let next := (uartDma.slotAddr + doneSize) % 2 ^ 32
      let next :=
        if uartDma.memSize ≤ sub32 next uartDma.memAddr then sub32 next uartDma.memSize else next
      let heap ← Heap.put s.heap p { uartDma with slotAddr := next }
      some (.ok, { s with rxFifo := some (addr, (hifFifoWrite_ fifo none doneSize).2), heap := heap })

def hifUartRxDmaInttcIsr_ (s : HifUartState) : Option (HifRet × HifUartState) := do
  let (_, fifo) ← s.rxFifo
  let p ← s.rxDma
  let uartDma ← Heap.get s.heap p
  let freeSize := hifFifoFreeSize_ fifo
  let doneSize := hifUartRxDmaDoneSize_ uartDma (s.dmaChannel uartDma.channel).cursor.dest
  if freeSize < doneSize then some (.halted, s)
  else if s.uart.usesRts && decide (freeSize - doneSize < hifUartHfcDmaRxSwFifoLimit) then
    some (.ok, { s with rts := false })
  else some (.ok, s)

/-- The descriptors of a block: one for each slot, each linked to the next one and the last to the
first. -/
def hifUartRxDmaDesc (memAddr slotSize nDesc : ℕ) : List Transfer.Desc :=
  (List.range nDesc).map fun i =>
    { dest := memAddr + i * slotSize, size := slotSize, next := if i + 1 < nDesc then i + 1 else 0 }

def hifUartRxDmaRegister_ (memAddr memSize : ℕ) (o : DmaOutcome) (s : HifUartState) :
    Option (HifRet × HifUartState) :=
  if o.malloc = false then some (.fail, s)
  else do
    let p := s.heap.length
    let desc := hifUartRxDmaDesc memAddr hifUartSlotSize (memSize / hifUartSlotSize)
    let channel := hifDmaGetChannel_ o.busy s
    let uartDma : HifUartDma :=
      { channel := channel.getD 0
        memAddr := memAddr
        memSize := memSize
        slotAddr := memAddr
        slotSize := hifUartSlotSize
        nDesc := memSize / hifUartSlotSize
        desc := desc }
    let heap := Heap.alloc s.heap uartDma
    match channel with
    | none =>
      let heap ← Heap.free heap p
      some (.fail, { s with heap := heap })
    | some c =>
      let cursor ← desc[0]?.map Transfer.Desc.load
      some (.ok, { s with
        heap := heap
        rxDma := some p
        dmaChannel := Function.update s.dmaChannel c ⟨true, p, cursor⟩
        rxd := [] })

/-- The address is not cleared. -/
def hifUartRxDmaUnregister_ (s : HifUartState) : Option HifUartState :=
  match s.rxDma with
  | none => some s
  | some p => do
    let uartDma ← Heap.get s.heap p
    let s := hifDmaStop_ uartDma.channel s
    let heap ← Heap.free s.heap p
    some { s with heap := heap }

def hifUartDmaRegister_ (o : DmaOutcome) (s : HifUartState) : Option (HifRet × HifUartState) := do
  let s := hifDmaEnable_ s
  let (ret, s) ←
    match s.rxFifo with
    | none => some (HifRet.ok, s)
    | some (addr, fifo) =>
      if s.uart.usesRts && decide (fifo.size < 2 * hifUartHfcDmaRxSwFifoLimit) then some (.halted, s)
      else hifUartRxDmaRegister_ addr fifo.size o s
  if ret = .ok then
    hifUartRegBase s
    some (.ok, { s with dmacr := true })
  else some (ret, s)

def hifUartDmaUnregister_ (s : HifUartState) : Option HifUartState := do
  hifUartRegBase s
  let s ← hifUartRxDmaUnregister_ { s with dmacr := false }
  some (hifDmaDisable_ s)

/-! ## Opening, changing and closing -/

def hifUartChannelValid_ (channel : ℤ) : Bool := channel == 1

def hifUartBaudrateValid_ (baudrate : ℤ) : Bool :=
  [9600, 19200, 38400, 57600, 115200, 230400, 460800, 500000, 576000, 921600, 1000000, 1152000,
    1500000, 2000000].contains baudrate

/-- The interrupt setting is kept. -/
def hifUartInitInfo_ (info : HifUart) : HifUart :=
  { info with channel := -1, baudrate := -1, hfc := .disable }

/-- `_hif_fifo_create` on memory that is allocated. -/
def hifFifoAlloc {n : ℕ} (block : Block n) : ℕ × HifFifo :=
  (block.addr, hifFifoCreate_ block.bytes)

def hifUartFifoDelete_ (s : HifUartState) : HifUartState := { s with rxFifo := none, txFifo := none }

def hifUartFifoCreate_ {b : HifBuild} (o : FifoOutcome b) (s : HifUartState) :
    HifRet × HifUartState :=
  let s := if 0 < b.rxFifoSize then { s with rxFifo := o.rx.map hifFifoAlloc } else s
  if 0 < b.rxFifoSize ∧ o.rx.isNone then (.fail, s)
  else
    let s := if 0 < b.txFifoSize then { s with txFifo := o.tx.map hifFifoAlloc } else s
    if 0 < b.txFifoSize ∧ o.tx.isNone then (.fail, hifUartFifoDelete_ s)
    else (.ok, s)

/-- The flow control of the request is changed in place. -/
def hifUartEnable_ (uart : HifUart) (s : HifUartState) : HifUart × HifUartState :=
  let uart := if uart.hfc = .enable ∧ uart.hfcRxIrq = false then { uart with hfc := .ctsEnable }
    else uart
  (uart, { s with uart := uart, rxIrq := !uart.usesDma })

def hifUartDisable_ (s : HifUartState) : HifUartState :=
  if hifUartChannelValid_ s.uart.channel then
    { s with rxIrq := false, uart := hifUartInitInfo_ s.uart }
  else s

def hifUartOpen_ {b : HifBuild} (type : HifType) (uart : HifUart) (fifo : FifoOutcome b)
    (dma : DmaOutcome) (s : HifUartState) : Option (HifRet × HifUartState) :=
  if type ≠ .uart ∧ type ≠ .uartHfc then some (.fail, s)
  else if hifUartChannelValid_ uart.channel = false then some (.fail, s)
  else if hifUartBaudrateValid_ uart.baudrate = false then some (.fail, s)
  else
    match hifUartFifoCreate_ fifo s with
    | (.ok, s) =>
      let (uart, s) := hifUartEnable_ uart s
      if uart.usesDma then hifUartDmaRegister_ dma s else some (.ok, s)
    | (ret, s) => some (ret, s)

def hifUartClose_ (s : HifUartState) : Option HifUartState :=
  if hifUartChannelValid_ s.uart.channel then do
    let s ← hifUartDmaUnregister_ s
    let s := hifUartDisable_ s
    let s := hifUartFifoDelete_ s
    some { s with uart := hifUartInitInfo_ s.uart }
  else some s

/-- `dma` answers the first registration, and `dma'` the one that takes the old setting back. -/
def hifUartChange_ (new : HifUart) (dma dma' : DmaOutcome) (s : HifUartState) :
    Option (HifRet × HifUartState) :=
  if hifUartChannelValid_ new.channel = false then some (.invalid, s)
  else if hifUartBaudrateValid_ new.baudrate = false then some (.invalid, s)
  else do
    let old := s.uart
    let s ← if old.usesDma then hifUartDmaUnregister_ s else some s
    let s := hifUartDisable_ s
    let (new, s) := hifUartEnable_ new s
    let (ret, s) ←
      if new.usesDma then
        hifUartDmaRegister_ dma { s with
          rxFifo := s.rxFifo.map fun f => (f.1, hifFifoReset_ f.2)
          txFifo := s.txFifo.map fun f => (f.1, hifFifoReset_ f.2) }
      else some (HifRet.ok, s)
    match ret with
    | .ok => some (.ok, { s with type := if new.hfc = .enable then .uartHfc else .uart })
    | .halted => some (.halted, s)
    | _ => do
      let s := hifUartDisable_ s
      let (old, s) := hifUartEnable_ old s
      let (ret, s) ← if old.usesDma then hifUartDmaRegister_ dma' s else some (HifRet.ok, s)
      some (if ret = .halted then .halted else .fail, s)

/-! ## Receiving -/

/-- `_hif_uart_rx_isr` takes what fits. -/
def hifUartRxIsr_ (data : Bytes) (s : HifUartState) : Option HifUartState := do
  let (addr, fifo) ← s.rxFifo
  some { s with rxFifo := some (addr, (data.take (hifFifoFreeSize_ fifo)).foldl hifFifoPutc_ fifo) }

/-- Bytes come in: the interrupt or the controller takes them, whichever is on. -/
def hifUartReceive (data : Bytes) (s : HifUartState) : Option HifUartState :=
  if s.rxIrq then hifUartRxIsr_ data s
  else data.foldlM (fun s c => dmaTransfer c s) s

/-- The end of a descriptor, on a channel that is enabled. -/
def hifDmaInttcIsr_ (s : HifUartState) : Option (HifRet × HifUartState) :=
  if (List.range hifDmaChannelMax).any fun c => (s.dmaChannel c).enable then hifUartRxDmaInttcIsr_ s
  else some (.ok, s)

/-- `_hif_uart_read` gives what it copied. Without a FIFO it takes the bytes off the UART. -/
def hifUartRead_ (len : ℕ) (s : HifUartState) : Option (HifRet × Bytes × HifUartState) :=
  if s.uart.channel < 0 then some (.ok, [], s)
  else if s.rxFifo.isNone then some (.ok, [], s)
  else do
    let (ret, s) ←
      if s.uart.hfc = .enable ∧ s.uart.hfcRxIrq = true then some (HifRet.ok, s)
      else hifUartRxDmaUpdateFifo_ s
    if ret = .halted then some (.halted, [], s)
    else
      let (addr, fifo) ← s.rxFifo
      let (_, data, fifo) := hifFifoRead_ fifo true len
      some (.ok, data, { s with rxFifo := some (addr, fifo) })

/-! ## The machine -/

inductive HifUartInput (b : HifBuild)
  | uartOpen (type : HifType) (uart : HifUart) (fifo : FifoOutcome b) (dma : DmaOutcome)
  | uartChange (new : HifUart) (dma dma' : DmaOutcome)
  | uartClose
  | receive (data : Bytes)
  | inttc
  | read (len : ℕ)

/-- A failed assertion stops the program. -/
def HifUartState.after (r : HifRet × HifUartState) : HifUartState :=
  { r.2 with halted := r.1 == .halted }

def HifUartState.step {b : HifBuild} (s : HifUartState) (i : HifUartInput b) :
    Option HifUartState :=
  if s.halted then some s
  else
    match i with
    | .uartOpen type uart fifo dma => (hifUartOpen_ type uart fifo dma s).map after
    | .uartChange new dma dma' => (hifUartChange_ new dma dma' s).map after
    | .uartClose => hifUartClose_ s
    | .receive data => hifUartReceive data s
    | .inttc => (hifDmaInttcIsr_ s).map after
    | .read len => (hifUartRead_ len s).map fun r => after (r.1, r.2.2)

end NrcAtcmd
