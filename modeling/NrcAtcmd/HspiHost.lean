import NrcAtcmd.Hspi
import NrcAtcmd.Lib.Cells
import NrcAtcmd.Lib.Checked

/-!
# The host's slots, access by access

`hspi_ready`, `hspi_read` and `hspi_write` of `nrc-hspi.c` for any slot geometry a device may show,
and with the buffers they copy in: a copy outside of one, a division by zero, and a value that does
not fit the sign of its type have no result. For slots that hold more than their header the two
calls are those of `Hspi.lean`, on what the transfers bring.
-/

namespace NrcAtcmd

open Checked

namespace HspiHost

/-- A slot of bytes that the device sends, or that the stack holds. -/
abbrev Slot := ℕ → UInt8

/-- `slot_buf` as the stack leaves it. -/
def slotBuf (stale : Slot) : Bytes := (List.range 512).map stale

/-! ## The geometry -/

/-- `hspi_msg_t`: the bytes of its first two words, and the words of the two queues. -/
structure HspiMsg where
  id : Bytes
  txq : UInt32
  rxq : UInt32

/-- `HSPI_SLOT_SIZE_MAX`. -/
abbrev slotSizeMax : ℕ := 512

/-- `slot_num` and `slot_size` of a queue, if `hspi_ready` accepts them. -/
def hspiSlot (msg : UInt32) : Option (ℕ × ℕ) :=
  let num := msg.toNat / 2 ^ 16
  let size := msg.toNat % 2 ^ 16
  if num = 0 then none
  else if size = 0 ∨ slotSizeMax < size then none
  else some (num, size)

/-- The loop of `hspi_ready`, with `n` tries left: `reads i` is what the `i`-th read of the message
registers brings. -/
def hspiReadyLoop (reads : ℕ → Option HspiMsg) : (n i : ℕ) → HspiMsg →
    Option ((ℕ × ℕ) × (ℕ × ℕ))
  | 0, _, _ => none
  | n + 1, i, msg =>
    if msg.id = bytes "NRC-HSPI" then do
      let txq ← hspiSlot msg.txq
      let rxq ← hspiSlot msg.rxq
      some (txq, rxq)
    else do
      let msg ← reads i
      hspiReadyLoop reads n (i + 1) msg

/-- `hspi_ready`: the slots of the TX queue and of the RX queue. -/
def hspiReady (active : Bool) (reads : ℕ → Option HspiMsg) : Option ((ℕ × ℕ) × (ℕ × ℕ)) :=
  if !active then none else (reads 0).bind (hspiReadyLoop reads 10 1)

/-! ## The read -/

/-- What `hspi_read_slot` leaves: if it returns -1 (`failed`), the bytes it has counted, the
caller's buffer and its sequence number. `taken` slots were sent by the device. -/
structure Taken where
  failed : Bool
  len : ℕ
  buf : Bytes
  seq : ℕ
  taken : ℕ
  deriving DecidableEq

/-- `hspi_read_slot` from its pass `i` on, with `n` passes to go: `transfer i` is what the `i`-th
transfer brings, none if it fails. -/
def hspiReadSlot (size : ℕ) (transfer : ℕ → Option Slot) : (n i j : ℕ) → (slotBuf buf : Bytes) →
    (seq : ℕ) → Option Taken
  | 0, i, j, _, buf, seq => some ⟨false, j, buf, seq, i⟩
  | n + 1, i, j, slotBuf, buf, seq =>
    match transfer i with
    | none => some ⟨true, j, buf, seq, i⟩
    | some data => do
      let slotBuf ← Cells.copy slotBuf 0 ((List.range size).map data)
      let hdr := hspiHdrOf slotBuf
      if hdr.start ≠ bytes "HS" ∨ (size : ℤ) - 4 < hdr.len then
        let slotBuf ← Cells.copy slotBuf 0 { hdr with len := 0 }.bytes
        hspiReadSlot size transfer n (i + 1) j slotBuf buf seq
      else
        let data ← Cells.fetch slotBuf 4 hdr.len
        let buf ← Cells.copy buf j data
        hspiReadSlot size transfer n (i + 1) (j + hdr.len) slotBuf buf (hspiSeqNext hdr.seq)

/-- What `hspi_read` leaves: what it returns, the caller's buffer and the slots taken. -/
structure ReadRet where
  ret : ℤ
  buf : Bytes
  taken : ℕ
  info : HspiInfo

/-- `hspi_read` once the slots are counted. -/
def hspiReadCounted (info : HspiInfo) (slotNum : ℕ) (transfer : ℕ → Option Slot) (stale : Slot)
    (buf : Bytes) : Option ReadRet :=
  let slotNum := if info.slotCnt < slotNum then info.slotCnt else slotNum
  if slotNum = 0 then some ⟨0, buf, 0, info⟩
  else do
    let r ← hspiReadSlot info.slotSize transfer slotNum 0 0 (slotBuf stale) buf info.seq
    if r.failed then some ⟨-1, r.buf, r.taken, { info with slotCnt := 0, seq := r.seq }⟩
    else
      let slotCnt ← uint 8 ((info.slotCnt : ℤ) - slotNum)
      some ⟨r.len, r.buf, r.taken, { info with slotCnt := slotCnt, seq := r.seq }⟩

/-- `hspi_read` into a buffer of the caller's length. -/
def hspiRead (info : HspiInfo) (new : Option HspiStatus) (transfer : ℕ → Option Slot)
    (stale : Slot) (buf : Bytes) : Option ReadRet :=
  if buf.length = 0 ∨ !info.active then some ⟨-1, buf, 0, info⟩
  else do
    let slotNum ← div buf.length ((info.slotSize : ℤ) - 4)
    let slotNum ← uint 16 slotNum
    let slotNum := if info.slotNum < slotNum then info.slotNum else slotNum
    let (err, info) := if info.slotCnt < slotNum then hspiStatusUpdate info new else (0, info)
    if err ≠ 0 then some ⟨-1, buf, 0, info⟩
    else hspiReadCounted info slotNum transfer stale buf

/-! ## The write -/

/-- What `hspi_write_slot` leaves: what it returns and `*len`, the slots sent to the device, and its
sequence number. -/
structure Sent where
  ret : ℕ
  len : ℕ
  slots : List Bytes
  seq : ℕ

/-- The header's length of a pass, and the zeros behind data that does not fill the slot. -/
def hspiPad (size : ℕ) (len : ℤ) (j slotLen : ℕ) (slotBuf : Bytes) : Option (ℕ × Bytes) :=
  if len - j < slotLen then do
    let slotLen ← uint 10 (len - j)
    let pad ← uint 64 ((size : ℤ) - 4 - slotLen)
    let slotBuf ← Cells.copy slotBuf (4 + slotLen) (List.replicate pad 0)
    some (slotLen, slotBuf)
  else some (slotLen, slotBuf)

/-- `hspi_write_slot` from its pass `i` on, with `n` passes to go, where the header's length is
`slotLen`. `transfer i` tells if the `i`-th transfer succeeds. -/
def hspiWriteSlot (size : ℕ) (transfer : ℕ → Bool) (buf : Bytes) (len : ℤ) :
    (n i j slotLen : ℕ) → (slotBuf : Bytes) → (seq : ℕ) → Option Sent
  | 0, i, j, _, _, seq => some ⟨i, j, [], seq⟩
  | n + 1, i, j, slotLen, slotBuf, seq => do
    let (slotLen, slotBuf) ← hspiPad size len j slotLen slotBuf
    let slotBuf ← Cells.copy slotBuf 0 (HspiHdr.bytes ⟨bytes "HS", slotLen, seq⟩)
    let data ← Cells.fetch buf j slotLen
    let slotBuf ← Cells.copy slotBuf 4 data
    let slot ← Cells.fetch slotBuf 0 size
    if transfer i then
      let r ← hspiWriteSlot size transfer buf len n (i + 1) (j + slotLen) slotLen slotBuf
        (hspiSeqNext seq)
      some { r with slots := slot :: r.slots }
    else some ⟨i, j, [], seq⟩

/-- `hspi_write` once the slots are counted. -/
def hspiWriteCounted (info : HspiInfo) (slotNum : ℕ) (transfer : ℕ → Bool) (stale : Slot)
    (buf : Bytes) : Option (ℤ × List Bytes × HspiInfo) := do
  let (slotNum, len) :=
    if slotNum ≤ info.slotCnt then (slotNum, (buf.length : ℤ))
    else (info.slotCnt, info.slotCnt * ((info.slotSize : ℤ) - 4))
  let slotLen ← uint 10 ((info.slotSize : ℤ) - 4)
  let r ← hspiWriteSlot info.slotSize transfer buf len slotNum 0 0 slotLen (slotBuf stale) info.seq
  if r.ret < slotNum then some (r.len, r.slots, { info with slotCnt := 0, seq := r.seq })
  else
    let slotCnt ← uint 8 ((info.slotCnt : ℤ) - slotNum)
    some (r.len, r.slots, { info with slotCnt := slotCnt, seq := r.seq })

/-- `hspi_write`: what it returns, and the slots sent to the device. -/
def hspiWrite (info : HspiInfo) (new : Option HspiStatus) (transfer : ℕ → Bool) (stale : Slot)
    (buf : Bytes) : Option (ℤ × List Bytes × HspiInfo) :=
  if buf.length = 0 ∨ !info.active then some (-1, [], info)
  else do
    let len ← int32 (buf.length + ((info.slotSize : ℤ) - 4 - 1))
    let slotNum ← div len ((info.slotSize : ℤ) - 4)
    let slotNum ← uint 16 slotNum
    let (err, info) := if info.slotCnt < slotNum then hspiStatusUpdate info new else (0, info)
    if err ≠ 0 then some (-1, [], info)
    else hspiWriteCounted info slotNum transfer stale buf

end HspiHost

end NrcAtcmd
