import NrcAtcmd.HifFifo
import NrcAtcmd.Lib.Machine

/-!
# The HSPI transport

The host and the target exchange slots of 512 bytes (`CONFIG_HIF_HSPI_SLOT_SIZE`), a header of 4
bytes and up to 508 of data, padded. The target lends slots of its FIFO memory to the device by
address, oldest first (`queue`), and the device moves one slot for each transfer of the host: into
the memory of the RX FIFO (`hif_hspi.c` reads it), or out of that of the TX FIFO (`hif_hspi.c`
writes it). The host (`nrc-hspi.c`) keeps a count of the slots it may still transfer and asks the
status registers again when a call needs more.

A call is one step. `count`, the number of slots lent that a target call reads from the device, is
any that the register showed since that call's side last counted, so a call that overlaps with
transfers is a run too: it is the call after them, with the count it read before. The FIFO's memory
is word aligned and an address is its offset there.
-/

namespace NrcAtcmd

open Memory (memcpy)

/-! ## Slots -/

/-- The header of `_hspi_hdr_t` and `hspi_slot_t`. -/
structure HspiHdr where
  start : Bytes
  len : ℕ
  seq : ℕ

/-- The header's 4 bytes: the 16-bit field holds the length in its low 10 bits. -/
def HspiHdr.bytes (hdr : HspiHdr) : Bytes :=
  let val := hdr.len % 2 ^ 10 + 2 ^ 10 * (hdr.seq % 2 ^ 6)
  hdr.start ++ [UInt8.ofNat (val % 256), UInt8.ofNat (val / 256)]

def hspiHdrOf : Bytes → HspiHdr
  | s₀ :: s₁ :: lo :: hi :: _ =>
    let val := lo.toNat + 256 * hi.toNat
    ⟨[s₀, s₁], val % 2 ^ 10, val / 2 ^ 10⟩
  | _ => ⟨[], 0, 0⟩

/-- `++seq`, back to 0 past `HSPI_SLOT_SEQ_MAX`. -/
def hspiSeqNext (seq : ℕ) : ℕ := if 0x3F < seq + 1 then 0 else seq + 1

/-! ## The target -/

/-- The memory of one FIFO of the target: `CONFIG_HIF_HSPI_SLOT_NUM` slots, in a size that an `int`
holds and that divides the range of the FIFO's indices. -/
structure HspiSlots where
  num : ℕ
  mem : Bytes
  pos : 0 < num
  length : mem.length = 512 * num
  lt : 512 * num < 2 ^ 31
  dvd : 512 * num ∣ 2 ^ 32

/-- One direction of the target: its FIFO, the static variables of the call that serves it, and
the addresses the device was given and has not used. `reset` is set when a slot that is not one made
the read ask for a system reset. -/
structure HspiQueue where
  fifo : HifFifo
  seq : ℕ
  total : ℤ
  queue : List ℕ
  reset : Bool

def HspiSlots.open (slots : HspiSlots) : HspiQueue := ⟨hifFifoCreate_ slots.mem, 0, 0, [], false⟩

def hifHspiQueueUpdate_ (queue : List ℕ) (addr : ℕ) : List ℕ :=
  if addr % 4 ≠ 0 ∨ addr % 512 ≠ 0 then queue else queue ++ [addr]

/-- `__hif_hspi_read` from byte `i` of the buffer on, for at most as many slots as `fuel`: what it
returns, and the buffer. -/
def hifHspiReadSlots_ : (fuel : ℕ) → (q : HspiQueue) → (buf : Bytes) → (i : ℕ) → ℕ × Bytes × HspiQueue
  | 0, q, buf, i => (i, buf, q)
  | fuel + 1, q, buf, i =>
    if buf.length - i < 508 then (i, buf, q)
    else
      let (ret, hdr, fifo) := hifFifoRead_ q.fifo true 4
      if ret ≠ 4 then (i, buf, { q with fifo := fifo })
      else
        let hdr := hspiHdrOf hdr
        if hdr.start ≠ bytes "HS" ∨ 508 < hdr.len then
          -- the slot is dumped and the system reset
          let (_, _, fifo) := hifFifoRead_ fifo true 508
          hifHspiReadSlots_ fuel { q with fifo := fifo, reset := true } buf i
        else
          let (ret, data, fifo) := hifFifoRead_ fifo (decide (0 < hdr.len)) 508
          let q := { q with fifo := fifo, seq := hspiSeqNext hdr.seq }
          if ret ≠ 508 then (i, memcpy buf i data, q)
          else hifHspiReadSlots_ fuel q (memcpy buf i data) (i + hdr.len)

/-- `_hif_hspi_read`: the call finds `count` slots still lent to the device. -/
def hifHspiRead_ (num : ℕ) (q : HspiQueue) (count : ℕ) (buf : Bytes) : ℕ × Bytes × HspiQueue :=
  if buf.length = 0 then (0, buf, q)
  else
    let done : ℤ := q.total - count
    let q :=
      if 0 < done then
        { q with
          total := q.total - done
          fifo := (hifFifoWrite_ q.fifo none (done * 512).toNat).2 }
      else q
    let (ret, buf, q) := hifHspiReadSlots_ (q.fifo.cnt + 1) q buf 0
    let free : ℤ := (hifFifoFreeSize_ q.fifo / 512 : ℕ)
    let update := free - q.total
    let update := if 63 < num then update - (num - 63) else update
    let queue := (List.range update.toNat).foldl (fun queue (i : ℕ) =>
      hifHspiQueueUpdate_ queue (hifFifoPushAddr_ q.fifo ((q.total + i) * 512))) q.queue
    (ret, buf, { q with queue := queue, total := q.total + update })

/-- The loop of `__hif_hspi_write` over what is left of the data: `i` and `hdr.len` after it. -/
def hifHspiWriteLoop_ : (fuel : ℕ) → (q : HspiQueue) → (rest : Bytes) → (i len : ℕ) →
    ℕ × ℕ × HspiQueue
  | 0, q, _, i, len => (i, len, q)
  | fuel + 1, q, rest, i, len =>
    if rest.length = 0 then (i, len, q)
    else
      let len := if rest.length < 508 then rest.length else len
      let hdr : HspiHdr := ⟨bytes "HS", len, q.seq⟩
      let fifo := (hifFifoWrite_ q.fifo (some hdr.bytes) 4).2
      let fifo := (hifFifoWrite_ fifo (some (rest.take len)) len).2
      hifHspiWriteLoop_ fuel { q with fifo := fifo, seq := hspiSeqNext q.seq } (rest.drop len)
        (i + len) len

/-- `__hif_hspi_write`. -/
def hifHspiWriteSlots_ (q : HspiQueue) (buf : Bytes) : ℕ × HspiQueue :=
  let (i, len, q) := hifHspiWriteLoop_ buf.length q buf 0 508
  if len < 508 then (i, { q with fifo := (hifFifoWrite_ q.fifo none (508 - len)).2 }) else (i, q)

/-- `_hif_hspi_write`: the call finds `count` slots still lent to the device. -/
def hifHspiWrite_ (num : ℕ) (q : HspiQueue) (count : ℕ) (buf : Bytes) : ℕ × HspiQueue :=
  if buf.length = 0 then (0, q)
  else
    let update : ℤ := (buf.length / 508 + if buf.length % 508 ≠ 0 then 1 else 0 : ℕ)
    let done : ℤ := q.total - count
    let q :=
      if 0 < done then
        { q with
          total := q.total - done
          fifo := (hifFifoRead_ q.fifo false (done * 512).toNat).2.2 }
      else q
    let update := if num < update + q.total then num - q.total else update
    let update := if 63 < update + q.total then 63 - q.total else update
    let len : ℤ := if update * 508 < buf.length then update * 508 else buf.length
    if 0 < update then
      let (ret, q) := hifHspiWriteSlots_ q (buf.take len.toNat)
      let queue := (List.range update.toNat).foldl (fun queue (i : ℕ) =>
        hifHspiQueueUpdate_ queue (hifFifoPushAddr_ q.fifo ((i - update) * 512))) q.queue
      (ret, { q with queue := queue, total := q.total + update })
    else (0, q)

/-! ## The host -/

/-- One queue of `hspi_status_t`: the slots the device can take or give, sizes in words. -/
structure HspiStatus where
  slotCnt : ℕ
  slotSize : ℕ
  totalSlotSize : ℕ

/-- What `hspi_info_t` has on one queue, and the static sequence number of its call. -/
structure HspiInfo where
  active : Bool
  slotNum : ℕ
  slotSize : ℕ
  slotCnt : ℕ
  seq : ℕ

/-- `hspi_status_update` on one queue: `new` is what the registers say, none if they cannot be
read. -/
def hspiStatusUpdate (info : HspiInfo) (new : Option HspiStatus) : ℤ × HspiInfo :=
  match new with
  | none => (-1, info)
  | some new =>
    if 0 < new.slotCnt ∧ new.slotCnt ≤ info.slotNum ∧ new.slotSize * 4 = info.slotSize ∧
        new.slotCnt * new.slotSize = new.totalSlotSize then
      (0, { info with slotCnt := new.slotCnt })
    else (0, info)

/-- `hspi_read_slot` on what the transfers bring, none for one that fails: the data, if it does not
return -1, and the sequence number. -/
def hspiReadSlot (slotSize : ℕ) : (transfers : List (Option Bytes)) → (seq : ℕ) → Option Bytes × ℕ
  | [], seq => (some [], seq)
  | none :: _, seq => (none, seq)
  | some slot :: transfers, seq =>
    let hdr := hspiHdrOf slot
    if hdr.start ≠ bytes "HS" ∨ slotSize - 4 < hdr.len then hspiReadSlot slotSize transfers seq
    else
      let (data, seq) := hspiReadSlot slotSize transfers (hspiSeqNext hdr.seq)
      (data.map ((slot.drop 4).take hdr.len ++ ·), seq)

/-- `hspi_read` of at most `len` bytes, where `transfer i` is what the `i`-th transfer brings: what
it returns, the data, and the number of slots it asked for. -/
def hspiRead (info : HspiInfo) (new : Option HspiStatus) (transfer : ℕ → Option Bytes) (len : ℕ) :
    ℤ × Bytes × ℕ × HspiInfo :=
  if len = 0 ∨ !info.active then (-1, [], 0, info)
  else
    let slotNum := len / (info.slotSize - 4) % 2 ^ 16
    let slotNum := if info.slotNum < slotNum then info.slotNum else slotNum
    let (err, info) := if info.slotCnt < slotNum then hspiStatusUpdate info new else (0, info)
    if err ≠ 0 then (-1, [], 0, info)
    else
      let slotNum := if info.slotCnt < slotNum then info.slotCnt else slotNum
      if slotNum = 0 then (0, [], 0, info)
      else
        match hspiReadSlot info.slotSize ((List.range slotNum).map transfer) info.seq with
        | (none, seq) => (-1, [], slotNum, { info with slotCnt := 0, seq := seq })
        | (some data, seq) =>
          (data.length, data, slotNum, { info with slotCnt := info.slotCnt - slotNum, seq := seq })

/-- `hspi_write_slot` from its pass `i` on, over what is left of the data: the slots transferred,
the bytes of data in them, and the sequence number. `transfer i` tells if the transfer succeeds. -/
def hspiWriteSlot (slotSize : ℕ) (transfer : ℕ → Bool) : (slotNum i : ℕ) → (rest : Bytes) →
    (len seq : ℕ) → List Bytes × ℕ × ℕ
  | 0, _, _, _, seq => ([], 0, seq)
  | slotNum + 1, i, rest, len, seq =>
    let len := if rest.length < len then rest.length else len
    let hdr : HspiHdr := ⟨bytes "HS", len, seq⟩
    let slot := hdr.bytes ++ rest.take len ++ List.replicate (slotSize - 4 - len) 0
    if transfer i then
      let (slots, j, seq) :=
        hspiWriteSlot slotSize transfer slotNum (i + 1) (rest.drop len) len (hspiSeqNext seq)
      (slot :: slots, len + j, seq)
    else ([], 0, seq)

/-- `hspi_write`: what it returns, and the slots transferred. -/
def hspiWrite (info : HspiInfo) (new : Option HspiStatus) (transfer : ℕ → Bool) (buf : Bytes) :
    ℤ × List Bytes × HspiInfo :=
  if buf.length = 0 ∨ !info.active then (-1, [], info)
  else
    let slotNum := (buf.length + (info.slotSize - 4 - 1)) / (info.slotSize - 4) % 2 ^ 16
    let (err, info) := if info.slotCnt < slotNum then hspiStatusUpdate info new else (0, info)
    if err ≠ 0 then (-1, [], info)
    else
      let (slotNum, len) :=
        if slotNum ≤ info.slotCnt then (slotNum, buf.length)
        else (info.slotCnt, info.slotCnt * (info.slotSize - 4))
      let (slots, len, seq) := hspiWriteSlot info.slotSize transfer slotNum 0 (buf.take len)
        (info.slotSize - 4) info.seq
      let slotCnt := if slots.length < slotNum then 0 else info.slotCnt - slotNum
      (len, slots, { info with slotCnt := slotCnt, seq := seq })

/-! ## The transfers -/

/-- A slot from the host goes to the oldest address the device was given. -/
def HspiQueue.fill (q : HspiQueue) (slot : Bytes) : HspiQueue :=
  match q.queue with
  | [] => q
  | addr :: queue =>
    { q with
      fifo := { q.fifo with buffer := memcpy q.fifo.buffer addr slot }
      queue := queue }

/-- What the device sends for the `i`-th address it was given. -/
def HspiQueue.slot (q : HspiQueue) (i : ℕ) : Option Bytes :=
  q.queue[i]?.map fun addr => (q.fifo.buffer.drop addr).take 512

/-- The host and the target, on one queue. -/
structure Hspi where
  host : HspiInfo
  target : HspiQueue
  sent : Bytes
  received : Bytes

/-- The host knows the slots of the target, and has no status yet. -/
def HspiSlots.start (slots : HspiSlots) (active : Bool) : Hspi where
  host := ⟨active, slots.num % 2 ^ 16, 512, 0, 0⟩
  target := slots.open
  sent := []
  received := []

/-- Slots the registers say there are. -/
def slotCntOf (new : Option HspiStatus) : ℕ := (new.map HspiStatus.slotCnt).getD 0

/-- A step of host and target on the RX queue. -/
inductive HspiRxStep where
  | status (new : Option HspiStatus)
  | write (buf : Bytes) (new : Option HspiStatus)
  | read (buf : Bytes) (count : ℕ)

/-- The host sends to the target: the status registers never show more slots than the device was
given, and the transfers succeed. `sent` is what the host's writes reported as written, and
`received` what the target's reads returned. -/
def hspiRxStep (slots : HspiSlots) (s : Hspi) : HspiRxStep → Option Hspi
  | .status new =>
    if slotCntOf new ≤ s.target.queue.length then
      some { s with host := (hspiStatusUpdate s.host new).2 }
    else none
  | .write buf new =>
    if slotCntOf new ≤ s.target.queue.length then
      let (ret, written, host) := hspiWrite s.host new (fun _ => true) buf
      some { s with
        host := host
        target := written.foldl HspiQueue.fill s.target
        sent := s.sent ++ buf.take ret.toNat }
    else none
  | .read buf count =>
    if s.target.queue.length ≤ count ∧ count ≤ s.target.total then
      let (ret, buf, target) := hifHspiRead_ slots.num s.target count buf
      some { s with target := target, received := s.received ++ buf.take ret }
    else none

/-- A step of host and target on the TX queue. -/
inductive HspiTxStep where
  | status (new : Option HspiStatus)
  | write (buf : Bytes) (count : ℕ)
  | read (len : ℕ) (new : Option HspiStatus)

/-- The target sends to the host: `sent` is what the target's writes reported as accepted, and
`received` what the host's reads returned. -/
def hspiTxStep (slots : HspiSlots) (s : Hspi) : HspiTxStep → Option Hspi
  | .status new =>
    if slotCntOf new ≤ s.target.queue.length then
      some { s with host := (hspiStatusUpdate s.host new).2 }
    else none
  | .write buf count =>
    if s.target.queue.length ≤ count ∧ count ≤ s.target.total then
      let (ret, target) := hifHspiWrite_ slots.num s.target count buf
      some { s with target := target, sent := s.sent ++ buf.take ret }
    else none
  | .read len new =>
    if slotCntOf new ≤ s.target.queue.length then
      let (ret, data, slotNum, host) := hspiRead s.host new s.target.slot len
      some { s with
        host := host
        target := { s.target with queue := s.target.queue.drop slotNum }
        received := s.received ++ data.take ret.toNat }
    else none

/-! ## A queue of the target alone -/

/-- A step of the target's TX side: the device sends a slot, or the target writes. -/
inductive HspiTxqStep where
  | done
  | write (buf : Bytes) (count : ℕ)

def hspiTxqStep (num : ℕ) (q : HspiQueue) : HspiTxqStep → Option HspiQueue
  | .done =>
    match q.queue with
    | [] => none
    | _ :: queue => some { q with queue := queue }
  | .write buf count =>
    if q.queue.length ≤ count ∧ count ≤ q.total then some (hifHspiWrite_ num q count buf).2
    else none

/-- The TX FIFO without the slots done, to which `_hif_hspi_write` adds its own. -/
def HspiQueue.dropped (q : HspiQueue) (count : ℕ) : HifFifo :=
  if 0 < q.total - count then (hifFifoRead_ q.fifo false ((q.total - count) * 512).toNat).2.2
  else q.fifo

/-- The calls of `_hif_fifo_write` that `__hif_hspi_write` makes over what is left of the data: the
buffer and the length of each. -/
def hifHspiSlotWrites : (fuel seq : ℕ) → (rest : Bytes) → (len : ℕ) → List (Option Bytes × ℕ)
  | 0, _, _, len => if len < 508 then [(none, 508 - len)] else []
  | fuel + 1, seq, rest, len =>
    if rest.length = 0 then if len < 508 then [(none, 508 - len)] else []
    else
      let len := if rest.length < 508 then rest.length else len
      let hdr : HspiHdr := ⟨bytes "HS", len, seq⟩
      (some hdr.bytes, 4) :: (some (rest.take len), len) ::
        hifHspiSlotWrites fuel (hspiSeqNext seq) (rest.drop len) len

/-- The target's RX side, and the addresses of the slots given to the device, of those it filled and
of those read, in order. -/
structure HspiRxq where
  target : HspiQueue
  posted : List ℕ
  filled : List ℕ
  consumed : List ℕ

/-- A step of the target's RX side: a slot of whatever content completes, or the target reads. -/
inductive HspiRxqStep where
  | fill (slot : Bytes)
  | read (buf : Bytes) (count : ℕ)

/-- The addresses from the pop index of one FIFO, slot by slot, up to that of the other. -/
def HifFifo.slotsTo (fifo fifo' : HifFifo) : List ℕ :=
  (List.range ((fifo'.popIdx + 2 ^ 32 - fifo.popIdx) % 2 ^ 32 / 512)).map fun i =>
    (fifo.popIdx + 512 * i) % fifo.size

def hspiRxqStep (num : ℕ) (s : HspiRxq) : HspiRxqStep → Option HspiRxq
  | .fill slot =>
    match s.target.queue with
    | [] => none
    | addr :: _ =>
      if slot.length = 512 then
        some { s with target := s.target.fill slot, filled := s.filled ++ [addr] }
      else none
  | .read buf count =>
    if s.target.queue.length ≤ count ∧ count ≤ s.target.total then
      let target := (hifHspiRead_ num s.target count buf).2.2
      some { s with
        target := target
        posted := s.posted ++ target.queue.drop s.target.queue.length
        consumed := s.consumed ++ s.target.fifo.slotsTo target.fifo }
    else none

end NrcAtcmd
