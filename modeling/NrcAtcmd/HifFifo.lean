import NrcAtcmd.Lib.BoundedQueue
import NrcAtcmd.Lib.Memory
import NrcAtcmd.Message

/-!
# The byte FIFO of the host interface

`_hif_fifo_t` keeps free-running 32-bit push and pop indices, reduced modulo the size when memory
is touched, and the count of the bytes between them. A read or a write copies in parts that end at
the end of the buffer; with a null buffer it only moves the index.

A length is a natural number here: the functions return at once for one that is not positive. An
address is its offset in the buffer, which is word aligned.
-/

namespace NrcAtcmd

open Memory (memcpy)

structure HifFifo where
  size : ℕ
  cnt : ℕ
  pushIdx : ℕ
  popIdx : ℕ
  buffer : Bytes

/-- `_hif_fifo_create` on memory that holds anything. -/
def hifFifoCreate_ (buffer : Bytes) : HifFifo := ⟨buffer.length, 0, 0, 0, buffer⟩

def hifFifoReset_ (fifo : HifFifo) : HifFifo := { fifo with cnt := 0, pushIdx := 0, popIdx := 0 }

def hifFifoPushAddr_ (fifo : HifFifo) (offset : ℤ) : ℕ :=
  ((fifo.pushIdx + offset) % 2 ^ 32 % fifo.size).toNat

def hifFifoFreeSize_ (fifo : HifFifo) : ℕ := fifo.size - fifo.cnt

def hifFifoFillSize_ (fifo : HifFifo) : ℕ := fifo.cnt

def hifFifoGetc_ (fifo : HifFifo) : UInt8 × HifFifo :=
  (fifo.buffer.getD (fifo.popIdx % fifo.size) 0,
    { fifo with popIdx := (fifo.popIdx + 1) % 2 ^ 32, cnt := (fifo.cnt + (2 ^ 32 - 1)) % 2 ^ 32 })

def hifFifoPutc_ (fifo : HifFifo) (c : UInt8) : HifFifo :=
  { fifo with
    buffer := fifo.buffer.set (fifo.pushIdx % fifo.size) c
    pushIdx := (fifo.pushIdx + 1) % 2 ^ 32
    cnt := (fifo.cnt + 1) % 2 ^ 32 }

/-- The copy loop of `_hif_fifo_read`, for at most as many passes as `fuel`: the bytes copied and
the pop index after them. -/
def hifFifoPop (fifo : HifFifo) : (fuel popIdx len : ℕ) → Bytes × ℕ
  | 0, popIdx, _ => ([], popIdx)
  | fuel + 1, popIdx, len =>
    if len = 0 then ([], popIdx)
    else
      let popAddr := popIdx % fifo.size
      let popLen := min (fifo.size - popAddr) len
      let (data, popIdx) := hifFifoPop fifo fuel ((popIdx + popLen) % 2 ^ 32) (len - popLen)
      ((fifo.buffer.drop popAddr).take popLen ++ data, popIdx)

/-- `_hif_fifo_read`, into a buffer or not: what it returns and what it copied out. -/
def hifFifoRead_ (fifo : HifFifo) (buf : Bool) (len : ℕ) : ℕ × Bytes × HifFifo :=
  if len = 0 then (0, [], fifo)
  else
    let len := min len (hifFifoFillSize_ fifo)
    let (data, popIdx) :=
      if buf then hifFifoPop fifo len fifo.popIdx len
      else ([], (fifo.popIdx + len) % 2 ^ 32)
    (len, data, { fifo with popIdx := popIdx, cnt := fifo.cnt - len })

/-- The copy loop of `_hif_fifo_write`, for at most as many passes as `fuel`: the buffer and the
push index after the data. -/
def hifFifoPush (fifo : HifFifo) : (fuel : ℕ) → (buffer : Bytes) → (pushIdx : ℕ) → (data : Bytes) →
    Bytes × ℕ
  | 0, buffer, pushIdx, _ => (buffer, pushIdx)
  | fuel + 1, buffer, pushIdx, data =>
    if data = [] then (buffer, pushIdx)
    else
      let pushAddr := pushIdx % fifo.size
      let pushLen := min (fifo.size - pushAddr) data.length
      hifFifoPush fifo fuel (memcpy buffer pushAddr (data.take pushLen))
        ((pushIdx + pushLen) % 2 ^ 32) (data.drop pushLen)

/-- `_hif_fifo_write` of `len` bytes: `buf` is none for a null buffer. -/
def hifFifoWrite_ (fifo : HifFifo) (buf : Option Bytes) (len : ℕ) : ℕ × HifFifo :=
  if len = 0 then (0, fifo)
  else
    let len := min len (hifFifoFreeSize_ fifo)
    let (buffer, pushIdx) :=
      match buf with
      | some data => hifFifoPush fifo len fifo.buffer fifo.pushIdx (data.take len)
      | none => (fifo.buffer, (fifo.pushIdx + len) % 2 ^ 32)
    (len, { fifo with buffer := buffer, pushIdx := pushIdx, cnt := (fifo.cnt + len) % 2 ^ 32 })

/-- The FIFO after a call of `_hif_fifo_write`. -/
def HifFifo.put (fifo : HifFifo) (w : Option Bytes × ℕ) : HifFifo := (hifFifoWrite_ fifo w.1 w.2).2

/-- No call of `_hif_fifo_write` in a row of them is cut short. -/
def HifFifo.Whole : HifFifo → List (Option Bytes × ℕ) → Prop
  | _, [] => True
  | fifo, w :: ws => (hifFifoWrite_ fifo w.1 w.2).1 = w.2 ∧ (fifo.put w).Whole ws

/-- The operations of a FIFO: a write gives at least `len` bytes, and the functions for one byte are
called on a FIFO that is not full, or not empty. -/
def HifFifo.step (fifo : HifFifo) :
    BoundedQueue.Op UInt8 → Option (BoundedQueue.Answer UInt8 × HifFifo)
  | .write data len =>
    if len ≤ data.length then
      let (ret, fifo) := hifFifoWrite_ fifo (some data) len.toNat
      some (⟨ret, []⟩, fifo)
    else none
  | .advance len =>
    let (ret, fifo) := hifFifoWrite_ fifo none len.toNat
    some (⟨ret, []⟩, fifo)
  | .read len =>
    let (ret, data, fifo) := hifFifoRead_ fifo true len.toNat
    some (⟨ret, data⟩, fifo)
  | .skip len =>
    let (ret, data, fifo) := hifFifoRead_ fifo false len.toNat
    some (⟨ret, data⟩, fifo)
  | .push c => if 0 < hifFifoFreeSize_ fifo then some (⟨0, []⟩, hifFifoPutc_ fifo c) else none
  | .pop =>
    if 0 < hifFifoFillSize_ fifo then
      let (c, fifo) := hifFifoGetc_ fifo
      some (⟨0, [c]⟩, fifo)
    else none
  | .clear => some (⟨0, []⟩, hifFifoReset_ fifo)

end NrcAtcmd
