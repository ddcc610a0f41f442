import NrcAtcmd.FirmwareImage
import NrcAtcmd.FotaInfo

/-!
# The requests of the FOTA task

`atcmd_fota.c`: the task sends one request after the other, for the manifest or for the firmware,
and `_atcmd_fota_httpc_get` hands each block of the body to the callback of the request. The counts
of the callbacks are statics, which outlive a request. `fotaStep` is the loop of
`_atcmd_fota_httpc_get` from the end of the header on, with what the connection brings as its input;
`FotaGet` is the same loop with the receive buffer.

`writes` is not in the source: the copies into an allocation since the request began. The writes to
the flash are those of `UtilFota.logged`.
-/

namespace NrcAtcmd

open Memory (memcpy)

variable {φ : Type*}

/-- A copy into an allocation: the size of that, where the copy begins, and its length. -/
structure HeapWrite where
  size : ℕ
  offset : ℕ
  length : ℕ
  deriving DecidableEq, Repr

/-- An allocation: its size, and the memory from its start on. -/
structure HeapBlock where
  size : ℕ
  mem : Bytes
  deriving DecidableEq

/-- The statics of `_atcmd_fota_fw_check_callback`, and `g_atcmd_fota.info`. -/
structure FotaCheck where
  fotaInfo : Option HeapBlock
  cnt : UInt32
  info : InfoMem
  writes : List HeapWrite
  deriving DecidableEq

/-- `_atcmd_fota_fw_check_callback`, where `heap` is what `malloc` returns if it is called. -/
def atcmdFotaFwCheckCallback_ (cJSONParse : Bytes → Option (List CJson)) (data : Bytes)
    (total : UInt32) (heap : Option Bytes) (c : FotaCheck) : ℤ × FotaCheck :=
  if data = [] ∨ total = 0 then (-1, { c with fotaInfo := none, cnt := 0 })
  else
    match c.fotaInfo.or (heap.map (HeapBlock.mk (total.toNat + 1))) with
    | none => (-1, c)
    | some block =>
      let mem := memcpy block.mem c.cnt.toNat data
      let writes := c.writes ++ [⟨block.size, c.cnt.toNat, data.length⟩]
      let cnt := c.cnt + .ofNat data.length
      if cnt = total then
        let mem := memcpy mem total.toNat [0]
        let fotaInfo := mem.takeWhile (· ≠ 0)
        (0, { fotaInfo := none
              cnt := 0
              info := (atcmdFotaInfoParse_ cJSONParse fotaInfo c.info).2
              writes := writes ++ [⟨block.size, total.toNat, 1⟩] })
      else (0, { c with fotaInfo := some { block with mem := mem }, cnt := cnt, writes := writes })

/-- A request of `_atcmd_fota_httpc_get`: whether it still runs, whether it is for the manifest, and
`ContentLength` and `ContentLengthDone` of the response. -/
structure FotaRequest where
  busy : Bool
  check : Bool
  total : ℤ
  done : ℤ
  deriving DecidableEq, Repr

/-- The task: its last request, and the state of both callbacks. -/
structure FotaTask (φ : Type*) where
  request : FotaRequest
  check : FotaCheck
  fw : Firmware (φ × List (ℕ × ℕ))

/-- The task after a reset. -/
def FotaTask.boot (x : φ) (info : InfoMem) : FotaTask φ where
  request := ⟨false, false, 0, 0⟩
  check := { fotaInfo := none, cnt := 0, info := info, writes := [] }
  fw := .boot (x, [])

/-- What happens next. A header announces `total` bytes, or none of them if that is not positive. A
block of the body comes, or `recv` returns that the connection is closed, or that it failed. -/
inductive FotaInput where
  | header (check : Bool) (total : ℤ)
  | block (data : Bytes) (heap : Option Bytes)
  | close
  | fail
  deriving DecidableEq

/-- The loop once the callback returned `ret` for a block: `ContentLengthDone`, and whether the loop
goes on. -/
def FotaRequest.afterBlock (len : ℕ) (ret : ℤ) (r : FotaRequest) : FotaRequest × ℤ :=
  if ret < 0 then (r, -1)
  else
    let r := { r with done := r.done + len }
    (r, if r.done = r.total then 0 else 1)

variable (D : UtilFota φ) (cJSONParse : Bytes → Option (List CJson))

namespace FotaTask

/-- The callback of the request. -/
def callback (data : Bytes) (total : UInt32) (heap : Option Bytes) (s : FotaTask φ) :
    ℤ × FotaTask φ :=
  if s.request.check then
    let (ret, c) := atcmdFotaFwCheckCallback_ cJSONParse data total heap s.check
    (ret, { s with check := c })
  else
    let (ret, fw) := atcmdFotaFwUpdateCallback_ D.logged data total s.fw
    (ret, { s with fw := fw })

/-- The end of `_atcmd_fota_httpc_get`, when the loop was left with `ret`. -/
def finish (ret : ℤ) (s : FotaTask φ) : FotaTask φ :=
  let s := if ret < 0 then (s.callback D cJSONParse [] 0 none).2 else s
  { s with request := { s.request with busy := false } }

/-- `recv` can bring the block, and `malloc` return the memory. -/
def Takes (data : Bytes) (heap : Option Bytes) (s : FotaTask φ) : Prop :=
  s.request.busy = true ∧ 0 < data.length ∧ data.length ≤ 8 * 1024 ∧
    ∀ mem ∈ heap, s.request.total + 1 ≤ mem.length

instance (data : Bytes) (heap : Option Bytes) (s : FotaTask φ) : Decidable (s.Takes data heap) :=
  inferInstanceAs (Decidable (_ ∧ _ ∧ _ ∧ _))

end FotaTask

/-- The steps of the task. -/
def fotaStep (s : FotaTask φ) : FotaInput → Option (FotaTask φ)
  | .header check total =>
    if s.request.busy = false ∧ -2 ^ 31 ≤ total ∧ total < 2 ^ 31 then
      some { s with
        request := ⟨true, check, total, 0⟩
        check := { s.check with writes := [] }
        fw := { s.fw with flash := (s.fw.flash.1, []) } }
    else none
  | .block data heap =>
    if s.Takes data heap then
      if 0 < s.request.total then
        let (ret, s) := s.callback D cJSONParse data (.ofNat s.request.total.toNat) heap
        let (r, ret) := s.request.afterBlock data.length ret
        let s := { s with request := r }
        some (if 0 < ret then s else s.finish D cJSONParse ret)
      else some s
    else none
  | .close =>
    if s.request.busy then
      some (s.finish D cJSONParse (if s.request.done = s.request.total then 0 else -1))
    else none
  | .fail => if s.request.busy then some (s.finish D cJSONParse (-1)) else none

/-! ## Where it is written -/

/-- Writes that begin at an offset and follow one another without a gap. -/
def Consecutive : ℕ → List (ℕ × ℕ) → Prop
  | _, [] => True
  | n, w :: ws => w.1 = n ∧ Consecutive (n + w.2) ws

/-- The manifest is copied into the allocation for as many bytes as were announced, and no more
bytes of the firmware are written than that, from the start of its area on. -/
structure FotaTask.InBounds (s : FotaTask φ) : Prop where
  heap : ∀ w ∈ s.check.writes, w.size = s.request.total.toNat + 1 ∧ w.offset + w.length ≤ w.size
  start : Consecutive 0 s.fw.flash.2
  flash : (s.fw.flash.2.map Prod.snd).sum ≤ s.request.total.toNat

/-- A block that its callback stores does not lead behind what was announced, but for one byte of a
manifest. The callbacks store none without memory, and none of a firmware that is too large. -/
def FotaTask.Fits (s : FotaTask φ) : FotaInput → Prop
  | .block data heap => s.Takes data heap → 0 < s.request.total →
      if s.request.check then
        s.check.fotaInfo.isSome ∨ heap.isSome → s.request.done + data.length ≤ s.request.total + 1
      else
        s.request.total ≤ D.maxFwSize.toNat → s.request.done + data.length ≤ s.request.total
  | _ => True

end NrcAtcmd
