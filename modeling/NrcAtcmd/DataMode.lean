import NrcAtcmd.Lib.Machine
import NrcAtcmd.Lib.Memory
import NrcAtcmd.Message

/-!
# The data mode

`atcmd_core.c` from `atcmd_data_mode_enable` to `atcmd_receive`. A command that needs data puts
the receiver into data mode, and `atcmd_receive_data` then takes the bytes of `atcmd_receive`
until the session has its data or the host sends the exit command, which counts only after the
session has been idle for its timeout.

The bytes go to a sink: the socket, the firmware area or the user area. Each is outside this
module, with a state of its own; `Sink` says what it answers.

`cnt` and `send_len` are natural numbers here: a chunk is shorter than `2 ^ 31`, so their sums
stay below `2 ^ 32`. The counts of sent and dropped bytes do wrap, and are `UInt32`.

A copy over the end of `_buf` makes it longer here (`Memory.length_memcpy_iff`), where it writes over
what lies behind it in the target. So what the model does after such a copy says nothing about the
target: a property of the target asks for a buffer of its length as well.
-/

namespace NrcAtcmd

open Memory

def atcmdDataLenMax : ℕ := 4 * 1024

/-- `enum ATCMD_DATA_TYPE`, with the member of the union its parameters use. -/
inductive DataType where
  | ssend (passthrough : Bool)
  | fwbindl
  | sfuser (offset : ℕ)
  deriving DecidableEq, Repr

/-- An exit command is not empty: `_atcmd_socket_send_set` passes none of length zero. -/
abbrev ExitCmd := {s : Bytes // s ≠ []}

/-- `atcmd_data_mode_params_t`. -/
structure DataModeParams where
  dataType : DataType
  id : ℤ
  len : ℕ
  timeout : UInt32
  doneEvent : Bool
  exitCmd : Option ExitCmd
  deriving DecidableEq

namespace DataModeParams

/-- `passthrough`, which only `ATCMD_DATA_SSEND` has. -/
def passthrough (p : DataModeParams) : Bool :=
  match p.dataType with
  | .ssend passthrough => passthrough
  | _ => false

/-- The exit command of a session that was given none. -/
def exit (p : DataModeParams) : Bytes := ((p.exitCmd.map (·.1)).getD (bytes "AT\r\n"))

/-- A session asks for no more data than there is room for, and without passthrough for some. -/
def Sized (p : DataModeParams) : Prop :=
  p.len ≤ atcmdDataLenMax ∧ (p.passthrough = false → 0 < p.len)

/-- What the handlers ask for: without passthrough, some data and no more than there is room for.
With passthrough, `AT+SSEND` takes the least `int` too and asks for `2 ^ 31` bytes. -/
def Posed (p : DataModeParams) : Prop :=
  p.passthrough = false → 0 < p.len ∧ p.len ≤ atcmdDataLenMax

end DataModeParams

/-- `atcmd_data_mode_init_params`, and what `atcmd_data_mode_disable` leaves. -/
def atcmdDataModeInitParams (dataType : DataType) : DataModeParams :=
  { dataType := dataType, id := -1, len := 0, timeout := 0, doneEvent := false
    exitCmd := none }

/-- `atcmd_data_mode_t`. -/
structure DataMode where
  params : DataModeParams
  enable : Bool
  idle : Bool
  cnt : ℕ
  sendLen : ℕ
  sendDone : UInt32
  sendDrop : UInt32
  sendTimeout : UInt32
  lastSendTime : UInt32
  deriving DecidableEq

/-- What a session transmits, and the blocks it hands to its sink. -/
inductive Out where
  | ok
  | sink (dataType : DataType) (id : ℤ) (block : Bytes) (ret : ℕ)
  | sevent (e : SocketEvent)
  | bevent (e : BasicEvent)
  deriving DecidableEq, Repr

/-- What the sinks answer: how many bytes of a block they took, and their state after it. -/
structure Sink (ε : Type*) where
  atcmdSocketSendData : ℤ → Bytes → ε → ℕ × ε
  atcmdFirmwareDownload : Bytes → ε → ℕ × ε
  atcmdSfUserWrite : ℕ → Bytes → ε → ℕ × ε

/-- `g_atcmd_data_mode`, the statics `_buf` and `cnt_exit_cmd` of `atcmd_receive_data`, the state
of the sinks, and what was sent out since the session began. -/
structure Receiver (ε : Type*) where
  mode : DataMode
  buf : Bytes
  cntExitCmd : ℕ
  env : ε
  out : List Out

variable {ε : Type*}

/-- The receiver after a reset. -/
def Receiver.boot (e : ε) : Receiver ε where
  mode :=
    { params := atcmdDataModeInitParams (.ssend false), enable := false, idle := false, cnt := 0
      sendLen := 0, sendDone := 0, sendDrop := 0, sendTimeout := 0, lastSendTime := 0 }
  buf := List.replicate atcmdDataLenMax 0
  cntExitCmd := 0
  env := e
  out := []

/-- Something sent out. -/
def Receiver.emit (rx : Receiver ε) (o : Out) : Receiver ε := { rx with out := rx.out ++ [o] }

def atcmdDataModeEnable (p : DataModeParams) (m : DataMode) : Option DataMode :=
  if m.enable then none
  else some
    { params := p, enable := true, idle := false, cnt := 0, sendLen := p.len, sendDone := 0
      sendDrop := 0, sendTimeout := p.timeout + 100, lastSendTime := 0 }

def atcmdDataModeDisable (m : DataMode) : DataMode :=
  if m.enable then
    { m with
      params := atcmdDataModeInitParams (.ssend false), enable := false, idle := false, cnt := 0
      sendLen := 0, sendDone := 0, sendDrop := 0 }
  else m

/-- `atcmd_data_mode_continue`, at the clock `now`. -/
def atcmdDataModeContinue (now : UInt32) (m : DataMode) : DataMode :=
  if m.enable then { m with idle := false, lastSendTime := now } else m

/-- `atcmd_transmit_return` of a success. -/
def atcmdTransmitOk (now : UInt32) (rx : Receiver ε) : Receiver ε :=
  { rx.emit .ok with mode := atcmdDataModeContinue now rx.mode }

def atcmdDataModeTimeout (m : DataMode) : Out :=
  match m.params.dataType with
  | .ssend _ => .sevent (.sendIdle m.params.id m.sendDone m.sendDrop m.cnt)
  | .fwbindl => .bevent (.fwbindlIdle m.sendLen m.cnt)
  | .sfuser offset => .bevent (.sfuserIdle offset m.sendLen m.cnt)

/-- `elapsed_time` of `atcmd_data_mode_task`. -/
def elapsedTime (now sendTime : UInt32) : UInt32 :=
  if sendTime ≤ now then now - sendTime else (0xffffffff - sendTime) + now + 1

/-- One pass of `atcmd_data_mode_task`, and how long it suspends itself, zero for ever. -/
def atcmdDataModeTask (now : UInt32) (rx : Receiver ε) : Receiver ε × UInt32 :=
  let m := rx.mode
  if m.enable && decide (0 < m.lastSendTime) && decide (0 < m.sendTimeout) then
    if elapsedTime now m.lastSendTime < m.sendTimeout then
      (rx, m.sendTimeout - elapsedTime now m.lastSendTime)
    else if !m.idle then
      ({ rx.emit (atcmdDataModeTimeout m) with mode := { m with idle := true } }, 0)
    else (rx, 0)
  else (rx, 0)

/-! ## Receiving data -/

/-- `_atcmd_receive_data`: the block goes to the sink of the session. -/
def atcmdReceiveData_ (S : Sink ε) (buf : Bytes) (rx : Receiver ε) : ℕ × Receiver ε :=
  if buf = [] then (0, rx)
  else
    let p := rx.mode.params
    let (ret, e) := match p.dataType with
      | .ssend _ => S.atcmdSocketSendData p.id buf rx.env
      | .fwbindl => S.atcmdFirmwareDownload buf rx.env
      | .sfuser offset => S.atcmdSfUserWrite offset buf rx.env
    (ret, { rx.emit (.sink p.dataType p.id buf ret) with env := e })

def atcmdReceiveDataDone_ (p : DataModeParams) (done : UInt32) : Out :=
  match p.dataType with
  | .ssend _ => .sevent (.sendDone p.id done)
  | .fwbindl => .bevent (.fwbindlDone done)
  | .sfuser offset => .bevent (.sfuserDone offset done)

def atcmdReceiveDataDrop_ (p : DataModeParams) (drop : UInt32) : Out :=
  match p.dataType with
  | .ssend _ => .sevent (.sendDrop p.id drop)
  | .fwbindl => .bevent (.fwbindlDrop drop)
  | .sfuser offset => .bevent (.sfuserDrop offset drop)

def atcmdReceiveDataExit_ (p : DataModeParams) (len : ℕ) (done drop : UInt32) : Out :=
  match p.dataType with
  | .ssend _ => .sevent (.sendExit p.id done drop)
  | .fwbindl => .bevent (.fwbindlFail len)
  | .sfuser offset => .bevent (.sfuserFail offset len)

/-- Where the loop over `buf` in the idle branch of `atcmd_receive_data` ends. -/
inductive ExitScan where
  /-- A byte is not the next one of the exit command. -/
  | mismatch
  /-- The byte at index `i` completes the exit command. -/
  | matched (i : ℕ)
  /-- All of `buf` matches, and `cnt` bytes of the exit command are matched now. -/
  | more (cnt : ℕ)
  deriving DecidableEq, Repr

/-- The loop over `buf` in the idle branch of `atcmd_receive_data`, from index `i` with `cnt`
bytes of the exit command matched. -/
def exitScan (exitCmd : Bytes) : (cnt i : ℕ) → Bytes → ExitScan
  | cnt, _, [] => .more cnt
  | cnt, i, b :: bs =>
    if exitCmd[cnt]? ≠ some b then .mismatch
    else if cnt + 1 = exitCmd.length then .matched i
    else exitScan exitCmd (cnt + 1) (i + 1) bs

/-- `atcmd_receive_data` after it has answered the exit command, which the byte at index `i` of `buf`
completed. -/
def atcmdReceiveDataLeave (S : Sink ε) (i : ℕ) (buf : Bytes) (rx : Receiver ε) : Receiver ε :=
  let p := rx.mode.params
  let rx := if p.exit.length ≤ i then
      { rx with
        buf := memcpy rx.buf rx.mode.cnt (buf.take (i + 1 - p.exit.length))
        mode := { rx.mode with cnt := rx.mode.cnt + (i + 1 - p.exit.length) } }
    else rx
  let done := rx.mode.sendDone
  let drop := rx.mode.sendDrop
  let (done, drop, rx) := if p.passthrough && decide (0 < rx.mode.cnt) then
      let (ret, rx) := atcmdReceiveData_ S (rx.buf.take rx.mode.cnt) rx
      (done + .ofNat ret, drop + (.ofNat rx.mode.cnt - .ofNat ret), rx)
    else (done, drop, rx)
  let rx := rx.emit (atcmdReceiveDataExit_ p rx.mode.sendLen done drop)
  { rx with mode := atcmdDataModeDisable rx.mode }

/-- `atcmd_receive_data` once the exit command is complete. -/
def atcmdReceiveDataExit (S : Sink ε) (now : UInt32) (i : ℕ) (buf : Bytes) (rx : Receiver ε) :
    Receiver ε :=
  atcmdReceiveDataLeave S i buf (atcmdTransmitOk now { rx with cntExitCmd := 0 })

/-- The events at the end of `atcmd_receive_data`. -/
def atcmdReceiveDataReport (p : DataModeParams) (done drop : UInt32) (rx : Receiver ε) :
    Receiver ε :=
  let rx := if 0 < drop then rx.emit (atcmdReceiveDataDrop_ p drop) else rx
  if p.doneEvent then rx.emit (atcmdReceiveDataDone_ p done) else rx

/-- The last part of `atcmd_receive_data`: the block goes to the sink, and the host is told how
many of its `send_len` bytes were taken. -/
def atcmdReceiveDataBlock (S : Sink ε) (now : UInt32) (sendLen : ℕ) (block : Bytes)
    (rx : Receiver ε) : Receiver ε :=
  let p := rx.mode.params
  let (ret, rx) := atcmdReceiveData_ S block rx
  let done := rx.mode.sendDone + .ofNat ret
  let drop := rx.mode.sendDrop + (.ofNat sendLen - .ofNat ret)
  if p.passthrough then
    let rx := { rx with mode := { rx.mode with cnt := 0, sendDone := done, sendDrop := drop } }
    let rx := atcmdReceiveDataReport p (.ofNat ret) (.ofNat sendLen - .ofNat ret) rx
    { rx with mode := atcmdDataModeContinue now rx.mode }
  else
    let rx := atcmdReceiveDataReport p done drop rx
    { rx with mode := atcmdDataModeDisable rx.mode }

/-- `atcmd_receive_data` past its idle branch, and how many bytes it took. -/
def atcmdReceiveDataBody (S : Sink ε) (now : UInt32) (buf : Bytes) (rx : Receiver ε) :
    Receiver ε × ℕ :=
  let m := rx.mode
  if m.params.passthrough && m.sendLen == 0 then
    (atcmdReceiveDataBlock S now buf.length buf rx, buf.length)
  else if m.cnt + buf.length < m.sendLen then
    ({ rx with
        buf := memcpy rx.buf m.cnt buf
        mode := atcmdDataModeContinue now { m with cnt := m.cnt + buf.length } }, buf.length)
  else
    let len := m.sendLen - m.cnt
    if 0 < m.cnt then
      let rx := { rx with
        buf := memcpy rx.buf m.cnt (buf.take len)
        mode := { m with cnt := m.cnt + len } }
      (atcmdReceiveDataBlock S now m.sendLen (rx.buf.take m.sendLen) rx, len)
    else (atcmdReceiveDataBlock S now m.sendLen (buf.take m.sendLen) rx, len)

/-- `atcmd_receive_data`, and how many bytes it took. -/
def atcmdReceiveData (S : Sink ε) (now : UInt32) (buf : Bytes) (rx : Receiver ε) :
    Receiver ε × ℕ :=
  if !rx.mode.enable || buf.isEmpty then (rx, 0)
  else if rx.mode.idle then
    match exitScan rx.mode.params.exit rx.cntExitCmd 0 buf with
    | .mismatch => atcmdReceiveDataBody S now buf { rx with cntExitCmd := 0 }
    | .matched i => (atcmdReceiveDataExit S now i buf rx, i)
    | .more cnt => ({ rx with cntExitCmd := cnt }, buf.length)
  else atcmdReceiveDataBody S now buf rx

/-! ## A session -/

/-- A receiver, and the bytes the running call of `atcmd_receive` has not taken yet. -/
structure Session (ε : Type*) where
  rx : Receiver ε
  rest : Bytes

/-- What happens next: a call of `atcmd_receive`, the next turn of its loop, or a pass of
`atcmd_data_mode_task`, which may come between two turns. -/
inductive Input where
  | receive (buf : Bytes)
  | turn (now : UInt32)
  | tick (now : UInt32)
  deriving DecidableEq, Repr

/-- The steps of a session, which lasts while the data mode is enabled. -/
def sessionStep (S : Sink ε) (s : Session ε) : Input → Option (Session ε)
  | .receive buf => if s.rx.mode.enable ∧ s.rest = [] then some { s with rest := buf } else none
  | .turn now => if s.rx.mode.enable ∧ s.rest ≠ [] then
      let (rx, ret) := atcmdReceiveData S now s.rest s.rx
      some { rx := rx, rest := s.rest.drop ret }
    else none
  | .tick now => if s.rx.mode.enable then
      some { s with rx := (atcmdDataModeTask now s.rx).1 }
    else none

/-- The bytes a call of `atcmd_receive` brings. -/
def Input.received : Input → Bytes
  | .receive buf => buf
  | _ => []

/-- A command enables the data mode and its `OK` is sent. -/
def sessionStart (p : DataModeParams) (now : UInt32) (rx : Receiver ε) : Option (Session ε) :=
  (atcmdDataModeEnable p rx.mode).map fun m =>
    { rx := atcmdTransmitOk now { rx with mode := m, out := [] }, rest := [] }

/-- The receivers a command can find: the one after a reset, and those a session left when it
ended, if no copy left the buffer. What else happens meanwhile changes only the state of the
sinks. -/
inductive Ready (S : Sink ε) : Receiver ε → Prop where
  | boot (e : ε) : Ready S (.boot e)
  | after {rx : Receiver ε} {p : DataModeParams} {now : UInt32} {s s' : Session ε}
      {is : List Input} (e : ε) : Ready S rx → p.Posed → sessionStart p now rx = some s →
      Machine.run (sessionStep S) s is = some s' → s'.rx.mode.enable = false →
      s'.rx.buf.length = atcmdDataLenMax → Ready S { s'.rx with env := e }

/-- What the calls of `atcmd_receive` brought, as one stream. -/
def received (is : List Input) : Bytes := (is.map Input.received).flatten

/-- The blocks handed to the sink. -/
def blocks (out : List Out) : List Bytes :=
  out.filterMap fun | .sink _ _ block _ => some block | _ => none

/-- The event of a session left by the exit command. -/
def Out.IsExit : Out → Prop
  | .sevent (.sendExit ..) | .bevent (.fwbindlFail ..) | .bevent (.sfuserFail ..) => True
  | _ => False

instance : DecidablePred Out.IsExit
  | .sevent e => by cases e <;> unfold Out.IsExit <;> infer_instance
  | .bevent e => by cases e <;> unfold Out.IsExit <;> infer_instance
  | .ok | .sink .. => isFalse id

/-- The step contradicts a match of the exit command that earlier calls began: the bytes they
brought were taken for the exit command, and are not. -/
def Contradicts (s : Session ε) : Input → Prop
  | .turn _ => s.rx.mode.idle ∧ 0 < s.rx.cntExitCmd ∧
      exitScan s.rx.mode.params.exit s.rx.cntExitCmd 0 s.rest = .mismatch
  | _ => False

instance (s : Session ε) : DecidablePred (Contradicts s)
  | .turn _ => inferInstanceAs (Decidable (_ ∧ _ ∧ _))
  | .receive _ | .tick _ => isFalse id

/-- How many bytes `atcmd_receive_data` copies to where `cnt` is, past its idle branch. -/
def Receiver.copied (rx : Receiver ε) (buf : Bytes) : ℕ :=
  let m := rx.mode
  if m.params.passthrough && m.sendLen == 0 then 0
  else if m.cnt + buf.length < m.sendLen then buf.length
  else if 0 < m.cnt then m.sendLen - m.cnt
  else 0

/-- `atcmd_receive_data` is past its idle branch and copies over the end of `_buf`. -/
def Receiver.Overruns (rx : Receiver ε) (buf : Bytes) : Prop :=
  rx.mode.enable = true
    ∧ (rx.mode.idle = true → exitScan rx.mode.params.exit rx.cntExitCmd 0 buf = .mismatch)
    ∧ atcmdDataLenMax < rx.mode.cnt + rx.copied buf

instance (rx : Receiver ε) (buf : Bytes) : Decidable (rx.Overruns buf) :=
  inferInstanceAs (Decidable (_ ∧ (_ → _) ∧ _))

/-- A turn of the session copies over the end of `_buf`. -/
def Session.Overruns (s : Session ε) : Input → Prop
  | .turn _ => s.rx.Overruns s.rest
  | _ => False

instance (s : Session ε) : DecidablePred s.Overruns
  | .turn _ => inferInstanceAs (Decidable (Receiver.Overruns ..))
  | .receive _ | .tick _ => isFalse id

end NrcAtcmd
