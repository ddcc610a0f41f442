import NrcAtcmd.HostReturn
import NrcAtcmd.Param

/-!
# The host reads what the target sends

`nrc_atcmd_recv` of `nrc-atcmd.c`, byte by byte, and the parsers it hands a line to. A buffer is
what was stored in it so far, so its length is the `cnt` beside it, and a pointer into a line is
what follows it there. `stores` keeps where every store went; a store outside its buffer is one of
them, and the bytes go on behind it.

A callback is one that is registered. `malloc` says which of its calls succeed. The `long` of the
host has 32 bits.
-/

namespace NrcAtcmd

/-! ## Buffers -/

/-- What the host stores to, each an array of its own. -/
inductive HostBuf where
  | msg
  | data
  | argv (n : ℕ)
  | remoteAddr
  deriving DecidableEq, Repr

/-- `ATCMD_MSG_LEN_MAX + 1`, `ATCMD_DATA_LEN_MAX + 1` and `ATCMD_IPADDR_LEN_MAX + 1`. -/
def HostBuf.size : HostBuf → ℕ
  | .msg => 128 + 1
  | .data => 4 * 1024 + 1
  | .argv n => n
  | .remoteAddr => 45 + 1

/-- A store, by its buffer and index. -/
structure Store where
  buf : HostBuf
  idx : ℕ
  deriving DecidableEq, Repr

def Store.Inside (w : Store) : Prop := w.idx < w.buf.size

/-- The stores of `n` bytes from an index on. -/
def storesAt (buf : HostBuf) (idx n : ℕ) : List Store := (List.range n).map fun k => ⟨buf, idx + k⟩

/-- A string, up to its terminator. -/
def cString (s : Bytes) : Bytes := s.takeWhile fun b => b != 0

/-- A string in a line whose commas were overwritten by terminators. -/
def argString (s : Bytes) : Bytes := s.takeWhile fun b => b != 0 && b != 44

/-! ## What the host is told -/

/-- `enum ATCMD_EVENT`. -/
inductive AtcmdEvent where
  | fwbindlIdle
  | fwbindlDrop
  | fwbindlFail
  | fwbindlDone
  | sfuserIdle
  | sfuserDrop
  | sfuserFail
  | sfuserDone
  | connectSuccess
  | disconnect
  | dhcpStart
  | dhcpStop
  | dhcpBusy
  | dhcpFail
  | dhcpSuccess
  | dhcpTimeout
  | fotaVersion
  | fotaBinary
  | fotaDownload
  | fotaUpdate
  | fotaFail
  | deepsleepWakeup
  | connect
  | close
  | sendIdle
  | sendDrop
  | sendExit
  | sendError
  | recvReady
  | recvError
  deriving DecidableEq, Repr

namespace AtcmdEvent

/-- `name` of `nrc_atcmd_recv_event`. -/
def name : AtcmdEvent → String
  | fwbindlIdle => "FWBINDL_IDLE"
  | fwbindlDrop => "FWBINDL_DROP"
  | fwbindlFail => "FWBINDL_FAIL"
  | fwbindlDone => "FWBINDL_DONE"
  | sfuserIdle => "SFUSER_IDLE"
  | sfuserDrop => "SFUSER_DROP"
  | sfuserFail => "SFUSER_FAIL"
  | sfuserDone => "SFUSER_DONE"
  | connectSuccess => "CONNECT_SUCCESS"
  | disconnect => "DISCONNECT"
  | dhcpStart => "DHCP_START"
  | dhcpStop => "DHCP_STOP"
  | dhcpBusy => "DHCP_BUSY"
  | dhcpFail => "DHCP_FAIL"
  | dhcpSuccess => "DHCP_SUCCESS"
  | dhcpTimeout => "DHCP_TIMEOUT"
  | fotaVersion => "FOTA_VERSION"
  | fotaBinary => "FOTA_BINARY"
  | fotaDownload => "FOTA_DOWNLOAD"
  | fotaUpdate => "FOTA_UPDATE"
  | fotaFail => "FOTA_FAIL"
  | deepsleepWakeup => "DEEPSLEEP_WAKEUP"
  | connect => "CONNECT"
  | close => "CLOSE"
  | sendIdle => "SEND_IDLE"
  | sendDrop => "SEND_DROP"
  | sendExit => "SEND_EXIT"
  | sendError => "SEND_ERROR"
  | recvReady => "RECV_READY"
  | recvError => "RECV_ERROR"

/-- `ATCMD_EVENT_START` to `ATCMD_EVENT_END`. -/
def all : List AtcmdEvent :=
  [fwbindlIdle, fwbindlDrop, fwbindlFail, fwbindlDone, sfuserIdle, sfuserDrop, sfuserFail,
    sfuserDone, connectSuccess, disconnect, dhcpStart, dhcpStop, dhcpBusy, dhcpFail, dhcpSuccess,
    dhcpTimeout, fotaVersion, fotaBinary, fotaDownload, fotaUpdate, fotaFail, deepsleepWakeup,
    connect, close, sendIdle, sendDrop, sendExit, sendError, recvReady, recvError]

/-- The event of a name. -/
def ofName (s : Bytes) : Option AtcmdEvent := all.find? fun e => bytes e.name == s

end AtcmdEvent

/-- `atcmd_rxd_t`. -/
inductive AtcmdRxd where
  | socket (length id : ℤ) (remoteAddr : Bytes) (remotePort : ℤ) (verbose : Bool)
  | sfuser (length offset : ℤ)
  | sfsysuser (length offset : ℤ)
  deriving DecidableEq, Repr

def AtcmdRxd.length : AtcmdRxd → ℤ
  | socket length .. | sfuser length _ | sfsysuser length _ => length

/-- A call of `nrc_atcmd_set_return` or of a callback, whose `argv` is what of it was stored. -/
inductive HostCall where
  | ret (r : HostRet)
  | boot (reason : ℕ)
  | info (cmd : Bytes) (argc : ℕ) (argv : List Bytes)
  | event (e : AtcmdEvent) (argc : ℕ) (argv : List Bytes)
  | rxd (rxd : AtcmdRxd) (data : Bytes)
  deriving DecidableEq, Repr

/-- Every argument of the call was stored. -/
def HostCall.Stored : HostCall → Prop
  | .info _ argc argv | .event _ argc argv => argc ≤ argv.length
  | _ => True

/-! ## Lines -/

def nrcAtcmdRecvBoot (msg : Bytes) : List HostCall :=
  if msg.take 6 ≠ bytes "+BOOT:" then []
  else
    let msg := cString (msg.drop 6)
    let has (s : String) : Bool := decide (bytes s <:+: msg)
    let reason := if has "POR" then 1 <<< 0 else 0
    let reason := if has "WDT" then reason ||| 1 <<< 1 else reason
    let reason := if has "PMC" then reason ||| 1 <<< 2 else reason
    let reason := if has "HSPI" then reason ||| 1 <<< 3 else reason
    [.ret .none, .boot reason]

/-- What a loop over the rest of a line does to `argc`, what it stores in `argv`, and its stores. -/
structure Argv where
  argc : ℕ
  argv : List Bytes
  stores : List Store

/-- The loop of `nrc_atcmd_recv_info` and `nrc_atcmd_recv_event`, at index `i` of the line. -/
def argvLoop (i argc : ℕ) : Bytes → Argv
  | [] => ⟨argc, [], []⟩
  | b :: t =>
    if b = 44 then
      let a := argvLoop (i + 1) (argc + 1) t
      if argc < 10 then
        ⟨a.argc, argString t :: a.argv, ⟨.msg, i⟩ :: ⟨.argv 10, argc⟩ :: a.stores⟩
      else ⟨a.argc, a.argv, ⟨.msg, i⟩ :: a.stores⟩
    else argvLoop (i + 1) argc t

def nrcAtcmdRecvInfo (msg : Bytes) : List HostCall × List Store :=
  match (cString msg).findIdx? (· == 58) with
  | none => ([], [])
  | some i =>
    let cmd := (msg.take i).drop 1
    let text := msg.drop (i + 1)
    let a := argvLoop (i + 1) 1 text
    ([.info cmd a.argc (argString text :: a.argv)], ⟨.msg, i⟩ :: ⟨.argv 10, 0⟩ :: a.stores)

/-- `nrc_atcmd_param_to_str`, into a buffer of `len` bytes. -/
def nrcAtcmdParamToStr (param : Bytes) (len : ℕ) : Option Bytes :=
  if len = 0 then none
  else if param.length ≤ 2 ∨ len - 1 < param.length - 2 then none
  else if param.head? ≠ some 34 ∧ param.getLast? ≠ some 34 then none
  else some ((param.drop 1).take (param.length - 2))

/-- The name of an event and the stores that make it, from `argv[0]`. -/
def eventName (argv0 : Bytes) : Bytes × List Store :=
  let (name, w) := match nrcAtcmdParamToStr argv0 argv0.length with
    | some str => (str, storesAt .msg 8 (str.length + 1))
    | none => (argv0, [])
  if name = bytes "TCP_ERROR" then (bytes "RECV_ERROR", w ++ storesAt .msg 8 11) else (name, w)

def nrcAtcmdRecvEvent (msg : Bytes) : List HostCall × List Store :=
  let text := msg.drop 8
  let a := argvLoop 8 1 text
  let (name, w) := eventName (argString text)
  -- without quotes around it, `RECV_ERROR` ends where the next argument begins
  let argv := if argString text = bytes "TCP_ERROR" then a.argv.modifyHead fun _ => [] else a.argv
  let w := ⟨.argv 10, 0⟩ :: a.stores ++ w
  match AtcmdEvent.ofName name with
  | none => ([], w)
  | some .deepsleepWakeup =>
    ([.ret .none, .event .deepsleepWakeup (a.argc - 1) argv], w)
  | some e => ([.event e (a.argc - 1) argv], w)

/-- The loop of the three `+RXD` parsers, whose `argv` has `n` entries. -/
def rxdLoop (n i argc : ℕ) : Bytes → Option (List Bytes) × List Store
  | [] => (some [], [])
  | b :: t =>
    if b = 0 then (some [], [])
    else if n < argc then (none, [])
    else if b = 44 then
      let (argv, w) := rxdLoop n (i + 1) (argc + 1) t
      (argv.map (argString t :: ·), ⟨.msg, i⟩ :: ⟨.argv n, argc⟩ :: w)
    else rxdLoop n (i + 1) argc t

/-- The arguments of a `+RXD` line, which begins with `head`. -/
def rxdArgv (n : ℕ) (head : String) (msg : Bytes) : Option (List Bytes) × List Store :=
  if msg.take (bytes head).length ≠ bytes head then (none, [])
  else
    let text := msg.drop (bytes head).length
    let (argv, w) := rxdLoop n (bytes head).length 1 text
    (argv.map (argString text :: ·), ⟨.argv n, 0⟩ :: w)

/-- `nrc_atcmd_recv_rxd`, after an allocation that succeeded. -/
def nrcAtcmdRecvRxd (msg : Bytes) : Option AtcmdRxd × List Store :=
  let (argv, w) := rxdArgv 4 "+RXD:" msg
  -- `nrc_atcmd_alloc_rxd` stores "0.0.0.0"
  let w := storesAt .remoteAddr 0 8 ++ w
  match argv with
  | some [id, length] =>
    if atoi id < 0 ∨ atoi length < 0 then (none, w)
    else (some (.socket (atoi length) (atoi id) (bytes "0.0.0.0") 0 false), w)
  | some [id, length, addr, port] =>
    if atoi id < 0 ∨ atoi length < 0 then (none, w)
    else if addr.length < 3 ∨ 45 < addr.length then (none, w)
    else
      let w := w ++ storesAt .remoteAddr 0 (addr.length + 1)
      if atoi port < 0 then (none, w)
      else (some (.socket (atoi length) (atoi id) addr (atoi port) true), w)
  | _ => (none, w)

/-- The parsers of the two headers that give an offset and a length. -/
def recvRxdOffset (head : String) (rxd : ℤ → ℤ → AtcmdRxd) (msg : Bytes) :
    Option AtcmdRxd × List Store :=
  let (argv, w) := rxdArgv 2 head msg
  match argv with
  | some [offset, length] =>
    if atoi offset < 0 ∨ atoi length < 0 then (none, w)
    else (some (rxd (atoi length) (atoi offset)), w)
  | _ => (none, w)

def nrcAtcmdRecvRxdSfuser : Bytes → Option AtcmdRxd × List Store :=
  recvRxdOffset "+RXD_SFUSER:" .sfuser

def nrcAtcmdRecvRxdSfsysuser : Bytes → Option AtcmdRxd × List Store :=
  recvRxdOffset "+RXD_SFSYSUSER:" .sfsysuser

/-! ## Bytes -/

/-- `enum ATCMD_MSG_TYPE` of `nrc_atcmd_recv`. -/
inductive AtcmdMsgType where
  | error
  | ok
  | info
  | boot
  | bevent
  | wevent
  | sevent
  | dataSocket
  | dataSfuser
  | dataSfsysuser
  | none
  deriving DecidableEq, Repr

/-- The static variables of `nrc_atcmd_recv`, how often it called `malloc`, what the host was told,
and the stores. -/
structure HostRecv where
  type : AtcmdMsgType
  msg : Bytes
  rxd : Option AtcmdRxd
  data : Bytes
  allocs : ℕ
  calls : List HostCall
  stores : List Store
  deriving DecidableEq, Repr

def HostRecv.boot : HostRecv where
  type := .none
  msg := []
  rxd := none
  data := []
  allocs := 0
  calls := []
  stores := []

/-- The type of a `+` line whose first bytes are these, where they settle it. -/
def infoType (msg : Bytes) : Option AtcmdMsgType :=
  if msg.length = 6 ∧ msg = bytes "+BOOT:" then some .boot
  else if msg.length = 8 then
    if msg = bytes "+BEVENT:" then some .bevent
    else if msg = bytes "+WEVENT:" then some .wevent
    else if msg = bytes "+SEVENT:" then some .sevent
    else none
  else if msg.length = 5 ∧ msg = bytes "+RXD:" then some .dataSocket
  else if msg.length = 12 ∧ msg = bytes "+RXD_SFUSER:" then some .dataSfuser
  else if msg.length = 15 ∧ msg = bytes "+RXD_SFSYSUSER:" then some .dataSfsysuser
  else none

/-- The `switch` on the type of the message, for the bytes of the message so far: where it ends in
`continue`, the type and the bytes that are kept. -/
def recvType : AtcmdMsgType → Bytes → Option (AtcmdMsgType × Bytes)
  | .none, msg =>
    if msg = bytes "O" then some (.ok, msg)
    else if msg = bytes "E" then some (.error, msg)
    else if msg = bytes "+" then some (.info, msg)
    else some (.none, [])
  | .ok, msg =>
    if msg.length < 4 then some (.ok, msg)
    else if msg ≠ bytes "OK\r\n" then some (.none, [])
    else none
  | .error, msg =>
    if msg.length < 7 then some (.error, msg)
    else if msg ≠ bytes "ERROR\r\n" then some (.none, [])
    else none
  | .info, msg => (infoType msg).map (·, msg)
  | _, _ => none

namespace HostRecv

variable (malloc : ℕ → Bool) (s : HostRecv)

/-- A store. -/
def store (w : Store) : HostRecv := { s with stores := s.stores ++ [w] }

/-- What is kept of the message. -/
def keep (type : AtcmdMsgType) (msg : Bytes) : HostRecv := { s with type := type, msg := msg }

def tell (p : List HostCall × List Store) : HostRecv :=
  { s with calls := s.calls ++ p.1, stores := s.stores ++ p.2 }

/-- A `+RXD` line. -/
def expect (p : Option AtcmdRxd × List Store) : HostRecv :=
  let s' := { s with allocs := s.allocs + 1 }
  if malloc s.allocs then { s' with rxd := p.1, stores := s.stores ++ p.2 }
  else { s' with rxd := none }

/-- What is done with a line. -/
def hear (msg : Bytes) : HostRecv :=
  match s.type with
  | .ok => s.tell ([.ret .ok], [])
  | .error => s.tell ([.ret .error], [])
  | .info => s.tell (nrcAtcmdRecvInfo msg)
  | .boot => s.tell (nrcAtcmdRecvBoot msg, [])
  | .bevent | .wevent | .sevent => s.tell (nrcAtcmdRecvEvent msg)
  | .dataSocket => s.expect malloc (nrcAtcmdRecvRxd msg)
  | .dataSfuser => s.expect malloc (nrcAtcmdRecvRxdSfuser msg)
  | .dataSfsysuser => s.expect malloc (nrcAtcmdRecvRxdSfsysuser msg)
  | .none => s

/-- The end of a line: `msg` ends with CR LF, which is cut off. -/
def endLine : HostRecv :=
  let msg := s.msg.take (s.msg.length - 2)
  ((s.store ⟨.msg, msg.length⟩).hear malloc msg).keep .none []

/-- A message that is too long is given up. -/
def giveUp : HostRecv :=
  if 128 ≤ s.msg.length then (s.store ⟨.msg, 128⟩).keep .none [] else s

/-- A byte is stored in the line. Where the type is not known there is no other before it. -/
def storeByte (b : UInt8) : HostRecv :=
  let s' := (s.store ⟨.msg, s.msg.length⟩).keep s.type (s.msg ++ [b])
  if s.type = .none ∧ 1 < s'.msg.length then (s'.store ⟨.msg, 0⟩).keep s.type [b] else s'

/-- A byte of a line. -/
def recvMsg (b : UInt8) : HostRecv :=
  let s := s.giveUp.storeByte b
  match recvType s.type s.msg with
  | some (type, msg) => s.keep type msg
  | none => if [13, 10] <:+ s.msg then s.endLine malloc else s

/-- The payload is complete. -/
def endData (r : AtcmdRxd) : HostRecv :=
  { s with rxd := none, data := [], calls := s.calls ++ [.rxd r s.data] }

/-- A byte of a payload. -/
def recvData (r : AtcmdRxd) (b : UInt8) : HostRecv :=
  let s := { s.store ⟨.data, s.data.length⟩ with data := s.data ++ [b] }
  if s.data.length = r.length then s.endData r else s

/-- A pass of the loop of `nrc_atcmd_recv`. -/
def recvByte (b : UInt8) : HostRecv :=
  match s.rxd with
  | some r => if 0 < r.length then s.recvData r b else (s.endData r).recvMsg malloc b
  | none => s.recvMsg malloc b

end HostRecv

def nrcAtcmdRecv (malloc : ℕ → Bool) (buf : Bytes) (s : HostRecv) : HostRecv :=
  buf.foldl (HostRecv.recvByte malloc) s

/-- Everything stored is in its buffer, and every argument of a call was stored. -/
structure HostRecv.Safe (s : HostRecv) : Prop where
  stores : ∀ w ∈ s.stores, w.Inside
  calls : ∀ c ∈ s.calls, c.Stored

/-! ## Where it goes wrong -/

/-- A `+RXD` line has more than `n` arguments. -/
def RxdOverruns (n : ℕ) (head : String) (msg : Bytes) : Prop :=
  msg.take (bytes head).length = bytes head ∧
    n ≤ (cString (msg.drop (bytes head).length)).count 44

/-- The line has more arguments than its parser has room for. An event only counts when it is told,
and a line with no colon is no information. -/
def LineOverruns (mem : Bool) (type : AtcmdMsgType) (msg : Bytes) : Prop :=
  match type with
  | .info => ∃ i ∈ (cString msg).findIdx? (· == 58), 10 ≤ (msg.drop (i + 1)).count 44
  | .bevent | .wevent | .sevent =>
    (AtcmdEvent.ofName (eventName (argString (msg.drop 8))).1).isSome ∧ 10 ≤ (msg.drop 8).count 44
  | .dataSocket => mem = true ∧ RxdOverruns 4 "+RXD:" msg
  | .dataSfuser => mem = true ∧ RxdOverruns 2 "+RXD_SFUSER:" msg
  | .dataSfsysuser => mem = true ∧ RxdOverruns 2 "+RXD_SFSYSUSER:" msg
  | _ => False

/-- The byte ends a line with too many arguments. -/
def HostRecv.EndOverruns (malloc : ℕ → Bool) (s : HostRecv) (b : UInt8) : Prop :=
  b = 10 ∧ s.msg.getLast? = some 13 ∧ s.msg.length < 128 ∧
    LineOverruns (malloc s.allocs) s.type s.msg.dropLast

/-- The byte is one of a payload announced with more than 4097 bytes, and as many are there already;
or it ends a line with too many arguments. -/
def HostRecv.Overruns (malloc : ℕ → Bool) (s : HostRecv) (b : UInt8) : Prop :=
  match s.rxd.filter fun r => 0 < r.length with
  | some r => 4097 < r.length ∧ 4097 ≤ s.data.length
  | none => s.EndOverruns malloc b

end NrcAtcmd
