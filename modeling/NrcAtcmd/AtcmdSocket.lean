import NrcAtcmd.DataMode
import NrcAtcmd.Lib.Decimal
import NrcAtcmd.Socket

/-!
# The socket table

`atcmd_socket.c` below its commands: the table `g_atcmd_socket`, how a socket gets into it and out
of it, and what the socket task does with a descriptor that can be read. A slot whose `id` is
negative is `none`.

The loop of `_atcmd_socket_recv_handler` is taken pass by pass: `reading` is the descriptor it
reads and how much is left.
-/

set_option linter.style.nameCheck false

namespace NrcAtcmd

open Decimal

/-- `multicast` of `atcmd_socket_t`. -/
structure Multicast where
  group : UInt8
  ttl : ℕ
  groupAddr : List Addr
  deriving DecidableEq, Repr

/-- What `_atcmd_socket_reset` leaves of it, for `ATCMD_SOCKET_MULTICAST_GROUP_MAX` groups. -/
def Multicast.zero : Multicast := ⟨0, 0, [0, 0, 0]⟩

/-- `atcmd_socket_t` of a slot that is in use. -/
structure AtcmdSocket where
  id : ℕ
  protocol : SocketProto
  localPort : ℕ
  remotePort : ℕ
  remoteAddr : Addr
  multicast : Multicast
  deriving DecidableEq, Repr

/-- `g_atcmd_socket_recv_config`. -/
structure RecvConfig where
  verbose : Bool
  passive : Bool
  readyEvent : Bool
  ready : Finset ℕ

/-- The table and what the commands read and set. `passthroughSupport` is unset where the host is
connected by a UART that does not support it. -/
structure Sockets (ν : Type*) where
  table : List (Option AtcmdSocket)
  lwip : LwipSocket ν
  recv : RecvConfig
  reading : Option (ℕ × ℕ)
  sendExit : Bytes
  doneEvent : Bool
  passthroughSupport : Bool
  timeoutWifi : List (Bytes × ℕ)
  timeoutSocket : List (Bytes × ℕ)
  mode : DataMode
  out : List Msg

variable {ν : Type*} (L : Lwip ν)

/-- After a reset: `ATCMD_SOCKET_NUM_MAX` slots, and lwIP with no descriptor open. -/
def Sockets.boot (numMax : ℕ) (passthroughSupport : Bool) (x : ν) : Sockets ν where
  table := List.replicate numMax none
  lwip :=
    { read := ∅, write := ∅, listen := ∅, addrinfo := ([], [])
      net := { descriptor := fun _ => none, stack := x } }
  recv := { verbose := false, passive := false, readyEvent := true, ready := ∅ }
  reading := none
  sendExit := bytes "AT\r\n"
  doneEvent := false
  passthroughSupport := passthroughSupport
  timeoutWifi :=
    [(bytes "WSCAN", 0), (bytes "WCONN", 60), (bytes "WDISCONN", 60), (bytes "WDHCP", 60),
      (bytes "WSOFTAP", 60)]
  timeoutSocket := [(bytes "SOPEN", 30), (bytes "SSEND", 0), (bytes "SRECV", 0)]
  mode :=
    { params := atcmdDataModeInitParams (.ssend false), enable := false, idle := false, cnt := 0
      sendLen := 0, sendDone := 0, sendDrop := 0, sendTimeout := 0, lastSendTime := 0 }
  out := []

namespace Sockets

/-- A message sent to the host. -/
def emit (m : Msg) (s : Sockets ν) : Sockets ν := { s with out := s.out ++ [m] }

/-- The sockets in use. -/
def sockets (s : Sockets ν) : List AtcmdSocket := s.table.filterMap id

/-- A call that changes nothing but the stack. -/
def call {α : Type*} (f : Call ν α) (s : Sockets ν) : Except Errno α × Sockets ν :=
  let (r, w) := s.lwip.call f
  (r, { s with lwip := w })

/-- A call of which only its failure counts. -/
def check {α : Type*} (f : Call ν α) (s : Sockets ν) : Option Errno × Sockets ν :=
  let (r, n) := s.lwip.net.check f
  (r, { s with lwip := { s.lwip with net := n } })

/-- `_atcmd_timeout_value` of a command of the socket group, in milliseconds. -/
def timeoutValue (cmd : Bytes) (s : Sockets ν) : ℕ :=
  ((s.timeoutSocket.find? fun t => t.1 == cmd).elim 0 fun t => t.2 * 1000) % 2 ^ 32

end Sockets

/-- `_atcmd_socket_search_id`: the first socket with the id, and its slot. A negative id is that of
any socket. -/
def atcmdSocketSearchId_ (id : ℤ) : List (Option AtcmdSocket) → Option (ℕ × AtcmdSocket)
  | [] => none
  | some k :: t =>
    if id < 0 ∨ id = k.id then some (0, k)
    else (atcmdSocketSearchId_ id t).map fun p => (p.1 + 1, p.2)
  | none :: t => (atcmdSocketSearchId_ id t).map fun p => (p.1 + 1, p.2)

def atcmdSocketValidPort_ (port : ℤ) : Bool := decide (0 < port) && decide (port ≤ 0xffff)

/-! ## Open and close -/

/-- `_atcmd_socket_close` of the socket in slot `i`. -/
def atcmdSocketCloseSlot (err : Option Errno) (i : ℕ) (k : AtcmdSocket) (s : Sockets ν) :
    Sockets ν :=
  let s := { s with lwip := lwipSocketClose_ L k.id (lwipSocketSendDone_ k.id s.lwip) }
  let s := s.emit (match err with
    | some e => .event (.close k.id (-e.value))
    | none => .info (bytes "SCLOSE") (ofNat k.id))
  { s with
    recv := { s.recv with
      ready := if s.recv.passive then s.recv.ready.erase k.id else s.recv.ready }
    table := s.table.set i none }

/-- A pass of the loop of `_atcmd_socket_close`. -/
def atcmdSocketCloseAt (id : ℤ) (err : Option Errno) (s : Sockets ν) (i : ℕ) : Sockets ν :=
  match s.table.getD i none with
  | some k => if id < 0 ∨ id = k.id then atcmdSocketCloseSlot L err i k s else s
  | none => s

def atcmdSocketClose_ (id : ℤ) (err : Option Errno) (s : Sockets ν) : Sockets ν :=
  (List.range s.table.length).foldl (atcmdSocketCloseAt L id err) s

/-- The call of `_lwip_socket_open` that `_atcmd_socket_open` makes, and the local port after it. -/
def atcmdSocketOpenLwip (k : AtcmdSocket) (timeout : ℕ) (w : LwipSocket ν) :
    Option Errno × Option ℕ × ℕ × LwipSocket ν :=
  let timeout := if timeout = 0 then 30 * 1000 else timeout
  match k.protocol with
  | .udp =>
    let (ret, fd, w) := lwipSocketOpen_ L .udp none k.localPort k.multicast.ttl 0 w
    (ret, fd, k.localPort, w)
  | .tcp =>
    if 0 < k.localPort ∧ k.remotePort = 0 then
      let (ret, fd, w) := lwipSocketOpen_ L .tcp none k.localPort 0 0 w
      (ret, fd, k.localPort, w)
    else if k.localPort = 0 ∧ 0 < k.remotePort then
      match lwipSocketOpen_ L .tcp (some (k.remoteAddr, k.remotePort)) 0 0 timeout w with
      | (none, some fd, w) =>
        let (port, w) := lwipSocketGetLocal_ L fd w
        (none, some fd, port, w)
      | (ret, fd, w) => (ret, fd, k.localPort, w)
    else (some .einval, none, k.localPort, w)

/-- The slot `_atcmd_socket_open` finds for a socket. -/
def atcmdSocketOpenSlot (k : AtcmdSocket) (s : Sockets ν) : Except Errno ℕ :=
  if s.sockets.any fun k' =>
      k.protocol == k'.protocol && k.localPort != 0 && k.localPort == k'.localPort then
    .error .einval
  else (s.table.findIdx? (·.isNone)).elim (.error .eperm) .ok

/-- `_atcmd_socket_open`. The id of `k` is not read. -/
def atcmdSocketOpen_ (k : AtcmdSocket) (s : Sockets ν) : Option Errno × Sockets ν :=
  match atcmdSocketOpenSlot k s with
  | .error e => (some e, s)
  | .ok i =>
    match atcmdSocketOpenLwip L k (s.timeoutValue (bytes "SOPEN")) s.lwip with
    | (ret, none, _, w) => (ret, { s with lwip := w })
    | (_, some fd, port, w) =>
      let s := { s with
        lwip := w, table := s.table.set i (some { k with id := fd, localPort := port }) }
      (none, s.emit (.info (bytes "SOPEN") (ofNat fd)))

/-! ## Receive -/

/-- `atcmd_transmit_return`, with the name of a command or without. -/
def atcmdTransmitReturn (now : UInt32) (cmd : Option Bytes) (ret : AtcmdError) (s : Sockets ν) :
    Sockets ν :=
  if ret = .success then { s.emit .ok with mode := atcmdDataModeContinue now s.mode }
  else
    match cmd with
    | some cmd => (s.emit (.ret cmd ret)).emit .error
    | none => s.emit .error

/-- What `__atcmd_socket_recv_handler` does with data. -/
def atcmdSocketRecvSome (now : UInt32) (k : AtcmdSocket) (data : Bytes)
    (remote : Option (Addr × ℕ)) (passive : Bool) (s : Sockets ν) : Sockets ν :=
  let s := if passive then atcmdTransmitReturn now none .success s else s
  let (addr, port) := remote.getD (k.remoteAddr, k.remotePort)
  s.emit (.rxd k.id (if s.recv.verbose then some (L.ipaddrNtoa addr, port) else none) data)

/-- What `__atcmd_socket_recv_handler` does with an error of a socket that is still there. -/
def atcmdSocketRecvError (id : ℕ) (e : Errno) (s : Sockets ν) : Except Errno ℕ × Sockets ν :=
  if e = .eagain then (.ok 0, s)
  else if e.closes then (.error e, atcmdSocketClose_ L id (some e) s)
  else (.error e, s.emit (.event (.recvError id (-e.value))))

def atcmdSocketRecvHandler__ (now : UInt32) (id : ℕ) (len : ℤ) (passive : Bool)
    (s : Sockets ν) : Except Errno ℕ × Sockets ν :=
  match atcmdSocketSearchId_ id s.table with
  | none => (.error .einval, s)
  | some (_, k) =>
    if len < 0 then (.error .einval, s)
    else
      let (r, w) := lwipSocketRecv__ L id (min len.toNat atcmdDataLenMax) s.lwip
      let s := { s with lwip := w }
      match r with
      | .ok (data, remote) =>
        if data = [] then (.ok 0, s)
        else (.ok data.length, atcmdSocketRecvSome L now k data remote passive s)
      | .error e => atcmdSocketRecvError L id e s

/-- `_atcmd_socket_recv_handler` in passive mode: the data is announced, not read. -/
def atcmdSocketRecvReady (id len : ℕ) (s : Sockets ν) : Sockets ν :=
  let s := { s with lwip := lwipSocketRecvDone_ id s.lwip }
  if id ∈ s.recv.ready then s
  else
    let s := { s with recv := { s.recv with ready := insert id s.recv.ready } }
    if s.recv.readyEvent then s.emit (.event (.recvReady id len)) else s

/-- `_atcmd_socket_recv_handler`, up to its loop. -/
def atcmdSocketRecvHandler_ (now : UInt32) (id : ℕ) (s : Sockets ν) : Sockets ν :=
  if s.table.length ≤ id then s
  else
    match s.call (L.fionread id) with
    | (.error _, s) => s
    | (.ok 0, s) => (atcmdSocketRecvHandler__ L now id 0 false s).2
    | (.ok len, s) =>
      if s.recv.passive then atcmdSocketRecvReady id len s
      else { s with reading := some (id, len) }

/-- A pass of the loop of `_atcmd_socket_recv_handler`. -/
def atcmdSocketRecvLoop (now : UInt32) (s : Sockets ν) : Sockets ν :=
  match s.reading with
  | none => s
  | some (id, left) =>
    match atcmdSocketRecvHandler__ L now id (min left atcmdDataLenMax : ℕ) false s with
    | (.error _, s) => { s with reading := none }
    | (.ok n, s) => { s with reading := if n < left then some (id, left - n) else none }

def atcmdSocketTcpConnectHandler_ (id : ℕ) (addr : Addr) (port : ℕ) (s : Sockets ν) :
    Sockets ν :=
  if port = 0 then s
  else
    let (localPort, w) := lwipSocketGetLocal_ L id s.lwip
    let s := { s with lwip := w }
    match s.table.findIdx? (·.isNone) with
    | none => s
    | some i =>
      let s := { s with table := s.table.set i (some
        { id := id, protocol := .tcp, localPort := localPort, remotePort := port
          remoteAddr := addr, multicast := .zero }) }
      s.emit (.event (.connect id (L.ipaddrNtoa addr) port localPort))

/-- What `_lwip_socket_task` does with a descriptor that can be read. -/
def lwipSocketTaskRead (now : UInt32) (fd : ℕ) (s : Sockets ν) : Sockets ν :=
  if fd ∈ s.lwip.listen then
    match lwipSocketAccept_ L fd s.lwip with
    | (.error _, w) => { s with lwip := w }
    | (.ok (id, addr, port), w) =>
      atcmdSocketTcpConnectHandler_ L id addr port
        { s with lwip := lwipSocketFdsSet_ id false w }
  else atcmdSocketRecvHandler_ L now fd s

/-- `_atcmd_socket_close` by `__atcmd_socket_send_data`, whose sends of `len` bytes to the socket
return `rets`, the last one first. -/
def atcmdSocketSendClose (id len : ℕ) (rets : List (Except Errno ℕ)) (s : Sockets ν) :
    Sockets ν :=
  match atcmdSocketSendData__ len rets with
  | .close e _ => atcmdSocketClose_ L id (some e) s
  | _ => s

end NrcAtcmd
