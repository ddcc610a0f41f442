import NrcAtcmd.AtcmdSocket
import NrcAtcmd.Param

/-!
# The commands of the socket group

The handlers of `g_atcmd_info_socket`, and `atcmd_handler`, which calls the one a command line
names and answers the host with what it returns. IPv6 is not configured.

A handler may read what the command has not set: a parameter past the last one, or a variable
that a failed call left as it was. `Stale` is what it finds there.
-/

set_option linter.style.nameCheck false

namespace NrcAtcmd

open Decimal

/-- What a handler finds where nothing was stored: in `argv`, in `ip_addr_t`, in the four values of
`_lwip_socket_tcp_get_keepalive`, and whether `errno` is `ERANGE`. -/
structure Stale where
  argv : Bytes
  addr : Addr
  keepalive : List ℤ
  erange : Bool

/-- The parameters of a command, and when it is handled. -/
structure Args where
  argv : List Bytes
  stale : Stale
  now : UInt32

/-- The values of a line, separated by commas. -/
def csv (vs : List Bytes) : Bytes := List.intercalate [44] vs

/-- `"%d"` of a flag. -/
def flag (b : Bool) : Bytes := ofNat (if b then 1 else 0)

variable {ν : Type*} (L : Lwip ν)

namespace Sockets

/-- Several messages sent to the host. -/
def emits (ms : List Msg) (s : Sockets ν) : Sockets ν := { s with out := s.out ++ ms }

/-- The socket in slot `i`. -/
def set (i : ℕ) (k : AtcmdSocket) (s : Sockets ν) : Sockets ν :=
  { s with table := s.table.set i (some k) }

/-- What a handler does for each slot in turn. -/
def forSlots {α : Type*} (f : α → ℕ → Option AtcmdSocket → Sockets ν → α × Sockets ν) (a : α)
    (s : Sockets ν) : α × Sockets ν :=
  (List.range s.table.length).foldl (fun r i => f r.1 i (r.2.table.getD i none) r.2) (a, s)

/-- What a handler does for each socket in turn. -/
def forSockets {α : Type*} (f : α → ℕ → AtcmdSocket → Sockets ν → α × Sockets ν) (a : α)
    (s : Sockets ν) : α × Sockets ν :=
  s.forSlots (fun a i k s => match k with
    | some k => f a i k s
    | none => (a, s)) a

end Sockets

/-- What a handler of a command that only prints its help does. -/
def help (texts : List String) (s : Sockets ν) : AtcmdError × Sockets ν :=
  (.success, s.emits (texts.map fun t => .help (bytes t)))

/-! ## SOPEN, SCLOSE, SLIST -/

/-- The server address of `__atcmd_socket_open_set`. -/
def atcmdSocketOpenAddr (addr port : Bytes) (s : Sockets ν) : Except Errno Addr × Sockets ν :=
  match atcmdParamToStr addr 16 with
  | none => (.error .einval, s)
  | some server =>
    match L.ipaddrAton server with
    | some a => (.ok a, s)
    | none =>
      match lwipSocketAddrInfo2_ L server port s.lwip with
      | (.error e, w) => (.error e, { s with lwip := w })
      | (.ok str, w) =>
        (match L.ipaddrAton str with
          | some a => .ok a
          | none => .error .einval, { s with lwip := w })

/-- The socket `__atcmd_socket_open_set` opens. -/
def atcmdSocketOpenParams (proto : SocketProto) (argv : List Bytes) (s : Sockets ν) :
    Except Errno AtcmdSocket × Sockets ν :=
  match proto, argv with
  | .tcp, [port] =>
    if !atcmdSocketValidPort_ (atoi port) then (.error .einval, s)
    else (.ok ⟨0, .tcp, (atoi port).toNat, 0, 0, .zero⟩, s)
  | .tcp, [addr, port] =>
    if !atcmdSocketValidPort_ (atoi port) then (.error .einval, s)
    else
      match atcmdSocketOpenAddr L addr port s with
      | (.error e, s) => (.error e, s)
      | (.ok a, s) => (.ok ⟨0, .tcp, 0, (atoi port).toNat, a, .zero⟩, s)
  | .udp, port :: ttl =>
    if 1 < ttl.length then (.error .einval, s)
    else if !atcmdSocketValidPort_ (atoi port) then (.error .einval, s)
    else
      let ttl := (ttl.head?.map atoi).getD 255
      if ttl < 0 ∨ 255 < ttl then (.error .einval, s)
      else
        (.ok ⟨0, .udp, (atoi port).toNat, 0, 0, { Multicast.zero with ttl := ttl.toNat }⟩, s)
  | _, _ => (.error .einval, s)

def atcmdSocketOpenSet__ (proto : SocketProto) (argv : List Bytes) (s : Sockets ν) :
    Option Errno × Sockets ν :=
  match atcmdSocketOpenParams L proto argv s with
  | (.error e, s) => (some e, s)
  | (.ok k, s) => atcmdSocketOpen_ L k s

/-- The protocol a parameter names. -/
def atcmdSocketProto (param : Bytes) : Option SocketProto :=
  match atcmdParamToStr param 4 with
  | none => none
  | some str =>
    if str = bytes "udp" ∨ str = bytes "UDP" then some .udp
    else if str = bytes "tcp" ∨ str = bytes "TCP" then some .tcp
    else none

/-- What `_atcmd_socket_open_set` returns. -/
def atcmdSocketOpenError : Option Errno → AtcmdError
  | none => .success
  | some .enotsup => .notsupp
  | some .einval => .inval
  | some .einprogress => .busy
  | some _ => .fail

def atcmdSocketOpenSet_ (a : Args) (s : Sockets ν) : AtcmdError × Sockets ν :=
  match a.argv with
  | [] => help ["AT+SOPEN=\"UDP\",<local_port>[,<multicast_ttl>]", "AT+SOPEN=\"TCP\",<local_port>",
      "AT+SOPEN=\"TCP\",\"<server_address>\",<server_port>"] s
  | proto :: argv =>
    if argv.length ≠ 1 ∧ argv.length ≠ 2 then (.inval, s)
    else
      match atcmdSocketProto proto with
      | none => (.inval, s)
      | some proto =>
        let (ret, s) := atcmdSocketOpenSet__ L proto argv s
        (atcmdSocketOpenError ret, s)

def atcmdSocketCloseRun_ (_ : Args) (s : Sockets ν) : AtcmdError × Sockets ν :=
  (.success, atcmdSocketClose_ L (-1) none s)

def atcmdSocketCloseSet_ (a : Args) (s : Sockets ν) : AtcmdError × Sockets ν :=
  match a.argv with
  | [] => help ["AT+SCLOSE=<socket_ID>"] s
  | [id] =>
    if 0 ≤ atoi id ∧ atoi id < s.table.length then (.success, atcmdSocketClose_ L (atoi id) none s)
    else (.inval, s)
  | _ => (.inval, s)

/-- The line of a socket in `__atcmd_socket_list_get`. -/
def atcmdSocketListLine (k : AtcmdSocket) : Bytes :=
  match k.protocol with
  | .udp => csv [ofNat k.id, quoted (bytes "UDP"), quoted (bytes "0.0.0.0"), ofNat 0,
      ofNat k.localPort, ofNat k.multicast.ttl, ofNat k.multicast.group.toNat]
  | .tcp => csv [ofNat k.id, quoted (bytes "TCP"), quoted (L.ipaddrNtoa k.remoteAddr),
      ofNat k.remotePort, ofNat k.localPort]

/-- A socket in `__atcmd_socket_list_get`, which takes over the multicast TTL of a UDP socket. -/
def atcmdSocketListOne (_ : Unit) (i : ℕ) (k : AtcmdSocket) (s : Sockets ν) :
    Unit × Sockets ν :=
  match k.protocol with
  | .tcp => ((), s.emit (.info (bytes "SLIST") (atcmdSocketListLine L k)))
  | .udp =>
    let (r, s) := s.call (L.getsockopt k.id .multicastTtl)
    let k := match r with
      | .ok ttl => { k with multicast := { k.multicast with ttl := ttl.toNat } }
      | .error _ => k
    ((), (s.set i k).emit (.info (bytes "SLIST") (atcmdSocketListLine L k)))

def atcmdSocketListGet_ (a : Args) (s : Sockets ν) : AtcmdError × Sockets ν :=
  match a.argv with
  | [] => (.success, (s.forSockets (atcmdSocketListOne L) ()).2)
  | _ => (.inval, s)

/-! ## SSEND, SSENDEXIT -/

/-- The parameters of `_atcmd_socket_send_set`: the remote address and port, the length, and
whether there is an event for it. With three of them the last two may be either. -/
structure SendArgs where
  id : Bytes
  remote : Option (Bytes × Bytes)
  len : Option Bytes
  doneEvent : Option Bytes

/-- `_atcmd_socket_send_set` up to `case 1`. -/
def sendArgs : List Bytes → Option SendArgs
  | [id] => some ⟨id, none, none, none⟩
  | [id, len] => some ⟨id, none, some len, none⟩
  | [id, ip, port] => some ⟨id, some (ip, port), some ip, some port⟩
  | [id, ip, port, len] => some ⟨id, some (ip, port), some len, none⟩
  | [id, ip, port, len, done] => some ⟨id, some (ip, port), some len, some done⟩
  | _ => none

/-- The remote address of `_atcmd_socket_send_set`, which goes into the table at once. -/
def atcmdSocketSendRemote (a : Args) (p : SendArgs) (i : ℕ) (k : AtcmdSocket) (s : Sockets ν) :
    Except AtcmdError SendArgs × Sockets ν :=
  match p.remote with
  | none => (.ok p, s)
  | some (ip, port) =>
    match atcmdParamToStr ip 16 with
    | none => if 3 < a.argv.length then (.error .inval, s) else (.ok p, s)
    | some str =>
      if str.length < 7 ∨ 15 < str.length then (.error .inval, s)
      else if !atcmdSocketValidPort_ (atoi port) then (.error .inval, s)
      else
        (.ok (if a.argv.length = 3 then { p with len := none, doneEvent := none } else p),
          s.set i { k with
            remoteAddr := (L.ipaddrAton str).getD a.stale.addr
            remotePort := (atoi port).toNat })

/-- `done_event` of `_atcmd_socket_send_set`. -/
def atcmdSocketSendDoneEvent (p : SendArgs) (s : Sockets ν) : Option Bool :=
  match p.doneEvent with
  | none => some s.doneEvent
  | some done => if atoi done = 0 then some false else if atoi done = 1 then some true else none

/-- `exit_cmd` of `_atcmd_socket_send_set`. -/
def atcmdSocketSendExitCmd (s : Sockets ν) : Option ExitCmd :=
  if h : s.sendExit ≠ [] then some ⟨s.sendExit, h⟩ else none

/-- `abs`, which leaves the least `int` what it is. -/
def absInt (n : ℤ) : ℤ := if n = -2147483648 then n else n.natAbs

/-- `_atcmd_socket_send_set` after the remote address. -/
def atcmdSocketSendMode (p : SendArgs) (id : ℕ) (s : Sockets ν) : AtcmdError × Sockets ν :=
  let len := (p.len.map atoi).getD 0
  if (atcmdDataLenMax : ℤ) < absInt len then (.inval, s)
  else
    match atcmdSocketSendDoneEvent p s with
    | none => (.inval, s)
    | some done =>
      if len ≤ 0 ∧ s.passthroughSupport = false then (.notsupp, s)
      else
        match atcmdDataModeEnable
            { dataType := .ssend (len ≤ 0), id := id, len := (absInt len % 2 ^ 32).toNat
              timeout := 1000, doneEvent := done, exitCmd := atcmdSocketSendExitCmd s } s.mode with
        | none => (.fail, s)
        | some mode => (.success, { s with mode := mode })

def atcmdSocketSendSet_ (a : Args) (s : Sockets ν) : AtcmdError × Sockets ν :=
  match a.argv, sendArgs a.argv with
  | [], _ => help ["AT+SSEND=<socket_ID>[,<length>[,<done_event>]]",
      "AT+SSEND=<socket_ID>,\"<remote_ip>\",<remote_port>[,<length>[,<done_event]]"] s
  | _, none => (.inval, s)
  | _, some p =>
    match atcmdSocketSearchId_ (atoi p.id) s.table with
    | none => (.inval, s)
    | some (i, k) =>
      match atcmdSocketSendRemote L a p i k s with
      | (.error e, s) => (e, s)
      | (.ok p, s) => atcmdSocketSendMode p k.id s

/-- `_atcmd_socket_send_exit_get`, which cuts two bytes off the end. -/
def atcmdSocketSendExitGet_ (a : Args) (s : Sockets ν) : AtcmdError × Sockets ν :=
  match a.argv with
  | [] =>
    if s.sendExit = bytes "AT\r\n" then
      (.success, s.emit (.info (bytes "SSENDEXIT") (quoted [])))
    else if s.sendExit.take 3 = bytes "AT+" then
      (.success, s.emit (.info (bytes "SSENDEXIT")
        (quoted ((s.sendExit.drop 3).take (s.sendExit.length - 3 - 2)))))
    else (.inval, s)
  | _ => (.inval, s)

def atcmdSocketSendExitSet_ (a : Args) (s : Sockets ν) : AtcmdError × Sockets ν :=
  match a.argv with
  | [] => help ["AT+SSENDEXIT=\"<cmd>\""] s
  | [exit] =>
    if exit = bytes "\"\"" then (.success, { s with sendExit := bytes "AT\r\n" })
    else
      match atcmdParamToStr exit 33 with
      | none => (.inval, s)
      | some cmd =>
        if 0 < cmd.length ∧ cmd.length ≤ 32 then
          (.success, { s with sendExit := bytes "AT+" ++ cmd ++ bytes "\r\n" })
        else (.inval, s)
  | _ => (.inval, s)

/-! ## SRECV, SRECVMODE, SRECVINFO, SRXLOGLEVEL -/

/-- What each socket can receive, in `_atcmd_socket_recv_get`: nothing once a call has failed. The
array is cleared in the loop that fills it, so that the entry of an id is lost if its slot comes
before it. -/
def atcmdSocketRecvLens (lens : Option (ℕ → ℕ)) (i : ℕ) (k : Option AtcmdSocket)
    (s : Sockets ν) : Option (ℕ → ℕ) × Sockets ν :=
  match lens, k with
  | none, _ => (none, s)
  | some lens, none => (some (Function.update lens i 0), s)
  | some lens, some k =>
    let lens := Function.update lens i 0
    match s.call (L.fionread k.id) with
    | (.error _, s) => (none, s)
    | (.ok len, s) =>
      (some (if k.id < s.table.length then Function.update lens k.id len else lens), s)

/-- `_atcmd_socket_recv_get`. With one parameter it reads the one after it. -/
def atcmdSocketRecvGet_ (a : Args) (s : Sockets ν) : AtcmdError × Sockets ν :=
  if s.recv.passive = false then (.notsupp, s)
  else
    match a.argv with
    | [] =>
      match s.forSlots (atcmdSocketRecvLens L) (some fun _ => 0) with
      | (none, s) => (.fail, s)
      | (some lens, s) =>
        (.success, s.emits (((List.range s.table.length).filter fun i => 0 < lens i).map fun i =>
          .info (bytes "SRECV") (csv [ofNat i, ofNat (lens i)])))
    | [_] =>
      let id := atoi a.stale.argv
      if id < 0 ∨ (atcmdSocketSearchId_ id s.table).isNone then (.inval, s)
      else
        match s.call (L.fionread id.toNat) with
        | (.error _, s) => (.fail, s)
        | (.ok len, s) => (.success, s.emit (.info (bytes "SRECV") (csv [ofInt id, ofNat len])))
    | _ => (.inval, s)

/-- The wait of `_atcmd_socket_recv_set` for something to receive, of at most `t` milliseconds. -/
def atcmdSocketRecvWait (id : ℕ) : ℕ → Sockets ν → Option AtcmdError × Sockets ν
  | 0, s => (some .timeout, s)
  | t + 1, s =>
    match s.call (L.fionread id) with
    | (.error _, s) => (some .fail, s)
    | (.ok 0, s) => atcmdSocketRecvWait id t s
    | (.ok _, s) => (none, s)

/-- `_atcmd_socket_recv_set` up to where there is something to receive, for `argc` parameters. -/
def atcmdSocketRecvAwait (argc id : ℕ) (s : Sockets ν) : Option AtcmdError × Sockets ν :=
  match s.call (L.fionread id) with
  | (.error _, s) => (some .fail, s)
  | (.ok 0, s) =>
    if argc = 2 then (some .fail, s)
    else
      let timeout := s.timeoutValue (bytes "SRECV")
      atcmdSocketRecvWait L id (if timeout = 0 then 2 ^ 32 - 1 else timeout) s
  | (.ok _, s) => (none, s)

/-- `_atcmd_socket_recv_set` once there is something to receive. -/
def atcmdSocketRecvFetch (now : UInt32) (id : ℕ) (len : ℤ) (s : Sockets ν) :
    AtcmdError × Sockets ν :=
  let (ret, s) := atcmdSocketRecvHandler__ L now id len true s
  let s :=
    if id ∈ s.recv.ready then
      { s with
        recv := { s.recv with ready := s.recv.ready.erase id }
        lwip := lwipSocketRecvRequest_ id s.lwip }
    else s
  match ret with
  | .ok _ => (.noReturn, s)
  | .error _ => (.fail, s)

/-- The parameters `_atcmd_socket_recv_set` takes: the socket and the length. -/
def recvArgs (numMax : ℕ) : List Bytes → Option (ℕ × ℤ)
  | id :: len =>
    let n := (len.head?.map atoi).getD atcmdDataLenMax
    if len.length ≤ 1 ∧ 0 ≤ atoi id ∧ atoi id < numMax ∧ 0 < n then some ((atoi id).toNat, n)
    else none
  | [] => none

def atcmdSocketRecvSet_ (a : Args) (s : Sockets ν) : AtcmdError × Sockets ν :=
  if s.recv.passive = false then (.notsupp, s)
  else
    match a.argv, recvArgs s.table.length a.argv with
    | [], _ => help ["AT+SRECV=<socket_ID>[,<length>]"] s
    | _, none => (.inval, s)
    | argv, some (id, len) =>
      match atcmdSocketRecvAwait L argv.length id s with
      | (some e, s) => (e, s)
      | (none, s) => atcmdSocketRecvFetch L a.now id len s

def atcmdSocketRecvModeGet_ (a : Args) (s : Sockets ν) : AtcmdError × Sockets ν :=
  match a.argv with
  | [] => (.success, s.emit (.info (bytes "SRECVMODE")
      (csv [flag s.recv.passive, flag s.recv.readyEvent])))
  | _ => (.inval, s)

/-- `_atcmd_socket_recv_mode_set` for a mode and a ready event. -/
def atcmdSocketRecvMode (mode event : ℤ) (s : Sockets ν) : AtcmdError × Sockets ν :=
  if (mode = 0 ∨ mode = 1) ∧ (event = 0 ∨ event = 1) then
    (.success, { s with
      recv := { s.recv with passive := mode = 1, readyEvent := event = 1, ready := ∅ } })
  else (.inval, s)

def atcmdSocketRecvModeSet_ (a : Args) (s : Sockets ν) : AtcmdError × Sockets ν :=
  match a.argv with
  | [] => help ["AT+SRECVMODE=<mode>[,<ready_event>]"] s
  | [mode] => atcmdSocketRecvMode (atoi mode) 0 s
  | [mode, event] => atcmdSocketRecvMode (atoi mode) (atoi event) s
  | _ => (.inval, s)

def atcmdSocketRecvInfoGet_ (a : Args) (s : Sockets ν) : AtcmdError × Sockets ν :=
  match a.argv with
  | [] => (.success, s.emit (.info (bytes "SRECVINFO") (flag s.recv.verbose)))
  | _ => (.inval, s)

def atcmdSocketRecvInfoSet_ (a : Args) (s : Sockets ν) : AtcmdError × Sockets ν :=
  match a.argv with
  | [] => help ["AT+SRECVINFO=\x7b0|1\x7d"] s
  | [mode] =>
    if atoi mode = 0 ∨ atoi mode = 1 then
      (.success, { s with recv := { s.recv with verbose := atoi mode = 1 } })
    else (.inval, s)
  | _ => (.inval, s)

def atcmdSocketRecvLogGet_ (a : Args) (s : Sockets ν) : AtcmdError × Sockets ν :=
  match a.argv with
  | [] => (.success, s.emit (.info (bytes "SRXLOGLEVEL") (flag s.recv.verbose)))
  | _ => (.inval, s)

def atcmdSocketRecvLogSet_ (a : Args) (s : Sockets ν) : AtcmdError × Sockets ν :=
  match a.argv with
  | [] => help ["AT+SRXLOGLEVEL=<mode>"] s
  | [_] => atcmdSocketRecvInfoSet_ a s
  | _ => (.inval, s)

/-! ## SADDRINFO -/

/-- `_atcmd_socket_addr_info_set` with the answer of its lookup. -/
def atcmdSocketAddrInfo (r : Except Errno Bytes × LwipSocket ν) (s : Sockets ν) :
    AtcmdError × Sockets ν :=
  match r with
  | (.error _, w) => (.fail, { s with lwip := w })
  | (.ok addr, w) =>
    (.success, { s with lwip := w }.emit (.info (bytes "SADDRINFO") (quoted addr)))

def atcmdSocketAddrInfoSet_ (a : Args) (s : Sockets ν) : AtcmdError × Sockets ν :=
  match a.argv with
  | [] => help ["AT+SADDRINFO=\"<domain_name>\""] s
  | name :: port =>
    if 1 < port.length then (.inval, s)
    else
      match atcmdParamToStr name 128, port with
      | none, _ => (.inval, s)
      | some host, [] => atcmdSocketAddrInfo (lwipSocketAddrInfo1_ L host s.lwip) s
      | some host, port :: _ =>
        if (atcmdParamToUint16 port).all fun n => !atcmdSocketValidPort_ n then (.inval, s)
        else atcmdSocketAddrInfo (lwipSocketAddrInfo2_ L host port s.lwip) s

/-! ## STCPKEEPALIVE, STCPNODELAY -/

/-- Whether a socket is a TCP client: a server has no remote port. -/
def AtcmdSocket.isClient (k : AtcmdSocket) : Bool := k.protocol == .tcp && k.remotePort != 0

/-- The client a parameter names. -/
def clientOf (id : ℤ) (s : Sockets ν) : Option AtcmdSocket :=
  if id < 0 then none else ((atcmdSocketSearchId_ id s.table).map (·.2)).filter (·.isClient)

/-- Options read one after the other. -/
def getsockopts (fd : ℕ) : List SockOpt → Sockets ν → Except Errno (List ℤ) × Sockets ν
  | [], s => (.ok [], s)
  | o :: os, s =>
    match s.call (L.getsockopt fd o) with
    | (.error e, s) => (.error e, s)
    | (.ok v, s) =>
      match getsockopts fd os s with
      | (.error e, s) => (.error e, s)
      | (.ok vs, s) => (.ok (v :: vs), s)

/-- Options set one after the other. -/
def setsockopts (fd : ℕ) : List (SockOpt × ℤ) → Sockets ν → Option Errno × Sockets ν
  | [], s => (none, s)
  | (o, v) :: os, s =>
    match s.check (L.setsockopt fd o v) with
    | (some e, s) => (some e, s)
    | (none, s) => setsockopts fd os s

def lwipSocketTcpGetKeepalive_ (fd : ℕ) (s : Sockets ν) : Except Errno (List ℤ) × Sockets ν :=
  match getsockopts L fd [.keepalive, .keepidle, .keepcnt, .keepintvl] s with
  | (.ok (keepalive :: vs), s) => (.ok ((if keepalive = 0 then 0 else 1) :: vs), s)
  | r => r

def lwipSocketTcpSetKeepalive_ (fd : ℕ) (keepalive keepidle keepcnt keepintvl : ℤ)
    (s : Sockets ν) : Option Errno × Sockets ν :=
  setsockopts L fd [(.keepidle, keepidle), (.keepcnt, keepcnt), (.keepintvl, keepintvl),
    (.keepalive, keepalive)] s

/-- A socket in `_atcmd_socket_tcp_keepalive_get`, which does not look whether the call failed. -/
def atcmdSocketKeepaliveOne (vs : List ℤ) (_ : ℕ) (k : AtcmdSocket) (s : Sockets ν) :
    List ℤ × Sockets ν :=
  if k.isClient then
    let (r, s) := lwipSocketTcpGetKeepalive_ L k.id s
    let vs := match r with
      | .ok vs => vs
      | .error _ => vs
    (vs, s.emit (.info (bytes "STCPKEEPALIVE") (csv (ofNat k.id :: vs.map ofInt))))
  else (vs, s)

def atcmdSocketTcpKeepaliveGet_ (a : Args) (s : Sockets ν) : AtcmdError × Sockets ν :=
  match a.argv with
  | [] => (.success, (s.forSockets (atcmdSocketKeepaliveOne L) a.stale.keepalive).2)
  | [id] =>
    match clientOf (atoi id) s with
    | none => (.inval, s)
    | some k =>
      match lwipSocketTcpGetKeepalive_ L k.id s with
      | (.error _, s) => (.fail, s)
      | (.ok vs, s) =>
        (.success, s.emit (.info (bytes "STCPKEEPALIVE") (csv (ofNat k.id :: vs.map ofInt))))
  | _ => (.inval, s)

/-- `_atcmd_socket_tcp_keepalive_set` of one client. A value that is negative was not given. -/
def atcmdSocketKeepaliveSet (id : ℤ) (keepalive keepidle keepcnt keepintvl : ℤ)
    (s : Sockets ν) : AtcmdError × Sockets ν :=
  if ¬ (keepalive = 0 ∨ keepalive = 1) then (.inval, s)
  else
    match clientOf id s with
    | none => (.inval, s)
    | some k =>
      match lwipSocketTcpGetKeepalive_ L k.id s with
      | (.error _, s) => (.fail, s)
      | (.ok vs, s) =>
        let keep (v : ℤ) (i : ℕ) := if 0 ≤ v then v else vs.getD i 0
        match lwipSocketTcpSetKeepalive_ L k.id keepalive (keep keepidle 1) (keep keepcnt 2)
            (keep keepintvl 3) s with
        | (some _, s) => (.fail, s)
        | (none, s) => (.success, s)

/-- A value of `_atcmd_socket_tcp_keepalive_set`. -/
def keepaliveValue (erange : Bool) (param : Bytes) : Option ℤ :=
  (atcmdParamToInt32 erange param).filter fun v => 0 ≤ v

def atcmdSocketTcpKeepaliveSet_ (a : Args) (s : Sockets ν) : AtcmdError × Sockets ν :=
  match a.argv with
  | [] => help ["AT+STCPKEEPALIVE=<socket_ID>,\x7b0|1\x7d[,<keepidle>,<keepcnt>,<keepintvl>]"] s
  | [id, keepalive] => atcmdSocketKeepaliveSet L (atoi id) (atoi keepalive) (-1) (-1) (-1) s
  | [id, keepalive, keepidle, keepcnt, keepintvl] =>
    match keepaliveValue a.stale.erange keepidle, keepaliveValue a.stale.erange keepcnt,
        keepaliveValue a.stale.erange keepintvl with
    | some keepidle, some keepcnt, some keepintvl =>
      atcmdSocketKeepaliveSet L (atoi id) (atoi keepalive) keepidle keepcnt keepintvl s
    | _, _, _ => (.inval, s)
  | _ => (.inval, s)

/-- A socket in `_atcmd_socket_tcp_nodelay_get`. -/
def atcmdSocketNodelayOne (_ : Unit) (_ : ℕ) (k : AtcmdSocket) (s : Sockets ν) :
    Unit × Sockets ν :=
  if k.isClient then
    let (r, s) := s.call (L.getsockopt k.id .nodelay)
    ((), s.emit (.info (bytes "STCPNODELAY") (csv [ofNat k.id, match r with
      | .ok v => flag (v != 0)
      | .error _ => bytes "?"])))
  else ((), s)

def atcmdSocketTcpNodelayGet_ (a : Args) (s : Sockets ν) : AtcmdError × Sockets ν :=
  match a.argv with
  | [] => (.success, (s.forSockets (atcmdSocketNodelayOne L) ()).2)
  | [id] =>
    match clientOf (atoi id) s with
    | none => (.inval, s)
    | some k =>
      match s.call (L.getsockopt k.id .nodelay) with
      | (.error _, s) => (.fail, s)
      | (.ok v, s) =>
        (.success, s.emit (.info (bytes "STCPNODELAY") (csv [ofNat k.id, flag (v != 0)])))
  | _ => (.inval, s)

def atcmdSocketTcpNodelaySet_ (a : Args) (s : Sockets ν) : AtcmdError × Sockets ν :=
  match a.argv with
  | [] => help ["AT+STCPNODELAY=<socket_ID>,\x7b0|1\x7d"] s
  | [id, enable] =>
    match clientOf (atoi id) s with
    | none => (.inval, s)
    | some k =>
      if atoi enable = 0 ∨ atoi enable = 1 then
        match s.check (L.setsockopt k.id .nodelay (atoi enable)) with
        | (some _, s) => (.fail, s)
        | (none, s) => (.success, s)
      else (.inval, s)
  | _ => (.inval, s)

/-! ## SMCAST -/

def ipAddrIsmulticast (addr : Addr) : Bool := addr >>> 28 == 0xe

def atcmdSocketUdpMulticastAddGroupAddr_ (i : ℕ) (k : AtcmdSocket) (addr : Addr)
    (s : Sockets ν) : AtcmdError × Sockets ν :=
  if !ipAddrIsmulticast addr then (.inval, s)
  else if addr ∈ k.multicast.groupAddr then (.inval, s)
  else
    match k.multicast.groupAddr.findIdx? (· == 0) with
    | none => (.nomem, s)
    | some j =>
      match s.check (L.setsockopt k.id (.addMembership addr) 0) with
      | (some _, s) => (.fail, s)
      | (none, s) => (.success, s.set i { k with
          multicast := { k.multicast with
            groupAddr := k.multicast.groupAddr.set j addr, group := k.multicast.group + 1 } })

/-- The groups of a socket dropped one after the other, whether or not lwIP drops them. -/
def dropGroups (fd : ℕ) : List Addr → Sockets ν → Sockets ν
  | [], s => s
  | addr :: addrs, s =>
    dropGroups fd addrs
      (if addr = 0 then s else (s.check (L.setsockopt fd (.dropMembership addr) 0)).2)

def atcmdSocketUdpMulticastDropGroupAddr_ (i : ℕ) (k : AtcmdSocket) (addr : Addr)
    (s : Sockets ν) : AtcmdError × Sockets ν :=
  if addr = 0 then
    (.success, (dropGroups L k.id k.multicast.groupAddr s).set i { k with
      multicast := { k.multicast with
        groupAddr := k.multicast.groupAddr.map fun _ => 0, group := 0 } })
  else if !ipAddrIsmulticast addr then (.inval, s)
  else
    match k.multicast.groupAddr.findIdx? (· == addr) with
    | none => (.inval, s)
    | some j =>
      match s.check (L.setsockopt k.id (.dropMembership addr) 0) with
      | (some _, s) => (.fail, s)
      | (none, s) => (.success, s.set i { k with
          multicast := { k.multicast with
            groupAddr := k.multicast.groupAddr.set j 0, group := k.multicast.group - 1 } })

/-- A socket in `_atcmd_socket_udp_multicast_get`. -/
def atcmdSocketMulticastOne (_ : Unit) (_ : ℕ) (k : AtcmdSocket) (s : Sockets ν) :
    Unit × Sockets ν :=
  if k.protocol = .tcp ∨ k.multicast.group = 0 then ((), s)
  else
    ((), s.emits ((k.multicast.groupAddr.filter (· != 0)).map fun addr =>
      .info (bytes "SMCAST") (csv [ofNat k.id, quoted (L.ipaddrNtoa addr)])))

def atcmdSocketUdpMulticastGet_ (a : Args) (s : Sockets ν) : AtcmdError × Sockets ν :=
  match a.argv with
  | [] => (.success, (s.forSockets (atcmdSocketMulticastOne L) ()).2)
  | _ => (.inval, s)

/-- The mode of `_atcmd_socket_udp_multicast_set`: whether it adds a group. -/
def multicastMode (param : Bytes) : Option Bool :=
  match atcmdParamToStr param 5 with
  | none => none
  | some mode =>
    if mode = bytes "add" ∨ mode = bytes "ADD" then some true
    else if mode = bytes "drop" ∨ mode = bytes "DROP" then some false
    else none

/-- The group of `_atcmd_socket_udp_multicast_set`. -/
def multicastGroup (add : Bool) (param : Bytes) : Option Addr :=
  match atcmdParamToStr param 16 with
  | none => none
  | some str => L.ipaddrAton (if !add && str.isEmpty then bytes "0.0.0.0" else str)

def atcmdSocketUdpMulticastSet_ (a : Args) (s : Sockets ν) : AtcmdError × Sockets ν :=
  match a.argv with
  | [] => help ["AT+SMCAST=<socket_ID>,\"\x7badd|drop\x7d\",\"<group_addr>\""] s
  | [id, mode, group] =>
    if atoi id < 0 ∨ (s.table.length : ℤ) ≤ atoi id then (.inval, s)
    else
      match atcmdSocketSearchId_ (atoi id) s.table, multicastMode mode with
      | some (i, k), some add =>
        if k.protocol = .tcp then (.inval, s)
        else
          match multicastGroup L add group with
          | none => (.inval, s)
          | some addr =>
            if add then atcmdSocketUdpMulticastAddGroupAddr_ L i k addr s
            else atcmdSocketUdpMulticastDropGroupAddr_ L i k addr s
      | _, _ => (.inval, s)
  | _ => (.inval, s)

/-! ## STIMEOUT -/

/-- The lines of a table in `_atcmd_basic_timeout_get`. -/
def timeoutLines (ts : List (Bytes × ℕ)) : List Msg :=
  (ts.filter fun t => t.2 != 0).filterMap fun t =>
    if t.1.head? = some 87 then
      some (.info (bytes "WTIMEOUT") (csv [quoted t.1, ofNat t.2]))
    else if t.1.head? = some 83 then
      some (.info (bytes "STIMEOUT") (csv [quoted t.1, ofNat t.2]))
    else none

def atcmdBasicTimeoutGet_ (argv : List Bytes) (s : Sockets ν) : AtcmdError × Sockets ν :=
  match argv with
  | [] => (.success, s.emits (timeoutLines s.timeoutWifi ++ timeoutLines s.timeoutSocket))
  | [group] =>
    if atoi group = 0 then (.success, s.emits (timeoutLines s.timeoutWifi))
    else if atoi group = 1 then (.success, s.emits (timeoutLines s.timeoutSocket))
    else (.inval, s)
  | _ => (.inval, s)

/-- The timeout of a command set in its table, if it is there. -/
def setTimeout (cmd : Bytes) (sec : ℕ) (ts : List (Bytes × ℕ)) : Option (List (Bytes × ℕ)) :=
  (ts.findIdx? fun t => t.1 == cmd).map fun i => ts.set i (cmd, sec)

def atcmdBasicTimeoutSet_ (argv : List Bytes) (s : Sockets ν) : AtcmdError × Sockets ν :=
  match argv with
  | [] => help ["AT+TIMEOUT=\"<command>\",<time>"] s
  | [cmd, time] =>
    match atcmdParamToStr cmd 21 with
    | none => (.fail, s)
    | some cmd =>
      if cmd.head? = some 87 then
        match setTimeout cmd (atoi time).toNat s.timeoutWifi with
        | none => (.inval, s)
        | some ts => if atoi time < 0 then (.inval, s) else (.success, { s with timeoutWifi := ts })
      else if cmd.head? = some 83 then
        match setTimeout cmd (atoi time).toNat s.timeoutSocket with
        | none => (.inval, s)
        | some ts =>
          if atoi time < 0 then (.inval, s) else (.success, { s with timeoutSocket := ts })
      else (.inval, s)
  | _ => (.inval, s)

def atcmdSocketTimeoutGet_ (a : Args) (s : Sockets ν) : AtcmdError × Sockets ν :=
  match a.argv with
  | [] => atcmdBasicTimeoutGet_ [bytes "1"] s
  | _ => (.inval, s)

def atcmdSocketTimeoutSet_ (a : Args) (s : Sockets ν) : AtcmdError × Sockets ν :=
  match a.argv with
  | [] => help ["AT+STIMEOUT=\"<command>\",<time>"] s
  | [_, _] => atcmdBasicTimeoutSet_ a.argv s
  | _ => (.inval, s)

/-! ## The handlers -/

/-- `enum ATCMD_HANDLER`. -/
inductive HandlerType where
  | run
  | get
  | set
  deriving DecidableEq, Repr

/-- A handler. -/
abbrev Handler (ν : Type*) := Args → Sockets ν → AtcmdError × Sockets ν

/-- `atcmd_info_t`. -/
structure Info (ν : Type*) where
  cmd : Bytes
  run : Option (Handler ν)
  get : Option (Handler ν)
  set : Option (Handler ν)

/-- `handler` of `atcmd_info_t`. -/
def Info.handler (i : Info ν) : HandlerType → Option (Handler ν)
  | .run => i.run
  | .get => i.get
  | .set => i.set

/-- `g_atcmd_info_socket`. -/
def atcmdInfoSocket : List (Info ν) :=
  [⟨bytes "OPEN", none, none, some (atcmdSocketOpenSet_ L)⟩,
    ⟨bytes "CLOSE", some (atcmdSocketCloseRun_ L), none, some (atcmdSocketCloseSet_ L)⟩,
    ⟨bytes "LIST", none, some (atcmdSocketListGet_ L), none⟩,
    ⟨bytes "SEND", none, none, some (atcmdSocketSendSet_ L)⟩,
    ⟨bytes "SENDEXIT", none, some atcmdSocketSendExitGet_, some atcmdSocketSendExitSet_⟩,
    ⟨bytes "RECV", none, some (atcmdSocketRecvGet_ L), some (atcmdSocketRecvSet_ L)⟩,
    ⟨bytes "RECVMODE", none, some atcmdSocketRecvModeGet_, some atcmdSocketRecvModeSet_⟩,
    ⟨bytes "RECVINFO", none, some atcmdSocketRecvInfoGet_, some atcmdSocketRecvInfoSet_⟩,
    ⟨bytes "RXLOGLEVEL", none, some atcmdSocketRecvLogGet_, some atcmdSocketRecvLogSet_⟩,
    ⟨bytes "ADDRINFO", none, none, some (atcmdSocketAddrInfoSet_ L)⟩,
    ⟨bytes "TCPKEEPALIVE", none, some (atcmdSocketTcpKeepaliveGet_ L),
      some (atcmdSocketTcpKeepaliveSet_ L)⟩,
    ⟨bytes "TCPNODELAY", none, some (atcmdSocketTcpNodelayGet_ L),
      some (atcmdSocketTcpNodelaySet_ L)⟩,
    ⟨bytes "MCAST", none, some (atcmdSocketUdpMulticastGet_ L),
      some (atcmdSocketUdpMulticastSet_ L)⟩,
    ⟨bytes "TIMEOUT", none, some atcmdSocketTimeoutGet_, some atcmdSocketTimeoutSet_⟩]

/-- What `atcmd_handler` answers with, after a handler has returned. -/
def atcmdHandlerReturn (now : UInt32) (name : Bytes) (r : AtcmdError × Sockets ν) :
    Sockets ν :=
  match r with
  | (.noReturn, s) => s
  | (.notsupp, s) => atcmdTransmitReturn now none .notsupp s
  | (ret, s) => atcmdTransmitReturn now (some name) ret s

/-- `atcmd_handler` of a command of the socket group. -/
def atcmdHandler (i : Info ν) (type : HandlerType) (a : Args) (s : Sockets ν) : Sockets ν :=
  atcmdHandlerReturn a.now (bytes "S" ++ i.cmd)
    (match i.handler type with
      | none => (.notsupp, s)
      | some h => h a s)

/-! ## What is not answered -/

/-- A receive comes back with nothing: no data, or `EWOULDBLOCK`. -/
def isNothing : Except Errno (Bytes × Option (Addr × ℕ)) → Bool
  | .ok (data, _) => data.isEmpty
  | .error e => e == .eagain

/-- The socket is there, and a receive from it comes back with nothing. -/
def RecvsNothing (id : ℕ) (len : ℤ) (s : Sockets ν) : Prop :=
  (atcmdSocketSearchId_ id s.table).isSome = true
    ∧ isNothing (lwipSocketRecv__ L id (min len.toNat atcmdDataLenMax) s.lwip).1 = true

/-- `AT+SRECV` in passive mode, of a socket that has something to receive when the handler asks for
the length, and nothing when it receives. -/
def RecvsInVain (i : Info ν) (type : HandlerType) (a : Args) (s : Sockets ν) : Prop :=
  i.cmd = bytes "RECV" ∧ type = .set ∧ s.recv.passive = true
    ∧ ∃ p ∈ recvArgs s.table.length a.argv,
      (atcmdSocketRecvAwait L a.argv.length p.1 s).1 = none
        ∧ RecvsNothing L p.1 p.2 (atcmdSocketRecvAwait L a.argv.length p.1 s).2

instance (id : ℕ) (len : ℤ) (s : Sockets ν) : Decidable (RecvsNothing L id len s) :=
  inferInstanceAs (Decidable (_ ∧ _))

instance (i : Info ν) (type : HandlerType) (a : Args) (s : Sockets ν) :
    Decidable (RecvsInVain L i type a s) := inferInstanceAs (Decidable (_ ∧ _ ∧ _ ∧ _))

end NrcAtcmd
