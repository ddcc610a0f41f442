import NrcAtcmd.CommandReceiver
import NrcAtcmd.SocketCommand

/-!
# The arguments of the socket group

`atcmd_handler` calls a handler with `argc` and with `argv`, an array that is not cleared: past the
arguments of the command there is what was there before. Here a slot holds what was stored for this
command, or nothing, and a handler that reads a slot with nothing in it comes to no end.

The cases of each `switch` are those of the source, with the slots that each of them reads by
falling through to the next ones, in their order. What is then done with the arguments is in
`SocketCommand`.
-/

set_option linter.style.nameCheck false

namespace NrcAtcmd.SocketArgv

/-- `argv`: what was stored for the command in each slot. -/
abbrev Argv := ℕ → Option Bytes

/-- The slots of a command with these arguments. -/
def Argv.of (args : List Bytes) : Argv := fun i => args[i]?

/-- `argv + n`. -/
def Argv.drop (n : ℕ) (argv : Argv) : Argv := fun i => argv (n + i)

/-- A slot is read, and what follows. -/
def Argv.read {β : Type*} (argv : Argv) (i : ℕ) (next : Bytes → Option β) : Option β :=
  (argv i).bind next

/-- What a handler finds in variables that were not set, and when it is called. -/
structure Env where
  stale : Stale
  now : UInt32

/-- A handler as it is called, with `argc` and `argv`. -/
abbrev ArgvHandler (ν : Type*) := Env → ℕ → Argv → Sockets ν → Option (AtcmdError × Sockets ν)

variable {ν : Type*} (L : Lwip ν)

/-- What a handler does with the arguments that it read. -/
def on (h : Handler ν) (e : Env) (s : Sockets ν) (args : List Bytes) :
    Option (AtcmdError × Sockets ν) :=
  some (h ⟨args, e.stale, e.now⟩ s)

/-- The `default` of a `switch`. -/
def invalid (s : Sockets ν) : Option (AtcmdError × Sockets ν) := some (.inval, s)

/-- A handler with a `case 0` only. -/
def onlyZero (h : Handler ν) : ArgvHandler ν := fun e argc _ s =>
  match argc with
  | 0 => on h e s []
  | _ => invalid s

/-- A handler with a `case 0` and a `case 1`, which reads its argument. -/
def zeroOne (h : Handler ν) : ArgvHandler ν := fun e argc argv s =>
  match argc with
  | 0 => on h e s []
  | 1 => argv.read 0 fun arg => on h e s [arg]
  | _ => invalid s

def atcmdSocketOpenSet__ (proto : SocketProto) (argc : ℕ) (argv : Argv) (s : Sockets ν) :
    Option (Option Errno × Sockets ν) :=
  match argc, proto with
  | 2, .udp =>
    argv.read 1 fun ttl =>
    argv.read 0 fun port =>
    some (NrcAtcmd.atcmdSocketOpenSet__ L .udp [port, ttl] s)
  | 2, .tcp =>
    argv.read 1 fun port =>
    argv.read 0 fun addr =>
    some (NrcAtcmd.atcmdSocketOpenSet__ L .tcp [addr, port] s)
  | 1, proto => argv.read 0 fun port => some (NrcAtcmd.atcmdSocketOpenSet__ L proto [port] s)
  | _, _ => some (some .einval, s)

def atcmdSocketOpenSet_ : ArgvHandler ν := fun e argc argv s =>
  match argc with
  | 0 => on (NrcAtcmd.atcmdSocketOpenSet_ L) e s []
  | 2 | 3 =>
    argv.read 0 fun param =>
    match atcmdSocketProto param with
    | none => invalid s
    | some proto =>
      (atcmdSocketOpenSet__ L proto (argc - 1) (argv.drop 1) s).map fun (ret, s) =>
        (atcmdSocketOpenError ret, s)
  | _ => invalid s

/-- `_atcmd_socket_close_run`, which has no `switch`. -/
def atcmdSocketCloseRun_ : ArgvHandler ν := fun e _ _ s =>
  on (NrcAtcmd.atcmdSocketCloseRun_ L) e s []

def atcmdSocketCloseSet_ : ArgvHandler ν := zeroOne (NrcAtcmd.atcmdSocketCloseSet_ L)

def atcmdSocketListGet_ : ArgvHandler ν := onlyZero (NrcAtcmd.atcmdSocketListGet_ L)

/-- `_atcmd_socket_send_set`. With three arguments the last two are read twice. -/
def atcmdSocketSendSet_ : ArgvHandler ν := fun e argc argv s =>
  let h := on (NrcAtcmd.atcmdSocketSendSet_ L) e s
  match argc with
  | 0 => h []
  | 5 =>
    argv.read 4 fun done =>
    argv.read 3 fun len =>
    argv.read 1 fun ip =>
    argv.read 2 fun port =>
    argv.read 0 fun id => h [id, ip, port, len, done]
  | 4 =>
    argv.read 3 fun len =>
    argv.read 1 fun ip =>
    argv.read 2 fun port =>
    argv.read 0 fun id => h [id, ip, port, len]
  | 3 =>
    argv.read 1 fun _ip =>
    argv.read 2 fun _port =>
    argv.read 2 fun done =>
    argv.read 1 fun len =>
    argv.read 0 fun id => h [id, len, done]
  | 2 =>
    argv.read 1 fun len =>
    argv.read 0 fun id => h [id, len]
  | 1 => argv.read 0 fun arg => h [arg]
  | _ => invalid s

def atcmdSocketSendExitGet_ : ArgvHandler ν := onlyZero NrcAtcmd.atcmdSocketSendExitGet_

def atcmdSocketSendExitSet_ : ArgvHandler ν := zeroOne NrcAtcmd.atcmdSocketSendExitSet_

/-- `_atcmd_socket_recv_get`, which takes the slot after its argument for it. -/
def atcmdSocketRecvGet_ : ArgvHandler ν := fun e argc argv s =>
  if s.recv.passive = false then some (.notsupp, s)
  else
    match argc with
    | 1 =>
      argv.read 1 fun id =>
      on (NrcAtcmd.atcmdSocketRecvGet_ L) { e with stale := { e.stale with argv := id } } s [id]
    | 0 => on (NrcAtcmd.atcmdSocketRecvGet_ L) e s []
    | _ => invalid s

def atcmdSocketRecvSet_ : ArgvHandler ν := fun e argc argv s =>
  if s.recv.passive = false then some (.notsupp, s)
  else
    let h := on (NrcAtcmd.atcmdSocketRecvSet_ L) e s
    match argc with
    | 0 => h []
    | 2 =>
      argv.read 1 fun len =>
      argv.read 0 fun id => h [id, len]
    | 1 => argv.read 0 fun arg => h [arg]
    | _ => invalid s

def atcmdSocketRecvModeGet_ : ArgvHandler ν := onlyZero NrcAtcmd.atcmdSocketRecvModeGet_

def atcmdSocketRecvModeSet_ : ArgvHandler ν := fun e argc argv s =>
  let h := on NrcAtcmd.atcmdSocketRecvModeSet_ e s
  match argc with
  | 0 => h []
  | 2 =>
    argv.read 1 fun event =>
    argv.read 0 fun mode => h [mode, event]
  | 1 => argv.read 0 fun arg => h [arg]
  | _ => invalid s

def atcmdSocketRecvInfoGet_ : ArgvHandler ν := onlyZero NrcAtcmd.atcmdSocketRecvInfoGet_

def atcmdSocketRecvInfoSet_ : ArgvHandler ν := zeroOne NrcAtcmd.atcmdSocketRecvInfoSet_

def atcmdSocketRecvLogGet_ : ArgvHandler ν := onlyZero NrcAtcmd.atcmdSocketRecvLogGet_

def atcmdSocketRecvLogSet_ : ArgvHandler ν := fun e argc argv s =>
  match argc with
  | 0 => on NrcAtcmd.atcmdSocketRecvLogSet_ e s []
  | 1 => atcmdSocketRecvInfoSet_ e argc argv s
  | _ => invalid s

def atcmdSocketAddrInfoSet_ : ArgvHandler ν := fun e argc argv s =>
  let h := on (NrcAtcmd.atcmdSocketAddrInfoSet_ L) e s
  match argc with
  | 0 => h []
  | 2 =>
    argv.read 1 fun port =>
    argv.read 0 fun name => h [name, port]
  | 1 => argv.read 0 fun arg => h [arg]
  | _ => invalid s

def atcmdSocketTcpKeepaliveGet_ : ArgvHandler ν :=
  zeroOne (NrcAtcmd.atcmdSocketTcpKeepaliveGet_ L)

/-- A value of `_atcmd_socket_tcp_keepalive_set` in its slot, and what follows if it is one. -/
def keepaliveAt (i : ℕ) (e : Env) (argv : Argv) (s : Sockets ν)
    (next : Bytes → Option (AtcmdError × Sockets ν)) : Option (AtcmdError × Sockets ν) :=
  argv.read i fun param =>
  if (keepaliveValue e.stale.erange param).isNone then invalid s else next param

def atcmdSocketTcpKeepaliveSet_ : ArgvHandler ν := fun e argc argv s =>
  let h := on (NrcAtcmd.atcmdSocketTcpKeepaliveSet_ L) e s
  match argc with
  | 0 => h []
  | 5 =>
    keepaliveAt 2 e argv s fun keepidle =>
    keepaliveAt 3 e argv s fun keepcnt =>
    keepaliveAt 4 e argv s fun keepintvl =>
    argv.read 0 fun id =>
    argv.read 1 fun keepalive => h [id, keepalive, keepidle, keepcnt, keepintvl]
  | 2 =>
    argv.read 0 fun id =>
    argv.read 1 fun keepalive => h [id, keepalive]
  | _ => invalid s

def atcmdSocketTcpNodelayGet_ : ArgvHandler ν := zeroOne (NrcAtcmd.atcmdSocketTcpNodelayGet_ L)

def atcmdSocketTcpNodelaySet_ : ArgvHandler ν := fun e argc argv s =>
  let h := on (NrcAtcmd.atcmdSocketTcpNodelaySet_ L) e s
  match argc with
  | 0 => h []
  | 2 =>
    argv.read 0 fun id =>
    if (clientOf (atoi id) s).isNone then invalid s
    else argv.read 1 fun enable => h [id, enable]
  | _ => invalid s

def atcmdSocketUdpMulticastGet_ : ArgvHandler ν :=
  onlyZero (NrcAtcmd.atcmdSocketUdpMulticastGet_ L)

/-- Whether `_atcmd_socket_udp_multicast_set` takes its first argument. -/
def multicastSocket (id : Bytes) (s : Sockets ν) : Bool :=
  decide (0 ≤ atoi id ∧ atoi id < s.table.length)
    && (atcmdSocketSearchId_ (atoi id) s.table).any fun p => p.2.protocol != .tcp

def atcmdSocketUdpMulticastSet_ : ArgvHandler ν := fun e argc argv s =>
  let h := on (NrcAtcmd.atcmdSocketUdpMulticastSet_ L) e s
  match argc with
  | 0 => h []
  | 3 =>
    argv.read 0 fun id =>
    if !multicastSocket id s then invalid s
    else
      argv.read 1 fun mode =>
      if (multicastMode mode).isNone then invalid s
      else argv.read 2 fun group => h [id, mode, group]
  | _ => invalid s

def atcmdBasicTimeoutGet_ (argc : ℕ) (argv : Argv) (s : Sockets ν) :
    Option (AtcmdError × Sockets ν) :=
  match argc with
  | 1 => argv.read 0 fun group => some (NrcAtcmd.atcmdBasicTimeoutGet_ [group] s)
  | 0 => some (NrcAtcmd.atcmdBasicTimeoutGet_ [] s)
  | _ => invalid s

def atcmdBasicTimeoutSet_ (argc : ℕ) (argv : Argv) (s : Sockets ν) :
    Option (AtcmdError × Sockets ν) :=
  match argc with
  | 0 => some (NrcAtcmd.atcmdBasicTimeoutSet_ [] s)
  | 2 =>
    argv.read 0 fun cmd =>
    argv.read 1 fun time => some (NrcAtcmd.atcmdBasicTimeoutSet_ [cmd, time] s)
  | _ => invalid s

/-- `_atcmd_socket_timeout_get`, which stores an argument. -/
def atcmdSocketTimeoutGet_ : ArgvHandler ν := fun _ argc argv s =>
  match argc with
  | 0 => atcmdBasicTimeoutGet_ 1 (Function.update argv 0 (some (bytes "1"))) s
  | _ => invalid s

def atcmdSocketTimeoutSet_ : ArgvHandler ν := fun e argc argv s =>
  match argc with
  | 0 => on NrcAtcmd.atcmdSocketTimeoutSet_ e s []
  | 2 => atcmdBasicTimeoutSet_ argc argv s
  | _ => invalid s

/-! ## The table -/

/-- `atcmd_info_t`. -/
structure ArgvInfo (ν : Type*) where
  cmd : Bytes
  run : Option (ArgvHandler ν)
  get : Option (ArgvHandler ν)
  set : Option (ArgvHandler ν)

/-- `handler` of `atcmd_info_t`. -/
def ArgvInfo.handler (i : ArgvInfo ν) : AtcmdHandler → Option (ArgvHandler ν)
  | .run => i.run
  | .get => i.get
  | .set => i.set

/-- `g_atcmd_info_socket`. -/
def atcmdInfoSocket : List (ArgvInfo ν) :=
  [⟨bytes "OPEN", none, none, some (atcmdSocketOpenSet_ L)⟩,
    ⟨bytes "CLOSE", some (atcmdSocketCloseRun_ L), none, some (atcmdSocketCloseSet_ L)⟩,
    ⟨bytes "LIST", none, some (atcmdSocketListGet_ L), none⟩,
    ⟨bytes "SEND", none, none, some (atcmdSocketSendSet_ L)⟩,
    ⟨bytes "SENDEXIT", none, some atcmdSocketSendExitGet_, some atcmdSocketSendExitSet_⟩,
    ⟨bytes "RECV", none, some (atcmdSocketRecvGet_ L), some (atcmdSocketRecvSet_ L)⟩,
    ⟨bytes "RECVMODE", none, some atcmdSocketRecvModeGet_, some atcmdSocketRecvModeSet_⟩,
    ⟨bytes "RECVINFO", none, some atcmdSocketRecvInfoGet_, some atcmdSocketRecvInfoSet_⟩,
    ⟨bytes "RXLOGLEVEL", none, some atcmdSocketRecvLogGet_, some atcmdSocketRecvLogSet_⟩,
    ⟨bytes "ADDRINFO", none, none, some (atcmdSocketAddrInfoSet_ L)⟩,
    ⟨bytes "TCPKEEPALIVE", none, some (atcmdSocketTcpKeepaliveGet_ L),
      some (atcmdSocketTcpKeepaliveSet_ L)⟩,
    ⟨bytes "TCPNODELAY", none, some (atcmdSocketTcpNodelayGet_ L),
      some (atcmdSocketTcpNodelaySet_ L)⟩,
    ⟨bytes "MCAST", none, some (atcmdSocketUdpMulticastGet_ L),
      some (atcmdSocketUdpMulticastSet_ L)⟩,
    ⟨bytes "TIMEOUT", none, some atcmdSocketTimeoutGet_, some atcmdSocketTimeoutSet_⟩]

/-- The command of the socket group that `atcmd_handler` finds for a line after its `AT+`, and what
`atcmd_parse` made of it: the handler to call, and its arguments. -/
def called (line : Bytes) : Option (ArgvInfo ν × AtcmdHandler × List Bytes) :=
  match atcmdParse line with
  | some (type, name :: args) =>
    ((atcmdInfoSocket L).find? fun i => bytes "S" ++ i.cmd == name).map fun i => (i, type, args)
  | _ => none

/-- `AT+SRECV?` with an argument, in passive mode. -/
def RecvGetParam (cmd : Bytes) (type : AtcmdHandler) (args : List Bytes) (s : Sockets ν) : Prop :=
  cmd = bytes "RECV" ∧ type = .get ∧ args.length = 1 ∧ s.recv.passive = true

end NrcAtcmd.SocketArgv
