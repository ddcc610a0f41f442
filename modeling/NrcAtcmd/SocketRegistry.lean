import Mathlib.Logic.Relation
import NrcAtcmd.Lib.Machine
import NrcAtcmd.Lib.Slots
import NrcAtcmd.SocketCommand

/-!
# The socket registry

Who owns a descriptor is split: the table of `atcmd_socket.c` says which sockets there are,
`lwip_socket.c` keeps the descriptors that are read and those that listen, and the receive
configuration says which were taken out of the read set because their data was announced.

`Registry` is what the three come to, and `Change` what can become of it: a socket is registered or
closed, an accepted descriptor is held by nobody, data is announced or fetched, the receive mode is
set. `Agrees` and `Hears` are what should hold of it. `socketStep` is the code: the commands that
open, close and receive, and what the socket task does with a descriptor. Between two steps the
stack changes as it likes.
-/

set_option linter.style.nameCheck false

namespace NrcAtcmd

open Decimal Slots

/-! ## The registry -/

/-- Whether a socket is a TCP server: a client has a remote port. -/
def AtcmdSocket.isServer (k : AtcmdSocket) : Bool := k.protocol == .tcp && k.remotePort == 0

/-- A descriptor is bound, listening or connected as the socket says. -/
def AtcmdSocket.Asked (k : AtcmdSocket) (d : Descriptor) : Prop :=
  d.type = k.protocol ∧
    match k.protocol with
    | .udp => d.bound = some k.localPort
    | .tcp =>
      if k.remotePort = 0 then d.bound = some k.localPort ∧ d.listening = true
      else d.connected = some (k.remoteAddr, k.remotePort)

/-- The sockets, the descriptors that are open, and the sets of them. -/
structure Registry where
  slots : ℕ
  sockets : Multiset AtcmdSocket
  descriptor : ℕ → Option Descriptor
  read : Finset ℕ
  listen : Finset ℕ
  passive : Bool
  ready : Finset ℕ

/-- What can become of a registry. A socket is registered with its descriptor, in the listen set or
not, in the read set or not. -/
inductive Change where
  | register (k : AtcmdSocket) (d : Descriptor) (listens reads : Bool)
  | hold (fd : ℕ) (d : Descriptor)
  | close (k : AtcmdSocket)
  | announce (id : ℕ)
  | fetch (id : ℕ)
  | mode (passive : Bool)

namespace Registry

/-- The registry of a table without sockets. -/
def empty (slots : ℕ) : Registry := ⟨slots, 0, fun _ => none, ∅, ∅, false, ∅⟩

/-- A change, where it can happen. -/
def step (x : Registry) : Change → Option Registry
  | .register k d listens reads =>
    if x.descriptor k.id = none then some
      { x with
        sockets := k ::ₘ x.sockets
        descriptor := Function.update x.descriptor k.id (some d)
        read := if reads then insert k.id x.read else x.read
        listen := if listens then insert k.id x.listen else x.listen }
    else none
  | .hold fd d =>
    if x.descriptor fd = none then some
      { x with
        descriptor := Function.update x.descriptor fd (some d), read := insert fd x.read }
    else none
  | .close k =>
    if k ∈ x.sockets then some
      { x with
        sockets := x.sockets.erase k
        descriptor := Function.update x.descriptor k.id none
        read := x.read.erase k.id, listen := x.listen.erase k.id
        ready := if x.passive then x.ready.erase k.id else x.ready }
    else none
  | .announce id =>
    if x.passive = true ∧ id < x.slots then some
      { x with read := x.read.erase id, ready := insert id x.ready }
    else none
  | .fetch id => some { x with read := insert id x.read, ready := x.ready.erase id }
  | .mode passive => some { x with passive := passive, ready := ∅ }

/-- A socket is registered as it was asked for, and no descriptor is held by nobody. -/
def Orderly : Change → Prop
  | .register k d listens _ => k.Asked d ∧ listens = k.isServer
  | .hold .. => False
  | _ => True

/-- A socket is read from the start, and the mode is not set while one is not read. -/
def Hearing (x : Registry) : Change → Prop
  | .register _ _ _ reads => reads = true
  | .mode _ => ∀ k ∈ x.sockets, k.id ∈ x.read
  | _ => True

/-- Changes one after the other: orderly ones if `p`, hearing ones if `q`. -/
def Changes (p q : Prop) : Registry → Registry → Prop :=
  Relation.ReflTransGen fun x y => ∃ c, (p → Orderly c) ∧ (q → Hearing x c) ∧ x.step c = some y

/-- The ids are distinct and their descriptors are open, and only an id within the slots is
announced. -/
structure Distinct (x : Registry) : Prop where
  nodup : (x.sockets.map (·.id)).Nodup
  isSome : ∀ k ∈ x.sockets, (x.descriptor k.id).isSome
  ready_lt : ∀ id ∈ x.ready, id < x.slots

/-- The registered sockets are what is open, each as asked, and the servers are what listens. -/
structure Agrees (x : Registry) : Prop where
  nodup : (x.sockets.map (·.id)).Nodup
  opened : ∀ fd, (x.descriptor fd).isSome ↔ ∃ k ∈ x.sockets, k.id = fd
  asked : ∀ k ∈ x.sockets, ∃ d ∈ x.descriptor k.id, k.Asked d
  listens : ∀ fd, fd ∈ x.listen ↔ ∃ k ∈ x.sockets, k.isServer = true ∧ k.id = fd

/-- Every registered socket is read, unless its data was announced and not yet fetched. -/
def Hears (x : Registry) : Prop :=
  ∀ k ∈ x.sockets, k.id ∈ x.read ∨ x.passive = true ∧ k.id ∈ x.ready

end Registry

variable {ν : Type*} (L : Lwip ν)

/-- The registry of the code. -/
def Sockets.registry (s : Sockets ν) : Registry where
  slots := s.table.length
  sockets := contents s.table
  descriptor := s.lwip.net.descriptor
  read := s.lwip.read
  listen := s.lwip.listen
  passive := s.recv.passive
  ready := s.recv.ready

/-! ## The machine -/

/-- What happens next: a command, a descriptor that can be read, a pass of the loop that reads it,
the sends of a request, or something in the stack. -/
inductive SocketInput (ν : Type*) where
  | openSet (a : Args)
  | closeRun (a : Args)
  | closeSet (a : Args)
  | recvModeSet (a : Args)
  | recvSet (a : Args)
  | readable (now : UInt32) (fd : ℕ)
  | recvLoop (now : UInt32)
  | send (id len : ℕ) (rets : List (Except Errno ℕ))
  | stack (x : ν)

/-- A step of the AT task or of the socket task, which takes the next descriptor when it is through
with one. -/
def socketStep (s : Sockets ν) : SocketInput ν → Option (Sockets ν)
  | .openSet a => some (atcmdHandlerReturn a.now (bytes "SOPEN") (atcmdSocketOpenSet_ L a s))
  | .closeRun a => some (atcmdHandlerReturn a.now (bytes "SCLOSE") (atcmdSocketCloseRun_ L a s))
  | .closeSet a => some (atcmdHandlerReturn a.now (bytes "SCLOSE") (atcmdSocketCloseSet_ L a s))
  | .recvModeSet a =>
    some (atcmdHandlerReturn a.now (bytes "SRECVMODE") (atcmdSocketRecvModeSet_ a s))
  | .recvSet a => some (atcmdHandlerReturn a.now (bytes "SRECV") (atcmdSocketRecvSet_ L a s))
  | .readable now fd => if s.reading = none then some (lwipSocketTaskRead L now fd s) else none
  | .recvLoop now => if s.reading = none then none else some (atcmdSocketRecvLoop L now s)
  | .send id len rets =>
    if s.reading = none then some (atcmdSocketSendClose L id len rets s) else none
  | .stack x => some { s with lwip := { s.lwip with net := { s.lwip.net with stack := x } } }

/-! ## Opens -/

/-- The socket `AT+SOPEN` asks for, once its server address is known. -/
def atcmdSocketOpenAsked (a : Args) (s : Sockets ν) : Option (AtcmdSocket × Sockets ν) :=
  match a.argv with
  | [] => none
  | proto :: argv =>
    if argv.length ≠ 1 ∧ argv.length ≠ 2 then none
    else
      match (atcmdSocketProto proto).map fun proto => atcmdSocketOpenParams L proto argv s with
      | some (.ok k, s) => some (k, s)
      | _ => none

/-- A command registered the socket it asks for. -/
def Registers (a : Args) (s s' : Sockets ν) : Prop :=
  ∃ p ∈ atcmdSocketOpenAsked L a s, ∃ k ∈ s'.sockets, (∀ k' ∈ s.sockets, k'.id ≠ k.id)
    ∧ k = { p.1 with id := k.id, localPort := k.localPort }
    ∧ (k.isClient = false → k.localPort = p.1.localPort)
    ∧ ∃ d ∈ s'.lwip.net.descriptor k.id, k.Asked d

/-- The descriptor `_lwip_socket_open` sets up. -/
def lwipSocketOpenFd (k : AtcmdSocket) (s : Sockets ν) : Option (ℕ × Net ν) :=
  match atcmdSocketOpenSlot k s, s.lwip.net.socket L k.protocol with
  | .ok _, (.ok fd, n) => some (fd, n)
  | _, _ => none

/-- `SO_REUSEADDR` cannot be set. -/
def reuseFails (k : AtcmdSocket) (p : ℕ × Net ν) : Bool :=
  !k.isClient && (p.2.check (L.setsockopt p.1 .reuseAddr 1)).1.isSome

/-- A connection, a bind or a listen ends with `EINPROGRESS`. -/
def staysInProgress (k : AtcmdSocket) (s : Sockets ν) (p : ℕ × Net ν) : Bool :=
  let timeout := s.timeoutValue (bytes "SOPEN")
  let n := (p.2.check (L.setsockopt p.1 .reuseAddr 1)).2
  (if k.isClient then
    (lwipSocketConnect_ L p.1 k.remoteAddr k.remotePort
      (if timeout = 0 then 30 * 1000 else timeout) p.2).1
  else
    match k.protocol with
    | .udp => (n.check (L.bind p.1 k.localPort)).1
    | .tcp => (lwipSocketOpenServer L p.1 k.localPort n).1) == some .einprogress

/-- A connection is accepted that there is no slot for, or that comes from port zero. -/
def holdsAccepted (fd : ℕ) (s : Sockets ν) : Bool :=
  match (lwipSocketAccept_ L fd s.lwip).1 with
  | .ok (_, _, port) => port == 0 || s.table.all (·.isSome)
  | .error _ => false

/-- The parameters `_atcmd_socket_recv_mode_set` takes. -/
def recvModeArgs : List Bytes → Bool
  | [mode] => atoi mode == 0 || atoi mode == 1
  | [mode, event] => (atoi mode == 0 || atoi mode == 1) && (atoi event == 0 || atoi event == 1)
  | _ => false

/-- The steps in which a descriptor goes astray. -/
def Strays (s : Sockets ν) : SocketInput ν → Prop
  | .openSet a => ∃ p ∈ atcmdSocketOpenAsked L a s, ∃ q ∈ lwipSocketOpenFd L p.1 p.2,
      reuseFails L p.1 q = true ∨ staysInProgress L p.1 p.2 q = true
  | .readable _ fd => fd ∈ s.lwip.listen ∧ holdsAccepted L fd s = true
  | _ => False

/-- The steps after which a socket is not read, although none of its data was announced. -/
def Deafens (s : Sockets ν) : SocketInput ν → Prop
  | .openSet a => ∃ p ∈ atcmdSocketOpenAsked L a s, ∃ q ∈ lwipSocketOpenFd L p.1 p.2,
      reuseFails L p.1 q = true
  | .recvModeSet a => recvModeArgs a.argv = true ∧ ∃ k ∈ s.sockets, k.id ∉ s.lwip.read
  | _ => False

instance (s : Sockets ν) : DecidablePred (Strays L s)
  | .openSet a => inferInstanceAs (Decidable (∃ p ∈ atcmdSocketOpenAsked L a s,
      ∃ q ∈ lwipSocketOpenFd L p.1 p.2,
        reuseFails L p.1 q = true ∨ staysInProgress L p.1 p.2 q = true))
  | .readable _ fd =>
    inferInstanceAs (Decidable (fd ∈ s.lwip.listen ∧ holdsAccepted L fd s = true))
  | .closeRun .. | .closeSet .. | .recvModeSet .. | .recvSet .. | .recvLoop .. | .send ..
  | .stack .. => isFalse id

instance (s : Sockets ν) : DecidablePred (Deafens L s)
  | .openSet a => inferInstanceAs (Decidable (∃ p ∈ atcmdSocketOpenAsked L a s,
      ∃ q ∈ lwipSocketOpenFd L p.1 p.2, reuseFails L p.1 q = true))
  | .recvModeSet a => inferInstanceAs (Decidable (recvModeArgs a.argv = true
      ∧ ∃ k ∈ s.sockets, k.id ∉ s.lwip.read))
  | .closeRun .. | .closeSet .. | .readable .. | .recvSet .. | .recvLoop .. | .send ..
  | .stack .. => isFalse id

/-! ## Sockets that are not read -/

/-- `AT+SRECV` can name the socket, and when it gets something to receive, the socket is read again
or is closed. -/
def Revives (s : Sockets ν) (k : AtcmdSocket) : Prop :=
  k.id < s.table.length ∧ ∀ a len, recvArgs s.table.length a.argv = some (k.id, len) →
    (atcmdSocketRecvAwait L a.argv.length k.id s).1 = none →
      k.id ∈ (atcmdSocketRecvSet_ L a s).2.lwip.read
        ∨ ∀ k' ∈ (atcmdSocketRecvSet_ L a s).2.sockets, k'.id ≠ k.id

end NrcAtcmd
