import NrcAtcmd.Lib.Machine
import NrcAtcmd.Lib.Slots
import NrcAtcmd.SocketCommand

/-!
# The groups of a socket

A socket has a table of groups, where zero is a free place, and a count of them. What it should
agree with is outside: the groups that the stack has joined for the descriptor. `Lwip.tracked` is
any stack that also keeps these, by what it answered to `IP_ADD_MEMBERSHIP` and
`IP_DROP_MEMBERSHIP`.
-/

set_option linter.style.nameCheck false

namespace NrcAtcmd

open Slots

/-- The groups that are joined for each descriptor. -/
abbrev Joined := ℕ → Finset Addr

/-- A call that joins and drops nothing. -/
def Call.keep {ν α : Type*} (f : Call ν α) : Call (ν × Joined) α := fun (x, j) =>
  let (r, x) := f x
  (r, x, j)

/-- What is joined for a descriptor after an option was set. -/
def Joined.after (fd : ℕ) (opt : SockOpt) (r : Except Errno Unit) (j : Joined) : Joined :=
  match r, opt with
  | .ok _, .addMembership group => Function.update j fd (insert group (j fd))
  | .ok _, .dropMembership group => Function.update j fd ((j fd).erase group)
  | _, _ => j

/-- The stack, with what it has joined. -/
def Lwip.tracked {ν : Type*} (L : Lwip ν) : Lwip (ν × Joined) where
  socket opened t := Call.keep (L.socket opened t)
  bind fd port := Call.keep (L.bind fd port)
  listen fd := Call.keep (L.listen fd)
  accept opened fd := Call.keep (L.accept opened fd)
  connect fd addr port := Call.keep (L.connect fd addr port)
  selectWrite fd timeout := Call.keep (L.selectWrite fd timeout)
  setNonblock fd b := Call.keep (L.setNonblock fd b)
  soType fd := Call.keep (L.soType fd)
  soError fd := Call.keep (L.soError fd)
  setsockopt fd opt v := fun (x, j) =>
    let (r, x) := L.setsockopt fd opt v x
    (r, x, j.after fd opt r)
  getsockopt fd opt := Call.keep (L.getsockopt fd opt)
  getsockname fd := Call.keep (L.getsockname fd)
  close fd := fun (x, j) => (L.close fd x, Function.update j fd ∅)
  fionread fd := Call.keep (L.fionread fd)
  recvfrom fd len := Call.keep (L.recvfrom fd len)
  gethostbyname host := Call.keep (L.gethostbyname host)
  getaddrinfo host port := Call.keep (L.getaddrinfo host port)
  ipaddrAton := L.ipaddrAton
  ipaddrNtoa := L.ipaddrNtoa
  socket_fresh h := L.socket_fresh h
  accept_fresh h := L.accept_fresh h
  recvfrom_le h := L.recvfrom_le h

/-- The groups in the table. -/
def Multicast.groups (m : Multicast) : Multiset Addr :=
  contents (m.groupAddr.map fun addr => if addr = 0 then none else some addr)

/-- The groups in the table are distinct, as many as were counted, and those that are joined. -/
structure Multicast.InStep (m : Multicast) (joined : Finset Addr) : Prop where
  nodup : m.groups.Nodup
  count : m.group.toNat = m.groups.card
  joined : m.groups.toFinset = joined

/-- The groups of the socket in slot `i` are in step with the stack. -/
def GroupsInStep {ν : Type*} (i : ℕ) (s : Sockets (ν × Joined)) : Prop :=
  ∃ k, s.table[i]? = some (some k) ∧ k.multicast.InStep (s.lwip.net.stack.2 k.id)

/-- A socket in slot `i` with a table that is free, for which nothing is joined. -/
def NoGroups {ν : Type*} (i : ℕ) (s : Sockets (ν × Joined)) : Prop :=
  ∃ k, s.table[i]? = some (some k) ∧ k.multicast.group = 0
    ∧ k.multicast.groupAddr = Multicast.zero.groupAddr ∧ s.lwip.net.stack.2 k.id = ∅

/-! ## The machine -/

/-- A group is joined or dropped. Zero drops them all. -/
inductive MulticastOp where
  | add (group : Addr)
  | drop (group : Addr)
  deriving DecidableEq, Repr

/-- What `_atcmd_socket_udp_multicast_set` does with the socket in slot `i`. -/
def multicastStep {ν : Type*} (L : Lwip ν) (i : ℕ) (s : Sockets ν) (op : MulticastOp) :
    Option (Sockets ν) :=
  match s.table[i]? with
  | some (some k) =>
    match op with
    | .add group => some (atcmdSocketUdpMulticastAddGroupAddr_ L i k group s).2
    | .drop group => some (atcmdSocketUdpMulticastDropGroupAddr_ L i k group s).2
  | _ => none

variable {ν : Type*} (L : Lwip ν)

/-- Something else happened in the stack. -/
def Sockets.moved (x : ν) (s : Sockets (ν × Joined)) : Sockets (ν × Joined) :=
  { s with lwip := { s.lwip with net := { s.lwip.net with stack := (x, s.lwip.net.stack.2) } } }

/-- The next operation, and the stack that it meets. -/
def groupsStep (i : ℕ) (s : Sockets (ν × Joined)) (m : MulticastOp × ν) :
    Option (Sockets (ν × Joined)) :=
  multicastStep L.tracked i (s.moved m.2) m.1

/-- Whether the stack refuses to drop one of the groups, which it is asked to drop one after the
other. -/
def refuses (fd : ℕ) : List Addr → ν → Bool
  | [], _ => false
  | addr :: addrs, x =>
    if addr = 0 then refuses fd addrs x
    else
      match L.setsockopt fd (.dropMembership addr) 0 x with
      | (.ok _, x) => refuses fd addrs x
      | (.error _, _) => true

/-- The groups are not all dropped while the stack refuses to drop one of them. -/
def GroupsLeft (i : ℕ) (s : Sockets (ν × Joined)) (m : MulticastOp × ν) : Prop :=
  ∀ k, s.table[i]? = some (some k) → m.1 = .drop 0 →
    refuses L k.id k.multicast.groupAddr m.2 = false

end NrcAtcmd
