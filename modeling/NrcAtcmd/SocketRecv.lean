import NrcAtcmd.Lib.Machine
import NrcAtcmd.SocketCommand

/-!
# What is received

`_atcmd_socket_recv_handler` of a socket that can be read, once lwIP has announced how much there
is: the loop, whose passes each receive once, or the one receive where nothing is announced. The
stack may be any other one at each pass, so that its answers are any.

A receive from a UDP socket takes a datagram and leaves out what there is no room for. `Datagrams`
says which one it takes.
-/

set_option linter.style.nameCheck false

namespace NrcAtcmd

variable {ν : Type*} (L : Lwip ν)

/-- The datagram that a receive from a descriptor takes if it takes one, for a UDP socket. -/
structure Datagrams where
  next : ℕ → ν → Option Bytes
  recvfrom_take : ∀ {fd len x data a d}, next fd x = some d →
    (L.recvfrom fd len x).1 = .ok (data, a) → data = d.take len

/-- The sockets, on another stack. -/
def Sockets.withStack (x : ν) (s : Sockets ν) : Sockets ν :=
  { s with lwip := { s.lwip with net := { s.lwip.net with stack := x } } }

/-- The sockets, and how much the handler has left to receive, until it returns. -/
structure RecvTask (ν : Type*) where
  s : Sockets ν
  left : Option ℕ

/-- How much a pass asks for. -/
def recvAsked (left : ℕ) : ℕ := min left atcmdDataLenMax

/-- What is left after a pass. -/
def recvLeft (left : ℕ) : Except Errno ℕ → Option ℕ
  | .ok n => if n < left then some (left - n) else none
  | .error _ => none

/-- A pass of `_atcmd_socket_recv_handler` on the stack `x`. -/
def recvPass (now : UInt32) (id : ℕ) (t : RecvTask ν) (x : ν) : Option (RecvTask ν) :=
  t.left.map fun left =>
    let (ret, s) := atcmdSocketRecvHandler__ L now id (recvAsked left : ℕ) false (t.s.withStack x)
    { s := s, left := recvLeft left ret }

/-- The datagram a pass takes. -/
def takenDatagram (D : Datagrams L) (id len : ℕ) (s : Sockets ν) : Option Bytes :=
  match atcmdSocketSearchId_ id s.table, s.lwip.call (L.soType id) with
  | some _, (.ok (some _), w) =>
    match (w.call (L.recvfrom id len)).1 with
    | .ok _ => D.next id w.net.stack
    | .error _ => none
  | _, _ => none

/-- A pass leaves less to receive, and tells the host all of the datagram it takes. -/
def RecvDelivers (D : Datagrams L) (now : UInt32) (id : ℕ) (t : RecvTask ν) (x : ν) : Prop :=
  ∀ left ∈ t.left, ∀ t' ∈ recvPass L now id t x,
    (∀ left' ∈ t'.left, left' < left)
    ∧ ∀ d ∈ takenDatagram L D id (recvAsked left) (t.s.withStack x),
      ∃ remote, t'.s.out = t.s.out ++ [.rxd id remote d]

/-- A pass of the loop receives something, and a datagram has data and is no longer than what is
asked for. -/
def RecvFits (D : Datagrams L) (id : ℕ) (t : RecvTask ν) (x : ν) : Prop :=
  ∀ left ∈ t.left,
    (0 < left → ¬ RecvsNothing L id (recvAsked left : ℕ) (t.s.withStack x))
    ∧ ∀ d ∈ takenDatagram L D id (recvAsked left) (t.s.withStack x),
      d ≠ [] ∧ d.length ≤ recvAsked left

end NrcAtcmd
