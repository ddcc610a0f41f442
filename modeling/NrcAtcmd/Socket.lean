import Mathlib.Data.Finset.Basic
import NrcAtcmd.Message

/-!
# Sockets

`lwip_socket.c`: the descriptors of lwIP, and the descriptor sets of the socket task.

lwIP itself is a parameter. A call answers as it likes, and has an effect on the descriptor it
names only if it succeeds: `Descriptor` says what became of one since it was opened. Only `close`
does not fail. A call returns a count or sets `errno`, and `lwip_socket.c` returns the count or the
negated `errno`: an `Except Errno ℕ` here. `EWOULDBLOCK` is `EAGAIN`. Addresses are those of IPv4.
-/

set_option linter.style.nameCheck false

namespace NrcAtcmd

/-- The values of `errno` that the socket commands tell apart. -/
inductive Errno where
  | eperm
  | ebadf
  | eagain
  | enomem
  | ebusy
  | einval
  | eprototype
  | enotsock
  | enotsup
  | econnaborted
  | econnreset
  | enobufs
  | enotconn
  | etimedout
  | ehostunreach
  | einprogress
  | other (n : ℕ)
  deriving DecidableEq, Repr

namespace Errno

/-- The number `lwip/errno.h` gives it. -/
def value : Errno → ℕ
  | eperm => 1
  | ebadf => 9
  | eagain => 11
  | enomem => 12
  | ebusy => 16
  | einval => 22
  | eprototype => 91
  | enotsock => 88
  | enotsup => 95
  | econnaborted => 103
  | econnreset => 104
  | enobufs => 105
  | enotconn => 107
  | etimedout => 110
  | ehostunreach => 113
  | einprogress => 115
  | other n => n

/-- The errors after which the socket is closed. -/
def closes : Errno → Bool
  | ebadf | enotconn | econnreset | econnaborted | ehostunreach => true
  | _ => false

/-- The errors after which a send is tried again. -/
def retries : Errno → Bool
  | enomem | enobufs | eagain => true
  | _ => false

end Errno

/-! ## The loop of a send -/

/-- `retry_max` of `__atcmd_socket_send_data`. -/
def sendRetryMax : ℕ := 60 * (1000 / 10)

/-- Where the loop of `__atcmd_socket_send_data` is: before a send, or left with `ret` and `i`,
which for some errors closes the socket first. -/
inductive SendLoop where
  | more (i retry : ℕ)
  | close (ret : Errno) (i : ℕ)
  | done (ret : Option Errno) (i : ℕ)
  deriving DecidableEq, Repr

namespace SendLoop

/-- The loop before its first pass. -/
def start (len : ℕ) : SendLoop := if len = 0 then done none 0 else more 0 0

/-- A pass of the loop, in which the send returns `ret`. -/
def next (len : ℕ) : SendLoop → Except Errno ℕ → SendLoop
  | more i _, .ok 0 => close .enotconn i
  | more i retry, .ok n => if i + n < len then more (i + n) retry else done none (i + n)
  | more i retry, .error e =>
    if e.closes then close e i
    else if e.retries && decide (retry + 1 < sendRetryMax) then more i (retry + 1)
    else done (some e) i
  | l, _ => l

/-- What `__atcmd_socket_send_data` returns: `ret`, and `i` in `done`. -/
def result : SendLoop → Option (Option Errno × ℕ)
  | more _ _ => none
  | close e i => some (some e, i)
  | done ret i => some (ret, i)

end SendLoop

/-- `__atcmd_socket_send_data` of `len` bytes, whose sends returned `rets`, the last one first. -/
def atcmdSocketSendData__ (len : ℕ) (rets : List (Except Errno ℕ)) : SendLoop :=
  rets.foldr (fun ret l => l.next len ret) (.start len)

/-! ## Descriptors -/

/-- `ip_addr_t`. -/
abbrev Addr := UInt32

/-- `enum ATCMD_SOCKET_PROTO`, and the type of a descriptor. -/
inductive SocketProto where
  | udp
  | tcp
  deriving DecidableEq, Repr

/-- The options of `setsockopt` and `getsockopt` that are in use. -/
inductive SockOpt where
  | reuseAddr
  | broadcast
  | multicastTtl
  | multicastLoop
  | addMembership (group : Addr)
  | dropMembership (group : Addr)
  | keepalive
  | keepidle
  | keepcnt
  | keepintvl
  | nodelay
  deriving DecidableEq, Repr

/-- What became of a descriptor since it was opened. -/
structure Descriptor where
  type : SocketProto
  bound : Option ℕ
  listening : Bool
  connecting : Option (Addr × ℕ)
  connected : Option (Addr × ℕ)
  deriving DecidableEq, Repr

/-- A call: what it answers, and the stack after it. -/
abbrev Call (ν α : Type*) := ν → Except Errno α × ν

/-- What lwIP answers. It opens no descriptor that is open, and hands over no more bytes than it
was asked for. -/
structure Lwip (ν : Type*) where
  socket : (ℕ → Bool) → SocketProto → Call ν ℕ
  bind : ℕ → ℕ → Call ν Unit
  listen : ℕ → Call ν Unit
  accept : (ℕ → Bool) → ℕ → Call ν (ℕ × Addr × ℕ)
  connect : ℕ → Addr → ℕ → Call ν Unit
  selectWrite : ℕ → ℕ → Call ν Bool
  setNonblock : ℕ → Bool → Call ν Unit
  soType : ℕ → Call ν (Option SocketProto)
  soError : ℕ → Call ν (Option Errno)
  setsockopt : ℕ → SockOpt → ℤ → Call ν Unit
  getsockopt : ℕ → SockOpt → Call ν ℤ
  getsockname : ℕ → Call ν ℕ
  close : ℕ → ν → ν
  fionread : ℕ → Call ν ℕ
  recvfrom : ℕ → ℕ → Call ν (Bytes × Addr × ℕ)
  gethostbyname : Bytes → Call ν Bytes
  getaddrinfo : Bytes → Bytes → Call ν Bytes
  ipaddrAton : Bytes → Option Addr
  ipaddrNtoa : Addr → Bytes
  socket_fresh : ∀ {opened t x fd}, (socket opened t x).1 = .ok fd → opened fd = false
  accept_fresh : ∀ {opened fd x fd' a}, (accept opened fd x).1 = .ok (fd', a) → opened fd' = false
  recvfrom_le : ∀ {fd len x data a}, (recvfrom fd len x).1 = .ok (data, a) → data.length ≤ len

/-- The descriptors that are open, and the stack. -/
structure Net (ν : Type*) where
  descriptor : ℕ → Option Descriptor
  stack : ν

variable {ν : Type*} (L : Lwip ν)

namespace Net

/-- A call that leaves the descriptors as they are. -/
def call {α : Type*} (f : Call ν α) (n : Net ν) : Except Errno α × Net ν :=
  let (r, x) := f n.stack
  (r, { n with stack := x })

/-- Whether a descriptor is open. -/
def opened (n : Net ν) (fd : ℕ) : Bool := (n.descriptor fd).isSome

/-- The descriptor after `f`, if it is open. -/
def update (fd : ℕ) (f : Descriptor → Descriptor) (n : Net ν) : Net ν :=
  { n with descriptor := Function.update n.descriptor fd ((n.descriptor fd).map f) }

/-- The descriptor, opened. -/
def insert (fd : ℕ) (d : Descriptor) (n : Net ν) : Net ν :=
  { n with descriptor := Function.update n.descriptor fd (some d) }

/-- A call that has an effect on a descriptor if it succeeds. -/
def callOn (f : Call ν Unit) (fd : ℕ) (g : Descriptor → Descriptor) (n : Net ν) :
    Option Errno × Net ν :=
  match n.call f with
  | (.ok _, n) => (none, n.update fd g)
  | (.error e, n) => (some e, n)

def socket (t : SocketProto) (n : Net ν) : Except Errno ℕ × Net ν :=
  match n.call (L.socket n.opened t) with
  | (.ok fd, n) => (.ok fd, n.insert fd ⟨t, none, false, none, none⟩)
  | r => r

def accept (fd : ℕ) (n : Net ν) : Except Errno (ℕ × Addr × ℕ) × Net ν :=
  match n.call (L.accept n.opened fd) with
  | (.ok (fd', addr, port), n) =>
    (.ok (fd', addr, port), n.insert fd' ⟨.tcp, none, false, none, some (addr, port)⟩)
  | r => r

def close (fd : ℕ) (n : Net ν) : Net ν :=
  { descriptor := Function.update n.descriptor fd none, stack := L.close fd n.stack }

/-- `connect`, which may go on after it returns. -/
def connect (fd : ℕ) (addr : Addr) (port : ℕ) (n : Net ν) : Option Errno × Net ν :=
  match n.callOn (L.connect fd addr port) fd fun d => { d with connected := some (addr, port) } with
  | (some .einprogress, n) =>
    (some .einprogress, n.update fd fun d => { d with connecting := some (addr, port) })
  | r => r

/-- `_lwip_socket_get_error`: what became of a connection that went on. -/
def getError (fd : ℕ) (n : Net ν) : Option Errno × Net ν :=
  match n.call (L.soError fd) with
  | (.ok none, n) => (none, n.update fd fun d => { d with connected := d.connecting })
  | (.ok (some e), n) | (.error e, n) => (some e, n)

/-- A call of which only its failure counts. -/
def check {α : Type*} (f : Call ν α) (n : Net ν) : Option Errno × Net ν :=
  match n.call f with
  | (.ok _, n) => (none, n)
  | (.error e, n) => (some e, n)

end Net

/-- What follows, if nothing failed. -/
def andThen {α : Type*} : Option Errno × α → (α → Option Errno × α) → Option Errno × α
  | (none, a), f => f a
  | r, _ => r

def lwipSocketConnect_ (fd : ℕ) (addr : Addr) (port timeout : ℕ) (n : Net ν) :
    Option Errno × Net ν :=
  andThen (n.check (L.setNonblock fd true)) fun n =>
    match n.connect L fd addr port with
    | (none, n) => (none, n)
    | (some err, n) =>
      andThen (n.check (L.setNonblock fd false)) fun n =>
        if err ≠ .einprogress then (some err, n)
        else
          match n.call (L.selectWrite fd (if timeout = 0 then 10000 else timeout)) with
          | (.error e, n) => (some e, n)
          | (.ok false, n) => (some .etimedout, n)
          | (.ok true, n) => n.getError L fd

/-! ## The socket layer -/

/-- `lwip_socket_info_t`: the descriptor sets, and the name that needs no lookup. -/
structure LwipSocket (ν : Type*) where
  read : Finset ℕ
  write : Finset ℕ
  listen : Finset ℕ
  addrinfo : Bytes × Bytes
  net : Net ν

def lwipSocketFdsSet_ (fd : ℕ) (listen : Bool) (w : LwipSocket ν) : LwipSocket ν :=
  { w with
    read := insert fd w.read, write := w.write.erase fd
    listen := if listen then insert fd w.listen else w.listen }

def lwipSocketFdsClear_ (fd : ℕ) (w : LwipSocket ν) : LwipSocket ν :=
  { w with read := w.read.erase fd, write := w.write.erase fd, listen := w.listen.erase fd }

/-- `_lwip_socket_open` of a UDP socket, after `_lwip_socket_set_reuse_addr`. -/
def lwipSocketOpenUdp (fd localPort ttl : ℕ) (n : Net ν) : Option Errno × Net ν :=
  andThen (n.callOn (L.bind fd localPort) fd fun d => { d with bound := some localPort }) fun n =>
  andThen (n.check (L.setsockopt fd .broadcast 1)) fun n =>
  andThen (if 0 < ttl then n.check (L.setsockopt fd .multicastTtl ttl) else (none, n)) fun n =>
  andThen (n.check (L.getsockopt fd .broadcast)) fun n =>
  andThen (n.check (L.getsockopt fd .multicastLoop)) fun n =>
  (none, (n.check (L.getsockopt fd .multicastTtl)).2)

/-- `_lwip_socket_open` of a TCP server, after `_lwip_socket_set_reuse_addr`. -/
def lwipSocketOpenServer (fd localPort : ℕ) (n : Net ν) : Option Errno × Net ν :=
  andThen (n.callOn (L.bind fd localPort) fd fun d => { d with bound := some localPort }) fun n =>
  n.callOn (L.listen fd) fd fun d => { d with listening := true }

/-- The end of `_lwip_socket_open`: what it returns, and what it leaves in `*fd`. A socket listens
only if nothing failed. -/
def lwipSocketOpened (fd : ℕ) (listen : Bool) (w : LwipSocket ν) :
    Option Errno × Net ν → Option Errno × Option ℕ × LwipSocket ν
  | (none, n) => (none, some fd, lwipSocketFdsSet_ fd listen { w with net := n })
  | (some .einprogress, n) =>
    (some .einprogress, some fd, lwipSocketFdsSet_ fd false { w with net := n })
  | (some e, n) => (some e, none, { w with net := n.close L fd })

/-- The parameters `_lwip_socket_open` does not take. -/
def lwipSocketOpenInvalid (remote : Option (Addr × ℕ)) (localPort : ℕ) : SocketProto → Bool
  | .udp => remote.isSome || localPort == 0
  | .tcp => (remote.any fun r => r.2 != 0) && localPort != 0

/-- `_lwip_socket_open`. When `SO_REUSEADDR` cannot be set it returns at once, with the descriptor
in `*fd`. -/
def lwipSocketOpen_ (type : SocketProto) (remote : Option (Addr × ℕ)) (localPort ttl timeout : ℕ)
    (w : LwipSocket ν) : Option Errno × Option ℕ × LwipSocket ν :=
  if lwipSocketOpenInvalid remote localPort type then (some .einval, none, w)
  else
    match w.net.socket L type with
    | (.error e, n) => (some e, none, { w with net := n })
    | (.ok fd, n) =>
      match type, remote with
      | .tcp, some (addr, port) =>
        lwipSocketOpened L fd false w (lwipSocketConnect_ L fd addr port timeout n)
      | _, _ =>
        match n.check (L.setsockopt fd .reuseAddr 1) with
        | (some e, n) => (some e, some fd, { w with net := n })
        | (none, n) =>
          match type with
          | .udp => lwipSocketOpened L fd false w (lwipSocketOpenUdp L fd localPort ttl n)
          | .tcp => lwipSocketOpened L fd true w (lwipSocketOpenServer L fd localPort n)

def lwipSocketClose_ (fd : ℕ) (w : LwipSocket ν) : LwipSocket ν :=
  let w := lwipSocketFdsClear_ fd w
  { w with net := w.net.close L fd }

/-- `_lwip_socket_send_done`; its event bit is in `SendTasks`. -/
def lwipSocketSendDone_ (fd : ℕ) (w : LwipSocket ν) : LwipSocket ν :=
  { w with write := w.write.erase fd }

def lwipSocketRecvRequest_ (fd : ℕ) (w : LwipSocket ν) : LwipSocket ν :=
  { w with read := insert fd w.read }

def lwipSocketRecvDone_ (fd : ℕ) (w : LwipSocket ν) : LwipSocket ν :=
  { w with read := w.read.erase fd }

/-- A call that changes nothing but the stack. -/
def LwipSocket.call {α : Type*} (f : Call ν α) (w : LwipSocket ν) :
    Except Errno α × LwipSocket ν :=
  let (r, n) := w.net.call f
  (r, { w with net := n })

def lwipSocketRecvLen_ (fd : ℕ) (w : LwipSocket ν) : Except Errno ℕ × LwipSocket ν :=
  w.call (L.fionread fd)

/-- `__lwip_socket_recv`, with the sender of a datagram. -/
def lwipSocketRecv__ (fd len : ℕ) (w : LwipSocket ν) :
    Except Errno (Bytes × Option (Addr × ℕ)) × LwipSocket ν :=
  match w.call (L.soType fd) with
  | (.error e, w) => (.error e, w)
  | (.ok none, w) => (.error .eprototype, w)
  | (.ok (some type), w) =>
    match w.call (L.recvfrom fd len) with
    | (.error e, w) => (.error e, w)
    | (.ok (data, remote), w) => (.ok (data, if type = .udp then some remote else none), w)

def lwipSocketAccept_ (fd : ℕ) (w : LwipSocket ν) :
    Except Errno (ℕ × Addr × ℕ) × LwipSocket ν :=
  match w.call (L.soType fd) with
  | (.error e, w) => (.error e, w)
  | (.ok type, w) =>
    if type ≠ some .tcp then (.error .eprototype, w)
    else
      let (r, n) := w.net.accept L fd
      (r, { w with net := n })

/-- `_lwip_socket_get_local`, which gives zero here where its callers fall back to it. -/
def lwipSocketGetLocal_ (fd : ℕ) (w : LwipSocket ν) : ℕ × LwipSocket ν :=
  match w.call (L.getsockname fd) with
  | (.ok port, w) => (port, w)
  | (.error _, w) => (0, w)

def lwipSocketAddrInfo1_ (host : Bytes) (w : LwipSocket ν) : Except Errno Bytes × LwipSocket ν :=
  if host = w.addrinfo.1 then (.ok w.addrinfo.2, w) else w.call (L.gethostbyname host)

def lwipSocketAddrInfo2_ (host port : Bytes) (w : LwipSocket ν) :
    Except Errno Bytes × LwipSocket ν :=
  if host = w.addrinfo.1 then (.ok w.addrinfo.2, w) else w.call (L.getaddrinfo host port)

end NrcAtcmd
