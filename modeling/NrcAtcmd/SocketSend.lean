import NrcAtcmd.AtcmdSocket
import NrcAtcmd.Lib.Machine

/-!
# A block sent

`__lwip_socket_send`, and the loop of `__atcmd_socket_send_data` around it, from one call of lwIP to
the next. What lwIP answers is the input, and it takes no more bytes than it is offered. Through
which interface it sends is left to it.
-/

set_option linter.style.nameCheck false

namespace NrcAtcmd

/-- `max_len` of `__lwip_socket_send`. -/
def lwipSendMax : ℕ := 1470

/-- What `__atcmd_socket_send_data` is to send. -/
structure SendBlock where
  socket : AtcmdSocket
  data : Bytes

/-- Where `__lwip_socket_send` is: before a send of the bytes from `i` on, or returned. -/
inductive LwipSend where
  | more (i : ℕ)
  | done (ret : Except Errno ℕ)

/-- `__lwip_socket_send` of `len` bytes, after `send` or `sendto` of those from `i` on. -/
def lwipSocketSend__ (len i : ℕ) : SocketProto → Except Errno ℕ → LwipSend
  | .tcp, ret => .done ret
  | .udp, .ok 0 => .done (.ok i)
  | .udp, .ok n => if i + n < len then .more (i + n) else .done (.ok len)
  | .udp, .error e => .done (.error e)

/-- The loop of `__atcmd_socket_send_data`, `i` of the call of `__lwip_socket_send` it is in, and
the bytes that lwIP took. -/
structure BlockSend where
  loop : SendLoop
  i : ℕ
  taken : Bytes

/-- What lwIP answers next: that the call of `__lwip_socket_send` fails before it sends anything,
or what `send` or `sendto` returns. -/
inductive LwipAnswer where
  | refused (e : Errno)
  | sent (ret : Except Errno ℕ)

namespace SendBlock

/-- What is offered to lwIP from the byte at `pos` on. -/
def offered (b : SendBlock) (pos : ℕ) : Bytes :=
  match b.socket.protocol with
  | .tcp => b.data.drop pos
  | .udp => (b.data.drop pos).take lwipSendMax

/-- `__lwip_socket_send` sends a datagram only to a port. -/
def Addressed (b : SendBlock) : Prop := b.socket.protocol = .udp → b.socket.remotePort ≠ 0

instance (b : SendBlock) : Decidable b.Addressed := inferInstanceAs (Decidable (_ → _))

end SendBlock

/-- How many bytes a send took. -/
def sentCount : Except Errno ℕ → ℕ
  | .ok n => n
  | .error _ => 0

/-- Before the first call. -/
def blockStart (b : SendBlock) : BlockSend := ⟨.start b.data.length, 0, []⟩

/-- `__atcmd_socket_send_data`, from one call of lwIP to the next. -/
def blockStep (b : SendBlock) (s : BlockSend) (a : LwipAnswer) : Option BlockSend :=
  match s.loop, a with
  | .more n retry, .refused e => if s.i = 0 then
      some { s with loop := (SendLoop.more n retry).next b.data.length (.error e) }
    else none
  | .more n retry, .sent ret =>
    if b.Addressed ∧ sentCount ret ≤ (b.offered (n + s.i)).length then
      let taken := s.taken ++ (b.offered (n + s.i)).take (sentCount ret)
      some (match lwipSocketSend__ (b.data.length - n) s.i b.socket.protocol ret with
        | .more i => { s with i := i, taken := taken }
        | .done ret => ⟨(SendLoop.more n retry).next b.data.length ret, 0, taken⟩)
    else none
  | _, _ => none

/-- A send fails when an earlier one of the same call of `__lwip_socket_send` took its bytes. -/
def Uncounted (s : BlockSend) : LwipAnswer → Prop
  | .sent (.error _) => 0 < s.i
  | _ => False

instance (s : BlockSend) : DecidablePred (Uncounted s)
  | .sent (.error _) => inferInstanceAs (Decidable (0 < s.i))
  | .sent (.ok _) | .refused _ => isFalse id

/-- More calls than a block takes. -/
def SendBlock.callsMax (b : SendBlock) : ℕ :=
  (b.data.length + sendRetryMax) * (b.data.length + 1) + b.data.length + 1

end NrcAtcmd
