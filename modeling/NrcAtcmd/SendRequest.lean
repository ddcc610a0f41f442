import Mathlib.Data.Finset.Insert
import Mathlib.Data.Finset.Basic
import NrcAtcmd.Lib.Machine
import NrcAtcmd.Socket

/-!
# A send request

The AT task puts the data of a send into `g_atcmd_socket_event_send`, sets the descriptor in the
write set of the socket task, and waits for an event bit of that descriptor. The socket task polls
the write set, sends the data in `_atcmd_socket_send_handler`, leaves what came of it in the
record, and sets the bit.

The tasks have the same priority, and each access to what they share is a step: the record, the
write set, the event bits. A timeout of the wait can come whenever the bit is not set. The record
points to the data, which is in the frame of the requester, and to the socket, which is in
`g_atcmd_socket` and is reset when it is closed. A `Request` has the data and the id of the socket,
and `serial` tells one request from the next.

Both tasks also open and close sockets. The AT task does so only between its requests, and the
socket task when it takes a connection or a receive fails.
-/

namespace NrcAtcmd

/-- A request: the socket and the data `_atcmd_socket_send_request` was given. -/
structure Request where
  serial : ℕ
  id : ℕ
  data : Bytes
  deriving DecidableEq

/-- `g_atcmd_socket_event_send`. `socket`, `data` and `len` are set and cleared together. -/
structure EventSend where
  request : Option Request
  ret : Option Errno
  done : ℕ
  deriving DecidableEq

/-- What `memset` leaves of it. -/
def EventSend.zero : EventSend := ⟨none, none, 0⟩

/-- Where the AT task is in `_atcmd_socket_send_request`: what it does next. -/
inductive Requester where
  | idle
  | isset (r : Request)
  | set (r : Request)
  | wait (r : Request)
  | clr (r : Request)
  | take (r : Request)
  | reset (r : Request) (ret : Option Errno) (done : ℕ)
  deriving DecidableEq

/-- The request whose bit the AT task waits for. -/
def Requester.waits : Requester → Option Request
  | .wait r => some r
  | _ => none

/-- Who calls `_lwip_socket_send_done`: the send handler when it is through with a request or was
given another socket, or `_atcmd_socket_close` after a failed send or a failed receive. -/
inductive DoneCaller where
  | handler (r : Request)
  | mismatch
  | send (r : Request) (ret : Errno) (i : ℕ)
  | recv
  deriving DecidableEq

/-- Where the socket task is: what it does next. -/
inductive SocketTask where
  | poll
  | loop
  | send (r : Request) (i retry : ℕ)
  | isset (c : DoneCaller) (fd : ℕ)
  | clr (c : DoneCaller) (fd : ℕ)
  | set (c : DoneCaller) (fd : ℕ)
  | close (c : DoneCaller) (fd : ℕ)
  | store (r : Request) (ret : Option Errno) (i : ℕ)
  deriving DecidableEq

/-- What happened: a request was made, a send was called on its data, or it was answered. -/
inductive SendEvent where
  | request (r : Request)
  | send (serial : ℕ) (data : Bytes) (ret : Except Errno ℕ)
  | answer (serial : ℕ) (ret : Option Errno) (done : ℕ)

/-- Both tasks and what they share. `ready` is what is left of the write set the socket task
polled, `ids` are the sockets in `g_atcmd_socket`, and `log` is newest first. -/
structure SendTasks where
  requester : Requester
  task : SocketTask
  eventSend : EventSend
  write : Finset ℕ
  bits : Finset ℕ
  ready : List ℕ
  ids : Finset ℕ
  count : ℕ
  log : List SendEvent

/-- Both tasks after a reset. -/
def SendTasks.boot : SendTasks where
  requester := .idle
  task := .poll
  eventSend := .zero
  write := ∅
  bits := ∅
  ready := []
  ids := ∅
  count := 0
  log := []

/-- What happens next. The AT task makes a request, takes its next step, stops waiting, or opens or
closes a socket. The socket task polls, takes its next step, hears what a send returned, takes a
connection, or closes a socket that cannot be read. -/
inductive SendInput where
  | request (id : ℕ) (data : Bytes)
  | requester
  | timeout
  | opens (id : ℕ)
  | closes (id : ℕ)
  | poll (ready : List ℕ)
  | task
  | sent (ret : Except Errno ℕ)
  | accept (id : ℕ)
  | recvClose (id : ℕ)

/-! ## The AT task -/

/-- `_atcmd_socket_send_request` up to its call of `_lwip_socket_send_request`. -/
def atcmdSocketSendRequest_ (id : ℕ) (data : Bytes) (s : SendTasks) : SendTasks :=
  let r := ⟨s.count, id, data⟩
  let s := { s with count := s.count + 1, log := .request r :: s.log }
  if s.eventSend.request.isSome then { s with log := .answer r.serial (some .ebusy) 0 :: s.log }
  else { s with eventSend := ⟨some r, none, 0⟩, requester := .isset r }

/-- The next step of `_lwip_socket_send_request`, and of `_atcmd_socket_send_request` after it. -/
def requesterStep (s : SendTasks) : Option SendTasks :=
  match s.requester with
  | .idle => none
  | .isset r => some
    { s with requester := if r.id ∈ s.write then .reset r (some .ebusy) 0 else .set r }
  | .set r => some { s with write := insert r.id s.write, requester := .wait r }
  | .wait r =>
    if r.id ∈ s.bits then some { s with bits := s.bits.erase r.id, requester := .take r } else none
  | .clr r => some
    { s with write := s.write.erase r.id, requester := .reset r (some .ebusy) 0 }
  | .take r => some { s with requester := .reset r s.eventSend.ret s.eventSend.done }
  | .reset r ret done => some
    { s with
      eventSend := .zero, requester := .idle, log := .answer r.serial ret done :: s.log }

/-- The wait ends without its bit. -/
def requesterTimeout (s : SendTasks) : Option SendTasks :=
  match s.requester with
  | .wait r => if r.id ∈ s.bits then none else some { s with requester := .clr r }
  | _ => none

/-- `_atcmd_socket_close` by a command. -/
def commandClose (id : ℕ) (s : SendTasks) : SendTasks :=
  { s with
    bits := if id ∈ s.write then insert id s.bits else s.bits
    write := s.write.erase id, ids := s.ids.erase id }

/-! ## The socket task -/

/-- What follows a call of `_lwip_socket_send_done`. -/
def DoneCaller.next (fd : ℕ) : DoneCaller → SocketTask
  | handler _ | mismatch => .loop
  | c => .close c fd

/-- What follows `_atcmd_socket_close`. -/
def DoneCaller.closed : DoneCaller → SocketTask
  | send r ret i => .store r (some ret) i
  | _ => .loop

/-- What follows a pass of the loop that sends the data of a request. -/
def sendLoopNext (ids : Finset ℕ) (r : Request) : SendLoop → SocketTask
  | .more i retry => .send r i retry
  | .close e i => if r.id ∈ ids then .isset (.send r e i) r.id else .store r (some e) i
  | .done ret i => .store r ret i

/-- `_atcmd_socket_send_handler`, up to its first send. -/
def atcmdSocketSendHandler_ (id : ℕ) (s : SendTasks) : SocketTask :=
  match s.eventSend.request with
  | none => .loop
  | some r =>
    if id = r.id then sendLoopNext s.ids r (.start r.data.length) else .isset .mismatch id

/-- The next step of the socket task, other than a send. -/
def taskStep (s : SendTasks) : Option SendTasks :=
  match s.task with
  | .poll | .send .. => none
  | .loop =>
    match s.ready with
    | [] => some { s with task := .poll }
    | fd :: ready => some { s with ready := ready, task := atcmdSocketSendHandler_ fd s }
  | .isset c fd => some { s with task := if fd ∈ s.write then .clr c fd else c.next fd }
  | .clr c fd => some { s with write := s.write.erase fd, task := .set c fd }
  | .set c fd => some { s with bits := insert fd s.bits, task := c.next fd }
  | .close c fd => some
    { s with write := s.write.erase fd, ids := s.ids.erase fd, task := c.closed }
  | .store r ret i => some
    { s with eventSend := ⟨none, ret, i⟩, task := .isset (.handler r) r.id }

/-- A send returns. It takes no more bytes than it was given. -/
def taskSent (ret : Except Errno ℕ) (s : SendTasks) : Option SendTasks :=
  match s.task with
  | .send r i retry =>
    if ∀ n ∈ ret.toOption, n ≤ r.data.length - i then some
      { s with
        task := sendLoopNext s.ids r (SendLoop.next r.data.length (.more i retry) ret)
        log := .send r.serial (r.data.drop i) ret :: s.log }
    else none
  | _ => none

/-- A step of either task. -/
def sendStep (s : SendTasks) : SendInput → Option SendTasks
  | .request id data =>
    if s.requester = .idle then some (atcmdSocketSendRequest_ id data s) else none
  | .requester => requesterStep s
  | .timeout => requesterTimeout s
  | .opens id =>
    if s.requester = .idle ∧ id ∉ s.ids then some
      { s with write := s.write.erase id, ids := insert id s.ids }
    else none
  | .closes id =>
    if s.requester = .idle ∧ id ∈ s.ids then some (commandClose id s) else none
  | .poll ready =>
    if s.task = .poll ∧ (∀ fd ∈ ready, fd ∈ s.write) ∧ ready.Pairwise (· < ·) then some
      { s with ready := ready, task := .loop }
    else none
  | .task => taskStep s
  | .sent ret => taskSent ret s
  | .accept id =>
    if s.task = .loop ∧ id ∉ s.ids then some
      { s with write := s.write.erase id, ids := insert id s.ids }
    else none
  | .recvClose id =>
    if s.task = .loop ∧ id ∈ s.ids then some { s with task := .isset .recv id } else none

/-! ## What a request is answered -/

/-- What the sends on the data of a request returned, newest first. -/
def returned (k : ℕ) : List SendEvent → List (Except Errno ℕ)
  | .send serial _ ret :: l => if serial = k then ret :: returned k l else returned k l
  | _ :: l => returned k l
  | [] => []

/-- The bytes of a request that went out. -/
def wentOut (k : ℕ) : List SendEvent → Bytes
  | .send serial data (.ok n) :: l =>
    if serial = k then wentOut k l ++ data.take n else wentOut k l
  | _ :: l => wentOut k l
  | [] => []

/-- The answer to a request is what its handler came to, or `EBUSY` if no handler took it up. -/
def Answers (r : Request) (l : List SendEvent) (ret : Option Errno) (done : ℕ) : Prop :=
  wentOut r.serial l = r.data.take done
    ∧ ((atcmdSocketSendData__ r.data.length (returned r.serial l)).result = some (ret, done)
      ∨ returned r.serial l = [] ∧ ret = some .ebusy ∧ done = 0)

/-- Whether an event is as it should be after `l`. -/
def SendEvent.Fits (l : List SendEvent) : SendEvent → Prop
  | .request _ => True
  | .send k _ _ => ∀ ret done, SendEvent.answer k ret done ∉ l
  | .answer k ret done => ∃ r, SendEvent.request r ∈ l ∧ r.serial = k ∧ Answers r l ret done

/-- Each event is as it should be after those before it. -/
def AllFit : List SendEvent → Prop
  | [] => True
  | e :: l => e.Fits l ∧ AllFit l

/-- Each request was answered with what its own handler came to, which sent none of its data
after that, and no socket is busy once no request is outstanding. -/
def Served (s : SendTasks) : Prop :=
  AllFit s.log ∧ (s.requester = .idle → s.write = ∅ ∧ s.eventSend.request = none)

/-! ## Where the tasks cross -/

/-- The socket task is at work on the request. -/
def SocketTask.handles (r : Request) : SocketTask → Bool
  | .send r' _ _ | .store r' _ _ => r' = r
  | .isset c _ | .clr c _ | .set c _ | .close c _ =>
    match c with
    | .handler r' | .send r' _ _ => r' = r
    | _ => false
  | _ => false

/-- The socket task has taken up the request and not stored its result. -/
def SocketTask.owes (r : Request) : SocketTask → Bool
  | .send r' _ _ | .store r' _ _ => r' = r
  | .isset c _ | .clr c _ | .set c _ | .close c _ =>
    match c with
    | .send r' _ _ => r' = r
    | _ => false
  | _ => false

/-- The step of the socket task takes up a request nobody waits for yet or any more, or says done
for a request it has not taken up. -/
def TaskCrosses (s : SendTasks) : SocketTask → Prop
  | .loop => ∃ fd ∈ s.ready.head?, ∃ r ∈ s.eventSend.request,
      r.id = fd ∧ ¬ (s.requester = .wait r ∧ fd ∈ s.write)
  | .isset c fd => fd ∈ s.write ∧ ¬ ∃ r ∈ s.requester.waits, (SocketTask.isset c fd).handles r
  | _ => False

/-- The steps in which one task meets the other halfway through a request. The AT task stops
waiting while the socket task is at work on its request, or wakes up before the result is there;
or it is the socket task that comes too early or too late. -/
def Crosses (s : SendTasks) : SendInput → Prop
  | .timeout => ∃ r ∈ s.requester.waits, s.task.handles r = true
  | .requester => ∃ r ∈ s.requester.waits, s.task.owes r = true
  | .task => TaskCrosses s s.task
  | _ => False

instance (s : SendTasks) : DecidablePred (TaskCrosses s)
  | .loop => inferInstanceAs (Decidable (∃ fd ∈ s.ready.head?, ∃ r ∈ s.eventSend.request,
      r.id = fd ∧ ¬ (s.requester = .wait r ∧ fd ∈ s.write)))
  | .isset c fd => inferInstanceAs (Decidable (fd ∈ s.write
      ∧ ¬ ∃ r ∈ s.requester.waits, (SocketTask.isset c fd).handles r))
  | .poll | .send .. | .clr .. | .set .. | .close .. | .store .. => isFalse id

instance (s : SendTasks) : DecidablePred (Crosses s)
  | .timeout => inferInstanceAs (Decidable (∃ r ∈ s.requester.waits, s.task.handles r = true))
  | .requester => inferInstanceAs (Decidable (∃ r ∈ s.requester.waits, s.task.owes r = true))
  | .task => inferInstanceAs (Decidable (TaskCrosses s s.task))
  | .request .. | .opens .. | .closes .. | .poll .. | .sent .. | .accept .. | .recvClose .. =>
    isFalse id

end NrcAtcmd
