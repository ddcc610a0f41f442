import NrcAtcmd.Lib.Machine
import NrcAtcmd.Lib.Memory
import NrcAtcmd.Message

/-!
# Ping

`_lwip_ping_run` sends one echo request after the other and waits for the reply of each, with the
interval as the timeout of the socket too (`lwip_ping.c`, with `CONFIG_ATCMD_IPV6`). The clock is the
time in milliseconds modulo 2^32, and a send time of 0 stands for a request that was not sent.

A step is the part of the loop that ends where the clock is read or the socket is asked: how long it
took, and what the socket answered, is its input. `recvfrom` blocks for the interval at most, and
forever where that is 0; what does not fit the buffer of a datagram is lost. The state keeps what the
loop itself does not: when the request was begun, the time spent since outside of `recvfrom`
(`spent`) and in it (`waited`), and the bytes of replies that were read.
-/

namespace NrcAtcmd

open Memory (memcpy)

inductive IpAddr where
  | v4 (addr : ℕ)
  | v6 (addr : ℕ)
  deriving DecidableEq

def IpAddr.isV6 : IpAddr → Bool
  | .v4 _ => false
  | .v6 _ => true

inductive LwipPingStatus where
  | success
  | sendFail
  | recvTimeout
  deriving DecidableEq

/-- `_lwip_ping_params_t`. -/
structure LwipPingParams where
  remoteIp : IpAddr
  count : ℕ
  interval : ℕ
  dataSize : ℕ
  interval_lt : interval < 2 ^ 31

/-- `request->buf_size`, 16 bits of it. -/
def LwipPingParams.requestSize (p : LwipPingParams) : ℕ := (8 + p.dataSize) % 2 ^ 16

/-- `reply->buf_size`, with the headers of the packet. -/
def LwipPingParams.replySize (p : LwipPingParams) : ℕ :=
  (p.requestSize + if p.remoteIp.isV6 then 40 else 60) % 2 ^ 16

/-- `PING_ID`. -/
def lwipPingId : ℕ := 0xECEC

structure LwipPingReply where
  remoteIp : Option IpAddr
  dataSize : ℕ
  icmpSeq : ℕ
  ttl : ℕ
  time : ℕ
  deriving DecidableEq

/-- What the loop changes of `_lwip_ping_info_t`: the request's sequence number and send time, the
reply's buffer and what was found in it. -/
structure LwipPingInfo where
  icmpSeq : ℕ
  time : ℕ
  buf : Bytes
  reply : LwipPingReply
  status : LwipPingStatus

/-- `_lwip_ping_update`, and the status the loop sets. -/
def lwipPingUpdate_ (info : LwipPingInfo) : LwipPingInfo :=
  { info with
    icmpSeq := (info.icmpSeq + 1) % 2 ^ 16
    time := 0
    reply := ⟨none, 0, 0, 0, 0⟩
    status := .success }

/-- `_lwip_ping_send`: `len` is what `lwip_sendto` returns, none where there is no memory for the
address. -/
def lwipPingSend_ (p : LwipPingParams) (info : LwipPingInfo) (len : Option ℤ) (sendTime : ℕ) :
    ℤ × LwipPingInfo :=
  match len with
  | none => (-1, info)
  | some len =>
    let info :=
      if len ≤ 0 ∨ len ≠ p.requestSize then { info with status := .sendFail }
      else { info with time := sendTime }
    (if 0 < len then 0 else -1, info)

/-- What the parser takes from a reply. -/
structure LwipPingHdr where
  id : ℕ
  seqno : ℕ
  ttl : ℕ
  dataLen : ℤ

def byteAt (buf : Bytes) (i : ℕ) : ℕ := (buf.getD i 0).toNat

/-- `ntohs` of the field at `i`. -/
def ntohsAt (buf : Bytes) (i : ℕ) : ℕ := 256 * byteAt buf i + byteAt buf (i + 1)

/-- `IP_HDR_LEN`. -/
def ipHdrLen (buf : Bytes) : ℕ := 4 * (byteAt buf 0 % 16)

/-- The parser of `_lwip_ping_receive`: the offsets it reads, in order, and what it takes from them.
`from` is none for an address of another family, and the result is none for a packet dropped. -/
def lwipPingParse (src : Option IpAddr) (buf : Bytes) (recvLen : ℕ) : List ℕ × Option LwipPingHdr :=
  match src with
  | none => ([], none)
  | some (.v4 _) =>
    let hl := ipHdrLen buf
    ([0, hl + 4, hl + 5, hl + 6, hl + 7, 8],
      some ⟨ntohsAt buf (hl + 4), ntohsAt buf (hl + 6), byteAt buf 8, recvLen - hl - 8⟩)
  | some (.v6 _) =>
    if byteAt buf 6 ≠ 58 then ([6], none)
    else if byteAt buf 40 ≠ 129 then ([6, 40], none)
    else
      ([6, 40, 44, 45, 46, 47, 7],
        some ⟨ntohsAt buf 44, ntohsAt buf 46, byteAt buf 7, recvLen - 40 - 8⟩)

/-- The packet is taken for the reply. -/
def LwipPingHdr.matches (hdr : LwipPingHdr) (p : LwipPingParams) (icmpSeq : ℕ)
    (src : Option IpAddr) : Bool :=
  src = some p.remoteIp ∧ hdr.id = lwipPingId ∧ hdr.seqno = icmpSeq ∧ hdr.dataLen = p.dataSize

/-- A pass of `_lwip_ping_receive` with a packet: whether it is the reply, the offsets read, and how
many bytes were received. -/
def lwipPingPacket_ (p : LwipPingParams) (info : LwipPingInfo) (src : Option IpAddr)
    (packet : Bytes) (recvTime : ℕ) : Bool × List ℕ × ℕ × LwipPingInfo :=
  let recvLen := min packet.length p.replySize
  let info := { info with buf := memcpy info.buf 0 (packet.take recvLen) }
  match lwipPingParse src info.buf recvLen with
  | (reads, none) => (false, reads, recvLen, info)
  | (reads, some hdr) =>
    if hdr.matches p info.icmpSeq src then
      (true, reads, recvLen,
        { info with reply := ⟨src, p.dataSize, hdr.seqno, hdr.ttl, recvTime⟩ })
    else (false, reads, recvLen, info)

/-- `_lwip_ping_report_t`. -/
structure LwipPingReport where
  status : LwipPingStatus
  remoteIp : Option IpAddr
  dataSize : ℕ
  icmpSeq : ℕ
  ttl : ℕ
  respTime : ℕ
  deriving DecidableEq

/-- `_lwip_ping_report`. -/
def lwipPingReport_ (p : LwipPingParams) (info : LwipPingInfo) : LwipPingReport :=
  match info.status with
  | .success =>
    ⟨.success, info.reply.remoteIp, info.reply.dataSize, info.reply.icmpSeq, info.reply.ttl,
      (info.reply.time + 2 ^ 32 - info.time) % 2 ^ 32⟩
  | status => ⟨status, some p.remoteIp, p.dataSize, info.icmpSeq, 0, 0⟩

/-- The unsigned difference of two clock values. -/
def clockSince (now time : ℕ) : ℕ := (now % 2 ^ 32 + 2 ^ 32 - time) % 2 ^ 32

/-- `wait_time`, the unsigned difference as an `int`. -/
def lwipPingWaitTime (p : LwipPingParams) (info : LwipPingInfo) (now : ℕ) : ℤ :=
  let wait : ℕ := (p.interval + 2 ^ 32 - clockSince now info.time) % 2 ^ 32
  if wait < 2 ^ 31 then (wait : ℤ) else (wait : ℤ) - 2 ^ 32

/-! ## The loop -/

/-- What `recvfrom` does after it blocked: a packet, an error, or its timeout. -/
inductive LwipPingRecv where
  | packet (blocked : ℕ) (src : Option IpAddr) (packet : Bytes)
  | error (blocked : ℕ)
  | again

def LwipPingRecv.blocked (p : LwipPingParams) : LwipPingRecv → ℕ
  | .packet blocked _ _ => blocked
  | .error blocked => blocked
  | .again => p.interval

/-- With a timeout of 0 there is none. -/
def LwipPingRecv.Possible (p : LwipPingParams) : LwipPingRecv → Prop
  | .again => p.interval ≠ 0
  | r => p.interval ≠ 0 → r.blocked p ≤ p.interval

instance (p : LwipPingParams) : ∀ r : LwipPingRecv, Decidable (r.Possible p)
  | .packet _ _ _ => inferInstanceAs (Decidable (_ → _))
  | .error _ => inferInstanceAs (Decidable (_ → _))
  | .again => inferInstanceAs (Decidable (_ ≠ _))

inductive LwipPingPc where
  | send
  | receive
  | report
  | done
  deriving DecidableEq

/-- A packet taken for the reply to the request with that number. -/
structure LwipPingCounted where
  src : Option IpAddr
  packet : Bytes
  icmpSeq : ℕ
  deriving DecidableEq

/-- `gaps` are the times from one request to the next, each with what of it was spent outside of
waiting; `reads` the offsets read and the bytes there were. -/
structure LwipPing where
  info : LwipPingInfo
  pc : LwipPingPc
  i : ℕ
  now : ℕ
  start : ℕ
  waited : ℕ
  spent : ℕ
  gaps : List (ℕ × ℕ)
  reads : List (ℕ × ℕ)
  counted : List LwipPingCounted
  reports : List LwipPingReport

/-- A run begins at a time, with a reply buffer that holds anything. -/
def lwipPingStart (p : LwipPingParams) (now : ℕ) (buf : Bytes) : LwipPing where
  info := ⟨0, 0, buf, ⟨none, 0, 0, 0, 0⟩, .success⟩
  pc := if 0 < p.count then .send else .done
  i := 0
  now := now
  start := now
  waited := 0
  spent := 0
  gaps := []
  reads := []
  counted := []
  reports := []

inductive LwipPingStep where
  | send (took : ℕ) (len : Option ℤ)
  | receive (took : ℕ) (r : LwipPingRecv)
  | timeout (took : ℕ)
  | report (took : ℕ)

/-- The condition of the loop in `_lwip_ping_receive`. -/
def LwipPing.waits (p : LwipPingParams) (s : LwipPing) (now : ℕ) : Bool :=
  now % 2 ^ 32 < (s.info.time + p.interval) % 2 ^ 32

def LwipPing.spend (s : LwipPing) (took : ℕ) : LwipPing :=
  { s with now := s.now + took, spent := s.spent + took }

/-- `lwip_recvfrom` returned, and the loop went on: an error is followed by a pause of 1 ms. -/
def LwipPing.received (p : LwipPingParams) (s : LwipPing) (r : LwipPingRecv) : LwipPing :=
  let s := { s with now := s.now + r.blocked p, waited := s.waited + r.blocked p }
  match r with
  | .packet _ src packet =>
    let (counted, reads, recvLen, info) :=
      lwipPingPacket_ p s.info src packet (s.now % 2 ^ 32)
    { s with
      info := info
      pc := if counted then .report else .receive
      reads := s.reads ++ reads.map (·, recvLen)
      counted := if counted then s.counted ++ [⟨src, packet, s.info.icmpSeq⟩] else s.counted }
  | _ => s.spend 1

def lwipPingStep (p : LwipPingParams) (s : LwipPing) : LwipPingStep → Option LwipPing
  | .send took len =>
    if s.pc = .send then
      let s := s.spend took
      let (ret, info) := lwipPingSend_ p (lwipPingUpdate_ s.info) len (s.now % 2 ^ 32)
      some { s with info := info, pc := if ret = 0 then .receive else .report }
    else none
  | .receive took r =>
    if s.pc = .receive ∧ s.waits p (s.now + took) ∧ r.Possible p then
      some ((s.spend took).received p r)
    else none
  | .timeout took =>
    if s.pc = .receive ∧ !s.waits p (s.now + took) then
      some { s.spend took with info := { s.info with status := .recvTimeout }, pc := .report }
    else none
  | .report took =>
    if s.pc = .report then
      let s := s.spend took
      let now := s.now + (lwipPingWaitTime p s.info s.now).toNat
      let s := { s with
        i := s.i + 1
        now := now
        reports := s.reports ++ [lwipPingReport_ p s.info] }
      if s.i < p.count then
        some { s with
          pc := .send
          start := now
          waited := 0
          spent := 0
          gaps := s.gaps ++ [(now - s.start, s.spent)] }
      else some { s with pc := .done }
    else none

/-! ## What is asked of it -/

/-- The packet is an echo reply with that number and as much data. -/
def IsEchoReply (src : Option IpAddr) (packet : Bytes) (icmpSeq dataSize : ℕ) : Prop :=
  match src with
  | none => False
  | some (.v4 _) =>
    packet.length = ipHdrLen packet + 8 + dataSize ∧ byteAt packet (ipHdrLen packet) = 0 ∧
      ntohsAt packet (ipHdrLen packet + 4) = lwipPingId ∧
      ntohsAt packet (ipHdrLen packet + 6) = icmpSeq
  | some (.v6 _) =>
    packet.length = 40 + 8 + dataSize ∧ byteAt packet 6 = 58 ∧ byteAt packet 40 = 129 ∧
      ntohsAt packet 44 = lwipPingId ∧ ntohsAt packet 46 = icmpSeq

structure LwipPing.Kept (p : LwipPingParams) (s : LwipPing) : Prop where
  waited : s.waited ≤ p.interval
  gaps : ∀ g ∈ s.gaps, g.1 ≤ p.interval + g.2
  reads : ∀ r ∈ s.reads, r.1 < r.2
  counted : ∀ c ∈ s.counted, IsEchoReply c.src c.packet c.icmpSeq p.dataSize

/-- A packet of which `len` bytes were received is long enough for what is read of it. -/
def ReadsFit (src : Option IpAddr) (packet : Bytes) (len : ℕ) : Prop :=
  match src with
  | none => True
  | some (.v4 _) => 8 < len ∧ ipHdrLen packet + 8 ≤ len
  | some (.v6 _) => 6 < len ∧
    (byteAt packet 6 = 58 → 40 < len ∧ (byteAt packet 40 = 129 → 47 < len))

/-- Where the ICMP header of a packet is. -/
def icmpOffset (src : Option IpAddr) (packet : Bytes) : ℕ :=
  match src with
  | some (.v4 _) => ipHdrLen packet
  | _ => 40

/-- A packet of which `len` bytes were received has what is asked of the reply with that number. -/
def Passes (p : LwipPingParams) (icmpSeq : ℕ) (src : Option IpAddr) (packet : Bytes)
    (len : ℕ) : Prop :=
  src = some p.remoteIp ∧
    (p.remoteIp.isV6 = true → byteAt packet 6 = 58 ∧ byteAt packet 40 = 129) ∧
    ntohsAt packet (icmpOffset src packet + 4) = lwipPingId ∧
    ntohsAt packet (icmpOffset src packet + 6) = icmpSeq ∧
    len = icmpOffset src packet + 8 + p.dataSize

/-- A packet long enough for what is read of it that, if it passes for the reply, was received whole
and has the type of a reply, which is not asked of it in IPv4. -/
def LwipPing.PacketFits (p : LwipPingParams) (s : LwipPing) (src : Option IpAddr)
    (packet : Bytes) : Prop :=
  ReadsFit src packet (min packet.length p.replySize) ∧
    (Passes p s.info.icmpSeq src packet (min packet.length p.replySize) →
      packet.length ≤ p.replySize ∧
        (p.remoteIp.isV6 = false → byteAt packet (icmpOffset src packet) = 0))

/-- Where another request follows, the clock tells how long ago this one was sent: not so much that the
wait before the next is taken for a positive one, and not less than was waited. -/
def LwipPing.NextInTime (p : LwipPingParams) (s : LwipPing) (took : ℕ) : Prop :=
  s.i + 1 < p.count → clockSince (s.now + took) s.info.time ≤ p.interval + 2 ^ 31 ∧
    (clockSince (s.now + took) s.info.time ≤ p.interval →
      s.waited ≤ clockSince (s.now + took) s.info.time)

/-- The condition on a step: the socket's timeout comes where nothing was waited for yet, and a packet
or an error within what is left of the interval. -/
def LwipPing.InTime (p : LwipPingParams) (s : LwipPing) : LwipPingStep → Prop
  | .send _ _ => True
  | .receive _ .again => s.waited = 0
  | .receive _ (.packet blocked src packet) =>
    blocked ≤ p.interval - s.waited ∧ s.PacketFits p src packet
  | .receive _ (.error blocked) => blocked ≤ p.interval - s.waited
  | .timeout _ => True
  | .report took => s.NextInTime p took

instance decidableReadsFit : ∀ (src : Option IpAddr) (packet : Bytes) (len : ℕ),
    Decidable (ReadsFit src packet len)
  | none, _, _ => isTrue trivial
  | some (.v4 _), _, _ => inferInstanceAs (Decidable (_ ∧ _))
  | some (.v6 _), _, _ => inferInstanceAs (Decidable (_ ∧ _))

instance (p : LwipPingParams) (icmpSeq : ℕ) (src : Option IpAddr) (packet : Bytes) (len : ℕ) :
    Decidable (Passes p icmpSeq src packet len) :=
  inferInstanceAs (Decidable (_ ∧ _))

instance (p : LwipPingParams) (s : LwipPing) (src : Option IpAddr) (packet : Bytes) :
    Decidable (s.PacketFits p src packet) :=
  inferInstanceAs (Decidable (_ ∧ _))

instance (p : LwipPingParams) (s : LwipPing) (took : ℕ) : Decidable (s.NextInTime p took) :=
  inferInstanceAs (Decidable (_ → _ ∧ (_ → _)))

instance decidableInTime (p : LwipPingParams) (s : LwipPing) : DecidablePred (s.InTime p)
  | .send _ _ => isTrue trivial
  | .receive _ (.packet _ src packet) =>
    inferInstanceAs (Decidable (_ ∧ s.PacketFits p src packet))
  | .receive _ (.error _) => inferInstanceAs (Decidable (_ ≤ _))
  | .receive _ .again => inferInstanceAs (Decidable (_ = _))
  | .timeout _ => isTrue trivial
  | .report took => inferInstanceAs (Decidable (s.NextInTime p took))

end NrcAtcmd
