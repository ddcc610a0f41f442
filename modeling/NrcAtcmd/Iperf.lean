import NrcAtcmd.Lib.Checked
import NrcAtcmd.Lib.Machine

/-!
# The UDP server of iperf

`iperf_udp_server_recv` of `nrc-iperf.c`: what a received datagram does to the counters of the
server. The times, the jitter, the client's address and the limits of a test are left out, for the
function only writes them. The counters are `int32_t`, and a sum that leaves the range has no result
(`int32`).
-/

namespace NrcAtcmd

open Checked

/-- A datagram of `len` bytes: the header's `id`, in the byte order of the host. -/
structure IperfDatagram where
  len : ℤ
  id : ℤ
  mem : -2 ^ 31 ≤ id ∧ id < 2 ^ 31

/-- `iperf_udp_server_info_t`. -/
structure IperfServerInfo where
  start : Bool
  done : Bool
  recvByte : UInt32
  datagramCnt : ℤ
  datagramSeq : ℤ
  errorCnt : ℤ
  outoforderCnt : ℤ
  deriving DecidableEq

namespace IperfServerInfo

/-- `iperf_udp_server_init_info`. -/
def init : IperfServerInfo := ⟨false, false, 0, 0, 0, 0, 0⟩

/-- The branch for a datagram that does not open a test. -/
def count (info : IperfServerInfo) (len id : ℤ) : Option IperfServerInfo := do
  let cnt ← int32 (info.datagramCnt + 1)
  let seq ← int32 (info.datagramSeq + 1)
  let info := { info with
    recvByte := info.recvByte + .ofInt len
    datagramCnt := cnt
    datagramSeq := seq }
  if id < 0 then
    let id ← int32 (-id)
    some { info with done := true, datagramSeq := id }
  else if id < seq then
    let outoforder ← int32 (info.outoforderCnt + 1)
    some { info with
      datagramCnt := cnt - 1
      datagramSeq := seq - 1
      outoforderCnt := outoforder }
  else if seq < id then
    let lost ← int32 (id - seq)
    let error ← int32 (info.errorCnt + lost)
    some { info with errorCnt := error, datagramSeq := id }
  else some info

/-- `iperf_udp_server_recv`. -/
def recv (info : IperfServerInfo) (datagram : IperfDatagram) : Option IperfServerInfo :=
  if 12 ≤ datagram.len ∧ datagram.len ≤ 1470 then
    if datagram.id = 0 ∨ (0 < datagram.id ∧ info.start = false) then
      some { info with datagramCnt := 0, datagramSeq := 0, errorCnt := 0, start := true }
    else info.count datagram.len datagram.id
  else some info

/-- The counted datagrams and the counted lost ones are those the sequence has come to. -/
structure Balanced (info : IperfServerInfo) : Prop where
  sum : info.datagramCnt + info.errorCnt = info.datagramSeq
  datagramCnt : 0 ≤ info.datagramCnt
  datagramSeq : 0 ≤ info.datagramSeq
  errorCnt : 0 ≤ info.errorCnt
  outoforderCnt : 0 ≤ info.outoforderCnt

/-- A final datagram has the next id, and no counter that goes up has reached its maximum. -/
def Regular (info : IperfServerInfo) (datagram : IperfDatagram) : Prop :=
  12 ≤ datagram.len ∧ datagram.len ≤ 1470 ∧ datagram.id ≠ 0 →
    info.datagramSeq + 1 < 2 ^ 31
      ∧ (datagram.id < 0 → -datagram.id = info.datagramSeq + 1)
      ∧ (0 < datagram.id → datagram.id ≤ info.datagramSeq → info.outoforderCnt + 1 < 2 ^ 31)

instance (info : IperfServerInfo) (datagram : IperfDatagram) :
    Decidable (info.Regular datagram) := by
  unfold Regular
  infer_instance

end IperfServerInfo

end NrcAtcmd
