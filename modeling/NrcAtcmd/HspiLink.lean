import NrcAtcmd.CommandLink
import NrcAtcmd.Hspi

/-!
# Commands over the HSPI

The link of `CommandLink.lean` where both ways are queues of slots. `nrc_atcmd_send` writes until
all is written or a write fails, `_hif_rx_task` reads and calls `atcmd_receive` with what it read,
`atcmd_transmit` writes until all is written, and the thread of `raspi_cli_recv_thread` reads and
calls `nrc_atcmd_recv`. Each pass of these loops is a step.

`link` forgets the slots: what is on the way is what was written and not read, and what is left to
write.
-/

namespace NrcAtcmd

/-- Both ends, the queue of each way, and what the running `nrc_atcmd_send` and the running
`atcmd_transmit` have not written yet. -/
structure HspiLink (ε : Type*) where
  host : HostSync
  recv : HostRecv
  sending : Bytes
  rx : Hspi
  tx : Hspi
  transmitting : Bytes
  device : Device ε
  written : ℕ
  ops : List HostOp

def HspiLink.boot {ε : Type*} (rxSlots txSlots : HspiSlots) (e : ε) : HspiLink ε where
  host := .boot
  recv := .boot
  sending := []
  rx := rxSlots.start true
  tx := txSlots.start true
  transmitting := []
  device := .boot e
  written := 0
  ops := []

/-- What happens next. `send` and `data` enter `nrc_atcmd_send`, `write` and `print` enter
`atcmd_transmit`. -/
inductive HspiInput where
  | host (i : SyncInput)
  | send
  | data (data : Bytes)
  | rxStatus (new : Option HspiStatus)
  | txStatus (new : Option HspiStatus)
  | nrcAtcmdSend (new : Option HspiStatus)
  | hifRxTask (buf : Bytes) (count : ℕ)
  | turn (now : UInt32)
  | tick (now : UInt32)
  | write
  | print (m : TargetMsg)
  | atcmdTransmit (count : ℕ)
  | hear (len : ℕ) (new : Option HspiStatus)

/-- What a step of a queue brought to the other end. -/
def Hspi.brought (s s' : Hspi) : Bytes := s'.received.drop s.received.length

namespace HspiLink

variable {ε : Type*} (S : Sink ε) (groups : List (AtcmdGroup ε)) (strerror : ℤ → Bytes)
  (rxSlots txSlots : HspiSlots)

/-- A pass of the loop of `nrc_atcmd_send`. An error ends it, and the command with it. -/
def nrcAtcmdSend (new : Option HspiStatus) (s : HspiLink ε) : Option (HspiLink ε) :=
  if s.sending = [] then none
  else (hspiRxStep rxSlots s.rx (.write s.sending new)).map fun rx =>
    let ret := (hspiWrite s.rx.host new (fun _ => true) s.sending).1
    if ret < 0 then
      { s with
        rx := rx, sending := []
        host := if s.host.pc = .sent then s.host.leave false .error else s.host }
    else { s with rx := rx, sending := s.sending.drop ret.toNat }

/-- A pass of `_hif_rx_task`, once `atcmd_receive` returned from the last. -/
def hifRxTask_ (buf : Bytes) (count : ℕ) (s : HspiLink ε) : Option (HspiLink ε) :=
  if s.written = s.device.messages.length ∧ s.device.rest = [] then
    (hspiRxStep rxSlots s.rx (.read buf count)).bind fun rx =>
      if s.rx.brought rx = [] then some { s with rx := rx }
      else (deviceStep S groups s.device (.receive (s.rx.brought rx))).map fun device =>
        { s with rx := rx, device := device }
  else none

/-- A pass of the loop of `atcmd_transmit`. -/
def atcmdTransmit (count : ℕ) (s : HspiLink ε) : Option (HspiLink ε) :=
  if s.transmitting = [] then none
  else (hspiTxStep txSlots s.tx (.write s.transmitting count)).map fun tx =>
    { s with
      tx := tx
      transmitting := s.transmitting.drop
        (hifHspiWrite_ txSlots.num s.tx.target count s.transmitting).1 }

/-- A pass of `raspi_cli_recv_thread`. -/
def hear (len : ℕ) (new : Option HspiStatus) (s : HspiLink ε) : Option (HspiLink ε) :=
  (hspiTxStep txSlots s.tx (.read len new)).map fun tx =>
    let recv := nrcAtcmdRecv (fun _ => true) (s.tx.brought tx) s.recv
    { s with
      tx := tx
      recv := recv
      host := (recv.calls.drop s.recv.calls.length).foldl HostSync.told s.host }

/-- The steps of the link over the HSPI. -/
def step (s : HspiLink ε) : HspiInput → Option (HspiLink ε)
  | .host (.recv ..) | .host (.send _) => none
  | .host i =>
    if s.sending = [] then (syncStep s.host i).map fun host => { s with host := host } else none
  | .send =>
    if s.sending = [] then (syncStep s.host (.send 0)).map fun host =>
      { s with host := host, sending := s.host.cmd, ops := s.ops ++ [.cmd s.host.cmd] }
    else none
  | .data data =>
    if s.host.pc = .idle ∧ s.sending = [] then
      some { s with sending := data, ops := s.ops ++ [.data data] }
    else none
  | .rxStatus new => (hspiRxStep rxSlots s.rx (.status new)).map fun rx => { s with rx := rx }
  | .txStatus new => (hspiTxStep txSlots s.tx (.status new)).map fun tx => { s with tx := tx }
  | .nrcAtcmdSend new => s.nrcAtcmdSend rxSlots new
  | .hifRxTask buf count => s.hifRxTask_ S groups rxSlots buf count
  | .turn now =>
    if s.written = s.device.messages.length then
      (deviceStep S groups s.device (.turn now)).map fun device => { s with device := device }
    else none
  | .tick now => (deviceStep S groups s.device (.tick now)).map fun device =>
      { s with device := device }
  | .write =>
    if s.transmitting = [] then s.device.messages[s.written]?.map fun m =>
      { s with transmitting := m.wire strerror, written := s.written + 1 }
    else none
  | .print m => if s.transmitting = [] then some { s with transmitting := m.wire strerror } else none
  | .atcmdTransmit count => s.atcmdTransmit txSlots count
  | .hear len new => s.hear txSlots len new

/-- The link without its slots. -/
def link (s : HspiLink ε) : CommandLink ε where
  host := s.host
  recv := s.recv
  down := s.rx.sent.drop s.rx.received.length ++ s.sending
  up := s.tx.sent.drop s.tx.received.length ++ s.transmitting
  device := s.device
  written := s.written
  ops := s.ops

/-- What the step is to the link, unless it only moves what is on the way. -/
def input (s : HspiLink ε) : HspiInput → Option LinkInput
  | .host i => some (.host i)
  | .send => some (.send none)
  | .data data => some (.data data)
  | .rxStatus _ | .txStatus _ | .nrcAtcmdSend _ | .atcmdTransmit _ => none
  | .hifRxTask buf count => (hspiRxStep rxSlots s.rx (.read buf count)).map fun rx =>
      .deliver (s.rx.brought rx).length
  | .turn now => some (.turn now)
  | .tick now => some (.tick now)
  | .write => some .write
  | .print m => some (.print m)
  | .hear len new => (hspiTxStep txSlots s.tx (.read len new)).map fun tx =>
      .hear (s.tx.brought tx).length

/-- A write of the host fails. -/
def Fails (s : HspiLink ε) : HspiInput → Prop
  | .nrcAtcmdSend new => (hspiWrite s.rx.host new (fun _ => true) s.sending).1 < 0
  | _ => False

instance (s : HspiLink ε) (i : HspiInput) : Decidable (s.Fails i) := by
  unfold Fails
  split <;> infer_instance

/-- A write fails, or the step crosses on the link. -/
def Crosses (e : ε) (s : HspiLink ε) : HspiInput → Prop
  | .nrcAtcmdSend new => s.Fails (.nrcAtcmdSend new)
  | i => ∃ j ∈ s.input rxSlots txSlots i, s.link.Crosses S groups strerror e j

instance (e : ε) (s : HspiLink ε) (i : HspiInput) :
    Decidable (s.Crosses S groups strerror rxSlots txSlots e i) := by
  unfold Crosses
  split <;> infer_instance

end HspiLink

end NrcAtcmd
