import NrcAtcmd.DataMode
import NrcAtcmd.Firmware

/-!
# The host downloads firmware

`nrc_atcmd_firmware_download` of `nrc-atcmd.c` against the target of `atcmd_basic.c` and
`atcmd_core.c`. The host sends its image in chunks of 4 KB, each after a command `AT+FWBINDL`, and
polls for the events of the target before it sends the next.

Both directions are ordered channels. The target takes a command as a line, and the data of a chunk
in calls of `atcmd_receive` of any size. What it prints as information is left out: the host's
`nrc_atcmd_send_cmd` only waits for `OK` or `ERROR`.
-/

namespace NrcAtcmd

/-- The commands of `nrc_atcmd_firmware_download`. -/
inductive HostCmd where
  | at
  | fwupdateSet (argv : List Bytes)
  | fwupdateGet
  | fwbindlSet (argv : List Bytes)
  | fwbindlGet
  deriving DecidableEq, Repr

/-- The line of a command. -/
def HostCmd.line : HostCmd → Bytes
  | .at => bytes "AT\r\n"
  | .fwupdateSet argv => bytes "AT+FWUPDATE=" ++ List.intercalate (bytes ",") argv ++ bytes "\r\n"
  | .fwupdateGet => bytes "AT+FWUPDATE?\r\n"
  | .fwbindlSet argv => bytes "AT+FWBINDL=" ++ List.intercalate (bytes ",") argv ++ bytes "\r\n"
  | .fwbindlGet => bytes "AT+FWBINDL?\r\n"

/-- What the host sends. -/
inductive HostMsg where
  | cmd (c : HostCmd)
  | data (buf : Bytes)
  deriving DecidableEq, Repr

def HostMsg.isData : HostMsg → Bool
  | .cmd _ => false
  | .data _ => true

def HostMsg.bytes : HostMsg → Bytes
  | .cmd c => c.line
  | .data buf => buf

/-- What the target sends. -/
inductive Reply where
  | ok
  | error
  | sevent (e : SocketEvent)
  | bevent (e : BasicEvent)
  deriving DecidableEq, Repr

/-- What a session sends to the host. -/
def replies (out : List Out) : List Reply :=
  out.filterMap fun
    | .ok => some .ok
    | .sevent e => some (.sevent e)
    | .bevent e => some (.bevent e)
    | .sink .. => none

/-! ## The target -/

/-- The firmware, and the chunks `_atcmd_firmware_download` accepted with the offset of each. -/
structure FirmwareLog (φ : Type*) where
  fw : Firmware φ
  accepted : List (UInt32 × Bytes)

variable {φ : Type*}

/-- The sinks of the target, of which `_atcmd_firmware_download` matters here. -/
def firmwareSink (D : UtilFota φ) (S : Sink (FirmwareLog φ)) : Sink (FirmwareLog φ) :=
  { S with
    atcmdFirmwareDownload := fun buf e =>
      let (len, fw) := atcmdFirmwareDownload_ D buf e.fw
      (len, { fw := fw
              accepted := if len = 0 then e.accepted
                else e.accepted ++ [(e.fw.update.download, buf)] }) }

/-- `_atcmd_basic_firmware_download_set`, with the timeout set for the command: the parameters of
the data mode it enables, if it does. -/
def atcmdBasicFirmwareDownloadSet_ (timeout : UInt32) (u : FirmwareUpdate) :
    List Bytes → Except AtcmdError (Option DataModeParams)
  | [] => .ok none
  | [offset, length] =>
    match atcmdParamToUint32 offset, atcmdParamToUint32 length with
    | some offset, some length =>
      if length = 0 ∨ atcmdDataLenMax < length.toNat then .error .inval
      else if offset = u.download then
        .ok (some
          { dataType := .fwbindl, id := -1, len := length.toNat
            timeout := if timeout = 0 then 1000 else timeout, doneEvent := true, exitCmd := none })
      else .error .inval
    | _, _ => .error .inval
  | _ => .error .inval

/-- The target takes a command: its session after it, and the return. -/
def targetCommand (D : UtilFota φ) (timeout now : UInt32) (s : Session (FirmwareLog φ)) :
    HostCmd → Session (FirmwareLog φ) × Reply
  | .at | .fwupdateGet | .fwbindlGet => (s, .ok)
  | .fwupdateSet argv =>
    let (ret, fw) := atcmdBasicFirmwareUpdateSet_ D argv s.rx.env.fw
    ({ s with rx := { s.rx with env := { s.rx.env with fw := fw } } },
      if ret = .success then .ok else .error)
  | .fwbindlSet argv =>
    match atcmdBasicFirmwareDownloadSet_ timeout s.rx.env.fw.update argv with
    | .error _ => (s, .error)
    | .ok none => (s, .ok)
    | .ok (some p) => match sessionStart p now s.rx with
      | some s => (s, .ok)
      | none => (s, .error)

/-! ## The host -/

/-- `g_atcmd_firmware_download_event`. -/
structure HostFlags where
  idle : Bool
  drop : Bool
  fail : Bool
  done : Bool
  deriving DecidableEq

def HostFlags.clear : HostFlags := ⟨false, false, false, false⟩

def nrcAtcmdFirmwareDownloadEventCallback (f : HostFlags) : BasicEvent → HostFlags
  | .fwbindlIdle .. => { f with idle := true }
  | .fwbindlDrop _ => { f with drop := true }
  | .fwbindlFail _ => { f with fail := true }
  | .fwbindlDone _ => { f with done := true }
  | _ => f

/-- What the host's receiver does with a message: it sets the return that `nrc_atcmd_send_cmd` waits
for, or calls the callback. -/
def hostHear (s : Option Bool × HostFlags) : Reply → Option Bool × HostFlags
  | .ok => (some true, s.2)
  | .error => (some false, s.2)
  | .bevent e => (s.1, nrcAtcmdFirmwareDownloadEventCallback s.2 e)
  | .sevent _ => s

/-- Where `nrc_atcmd_firmware_download` is: in the wait of `nrc_atcmd_send_cmd`, in the loop that
polls for events after a chunk was sent, or at its end. -/
inductive HostPc where
  | updateReset
  | updateSet
  | updateGet
  | downloadGet
  | chunk (offset : ℕ)
  | poll (offset : ℕ)
  | downloadGetDone
  | updateGetDone
  | abort
  | done (ret : ℤ)
  deriving DecidableEq, Repr

/-- The arguments of `nrc_atcmd_firmware_download`. `bin_size` is an `int`. -/
structure Image where
  binData : Bytes
  binSize_lt : binData.length < 2 ^ 31
  binCrc32 : UInt32
  verify : ℤ

/-- `length` of the chunk at `offset`. -/
def Image.length (im : Image) (offset : ℕ) : ℕ :=
  if 4096 ≤ im.binData.length - offset then 4096 else im.binData.length - offset

/-- The chunk at `offset`. -/
def Image.chunk (im : Image) (offset : ℕ) : Bytes :=
  (im.binData.drop offset).take (im.length offset)

/-- The host, the target, and what is in flight between them. -/
structure Download (φ : Type*) where
  pc : HostPc
  ret : Option Bool
  flags : HostFlags
  toTarget : List HostMsg
  toHost : List Reply
  target : Session (FirmwareLog φ)

/-- `nrc_atcmd_send_cmd`, up to its wait. -/
def Download.sendCmd (s : Download φ) (c : HostCmd) (pc : HostPc) : Download φ :=
  { s with pc := pc, ret := none, toTarget := s.toTarget ++ [.cmd c] }

/-- The arguments of `AT+FWUPDATE=%u,0x%X,%u`. -/
def Image.updateArgv (im : Image) : List Bytes :=
  [Decimal.ofNat im.binData.length,
    bytes "0x" ++ (Nat.toDigits 16 im.binCrc32.toNat).map fun c => UInt8.ofNat c.toUpper.toNat,
    Decimal.ofNat (im.verify % 2 ^ 32).toNat]

/-- The head of the loop over the chunks. -/
def Download.loop (im : Image) (offset : ℕ) (s : Download φ) : Download φ :=
  if offset < im.binData.length then
    { s with flags := .clear }.sendCmd
      (.fwbindlSet [Decimal.ofNat offset, Decimal.ofNat (im.length offset)]) (.chunk offset)
  else s.sendCmd .fwbindlGet .downloadGetDone

/-- The host goes on once it has the return or an event it waits for. -/
def Download.host (im : Image) (s : Download φ) : Option (Download φ) :=
  match s.pc with
  | .poll offset =>
    if s.flags = .clear then none
    else if !s.flags.done then some (s.sendCmd .at .abort)
    else some (s.loop im (offset + im.length offset))
  | .done _ => none
  | pc => s.ret.map fun ok =>
    if !ok then { s with pc := .done (-1) }
    else match pc with
      | .updateReset => s.sendCmd (.fwupdateSet im.updateArgv) .updateSet
      | .updateSet => s.sendCmd .fwupdateGet .updateGet
      | .updateGet => s.sendCmd .fwbindlGet .downloadGet
      | .downloadGet => s.loop im 0
      | .chunk offset =>
        { s with pc := .poll offset, toTarget := s.toTarget ++ [.data (im.chunk offset)] }
      | .downloadGetDone => s.sendCmd .fwupdateGet .updateGetDone
      | .updateGetDone => { s with pc := .done 0 }
      | _ => { s with pc := .done (-1) }

/-! ## Both of them -/

/-- What happens next. The host goes on, or gives up as a write fails or a wait ends without a
return, or takes a message. The target takes a command, or the next bytes, or a step of its session.
Bytes of a chunk that find no session are read as commands, to whatever effect. -/
inductive DownloadInput (φ : Type*) where
  | host
  | giveUp
  | deliver
  | command (now : UInt32)
  | receive (n : ℕ)
  | turn (now : UInt32)
  | tick (now : UInt32)
  | misread (out : List Reply) (target : Session (FirmwareLog φ))

/-- A step of the target's session, with what it sends to the host. -/
def Download.session (S : Sink (FirmwareLog φ)) (s : Download φ) (i : Input) :
    Option (Download φ) :=
  (sessionStep S s.target i).map fun target =>
    { s with
      target := target
      toHost := s.toHost ++ replies (target.rx.out.drop s.target.rx.out.length) }

/-- The steps of host and target, with the timeout set for `FWBINDL`. -/
def downloadStep (D : UtilFota φ) (S : Sink (FirmwareLog φ)) (timeout : UInt32) (im : Image)
    (s : Download φ) : DownloadInput φ → Option (Download φ)
  | .host => s.host im
  | .giveUp => match s.pc with
    | .done _ => none
    | _ => some { s with pc := .done (-1) }
  | .deliver => match s.toHost with
    | [] => none
    | m :: toHost =>
      let (ret, flags) := hostHear (s.ret, s.flags) m
      some { s with ret := ret, flags := flags, toHost := toHost }
  | .command now => match s.toTarget with
    | .cmd c :: toTarget =>
      if s.target.rx.mode.enable = false ∧ s.target.rest = [] then
        let (target, ret) := targetCommand D timeout now s.target c
        some { s with toTarget := toTarget, toHost := s.toHost ++ [ret], target := target }
      else none
    | _ => none
  | .receive n => match s.toTarget with
    | m :: toTarget =>
      if 0 < n ∧ n ≤ m.bytes.length then
        { s with
          toTarget := if n = m.bytes.length then toTarget
            else .data (m.bytes.drop n) :: toTarget }.session (firmwareSink D S)
          (.receive (m.bytes.take n))
      else none
    | [] => none
  | .turn now => s.session (firmwareSink D S) (.turn now)
  | .tick now => s.session (firmwareSink D S) (.tick now)
  | .misread out target =>
    if s.target.rx.mode.enable = false ∧ (s.target.rest ≠ []
        ∨ (s.toTarget.head?.map HostMsg.isData).getD false) then
      some { s with
        toTarget := if s.target.rest ≠ [] then s.toTarget else s.toTarget.tail
        toHost := s.toHost ++ out, target := target }
    else none

/-- The host has sent its first command to a target between two sessions. -/
def downloadStart (fw : Firmware φ) (flags : HostFlags) (rx : Receiver (FirmwareLog φ)) :
    Download φ where
  pc := .updateReset
  ret := none
  flags := flags
  toTarget := [.cmd (.fwupdateSet [bytes "0"])]
  toHost := []
  target := { rx := { rx with env := { fw := fw, accepted := [] } }, rest := [] }

/-- The host is about to go on after its last chunk, and has heard that it was dropped as well as that
it is done. -/
def Download.MissesDrop (im : Image) (s : Download φ) : Prop :=
  match s.pc with
  | .poll offset => im.binData.length ≤ offset + im.length offset ∧ s.flags.drop = true
      ∧ s.flags.done = true
  | _ => False

/-- The bytes the target reads next complete the exit command of its session. -/
def Download.Exits (s : Download φ) : Prop :=
  s.target.rx.mode.idle = true ∧
    match exitScan s.target.rx.mode.params.exit s.target.rx.cntExitCmd 0 s.target.rest with
    | .matched _ => True
    | _ => False

/-- The host takes a dropped last chunk for success, or the target takes data for the exit
command. -/
def Misjudges (im : Image) (s : Download φ) : DownloadInput φ → Prop
  | .host => s.MissesDrop im
  | .turn _ => s.Exits
  | _ => False

instance (im : Image) (s : Download φ) : Decidable (s.MissesDrop im) := by
  unfold Download.MissesDrop
  split <;> infer_instance

instance (s : Download φ) : Decidable s.Exits := by
  unfold Download.Exits
  split <;> infer_instance

instance (im : Image) (s : Download φ) : DecidablePred (Misjudges im s)
  | .host => inferInstanceAs (Decidable (s.MissesDrop im))
  | .turn _ => inferInstanceAs (Decidable s.Exits)
  | .giveUp | .deliver | .command _ | .receive _ | .tick _ | .misread .. => isFalse id

end NrcAtcmd
