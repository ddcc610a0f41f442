import NrcAtcmd.FirmwareDownload

/-!
# The image that is downloaded

The target while it takes `AT+FWUPDATE` and `AT+FWBINDL` commands and the data of their chunks. Bytes
that come while no session runs are read as commands; which command they make is an input here, so
they may be any.
-/

namespace NrcAtcmd

open Memory

variable {φ : Type*} {ε : Type*}

/-- The block that the next turn of the loop of `atcmd_receive` hands to the sink, in a session
without passthrough. -/
def Session.handsOver (s : Session ε) : Option Bytes :=
  let m := s.rx.mode
  if !m.enable || s.rest.isEmpty then none
  else if m.idle ∧ exitScan m.params.exit s.rx.cntExitCmd 0 s.rest ≠ .mismatch then none
  else if m.cnt + s.rest.length < m.sendLen then none
  else if 0 < m.cnt then
    some ((memcpy s.rx.buf m.cnt (s.rest.take (m.sendLen - m.cnt))).take m.sendLen)
  else some (s.rest.take m.sendLen)

/-- The target, and its log when `AT+FWUPDATE` last declared a size, or gave it up. -/
structure FirmwareTarget (φ : Type*) where
  session : Session (FirmwareLog φ)
  since : FirmwareLog φ

namespace FirmwareTarget

def fw (t : FirmwareTarget φ) : Firmware φ := t.session.rx.env.fw

/-- The chunks that were accepted since. -/
def chunks (t : FirmwareTarget φ) : List Bytes :=
  (t.session.rx.env.accepted.drop t.since.accepted.length).map (·.2)

def boot (x : φ) : FirmwareTarget φ where
  session := { rx := .boot ⟨.boot x, []⟩, rest := [] }
  since := ⟨.boot x, []⟩

end FirmwareTarget

/-- What happens next: a command, after which `n` of the bytes the running call of `atcmd_receive`
brought are taken, or a step of the session, or a call of `atcmd_receive` between two sessions. -/
inductive TargetInput where
  | command (now : UInt32) (c : HostCmd) (n : ℕ)
  | session (i : Input)
  | receive (buf : Bytes)
  deriving DecidableEq

/-- The steps of the target, with the timeout set for `FWBINDL`. -/
def targetStep (D : UtilFota φ) (S : Sink (FirmwareLog φ)) (timeout : UInt32)
    (t : FirmwareTarget φ) : TargetInput → Option (FirmwareTarget φ)
  | .command now c n =>
    if t.session.rx.mode.enable then none
    else
      let (s, ret) := targetCommand D timeout now t.session c
      let s := { s with rest := t.session.rest.drop n }
      some { session := s
             since := match c, ret with
              | .fwupdateSet _, .ok => s.rx.env
              | _, _ => t.since }
  | .session i =>
    (sessionStep (firmwareSink D S) t.session i).map fun s => { t with session := s }
  | .receive buf =>
    if t.session.rx.mode.enable ∨ t.session.rest ≠ [] then none
    else some { t with session := { t.session with rest := buf } }

/-! ## Where it is written -/

/-- The driver, with the offset and the length of every write. -/
def UtilFota.logged (D : UtilFota φ) : UtilFota (φ × List (ℕ × ℕ)) where
  maxFwSize := D.maxFwSize
  calCrc := D.calCrc
  cells x := D.cells x.1
  info x := D.info x.1
  read off len x := ((D.read off len x.1).1, (D.read off len x.1).2.1, (D.read off len x.1).2.2, x.2)
  write off buf x := ((D.write off buf x.1).1, (D.write off buf x.1).2, x.2 ++ [(off, buf.length)])
  erase off len x := ((D.erase off len x.1).1, (D.erase off len x.1).2, x.2)
  eraseInfo x := (D.eraseInfo x.1, x.2)
  setInfo size crc x := (D.setInfo size crc x.1, x.2)
  setReady ready x := (D.setReady ready x.1, x.2)
  read_cells off len x := D.read_cells off len x.1
  read_info off len x := D.read_info off len x.1
  write_cells off buf x := D.write_cells off buf x.1
  write_info off buf x := D.write_info off buf x.1
  erase_cells off len x := D.erase_cells off len x.1
  erase_info off len x := D.erase_info off len x.1
  eraseInfo_info x := D.eraseInfo_info x.1
  setInfo_cells size crc x := D.setInfo_cells size crc x.1
  setInfo_info size crc x := D.setInfo_info size crc x.1
  setReady_cells ready x := D.setReady_cells ready x.1
  setReady_info ready x := D.setReady_info ready x.1

/-- The writes since `AT+FWUPDATE` last declared a size. -/
def FirmwareTarget.writes (t : FirmwareTarget (φ × List (ℕ × ℕ))) : List (ℕ × ℕ) :=
  t.fw.flash.2.drop t.since.fw.flash.2.length

/-- The download and its writes stay inside the size that was declared. -/
structure FirmwareTarget.Bounded (t : FirmwareTarget (φ × List (ℕ × ℕ))) : Prop where
  download : t.fw.update.download ≤ t.fw.update.size
  writes : ∀ w ∈ t.writes, w.1 + w.2 ≤ t.fw.update.size.toNat

/-- The step hands over a chunk that ends behind the size that was declared. -/
def Overruns (t : FirmwareTarget φ) : TargetInput → Prop
  | .session (.turn _) => ∃ block ∈ t.session.handsOver,
      t.fw.update.size.toNat < t.fw.update.download.toNat + block.length
  | _ => False

/-! ## What it holds -/

/-- These cells are erased. -/
def UtilFota.Erased (D : UtilFota φ) (x : φ) (off len : ℕ) : Prop :=
  ∀ i < len, D.cells x (off + i) = 255

instance (D : UtilFota φ) (x : φ) (off len : ℕ) : Decidable (D.Erased x off len) :=
  inferInstanceAs (Decidable (∀ i < len, _))

/-- What the driver does where it succeeds: a write stores its bytes in cells that are erased, an
erase erases its sectors, and a read returns what the cells hold. -/
structure UtilFota.Stores (D : UtilFota φ) : Prop where
  write : ∀ off buf x, D.Erased x off buf.length → (D.write off buf x).1 = 0 →
    ∀ i, (h : i < buf.length) → D.cells (D.write off buf x).2 (off + i) = buf[i]
  erase : ∀ off len x, (D.erase off len x).1 = 0 → D.Erased (D.erase off len x).2 off len
  read : ∀ off len x, (D.read off len x).1 = 0 →
    (D.read off len x).2.1 = (List.range len).map fun i => D.cells x (off + i)

/-- The flash holds the chunks that were accepted, up to the download counter. -/
def FirmwareTarget.Holds (D : UtilFota φ) (t : FirmwareTarget φ) : Prop :=
  Attested.image (D.cells t.fw.flash) t.fw.update.download.toNat = t.chunks.flatten

/-- The step hands over a chunk that does not begin at a sector and is not written at the first try,
or one that is written at the first try over cells that are not erased and is not verified, or one
that the counter wraps at. -/
def Destroys (D : UtilFota φ) (t : FirmwareTarget φ) : TargetInput → Prop
  | .session (.turn _) => ∃ block ∈ t.session.handsOver,
      let off := t.fw.update.download.toNat
      let ret := (firmwareDownloadTry D t.fw.update.verify off block t.fw.flash).1
      (¬ 4096 ∣ off ∧ ret ≠ 0)
      ∨ (ret = 0 ∧ t.fw.update.verify ≤ 0 ∧ ¬ D.Erased t.fw.flash off block.length)
      ∨ 2 ^ 32 ≤ off + block.length
  | _ => False

instance (t : FirmwareTarget φ) : DecidablePred (Overruns t)
  | .session (.turn _) => by unfold Overruns; infer_instance
  | .session (.receive _) | .session (.tick _) | .command .. | .receive _ => isFalse id

instance (D : UtilFota φ) (t : FirmwareTarget φ) : DecidablePred (Destroys D t)
  | .session (.turn _) => by unfold Destroys; infer_instance
  | .session (.receive _) | .session (.tick _) | .command .. | .receive _ => isFalse id

end NrcAtcmd
