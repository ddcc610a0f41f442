import NrcAtcmd.Lib.Attest
import NrcAtcmd.Lib.Machine
import NrcAtcmd.Param

/-!
# Firmware updates

Two downloads write the firmware area: the chunks of `AT+FWBINDL` (`atcmd_basic.c`) and the blocks
an HTTP server sends to the FOTA task (`atcmd_fota.c`). Each checks a CRC of the area in the end,
and puts size and CRC on record with a flag that tells the boot loader to install them.

The flash driver `util_fota` is a library. `UtilFota` says what the code relies on; whether a write,
a read or an erase fails, and what it leaves in its range then, is part of the driver's state.
-/

namespace NrcAtcmd

/-- The record of the update that is ready. -/
structure FotaInfo where
  ready : Bool
  size : UInt32
  crc : UInt32
  deriving DecidableEq

/-- The flash erases whole sectors of 4 KB. -/
def sectorStart (offset : ℕ) : ℕ := offset / 4096 * 4096

/-- `util_fota`: the firmware area and the record, as functions of the driver's state. -/
structure UtilFota (φ : Type*) where
  maxFwSize : UInt32
  calCrc : Bytes → UInt32
  cells : φ → ℕ → UInt8
  info : φ → FotaInfo
  read : ℕ → ℕ → φ → ℤ × Bytes × φ
  write : ℕ → Bytes → φ → ℤ × φ
  erase : ℕ → ℕ → φ → ℤ × φ
  eraseInfo : φ → φ
  setInfo : UInt32 → UInt32 → φ → φ
  setReady : Bool → φ → φ
  read_cells : ∀ off len x, cells (read off len x).2.2 = cells x
  read_info : ∀ off len x, info (read off len x).2.2 = info x
  write_cells : ∀ off buf x i, i < off ∨ off + buf.length ≤ i →
    cells (write off buf x).2 i = cells x i
  write_info : ∀ off buf x, info (write off buf x).2 = info x
  erase_cells : ∀ off len x i, i < sectorStart off ∨ sectorStart (off + len + 4095) ≤ i →
    cells (erase off len x).2 i = cells x i
  erase_info : ∀ off len x, info (erase off len x).2 = info x
  eraseInfo_info : ∀ x, info (eraseInfo x) = ⟨false, 0, 0⟩
  setInfo_cells : ∀ size crc x, cells (setInfo size crc x) = cells x
  setInfo_info : ∀ size crc x, info (setInfo size crc x) = ⟨(info x).ready, size, crc⟩
  setReady_cells : ∀ ready x, cells (setReady ready x) = cells x
  setReady_info : ∀ ready x,
    info (setReady ready x) = ⟨ready, (info x).size, (info x).crc⟩

/-- `g_firmware_update`. -/
structure FirmwareUpdate where
  size : UInt32
  crc32 : UInt32
  download : UInt32
  verify : ℤ
  deriving DecidableEq

/-- The firmware binary of `g_atcmd_fota.info` that is updated, the statics of
`_atcmd_fota_fw_update_callback`, and whether `_atcmd_fota_httpc_get` runs. -/
structure Fota where
  name : Bytes
  size : UInt32
  crc32 : UInt32
  cnt : UInt32
  event : UInt32
  busy : Bool
  deriving DecidableEq

/-- Both downloads, the flash, and the events of the FOTA task. -/
structure Firmware (φ : Type*) where
  update : FirmwareUpdate
  fota : Fota
  flash : φ
  out : List FotaEvent

variable {φ : Type*}

/-- Both downloads after a reset. -/
def Firmware.boot (x : φ) : Firmware φ where
  update := { size := 0, crc32 := 0, download := 0, verify := 0 }
  fota := { name := [], size := 0, crc32 := 0, cnt := 0, event := 0, busy := false }
  flash := x
  out := []

/-- `util_fota_cal_crc` of the first `size` bytes at `util_fota_fw_addr`. -/
def UtilFota.areaCrc (D : UtilFota φ) (x : φ) (size : UInt32) : UInt32 :=
  D.calCrc (Attested.image (D.cells x) size.toNat)

/-! ## The download by command -/

/-- `_atcmd_firmware_verify`: zero where the flash holds `buf`. -/
def atcmdFirmwareVerify_ (D : UtilFota φ) (offset : ℕ) (buf : Bytes) (x : φ) : ℤ × φ :=
  let (ret, readBuf, x) := D.read offset buf.length x
  (if ret ≠ 0 then ret else if readBuf = buf then 0 else 1, x)

/-- A pass of the loop of `_atcmd_firmware_download` up to its test of `ret`. -/
def firmwareDownloadTry (D : UtilFota φ) (verify : ℤ) (offset : ℕ) (buf : Bytes) (x : φ) : ℤ × φ :=
  let (ret, x) := D.write offset buf x
  if ret ≠ 0 then (ret, x)
  else if 0 < verify then atcmdFirmwareVerify_ D offset buf x
  else (0, x)

/-- The loop of `_atcmd_firmware_download`. -/
def firmwareDownloadLoop (D : UtilFota φ) (verify : ℤ) (offset : ℕ) (buf : Bytes) (x : φ) : ℤ × φ :=
  let (ret, x) := firmwareDownloadTry D verify offset buf x
  if ret = 0 then (0, x)
  else
    let (ret, x) := D.erase offset buf.length x
    if ret ≠ 0 then (ret, x) else firmwareDownloadTry D verify offset buf x

def atcmdFirmwareDownload_ (D : UtilFota φ) (buf : Bytes) (fw : Firmware φ) : ℕ × Firmware φ :=
  let u := fw.update
  let (ret, x) := firmwareDownloadLoop D u.verify u.download.toNat buf fw.flash
  let len := if ret ≠ 0 then 0 else buf.length
  (len, { fw with update := { u with download := u.download + .ofNat len }, flash := x })

def atcmdBasicFirmwareUpdateRun_ (D : UtilFota φ) (fw : Firmware φ) : AtcmdError × Firmware φ :=
  let u := fw.update
  if u.size = 0 ∨ D.maxFwSize < u.size ∨ u.crc32 = 0 then (.inval, fw)
  else if D.areaCrc fw.flash u.size ≠ u.crc32 then (.fail, fw)
  else (.success, { fw with flash := D.setReady true (D.setInfo u.size u.crc32 fw.flash) })

/-- `verify` of `_atcmd_basic_firmware_update_set`, from the parameters after the size. -/
def firmwareUpdateVerify : List Bytes → Except AtcmdError ℤ
  | [] | [_] => .ok 0
  | [_, verify] => if atoi verify < 0 ∨ 2 < atoi verify then .error .inval else .ok (atoi verify)
  | _ => .error .inval

/-- `crc32`, from the parameters after the size. -/
def firmwareUpdateCrc32 : List Bytes → Except AtcmdError UInt32
  | [] => .ok 0
  | crc32 :: _ => match atcmdParamToHex crc32 with
    | none => .error .inval
    | some crc32 => if crc32 = 0 then .error .inval else .ok crc32

/-- `size`. -/
def firmwareUpdateSize (size : Bytes) : Except AtcmdError UInt32 :=
  match atcmdParamToUint32 size with
  | none => .error .inval
  | some size => .ok size

/-- Whether the update `u` gives way to one of the size and CRC. -/
def firmwareUpdateCheck (D : UtilFota φ) (u : FirmwareUpdate) (size crc32 : UInt32) :
    Except AtcmdError Unit :=
  if size = 0 ∧ crc32 = 0 then .ok ()
  else if 0 < size ∧ 0 < crc32 ∧ size ≤ D.maxFwSize then
    if u.size = 0 ∧ u.crc32 = 0 then .ok () else .error .busy
  else .error .inval

/-- The parameters of `_atcmd_basic_firmware_update_set`, which without any prints its help. -/
def firmwareUpdateParams (D : UtilFota φ) (u : FirmwareUpdate) :
    List Bytes → Except AtcmdError (UInt32 × UInt32 × ℤ)
  | [] => .ok (0, 0, 0)
  | size :: argv => do
    let verify ← firmwareUpdateVerify argv
    let crc32 ← firmwareUpdateCrc32 argv
    let size ← firmwareUpdateSize size
    firmwareUpdateCheck D u size crc32
    .ok (size, crc32, verify)

def atcmdBasicFirmwareUpdateSet_ (D : UtilFota φ) (argv : List Bytes) (fw : Firmware φ) :
    AtcmdError × Firmware φ :=
  match firmwareUpdateParams D fw.update argv with
  | .error ret => (ret, fw)
  | .ok (size, crc32, verify) =>
    let x := if 0 < size then (D.erase 0 size.toNat fw.flash).2 else fw.flash
    (.success, { fw with
      update := { size := size, crc32 := crc32, download := 0, verify := verify }
      flash := D.eraseInfo x })

/-! ## The download by the FOTA task -/

def atcmdFotaFwUpdateCallback_ (D : UtilFota φ) (data : Bytes) (total : UInt32) (fw : Firmware φ) :
    ℤ × Firmware φ :=
  let f := fw.fota
  if data = [] ∨ total = 0 then (-1, { fw with fota := { f with cnt := 0, event := 0 } })
  else if f.cnt = 0 ∧ D.maxFwSize < total then (-1, fw)
  else
    let (x, event) := if f.cnt = 0 then ((D.erase 0 D.maxFwSize.toNat fw.flash).2, total / 10)
      else (fw.flash, f.event)
    let x := (D.write f.cnt.toNat data x).2
    let cnt := f.cnt + .ofNat data.length
    let (out, event) := if event ≤ cnt then (fw.out ++ [.download total cnt], event + total / 10)
      else (fw.out, event)
    let (size, cnt) := if cnt = total then (total, 0) else (f.size, cnt)
    (0, { fw with
      fota := { f with size := size, cnt := cnt, event := event }, flash := x, out := out })

/-- The end of `_atcmd_fota_fw_update`, once `_atcmd_fota_httpc_get` returned zero. -/
def atcmdFotaFwUpdateCheck (D : UtilFota φ) (fw : Firmware φ) : ℤ × Firmware φ :=
  let f := fw.fota
  if f.size = 0 then (-1, fw)
  else if D.maxFwSize < f.size then (-1, fw)
  else if D.areaCrc fw.flash f.size ≠ f.crc32 then (-1, fw)
  else (0, { fw with
    flash := D.setReady true (D.setInfo f.size f.crc32 fw.flash)
    out := fw.out ++ [.update f.name f.size f.crc32] })

/-- The end of `_atcmd_fota_task`. -/
def atcmdFotaTaskExit (failed : Bool) (fw : Firmware φ) : Firmware φ :=
  { fw with
    fota := { fw.fota with name := [], size := 0, crc32 := 0, busy := false }
    out := if failed then fw.out ++ [.fail] else fw.out }

/-- What happens next. A download of the FOTA task starts, brings a block or ends. -/
inductive FirmwareInput where
  | updateSet (argv : List Bytes)
  | updateRun
  | download (offset : UInt32) (data : Bytes)
  | fotaStart (name : Bytes) (crc32 : UInt32)
  | fotaBlock (data : Bytes) (total : UInt32)
  | fotaEnd (ret : ℤ)
  deriving DecidableEq, Repr

/-- The steps of both downloads. `AT+FWBINDL` takes a chunk for the offset it expects only. -/
def firmwareStep (D : UtilFota φ) (fw : Firmware φ) : FirmwareInput → Option (Firmware φ)
  | .updateSet argv => some (atcmdBasicFirmwareUpdateSet_ D argv fw).2
  | .updateRun => some (atcmdBasicFirmwareUpdateRun_ D fw).2
  | .download offset data =>
    if offset = fw.update.download ∧ data ≠ [] ∧ data.length ≤ 4096 then
      some (atcmdFirmwareDownload_ D data fw).2
    else none
  | .fotaStart name crc32 =>
    if fw.fota.busy then none
    else if bytes ".bin" <:+: name then
      some { fw with
        fota := { fw.fota with name := name, crc32 := crc32, busy := true }
        out := fw.out ++ [.binary name] }
    else some (atcmdFotaTaskExit true fw)
  | .fotaBlock data total =>
    if fw.fota.busy ∧ data ≠ [] ∧ total ≠ 0 then
      let (ret, fw) := atcmdFotaFwUpdateCallback_ D data total fw
      some (if ret < 0 then atcmdFotaTaskExit true (atcmdFotaFwUpdateCallback_ D [] 0 fw).2 else fw)
    else none
  | .fotaEnd ret =>
    if fw.fota.busy then
      if ret < 0 then some (atcmdFotaTaskExit true (atcmdFotaFwUpdateCallback_ D [] 0 fw).2)
      else
        let (ret, fw) := atcmdFotaFwUpdateCheck D fw
        some (atcmdFotaTaskExit (decide (ret ≠ 0)) fw)
    else none

/-! ## What the record vouches for -/

/-- The firmware area and the record, while the update is ready. -/
def UtilFota.attested (D : UtilFota φ) (x : φ) : Attested UInt8 UInt32 where
  content := D.cells x
  record := if (D.info x).ready then some ((D.info x).size.toNat, (D.info x).crc) else none

/-- An update that is ready has the CRC on record. -/
def Verified (D : UtilFota φ) (x : φ) : Prop :=
  (D.info x).ready = true → D.areaCrc x (D.info x).size = (D.info x).crc

/-- The cell is in the image that the record of a ready update vouches for. -/
def Vouched (D : UtilFota φ) (fw : Firmware φ) (i : ℕ) : Prop :=
  (D.info fw.flash).ready = true ∧ i < (D.info fw.flash).size.toNat

/-- The step writes or erases what the record of a ready update vouches for. A chunk is erased, by
whole sectors, only after it failed to be written. -/
def Spoils (D : UtilFota φ) (fw : Firmware φ) : FirmwareInput → Prop
  | .download _ data => (D.info fw.flash).ready = true
      ∧ (fw.update.download < (D.info fw.flash).size
        ∨ (sectorStart fw.update.download.toNat < (D.info fw.flash).size.toNat
          ∧ (firmwareDownloadTry D fw.update.verify fw.update.download.toNat data
              fw.flash).1 ≠ 0))
  | .fotaBlock _ total => (D.info fw.flash).ready = true
      ∧ (fw.fota.cnt = 0 ∧ total ≤ D.maxFwSize
        ∨ fw.fota.cnt ≠ 0 ∧ fw.fota.cnt < (D.info fw.flash).size)
  | _ => False

instance (D : UtilFota φ) (fw : Firmware φ) : DecidablePred (Spoils D fw)
  | .download .. | .fotaBlock .. => by unfold Spoils; infer_instance
  | .updateSet _ | .updateRun | .fotaStart .. | .fotaEnd _ => isFalse id

end NrcAtcmd
