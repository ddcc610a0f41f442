import NrcAtcmd.DataMode
import NrcAtcmd.Lib.Cells
import NrcAtcmd.MsgPrint
import NrcAtcmd.Param

/-!
# The user areas of the flash

`AT+SFUSER` and `AT+SFSYSUSER` of `atcmd_basic.c`. A handler has no result if it reads or writes
outside of a buffer. The data of `AT+SFUSER=1` comes in a session of the data mode, and goes to
`_atcmd_sf_user_write`.

The flash is behind the functions of `api_system.h`: `SfApi` says what they answer, each after the
accesses that came before.
-/

namespace NrcAtcmd

def sfSectorSize : UInt32 := 4096

/-- An access to the flash, of which nothing is said to have succeeded. -/
inductive FlashOp where
  | readUserData (offset size : UInt32)
  | writeUserData (offset : UInt32) (data : Bytes)
  | eraseUserDataArea
  | getUserFactory (bufLen : UInt16)
  deriving DecidableEq, Repr

/-- The functions a handler calls. `stack` is what a message finds in its buffer, and `eoverflow` a
choice of the C library. -/
structure SfApi where
  systemApiGetFlashSize : UInt32
  nrcGetUserDataAreaAddress : UInt32
  nrcGetUserDataAreaSize : UInt32
  /-- The size `nrc_get_user_factory_info` tells, zero if it fails. -/
  nrcGetUserFactoryInfo : UInt32
  nrcReadUserData : List FlashOp → UInt32 → UInt32 → Option Bytes
  nrcWriteUserData : List FlashOp → UInt32 → Bytes → Bool
  nrcEraseUserDataArea : List FlashOp → Bool
  nrcGetUserFactory : List FlashOp → UInt16 → Option Bytes
  malloc : List FlashOp → (n : ℕ) → Option (Cells.Buffer UInt8 n)
  stack : Cells.Buffer UInt8 atcmdMsgLenMax
  eoverflow : Bool

/-- The modes of `AT+SFUSER`. -/
inductive SfUserMode where
  | read | write | erase
  deriving DecidableEq, Repr

def SfUserMode.of (mode : ℤ) : Option SfUserMode :=
  if mode = 0 then some .read else if mode = 1 then some .write
  else if mode = 2 then some .erase else none

/-- What a handler sends. -/
inductive SfOut where
  | help (text : Bytes)
  | ret (ret : AtcmdError)
  | transmit (buf : Bytes)
  deriving DecidableEq, Repr

/-- The data mode, the accesses to the flash, and what was sent. -/
structure SfState where
  mode : DataMode
  flash : List FlashOp
  out : List SfOut

namespace SfState

def access (s : SfState) (op : FlashOp) : SfState := { s with flash := s.flash ++ [op] }

def send (s : SfState) (o : List SfOut) : SfState := { s with out := s.out ++ o }

end SfState

/-- The end of a handler: no result, or what it returns and the state it leaves. -/
abbrev SfResult := Option (AtcmdError × SfState)

namespace SfApi

variable (A : SfApi)

/-- `_atcmd_sf_user_support`. -/
def atcmdSfUserSupport_ : Bool :=
  let addr := A.nrcGetUserDataAreaAddress
  let size := A.nrcGetUserDataAreaSize
  match (A.systemApiGetFlashSize / (1024 * 1024)).toNat with
  | 2 => addr == 0x1E6000 && size == 100 * 1024 || addr == 0x1F4000 && size == 8 * 1024
  | 4 => addr == 0x3DA000 && size == 100 * 1024
  | _ => false

/-- `_atcmd_sf_user_valid_params`. The lengths are compared as unsigned numbers. -/
def atcmdSfUserValidParams_ (mode : SfUserMode) (offset length : UInt32) : Bool :=
  let size := A.nrcGetUserDataAreaSize
  let lengthMax := match mode with
    | .read | .write => .ofNat atcmdDataLenMax
    | .erase => size
  if size ≤ offset then false
  else if length = 0 ∨ lengthMax < length then false
  else if size < offset + length then false
  else true

/-- A message in a buffer of `ATCMD_MSG_LEN_MAX` bytes, and `atcmd_transmit` of it. -/
def transmitMsg (text : Bytes) (s : SfState) : Option SfState :=
  (MsgBuf.atcmdMsgVsnprint A.eoverflow (some .event) A.stack.cells atcmdMsgLenMax text).bind
    fun (msg, lenMsg) => (Cells.fetch msg 0 lenMsg.toNat).map fun buf => s.send [.transmit buf]

/-- `atcmd_transmit` of a part of a buffer. -/
def transmit {n : ℕ} (buf : Cells.Buffer UInt8 n) (off len : ℕ) (s : SfState) : Option SfState :=
  (Cells.fetch buf.cells off len).map fun buf => s.send [.transmit buf]

/-- The signed value of a number, as `%d` prints it. -/
def percentD (n : UInt32) : Bytes :=
  Decimal.ofInt (if n.toNat < 2 ^ 31 then n.toNat else n.toNat - 2 ^ 32)

/-- `SF_USER_READ`. -/
def sfUserRead (offset length : UInt32) (s : SfState) : SfResult :=
  match A.malloc s.flash atcmdDataLenMax with
  | none => some (.fail, s)
  | some buffer =>
    let buffer := buffer.fill 0
    match A.nrcReadUserData s.flash offset length with
    | none => some (.fail, s.access (.readUserData offset length))
    | some data =>
      (buffer.copy 0 data).bind fun buffer =>
        let s := (s.access (.readUserData offset length)).send [.ret .success]
        (A.transmitMsg (bytes "RXD_SFUSER:" ++ percentD offset ++ bytes "," ++ percentD length)
          s).bind fun s =>
          (transmit buffer 0 length.toNat s).map (.noReturn, ·)

/-- The parameters of the data mode of `SF_USER_WRITE`. -/
def sfUserWriteParams (offset length : UInt32) : DataModeParams where
  dataType := .sfuser offset.toNat
  id := -1
  len := length.toNat
  timeout := 1000
  doneEvent := true
  exitCmd := none

/-- `len_erase` of the loop of `SF_USER_ERASE`. -/
def lenErase (length i : UInt32) : UInt32 :=
  if sfSectorSize < length - i then sfSectorSize else length - i

theorem toNat_lenErase {length i : UInt32} (h : i < length) :
    (lenErase length i).toNat = min 4096 (length.toNat - i.toNat) := by
  have hsub : (length - i).toNat = length.toNat - i.toNat :=
    UInt32.toNat_sub_of_le _ _ (UInt32.le_of_lt h)
  unfold lenErase
  split_ifs with hlt
  · rw [UInt32.lt_iff_toNat_lt, hsub] at hlt
    exact (Nat.min_eq_left (Nat.le_of_lt hlt)).symm
  · rw [UInt32.lt_iff_toNat_lt, hsub, Nat.not_lt] at hlt
    rw [hsub]
    exact (Nat.min_eq_right hlt).symm

/-- The loop of `SF_USER_ERASE`. -/
def sfUserErase {n : ℕ} (buffer : Cells.Buffer UInt8 n) (offset length i : UInt32)
    (s : SfState) : SfResult :=
  if i < length then
    (Cells.fetch buffer.cells 0 (lenErase length i).toNat).bind fun data =>
      let s' := s.access (.writeUserData (offset + i) data)
      if A.nrcWriteUserData s.flash (offset + i) data then
        sfUserErase buffer offset length (i + lenErase length i) s'
      else some (.fail, s')
  else some (.success, s)
termination_by length.toNat - i.toNat
decreasing_by
  rename_i h _
  have hlen := toNat_lenErase h
  have := length.toNat_lt
  rw [UInt32.lt_iff_toNat_lt] at h
  rw [UInt32.toNat_add, hlen]
  omega

/-- `_atcmd_basic_sf_user_set` past its parameters, of which `all` says that there is only one. -/
def sfUserRun (all : Bool) (mode : ℤ) (offset length : UInt32) (s : SfState) : SfResult :=
  match SfUserMode.of mode with
  | none => some (.inval, s)
  | some mode =>
    if A.atcmdSfUserValidParams_ mode offset length = false then some (.inval, s)
    else match mode with
    | .read => A.sfUserRead offset length s
    | .write =>
      match atcmdDataModeEnable (sfUserWriteParams offset length) s.mode with
      | none => some (.fail, s)
      | some m => some (.success, { s with mode := m })
    | .erase =>
      if all then
        some (if A.nrcEraseUserDataArea s.flash then .success else .fail,
          s.access .eraseUserDataArea)
      else match A.malloc s.flash sfSectorSize.toNat with
        | none => some (.fail, s)
        | some buffer => A.sfUserErase (buffer.fill 0xff) offset length 0 s

/-- `_atcmd_basic_sf_user_set`. -/
def atcmdBasicSfUserSet_ (argv : List Bytes) (s : SfState) : SfResult :=
  if !A.atcmdSfUserSupport_ then some (.notsupp, s)
  else match argv with
  | [] => some (.success, s.send [.help (bytes "AT+SFUSER=<mode>[,<offset>,<length>]")])
  | [mode, offset, length] =>
    match atcmdParamToUint32 offset, atcmdParamToUint32 length with
    | some offset, some length => A.sfUserRun false (atoi mode) offset length s
    | _, _ => some (.inval, s)
  | [mode] =>
    if atoi mode = 2 then A.sfUserRun true 2 0 A.nrcGetUserDataAreaSize s
    else A.sfUserRun true (atoi mode) 0xffffffff 0xffffffff s
  | _ => some (.inval, s)

/-- `_atcmd_basic_sf_sys_user_set` past its parameters. -/
def sfSysUserRun (offset length : UInt32) (s : SfState) : SfResult :=
  let size := A.nrcGetUserFactoryInfo
  if size < offset + length then some (.inval, s)
  else match A.malloc s.flash size.toNat with
  | none => some (.fail, s)
  | some buf =>
    match A.nrcGetUserFactory s.flash size.toUInt16 with
    | none => some (.fail, s.access (.getUserFactory size.toUInt16))
    | some data =>
      (buf.copy 0 data).bind fun buf =>
        let s := (s.access (.getUserFactory size.toUInt16)).send [.ret .success]
        (A.transmitMsg (bytes "RXD_SFSYSUSER:" ++ Decimal.ofNat offset.toNat ++ bytes ","
          ++ Decimal.ofNat length.toNat) s).bind fun s =>
          (transmit buf offset.toNat length.toNat s).map (.noReturn, ·)

/-- `_atcmd_basic_sf_sys_user_set`. -/
def atcmdBasicSfSysUserSet_ (argv : List Bytes) (s : SfState) : SfResult :=
  let size := A.nrcGetUserFactoryInfo
  if size = 0 then some (.notsupp, s)
  else match argv with
  | [] => some (.success, s.send [.help (bytes "AT+SFSYSUSER=<offset>,<length>")])
  | [offset, length] =>
    match atcmdParamToUint32 length with
    | none => some (.inval, s)
    | some length =>
      if length = 0 ∨ size < length then some (.inval, s)
      else match atcmdParamToUint32 offset with
        | none => some (.inval, s)
        | some offset =>
          if size ≤ offset then some (.inval, s) else A.sfSysUserRun offset length s
  | [offset] =>
    match atcmdParamToUint32 offset with
    | none => some (.inval, s)
    | some offset =>
      if size ≤ offset then some (.inval, s) else A.sfSysUserRun offset (size - offset) s
  | _ => some (.inval, s)

/-- `_atcmd_sf_user_write` as the sink of the data mode. -/
def sink (S : Sink (List FlashOp)) : Sink (List FlashOp) :=
  { S with
    atcmdSfUserWrite := fun offset data flash =>
      (if A.nrcWriteUserData flash (.ofNat offset) data then data.length else 0,
        flash ++ [.writeUserData (.ofNat offset) data]) }

end SfApi

/-- A command, with its parameters. -/
inductive SfCommand where
  | sfuser (argv : List Bytes)
  | sfsysuser (argv : List Bytes)
  deriving DecidableEq, Repr

/-- The handler of a command. -/
def SfCommand.handler (A : SfApi) : SfCommand → SfState → SfResult
  | sfuser argv => A.atcmdBasicSfUserSet_ argv
  | sfsysuser argv => A.atcmdBasicSfSysUserSet_ argv

/-- What a command finds, after the accesses `flash`. -/
def SfState.of (rx : Receiver (List FlashOp)) : SfState := ⟨rx.mode, rx.env, []⟩

/-- The session of the data mode after a command that returned a success. -/
def SfState.session (s : SfState) (now : UInt32) (rx : Receiver (List FlashOp)) :
    Session (List FlashOp) where
  rx := atcmdTransmitOk now { rx with mode := s.mode, env := s.flash, out := [] }
  rest := []

end NrcAtcmd
