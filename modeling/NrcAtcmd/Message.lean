import Mathlib.Algebra.Group.Nat.Defs
import Mathlib.Data.UInt
import Mathlib.Tactic.Common
import Mathlib.Data.Int.Notation

/-!
# What the target tells the host

What a handler returns, and the events of `atcmd_basic.c`, `atcmd_socket.c` and `atcmd_fota.c`, each
with the arguments its event handler reads. An `ipaddr_ntoa` or `strerror` text is an argument too.

A name of the source that begins with underscores ends with as many here: `_atcmd_receive_data`
is `atcmdReceiveData_`.
-/

namespace NrcAtcmd

/-- A string of bytes, without its terminator. -/
abbrev Bytes := List UInt8

/-- The bytes of an ASCII text. -/
def bytes (s : String) : Bytes := s.toList.map fun c => UInt8.ofNat c.toNat

def atcmdMsgLenMax : ℕ := 128

/-- `"\"%s\""`. -/
def quoted (s : Bytes) : Bytes := 34 :: s ++ [34]

/-- `enum ATCMD_ERROR`. -/
inductive AtcmdError where
  | noReturn
  | success
  | inval
  | busy
  | fail
  | timeout
  | nomem
  | notsupp
  deriving DecidableEq, Repr

/-- `enum ATCMD_SOCKET_EVENT`. -/
inductive SocketEvent where
  | connect (id : ℤ) (remoteAddr : Bytes) (remotePort localPort : ℕ)
  | close (id err : ℤ)
  | sendDone (id : ℤ) (done : UInt32)
  | sendIdle (id : ℤ) (done drop : UInt32) (wait : ℕ)
  | sendDrop (id : ℤ) (drop : UInt32)
  | sendExit (id : ℤ) (done drop : UInt32)
  | sendError (id err : ℤ)
  | recvReady (id len : ℤ)
  | recvError (id err : ℤ)
  deriving DecidableEq, Repr

/-- `enum ATCMD_BASIC_EVENT`. -/
inductive BasicEvent where
  | fwbindlIdle (len cnt : ℕ)
  | fwbindlDrop (len : UInt32)
  | fwbindlFail (len : ℕ)
  | fwbindlDone (len : UInt32)
  | sfuserIdle (offset len cnt : ℕ)
  | sfuserDrop (offset : ℕ) (len : UInt32)
  | sfuserFail (offset len : ℕ)
  | sfuserDone (offset : ℕ) (len : UInt32)
  deriving DecidableEq, Repr

/-- The events of `atcmd_fota_event_t` an update sends. -/
inductive FotaEvent where
  | binary (name : Bytes)
  | download (total cnt : UInt32)
  | update (name : Bytes) (size crc32 : UInt32)
  | fail
  deriving DecidableEq, Repr

/-- What the target sends: the response to a command, after a line with its error code, the lines
a command prints before its response, an event, or received data. -/
inductive Msg where
  | ok
  | error
  | ret (cmd : Bytes) (ret : AtcmdError)
  | info (cmd text : Bytes)
  | help (text : Bytes)
  | event (e : SocketEvent)
  | rxd (id : ℕ) (remote : Option (Bytes × ℕ)) (data : Bytes)
  deriving DecidableEq, Repr

/-- `OK` and `ERROR`, after which the host may send its next command. -/
def Msg.isResponse : Msg → Bool
  | ok | error => true
  | _ => false

end NrcAtcmd
