import NrcAtcmd.HostRecv
import NrcAtcmd.ParamStore
import NrcAtcmd.SocketCommand

/-!
# The exit command and its buffer

`_atcmd_socket_send_exit_get` and `_atcmd_socket_send_exit_set` over the memory from
`str_atcmd_socket_send_exit` on: the 33 bytes of the buffer, and what follows them. `SocketCommand`
has the same handlers over the string alone.
-/

namespace NrcAtcmd.SendExit

open Memory (memcpy)
open ParamStore (CStr)

/-- `sizeof(str_atcmd_socket_send_exit)`. -/
def size : ℕ := 32 + 1

/-- The memory from the buffer on. The longest text that is stored there takes five bytes more. -/
abbrev ExitMem := { mem : Bytes // size + 5 ≤ mem.length }

/-- `strcpy` to an offset. -/
def strcpy (mem : Bytes) (off : ℕ) (s : Bytes) : Bytes := memcpy mem off (s ++ [0])

/-- `_atcmd_socket_send_exit_set`, but for its help. -/
def atcmdSocketSendExitSet_ (argv : List Bytes) (mem : Bytes) : AtcmdError × Bytes :=
  match argv with
  | [exit] =>
    if exit = bytes "\"\"" then (.success, strcpy mem 0 (bytes "AT\r\n"))
    else
      match atcmdParamToStr exit size with
      | none => (.inval, mem)
      | some exitCmd =>
        let len := exitCmd.length
        if 0 < len ∧ len ≤ 32 then
          let mem := strcpy mem 0 (bytes "AT+")
          let mem := strcpy mem 3 exitCmd
          (.success, strcpy mem (3 + len) (bytes "\r\n"))
        else (.inval, mem)
  | _ => (.inval, mem)

/-- `_atcmd_socket_send_exit_get`: what it returns, its messages, and the memory, in which it ends
the command before its CR for the time of the message. -/
def atcmdSocketSendExitGet_ (argv : List Bytes) (mem : Bytes) : AtcmdError × List Msg × Bytes :=
  match argv with
  | [] =>
    if cString mem = bytes "AT\r\n" then (.success, [.info (bytes "SSENDEXIT") (quoted [])], mem)
    else if mem.take 3 = bytes "AT+" then
      let end_ := (cString mem).length - 2
      let mem := mem.set end_ 0
      let msg := .info (bytes "SSENDEXIT") (quoted (cString (mem.drop 3)))
      (.success, [msg], mem.set end_ 13)
    else (.inval, [], mem)
  | _ => (.inval, [], mem)

/-- What is stored for a parameter. -/
def stored (param : Bytes) (mem : Bytes) : Bytes := (atcmdSocketSendExitSet_ [param] mem).2

/-- The exit command of a parameter is in its buffer, with its terminator and nothing beside it, and
is reported as it was set, and still there then. -/
structure Kept (param mem : Bytes) : Prop where
  fits : (cString (stored param mem)).length < size
  rest : (stored param mem).drop size = mem.drop size
  reported : atcmdSocketSendExitGet_ [] (stored param mem) =
    (.success, [.info (bytes "SSENDEXIT") param], stored param mem)

end NrcAtcmd.SendExit
