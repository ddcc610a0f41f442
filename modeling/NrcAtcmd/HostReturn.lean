import NrcAtcmd.Lib.Machine
import NrcAtcmd.Message

/-!
# The host waits for the return of a command

`nrc_atcmd_send_cmd` of `nrc-atcmd.c` and the four functions on `g_atcmd_info.ret`, which a thread
that sends commands and the thread that receives from the target share. The mutex makes each of
the four one step, but for the wait: `pthread_cond_wait` lets go of the mutex, and takes it again
before it returns.

The receiving thread sets a return for `OK` and `ERROR`, and for a boot or a wake-up of the
target. It is the result of the command that was sent last, or what is left of an earlier one that
timed out, or a boot nobody asked for.
-/

namespace NrcAtcmd

/-- `enum ATCMD_RET_TYPE`. -/
inductive HostRet where
  | timeout
  | error
  | ok
  | none
  deriving DecidableEq, Repr

/-- What the receiving thread hears that sets a return. -/
inductive TargetReturn where
  | ok
  | error
  | boot
  | wakeup
  deriving DecidableEq, Repr

def TargetReturn.ret : TargetReturn → HostRet
  | .ok => .ok
  | .error => .error
  | .boot | .wakeup => .none

/-- Where the sending thread is. -/
inductive SendPc where
  | idle
  /-- Before `nrc_atcmd_send`. -/
  | reset
  /-- In `nrc_atcmd_wait_return`, before it takes the mutex. -/
  | sent
  /-- In `pthread_cond_wait` or `pthread_cond_timedwait`. -/
  | blocked
  /-- The wait returned `ETIMEDOUT`. -/
  | expired
  /-- Before `nrc_atcmd_get_return`. -/
  | woken
  deriving DecidableEq, Repr

/-- A command that `nrc_atcmd_send_cmd` returned from: whether it went out, what the target had
given for it by then, and what was returned. -/
structure SentCmd where
  cmd : Bytes
  sent : Bool
  given : Option HostRet
  ret : HostRet
  deriving DecidableEq, Repr

/-- `g_atcmd_info.ret` and the sending thread, with what the target gave for its command, how many
earlier commands went out and have no return, and the commands that were returned from. -/
structure HostSync where
  val : HostRet
  pc : SendPc
  cmd : Bytes
  given : Option HostRet
  late : ℕ
  returned : List SentCmd
  deriving DecidableEq, Repr

def HostSync.boot : HostSync where
  val := .none
  pc := .idle
  cmd := []
  given := none
  late := 0
  returned := []

def nrcAtcmdInitReturn (s : HostSync) : HostSync := { s with val := .none }

/-- `pthread_cond_signal` wakes a thread that waits by now, and is lost on one that does not. -/
def nrcAtcmdSetReturn (ret : HostRet) (s : HostSync) : HostSync :=
  { s with val := ret, pc := if s.pc = .blocked then .woken else s.pc }

/-- `timeout` of `nrc_atcmd_wait_return`, in seconds, zero for no limit. -/
def waitReturnTimeout (cmd : Bytes) : ℕ :=
  if cmd = bytes "ATZ\r\n" then 5
  else if 8 < cmd.length ∧ cmd.take 8 = bytes "AT+UART=" then 1
  else 0

/-- The command of `nrc_atcmd_send_cmd` from its text, unless it is refused. -/
def sendCmdLine (text : Bytes) : Option Bytes :=
  if text.length < 2 ∨ 126 < text.length then none
  else if text.take 2 ≠ bytes "AT" then none
  else some (text ++ bytes "\r\n")

/-- `nrc_atcmd_send_cmd` returns. -/
def HostSync.leave (sent : Bool) (ret : HostRet) (s : HostSync) : HostSync :=
  { s with
    pc := .idle
    given := none
    late := if sent ∧ s.given = none then s.late + 1 else s.late
    returned := s.returned ++ [⟨s.cmd, sent, s.given, ret⟩] }

/-- What happens next. `own` says that the return is the result of the command sent last. -/
inductive SyncInput where
  | sendCmd (text : Bytes)
  | send (ret : ℤ)
  | wait
  | spurious
  | timeout
  | expire
  | getReturn
  | recv (m : TargetReturn) (own : Bool)
  deriving DecidableEq, Repr

/-- The receiving thread sets a return. An `OK` or `ERROR` answers a command. -/
def HostSync.recv (m : TargetReturn) (own : Bool) (s : HostSync) : Option HostSync :=
  if own then
    if s.pc ≠ .idle ∧ s.pc ≠ .reset ∧ s.given = none then
      some (nrcAtcmdSetReturn m.ret { s with given := some m.ret })
    else none
  else match m with
    | .ok | .error =>
      if 0 < s.late then some (nrcAtcmdSetReturn m.ret { s with late := s.late - 1 }) else none
    | .boot | .wakeup => some (nrcAtcmdSetReturn m.ret s)

/-- The steps of both threads. -/
def syncStep (s : HostSync) : SyncInput → Option HostSync
  | .sendCmd text =>
    if s.pc = .idle then match sendCmdLine text with
      | none => some ({ s with cmd := text }.leave false .error)
      | some cmd => some { nrcAtcmdInitReturn s with pc := .reset, cmd := cmd }
    else none
  | .send ret =>
    if s.pc = .reset then some (if ret < 0 then s.leave false .error else { s with pc := .sent })
    else none
  | .wait => if s.pc = .sent then some { s with pc := .blocked } else none
  | .spurious => if s.pc = .blocked then some { s with pc := .woken } else none
  | .timeout =>
    if s.pc = .blocked ∧ 0 < waitReturnTimeout s.cmd then some { s with pc := .expired } else none
  | .expire =>
    if s.pc = .expired then some (nrcAtcmdSetReturn .timeout { s with pc := .woken }) else none
  | .getReturn => if s.pc = .woken then some (s.leave true s.val) else none
  | .recv m own => s.recv m own

/-- A step the sending thread takes by itself. -/
def SyncInput.IsSender : SyncInput → Prop
  | .wait | .expire | .getReturn => True
  | _ => False

/-- A command that went out returns what the target gave for it, or that it timed out where nothing
was given. -/
def SentCmd.Right (c : SentCmd) : Prop :=
  if c.sent then c.given = some c.ret ∨ c.given = none ∧ c.ret = .timeout else c.ret = .error

/-- Every command returned what it should, and one whose result is there needs nothing but the
sending thread to return it. -/
structure HostSync.Synced (s : HostSync) : Prop where
  returned : ∀ c ∈ s.returned, c.Right
  unblocked : ∀ r, s.given = some r → ∃ is s', (∀ i ∈ is, SyncInput.IsSender i) ∧
    Machine.run syncStep s is = some s' ∧ s'.returned = s.returned ++ [⟨s.cmd, true, some r, r⟩]

/-- The step goes wrong as nothing tells the sending thread what it was woken for. The wait begins
without a look at `val` and ends without one: a return from before it is lost, any other ends it,
and so does a spurious wake-up. Afterwards `val` is open to the next return until it is read, and
to the timeout after a return. -/
def Misses (s : HostSync) : SyncInput → Prop
  | .spurious => True
  | .recv m own => match s.pc with
    | .sent | .expired => own = true
    | .blocked => own = false
    | .woken => m.ret ≠ s.val
    | .idle | .reset => False
  | _ => False

instance (s : HostSync) : DecidablePred (Misses s)
  | .spurious => isTrue trivial
  | .recv m own => by unfold Misses; cases s.pc <;> infer_instance
  | .sendCmd _ | .send _ | .wait | .timeout | .expire | .getReturn => isFalse id

end NrcAtcmd
