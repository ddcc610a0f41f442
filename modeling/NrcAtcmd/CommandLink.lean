import NrcAtcmd.HostReturn
import NrcAtcmd.Proofs.CommandReceiver
import NrcAtcmd.TargetStream

/-!
# A command from the host to the target and back

The host of `HostReturn.lean` and its `nrc_atcmd_recv`, the receiver of the target, and the ordered
channels between them. `down` is what the host has written and the target has not read yet, `up`
what the target has written and the host has not.

The AT task of the target writes its messages one after the other, and reads no more before the
last is out. Handlers and other tasks print what they like between two of them. The echo is off,
and all allocations of the host succeed.
-/

namespace NrcAtcmd

open Decimal

/-! ## What the target prints -/

/-- The number of an error. -/
def AtcmdError.value : AtcmdError → ℤ
  | .noReturn => -1
  | .success => 0
  | .inval => 1
  | .busy => 2
  | .fail => 3
  | .timeout => 4
  | .nomem => 5
  | .notsupp => 7

/-- What the host should make of a return. -/
def AtcmdError.told (ret : AtcmdError) : HostRet := if ret = .success then .ok else .error

/-- `atcmd_transmit_return`. -/
def returnMessages (cmd : Option Bytes) (ret : AtcmdError) : List TargetMsg :=
  if ret = .success then [.ok]
  else (cmd.map fun cmd => .info cmd [ofInt ret.value]).toList ++ [.error]

/-- The messages of what a session sends out. -/
def Out.messages : Out → List TargetMsg
  | .ok => [.ok]
  | .sink .. => []
  | .sevent e => [.event (.socket e)]
  | .bevent e => [.event (.basic e)]

def Logged.messages : Logged → List TargetMsg
  | .call .. => []
  | .reply cmd ret => returnMessages cmd ret
  | .linefeed => [.info (bytes "LINEFEED") [bytes "0"]]
  | .session _ out => out.flatMap Out.messages

/-- The messages of the AT task since the reset. -/
def Device.messages {ε : Type*} (d : Device ε) : List TargetMsg :=
  d.log.flatMap Logged.messages ++ d.rx.out.flatMap Out.messages

/-! ## The link -/

/-- What the host wrote: a command with the end of its line, or data. -/
inductive HostOp where
  | cmd (line : Bytes)
  | data (data : Bytes)
  deriving DecidableEq, Repr

/-- Both sides, and what is on the way. `written` counts the messages of the AT task that are out,
and `ops` is what the host wrote since the start. -/
structure CommandLink (ε : Type*) where
  host : HostSync
  recv : HostRecv
  down : Bytes
  up : Bytes
  device : Device ε
  written : ℕ
  ops : List HostOp

def CommandLink.boot {ε : Type*} (e : ε) : CommandLink ε where
  host := .boot
  recv := .boot
  down := []
  up := []
  device := .boot e
  written := 0
  ops := []

/-- What happens next. The sending thread goes on, writes its command or fails to after some bytes
of it, or writes data. The target reads some of what is there, takes it, lets its data mode task
run, and writes. The receiving thread of the host reads some of what is there. -/
inductive LinkInput where
  | host (i : SyncInput)
  | send (failed : Option ℕ)
  | data (data : Bytes)
  | deliver (n : ℕ)
  | turn (now : UInt32)
  | tick (now : UInt32)
  | write
  | print (m : TargetMsg)
  | hear (n : ℕ)
  deriving DecidableEq, Repr

/-- The return a call of the receiving thread sets. -/
def HostCall.ret? : HostCall → Option HostRet
  | .ret r => some r
  | _ => none

/-- A call of the receiving thread, as the sending thread sees it. -/
def HostSync.told (s : HostSync) : HostCall → HostSync
  | .ret r => nrcAtcmdSetReturn r s
  | _ => s

variable {ε : Type*} (S : Sink ε) (groups : List (AtcmdGroup ε)) (strerror : ℤ → Bytes)

/-- The steps of the link. -/
def linkStep (s : CommandLink ε) : LinkInput → Option (CommandLink ε)
  | .host (.recv ..) | .host (.send _) => none
  | .host i => (syncStep s.host i).map fun host => { s with host := host }
  | .send none => (syncStep s.host (.send 0)).map fun host =>
      { s with host := host, down := s.down ++ s.host.cmd, ops := s.ops ++ [.cmd s.host.cmd] }
  | .send (some n) => (syncStep s.host (.send (-1))).map fun host =>
      { s with host := host, down := s.down ++ s.host.cmd.take n }
  | .data data =>
    if s.host.pc = .idle then
      some { s with down := s.down ++ data, ops := s.ops ++ [.data data] }
    else none
  | .deliver n =>
    if s.written = s.device.messages.length then
      (deviceStep S groups s.device (.receive (s.down.take n))).map fun device =>
        { s with device := device, down := s.down.drop n }
    else none
  | .turn now =>
    if s.written = s.device.messages.length then
      (deviceStep S groups s.device (.turn now)).map fun device => { s with device := device }
    else none
  | .tick now => (deviceStep S groups s.device (.tick now)).map fun device =>
      { s with device := device }
  | .write => s.device.messages[s.written]?.map fun m =>
      { s with up := s.up ++ m.wire strerror, written := s.written + 1 }
  | .print m => some { s with up := s.up ++ m.wire strerror }
  | .hear n =>
    let recv := nrcAtcmdRecv (fun _ => true) (s.up.take n) s.recv
    some { s with
      recv := recv
      up := s.up.drop n
      host := (recv.calls.drop s.recv.calls.length).foldl HostSync.told s.host }

/-- The commands that went out and came back, each with what `nrc_atcmd_send_cmd` returned. -/
def CommandLink.answered (s : CommandLink ε) : List (Bytes × HostRet) :=
  (s.host.returned.filter (·.sent)).map fun c => (c.cmd, c.ret)

/-! ## What both ends are for -/

/-- The target as a server, to which a command is one step, and so is the data of a session. -/
structure CommandServer (ε : Type*) where
  config : AtcmdConfig
  env : ε
  session : Option DataModeParams
  calls : List (Bytes × AtcmdHandler × List Bytes)
  handed : List Bytes
  answered : List (Bytes × HostRet)

namespace CommandServer

def boot (e : ε) : CommandServer ε where
  config := LineReader.boot.config
  env := e
  session := none
  calls := []
  handed := []
  answered := []

/-- What a command comes to is done, and answered. -/
def perform (line : Bytes) (v : CommandServer ε) : Effect ε → Option (CommandServer ε)
  | .nothing | .reset => none
  | .reply ret => some { v with answered := v.answered ++ [(line, ret.told)] }
  | .call handler name type argv =>
    let a := handler argv v.env
    if a.ret = .noReturn then none
    else some { v with
      env := a.env
      session := a.dataMode.map (·.1)
      calls := v.calls ++ [(name, type, argv)]
      answered := v.answered ++ [(line, a.ret.told)] }

/-- A command is served between two sessions, if it is printable, is answered, and does not turn the
echo on. Data is served where a session waits for as much. -/
def step (v : CommandServer ε) : HostOp → Option (CommandServer ε)
  | .cmd line =>
    let text := line.take (line.length - 2)
    let (config, e) := atcmdProcessCommand groups v.config text
    if v.session = none ∧ sendCmdLine text = some line ∧ text.all (fun c => 0x20 ≤ c ∧ c ≤ 0x7E)
        ∧ config.echo = false then
      ({ v with config := config } : CommandServer ε).perform line e
    else none
  | .data data =>
    match v.session with
    | some p =>
      if p.passthrough = false ∧ data.length = p.len then
        some { v with
          env := (answer S p data v.env).2, session := none, handed := v.handed ++ [data] }
      else none
    | none => none

end CommandServer

/-- The server once it has served what the host wrote. -/
def CommandLink.served (e : ε) (s : CommandLink ε) (ops : List HostOp) : Option (CommandServer ε) :=
  Machine.run (CommandServer.step S groups) (.boot e) (s.ops ++ ops)

/-- The host reads the message for what it is, or passes over an event it has no name for. -/
def TargetMsg.Heeded : TargetMsg → Prop
  | .event e => Sent strerror (.event e) ∧ Plain (e.print strerror).2
  | m => m.Sent strerror ∧ m.Clear strerror

instance : DecidablePred IsAddr := fun _ => inferInstanceAs (Decidable (_ ∧ _ ∧ ∀ _ ∈ _, _))

instance : DecidablePred TargetRxd.Sent
  | .socket .. => inferInstanceAs (Decidable (_ ∧ ∀ _ ∈ _, _))
  | .sfuser _ | .sfsysuser _ => Nat.decLt ..

instance : DecidablePred TargetRxd.AddrFits
  | .socket .. => inferInstanceAs (Decidable (∀ _ ∈ _, _))
  | .sfuser _ | .sfsysuser _ => isTrue trivial

instance : DecidablePred TargetMsg.Plain := fun _ => inferInstanceAs (Decidable (∀ _ ∈ _, _))

instance : DecidablePred TargetMsg.TextFits := fun _ => Nat.decLt ..

instance : DecidablePred (TargetMsg.Heeded strerror)
  | .ok | .error => isTrue ⟨trivial, trivial⟩
  | .info .. => inferInstanceAs (Decidable ((_ ∧ _ ≠ _ ∧ _ ∉ _ ∧ _) ∧ _ ≠ _ ∧ _ ≤ _ ∧ _))
  | .event _ => inferInstanceAs (Decidable ((_ ∉ _ ∧ _) ∧ _))
  | .rxd .. => inferInstanceAs (Decidable ((_ ∧ _ ≤ _ ∧ _) ∧ _ ≠ _ ∧ _))

/-- The returns a message tells the host. -/
def TargetMsg.rets (m : TargetMsg) : List HostRet :=
  (m.calls strerror).filterMap fun c => c.bind HostCall.ret?

/-- The step is none a server takes, or goes wrong by itself: what the host writes is not served, or
is cut short; a wait times out or ends for nothing; a return comes before the wait, or from no
command; a message is misread; a session becomes idle. -/
def CommandLink.Crosses (e : ε) (s : CommandLink ε) : LinkInput → Prop
  | .host i => i = .spurious ∨ i = .timeout
  | .send none => (s.served S groups e [.cmd s.host.cmd]).isNone
  | .send (some n) => n ≠ 0
  | .data data => (s.served S groups e [.data data]).isNone
  | .tick now => Fires s.device (.tick now)
  | .write => ∃ m ∈ s.device.messages[s.written]?, ¬ m.Heeded strerror
  | .print m => ¬ m.Heeded strerror ∨ m.rets strerror ≠ []
  | .hear n => s.host.pc = .sent ∧ ((nrcAtcmdRecv (fun _ => true) (s.up.take n) s.recv).calls.drop
      s.recv.calls.length).filterMap HostCall.ret? ≠ []
  | .deliver _ | .turn _ => False

instance (e : ε) (s : CommandLink ε) : DecidablePred (s.Crosses S groups strerror e)
  | .host _ => inferInstanceAs (Decidable (_ ∨ _))
  | .send none | .data _ => inferInstanceAs (Decidable (_ = true))
  | .send (some _) => inferInstanceAs (Decidable (_ ≠ _))
  | .tick now => inferInstanceAs (Decidable (Fires s.device (.tick now)))
  | .write => inferInstanceAs (Decidable (∃ _ ∈ _, _))
  | .print _ => inferInstanceAs (Decidable (_ ∨ _ ≠ _))
  | .hear _ => inferInstanceAs (Decidable (_ ∧ _ ≠ _))
  | .deliver _ | .turn _ => isFalse id

/-- What both ends saw is what the server does with what the host wrote, one after the other: a
command was answered as the server answers it, the last one maybe not yet, the target called the
handlers the server calls, in its order, and once it has read all it is where the server is. The
sending thread waits for nothing that is not on its way. -/
structure CommandLink.Linear (e : ε) (s : CommandLink ε) (v : CommandServer ε) : Prop where
  served : s.served S groups e [] = some v
  answered : s.answered = v.answered
    ∨ s.host.pc ≠ .idle ∧ ∃ ret, v.answered = s.answered ++ [(s.host.cmd, ret)]
  calls : s.device.calls <+: v.calls
  done : s.device.rest = [] → s.down = [] → s.device.calls = v.calls
    ∧ (v.session = none → s.device.handed = v.handed ∧ s.device.rx.env = v.env)
  unblocked : s.device.rest = [] → s.down = [] → s.device.messages.length ≤ s.written → s.up = [] →
    s.host.pc ∉ [.sent, .blocked, .expired]

end NrcAtcmd
