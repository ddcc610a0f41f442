import NrcAtcmd.DataMode

/-!
# The command receiver

`atcmd_core.c`, from `atcmd_parse` to `atcmd_receive_command`, and the loop of `atcmd_receive`
around it and `atcmd_receive_data`. The build is the default one: `CONFIG_ATCMD_PREFIX_CHECK` is
set, and lower case, history and prompt are not, so the keys of the history do nothing. The echo
is left out.

The line buffer is read up to `cnt` only, so it is the list of the characters that `cnt` counts.
The handlers of the commands are outside this module, in the lists of groups a receiver is given.
A handler answers an error, may enable the data mode, and works on the state of the sinks.
-/

namespace NrcAtcmd

def atcmdMsgParamMax : ℕ := 10

/-- `enum ATCMD_TYPE`, without its member for none. -/
inductive AtcmdType where
  | run
  | get
  | getParam
  | set
  | setHelp
  deriving DecidableEq, Repr

/-- `enum ATCMD_HANDLER`, without its member for none. -/
inductive AtcmdHandler where
  | run
  | get
  | set
  deriving DecidableEq, Repr

/-- `enum ATCMD_KEY`. -/
inductive AtcmdKey where
  | reset | ignore | print
  | bs | cr | lf | esc
  | up | down | right | left
  | home | ins | del | endKey | pgup | pgdn
  deriving DecidableEq, Repr

/-- The two options of `g_atcmd_config` that this build has a use for. -/
structure AtcmdConfig where
  echo : Bool
  linefeed : Bool
  deriving DecidableEq, Repr

/-! ## Commands -/

/-- What a handler does: its return value, the data mode it enabled, and the state after it. -/
structure Answer (ε : Type*) where
  ret : AtcmdError
  dataMode : Option {p : DataModeParams // p.Posed}
  env : ε

/-- `atcmd_handler_t`. -/
abbrev HandlerFn (ε : Type*) := List Bytes → ε → Answer ε

/-- `atcmd_info_t`. -/
structure AtcmdInfo (ε : Type*) where
  cmd : Bytes
  handler : AtcmdHandler → Option (HandlerFn ε)

/-- `atcmd_group_t`, its commands in the order in which `atcmd_handler` meets them. -/
structure AtcmdGroup (ε : Type*) where
  cmdPrefix : Bytes
  cmdList : List (AtcmdInfo ε)

variable {ε : Type*}

def strupr (s : Bytes) : Bytes := s.map fun c => if 97 ≤ c ∧ c ≤ 122 then c - 32 else c

/-- `atcmd_parse` at the end of the line. The arguments are those up to the running one. -/
def atcmdParseEnd (type : Option AtcmdType) (argv : List Bytes) :
    Option (AtcmdHandler × List Bytes) :=
  let i := argv.length - 1
  let type := if i = 0 ∧ type = none then some .run else type
  let argc := if i ≠ 0 ∧ (type = some .getParam ∨ type = some .set) ∧ argv.getD 1 [] ≠ []
    then 1 + i else 1
  let argv := (argv.take argc).modifyHead strupr
  match type with
  | some .run => some (.run, argv)
  | some .getParam => if argc = 1 then none else some (.get, argv)
  | some .get => some (.get, argv)
  | some .set => if argc = 1 then none else some (.set, argv)
  | some .setHelp => some (.set, argv)
  | none => none

/-- The two loops of `atcmd_parse`. The arguments `argv` are complete, `arg` is the running one
so far, and a character that is overwritten with the terminator completes it. -/
def atcmdParseFrom (type : Option AtcmdType) (argv : List Bytes) (arg : Bytes) :
    Bytes → Option (AtcmdHandler × List Bytes)
  | [] => none
  | c :: cs =>
    -- the next argument, if there is room for one
    let next (type : Option AtcmdType) (argv : List Bytes) :=
      if argv.length < atcmdMsgParamMax + 1 then atcmdParseFrom type argv [] cs else none
    if c = 61 then        -- '='
      if argv.length = 0 then next (if type = none then some .set else type) [arg]
      else if argv.length = 1 ∧ type = some .get then next (some .getParam) argv
      else atcmdParseFrom type argv (arg ++ [c]) cs
    else if c = 63 then   -- '?'
      if argv.length = 0 then next (if type = none then some .get else type) [arg]
      else if argv.length = 1 ∧ type = some .set then next (some .setHelp) argv
      else atcmdParseFrom type argv (arg ++ [c]) cs
    else if c = 44 then   -- ','
      if type = some .set then next type (argv ++ [arg])
      else atcmdParseFrom type argv (arg ++ [c]) cs
    else if c = 10 then   -- '\n', after a '\r' or not
      atcmdParseEnd type (argv ++ [if arg.getLast? = some 13 then arg.dropLast else arg])
    else atcmdParseFrom type argv (arg ++ [c]) cs

/-- `atcmd_parse`: the handler to call, and its arguments after the name of the command. -/
def atcmdParse (cmd : Bytes) : Option (AtcmdHandler × List Bytes) := atcmdParseFrom none [] [] cmd

/-- The command that the loops of `atcmd_handler` find under a name. -/
def atcmdSearch (groups : List (AtcmdGroup ε)) (name : Bytes) : Option (AtcmdInfo ε) :=
  groups.findSome? fun g =>
    if g.cmdPrefix.isPrefixOf name then
      g.cmdList.find? fun i => i.cmd == name.drop g.cmdPrefix.length
    else none

/-- What a line of input comes to. -/
inductive Effect (ε : Type*) where
  | nothing
  | reset
  | reply (ret : AtcmdError)
  | call (handler : HandlerFn ε) (name : Bytes) (type : AtcmdHandler) (argv : List Bytes)

/-- `atcmd_handler`, up to the call of the handler. -/
def AtcmdGroup.atcmdHandler (groups : List (AtcmdGroup ε)) (cmd : Bytes) : Effect ε :=
  match atcmdParse (cmd.drop 3) with
  | some (type, name :: argv) =>
    match atcmdSearch groups name with
    | some info =>
      match info.handler type with
      | some handler => .call handler name type argv
      | none => .reply .notsupp
    | none => .reply .inval
  | _ => .reply .inval

/-- `strstr` of `"AT"`: the string from its first occurrence on. -/
def strstrAT : Bytes → Option Bytes
  | 65 :: 84 :: s => some (65 :: 84 :: s)
  | _ :: s => strstrAT s
  | [] => none

def atcmdProcessCommand (groups : List (AtcmdGroup ε)) (config : AtcmdConfig) (cmd : Bytes) :
    AtcmdConfig × Effect ε :=
  let cmd := if 2 ≤ cmd.length then (strstrAT cmd).getD [] else cmd
  match cmd.length with
  | 2 => (config, .reply (if cmd = bytes "AT" then .success else .inval))
  | 3 =>
    if cmd = bytes "ATE" then ({ config with echo := !config.echo }, .reply .success)
    else if cmd = bytes "ATH" then (config, .reply .success)
    else if cmd = bytes "ATZ" then (config, .reset)
    else (config, .reply .inval)
  | 4 =>
    if cmd = bytes "ATE0" then ({ config with echo := false }, .reply .success)
    else if cmd = bytes "ATE1" then ({ config with echo := true }, .reply .success)
    else if cmd = bytes "ATH0" ∨ cmd = bytes "ATH1" then (config, .reply .success)
    else (config, .reply .inval)
  | len =>
    if len < 2 ∨ atcmdMsgLenMax < len then (config, .nothing)
    else if cmd.take 3 = bytes "AT+" then (config, AtcmdGroup.atcmdHandler groups (cmd ++ [10]))
    else (config, .reply .inval)

/-! ## Lines -/

/-- The statics of `atcmd_key_code`. -/
structure KeyCode where
  esc : Bool
  buf : Bytes
  cnt : ℕ
  deriving DecidableEq, Repr

def atcmdKeyCode (s : KeyCode) (c : UInt8) : KeyCode × AtcmdKey :=
  if c < 0x20 ∨ 0x7E < c then
    if c = 0x08 then (s, .bs)
    else if c = 0x0A then (s, .lf)
    else if c = 0x0D then (s, .cr)
    else if c = 0x1B then ({ s with esc := true, cnt := 0 }, .esc)
    else (s, .ignore)
  else if s.esc then
    let buf := s.buf.set s.cnt c
    match s.cnt with
    | 0 =>
      if c = 91 then ({ s with buf := buf, cnt := 1 }, .ignore)
      else ({ esc := false, buf := buf, cnt := 1 }, .reset)
    | 1 =>
      if 65 ≤ c ∧ c ≤ 68 then
        ({ esc := false, buf := buf, cnt := 2 },
          [.up, .down, .right, .left].getD (c.toNat - 65) .up)
      else ({ s with buf := buf, cnt := 2 }, .ignore)
    | 2 =>
      ({ esc := false, buf := buf, cnt := 3 },
        if c = 126 ∧ 49 ≤ buf.getD 1 0 ∧ buf.getD 1 0 ≤ 54 then
          [.home, .ins, .del, .endKey, .pgup, .pgdn].getD ((buf.getD 1 0).toNat - 49) .home
        else .reset)
    | cnt => ({ s with buf := buf, cnt := cnt + 1 }, .print)
  else (s, .print)

/-- `g_atcmd_config`, the statics of `atcmd_key_code` and `atcmd_receive_command`, and of the line
buffer what was kept of the line. -/
structure LineReader where
  key : KeyCode
  cmd : Bytes
  cntCR : ℕ
  config : AtcmdConfig
  deriving DecidableEq, Repr

/-- The options after `atcmd_enable`, and cleared statics. -/
def LineReader.boot : LineReader where
  key := { esc := false, buf := [0, 0, 0], cnt := 0 }
  cmd := []
  cntCR := 0
  config := { echo := false, linefeed := true }

/-- What a character does to `atcmd_receive_command`: the loop goes on, after it told the host that
a carriage return ends a line from now on, or after nothing, or it returns at the end of a line. -/
inductive Got (ε : Type*) where
  | next
  | linefeed
  | line (e : Effect ε)

/-- The case of a character to keep in the switch of `atcmd_receive_command`. -/
def LineReader.print (r : LineReader) (c : UInt8) : LineReader :=
  if r.cmd.length < 2 ∧ (bytes "AT")[r.cmd.length]? ≠ some c then { r with cmd := [] }
  else if r.cmd.length < atcmdMsgLenMax then { r with cmd := r.cmd ++ [c] }
  else r

/-- The switch in the loop body of `atcmd_receive_command`. -/
def LineReader.switch (groups : List (AtcmdGroup ε)) (r : LineReader) (c : UInt8) :
    AtcmdKey → LineReader × Got ε
  | .bs => ({ r with cmd := r.cmd.dropLast }, .next)
  | .print => (r.print c, .next)
  | .cr | .lf =>
    if r.cmd = [] then (r, .next)
    else
      let (config, e) := atcmdProcessCommand groups r.config r.cmd
      ({ r with cmd := [], config := config }, .line e)
  | .reset => ({ r with cmd := [] }, .next)
  | _ => (r, .next)

/-- The loop body of `atcmd_receive_command`. -/
def atcmdReceiveChar (groups : List (AtcmdGroup ε)) (r : LineReader) (c : UInt8) :
    LineReader × Got ε :=
  let (key, code) := atcmdKeyCode r.key c
  let r := { r with key := key }
  if r.config.linefeed then
    if code = .cr then
      let r := { r with cntCR := r.cntCR + 1 }
      if r.cntCR = 10 then ({ r with config := { r.config with linefeed := false } }, .linefeed)
      else (r, .next)
    else ({ r with cntCR := 0 } : LineReader).switch groups c code
  else r.switch groups c code

/-! ## The device -/

/-- What the device did with its input: the handlers it called, what it answered, and the sessions
that ended, each with what it sent out. -/
inductive Logged where
  | call (name : Bytes) (type : AtcmdHandler) (argv : List Bytes)
  | reply (cmd : Option Bytes) (ret : AtcmdError)
  | linefeed
  | session (p : DataModeParams) (out : List Out)
  deriving DecidableEq

/-- The receiver of the target, with the bytes the running call of `atcmd_receive` has not taken
yet. A system reset halts it. -/
structure Device (ε : Type*) where
  line : LineReader
  rx : Receiver ε
  rest : Bytes
  log : List Logged
  halted : Bool

/-- The device after a reset. -/
def Device.boot (e : ε) : Device ε where
  line := .boot
  rx := .boot e
  rest := []
  log := []
  halted := false

namespace Device

/-- A line in the log. -/
def record (d : Device ε) (l : Logged) : Device ε := { d with log := d.log ++ [l] }

/-- `atcmd_transmit_return`. -/
def transmitReturn (now : UInt32) (cmd : Option Bytes) (ret : AtcmdError) (d : Device ε) :
    Device ε :=
  let d := d.record (.reply cmd ret)
  if ret = .success then
    { d with rx := { d.rx with mode := atcmdDataModeContinue now d.rx.mode } }
  else d

/-- A handler enables the data mode. -/
def dataMode (p : DataModeParams) (d : Device ε) : Device ε :=
  { d with
    rx := { d.rx with mode := (atcmdDataModeEnable p d.rx.mode).getD d.rx.mode, out := [] } }

/-- The call of a handler. -/
def call (handler : HandlerFn ε) (name : Bytes) (type : AtcmdHandler) (argv : List Bytes)
    (d : Device ε) : Device ε :=
  let a := handler argv d.rx.env
  let d := { d.record (.call name type argv) with rx := { d.rx with env := a.env } }
  match a.dataMode with
  | some p => d.dataMode p.1
  | none => d

/-- What `atcmd_handler` does with the return value of a handler. -/
def handlerReturn (now : UInt32) (name : Bytes) (ret : AtcmdError) (d : Device ε) : Device ε :=
  match ret with
  | .noReturn => d
  | .notsupp => d.transmitReturn now none .notsupp
  | ret => d.transmitReturn now (some name) ret

/-- What a line comes to is done. -/
def perform (now : UInt32) (d : Device ε) : Effect ε → Device ε
  | .nothing => d
  | .reset => { d with halted := true }
  | .reply ret => d.transmitReturn now none ret
  | .call handler name type argv =>
    (d.call handler name type argv).handlerReturn now name (handler argv d.rx.env).ret

end Device

/-- `atcmd_receive_command`, and how many characters it took. -/
def atcmdReceiveCommand (groups : List (AtcmdGroup ε)) (now : UInt32) :
    Bytes → Device ε → Device ε × ℕ
  | [], d => (d, 0)
  | c :: cs, d =>
    let (line, got) := atcmdReceiveChar groups d.line c
    let d := { d with line := line }
    match got with
    | .line e => (d.perform now e, 1)
    | .linefeed =>
      let (d, n) := atcmdReceiveCommand groups now cs (d.record .linefeed)
      (d, n + 1)
    | .next =>
      let (d, n) := atcmdReceiveCommand groups now cs d
      (d, n + 1)

/-- The log at the end of a session. -/
def Device.ended (p : DataModeParams) (d : Device ε) : Device ε :=
  if d.rx.mode.enable then d
  else { d.record (.session p d.rx.out) with rx := { d.rx with out := [] } }

/-- The steps of the device: a call of `atcmd_receive`, a turn of its loop, or a pass of
`atcmd_data_mode_task`. Once it is halted, what it is sent is lost. -/
def deviceStep (S : Sink ε) (groups : List (AtcmdGroup ε)) (d : Device ε) :
    Input → Option (Device ε)
  | .receive buf =>
    if d.halted then some d
    else if d.rest = [] then some { d with rest := buf } else none
  | .turn now =>
    if d.halted ∨ d.rest = [] then none
    else if d.rx.mode.enable then
      let (rx, ret) := atcmdReceiveData S now d.rest d.rx
      some ({ d with rx := rx, rest := d.rest.drop ret }.ended d.rx.mode.params)
    else
      let (d', ret) := atcmdReceiveCommand groups now d.rest { d with rest := [] }
      some { d' with rest := d.rest.drop ret }
  | .tick now =>
    if d.halted then none else some { d with rx := (atcmdDataModeTask now d.rx).1 }

/-- The handlers called, each with its arguments. -/
def Device.calls (d : Device ε) : List (Bytes × AtcmdHandler × List Bytes) :=
  d.log.filterMap fun | .call name type argv => some (name, type, argv) | _ => none

/-- What each session handed to its sink, the running one last. -/
def Device.handed (d : Device ε) : List Bytes :=
  (d.log.filterMap fun | .session _ out => some (blocks out).flatten | _ => none)
    ++ if d.rx.mode.enable then [(blocks d.rx.out).flatten] else []

/-- All that was received is taken. -/
def Device.Done (d : Device ε) : Prop := d.halted = true ∨ d.rest = []

/-- The pass of `atcmd_data_mode_task` finds the session idle. -/
def Fires (d : Device ε) : Input → Prop
  | .tick now => d.rx.mode.idle = false ∧ (atcmdDataModeTask now d.rx).1.mode.idle = true
  | _ => False

instance (d : Device ε) : DecidablePred (Fires d)
  | .tick _ => inferInstanceAs (Decidable (_ ∧ _))
  | .receive _ | .turn _ => isFalse id

/-- A turn of the device copies over the end of `_buf`. -/
def Device.Overruns (d : Device ε) : Input → Prop
  | .turn _ => d.rx.Overruns d.rest
  | _ => False

instance (d : Device ε) : DecidablePred d.Overruns
  | .turn _ => inferInstanceAs (Decidable (Receiver.Overruns ..))
  | .receive _ | .tick _ => isFalse id

end NrcAtcmd
