import NrcAtcmd.CommandReceiver
import NrcAtcmd.Lib.Cells

/-!
# The buffer of the command line

`atcmd_parse`, `atcmd_handler`, `atcmd_process_command` and `atcmd_receive_command` again, over the
cells of `atcmd_buf_t`, which they write terminators into. A function has no result if it reads or
writes outside of the cells. `CommandReceiver` has the same functions over the line alone.

Pointers into the buffer are indices. `strstr` reads the line up to its terminator here.
-/

namespace NrcAtcmd

open Cells (store str)

variable {ε : Type*}

/-- `atcmd_buf_t`, with the statics of `atcmd_key_code` and `atcmd_receive_command`, and
`g_atcmd_config`. -/
structure AtcmdBuf where
  cmd : List UInt8
  cnt : ℕ
  key : KeyCode
  cntCR : ℕ
  config : AtcmdConfig
  deriving DecidableEq, Repr

namespace AtcmdBuf

/-- The buffer after `atcmd_enable`. -/
def boot : AtcmdBuf where
  cmd := List.replicate (atcmdMsgLenMax + 1) 0
  cnt := 0
  key := LineReader.boot.key
  cntCR := 0
  config := LineReader.boot.config

/-- `strupr`, in place. -/
def strupr (b : List UInt8) (i : ℕ) : Option (List UInt8) :=
  (str b i).map fun s => Memory.memcpy b i (NrcAtcmd.strupr s)

/-- The terminator that `atcmd_parse` writes at the end of the line, `c`. -/
def parseTerminate (b : List UInt8) (c : ℕ) : Option (List UInt8) :=
  b[c - 1]?.bind fun x => if x = 13 then store b (c - 1) 0 else store b c 0

/-- The number of arguments, with the name. There are none but the name if the first is empty. -/
def parseArgc (type : Option AtcmdType) (argv : List ℕ) (b : List UInt8) : Option ℕ :=
  let i := argv.length - 1
  if i ≠ 0 ∧ (type = some .getParam ∨ type = some .set) then
    (str b (argv.getD 1 0)).map fun arg => if arg ≠ [] then 1 + i else 1
  else some 1

/-- `atcmd_parse` at the end of the line, `c`. -/
def atcmdParseEnd (type : Option AtcmdType) (argv : List ℕ) (b : List UInt8) (c : ℕ) :
    Option (List UInt8 × Option (AtcmdHandler × List ℕ)) := do
  let b ← parseTerminate b c
  let type := if argv.length - 1 = 0 ∧ type = none then some .run else type
  let argc ← parseArgc type argv b
  let b ← strupr b (argv.getD 0 0)
  let argv := argv.take argc
  pure (b, match type with
    | some .run => some (.run, argv)
    | some .getParam => if argc = 1 then none else some (.get, argv)
    | some .get => some (.get, argv)
    | some .set => if argc = 1 then none else some (.set, argv)
    | some .setHelp => some (.set, argv)
    | none => none)

/-- The two loops of `atcmd_parse`: `argv` are the arguments before the running one, which starts
at `start`. Each turn of the inner loop looks at one more cell. -/
def atcmdParseFrom (type : Option AtcmdType) (argv : List ℕ) (start : ℕ) (b : List UInt8)
    (c : ℕ) : ℕ → Option (List UInt8 × Option (AtcmdHandler × List ℕ))
  | 0 => none
  | fuel + 1 => do
    let x ← b[c]?
    let next (type : Option AtcmdType) (argv : List ℕ) := do
      let b ← store b c 0
      if argv.length < atcmdMsgParamMax + 1 then
        atcmdParseFrom type argv (c + 1) b (c + 1) fuel
      else pure (b, none)
    if x = 61 then        -- '='
      if argv.length = 0 then next (if type = none then some .set else type) [start]
      else if argv.length = 1 ∧ type = some .get then next (some .getParam) argv
      else atcmdParseFrom type argv start b (c + 1) fuel
    else if x = 63 then   -- '?'
      if argv.length = 0 then next (if type = none then some .get else type) [start]
      else if argv.length = 1 ∧ type = some .set then next (some .setHelp) argv
      else atcmdParseFrom type argv start b (c + 1) fuel
    else if x = 44 then   -- ','
      if type = some .set then next type (argv ++ [start])
      else atcmdParseFrom type argv start b (c + 1) fuel
    else if x = 10 then   -- '\n'
      atcmdParseEnd type (argv ++ [start]) b c
    else if x = 0 then next type (argv ++ [start])
    else atcmdParseFrom type argv start b (c + 1) fuel

/-- `atcmd_parse`. The loops end at a cell outside of the buffer, if not before. -/
def atcmdParse (b : List UInt8) (cmd : ℕ) :
    Option (List UInt8 × Option (AtcmdHandler × List ℕ)) :=
  atcmdParseFrom none [] cmd b cmd (b.length + 1)

/-- `atcmd_handler`, up to the call of the handler. -/
def atcmdHandler (groups : List (AtcmdGroup ε)) (b : List UInt8) (cmd : ℕ) :
    Option (List UInt8 × Effect ε) :=
  (atcmdParse b (cmd + 3)).bind fun
    | (b, some (type, argv)) =>
      (argv.mapM (str b)).map fun
        | name :: argv =>
          match atcmdSearch groups name with
          | some info =>
            match info.handler type with
            | some handler => (b, .call handler name type argv)
            | none => (b, .reply .notsupp)
          | none => (b, .reply .inval)
        | [] => (b, .reply .inval)
    | (b, none) => some (b, .reply .inval)

/-- `atcmd_compare_command`, and a branch on its result. -/
def ifCommand {β : Type*} (b : List UInt8) (cmd : ℕ) (s : Bytes) (eq ne : Option β) : Option β :=
  if cmd + s.length ≤ b.length then if (b.drop cmd).take s.length = s then eq else ne else none

/-- The end of `atcmd_process_command`: a line that is refused goes to the log. -/
def processReturn (b : List UInt8) (cmd len : ℕ) (config : AtcmdConfig) (ret : AtcmdError) :
    Option (List UInt8 × AtcmdConfig × Effect ε) :=
  if ret = .success then some (b, config, .reply ret)
  else (store b (cmd + len) 0).bind fun b => (str b cmd).map fun _ => (b, config, .reply ret)

/-- `atcmd_process_command` after `strstr`, of the `len` characters from `cmd` on. -/
def processFrom (groups : List (AtcmdGroup ε)) (config : AtcmdConfig) (b : List UInt8)
    (cmd len : ℕ) : Option (List UInt8 × AtcmdConfig × Effect ε) :=
  let ret := processReturn b cmd len
  match len with
  | 2 => ifCommand b cmd (bytes "AT") (ret config .success) (ret config .inval)
  | 3 =>
    ifCommand b cmd (bytes "ATE") (ret { config with echo := !config.echo } .success) <|
    ifCommand b cmd (bytes "ATH") (ret config .success) <|
    ifCommand b cmd (bytes "ATZ") (some (b, config, .reset)) (ret config .inval)
  | 4 =>
    ifCommand b cmd (bytes "ATE0") (ret { config with echo := false } .success) <|
    ifCommand b cmd (bytes "ATE1") (ret { config with echo := true } .success) <|
    ifCommand b cmd (bytes "ATH0") (ret config .success) <|
    ifCommand b cmd (bytes "ATH1") (ret config .success) (ret config .inval)
  | len =>
    if len < 2 ∨ atcmdMsgLenMax < len then some (b, config, .nothing)
    else
      ifCommand b cmd (bytes "AT+")
        ((store b (cmd + len + 1) 0).bind fun b =>
          (atcmdHandler groups b cmd).map fun (b, e) => (b, config, e))
        (ret config .inval)

def atcmdProcessCommand (groups : List (AtcmdGroup ε)) (config : AtcmdConfig) (b : List UInt8)
    (len : ℕ) : Option (List UInt8 × AtcmdConfig × Effect ε) :=
  if 2 ≤ len then
    (store b len 0).bind fun b => (str b 0).bind fun line =>
      match strstrAT line with
      | none => processFrom groups config b 0 0
      | some s =>
        let cmd := line.length - s.length
        (store b (cmd + s.length) 10).bind fun b => processFrom groups config b cmd s.length
  else processFrom groups config b 0 len

/-- The case of a character to keep in the switch of `atcmd_receive_command`. -/
def print (r : AtcmdBuf) : Option AtcmdBuf := do
  let x ← r.cmd[r.cnt]?
  if r.cnt < 2 ∧ (bytes "AT")[r.cnt]? ≠ some x then pure { r with cnt := 0 }
  else if r.cnt < atcmdMsgLenMax then pure { r with cnt := r.cnt + 1 }
  else pure r

/-- The switch in the loop body of `atcmd_receive_command`. -/
def switch (groups : List (AtcmdGroup ε)) (r : AtcmdBuf) :
    AtcmdKey → Option (AtcmdBuf × Got ε)
  | .bs => some ({ r with cnt := r.cnt - 1 }, .next)
  | .print => r.print.map (·, .next)
  | .cr | .lf =>
    if r.cnt = 0 then some (r, .next)
    else (atcmdProcessCommand groups r.config r.cmd r.cnt).map fun (b, config, e) =>
      ({ r with cmd := b, cnt := 0, config := config }, .line e)
  | .reset => some ({ r with cnt := 0 }, .next)
  | _ => some (r, .next)

/-- The loop body of `atcmd_receive_command`. -/
def atcmdReceiveChar (groups : List (AtcmdGroup ε)) (r : AtcmdBuf) (c : UInt8) :
    Option (AtcmdBuf × Got ε) :=
  (store r.cmd r.cnt c).bind fun b => b[r.cnt]?.bind fun x =>
    let (key, code) := atcmdKeyCode r.key x
    let r := { r with cmd := b, key := key }
    if r.config.linefeed then
      if code = .cr then
        let r := { r with cntCR := r.cntCR + 1 }
        if r.cntCR = 10 then
          some ({ r with config := { r.config with linefeed := false } }, .linefeed)
        else some (r, .next)
      else ({ r with cntCR := 0 } : AtcmdBuf).switch groups code
    else r.switch groups code

/-- The line reader over the buffer: a character is a step if all its accesses are inside. -/
def step (groups : List (AtcmdGroup ε)) (r : AtcmdBuf) (c : UInt8) : Option AtcmdBuf :=
  (atcmdReceiveChar groups r c).map Prod.fst

/-- The line reader without the buffer. -/
def line (r : AtcmdBuf) : LineReader where
  key := r.key
  cmd := r.cmd.take r.cnt
  cntCR := r.cntCR
  config := r.config

end AtcmdBuf

end NrcAtcmd
