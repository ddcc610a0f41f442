import NrcAtcmd.HostRecv
import NrcAtcmd.Lib.Loops
import NrcAtcmd.Param

/-!
# The scripts of the host

`raspi_cli_run_script` and `raspi_cli_parse_params` of `main.c`. A script is the list of what `fgets`
returns of its file, so a position in the file is what is left of the list. Whatever a script does to
the outside, and what it is answered, is `ScriptWorld.act`. A read error of a file and a failing
`fseek` or `ftell` are left out, and so is what is printed on the way.

A line that begins with `AT` is the format of the command it sends. What the language leaves
undefined ends a script with `fault`: a write outside of an array, a conversion without its argument,
an `int` that overflows and a file that is closed without being open.
-/

namespace NrcAtcmd

open Decimal Loops

/-- `ATCMD_DATA_LEN_MAX`, `SCRIPT_CMD_LEN_MAX` and `SCRIPT_DATA_VAL_MAX`. -/
def scriptSendMax : ℕ := 4096

def scriptCmdLenMax : ℕ := 256

def scriptDataValMax : ℕ := 255

/-- `ATCMD_MSG_LEN_MAX`. -/
def scriptMsgLenMax : ℕ := 128

/-- The largest `int`. -/
def scriptIntMax : ℕ := 2147483647

/-! ## The lines -/

/-- `fgets`: what is read, to the end of a line or of the buffer, and what is left. -/
def fgets (size : ℕ) (file : Bytes) : Bytes × Bytes :=
  let buf := file.take (size - 1)
  let n := match buf.findIdx? (· == 10) with
    | some i => i + 1
    | none => buf.length
  (file.take n, file.drop n)

/-- What the first `n` calls of `fgets` read. -/
def scriptChunks : ℕ → Bytes → List Bytes
  | 0, _ => []
  | n + 1, file =>
    if file = [] then []
    else (fgets scriptCmdLenMax file).1 :: scriptChunks n (fgets scriptCmdLenMax file).2

def scriptLines (file : Bytes) : List Bytes := scriptChunks file.length file

/-- The end of the file stopped `fgets`. -/
def scriptUnended (chunk : Bytes) : Bool :=
  decide (chunk.getLast? ≠ some 10) && decide (chunk.length < scriptCmdLenMax - 1)

/-- What `cmd` holds of a line. -/
def scriptCmd (chunk : Bytes) : Bytes := (cString chunk).dropLast

/-- The text of a format without arguments, if there is no conversion in it but `%%`. -/
def formatText : Bytes → Option Bytes
  | [] => some []
  | 37 :: 37 :: t => (formatText t).map (37 :: ·)
  | b :: t => if b = 37 then none else (formatText t).map (b :: ·)

/-! ## The parameters of a line -/

/-- `string`, `argc`, the offsets in `argv`, and the text. -/
structure ParseParams where
  string : Bool
  argc : ℕ
  argv : List ℕ
  buf : Bytes
  deriving DecidableEq, Repr

/-- The loop of `raspi_cli_parse_params` for the character at `i`. The caller's `argv` has ten
entries, and there is no result where it is written behind them. -/
def parseParam (nArgv : ℕ) (delimiter : UInt8) (p : ParseParams) (i : ℕ) (b : UInt8) :
    Option ParseParams :=
  if b = 34 then
    let p := { p with buf := p.buf.set i 0, string := !p.string }
    if !p.string then some p
    else if p.argc - 1 < 10 then some { p with argv := p.argv.modify (p.argc - 1) (· + 1) }
    else none
  else if !p.string && b == delimiter then
    some { p with
      buf := p.buf.set i 0
      argv := if p.argc < nArgv then p.argv.set p.argc (i + 1) else p.argv
      argc := p.argc + 1 }
  else some p

def parseParams (nArgv : ℕ) (delimiter : UInt8) : Bytes → ℕ → ParseParams → Option ParseParams
  | [], _, p => some p
  | b :: t, i, p => (parseParam nArgv delimiter p i b).bind (parseParams nArgv delimiter t (i + 1))

/-- `raspi_cli_parse_params`: the parameters, unless there are too many of them. -/
def raspiCliParseParams (params : Bytes) (nArgv : ℕ) (delimiter : UInt8) :
    Option (Option (List Bytes)) :=
  let params := if params.head? = some delimiter then params.tail else params
  (parseParams nArgv delimiter params 0
      { string := false, argc := 1, argv := List.replicate 10 0, buf := params }).map fun p =>
    if nArgv < p.argc then none
    else
      let argv := (p.argv.take p.argc).map fun i => cString (p.buf.drop i)
      some (if argv = [[]] then [] else argv)

/-- The parameters of a text, which end at a delimiter outside of a string. -/
def paramFields (delimiter : UInt8) : Bool → Bytes → List Bytes
  | _, [] => [[]]
  | string, b :: t =>
    if b ≠ 34 ∧ string = false ∧ b = delimiter then [] :: paramFields delimiter false t
    else (paramFields delimiter (if b = 34 then !string else string) t).modifyHead (b :: ·)

/-- What a parameter comes to: it ends at a quote, and one that opens a string moves its beginning. -/
def paramText (field : Bytes) : Bytes :=
  cString ((field.map fun b => if b = 34 then 0 else b).drop ((field.count 34 + 1) / 2))

/-- Parameters as a script gives them: each in quotes, with a blank between them. -/
def quoteParams : List Bytes → Bytes
  | [] => []
  | [p] => 34 :: (p ++ [34])
  | p :: ps => 34 :: (p ++ 34 :: 32 :: quoteParams ps)

/-- The parameters of a command of four letters. -/
def scriptParams (cmd : Bytes) (nArgv : ℕ) : Option (Option (List Bytes)) :=
  raspiCliParseParams (cmd.drop 4) nArgv 32

/-- Whether `strtol` sets `errno` to `ERANGE`. -/
def strtolOverflow (s : Bytes) : Bool :=
  match signOf (s.dropWhile isSpace) with
  | (_, []) => false
  | (neg, b :: t) =>
    isDigit b && decide ((if neg then 2147483648 else 2147483647) < (scan 0 (b :: t)).1)

/-! ## The world -/

/-- What a script does outside. -/
inductive ScriptAct where
  | cmd (cmd : Bytes)
  | data (data : Bytes)
  | reopen (baudrate : ℤ) (flowctrl : Bool)
  | rand
  | wait (usec : UInt32)
  | echo (message : Bytes)
  | time
  | hold
  deriving DecidableEq, Repr

/-- The files, how the host is connected and whether an error ends a script, what an act is answered,
and `errno`: whether it is `ERANGE`, and what `strtol` makes of it where a number is too large. -/
structure ScriptWorld (δ : Type) where
  files : Bytes → Option Bytes
  uart : Bool
  atcmdErrorExit : Bool
  act : ScriptAct → δ → ℤ × δ
  erange : δ → Bool
  overflow : δ → δ

/-- The outside, and `next_data`. -/
structure ScriptState (δ : Type) where
  dev : δ
  nextData : ℕ

/-- How a script ends: at the end of the file, at an `EXIT`, with an error, or with what the language
leaves undefined. -/
inductive ScriptEnd where
  | done
  | exit
  | stop
  | fault
  deriving DecidableEq, Repr

variable {δ : Type}

namespace ScriptWorld

variable (w : ScriptWorld δ)

def perform (a : ScriptAct) (s : ScriptState δ) : ℤ × ScriptState δ :=
  let (ret, dev) := w.act a s.dev
  (ret, { s with dev := dev })

/-- A number is read. -/
def number (str : Bytes) (s : ScriptState δ) : ScriptState δ :=
  if strtolOverflow str then { s with dev := w.overflow s.dev } else s

/-- The lines that do one thing and never fail. -/
def plain (a : ScriptAct) (s : ScriptState δ) : Option ScriptEnd × ScriptState δ :=
  (none, (w.perform a s).2)

/-! ## The commands -/

/-- `nrc_atcmd_send_cmd`, unless the format has a conversion. -/
def nrcAtcmdSendCmd (fmt : Bytes) (s : ScriptState δ) : Option (ℤ × ScriptState δ) :=
  (formatText fmt).map fun cmd =>
    if cmd.length < 2 ∨ scriptMsgLenMax - 2 < cmd.length then (-1, s)
    else if cmd.take 2 ≠ bytes "AT" then (-1, s)
    else w.perform (.cmd cmd) s

def scriptAt (cmd : Bytes) (s : ScriptState δ) : Option ScriptEnd × ScriptState δ :=
  match w.nrcAtcmdSendCmd cmd s with
  | none => (some .fault, s)
  | some (ret, s) => (if ret = -1 ∧ w.atcmdErrorExit then some .stop else none, s)

/-- `UART <baudrate>` -/
def scriptUart (argv : List Bytes) (s : ScriptState δ) : Option ScriptEnd × ScriptState δ :=
  match argv with
  | [arg] =>
    if w.uart then
      let (flowctrl, str) := match arg with
        | 43 :: t => (true, t)
        | _ => (false, arg)
      let (ret, s) := w.perform (.reopen (atoi str) flowctrl) (w.number str s)
      (if ret ≠ 0 then some .stop else none, s)
    else (none, s)
  | _ => (none, s)

/-- The bytes a `DATA` takes its data from. -/
def scriptData : Bytes :=
  (List.range (scriptSendMax + (scriptDataValMax + 1))).map fun i => UInt8.ofNat (48 + i % 10)

/-- The loop of `DATA` from `i` on, in at most `n` calls. -/
def sendData (dataLen : ℕ) : ℕ → ℕ → ScriptState δ → Option ScriptEnd × ScriptState δ
  | 0, _, s => (none, s)
  | n + 1, i, s =>
    let len := min (dataLen - i) scriptSendMax
    let (ret, s) := w.perform (.data ((scriptData.drop s.nextData).take len)) s
    let nextData := s.nextData + len
    let s := { s with nextData :=
      if scriptDataValMax < nextData then nextData % (scriptDataValMax + 1) else nextData }
    if ret < 0 then (some .stop, s)
    else if scriptIntMax < i + scriptSendMax then (some .fault, s)
    else sendData dataLen n (i + scriptSendMax) s

/-- `DATA <length>` -/
def scriptSend (argv : List Bytes) (s : ScriptState δ) : Option ScriptEnd × ScriptState δ :=
  match argv with
  | [arg] =>
    let s := w.number arg s
    let dataLen := (strtol arg).1
    if w.erange s.dev ∨ dataLen ≤ 0 then (some .stop, s)
    else
      let len := dataLen.toNat
      w.sendData len ((len + (scriptSendMax - 1)) / scriptSendMax) 0 s
  | _ => (none, s)

/-- The time of `WAIT` in a parameter, in microseconds, or how it ends the script. -/
def waitTime (arg : Bytes) : Except ScriptEnd UInt32 :=
  let tmp := (strtol arg.dropLast).1
  match arg.getLast? with
  | some unit =>
    if 0 < tmp ∧ (unit = 115 ∨ tmp ≤ 1000) then
      let usec := UInt32.ofNat tmp.toNat
      if unit = 115 then
        if scriptIntMax < tmp.toNat * 1000000 then .error .fault else .ok (usec * 1000000)
      else if unit = 109 then .ok (usec * 1000)
      else if unit = 117 then .ok usec
      else .error .stop
    else .error .stop
  | none => .error .stop

/-- Whether the unit of a parameter of `WAIT` is one, and its number is read. -/
def waitRead (arg : Bytes) (s : ScriptState δ) : ScriptState δ :=
  if arg.getLast? = some 115 ∨ arg.getLast? = some 109 ∨ arg.getLast? = some 117 then
    w.number arg.dropLast s
  else s

/-- `WAIT <time>{s|m|u} [<time>{s|m|u}]` -/
def scriptWait (argv : List Bytes) (s : ScriptState δ) : Option ScriptEnd × ScriptState δ :=
  match argv with
  | [arg] =>
    let s := w.waitRead arg s
    match waitTime arg with
    | .ok usec => w.plain (.wait usec) s
    | .error e => (some e, s)
  | [arg, arg'] =>
    let s := w.waitRead arg s
    match waitTime arg with
    | .error e => (some e, s)
    | .ok usec =>
      let s := w.waitRead arg' s
      match waitTime arg' with
      | .error e => (some e, s)
      | .ok usec' =>
        if usec' = 0 then w.plain (.wait usec) s
        else if usec' ≤ usec then (some .stop, s)
        else
          let (num, s) := w.perform .rand s
          let num := UInt32.ofNat num.toNat
          let num := if usec' ≤ num then num % usec' else num
          w.plain (.wait (if num ≤ usec then usec else num)) s
  | _ => (none, s)

/-- `ECHO "<message>"` -/
def scriptEcho (argv : List Bytes) (s : ScriptState δ) : Option ScriptEnd × ScriptState δ :=
  match argv with
  | [arg] => w.plain (.echo arg) s
  | _ => (none, s)

/-- `LOOP <line> <count>`, whose effect on the lines is `scriptLoop`. -/
def scriptLoops (argv : List Bytes) (s : ScriptState δ) : Option ScriptEnd × ScriptState δ :=
  match argv with
  | [line, count] =>
    let s := w.number line s
    if w.erange s.dev ∨ (strtol line).1 ≤ 0 then (some .stop, s)
    else
      let s := w.number count s
      if w.erange s.dev ∨ (strtol count).1 ≤ 0 then (some .stop, s) else (none, s)
  | _ => (none, s)

end ScriptWorld

/-- The loop a line begins. A number that is too large ends the script. -/
def scriptLoop (chunk : Bytes) : Option (ℕ × ℕ) :=
  let cmd := scriptCmd chunk
  if cmd.take 4 = bytes "LOOP" then
    match scriptParams cmd 2 with
    | some (some [line, count]) =>
      if 0 < (strtol line).1 ∧ 0 < (strtol count).1 then
        some ((strtol line).1.toNat, (strtol count).1.toNat)
      else none
    | _ => none
  else none

/-- The script a line calls, from a script in the directory `path`. -/
def scriptCallee (path chunk : Bytes) : Option Bytes :=
  let cmd := scriptCmd chunk
  if cmd.take 4 = bytes "CALL" then
    match scriptParams cmd 1 with
    | some (some [arg]) => some (if arg.head? = some 47 then arg else path ++ 47 :: arg)
    | _ => none
  else none

namespace ScriptWorld

variable (w : ScriptWorld δ)

/-- A command with its parameters, if there are not too many. -/
def withParams (cmd : Bytes) (nArgv : ℕ)
    (f : List Bytes → ScriptState δ → Option ScriptEnd × ScriptState δ) (s : ScriptState δ) :
    Option ScriptEnd × ScriptState δ :=
  match scriptParams cmd nArgv with
  | none => (some .fault, s)
  | some none => (none, s)
  | some (some argv) => f argv s

/-- `CALL <script_name>` -/
def scriptCall (path : Bytes)
    (call : Bytes → ScriptState δ → Option (ScriptEnd × ScriptState δ)) (chunk : Bytes)
    (s : ScriptState δ) : Option (Option ScriptEnd × ScriptState δ) :=
  match scriptCallee path chunk with
  | none => some (withParams (scriptCmd chunk) 1 (fun _ s => (none, s)) s)
  | some script => (call script s).map fun (e, s) =>
    (if e = .stop ∨ e = .fault then some e else none, s)

/-- A line of a script in `path`, where `call` runs another script and `last` says that nothing is
left of the file. -/
def scriptLine (path : Bytes)
    (call : Bytes → ScriptState δ → Option (ScriptEnd × ScriptState δ)) (chunk : Bytes)
    (last : Bool) (s : ScriptState δ) : Option (Option ScriptEnd × ScriptState δ) :=
  let cmd := scriptCmd chunk
  if chunk.head? = some 0 then some (some .fault, s)
  else if cmd = [] ∨ cmd.head? = some 35 then some (none, s)
  else if cmd.take 2 = bytes "AT" then some (w.scriptAt cmd s)
  else if cmd.take 4 = bytes "UART" then some (withParams cmd 1 w.scriptUart s)
  else if cmd.take 4 = bytes "DATA" then some (withParams cmd 1 w.scriptSend s)
  else if cmd.take 4 = bytes "CALL" then scriptCall path call chunk s
  else if cmd.take 4 = bytes "WAIT" then some (withParams cmd 2 w.scriptWait s)
  else if cmd.take 4 = bytes "ECHO" then some (withParams cmd 1 w.scriptEcho s)
  else if cmd.take 4 = bytes "LOOP" then some (withParams cmd 2 w.scriptLoops s)
  else if cmd.take 4 = bytes "TIME" then some (w.plain .time s)
  else if cmd.take 4 = bytes "HOLD" then some (w.plain .hold s)
  else if cmd.take 4 = bytes "EXIT" then
    some (some (if last && scriptUnended chunk then .done else .exit), s)
  else some (some .stop, s)

/-- What `fgets` and the loop of a script leave to read, until it ends, in at most `n` lines. -/
def scriptRun (path : Bytes) (call : Bytes → ScriptState δ → Option (ScriptEnd × ScriptState δ)) :
    ℕ → Control Bytes → ScriptState δ → Option (ScriptEnd × ScriptState δ)
  | 0, _, _ => none
  | n + 1, c, s => match c.fetch scriptLoop with
    | none => some (.done, s)
    | some (chunk, c) => match w.scriptLine path call chunk c.rest.isEmpty s with
      | none => none
      | some (none, s) => scriptRun path call n c s
      | some (some e, s) => some (e, s)

end ScriptWorld

/-- The name of a script without the `./` before it, unless it begins with `~/`. -/
def scriptName : Bytes → Option Bytes
  | 126 :: 47 :: _ => none
  | 46 :: 47 :: t => scriptName t
  | t => some t

/-- `script_path`, and the file that is opened. -/
def scriptFile (script : Bytes) : Option (Bytes × Bytes) :=
  (scriptName script).map fun script =>
    let name := (script.reverse.takeWhile (· != 47)).reverse
    let path := if name.length = script.length then [46]
      else script.take (script.length - name.length - 1)
    (path, path ++ 47 :: name)

/-- No loop runs. -/
def scriptStart (file : Bytes) : Control Bytes := ⟨scriptLines file, 0, 0, 0, 0, []⟩

namespace ScriptWorld

variable (w : ScriptWorld δ)

/-- `raspi_cli_run_script`, with `n` lines of each script and as many calls in each other. A file that
cannot be opened is closed all the same. -/
def raspiCliRunScript : ℕ → Bytes → ScriptState δ → Option (ScriptEnd × ScriptState δ)
  | 0, _, _ => none
  | n + 1, script, s => match scriptFile script with
    | none => some (.stop, s)
    | some (path, name) => match w.files name with
      | none => some (.fault, s)
      | some file => w.scriptRun path (raspiCliRunScript n) n (scriptStart file) s

/-! ## Scripts without their loops -/

/-- The lines of a script that has no loop, one after the other. -/
def scriptExec (path : Bytes) (call : Bytes → ScriptState δ → Option (ScriptEnd × ScriptState δ)) :
    List Bytes → ScriptState δ → Option (ScriptEnd × ScriptState δ)
  | [], s => some (.done, s)
  | chunk :: ls, s => match w.scriptLine path call chunk ls.isEmpty s with
    | none => none
    | some (none, s) => scriptExec path call ls s
    | some (some e, s) => some (e, s)

/-- A script and those it calls, each as the list of the lines it reads. -/
def runUnrolled : ℕ → Bytes → ScriptState δ → Option (ScriptEnd × ScriptState δ)
  | 0, _, _ => none
  | k + 1, script, s => match scriptFile script with
    | none => some (.stop, s)
    | some (path, name) => match w.files name with
      | none => some (.fault, s)
      | some file => match unroll scriptLoop 0 (scriptLines file) with
        | none => none
        | some ls => w.scriptExec path (runUnrolled k) ls s

/-- No script below this one calls others to a depth of `k`, and none has a knot. -/
def CallsWithin : ℕ → Bytes → Prop
  | 0, _ => False
  | k + 1, script => ∀ path name file, scriptFile script = some (path, name) →
      w.files name = some file → ¬ Knotted scriptLoop (scriptLines file) ∧
        ∀ chunk ∈ scriptLines file, ∀ callee, scriptCallee path chunk = some callee →
          CallsWithin k callee

end ScriptWorld

/-- What a script may do outside: send a command that is one line, send at most `ATCMD_DATA_LEN_MAX`
of the digits in turn, and whatever sends nothing. -/
def ScriptAct.Allowed : ScriptAct → Prop
  | .cmd c => c.take 2 = bytes "AT" ∧ c.length ≤ scriptMsgLenMax - 2 ∧ 0 ∉ c ∧ 10 ∉ c
  | .data d => 0 < d.length ∧ d.length ≤ scriptSendMax ∧ ∃ first ≤ scriptDataValMax,
      d = (List.range d.length).map fun i => UInt8.ofNat (48 + (first + i) % 10)
  | _ => True

end NrcAtcmd
