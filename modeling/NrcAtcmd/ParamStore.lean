import NrcAtcmd.Lib.Cells
import NrcAtcmd.Param

/-!
# Parsers of parameters and their destinations

`atcmd_param.c` again, with what a parser reads and writes beside the parameter: `errno`, and the
destination, which has a value before. A parser returns 0 or -1, and those that give back a pointer
return it or none. `Param` has the same parsers without a destination.

Numbers are integers, cut to their width where the source casts them.
-/

namespace NrcAtcmd.ParamStore

open Decimal
open Memory (memcpy)

/-! ## Integers -/

def erange : ℤ := 34

/-- `strtol` in base 10, and `errno` after it, which is set where the number is out of range. -/
def strtol (errno : ℤ) (s : Bytes) : (ℤ × Bytes) × ℤ :=
  let (neg, t) := signOf (s.dropWhile isSpace)
  let v : ℤ := if neg then -((scan 0 t).1 : ℤ) else (scan 0 t).1
  (NrcAtcmd.strtol s, if longOf v = v then errno else erange)

/-- `_atcmd_param_to_int`: what it returns, `*val` and `errno`. -/
def atcmdParamToInt_ (errno : ℤ) (str : Bytes) (val : ℤ) : ℤ × ℤ × ℤ :=
  let ((ret, end_), errno) := strtol errno str
  if end_ ≠ [] then (-1, val, errno)
  else if errno = erange ∧ (ret = -2 ^ 31 ∨ ret = 2 ^ 31 - 1) then (-1, val, errno)
  else if ofInt ret ≠ str then (-1, val, errno)
  else (0, ret, errno)

/-- `_atcmd_param_to_uint`, which reads a `long` into an `unsigned long`. -/
def atcmdParamToUint_ (errno : ℤ) (str : Bytes) (val : ℤ) : ℤ × ℤ × ℤ :=
  if str.head? = some 45 then (-1, val, errno)
  else
    let ((ret, end_), errno) := strtol errno str
    let ret := ret % 2 ^ 32
    if end_ ≠ [] then (-1, val, errno)
    else if errno = erange ∧ ret = 2 ^ 32 - 1 then (-1, val, errno)
    else if ofInt ret ≠ str then (-1, val, errno)
    else (0, ret, errno)

/-- What the parsers for 8 and 16 bits do with `_val`, the value an inner parser stored: it is
stored if it is in the range. -/
def store (lo hi : ℤ) (cast : ℤ → ℤ) (val : ℤ) : ℤ × ℤ × ℤ → ℤ × ℤ × ℤ
  | (ret, val', errno) =>
    if ret ≠ 0 then (-1, val, errno)
    else if val' < lo ∨ hi < val' then (-1, val, errno)
    else (0, cast val', errno)

/-- What the parsers for 32 bits do with it, whose check of the range is commented out. -/
def storeAll (cast : ℤ → ℤ) (val : ℤ) : ℤ × ℤ × ℤ → ℤ × ℤ × ℤ
  | (ret, val', errno) => if ret ≠ 0 then (-1, val, errno) else (0, cast val', errno)

/-- `atcmd_param_to_int8`. `_val` is not set before; what it holds is not read. -/
def atcmdParamToInt8 (errno : ℤ) (str : Bytes) (val : ℤ) : ℤ × ℤ × ℤ :=
  store (-128) 127 (·.bmod (2 ^ 8)) val (atcmdParamToInt_ errno str 0)

def atcmdParamToInt16 (errno : ℤ) (str : Bytes) (val : ℤ) : ℤ × ℤ × ℤ :=
  store (-32768) 32767 (·.bmod (2 ^ 16)) val (atcmdParamToInt_ errno str 0)

def atcmdParamToInt32 (errno : ℤ) (str : Bytes) (val : ℤ) : ℤ × ℤ × ℤ :=
  storeAll (·.bmod (2 ^ 32)) val (atcmdParamToInt_ errno str 0)

def atcmdParamToUint8 (errno : ℤ) (str : Bytes) (val : ℤ) : ℤ × ℤ × ℤ :=
  store 0 255 (· % 2 ^ 8) val (atcmdParamToUint_ errno str 0)

def atcmdParamToUint16 (errno : ℤ) (str : Bytes) (val : ℤ) : ℤ × ℤ × ℤ :=
  store 0 65535 (· % 2 ^ 16) val (atcmdParamToUint_ errno str 0)

def atcmdParamToUint32 (errno : ℤ) (str : Bytes) (val : ℤ) : ℤ × ℤ × ℤ :=
  storeAll (· % 2 ^ 32) val (atcmdParamToUint_ errno str 0)

/-- The type of a destination. -/
inductive IntType where
  | int8
  | int16
  | int32
  | uint8
  | uint16
  | uint32
  deriving DecidableEq, Repr

namespace IntType

/-- Its least value. -/
def lo : IntType → ℤ
  | int8 => -2 ^ 7
  | int16 => -2 ^ 15
  | int32 => -2 ^ 31
  | uint8 | uint16 | uint32 => 0

/-- Its greatest value. -/
def hi : IntType → ℤ
  | int8 => 2 ^ 7 - 1
  | int16 => 2 ^ 15 - 1
  | int32 => 2 ^ 31 - 1
  | uint8 => 2 ^ 8 - 1
  | uint16 => 2 ^ 16 - 1
  | uint32 => 2 ^ 32 - 1

/-- The parser for it. -/
def parse : IntType → (errno : ℤ) → (str : Bytes) → (val : ℤ) → ℤ × ℤ × ℤ
  | int8 => atcmdParamToInt8
  | int16 => atcmdParamToInt16
  | int32 => atcmdParamToInt32
  | uint8 => atcmdParamToUint8
  | uint16 => atcmdParamToUint16
  | uint32 => atcmdParamToUint32

end IntType

/-- A text that spells an integer in decimal, with no sign but a minus, no zero before another digit
and no `-0`. -/
inductive Canonical : Bytes → ℤ → Prop
  | nonneg {s : Bytes} {n : ℕ} : Numeral s n → Canonical s n
  | neg {s : Bytes} {n : ℕ} : Numeral s n → 0 < n → Canonical (45 :: s) (-n)

/-- The parser for a type takes the spellings of its values, and nothing else, and has an effect
only on what it takes. -/
structure Exact (t : IntType) (errno : ℤ) (str : Bytes) : Prop where
  accepts : ∀ v, Canonical str v → t.lo ≤ v → v ≤ t.hi → ∀ val,
    (t.parse errno str val).1 = 0 ∧ (t.parse errno str val).2.1 = v
  rejects : (∀ v, Canonical str v → ¬ (t.lo ≤ v ∧ v ≤ t.hi)) → ∀ val,
    (t.parse errno str val).1 = -1 ∧ (t.parse errno str val).2.1 = val

/-- What the parsers miss: the ends of an `int32_t` while `errno` is `ERANGE`, and the upper half of
a `uint32_t`. -/
def Misses (errno : ℤ) (str : Bytes) : IntType → Prop
  | .int32 => errno = erange ∧ (str = bytes "-2147483648" ∨ str = bytes "2147483647")
  | .uint32 => ∃ v, Canonical str v ∧ 2 ^ 31 ≤ v ∧ v < 2 ^ 32
  | _ => False

/-! ## Hexadecimal numbers -/

/-- The loop of `atcmd_param_to_hex` over the digits that are left: what it returns, and `*val`. -/
def hexLoop (val : UInt32) : Bytes → ℤ × UInt32
  | [] => (0, val)
  | b :: bs =>
    match hexDigit b with
    | some d => hexLoop (val <<< 4 + d) bs
    | none => (-1, val)

def atcmdParamToHex (param : Bytes) (val : UInt32) : ℤ × UInt32 :=
  if param.length < 2 ∨ 10 < param.length ∨ param.take 2 ≠ bytes "0x" then (-1, val)
  else hexLoop 0 (param.drop 2)

/-- The number hexadecimal digits spell, if all of them are digits. -/
def hexValue (ds : Bytes) : Option ℕ :=
  ds.foldlM (fun n b => (hexDigit b).map fun d => 16 * n + d.toNat) 0

/-- A text that spells a number in one to eight hexadecimal digits. -/
def SpellsHex (param : Bytes) (n : ℕ) : Prop :=
  ∃ ds, param = bytes "0x" ++ ds ∧ 1 ≤ ds.length ∧ ds.length ≤ 8 ∧ hexValue ds = some n

/-- The parser takes the spellings, and nothing else, and has an effect only on what it takes. -/
structure ExactHex (param : Bytes) : Prop where
  accepts : ∀ n, SpellsHex param n → ∀ val,
    (atcmdParamToHex param val).1 = 0 ∧ (atcmdParamToHex param val).2.toNat = n
  rejects : (∀ n, ¬ SpellsHex param n) → ∀ val,
    (atcmdParamToHex param val).1 = -1 ∧ (atcmdParamToHex param val).2 = val

/-- What the parser misses: no digits at all, and up to eight characters that are not all digits,
since the digits before the first that is none are in the destination by then. -/
def MissesHex (param : Bytes) : Prop :=
  param = bytes "0x" ∨
    ∃ ds, param = bytes "0x" ++ ds ∧ ds.length ≤ 8 ∧ ∃ b ∈ ds, hexDigit b = none

/-! ## Strings -/

/-- A string, without its terminator. -/
abbrev CStr := { s : Bytes // 0 ∉ s }

/-- `atcmd_param_to_str`: the buffer after it. -/
def atcmdParamToStr (param str : Bytes) (len : ℤ) : Option Bytes :=
  if len = 0 then none
  else
    let paramLen := param.length
    if paramLen < 2 ∨ len - 1 < (paramLen : ℤ) - 2 then none
    else if param[0]? ≠ some 34 ∨ param[paramLen - 1]? ≠ some 34 then none
    else
      (Cells.copy str 0 ((param.drop 1).take (paramLen - 2))).bind fun str =>
        Cells.store str (paramLen - 2) 0

/-- `atcmd_str_to_param`: the buffer after it. -/
def atcmdStrToParam (str param : Bytes) (len : ℤ) : Option Bytes :=
  if len = 0 then none
  else if len < str.length + 2 + 1 then none
  else
    (Cells.copy param 0 (quoted str ++ [0])).bind fun param =>
      Cells.store param (str.length + 2) 0

/-- `nrc_atcmd_param_to_str` of the host: the buffer after it. -/
def nrcAtcmdParamToStr (param str : Bytes) (len : ℤ) : Option Bytes :=
  if len = 0 then none
  else
    let paramLen := param.length
    if paramLen ≤ 2 ∨ len - 1 < (paramLen : ℤ) - 2 then none
    else if param[0]? ≠ some 34 ∧ param[paramLen - 1]? ≠ some 34 then none
    else
      (Cells.copy str 0 ((param.drop 1).take (paramLen - 2))).bind fun str =>
        Cells.store str (paramLen - 2) 0

/-- A decoder. -/
abbrev Decoder := (param str : Bytes) → (len : ℤ) → Option Bytes

/-- What a decoder gives, from a buffer of its own size. -/
def Decoder.decode (d : Decoder) (param str : Bytes) : Option Bytes :=
  (d param str str.length).bind fun str => Cells.str str 0

/-- A string goes through the encoder and a decoder, whatever the buffers that have room for it. -/
def RoundTrips (d : Decoder) (s : CStr) : Prop :=
  ∀ param str : Bytes, s.1.length + 2 < param.length → s.1.length < str.length →
    ∃ param' text, atcmdStrToParam s.1 param param.length = some param'
      ∧ Cells.str param' 0 = some text ∧ d.decode text str = some s.1

/-- A parameter begins and ends with a quote. -/
def IsQuoted (param : Bytes) : Prop :=
  2 ≤ param.length ∧ param.head? = some 34 ∧ param.getLast? = some 34

instance (param : Bytes) : Decidable (IsQuoted param) := inferInstanceAs (Decidable (_ ∧ _ ∧ _))

/-- A decoder takes the quoted parameters that there is room for. -/
def Decodes (d : Decoder) (param str : Bytes) : Prop :=
  d.decode param str =
    if IsQuoted param ∧ param.length - 2 < str.length then some param.tail.dropLast else none

/-- What the decoder of the host gets wrong: a parameter of two quotes, and one with a quote at one
end only. -/
def Disagree (param str : Bytes) : Prop :=
  str ≠ [] ∧ param = bytes "\"\"" ∨
    3 ≤ param.length ∧ param.length - 2 < str.length
      ∧ (param.head? = some 34 ↔ param.getLast? ≠ some 34)

end NrcAtcmd.ParamStore
