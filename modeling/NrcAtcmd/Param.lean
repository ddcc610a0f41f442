import NrcAtcmd.Lib.Decimal
import NrcAtcmd.Message

/-!
# Parameters of a command

`atcmd_param.c`: a parameter is a string, and a number is accepted only in the spelling `%ld` or
`%lu` gives it. `strtol` and `atoi` are those of the C library, with a `long` of 32 bits.
-/

namespace NrcAtcmd

open Decimal

def isSpace (b : UInt8) : Bool := b == 32 || (decide (9 ≤ b) && decide (b ≤ 13))

/-- A number in the range of a `long`: what lies outside is cut to its ends. -/
def longOf (v : ℤ) : ℤ := max (-2147483648) (min 2147483647 v)

/-- Whether a number begins with a minus sign, and what follows its sign. -/
def signOf : Bytes → Bool × Bytes
  | 45 :: t => (true, t)
  | 43 :: t => (false, t)
  | t => (false, t)

/-- `strtol` in base 10: the number, and the text after it. -/
def strtol (s : Bytes) : ℤ × Bytes :=
  let (neg, t) := signOf (s.dropWhile isSpace)
  match t with
  | b :: _ =>
    if isDigit b then
      let (n, t) := scan 0 t
      (longOf (if neg then -(n : ℤ) else n), t)
    else (0, s)
  | [] => (0, s)

def atoi (s : Bytes) : ℤ := (strtol s).1

/-- `_atcmd_param_to_int`. `errno` may still be `ERANGE` from an earlier call. -/
def atcmdParamToInt_ (erange : Bool) (str : Bytes) : Option ℤ :=
  let (ret, end_) := strtol str
  if end_ ≠ [] then none
  else if erange && (ret == -2147483648 || ret == 2147483647) then none
  else if ofInt ret ≠ str then none
  else some ret

def atcmdParamToInt32 (erange : Bool) (str : Bytes) : Option ℤ := atcmdParamToInt_ erange str

/-- `_atcmd_param_to_uint`, which also reads the number with `strtol`. -/
def atcmdParamToUint_ (str : Bytes) : Option ℕ :=
  if str.head? = some 45 then none
  else
    let (ret, end_) := strtol str
    let ret := (ret % 2 ^ 32).toNat
    if end_ ≠ [] then none
    else if ofNat ret ≠ str then none
    else some ret

def atcmdParamToUint16 (str : Bytes) : Option ℕ :=
  (atcmdParamToUint_ str).filter fun val => val ≤ 65535

def atcmdParamToUint32 (str : Bytes) : Option UInt32 := (atcmdParamToUint_ str).map .ofNat

/-- The value of a hexadecimal digit. -/
def hexDigit (b : UInt8) : Option UInt32 :=
  if 48 ≤ b ∧ b ≤ 57 then some (b - 48).toUInt32
  else if 97 ≤ b ∧ b ≤ 102 then some (b - 97 + 10).toUInt32
  else if 65 ≤ b ∧ b ≤ 70 then some (b - 65 + 10).toUInt32
  else none

def atcmdParamToHex (param : Bytes) : Option UInt32 :=
  if param.length < 2 ∨ 10 < param.length ∨ param.take 2 ≠ bytes "0x" then none
  else (param.drop 2).foldlM (fun val b => (hexDigit b).map (val <<< 4 + ·)) 0

/-- `atcmd_param_to_str`, into a buffer of `len` bytes. -/
def atcmdParamToStr (param : Bytes) (len : ℕ) : Option Bytes :=
  if param.length < 2 ∨ len - 1 < param.length - 2 ∨ len = 0 then none
  else if param.head? ≠ some 34 ∨ param.getLast? ≠ some 34 then none
  else some ((param.drop 1).dropLast)

end NrcAtcmd
