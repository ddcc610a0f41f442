import NrcAtcmd.Message
import NrcAtcmd.Lib.Cells

/-!
# The buffer of a message

`atcmd_msg_vsnprint` and `atcmd_msg_print` over the bytes of the buffer. Neither has a result if it
reads or writes outside of it.

A text that is printed is given. `snprintf` writes what a size has room for and a terminator, and
returns the length of all of the text, or an error if an `int` cannot tell it. A size that an `int`
cannot tell is an error in some libraries and none in others, so either may be the case.
-/

namespace NrcAtcmd

def intMax : ℕ := 2147483647

/-- An `int` as a `size_t`. -/
def sizeOfInt (n : ℤ) : ℕ := (n % 2 ^ 32).toNat

/-- `snprintf` to the cell `off`. With `eoverflow` a size over `INT_MAX` is an error. -/
def snprintf (eoverflow : Bool) (buf : List UInt8) (off size : ℕ) (text : Bytes) :
    Option (List UInt8 × ℤ) :=
  if eoverflow = true ∧ intMax < size then some (buf, -1)
  else
    let ret : ℤ := if text.length ≤ intMax then text.length else -1
    if size = 0 then some (buf, ret)
    else (Cells.copy buf off (text.take (size - 1) ++ [0])).map (·, ret)

namespace MsgBuf

/-- `enum ATCMD_MSG_TYPE`. -/
inductive AtcmdMsgType where
  | ret | info | event | debug | help
  deriving DecidableEq, Repr

/-- A print to what the ones before it, which returned `ret`, left of the buffer. -/
def print (eoverflow : Bool) (len : ℤ) (text : Bytes) (buf : List UInt8) (ret : ℤ) :
    Option (List UInt8 × ℤ) :=
  (snprintf eoverflow buf ret.toNat (sizeOfInt (len - ret)) text).map fun (buf, n) => (buf, ret + n)

/-- `atcmd_msg_vsnprint`, of a type that is none of those or one of them. -/
def atcmdMsgVsnprint (eoverflow : Bool) (type : Option AtcmdMsgType) (buf : List UInt8) (len : ℤ)
    (text : Bytes) : Option (List UInt8 × ℤ) :=
  match type with
  | none => some (buf, 0)
  | some _ =>
    (print eoverflow len (bytes "+") buf 0).bind fun (buf, ret) =>
      (print eoverflow len text buf ret).bind fun (buf, ret) =>
        print eoverflow len (bytes "\r\n") buf ret

/-- `atcmd_msg_print`, and what it transmits of its buffer. -/
def atcmdMsgPrint (eoverflow : Bool) (type : Option AtcmdMsgType) (buf : List UInt8)
    (text : Bytes) : Option Bytes :=
  (atcmdMsgVsnprint eoverflow type buf (buf.length - 1) text).bind fun (buf, len) =>
    if len ≤ buf.length then some (buf.take len.toNat) else none

end MsgBuf

end NrcAtcmd
