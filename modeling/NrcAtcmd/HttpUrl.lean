import NrcAtcmd.Lib.Cells
import NrcAtcmd.Lib.Checked
import NrcAtcmd.Param

/-!
# The URL of an HTTP request

`httpc_parse_url` of `nrc_http_client.c` with every copy it makes: one that leaves its buffer or
reads behind the end of the URL has no result, and neither has one of a negative length. Offsets are
those in the URL, which is a string.
-/

namespace NrcAtcmd

open Cells (Buffer)
open Checked

/-- `httpc_ret_e`. -/
inductive HttpcRet where
  | ok
  | conClosed
  | errorConnection
  | errorResolvingDns
  | errorSocketFail
  | errorSchemeNotFound
  | errorAllocFail
  | errorInvalidHandle
  | errorHeaderSendFail
  deriving DecidableEq, Repr

/-- `protocol_scheme_e`. -/
inductive HttpScheme where
  | http
  | https
  deriving DecidableEq, Repr

/-- What `httpc_parse_url` writes in `http_info_t`. -/
structure HttpInfo where
  host : Buffer UInt8 128
  uri : Buffer UInt8 1024
  scheme : HttpScheme
  port : Buffer UInt8 6

namespace HttpUrl

/-- The `http_info_t` of `httpc_common`, set to zero. -/
def freshInfo : HttpInfo :=
  ⟨⟨List.replicate 128 0, List.length_replicate⟩, ⟨List.replicate 1024 0, List.length_replicate⟩,
    .http, ⟨List.replicate 6 0, List.length_replicate⟩⟩

/-- `strchr` from an offset on. -/
def strchr (url : Bytes) (off : ℕ) (c : UInt8) : Option ℕ :=
  ((url.drop off).findIdx? (· == c)).map (off + ·)

variable {n : ℕ}

/-- `memcpy` to the start of a buffer, from an offset of the URL on. -/
def memcpy (dst : Buffer UInt8 n) (url : Bytes) (off : ℕ) (len : ℤ) : Option (Buffer UInt8 n) := do
  let len ← size len
  let src ← Cells.fetch (url ++ [0]) off len
  dst.copy 0 src

/-- `strncpy` to the start of a buffer: with zeros where the URL ends before the length. -/
def strncpy (dst : Buffer UInt8 n) (url : Bytes) (off : ℕ) (len : ℤ) :
    Option (Buffer UInt8 n) := do
  let len ← size len
  let src := (url.drop off).take len
  dst.copy 0 (src ++ List.replicate (len - src.length) 0)

/-- The URI of a URL that has one. -/
def setUri (url : Bytes) (uri : ℕ) (info : HttpInfo) : Option (HttpcRet × HttpInfo) :=
  let uriLen := (url.length : ℤ) - uri
  if 1024 < uriLen + 1 then some (.errorAllocFail, info)
  else do
    let buf ← memcpy (info.uri.fill 0) url uri uriLen
    let buf ← buf.copy uriLen.toNat [0]
    some (.ok, { info with uri := buf })

/-- The URI of a URL that has none. -/
def setRoot (info : HttpInfo) : Option (HttpcRet × HttpInfo) := do
  let buf ← (info.uri.fill 0).copy 0 (bytes "/")
  let buf ← buf.copy 1 [0]
  some (.ok, { info with uri := buf })

/-- The host of a length. -/
def setHost (url : Bytes) (off : ℕ) (hostLen : ℤ) (info : HttpInfo) : Option HttpInfo := do
  let buf ← memcpy (info.host.fill 0) url off hostLen
  let buf ← buf.copy hostLen.toNat [0]
  some { info with host := buf }

/-- `sprintf` of `HTTP_PORT` or `HTTPS_PORT`. -/
def defaultPort : HttpScheme → Bytes
  | .http => bytes "80"
  | .https => bytes "443"

/-- `httpc_parse_url` behind the scheme. -/
def parseHost (url : Bytes) (off : ℕ) (info : HttpInfo) : Option (HttpcRet × HttpInfo) :=
  let port := strchr url off 58
  let uri := strchr url off 47
  match port with
  | some port =>
    let hostLen := (port : ℤ) - off
    if 128 < hostLen + 1 then some (.errorAllocFail, info)
    else do
      let info ← setHost url off hostLen info
      match uri with
      | some uri =>
        let buf ← memcpy (info.port.fill 0) url (port + 1) ((uri : ℤ) - port - 1)
        setUri url uri { info with port := buf }
      | none =>
        let buf ← strncpy (info.port.fill 0) url (port + 1) ((url.length : ℤ) - port - 1)
        setRoot { info with port := buf }
  | none => do
    let buf ← info.port.copy 0 (defaultPort info.scheme ++ [0])
    let info := { info with port := buf }
    match uri with
    | some uri =>
      let hostLen := (uri : ℤ) - off
      if 128 < hostLen + 1 then some (.errorAllocFail, info)
      else
        let info ← setHost url off hostLen info
        setUri url uri info
    | none =>
      let hostLen := (url.length : ℤ) - (if info.scheme = .http then 7 else 8)
      if 128 < hostLen + 1 then some (.errorAllocFail, info)
      else
        let buf ← strncpy (info.host.fill 0) url off hostLen
        let buf ← buf.copy hostLen.toNat [0]
        setRoot { info with host := buf }

/-- `httpc_parse_url`; with `https` the client supports HTTPS. -/
def httpcParseUrl (https : Bool) (url : Bytes) (info : HttpInfo) : Option (HttpcRet × HttpInfo) :=
  if bytes "http://" <+: url then parseHost url 7 { info with scheme := .http }
  else if https ∧ bytes "https://" <+: url then parseHost url 8 { info with scheme := .https }
  else some (.errorSchemeNotFound, info)

end HttpUrl

end NrcAtcmd
