import NrcAtcmd.Lib.Memory
import NrcAtcmd.Param

/-!
# The HTTP reader of the firmware update

`_atcmd_fota_httpc_get` of `atcmd_fota.c`, from the request on: the URL is built and the connection
made. `mem` is the memory from the receive buffer on, the buffer and what follows it, because
`strstr` stops at a NUL byte only. `Version` is kept as whether it was read, since a token that
begins with `HTTP/1.` has one that is not 0. The writes of `memset` and `strtok_r` into the header
are left out: the header is not read again.

`stale` is not in the source: it is set when the header that is parsed ends behind what was received.
-/

namespace NrcAtcmd

open Memory (memcpy)

/-! ## The header -/

/-- `httpc_resp_t`. -/
structure HttpcResp where
  version : Bool
  statusCode : ℤ
  contentLength : ℤ
  contentLengthDone : ℤ
  deriving DecidableEq

/-- `strstr` of `"\r\n\r\n"`. -/
def strstrHeaderEnd : Bytes → Option ℕ
  | [] => none
  | b :: s =>
    if b = 0 then none
    else if (b :: s).take 4 = [13, 10, 13, 10] then some 0
    else (strstrHeaderEnd s).map (· + 1)

/-- The tokens `strtok_r` finds with `"\r\n"`. -/
def strtokCrlf (s : Bytes) : List Bytes :=
  (s.splitOnP fun b => b == 13 || b == 10).filter fun token => !token.isEmpty

/-- `sscanf` of `"%d"`: the number `strtol` reads, if it reads one. -/
def scanInt (s : Bytes) : Option ℤ := if (strtol s).2 = s then none else some (strtol s).1

/-- What `sscanf` of `"%f"` leaves of a number whose fraction begins here. -/
def scanFraction (s : Bytes) : Bytes :=
  let s := s.dropWhile Decimal.isDigit
  if s.head? = some 101 ∨ s.head? = some 69 then
    let exp := s.tail
    let exp := if exp.head? = some 45 ∨ exp.head? = some 43 then exp.tail else exp
    exp.dropWhile Decimal.isDigit
  else s

/-- One token of `_atcmd_fota_httpc_parse_resp_header`. -/
def HttpcResp.token (resp : HttpcResp) (token : Bytes) : HttpcResp :=
  if bytes "HTTP/1." <+: token then
    { resp with
      version := true
      statusCode := (scanInt (scanFraction (token.drop 7))).getD resp.statusCode }
  else if bytes "Content-Length: " <+: token then
    { resp with contentLength := (scanInt (token.drop 15)).getD resp.contentLength }
  else resp

def atcmdFotaHttpcParseRespHeader_ (header : Bytes) (resp : HttpcResp) : HttpcResp :=
  (strtokCrlf header).foldl HttpcResp.token resp

/-! ## The reader -/

/-- What the transport has for `recv`, each part in a call of its own unless the room is less, and
how it ends. -/
structure HttpTransport where
  chunks : List Bytes
  closed : Bool
  ne_nil : ∀ c ∈ chunks, c ≠ []

/-- The variables of `_atcmd_fota_httpc_get`, what the transport has left, and what the callback was
given. `dataIn` is an offset in `mem`. -/
structure FotaGet where
  mem : Bytes
  dataIn : ℕ
  dataInLength : ℕ
  recvedSize : ℤ
  resp : HttpcResp
  ret : ℤ
  chunks : List Bytes
  calls : List Bytes
  stale : Bool

/-- `nrc_httpc_recv_response`, and the end of the connection as the caller takes it. -/
def FotaGet.recv (closed : Bool) (s : FotaGet) : FotaGet :=
  match s.chunks with
  | [] =>
    let done := s.resp.contentLengthDone = s.resp.contentLength
    { s with recvedSize := 0, ret := if closed ∧ done then 0 else -1 }
  | c :: chunks =>
    let data := c.take s.dataInLength
    let chunks := if c.length ≤ s.dataInLength then chunks else c.drop s.dataInLength :: chunks
    if data.length = 0 then
      -- no room: `recv` returns 0, as it does when the connection is closed
      let done := s.resp.contentLengthDone = s.resp.contentLength
      { s with recvedSize := 0, ret := if done then 0 else -1 }
    else
      { s with
        mem := memcpy s.mem s.dataIn data
        recvedSize := data.length
        ret := 1
        chunks := chunks }

/-- One pass of the loop of `_atcmd_fota_httpc_get`. `accept` says which calls of the callback
succeed. -/
def FotaGet.pass (bufLen : ℕ) (accept : ℕ → Bool) (closed : Bool) (s : FotaGet) : FotaGet :=
  if s.resp.version = false then
    match strstrHeaderEnd s.mem with
    | some headerEnd =>
      let headerLen := headerEnd + 4
      let resp := atcmdFotaHttpcParseRespHeader_ (s.mem.take headerEnd) s.resp
      let dataIn : ℤ := s.dataIn + s.recvedSize
      let s := { s with resp := resp, stale := s.stale || decide (dataIn < headerLen) }
      if resp.statusCode = 200 then
        { s with
          recvedSize := dataIn - headerLen
          dataIn := headerLen
          dataInLength := ((bufLen - headerLen : ℤ) % 2 ^ 32).toNat }
      else { s with ret := -1 }
    | none =>
      let s := { s with
        dataIn := (s.dataIn + s.recvedSize).toNat
        dataInLength := ((s.dataInLength - s.recvedSize) % 2 ^ 32).toNat }
      if bufLen ≤ s.dataIn then { s with ret := -1 } else s.recv closed
  else if 0 < s.resp.contentLength ∧ 0 < s.recvedSize then
    let call := (s.mem.drop s.dataIn).take s.recvedSize.toNat
    let ok := accept s.calls.length
    let s := { s with calls := s.calls ++ [call] }
    if !ok then { s with ret := -1 }
    else
      let done := s.resp.contentLengthDone + s.recvedSize
      let s := { s with resp := { s.resp with contentLengthDone := done } }
      if done = s.resp.contentLength then { s with ret := 0 }
      else FotaGet.recv closed { s with dataIn := 0, dataInLength := bufLen }
  else s.recv closed

/-- The loop, for at most as many passes as `fuel`. -/
def FotaGet.loop (bufLen : ℕ) (accept : ℕ → Bool) (closed : Bool) : (fuel : ℕ) → FotaGet → FotaGet
  | 0, s => s
  | fuel + 1, s =>
    if 0 < s.ret then FotaGet.loop bufLen accept closed fuel (s.pass bufLen accept closed) else s

/-- The bytes the transport delivers. -/
def HttpTransport.arrived (t : HttpTransport) : Bytes := t.chunks.flatten

/-- The receive buffer at the start of the memory, whatever that holds. -/
structure RecvBuf where
  mem : Bytes
  len : ℕ
  le : len ≤ mem.length
  lt : len < 2 ^ 31

/-- `_atcmd_fota_httpc_get`. A pass that does not end the loop takes bytes from the transport, but
for the one that finds the header. -/
def atcmdFotaHttpcGet_ (mem : Bytes) (bufLen : ℕ) (accept : ℕ → Bool) (t : HttpTransport) :
    FotaGet :=
  let s : FotaGet :=
    { mem := mem, dataIn := 0, dataInLength := bufLen, recvedSize := 0,
      resp := ⟨false, 0, 0, 0⟩, ret := 1, chunks := t.chunks, calls := [], stale := false }
  match t.chunks with
  | [] => { s with ret := -1 }
  | _ :: _ => FotaGet.loop bufLen accept t.closed (t.arrived.length + 3) (s.recv t.closed)

/-! ## Responses -/

/-- The characters of a field name. -/
def isTchar (b : UInt8) : Bool :=
  decide (33 ≤ b) && decide (b ≤ 126) && !(bytes "\"(),/:;<=>?@[\\]\x7b\x7d").contains b

/-- A byte that may stand in a line. -/
def isText (b : UInt8) : Bool := !(b == 0 || b == 10 || b == 13)

def toLower (b : UInt8) : UInt8 := if 65 ≤ b ∧ b ≤ 90 then b + 32 else b

/-- A header field, `name: value`. -/
structure HttpField where
  name : Bytes
  value : Bytes
  name_ne : name ≠ []
  name_tchar : ∀ b ∈ name, isTchar b = true
  value_text : ∀ b ∈ value, isText b = true

def HttpField.line (f : HttpField) : Bytes := f.name ++ 58 :: f.value

/-- A field name is read without regard to case. -/
def HttpField.isContentLength (f : HttpField) : Prop := f.name.map toLower = bytes "content-length"

/-- An HTTP/1.x response with status 200 and a body as long as its one Content-Length field says, in
a number that an `int` holds. -/
structure HttpResponse where
  minor : UInt8
  reason : Bytes
  before : List HttpField
  length : HttpField
  after : List HttpField
  pad : Bytes
  digits : Bytes
  trail : Bytes
  body : Bytes
  minor_digit : Decimal.isDigit minor = true
  reason_text : ∀ b ∈ reason, isText b = true
  reason_sp : reason = [] ∨ reason.head? = some 32
  length_name : length.isContentLength
  others : ∀ f ∈ before ++ after, ¬ f.isContentLength
  length_value : length.value = pad ++ digits ++ trail
  pad_space : ∀ b ∈ pad, b = 32 ∨ b = 9
  trail_space : ∀ b ∈ trail, b = 32 ∨ b = 9
  digits_ne : digits ≠ []
  digits_scan : Decimal.scan 0 digits = (body.length, [])
  body_lt : body.length < 2 ^ 31

namespace HttpResponse

variable (r : HttpResponse)

def lines : List Bytes :=
  (bytes "HTTP/1." ++ [r.minor] ++ bytes " 200" ++ r.reason) ::
    (r.before ++ r.length :: r.after).map HttpField.line

/-- The header with the empty line that ends it. -/
def header : Bytes := (r.lines.map (· ++ [13, 10])).flatten ++ [13, 10]

def stream : Bytes := r.header ++ r.body

end HttpResponse

end NrcAtcmd
