import NrcAtcmd.HttpGet
import NrcAtcmd.HttpUrl

/-!
# The connection of a firmware request

`_atcmd_fota_httpc_get` of `atcmd_fota.c` with the HTTP client under it, `nrc_http_client.c`: what
opens a descriptor and what closes one. What each call outside of them answers is in
`FotaOutcome`. The URL is parsed by `HttpUrl.httpcParseUrl`, and the loop over the response is
`FotaGet.loop`. A request that copies or reads outside of a buffer has no result. The text of the
request is left out.
-/

namespace NrcAtcmd

/-! ## The HTTP client -/

/-- `con_handle_t`: `INVALID_HANDLE`, which is -1 as a descriptor too, a descriptor, all of which
are below `MEMP_NUM_NETCONN`, or the address of an `http_ssl_t` with the descriptor in its
`net_ctx`. -/
inductive ConHandle where
  | invalid
  | socket (fd : ℕ)
  | ssl (fd : Option ℕ)
  deriving DecidableEq, Repr

/-- What happens to descriptors. -/
inductive ConnEvent where
  | opened (fd : ℕ)
  | closed (fd : ℕ)
  deriving DecidableEq, Repr

/-- What becomes of an address: `socket` fails, or returns a descriptor whose `connect` fails or
succeeds. -/
inductive AddrOutcome where
  | noSocket
  | refused (fd : ℕ)
  | connected (fd : ℕ)
  deriving DecidableEq, Repr

/-- The steps of `httpc_ssl_conn`, each with whether it succeeds. -/
structure SslOutcome where
  alloc : Bool
  seed : Bool
  caCert : Bool
  clientCert : Bool
  key : Bool
  configDefaults : Bool
  setup : Bool
  hostname : Bool
  handshake : Bool
  deriving DecidableEq, Repr

/-- The answers to one request: the addresses of `getaddrinfo`, if the host is known, the steps of
TLS, the allocation for the request, both its sends, and what `recv` brings. -/
structure FotaOutcome where
  addrs : Option (List AddrOutcome)
  ssl : SslOutcome
  alloc : Bool
  sendLine : Bool
  sendEnd : Bool
  transport : HttpTransport

/-- `getaddrinfo`, which reads the host and the port. -/
def getaddrinfo (info : HttpInfo) (x : FotaOutcome) : Option (Option (List AddrOutcome)) := do
  let _ ← info.host.str
  let _ ← info.port.str
  some x.addrs

/-- The loop over the addresses in `httpc_conn`, and in `mbedtls_net_connect`: what it returns, and
the descriptor, which after a failure is the one that was closed last. -/
def connectLoop (ret : HttpcRet) (sockfd : Option ℕ) :
    List AddrOutcome → HttpcRet × Option ℕ × List ConnEvent
  | [] => (ret, sockfd, [])
  | .noSocket :: addrs => connectLoop .errorSocketFail none addrs
  | .connected fd :: _ => (.ok, some fd, [.opened fd])
  | .refused fd :: addrs =>
    let (ret, sockfd, events) := connectLoop .errorConnection (some fd) addrs
    (ret, sockfd, .opened fd :: .closed fd :: events)

def httpcConn (handle : ConHandle) (info : HttpInfo) (x : FotaOutcome) :
    Option (HttpcRet × ConHandle × List ConnEvent) := do
  match ← getaddrinfo info x with
  | none => some (.errorResolvingDns, handle, [])
  | some addrs =>
    let (ret, sockfd, events) := connectLoop .errorResolvingDns none addrs
    some (ret, (sockfd.map .socket).getD .invalid, events)

/-- `httpc_ssl_conn`: whether it returns zero. -/
def httpcSslConn (handle : ConHandle) (info : HttpInfo) (x : FotaOutcome) :
    Option (Bool × ConHandle × List ConnEvent) :=
  if !x.ssl.alloc then some (false, handle, [])
  else if !x.ssl.seed || !x.ssl.caCert || !x.ssl.clientCert || !x.ssl.key then
    some (false, .ssl none, [])
  else do
    -- `mbedtls_net_connect`
    match ← getaddrinfo info x with
    | none => some (false, .ssl none, [])
    | some addrs =>
      let (ret, fd, events) := connectLoop .errorResolvingDns none addrs
      let rest := x.ssl.configDefaults && x.ssl.setup && x.ssl.hostname && x.ssl.handshake
      some (decide (ret = .ok) && rest, .ssl fd, events)

def httpcConnect (https : Bool) (handle : ConHandle) (url : Bytes) (info : HttpInfo)
    (x : FotaOutcome) : Option (HttpcRet × ConHandle × List ConnEvent) := do
  let (ret, info) ← HttpUrl.httpcParseUrl https url info
  if ret ≠ .ok then some (ret, handle, [])
  else
    match info.scheme with
    | .http => httpcConn .invalid info x
    | .https =>
      let (ok, handle, events) ← httpcSslConn .invalid info x
      some (if ok then .ok else .errorConnection, handle, events)

/-- `httpc_send_req` of a GET, whose text always fits its allocation. -/
def httpcSendReq (handle : ConHandle) (x : FotaOutcome) : HttpcRet :=
  if handle = .invalid then .errorInvalidHandle
  else if x.alloc ∧ x.sendLine ∧ x.sendEnd then .ok
  else .errorHeaderSendFail

/-- `nrc_httpc_recv_response`, the first time, into a buffer of `bufLen` bytes. -/
def nrcHttpcRecvResponse (bufLen : ℕ) (t : HttpTransport) : HttpcRet :=
  if t.chunks ≠ [] ∧ 0 < bufLen then .ok
  else if bufLen = 0 ∨ t.closed then .conClosed
  else .errorConnection

/-- `nrc_httpc_get`, which is `httpc_common`. -/
def nrcHttpcGet (https : Bool) (handle : ConHandle) (url : Bytes) (bufLen : ℕ) (x : FotaOutcome) :
    Option (HttpcRet × ConHandle × List ConnEvent) := do
  let (ret, handle, events) ← httpcConnect https handle url HttpUrl.freshInfo x
  if ret ≠ .ok then some (ret, handle, events)
  else
    let ret := httpcSendReq handle x
    if ret ≠ .ok then some (ret, handle, events)
    else some (nrcHttpcRecvResponse bufLen x.transport, handle, events)

def nrcHttpcClose : ConHandle → List ConnEvent
  | .invalid | .ssl none => []
  | .socket fd | .ssl (some fd) => [.closed fd]

/-! ## The request -/

/-- What `_atcmd_fota_httpc_get` returns, what it opened and closed, and whether it told the
callback to give up. -/
structure FotaReturn where
  ret : ℤ
  events : List ConnEvent
  reset : Bool
  deriving DecidableEq, Repr

/-- The URL of a file. -/
def fotaUrl (serverUrl filePath : Bytes) : Bytes :=
  if serverUrl.getLast? = some 47 then serverUrl ++ filePath else serverUrl ++ 47 :: filePath

/-- `_atcmd_fota_httpc_get` behind `nrc_httpc_get`, once it returns. `accept` says which calls of the
callback succeed. -/
def fotaReply (b : RecvBuf) (accept : ℕ → Bool) (x : FotaOutcome) :
    HttpcRet × ConHandle × List ConnEvent → Option FotaReturn
  | (ret, handle, events) =>
    if ret ≠ .ok then some ⟨-1, events, false⟩
    else
      let ret := (atcmdFotaHttpcGet_ b.mem b.len accept x.transport).ret
      if 0 < ret then none
      else some ⟨ret, events ++ nrcHttpcClose handle, decide (ret < 0)⟩

/-- `_atcmd_fota_httpc_get`. `https` is `CONFIG_ATCMD_FOTA_HTTPS`, with which
`SUPPORT_HTTPS_CLIENT` is set, and `b` is the receive buffer. -/
def atcmdFotaRequest_ (https : Bool) (serverUrl filePath : Bytes) (b : RecvBuf)
    (accept : ℕ → Bool) (x : FotaOutcome) : Option FotaReturn :=
  if serverUrl = [] then some ⟨-1, [], false⟩
  else if filePath = [] then some ⟨-1, [], false⟩
  else if 128 + 128 < serverUrl.length + filePath.length + 2 then some ⟨-1, [], false⟩
  else
    let url := fotaUrl serverUrl filePath
    if bytes "https://" <+: url ∧ !https then some ⟨-1, [], false⟩
    -- the handle is set to zero before
    else (nrcHttpcGet https (.socket 0) url b.len x).bind (fotaReply b accept x)

/-! ## Descriptors -/

/-- Every descriptor that is opened is closed once, and none is closed that is not open. -/
def Released : List ℕ → List ConnEvent → Prop
  | held, [] => held = []
  | held, .opened fd :: events => Released (fd :: held) events
  | held, .closed fd :: events => fd ∈ held ∧ Released (held.erase fd) events

instance decidableReleased : ∀ (held : List ℕ) (events : List ConnEvent),
    Decidable (Released held events)
  | held, [] => inferInstanceAs (Decidable (held = []))
  | held, .opened fd :: events => decidableReleased (fd :: held) events
  | held, .closed fd :: events =>
    have := decidableReleased (held.erase fd) events
    inferInstanceAs (Decidable (fd ∈ held ∧ _))

def AddrOutcome.connects : AddrOutcome → Bool
  | .connected _ => true
  | _ => false

/-- The host is known, and one of its addresses connects. -/
def FotaOutcome.connects (x : FotaOutcome) : Bool := (x.addrs.getD []).any AddrOutcome.connects

/-- The steps of TLS before the connection, and those behind it. -/
def SslOutcome.prepares (s : SslOutcome) : Bool :=
  s.alloc && s.seed && s.caCert && s.clientCert && s.key

def SslOutcome.secures (s : SslOutcome) : Bool :=
  s.configDefaults && s.setup && s.hostname && s.handshake

/-- The request reaches the HTTP client, if HTTPS is configured where the URL has it. -/
def FotaRequests (serverUrl filePath : Bytes) : Prop :=
  serverUrl ≠ [] ∧ filePath ≠ [] ∧ serverUrl.length + filePath.length + 2 ≤ 128 + 128

/-- A connection is opened: the URL is accepted, the steps of TLS before the connection succeed, and
an address connects. -/
def FotaOutcome.Opens (https : Bool) (serverUrl filePath : Bytes) (x : FotaOutcome) : Prop :=
  FotaRequests serverUrl filePath ∧
    ∃ info, HttpUrl.httpcParseUrl https (fotaUrl serverUrl filePath) HttpUrl.freshInfo =
        some (.ok, info) ∧ (info.scheme = .https → x.ssl.prepares) ∧ x.connects

/-- What comes after the connection in `nrc_httpc_get` succeeds: the other steps of TLS, the
request, and the first receive. -/
def FotaOutcome.Answers (serverUrl filePath : Bytes) (b : RecvBuf) (x : FotaOutcome) : Prop :=
  (bytes "https://" <+: fotaUrl serverUrl filePath → x.ssl.secures) ∧
    x.alloc ∧ x.sendLine ∧ x.sendEnd ∧ x.transport.chunks ≠ [] ∧ 0 < b.len

end NrcAtcmd
