import NrcAtcmd.FotaTransaction
import NrcAtcmd.Proofs.HttpGet
import NrcAtcmd.Proofs.HttpUrl

/-!
# The connection of a firmware request is closed once the first block came

The loop over the response ends, because each pass that goes on takes bytes from the transport, and
behind it the connection is closed. Before it, `httpc_conn` closes the descriptors that do not
connect, and nobody closes the one that does when a later step of `nrc_httpc_get` fails.
-/

namespace NrcAtcmd

open HttpUrl (schemeText freshInfo RestFits RestCopies)
open ParamStore (CStr)

/-! ## The loop ends -/

namespace FotaGet

variable {bufLen : ℕ} {accept : ℕ → Bool} {closed : Bool} {s : FotaGet}

/-- A receive that goes on takes bytes from the transport. -/
theorem recv_flatten (h : 0 < (s.recv closed).ret) :
    (s.recv closed).chunks.flatten.length < s.chunks.flatten.length := by
  unfold recv at h ⊢
  rcases hc : s.chunks with _ | ⟨c, chunks⟩
  · simp only [hc] at h
    split_ifs at h <;> omega
  · simp only [hc] at h ⊢
    by_cases h0 : (c.take s.dataInLength).length = 0
    · rw [if_pos h0] at h
      dsimp only at h
      split_ifs at h <;> omega
    · rw [if_neg h0]
      rw [List.length_take] at h0
      by_cases hle : c.length ≤ s.dataInLength
      · simp only [if_pos hle, List.flatten_cons, List.length_append]
        omega
      · simp only [if_neg hle, List.flatten_cons, List.length_append, List.length_drop]
        omega

/-- A status is read together with a version. -/
theorem token_status {resp : HttpcResp} (h : resp.version = false → resp.statusCode = 0)
    (token : Bytes) : (resp.token token).version = false → (resp.token token).statusCode = 0 := by
  unfold HttpcResp.token
  split_ifs
  · simp
  · exact h
  · exact h

theorem parse_status (header : Bytes) {resp : HttpcResp}
    (h : resp.version = false → resp.statusCode = 0) :
    (atcmdFotaHttpcParseRespHeader_ header resp).version = false →
      (atcmdFotaHttpcParseRespHeader_ header resp).statusCode = 0 := by
  unfold atcmdFotaHttpcParseRespHeader_
  induction strtokCrlf header generalizing resp with
  | nil => exact h
  | cons token tokens ih => exact ih (token_status h token)

/-- The passes that are left: one for the header, and one for each byte at most. -/
def work (s : FotaGet) : ℕ := s.chunks.flatten.length + if s.resp.version then 0 else 1

/-- A pass that goes on leaves less to do. -/
theorem pass_work (hst : s.resp.version = false → s.resp.statusCode = 0)
    (h : 0 < (s.pass bufLen accept closed).ret) :
    (s.pass bufLen accept closed).work < s.work ∧
      ((s.pass bufLen accept closed).resp.version = false →
        (s.pass bufLen accept closed).resp.statusCode = 0) := by
  have hrecv : ∀ u : FotaGet, u.chunks = s.chunks → u.resp.version = s.resp.version →
      u.resp.statusCode = s.resp.statusCode → 0 < (u.recv closed).ret →
      (u.recv closed).work < s.work ∧
        ((u.recv closed).resp.version = false → (u.recv closed).resp.statusCode = 0) := by
    intro u hc hv hcode hret
    have hlt := recv_flatten hret
    unfold work
    rw [recv_frame.1, hv, hcode, ← hc]
    exact ⟨by omega, hst⟩
  unfold pass at h ⊢
  by_cases hv : s.resp.version = false
  · rw [if_pos hv] at h ⊢
    rcases hend : strstrHeaderEnd s.mem with _ | headerEnd
    · simp only [hend] at h ⊢
      split_ifs at h ⊢ with hfull
      · simp at h
      · exact hrecv _ rfl rfl rfl h
    · simp only [hend] at h ⊢
      have hparse := parse_status (s.mem.take headerEnd) hst
      split_ifs at h ⊢ with hcode
      · cases hver : (atcmdFotaHttpcParseRespHeader_ (s.mem.take headerEnd) s.resp).version
        · rw [hparse hver] at hcode
          simp at hcode
        · exact ⟨by simp [work, hver, hv], fun hf => by simp at hf⟩
      · simp at h
  · rw [if_neg hv] at h ⊢
    by_cases hbody : 0 < s.resp.contentLength ∧ 0 < s.recvedSize
    · rw [if_pos hbody] at h ⊢
      cases hok : accept s.calls.length
      · simp [hok] at h
      · simp only [hok, Bool.not_true, Bool.false_eq_true, if_false] at h ⊢
        by_cases hall : s.resp.contentLengthDone + s.recvedSize = s.resp.contentLength
        · simp [hall] at h
        · rw [if_neg hall] at h ⊢
          exact hrecv _ rfl rfl rfl h
    · rw [if_neg hbody] at h ⊢
      exact hrecv _ rfl rfl rfl h

theorem loop_ends : ∀ (fuel : ℕ) (s : FotaGet),
    (s.resp.version = false → s.resp.statusCode = 0) → s.work < fuel →
      (loop bufLen accept closed fuel s).ret ≤ 0
  | 0, _, _, h => by omega
  | fuel + 1, s, hst, h => by
    rw [loop]
    split_ifs with hret
    · by_cases hgo : 0 < (s.pass bufLen accept closed).ret
      · obtain ⟨hlt, hst'⟩ := pass_work hst hgo
        exact loop_ends fuel _ hst' (by omega)
      · rw [loop_stop (by omega)]
        omega
    · omega

end FotaGet

/-- `_atcmd_fota_httpc_get` returns. -/
theorem httpc_get_ends (mem : Bytes) (bufLen : ℕ) (accept : ℕ → Bool) (t : HttpTransport) :
    (atcmdFotaHttpcGet_ mem bufLen accept t).ret ≤ 0 := by
  unfold atcmdFotaHttpcGet_
  rcases hc : t.chunks with _ | ⟨c, chunks⟩
  · simp
  · dsimp only
    by_cases hgo : 0 < (FotaGet.recv t.closed ⟨mem, 0, bufLen, 0, ⟨false, 0, 0, 0⟩, 1,
        c :: chunks, [], false⟩).ret
    · have hlt := FotaGet.recv_flatten hgo
      refine FotaGet.loop_ends _ _ (by rw [FotaGet.recv_frame.1]; simp) ?_
      unfold FotaGet.work HttpTransport.arrived
      rw [FotaGet.recv_frame.1, hc]
      dsimp only at hlt ⊢
      simp only [Bool.false_eq_true, if_false]
      omega
    · rw [FotaGet.loop_stop (by omega)]
      omega

/-! ## Connecting -/

/-- The descriptors that these events leave open. -/
def LeavesOpen (held : List ℕ) (events : List ConnEvent) : Prop :=
  ∀ tail, Released [] (events ++ tail) ↔ Released held tail

lemma leavesOpen_nil {events : List ConnEvent} (h : LeavesOpen [] events) : Released [] events := by
  have := h []
  rw [List.append_nil] at this
  exact this.2 rfl

/-- An address that connects is the only one whose descriptor stays open. -/
theorem connectLoop_spec : ∀ (addrs : List AddrOutcome) (ret : HttpcRet) (sockfd : Option ℕ),
    ret ≠ .ok → ∃ r fd events, connectLoop ret sockfd addrs = (r, fd, events) ∧
      if addrs.any AddrOutcome.connects then r = .ok ∧ ∃ n, fd = some n ∧ LeavesOpen [n] events
      else r ≠ .ok ∧ LeavesOpen [] events
  | [], ret, sockfd, h => ⟨ret, sockfd, [], rfl, h, fun _ => Iff.rfl⟩
  | .noSocket :: addrs, _, _, _ => connectLoop_spec addrs .errorSocketFail none (by decide)
  | .connected n :: _, _, _, _ => ⟨_, _, _, rfl, rfl, n, rfl, fun _ => Iff.rfl⟩
  | .refused n :: addrs, _, _, _ => by
    obtain ⟨r, fd, events, hl, hspec⟩ :=
      connectLoop_spec addrs .errorConnection (some n) (by decide)
    have hleaves : ∀ held, LeavesOpen held events →
        LeavesOpen held (.opened n :: .closed n :: events) := by
      intro held h tail
      simp only [List.cons_append, Released, List.mem_singleton, true_and, List.erase_cons_head]
      exact h tail
    refine ⟨r, fd, .opened n :: .closed n :: events, by simp only [connectLoop, hl], ?_⟩
    have hany : (AddrOutcome.refused n :: addrs).any AddrOutcome.connects =
        addrs.any AddrOutcome.connects := rfl
    rw [hany]
    split_ifs at hspec ⊢
    · obtain ⟨hr, m, hfd, h⟩ := hspec
      exact ⟨hr, m, hfd, hleaves _ h⟩
    · exact ⟨hspec.1, hleaves _ hspec.2⟩

/-- The host and the port end in their buffers. -/
def InfoReads (info : HttpInfo) : Prop :=
  (∃ host, info.host.str = some host) ∧ ∃ port, info.port.str = some port

lemma getaddrinfo_reads {info : HttpInfo} (h : InfoReads info) (x : FotaOutcome) :
    getaddrinfo info x = some x.addrs := by
  obtain ⟨⟨host, hhost⟩, port, hport⟩ := h
  unfold getaddrinfo
  rw [hhost, hport]
  rfl

lemma getaddrinfo_none {info : HttpInfo} (h : info.port.str = none) (x : FotaOutcome) :
    getaddrinfo info x = none := by
  unfold getaddrinfo
  rw [h]
  cases info.host.str <;> rfl

theorem httpcConn_spec (handle : ConHandle) {info : HttpInfo} (h : InfoReads info) (x : FotaOutcome) :
    ∃ ret handle' events, httpcConn handle info x = some (ret, handle', events) ∧
      if x.connects then ret = .ok ∧ ∃ n, handle' = .socket n ∧ LeavesOpen [n] events
      else ret ≠ .ok ∧ LeavesOpen [] events := by
  unfold httpcConn FotaOutcome.connects
  simp only [getaddrinfo_reads h, Option.bind_eq_bind, Option.bind_some]
  rcases x.addrs with _ | addrs
  · exact ⟨_, _, _, rfl, by decide, fun _ => Iff.rfl⟩
  · obtain ⟨r, fd, events, hl, hspec⟩ :=
      connectLoop_spec addrs .errorResolvingDns none (by decide)
    refine ⟨r, (fd.map .socket).getD .invalid, events, by simp only [hl], ?_⟩
    rw [Option.getD_some]
    split_ifs at hspec ⊢
    · obtain ⟨hr, n, rfl, h⟩ := hspec
      exact ⟨hr, n, rfl, h⟩
    · exact hspec

/-- TLS fails before the connection, or goes on to it. -/
theorem prepares_cases (handle : ConHandle) (info : HttpInfo) (x : FotaOutcome) :
    (x.ssl.prepares = false ∧ ∃ handle', httpcSslConn handle info x = some (false, handle', [])) ∨
    x.ssl.prepares = true ∧ httpcSslConn handle info x = (getaddrinfo info x).bind fun addrs =>
      match addrs with
      | none => some (false, .ssl none, [])
      | some addrs =>
        let (ret, fd, events) := connectLoop .errorResolvingDns none addrs
        some (decide (ret = .ok) && x.ssl.secures, .ssl fd, events) := by
  unfold httpcSslConn
  by_cases halloc : x.ssl.alloc = true
  swap
  · exact .inl ⟨by simp [SslOutcome.prepares, halloc], _, if_pos (by simpa using halloc)⟩
  rw [if_neg (by simpa using halloc)]
  by_cases hprep : (!x.ssl.seed || !x.ssl.caCert || !x.ssl.clientCert || !x.ssl.key) = true
  · refine .inl ⟨?_, _, if_pos hprep⟩
    unfold SslOutcome.prepares
    simp only [Bool.or_eq_true, Bool.not_eq_true'] at hprep
    rcases hprep with ((h | h) | h) | h <;> simp [h]
  · rw [if_neg hprep]
    simp only [Bool.or_eq_true, Bool.not_eq_true', not_or, Bool.not_eq_false] at hprep
    exact .inr ⟨by simp [SslOutcome.prepares, halloc, hprep], rfl⟩

theorem httpcSslConn_spec (handle : ConHandle) {info : HttpInfo} {x : FotaOutcome}
    (h : x.ssl.prepares = true → InfoReads info) :
    ∃ ok handle' events, httpcSslConn handle info x = some (ok, handle', events) ∧
      if x.ssl.prepares && x.connects then
        ok = x.ssl.secures ∧ ∃ n, handle' = .ssl (some n) ∧ LeavesOpen [n] events
      else ok = false ∧ LeavesOpen [] events := by
  rcases prepares_cases handle info x with ⟨hprep, handle', hconn⟩ | ⟨hprep, hconn⟩
  · refine ⟨_, _, _, hconn, ?_⟩
    rw [hprep]
    exact ⟨rfl, fun _ => Iff.rfl⟩
  rw [hconn, getaddrinfo_reads (h hprep), Option.bind_some, hprep, Bool.true_and,
    FotaOutcome.connects]
  rcases x.addrs with _ | addrs
  · exact ⟨_, _, _, rfl, rfl, fun _ => Iff.rfl⟩
  · obtain ⟨r, fd, events, hl, hspec⟩ :=
      connectLoop_spec addrs .errorResolvingDns none (by decide)
    simp only [hl, Option.getD_some]
    refine ⟨_, _, _, rfl, ?_⟩
    split_ifs at hspec ⊢
    · obtain ⟨rfl, n, rfl, h⟩ := hspec
      exact ⟨by simp, n, rfl, h⟩
    · exact ⟨by simp [hspec.1], hspec.2⟩

/-! ## The request -/

section Parsed

variable {https : Bool} {url : Bytes} {info : HttpInfo}

/-- `httpc_connect` leaves nothing open, or the one descriptor that the handle is closed with. -/
theorem httpcConnect_spec (handle : ConHandle) {x : FotaOutcome}
    (hp : HttpUrl.httpcParseUrl https url freshInfo = some (.ok, info))
    (hreads : (info.scheme = .https → x.ssl.prepares) → InfoReads info) :
    ∃ ret handle' events, httpcConnect https handle url freshInfo x = some (ret, handle', events) ∧
      if (info.scheme = .https → x.ssl.prepares) ∧ x.connects then
        (ret = .ok ↔ (info.scheme = .https → x.ssl.secures)) ∧ handle' ≠ .invalid ∧
          ∃ n, nrcHttpcClose handle' = [.closed n] ∧ LeavesOpen [n] events
      else ret ≠ .ok ∧ LeavesOpen [] events := by
  unfold httpcConnect
  simp only [hp, Option.bind_eq_bind, Option.bind_some, ne_eq, not_true_eq_false, if_false]
  rcases hs : info.scheme with _ | _
  · rw [hs] at hreads
    obtain ⟨ret, handle', events, hc, hspec⟩ := httpcConn_spec .invalid (hreads (by simp)) x
    refine ⟨ret, handle', events, hc, ?_⟩
    simp only [reduceCtorEq, false_implies, true_and, iff_true]
    split_ifs at hspec ⊢
    · obtain ⟨hr, n, rfl, h⟩ := hspec
      exact ⟨hr, by simp, n, rfl, h⟩
    · exact hspec
  · rw [hs] at hreads
    obtain ⟨ok, handle', events, hc, hspec⟩ :=
      httpcSslConn_spec .invalid fun hprep => hreads fun _ => hprep
    simp only [hc, true_implies, ← Bool.and_eq_true, Option.bind_some]
    refine ⟨_, _, _, rfl, ?_⟩
    by_cases hopens : (x.ssl.prepares && x.connects) = true
    · rw [if_pos hopens] at hspec ⊢
      obtain ⟨rfl, n, rfl, h⟩ := hspec
      exact ⟨by cases x.ssl.secures <;> simp, by simp, n, rfl, h⟩
    · rw [if_neg hopens] at hspec ⊢
      obtain ⟨rfl, h⟩ := hspec
      exact ⟨by simp, h⟩

/-- A port without a terminator is read behind its buffer, if it is read. -/
theorem httpcConnect_none (handle : ConHandle) {x : FotaOutcome}
    (hp : HttpUrl.httpcParseUrl https url freshInfo = some (.ok, info))
    (hport : info.port.str = none) (h : info.scheme = .https → x.ssl.prepares) :
    httpcConnect https handle url freshInfo x = none := by
  unfold httpcConnect
  simp only [hp, Option.bind_eq_bind, Option.bind_some, ne_eq, not_true_eq_false, if_false]
  rcases hs : info.scheme with _ | _
  · unfold httpcConn
    simp only [getaddrinfo_none hport, Option.bind_eq_bind, Option.bind_none]
  · rcases prepares_cases .invalid info x with ⟨hprep, -⟩ | ⟨-, hconn⟩
    · rw [h hs] at hprep
      cases hprep
    · simp only [hconn, getaddrinfo_none hport, Option.bind_none]

theorem httpcGet_spec (handle : ConHandle) (bufLen : ℕ) {x : FotaOutcome}
    (hp : HttpUrl.httpcParseUrl https url freshInfo = some (.ok, info))
    (hreads : (info.scheme = .https → x.ssl.prepares) → InfoReads info) :
    ∃ ret handle' events, nrcHttpcGet https handle url bufLen x = some (ret, handle', events) ∧
      if (info.scheme = .https → x.ssl.prepares) ∧ x.connects then
        (ret = .ok ↔ (info.scheme = .https → x.ssl.secures) ∧ x.alloc ∧ x.sendLine ∧ x.sendEnd
          ∧ x.transport.chunks ≠ [] ∧ 0 < bufLen) ∧
          ∃ n, nrcHttpcClose handle' = [.closed n] ∧ LeavesOpen [n] events
      else ret ≠ .ok ∧ LeavesOpen [] events := by
  obtain ⟨ret, handle', events, hc, hspec⟩ := httpcConnect_spec handle hp hreads
  unfold nrcHttpcGet
  simp only [hc, Option.bind_eq_bind, Option.bind_some]
  by_cases hret : ret = .ok
  swap
  · rw [if_pos hret]
    refine ⟨_, _, _, rfl, ?_⟩
    split_ifs at hspec ⊢
    · exact ⟨⟨fun h => absurd h hret, fun h => hspec.1.2 h.1⟩, hspec.2.2⟩
    · exact hspec
  rw [if_neg (not_not.2 hret)]
  split_ifs at hspec with hopens
  swap
  · exact absurd hret hspec.1
  simp only [if_pos hopens]
  obtain ⟨hsec, hvalid, hclose⟩ := hspec
  have hsecures := hsec.1 hret
  unfold httpcSendReq nrcHttpcRecvResponse
  rw [if_neg hvalid]
  by_cases hsend : x.alloc = true ∧ x.sendLine = true ∧ x.sendEnd = true
  · rw [if_pos hsend, if_neg (not_not.2 rfl)]
    refine ⟨_, _, _, rfl, ?_, hclose⟩
    by_cases hrecv : x.transport.chunks ≠ [] ∧ 0 < bufLen
    · rw [if_pos hrecv]
      exact ⟨fun _ => ⟨hsecures, hsend.1, hsend.2.1, hsend.2.2, hrecv⟩, fun _ => rfl⟩
    · rw [if_neg hrecv]
      refine ⟨fun h => ?_, fun h => absurd h.2.2.2.2 hrecv⟩
      split_ifs at h
  · rw [if_neg hsend, if_pos (by decide)]
    refine ⟨_, _, _, rfl, ⟨fun h => ?_, fun h => ?_⟩, hclose⟩
    · cases h
    · exact absurd ⟨h.2.1, h.2.2.1, h.2.2.2.1⟩ hsend

/-- A URL that is parsed is released as the request goes on. -/
theorem release_of_parsed {serverUrl filePath : Bytes} {b : RecvBuf} {accept : ℕ → Bool}
    {x : FotaOutcome} (hp : HttpUrl.httpcParseUrl https url freshInfo = some (.ok, info))
    (hreads : (info.scheme = .https → x.ssl.prepares) → InfoReads info)
    (hreq : atcmdFotaRequest_ https serverUrl filePath b accept x =
      (nrcHttpcGet https (.socket 0) url b.len x).bind (fotaReply b accept x)) :
    (∃ r, atcmdFotaRequest_ https serverUrl filePath b accept x = some r ∧ Released [] r.events) ↔
      ((info.scheme = .https → x.ssl.prepares) ∧ x.connects →
        (info.scheme = .https → x.ssl.secures) ∧ x.alloc ∧ x.sendLine ∧ x.sendEnd
          ∧ x.transport.chunks ≠ [] ∧ 0 < b.len) := by
  obtain ⟨ret, handle, events, hget, hspec⟩ := httpcGet_spec (.socket 0) b.len hp hreads
  rw [hreq, hget, Option.bind_some]
  unfold fotaReply
  dsimp only
  split_ifs at hspec with hconn
  · obtain ⟨hans, n, hclose, hleaves⟩ := hspec
    rw [← hans]
    by_cases hret : ret = .ok
    · have hends := httpc_get_ends b.mem b.len accept x.transport
      rw [if_neg (not_not.2 hret), if_neg (by omega), hclose]
      exact ⟨fun _ _ => hret, fun _ => ⟨_, rfl, (hleaves _).2 ⟨by simp, by simp [Released]⟩⟩⟩
    · rw [if_pos hret]
      refine ⟨?_, fun h => absurd (h hconn) hret⟩
      rintro ⟨r, hr, hrel⟩ -
      obtain rfl := Option.some.inj hr
      have := (hleaves []).1 (by rwa [List.append_nil])
      simp [Released] at this
  · rw [if_pos hspec.1]
    exact ⟨fun _ h => absurd h hconn, fun _ => ⟨_, rfl, leavesOpen_nil hspec.2⟩⟩

end Parsed

/-- What is copied of a URL and read of it stays inside of its buffers: the port is not read if TLS
fails before the connection. -/
def FotaOutcome.UrlReads (https : Bool) (url : Bytes) (x : FotaOutcome) : Prop :=
  ∀ s rest, url = schemeText s ++ rest → (s = .https → https) →
    RestCopies rest ∧ ((s = .https → x.ssl.prepares) → RestFits rest)

theorem FotaOutcome.urlReads_iff {https : Bool} {s : HttpScheme} (hs : s = .https → https = true)
    (rest : Bytes) (x : FotaOutcome) : x.UrlReads https (schemeText s ++ rest) ↔
      RestCopies rest ∧ ((s = .https → x.ssl.prepares) → RestFits rest) := by
  constructor
  · intro h
    exact h s rest rfl hs
  · rintro h t rest' ht -
    obtain ⟨rfl, rfl⟩ := HttpUrl.schemeText_inj ht
    exact h

lemma https_iff (s : HttpScheme) (rest : Bytes) :
    bytes "https://" <+: schemeText s ++ rest ↔ s = .https := by
  constructor
  · rintro ⟨rest', h⟩
    exact (HttpUrl.schemeText_inj (s := .https) h).1.symm
  · rintro rfl
    exact List.prefix_append _ _

/-- A request that is refused opens nothing, and one that is not is sent. -/
theorem request_cases (https : Bool) (serverUrl filePath : Bytes) (b : RecvBuf)
    (accept : ℕ → Bool) (x : FotaOutcome) :
    (¬ x.Opens https serverUrl filePath
      ∧ (FotaRequests serverUrl filePath → x.UrlReads https (fotaUrl serverUrl filePath))
      ∧ atcmdFotaRequest_ https serverUrl filePath b accept x = some ⟨-1, [], false⟩) ∨
    FotaRequests serverUrl filePath ∧ ∃ s rest, fotaUrl serverUrl filePath = schemeText s ++ rest
      ∧ (s = .https → https = true)
      ∧ atcmdFotaRequest_ https serverUrl filePath b accept x =
          (nrcHttpcGet https (.socket 0) (fotaUrl serverUrl filePath) b.len x).bind
            (fotaReply b accept x) := by
  by_cases hreq : FotaRequests serverUrl filePath
  swap
  · refine .inl ⟨fun h => hreq h.1, fun h => absurd h hreq, ?_⟩
    unfold FotaRequests at hreq
    unfold atcmdFotaRequest_
    split_ifs <;> first | rfl | exact absurd ⟨‹_›, ‹_›, by omega⟩ hreq
  have hrun : atcmdFotaRequest_ https serverUrl filePath b accept x =
      if bytes "https://" <+: fotaUrl serverUrl filePath ∧ !https then some ⟨-1, [], false⟩
      else (nrcHttpcGet https (.socket 0) (fotaUrl serverUrl filePath) b.len x).bind
        (fotaReply b accept x) := by
    unfold atcmdFotaRequest_
    rw [if_neg hreq.1, if_neg hreq.2.1, if_neg (Nat.not_lt.2 hreq.2.2)]
  by_cases hsup : ∃ s rest, fotaUrl serverUrl filePath = schemeText s ++ rest
      ∧ (s = .https → https = true)
  · obtain ⟨s, rest, hurl, hs⟩ := hsup
    refine .inr ⟨hreq, s, rest, hurl, hs, hrun.trans (if_neg ?_)⟩
    rw [hurl, https_iff]
    rintro ⟨h, hno⟩
    simp [hs h] at hno
  · have hno : ∀ s rest, fotaUrl serverUrl filePath = schemeText s ++ rest →
        ¬ (s = .https → https = true) := fun s rest hurl hs => hsup ⟨s, rest, hurl, hs⟩
    have hrefused := HttpUrl.httpcParseUrl_refused freshInfo hno
    refine .inl ⟨?_, fun _ s rest hurl hs => absurd hs (hno s rest hurl), ?_⟩
    · rintro ⟨-, info, hp, -⟩
      rw [hrefused] at hp
      cases hp
    · rw [hrun]
      split_ifs
      · rfl
      · unfold nrcHttpcGet httpcConnect
        simp only [hrefused, Option.bind_eq_bind, Option.bind_some]
        rfl

lemma fotaUrl_plain (serverUrl filePath : CStr) : 0 ∉ fotaUrl serverUrl.1 filePath.1 := by
  unfold fotaUrl
  split_ifs
  · exact fun h => (List.mem_append.1 h).elim serverUrl.2 filePath.2
  · intro h
    rcases List.mem_append.1 h with h | h
    · exact serverUrl.2 h
    · exact filePath.2 ((List.mem_cons.1 h).resolve_left (by decide))

/-- Whatever each step of the request comes to, it returns, and every descriptor that it opens is
closed once and none a second time, exactly if the URL stays inside of its buffers and what comes
after the connection in `nrc_httpc_get` succeeds. -/
theorem fota_release_iff (https : Bool) (serverUrl filePath : CStr) (b : RecvBuf)
    (accept : ℕ → Bool) (x : FotaOutcome) :
    (∃ r, atcmdFotaRequest_ https serverUrl.1 filePath.1 b accept x = some r
      ∧ Released [] r.events) ↔
      (FotaRequests serverUrl.1 filePath.1 → x.UrlReads https (fotaUrl serverUrl.1 filePath.1))
        ∧ (x.Opens https serverUrl.1 filePath.1 → x.Answers serverUrl.1 filePath.1 b) := by
  have h0 := fotaUrl_plain serverUrl filePath
  rcases request_cases https serverUrl.1 filePath.1 b accept x with
    ⟨hno, hurl, hreq⟩ | ⟨hrequests, s, rest, hurl, hs, hreq⟩
  · rw [hreq]
    exact iff_of_true ⟨_, rfl, rfl⟩ ⟨hurl, fun h => absurd h hno⟩
  unfold FotaOutcome.Opens FotaOutcome.Answers
  rw [hurl] at h0 hreq ⊢
  rw [imp_iff_right hrequests, and_iff_right hrequests, x.urlReads_iff hs, https_iff]
  have hspec := HttpUrl.httpcParseUrl_spec hs (fun h => h0 (List.mem_append_right _ h)) freshInfo
  by_cases hcopies : RestCopies rest
  swap
  · rw [if_neg hcopies] at hspec
    have hnone : nrcHttpcGet https (.socket 0) (schemeText s ++ rest) b.len x = none := by
      unfold nrcHttpcGet httpcConnect
      simp only [hspec, Option.bind_eq_bind, Option.bind_none]
    rw [hreq, hnone]
    refine iff_of_false ?_ fun h => hcopies h.1.1
    rintro ⟨r, hr, -⟩
    cases hr
  rw [if_pos hcopies] at hspec
  obtain ⟨ret, info, hparse, hspec⟩ := hspec
  rw [hparse]
  by_cases hret : ret = .ok
  swap
  · rw [if_neg hret] at hspec
    have hget : nrcHttpcGet https (.socket 0) (schemeText s ++ rest) b.len x =
        some (ret, .socket 0, []) := by
      unfold nrcHttpcGet httpcConnect
      simp only [hparse, Option.bind_eq_bind, Option.bind_some, if_pos hret]
    rw [hreq, hget]
    refine iff_of_true ⟨⟨-1, [], false⟩, if_pos hret, rfl⟩ ⟨⟨hcopies, fun _ => hspec⟩, ?_⟩
    rintro ⟨info', heq, -⟩
    cases heq
    exact absurd rfl hret
  rw [if_pos hret] at hspec
  obtain rfl := hret
  obtain ⟨rfl, hhost, hport⟩ := hspec
  by_cases hreads : (info.scheme = .https → x.ssl.prepares) → RestFits rest
  · have hread : (info.scheme = .https → x.ssl.prepares = true) → InfoReads info := by
      intro h
      rw [if_pos (hreads h)] at hport
      exact ⟨hhost, hport⟩
    rw [release_of_parsed hparse hread hreq, and_iff_right (And.intro hcopies hreads)]
    simp
  · rw [Classical.not_imp] at hreads
    rw [if_neg hreads.2] at hport
    have hnone : nrcHttpcGet https (.socket 0) (schemeText info.scheme ++ rest) b.len x = none := by
      unfold nrcHttpcGet
      simp only [httpcConnect_none (.socket 0) hparse hport hreads.1, Option.bind_eq_bind,
        Option.bind_none]
    rw [hreq, hnone]
    refine iff_of_false ?_ fun h => hreads.2 (h.1.2 hreads.1)
    rintro ⟨r, hr, -⟩
    cases hr

/-- The second address of a host connects, the request is sent, and the server closes the connection
without an answer. -/
def silentServer : FotaOutcome where
  addrs := some [.refused 3, .connected 3]
  ssl := ⟨true, true, true, true, true, true, true, true, true⟩
  alloc := true
  sendLine := true
  sendEnd := true
  transport := ⟨[], true, by simp⟩

/-- The first descriptor is closed by `httpc_conn`, the second one is left open. -/
theorem fota_release_leaks :
    ¬ ∃ r, atcmdFotaRequest_ false (bytes "http://10.0.0.1/fw") (bytes "fota.json")
        ⟨List.replicate 64 0, 64, by decide, by decide⟩ (fun _ => true) silentServer = some r
      ∧ Released [] r.events := by
  have hreq : atcmdFotaRequest_ false (bytes "http://10.0.0.1/fw") (bytes "fota.json")
      ⟨List.replicate 64 0, 64, by decide, by decide⟩ (fun _ => true) silentServer =
      some ⟨-1, [.opened 3, .closed 3, .opened 3], false⟩ := by decide +kernel
  rintro ⟨r, hr, h⟩
  obtain rfl := Option.some.inj (hreq.symm.trans hr)
  revert h
  decide

end NrcAtcmd
