import NrcAtcmd.SocketCommand

/-!
# One command, one response

`responses` counts what the target sent that ends a command. Everything the handlers are made of
leaves it as it is, except that `__atcmd_socket_recv_handler` answers for a passive receive when it
has data. A handler that returns anything but `ATCMD_NO_RETURN` is answered once, in
`atcmd_handler` (`Plain.handler`), so the one handler that returns it is what remains.
-/

namespace NrcAtcmd

variable {ν : Type*} {L : Lwip ν}

/-! ## What is sent -/

/-- How often a command was answered. -/
def responses (s : Sockets ν) : ℕ := s.out.countP Msg.isResponse

theorem searchId_getElem {id : ℤ} {i : ℕ} {k : AtcmdSocket} :
    ∀ {t : List (Option AtcmdSocket)}, atcmdSocketSearchId_ id t = some (i, k) →
      t[i]? = some (some k)
  | some k' :: t, h => by
    unfold atcmdSocketSearchId_ at h
    split_ifs at h
    · cases h
      rfl
    · obtain ⟨⟨j, k''⟩, hj, heq⟩ := Option.map_eq_some_iff.1 h
      cases heq
      simpa using searchId_getElem hj
  | none :: t, h => by
    unfold atcmdSocketSearchId_ at h
    obtain ⟨⟨j, k''⟩, hj, heq⟩ := Option.map_eq_some_iff.1 h
    cases heq
    simpa using searchId_getElem hj

theorem responses_emit (m : Msg) (s : Sockets ν) :
    responses (s.emit m) = responses s + if m.isResponse then 1 else 0 := by
  simp [responses, Sockets.emit, List.countP_append, List.countP_singleton]

@[simp] theorem responses_info (cmd text : Bytes) (s : Sockets ν) :
    responses (s.emit (.info cmd text)) = responses s := responses_emit _ s

@[simp] theorem responses_event (e : SocketEvent) (s : Sockets ν) :
    responses (s.emit (.event e)) = responses s := responses_emit _ s

theorem responses_emits {ms : List Msg} (h : ∀ m ∈ ms, m.isResponse = false) (s : Sockets ν) :
    responses (s.emits ms) = responses s := by
  have h0 : ms.countP Msg.isResponse = 0 := List.countP_eq_zero.2 fun m hm => by simp [h m hm]
  simp [responses, Sockets.emits, List.countP_append, h0]

@[simp] theorem responses_set (i : ℕ) (k : AtcmdSocket) (s : Sockets ν) :
    responses (s.set i k) = responses s := rfl

theorem responses_call {α : Type*} {f : Call ν α} {s s' : Sockets ν} {r : Except Errno α}
    (h : s.call f = (r, s')) : responses s' = responses s := by
  obtain ⟨-, rfl⟩ := Prod.mk.injEq .. ▸ h
  rfl

theorem responses_check {α : Type*} {f : Call ν α} {s s' : Sockets ν} {r : Option Errno}
    (h : s.check f = (r, s')) : responses s' = responses s := by
  obtain ⟨-, rfl⟩ := Prod.mk.injEq .. ▸ h
  rfl

/-- What a handler does for each slot adds up to nothing, if it does for each of them. -/
theorem responses_forSlots {α : Type*} {f : α → ℕ → Option AtcmdSocket → Sockets ν → α × Sockets ν}
    (hf : ∀ a i k s, responses (f a i k s).2 = responses s) (a : α) (s : Sockets ν) :
    responses (s.forSlots f a).2 = responses s := by
  unfold Sockets.forSlots
  generalize List.range s.table.length = is
  induction is generalizing a s with
  | nil => rfl
  | cons i is ih => exact (ih _ _).trans (hf a i _ s)

theorem responses_forSockets {α : Type*} {f : α → ℕ → AtcmdSocket → Sockets ν → α × Sockets ν}
    (hf : ∀ a i k s, responses (f a i k s).2 = responses s) (a : α) (s : Sockets ν) :
    responses (s.forSockets f a).2 = responses s := by
  refine responses_forSlots (fun a i k s => ?_) a s
  cases k with
  | none => rfl
  | some k => exact hf a i k s

/-! ## Open, close and receive -/

@[simp] theorem responses_closeSlot (err : Option Errno) (i : ℕ) (k : AtcmdSocket)
    (s : Sockets ν) : responses (atcmdSocketCloseSlot L err i k s) = responses s := by
  cases err
  · exact responses_info (bytes "SCLOSE") (Decimal.ofNat k.id) s
  · exact responses_event _ s

@[simp] theorem responses_close (id : ℤ) (err : Option Errno) (s : Sockets ν) :
    responses (atcmdSocketClose_ L id err s) = responses s := by
  unfold atcmdSocketClose_
  generalize List.range s.table.length = is
  induction is generalizing s with
  | nil => rfl
  | cons i is ih =>
    refine (ih _).trans ?_
    unfold atcmdSocketCloseAt
    split
    · split_ifs
      · exact responses_closeSlot err i _ s
      · rfl
    · rfl

theorem responses_open {k : AtcmdSocket} {s s' : Sockets ν} {ret : Option Errno}
    (h : atcmdSocketOpen_ L k s = (ret, s')) : responses s' = responses s := by
  unfold atcmdSocketOpen_ at h
  split at h
  · cases h
    rfl
  · split at h
    · cases h
      rfl
    · cases h
      exact responses_info _ _ s

@[simp] theorem responses_recvSome (now : UInt32) (k : AtcmdSocket) (data : Bytes)
    (remote : Option (Addr × ℕ)) (passive : Bool) (s : Sockets ν) :
    responses (atcmdSocketRecvSome L now k data remote passive s)
      = responses s + if passive then 1 else 0 := by
  cases passive
  · exact responses_emit _ s
  · exact (responses_emit _ _).trans (responses_emit _ s)

@[simp] theorem responses_recvError (id : ℕ) (e : Errno) (s : Sockets ν) :
    responses (atcmdSocketRecvError L id e s).2 = responses s := by
  unfold atcmdSocketRecvError
  split_ifs
  · rfl
  · exact responses_close _ _ s
  · exact responses_event _ s

/-- How often a receive that returns `r` answers the command it is for. -/
def fetched : Except Errno ℕ → ℕ
  | .ok (_ + 1) => 1
  | _ => 0

/-- A receive by command answers it exactly if there is data. -/
theorem responses_recv (now : UInt32) (id : ℕ) (len : ℤ) (s : Sockets ν) :
    responses (atcmdSocketRecvHandler__ L now id len true s).2
      = responses s + fetched (atcmdSocketRecvHandler__ L now id len true s).1 := by
  unfold atcmdSocketRecvHandler__
  split
  · rfl
  · split_ifs
    · rfl
    · dsimp only
      split
      · rename_i data remote _
        split_ifs with hdata
        · rfl
        · obtain ⟨n, hn⟩ := Nat.exists_eq_succ_of_ne_zero (mt List.length_eq_zero_iff.1 hdata)
          rw [responses_recvSome, hn]
          rfl
      · rename_i e _
        rw [responses_recvError]
        unfold atcmdSocketRecvError
        split_ifs <;> rfl

/-! ## Handlers that leave the response to `atcmd_handler` -/

/-- A handler sends no response and returns something to answer with. -/
def Plain (s : Sockets ν) (r : AtcmdError × Sockets ν) : Prop :=
  r.1 ≠ .noReturn ∧ responses r.2 = responses s

theorem Plain.of {s s' : Sockets ν} {ret : AtcmdError} (hr : ret ≠ .noReturn)
    (h : responses s' = responses s) : Plain s (ret, s') := ⟨hr, h⟩

theorem Plain.trans {s s' : Sockets ν} {r : AtcmdError × Sockets ν} (h : Plain s' r)
    (hs : responses s' = responses s) : Plain s r := ⟨h.1, h.2.trans hs⟩

/-- What `atcmd_handler` answers with is one response. -/
theorem Plain.handler {s : Sockets ν} {r : AtcmdError × Sockets ν} (h : Plain s r)
    (now : UInt32) (name : Bytes) :
    responses (atcmdHandlerReturn now name r) = responses s + 1 := by
  obtain ⟨ret, s'⟩ := r
  obtain ⟨hr, hs⟩ := h
  rw [← hs]
  cases ret with
  | noReturn => exact absurd rfl hr
  | success => exact responses_emit .ok s'
  | notsupp => exact responses_emit .error s'
  | _ => exact (responses_emit .error _).trans (congrArg (· + 1) (responses_emit _ s'))

theorem plain_help (texts : List String) (s : Sockets ν) : Plain s (help texts s) := by
  refine .of nofun (responses_emits (fun m hm => ?_) s)
  obtain ⟨t, -, rfl⟩ := List.mem_map.1 hm
  rfl

theorem responses_openAddr {addr port : Bytes} {s s' : Sockets ν} {r : Except Errno Addr}
    (h : atcmdSocketOpenAddr L addr port s = (r, s')) : responses s' = responses s := by
  unfold atcmdSocketOpenAddr at h
  repeat' split at h
  all_goals
    cases h
    rfl

theorem responses_openParams {proto : SocketProto} {argv : List Bytes} {s s' : Sockets ν}
    {r : Except Errno AtcmdSocket} (h : atcmdSocketOpenParams L proto argv s = (r, s')) :
    responses s' = responses s := by
  unfold atcmdSocketOpenParams at h
  split at h
  · split_ifs at h
    all_goals
      cases h
      rfl
  · split_ifs at h
    · cases h
      rfl
    · split at h
      · cases h
        exact responses_openAddr ‹_›
      · cases h
        exact responses_openAddr ‹_›
  · dsimp only at h
    split_ifs at h
    all_goals
      cases h
      rfl
  · cases h
    rfl

theorem responses_openSet {proto : SocketProto} {argv : List Bytes} {s s' : Sockets ν}
    {ret : Option Errno} (h : atcmdSocketOpenSet__ L proto argv s = (ret, s')) :
    responses s' = responses s := by
  unfold atcmdSocketOpenSet__ at h
  split at h
  · cases h
    exact responses_openParams ‹_›
  · exact (responses_open h).trans (responses_openParams ‹_›)

theorem plain_openSet (a : Args) (s : Sockets ν) : Plain s (atcmdSocketOpenSet_ L a s) := by
  unfold atcmdSocketOpenSet_
  split
  · exact plain_help _ s
  · split_ifs
    · exact .of nofun rfl
    · split
      · exact .of nofun rfl
      · rename_i proto _
        rcases hr : atcmdSocketOpenSet__ L proto _ s with ⟨ret, s'⟩
        refine .of ?_ (responses_openSet hr)
        unfold atcmdSocketOpenError
        split <;> nofun

theorem plain_closeSet (a : Args) (s : Sockets ν) : Plain s (atcmdSocketCloseSet_ L a s) := by
  unfold atcmdSocketCloseSet_
  split
  · exact plain_help _ s
  · split_ifs
    · exact .of nofun (responses_close _ _ s)
    · exact .of nofun rfl
  · exact .of nofun rfl

theorem responses_listOne (u : Unit) (i : ℕ) (k : AtcmdSocket) (s : Sockets ν) :
    responses (atcmdSocketListOne L u i k s).2 = responses s := by
  unfold atcmdSocketListOne
  split
  · exact responses_info _ _ s
  · exact responses_info _ _ _

theorem plain_listGet (a : Args) (s : Sockets ν) : Plain s (atcmdSocketListGet_ L a s) := by
  unfold atcmdSocketListGet_
  split
  · exact .of nofun (responses_forSockets responses_listOne () s)
  · exact .of nofun rfl

theorem responses_sendRemote {a : Args} {p : SendArgs} {i : ℕ} {k : AtcmdSocket}
    {s s' : Sockets ν} {r : Except AtcmdError SendArgs}
    (h : atcmdSocketSendRemote L a p i k s = (r, s')) :
    responses s' = responses s ∧ ∀ e, r = .error e → e ≠ .noReturn := by
  unfold atcmdSocketSendRemote at h
  repeat' split at h
  all_goals
    cases h
    exact ⟨rfl, fun e he => by cases he <;> nofun⟩

theorem plain_sendMode (p : SendArgs) (id : ℕ) (s : Sockets ν) :
    Plain s (atcmdSocketSendMode p id s) := by
  unfold atcmdSocketSendMode
  dsimp only
  repeat' split
  all_goals exact .of nofun rfl

theorem plain_sendSet (a : Args) (s : Sockets ν) : Plain s (atcmdSocketSendSet_ L a s) := by
  unfold atcmdSocketSendSet_
  split
  · exact plain_help _ s
  · exact .of nofun rfl
  · split
    · exact .of nofun rfl
    · split
      · obtain ⟨hs, he⟩ := responses_sendRemote ‹_›
        exact .of (he _ rfl) hs
      · exact (plain_sendMode _ _ _).trans (responses_sendRemote ‹_›).1

theorem plain_sendExitGet (a : Args) (s : Sockets ν) : Plain s (atcmdSocketSendExitGet_ a s) := by
  unfold atcmdSocketSendExitGet_
  split
  · split_ifs
    · exact .of nofun (responses_info _ _ s)
    · exact .of nofun (responses_info _ _ s)
    · exact .of nofun rfl
  · exact .of nofun rfl

theorem plain_sendExitSet (a : Args) (s : Sockets ν) : Plain s (atcmdSocketSendExitSet_ a s) := by
  unfold atcmdSocketSendExitSet_
  split
  · exact plain_help _ s
  · repeat' split
    all_goals exact .of nofun rfl
  · exact .of nofun rfl

theorem responses_recvLens (lens : Option (ℕ → ℕ)) (i : ℕ) (k : Option AtcmdSocket)
    (s : Sockets ν) : responses (atcmdSocketRecvLens L lens i k s).2 = responses s := by
  unfold atcmdSocketRecvLens
  split
  · rfl
  · rfl
  · dsimp only
    split
    · exact responses_call ‹_›
    · exact responses_call ‹_›

theorem plain_recvGet (a : Args) (s : Sockets ν) : Plain s (atcmdSocketRecvGet_ L a s) := by
  unfold atcmdSocketRecvGet_
  split_ifs
  · exact .of nofun rfl
  · split
    · have hlens := responses_forSlots (responses_recvLens (L := L)) (some fun _ => 0) s
      split
      · rename_i h
        rw [h] at hlens
        exact .of nofun hlens
      · rename_i h
        rw [h] at hlens
        refine .of nofun ((responses_emits (fun m hm => ?_) _).trans hlens)
        obtain ⟨i, -, rfl⟩ := List.mem_map.1 hm
        rfl
    · dsimp only
      split_ifs
      · exact .of nofun rfl
      · split
        · exact .of nofun (responses_call ‹_›)
        · exact .of nofun ((responses_info _ _ _).trans (responses_call ‹_›))
    · exact .of nofun rfl

theorem plain_recvModeGet (a : Args) (s : Sockets ν) : Plain s (atcmdSocketRecvModeGet_ a s) := by
  unfold atcmdSocketRecvModeGet_
  split
  · exact .of nofun (responses_info _ _ s)
  · exact .of nofun rfl

theorem plain_recvMode (mode event : ℤ) (s : Sockets ν) :
    Plain s (atcmdSocketRecvMode mode event s) := by
  unfold atcmdSocketRecvMode
  split_ifs
  · exact .of nofun rfl
  · exact .of nofun rfl

theorem plain_recvModeSet (a : Args) (s : Sockets ν) : Plain s (atcmdSocketRecvModeSet_ a s) := by
  unfold atcmdSocketRecvModeSet_
  split
  · exact plain_help _ s
  · exact plain_recvMode _ _ s
  · exact plain_recvMode _ _ s
  · exact .of nofun rfl

theorem plain_recvInfoGet (a : Args) (s : Sockets ν) : Plain s (atcmdSocketRecvInfoGet_ a s) := by
  unfold atcmdSocketRecvInfoGet_
  split
  · exact .of nofun (responses_info _ _ s)
  · exact .of nofun rfl

theorem plain_recvInfoSet (a : Args) (s : Sockets ν) : Plain s (atcmdSocketRecvInfoSet_ a s) := by
  unfold atcmdSocketRecvInfoSet_
  split
  · exact plain_help _ s
  · split_ifs
    · exact .of nofun rfl
    · exact .of nofun rfl
  · exact .of nofun rfl

theorem plain_recvLogGet (a : Args) (s : Sockets ν) : Plain s (atcmdSocketRecvLogGet_ a s) := by
  unfold atcmdSocketRecvLogGet_
  split
  · exact .of nofun (responses_info _ _ s)
  · exact .of nofun rfl

theorem plain_recvLogSet (a : Args) (s : Sockets ν) : Plain s (atcmdSocketRecvLogSet_ a s) := by
  unfold atcmdSocketRecvLogSet_
  split
  · exact plain_help _ s
  · exact plain_recvInfoSet a s
  · exact .of nofun rfl

theorem plain_addrInfo {r : Except Errno Bytes × LwipSocket ν} {s : Sockets ν} :
    Plain s (atcmdSocketAddrInfo r s) := by
  unfold atcmdSocketAddrInfo
  split
  · exact .of nofun rfl
  · exact .of nofun (responses_info _ _ _)

theorem plain_addrInfoSet (a : Args) (s : Sockets ν) :
    Plain s (atcmdSocketAddrInfoSet_ L a s) := by
  unfold atcmdSocketAddrInfoSet_
  split
  · exact plain_help _ s
  · split_ifs
    · exact .of nofun rfl
    · split
      · exact .of nofun rfl
      · exact plain_addrInfo
      · split_ifs
        · exact .of nofun rfl
        · exact plain_addrInfo

theorem responses_getsockopts {fd : ℕ} : ∀ {os : List SockOpt} {s s' : Sockets ν}
    {r : Except Errno (List ℤ)}, getsockopts L fd os s = (r, s') → responses s' = responses s
  | [], s, s', r, h => by
    cases h
    rfl
  | o :: os, s, s', r, h => by
    unfold getsockopts at h
    split at h
    · cases h
      exact responses_call ‹_›
    · split at h
      · cases h
        exact (responses_getsockopts ‹_›).trans (responses_call ‹_›)
      · cases h
        exact (responses_getsockopts ‹_›).trans (responses_call ‹_›)

theorem responses_setsockopts {fd : ℕ} : ∀ {os : List (SockOpt × ℤ)} {s s' : Sockets ν}
    {r : Option Errno}, setsockopts L fd os s = (r, s') → responses s' = responses s
  | [], s, s', r, h => by
    cases h
    rfl
  | (o, v) :: os, s, s', r, h => by
    unfold setsockopts at h
    split at h
    · cases h
      exact responses_check ‹_›
    · exact (responses_setsockopts h).trans (responses_check ‹_›)

theorem responses_getKeepalive {fd : ℕ} {s s' : Sockets ν} {r : Except Errno (List ℤ)}
    (h : lwipSocketTcpGetKeepalive_ L fd s = (r, s')) : responses s' = responses s := by
  unfold lwipSocketTcpGetKeepalive_ at h
  split at h
  · cases h
    exact responses_getsockopts ‹_›
  · exact responses_getsockopts h

theorem responses_keepaliveOne (vs : List ℤ) (i : ℕ) (k : AtcmdSocket) (s : Sockets ν) :
    responses (atcmdSocketKeepaliveOne L vs i k s).2 = responses s := by
  unfold atcmdSocketKeepaliveOne
  split_ifs
  · rcases h : lwipSocketTcpGetKeepalive_ L k.id s with ⟨r, s'⟩
    exact (responses_info _ _ _).trans (responses_getKeepalive h)
  · rfl

theorem plain_keepaliveGet (a : Args) (s : Sockets ν) :
    Plain s (atcmdSocketTcpKeepaliveGet_ L a s) := by
  unfold atcmdSocketTcpKeepaliveGet_
  split
  · exact .of nofun (responses_forSockets responses_keepaliveOne _ s)
  · split
    · exact .of nofun rfl
    · split
      · exact .of nofun (responses_getKeepalive ‹_›)
      · exact .of nofun ((responses_info _ _ _).trans (responses_getKeepalive ‹_›))
  · exact .of nofun rfl

theorem plain_keepalive (id keepalive keepidle keepcnt keepintvl : ℤ) (s : Sockets ν) :
    Plain s (atcmdSocketKeepaliveSet L id keepalive keepidle keepcnt keepintvl s) := by
  unfold atcmdSocketKeepaliveSet lwipSocketTcpSetKeepalive_
  by_cases hk : keepalive = 0 ∨ keepalive = 1
  · rw [if_neg (not_not.2 hk)]
    split
    · exact .of nofun rfl
    · split
      · exact .of nofun (responses_getKeepalive ‹_›)
      · dsimp only
        split
        · exact .of nofun ((responses_setsockopts ‹_›).trans (responses_getKeepalive ‹_›))
        · exact .of nofun ((responses_setsockopts ‹_›).trans (responses_getKeepalive ‹_›))
  · rw [if_pos hk]
    exact .of nofun rfl

theorem plain_keepaliveSet (a : Args) (s : Sockets ν) :
    Plain s (atcmdSocketTcpKeepaliveSet_ L a s) := by
  unfold atcmdSocketTcpKeepaliveSet_
  split
  · exact plain_help _ s
  · exact plain_keepalive ..
  · split
    · exact plain_keepalive ..
    · exact .of nofun rfl
  · exact .of nofun rfl

theorem responses_nodelayOne (u : Unit) (i : ℕ) (k : AtcmdSocket) (s : Sockets ν) :
    responses (atcmdSocketNodelayOne L u i k s).2 = responses s := by
  unfold atcmdSocketNodelayOne
  split_ifs
  · exact responses_info _ _ _
  · rfl

theorem plain_nodelayGet (a : Args) (s : Sockets ν) :
    Plain s (atcmdSocketTcpNodelayGet_ L a s) := by
  unfold atcmdSocketTcpNodelayGet_
  split
  · exact .of nofun (responses_forSockets responses_nodelayOne () s)
  · split
    · exact .of nofun rfl
    · split
      · exact .of nofun (responses_call ‹_›)
      · exact .of nofun ((responses_info _ _ _).trans (responses_call ‹_›))
  · exact .of nofun rfl

theorem plain_nodelaySet (a : Args) (s : Sockets ν) :
    Plain s (atcmdSocketTcpNodelaySet_ L a s) := by
  unfold atcmdSocketTcpNodelaySet_
  split
  · exact plain_help _ s
  · split
    · exact .of nofun rfl
    · split_ifs
      · split
        · exact .of nofun (responses_check ‹_›)
        · exact .of nofun (responses_check ‹_›)
      · exact .of nofun rfl
  · exact .of nofun rfl

theorem plain_addGroup (i : ℕ) (k : AtcmdSocket) (addr : Addr) (s : Sockets ν) :
    Plain s (atcmdSocketUdpMulticastAddGroupAddr_ L i k addr s) := by
  unfold atcmdSocketUdpMulticastAddGroupAddr_
  split_ifs
  · exact .of nofun rfl
  · exact .of nofun rfl
  · split
    · exact .of nofun rfl
    · split
      · exact .of nofun (responses_check ‹_›)
      · exact .of nofun ((responses_set _ _ _).trans (responses_check ‹_›))

theorem responses_dropGroups (fd : ℕ) : ∀ (addrs : List Addr) (s : Sockets ν),
    responses (dropGroups L fd addrs s) = responses s
  | [], _ => rfl
  | addr :: addrs, s => by
    unfold dropGroups
    rw [responses_dropGroups fd addrs]
    split_ifs <;> rfl

theorem plain_dropGroup (i : ℕ) (k : AtcmdSocket) (addr : Addr) (s : Sockets ν) :
    Plain s (atcmdSocketUdpMulticastDropGroupAddr_ L i k addr s) := by
  unfold atcmdSocketUdpMulticastDropGroupAddr_
  split_ifs
  · exact .of nofun (responses_dropGroups _ _ s)
  · exact .of nofun rfl
  · split
    · exact .of nofun rfl
    · split
      · exact .of nofun (responses_check ‹_›)
      · exact .of nofun ((responses_set _ _ _).trans (responses_check ‹_›))

theorem responses_multicastOne (u : Unit) (i : ℕ) (k : AtcmdSocket) (s : Sockets ν) :
    responses (atcmdSocketMulticastOne L u i k s).2 = responses s := by
  unfold atcmdSocketMulticastOne
  split_ifs
  · rfl
  · refine responses_emits (fun m hm => ?_) s
    obtain ⟨addr, -, rfl⟩ := List.mem_map.1 hm
    rfl

theorem plain_multicastGet (a : Args) (s : Sockets ν) :
    Plain s (atcmdSocketUdpMulticastGet_ L a s) := by
  unfold atcmdSocketUdpMulticastGet_
  split
  · exact .of nofun (responses_forSockets responses_multicastOne () s)
  · exact .of nofun rfl

theorem plain_multicastSet (a : Args) (s : Sockets ν) :
    Plain s (atcmdSocketUdpMulticastSet_ L a s) := by
  unfold atcmdSocketUdpMulticastSet_
  split
  · exact plain_help _ s
  · split_ifs
    · exact .of nofun rfl
    · split
      · split
        · exact .of nofun rfl
        · split
          · exact .of nofun rfl
          · split
            · exact plain_addGroup ..
            · exact plain_dropGroup ..
      · exact .of nofun rfl
  · exact .of nofun rfl

theorem not_response_of_mem_timeoutLines {ts : List (Bytes × ℕ)} {m : Msg}
    (h : m ∈ timeoutLines ts) : m.isResponse = false := by
  obtain ⟨t, -, ht⟩ := List.mem_filterMap.1 h
  split_ifs at ht <;> cases ht <;> rfl

theorem plain_timeoutGet (a : Args) (s : Sockets ν) : Plain s (atcmdSocketTimeoutGet_ a s) := by
  unfold atcmdSocketTimeoutGet_
  split
  · unfold atcmdBasicTimeoutGet_
    dsimp only
    split_ifs
    · exact .of nofun (responses_emits (fun m => not_response_of_mem_timeoutLines) s)
    · exact .of nofun (responses_emits (fun m => not_response_of_mem_timeoutLines) s)
    · exact .of nofun rfl
  · exact .of nofun rfl

theorem plain_timeoutSet (a : Args) (s : Sockets ν) : Plain s (atcmdSocketTimeoutSet_ a s) := by
  unfold atcmdSocketTimeoutSet_
  split
  · exact plain_help _ s
  · unfold atcmdBasicTimeoutSet_
    split
    · exact plain_help _ s
    · repeat' split
      all_goals exact .of nofun rfl
    · exact .of nofun rfl
  · exact .of nofun rfl

/-! ## The passive receive -/

theorem responses_recvWait {id : ℕ} : ∀ {t : ℕ} {s s' : Sockets ν} {r : Option AtcmdError},
    atcmdSocketRecvWait L id t s = (r, s') →
      responses s' = responses s ∧ ∀ e, r = some e → e ≠ .noReturn
  | 0, s, s', r, h => by
    cases h
    exact ⟨rfl, fun e he => by cases he; nofun⟩
  | t + 1, s, s', r, h => by
    unfold atcmdSocketRecvWait at h
    split at h
    · cases h
      exact ⟨responses_call ‹_›, fun e he => by cases he; nofun⟩
    · obtain ⟨hs, he⟩ := responses_recvWait h
      exact ⟨hs.trans (responses_call ‹_›), he⟩
    · cases h
      exact ⟨responses_call ‹_›, nofun⟩

theorem responses_recvAwait {argc id : ℕ} {s s' : Sockets ν} {r : Option AtcmdError}
    (h : atcmdSocketRecvAwait L argc id s = (r, s')) :
    responses s' = responses s ∧ ∀ e, r = some e → e ≠ .noReturn := by
  unfold atcmdSocketRecvAwait at h
  split at h
  · cases h
    exact ⟨responses_call ‹_›, fun e he => by cases he; nofun⟩
  · split_ifs at h
    · cases h
      exact ⟨responses_call ‹_›, fun e he => by cases he; nofun⟩
    · obtain ⟨hs, he⟩ := responses_recvWait h
      exact ⟨hs.trans (responses_call ‹_›), he⟩
  · cases h
    exact ⟨responses_call ‹_›, nofun⟩

/-- A receive returns zero exactly if nothing was received. -/
theorem recvHandler_eq_zero {now : UInt32} {id : ℕ} {len : ℤ} {passive : Bool} {s : Sockets ν}
    (hlen : 0 ≤ len) :
    (atcmdSocketRecvHandler__ L now id len passive s).1 = .ok 0 ↔ RecvsNothing L id len s := by
  unfold atcmdSocketRecvHandler__ RecvsNothing isNothing
  cases hk : atcmdSocketSearchId_ id s.table with
  | none => simp
  | some k =>
    simp only [Option.isSome_some, true_and, if_neg (Int.not_lt.2 hlen)]
    rcases lwipSocketRecv__ L id (min len.toNat atcmdDataLenMax) s.lwip with ⟨⟨e⟩ | ⟨data, remote⟩, w⟩
    · dsimp only
      unfold atcmdSocketRecvError
      split_ifs <;> simp_all
    · dsimp only
      split_ifs with hdata <;> simp [hdata]

/-- The passive receive is answered once, unless nothing was received. -/
theorem recvFetch_handler (now : UInt32) (id : ℕ) {len : ℤ} (hlen : 0 ≤ len) (s : Sockets ν)
    (name : Bytes) : responses (atcmdHandlerReturn now name (atcmdSocketRecvFetch L now id len s))
      = responses s + 1 ↔ ¬ RecvsNothing L id len s := by
  rw [← recvHandler_eq_zero hlen]
  have hs := responses_recv (L := L) now id len s
  unfold atcmdSocketRecvFetch
  rcases hr : atcmdSocketRecvHandler__ L now id len true s with ⟨r, s'⟩
  rw [hr] at hs
  have hready : responses (if id ∈ s'.recv.ready then
      { s' with
        recv := { s'.recv with ready := s'.recv.ready.erase id }
        lwip := lwipSocketRecvRequest_ id s'.lwip }
    else s') = responses s' := by
    split_ifs <;> rfl
  rcases r with e | n
  · have hp : Plain s (.fail, _) := .of nofun (hready.trans hs)
    simpa using hp.handler now name
  · refine (iff_of_eq (congrArg (· = _) (hready.trans hs))).trans ?_
    cases n <;> simp [fetched]

theorem recvArgs_pos {numMax id : ℕ} {argv : List Bytes} {len : ℤ}
    (h : recvArgs numMax argv = some (id, len)) : 0 < len := by
  cases argv with
  | nil => cases h
  | cons a argv =>
    simp only [recvArgs] at h
    split_ifs at h with hif
    cases h
    exact hif.2.2.2

theorem recvSet_handler (a : Args) (s : Sockets ν) (name : Bytes) :
    responses (atcmdHandlerReturn a.now name (atcmdSocketRecvSet_ L a s)) = responses s + 1 ↔
      ¬ (s.recv.passive = true ∧ ∃ p ∈ recvArgs s.table.length a.argv,
        (atcmdSocketRecvAwait L a.argv.length p.1 s).1 = none
          ∧ RecvsNothing L p.1 p.2 (atcmdSocketRecvAwait L a.argv.length p.1 s).2) := by
  unfold atcmdSocketRecvSet_
  split_ifs with hpassive
  · simpa [hpassive] using (Plain.of nofun rfl : Plain s (.notsupp, s)).handler a.now name
  have hpassive : s.recv.passive = true := by simpa using hpassive
  split
  · rename_i h
    simpa [h, recvArgs] using (plain_help _ s).handler a.now name
  · rename_i harg _
    simpa [harg] using (Plain.of nofun rfl : Plain s (.inval, s)).handler a.now name
  · rename_i id len harg _
    have hlen := (recvArgs_pos harg).le
    rcases hw : atcmdSocketRecvAwait L a.argv.length id s with ⟨r, s'⟩
    obtain ⟨hs, he⟩ := responses_recvAwait hw
    cases r with
    | some e =>
      have hp := (Plain.of (he e rfl) hs).handler a.now name
      simp [harg, hw, hp]
    | none =>
      rw [← hs]
      refine (recvFetch_handler a.now id hlen s' name).trans ?_
      simp [harg, hw, hpassive]

/-! ## Every command -/

/-- A handler, if there is one, leaves the response to `atcmd_handler`. -/
def PlainHandler (o : Option (Handler ν)) : Prop := ∀ h ∈ o, ∀ a s, Plain s (h a s)

theorem plainHandler_none : PlainHandler (none : Option (Handler ν)) := nofun

theorem plainHandler_some {h : Handler ν} (hh : ∀ a s, Plain s (h a s)) :
    PlainHandler (some h) := by
  intro h' hm a s
  cases hm
  exact hh a s

theorem plainHandler_info {i : Info ν} (hi : i ∈ atcmdInfoSocket L) (type : HandlerType)
    (h : ¬ (i.cmd = bytes "RECV" ∧ type = .set)) : PlainHandler (i.handler type) := by
  simp only [atcmdInfoSocket, List.mem_cons, List.not_mem_nil, or_false] at hi
  rcases hi with rfl | rfl | rfl | rfl | rfl | rfl | rfl | rfl | rfl | rfl | rfl | rfl | rfl | rfl
  · cases type
    exacts [plainHandler_none, plainHandler_none, plainHandler_some plain_openSet]
  · cases type
    exacts [plainHandler_some fun a s => .of nofun (responses_close _ _ s), plainHandler_none,
      plainHandler_some plain_closeSet]
  · cases type
    exacts [plainHandler_none, plainHandler_some plain_listGet, plainHandler_none]
  · cases type
    exacts [plainHandler_none, plainHandler_none, plainHandler_some plain_sendSet]
  · cases type
    exacts [plainHandler_none, plainHandler_some plain_sendExitGet,
      plainHandler_some plain_sendExitSet]
  · cases type
    exacts [plainHandler_none, plainHandler_some plain_recvGet, absurd ⟨rfl, rfl⟩ h]
  · cases type
    exacts [plainHandler_none, plainHandler_some plain_recvModeGet,
      plainHandler_some plain_recvModeSet]
  · cases type
    exacts [plainHandler_none, plainHandler_some plain_recvInfoGet,
      plainHandler_some plain_recvInfoSet]
  · cases type
    exacts [plainHandler_none, plainHandler_some plain_recvLogGet,
      plainHandler_some plain_recvLogSet]
  · cases type
    exacts [plainHandler_none, plainHandler_none, plainHandler_some plain_addrInfoSet]
  · cases type
    exacts [plainHandler_none, plainHandler_some plain_keepaliveGet,
      plainHandler_some plain_keepaliveSet]
  · cases type
    exacts [plainHandler_none, plainHandler_some plain_nodelayGet,
      plainHandler_some plain_nodelaySet]
  · cases type
    exacts [plainHandler_none, plainHandler_some plain_multicastGet,
      plainHandler_some plain_multicastSet]
  · cases type
    exacts [plainHandler_none, plainHandler_some plain_timeoutGet,
      plainHandler_some plain_timeoutSet]

theorem recvSet_of_cmd {i : Info ν} (hi : i ∈ atcmdInfoSocket L) (h : i.cmd = bytes "RECV") :
    i.set = some (atcmdSocketRecvSet_ L) := by
  simp only [atcmdInfoSocket, List.mem_cons, List.not_mem_nil, or_false] at hi
  rcases hi with rfl | rfl | rfl | rfl | rfl | rfl | rfl | rfl | rfl | rfl | rfl | rfl | rfl | rfl
  case inr.inr.inr.inr.inr.inl => rfl
  all_goals
    dsimp only at h
    exact absurd h (by decide)

/-- Every command of the socket group is answered exactly once, unless it receives in vain. -/
theorem one_response_iff {i : Info ν} (hi : i ∈ atcmdInfoSocket L) (type : HandlerType)
    (a : Args) (s : Sockets ν) :
    responses (atcmdHandler i type a s) = responses s + 1 ↔ ¬ RecvsInVain L i type a s := by
  unfold atcmdHandler
  by_cases h : i.cmd = bytes "RECV" ∧ type = .set
  · obtain ⟨hcmd, rfl⟩ := h
    have hset : i.handler .set = some (atcmdSocketRecvSet_ L) := recvSet_of_cmd hi hcmd
    rw [hset]
    exact (recvSet_handler a s _).trans (by simp [RecvsInVain, hcmd])
  · have hp := plainHandler_info hi type h
    refine iff_of_true ?_ fun hv => h ⟨hv.1, hv.2.1⟩
    split
    · exact (Plain.of nofun rfl : Plain s (.notsupp, s)).handler a.now _
    · exact (hp _ ‹_› a s).handler a.now _

/-! ## A stack -/

/-- Datagrams and connections that wait, and whether the stack was built with `SO_REUSE`. -/
structure QueueStack where
  datagrams : List (ℕ × Bytes × Addr × ℕ)
  backlog : List (Addr × ℕ)
  reuse : Bool

/-- The first of eight descriptors that is not open. -/
def firstFree (opened : ℕ → Bool) : Option ℕ := (List.range 8).find? fun fd => !opened fd

theorem firstFree_fresh {opened : ℕ → Bool} {fd : ℕ} (h : firstFree opened = some fd) :
    opened fd = false := by
  simpa using List.find?_some h

/-- A stack on which every other call succeeds. -/
def queueLwip : Lwip QueueStack where
  socket opened _ x := ((firstFree opened).elim (.error .enobufs) .ok, x)
  bind _ _ x := (.ok (), x)
  listen _ x := (.ok (), x)
  accept opened _ x :=
    match firstFree opened, x.backlog with
    | some fd, r :: rs => (.ok (fd, r), { x with backlog := rs })
    | _, _ => (.error .eagain, x)
  connect _ _ _ x := (.ok (), x)
  selectWrite _ _ x := (.ok true, x)
  setNonblock _ _ x := (.ok (), x)
  soType _ x := (.ok (some (if x.backlog = [] then .udp else .tcp)), x)
  soError _ x := (.ok none, x)
  setsockopt _ o _ x :=
    (if o = .reuseAddr ∧ x.reuse = false then .error (.other 109) else .ok (), x)
  getsockopt _ _ x := (.ok 0, x)
  getsockname _ x := (.ok 49152, x)
  close _ x := x
  fionread fd x := (.ok ((x.datagrams.filter (·.1 = fd)).map (·.2.1.length)).sum, x)
  recvfrom fd len x :=
    match x.datagrams.find? (·.1 = fd) with
    | some (_, data, remote) =>
      (.ok (data.take len, remote), { x with datagrams := x.datagrams.eraseP (·.1 = fd) })
    | none => (.error .eagain, x)
  gethostbyname _ x := (.error .eperm, x)
  getaddrinfo _ _ x := (.error .eperm, x)
  ipaddrAton _ := none
  ipaddrNtoa _ := bytes "10.0.0.1"
  socket_fresh {opened t x fd} h := by
    rcases hf : firstFree opened with _ | fd'
    · simp [hf] at h
    · simp only [hf, Option.elim_some, Except.ok.injEq] at h
      exact h ▸ firstFree_fresh hf
  accept_fresh {opened fd x fd' a} h := by
    split at h
    · simp only [Except.ok.injEq, Prod.mk.injEq] at h
      exact h.1 ▸ firstFree_fresh ‹_›
    · cases h
  recvfrom_le {fd len x data a} h := by
    split at h
    · simp only [Except.ok.injEq, Prod.mk.injEq] at h
      rw [← h.1, List.length_take]
      exact min_le_left _ _
    · cases h

/-- A command with these parameters. -/
def argsOf (argv : List Bytes) : Args := ⟨argv, ⟨[], 0, [], false⟩, 0⟩

/-- `AT+SOPEN="UDP",5000` and `AT+SRECVMODE=1`, before these datagrams arrive. -/
def passiveUdp (datagrams : List (ℕ × Bytes × Addr × ℕ)) : Sockets QueueStack :=
  (atcmdSocketRecvModeSet_ (argsOf [bytes "1"])
    (atcmdSocketOpenSet_ queueLwip (argsOf [bytes "\"UDP\"", bytes "5000"])
      (.boot 8 true ⟨datagrams, [], true⟩)).2).2

/-- `SRECV` in `atcmdInfoSocket`. -/
def recvInfo : Info QueueStack :=
  ⟨bytes "RECV", none, some (atcmdSocketRecvGet_ queueLwip),
    some (atcmdSocketRecvSet_ queueLwip)⟩

theorem one_response_iff_recv :
    responses (atcmdHandler recvInfo .set (argsOf [bytes "0"])
      (passiveUdp [(0, bytes "abc", 0, 7)])) = 1 := by
  have h0 : responses (passiveUdp [(0, bytes "abc", 0, 7)]) = 0 := by decide +kernel
  have h : ¬ RecvsInVain queueLwip recvInfo .set (argsOf [bytes "0"])
      (passiveUdp [(0, bytes "abc", 0, 7)]) := by decide +kernel
  have hi : recvInfo ∈ atcmdInfoSocket queueLwip := by simp [atcmdInfoSocket, recvInfo]
  rw [(one_response_iff hi _ _ _).2 h, h0]

/-- A datagram without data comes first: the command is not answered. -/
theorem one_response_fails_empty :
    recvInfo ∈ atcmdInfoSocket queueLwip
      ∧ responses (atcmdHandler recvInfo .set (argsOf [bytes "0"])
          (passiveUdp [(0, [], 0, 7), (0, bytes "abc", 0, 7)]))
        = responses (passiveUdp [(0, [], 0, 7), (0, bytes "abc", 0, 7)]) :=
  ⟨by simp [atcmdInfoSocket, recvInfo], by decide +kernel⟩

end NrcAtcmd
