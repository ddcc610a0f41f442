import NrcAtcmd.Proofs.SocketCommand
import NrcAtcmd.SocketArgv

/-!
# The handlers read their own arguments

Each handler comes to the end that it has in `SocketCommand` (`Reads`), so that it read no slot that
nothing was stored in. The one that does is `_atcmd_socket_recv_get` with an argument.
-/

set_option linter.style.nameCheck false

namespace NrcAtcmd.SocketArgv

variable {ν : Type*} {L : Lwip ν}

/-- A handler reads only the arguments that it has, and does with them what `h` does. -/
def Reads (f : ArgvHandler ν) (h : Handler ν) : Prop :=
  ∀ e args s, f e args.length (Argv.of args) s = some (h ⟨args, e.stale, e.now⟩ s)

@[simp] theorem read_of {β : Type*} (args : List Bytes) (i : ℕ) (next : Bytes → Option β) :
    (Argv.of args).read i next = args[i]?.bind next := rfl

@[simp] theorem drop_of (n : ℕ) (args : List Bytes) :
    (Argv.of args).drop n = .of (args.drop n) := by
  funext i
  exact List.getElem?_drop.symm

/-- Where there is only a `case 0`, other arguments are refused. -/
theorem reads_onlyZero {h : Handler ν}
    (hdef : ∀ x args stale now s, h ⟨x :: args, stale, now⟩ s = (.inval, s)) :
    Reads (onlyZero h) h := by
  intro e args s
  rcases args with _ | ⟨x, args⟩
  · rfl
  · exact (congrArg some (hdef ..)).symm

/-- Where there are a `case 0` and a `case 1`, more arguments are refused. -/
theorem reads_zeroOne {h : Handler ν}
    (hdef : ∀ x y args stale now s, h ⟨x :: y :: args, stale, now⟩ s = (.inval, s)) :
    Reads (zeroOne h) h := by
  intro e args s
  rcases args with _ | ⟨x, _ | ⟨y, args⟩⟩
  · rfl
  · rfl
  · exact (congrArg some (hdef ..)).symm

theorem reads_closeRun : Reads (atcmdSocketCloseRun_ L) (NrcAtcmd.atcmdSocketCloseRun_ L) :=
  fun _ _ _ => rfl

theorem reads_openSet : Reads (atcmdSocketOpenSet_ L) (NrcAtcmd.atcmdSocketOpenSet_ L) := by
  intro e args s
  rcases args with _ | ⟨proto, _ | ⟨x, _ | ⟨y, _ | ⟨z, args⟩⟩⟩⟩
  · rfl
  · rfl
  · rcases hp : atcmdSocketProto proto with _ | p
    · simp [atcmdSocketOpenSet_, NrcAtcmd.atcmdSocketOpenSet_, hp, invalid]
    · cases p <;> simp [atcmdSocketOpenSet_, NrcAtcmd.atcmdSocketOpenSet_, atcmdSocketOpenSet__, hp]
  · rcases hp : atcmdSocketProto proto with _ | p
    · simp [atcmdSocketOpenSet_, NrcAtcmd.atcmdSocketOpenSet_, hp, invalid]
    · cases p <;> simp [atcmdSocketOpenSet_, NrcAtcmd.atcmdSocketOpenSet_, atcmdSocketOpenSet__, hp]
  · simp [atcmdSocketOpenSet_, NrcAtcmd.atcmdSocketOpenSet_, invalid]

theorem reads_sendSet : Reads (atcmdSocketSendSet_ L) (NrcAtcmd.atcmdSocketSendSet_ L) := by
  intro e args s
  rcases args with _ | ⟨id, _ | ⟨x, _ | ⟨y, _ | ⟨z, _ | ⟨v, _ | ⟨w, args⟩⟩⟩⟩⟩⟩ <;> rfl

theorem reads_recvSet : Reads (atcmdSocketRecvSet_ L) (NrcAtcmd.atcmdSocketRecvSet_ L) := by
  intro e args s
  unfold atcmdSocketRecvSet_
  by_cases hp : s.recv.passive = false
  · rw [if_pos hp, NrcAtcmd.atcmdSocketRecvSet_, if_pos hp]
  rw [if_neg hp]
  rcases args with _ | ⟨id, _ | ⟨len, _ | ⟨x, args⟩⟩⟩
  · rfl
  · rfl
  · rfl
  · have hnone : recvArgs s.table.length (id :: len :: x :: args) = none := by
      simp [recvArgs]
    simp [NrcAtcmd.atcmdSocketRecvSet_, if_neg hp, hnone, invalid]

theorem reads_recvModeSet :
    Reads (ν := ν) atcmdSocketRecvModeSet_ NrcAtcmd.atcmdSocketRecvModeSet_ := by
  intro e args s
  rcases args with _ | ⟨mode, _ | ⟨event, _ | ⟨x, args⟩⟩⟩ <;> rfl

theorem reads_recvLogSet :
    Reads (ν := ν) atcmdSocketRecvLogSet_ NrcAtcmd.atcmdSocketRecvLogSet_ := by
  intro e args s
  rcases args with _ | ⟨mode, _ | ⟨x, args⟩⟩ <;> rfl

theorem reads_addrInfoSet :
    Reads (atcmdSocketAddrInfoSet_ L) (NrcAtcmd.atcmdSocketAddrInfoSet_ L) := by
  intro e args s
  rcases args with _ | ⟨name, _ | ⟨port, _ | ⟨x, args⟩⟩⟩
  · rfl
  · rfl
  · rfl
  · simp [NrcAtcmd.atcmdSocketAddrInfoSet_, atcmdSocketAddrInfoSet_, invalid]

theorem reads_keepaliveSet :
    Reads (atcmdSocketTcpKeepaliveSet_ L) (NrcAtcmd.atcmdSocketTcpKeepaliveSet_ L) := by
  intro e args s
  rcases args with _ | ⟨id, _ | ⟨keepalive, _ | ⟨x, _ | ⟨y, _ | ⟨z, _ | ⟨w, args⟩⟩⟩⟩⟩⟩
  · rfl
  · rfl
  · rfl
  · rfl
  · rfl
  · -- the values are refused one after the other
    simp only [atcmdSocketTcpKeepaliveSet_, keepaliveAt, NrcAtcmd.atcmdSocketTcpKeepaliveSet_, on]
    rcases hx : keepaliveValue e.stale.erange x with _ | kx
    · simp [Argv.of, Argv.read, hx, invalid]
    rcases hy : keepaliveValue e.stale.erange y with _ | ky
    · simp [Argv.of, Argv.read, hy, invalid]
    rcases hz : keepaliveValue e.stale.erange z with _ | kz
    · simp [Argv.of, Argv.read, hz, invalid]
    · simp [Argv.of, Argv.read, hx, hy, hz]
  · rfl

theorem reads_nodelaySet :
    Reads (atcmdSocketTcpNodelaySet_ L) (NrcAtcmd.atcmdSocketTcpNodelaySet_ L) := by
  intro e args s
  rcases args with _ | ⟨id, _ | ⟨enable, _ | ⟨x, args⟩⟩⟩
  · rfl
  · rfl
  · rcases hk : clientOf (atoi id) s with _ | k
    · simp [atcmdSocketTcpNodelaySet_, NrcAtcmd.atcmdSocketTcpNodelaySet_, hk, invalid]
    · simp [atcmdSocketTcpNodelaySet_, hk, on]
  · rfl

/-- A socket that is not there or is not a UDP socket is refused. -/
theorem multicastSet_refused {id mode group : Bytes} {s : Sockets ν} (stale : Stale) (now : UInt32)
    (h : multicastSocket id s = false) :
    NrcAtcmd.atcmdSocketUdpMulticastSet_ L ⟨[id, mode, group], stale, now⟩ s = (.inval, s) := by
  unfold NrcAtcmd.atcmdSocketUdpMulticastSet_
  by_cases hid : atoi id < 0 ∨ (s.table.length : ℤ) ≤ atoi id
  · exact if_pos hid
  rw [multicastSocket, Bool.and_eq_false_iff, decide_eq_false_iff_not] at h
  replace h := h.resolve_left (by omega)
  simp only [if_neg hid]
  rcases hk : atcmdSocketSearchId_ (atoi id) s.table with _ | ⟨i, k⟩
  · rfl
  · have hp : k.protocol = .tcp := by simpa [hk] using h
    rcases multicastMode mode with _ | m
    · rfl
    · exact if_pos hp

/-- So is a mode that is none. -/
theorem multicastSet_mode {id mode group : Bytes} {s : Sockets ν} (stale : Stale) (now : UInt32)
    (h : multicastMode mode = none) :
    NrcAtcmd.atcmdSocketUdpMulticastSet_ L ⟨[id, mode, group], stale, now⟩ s = (.inval, s) := by
  simp only [NrcAtcmd.atcmdSocketUdpMulticastSet_, h]
  split_ifs
  · rfl
  · rcases atcmdSocketSearchId_ (atoi id) s.table <;> rfl

theorem reads_multicastSet :
    Reads (atcmdSocketUdpMulticastSet_ L) (NrcAtcmd.atcmdSocketUdpMulticastSet_ L) := by
  intro e args s
  rcases args with _ | ⟨id, _ | ⟨mode, _ | ⟨group, _ | ⟨x, args⟩⟩⟩⟩
  · rfl
  · rfl
  · rfl
  · rcases hs : multicastSocket id s with _ | _
    · rw [multicastSet_refused e.stale e.now hs]
      simp [atcmdSocketUdpMulticastSet_, hs, invalid]
    rcases hm : multicastMode mode with _ | m
    · rw [multicastSet_mode e.stale e.now hm]
      simp [atcmdSocketUdpMulticastSet_, hm, invalid]
    · simp [atcmdSocketUdpMulticastSet_, hs, hm, on]
  · rfl

theorem reads_timeoutGet :
    Reads (ν := ν) atcmdSocketTimeoutGet_ NrcAtcmd.atcmdSocketTimeoutGet_ := by
  intro e args s
  rcases args with _ | ⟨x, args⟩ <;> rfl

theorem reads_timeoutSet :
    Reads (ν := ν) atcmdSocketTimeoutSet_ NrcAtcmd.atcmdSocketTimeoutSet_ := by
  intro e args s
  rcases args with _ | ⟨cmd, _ | ⟨time, _ | ⟨x, args⟩⟩⟩ <;> rfl

/-- With an argument, in passive mode, the slot after it is read. -/
theorem recvGet_eq (e : Env) (args : List Bytes) (s : Sockets ν) :
    atcmdSocketRecvGet_ L e args.length (Argv.of args) s =
      if args.length = 1 ∧ s.recv.passive = true then none
      else some (NrcAtcmd.atcmdSocketRecvGet_ L ⟨args, e.stale, e.now⟩ s) := by
  unfold atcmdSocketRecvGet_ NrcAtcmd.atcmdSocketRecvGet_
  by_cases hp : s.recv.passive = false
  · simp [hp]
  rcases args with _ | ⟨id, _ | ⟨x, args⟩⟩
  · simp [hp, on]
  · simp [hp]
  · simp [hp, invalid]

/-! ## The table -/

/-- The handlers of a command read only the arguments that they have, and are those that
`SocketCommand` has for it. -/
structure Matches (i : ArgvInfo ν) (i' : Info ν) : Prop where
  cmd : i.cmd = i'.cmd
  run : Option.Rel Reads i.run i'.run
  get : i.cmd ≠ bytes "RECV" → Option.Rel Reads i.get i'.get
  set : Option.Rel Reads i.set i'.set

theorem info_matches : List.Forall₂ Matches (atcmdInfoSocket L) (NrcAtcmd.atcmdInfoSocket L) := by
  have hzero : ∀ {h : Handler ν},
      (∀ x args stale now s, h ⟨x :: args, stale, now⟩ s = (.inval, s)) →
      Option.Rel Reads (some (onlyZero h)) (some h) := fun h => .some (reads_onlyZero h)
  have hone : ∀ {h : Handler ν},
      (∀ x y args stale now s, h ⟨x :: y :: args, stale, now⟩ s = (.inval, s)) →
      Option.Rel Reads (some (zeroOne h)) (some h) := fun h => .some (reads_zeroOne h)
  refine .cons ⟨rfl, .none, fun _ => .none, .some reads_openSet⟩ ?_
  refine .cons ⟨rfl, .some reads_closeRun, fun _ => .none, hone fun _ _ _ _ _ _ => rfl⟩ ?_
  refine .cons ⟨rfl, .none, fun _ => hzero fun _ _ _ _ _ => rfl, .none⟩ ?_
  refine .cons ⟨rfl, .none, fun _ => .none, .some reads_sendSet⟩ ?_
  refine .cons ⟨rfl, .none, fun _ => hzero fun _ _ _ _ _ => rfl,
    hone fun _ _ _ _ _ _ => rfl⟩ ?_
  -- RECV
  refine .cons ⟨rfl, .none, fun h => absurd rfl h, .some reads_recvSet⟩ ?_
  refine .cons ⟨rfl, .none, fun _ => hzero fun _ _ _ _ _ => rfl, .some reads_recvModeSet⟩ ?_
  refine .cons ⟨rfl, .none, fun _ => hzero fun _ _ _ _ _ => rfl,
    hone fun _ _ _ _ _ _ => rfl⟩ ?_
  refine .cons ⟨rfl, .none, fun _ => hzero fun _ _ _ _ _ => rfl, .some reads_recvLogSet⟩ ?_
  refine .cons ⟨rfl, .none, fun _ => .none, .some reads_addrInfoSet⟩ ?_
  refine .cons ⟨rfl, .none, fun _ => hone fun _ _ _ _ _ _ => rfl, .some reads_keepaliveSet⟩ ?_
  refine .cons ⟨rfl, .none, fun _ => hone fun _ _ _ _ _ _ => rfl, .some reads_nodelaySet⟩ ?_
  refine .cons ⟨rfl, .none, fun _ => hzero fun _ _ _ _ _ => rfl, .some reads_multicastSet⟩ ?_
  exact .cons ⟨rfl, .none, fun _ => .some reads_timeoutGet, .some reads_timeoutSet⟩ .nil

/-- A command with `SRECV?` is handled by the handler that reads past its argument. -/
theorem recv_get {i : ArgvInfo ν} (hi : i ∈ atcmdInfoSocket L) (hcmd : i.cmd = bytes "RECV") :
    i.get = some (atcmdSocketRecvGet_ L) := by
  simp only [atcmdInfoSocket, List.mem_cons, List.not_mem_nil, or_false] at hi
  rcases hi with rfl | rfl | rfl | rfl | rfl | rfl | rfl | rfl | rfl | rfl | rfl | rfl | rfl | rfl
  case inr.inr.inr.inr.inr.inl => rfl
  all_goals
    simp only at hcmd
    exact absurd hcmd (by decide)

theorem Reads.isSome {f : ArgvHandler ν} {o : Option (ArgvHandler ν)} {o' : Option (Handler ν)}
    (hf : o = some f) (h : Option.Rel Reads o o') (e : Env) (args : List Bytes) (s : Sockets ν) :
    (f e args.length (Argv.of args) s).isSome = true := by
  subst hf
  cases h with
  | some h => rw [h e args s, Option.isSome_some]

/-- A handler of the table comes to an end, unless it is `_atcmd_socket_recv_get` with an argument
in passive mode. -/
theorem handler_isSome {i : ArgvInfo ν} (hi : i ∈ atcmdInfoSocket L) {type : AtcmdHandler}
    {f : ArgvHandler ν} (hf : i.handler type = some f) (e : Env) (args : List Bytes)
    (s : Sockets ν) :
    (f e args.length (Argv.of args) s).isSome = true ↔ ¬ RecvGetParam i.cmd type args s := by
  obtain ⟨i', hm⟩ : ∃ i', Matches i i' := by
    obtain ⟨n, hn, rfl⟩ := List.getElem_of_mem hi
    obtain ⟨hlen, hget⟩ := List.forall₂_iff_get.1 (info_matches (L := L))
    exact ⟨_, hget n hn (hlen ▸ hn)⟩
  by_cases hrecv : i.cmd = bytes "RECV" ∧ type = .get
  · obtain ⟨hcmd, rfl⟩ := hrecv
    obtain rfl := Option.some.inj (hf.symm.trans (recv_get hi hcmd))
    rw [recvGet_eq]
    simp [RecvGetParam, hcmd]
  · refine iff_of_true ?_ fun h => hrecv ⟨h.1, h.2.1⟩
    cases type with
    | run => exact Reads.isSome hf hm.run e args s
    | get => exact Reads.isSome hf (hm.get fun hcmd => hrecv ⟨hcmd, rfl⟩) e args s
    | set => exact Reads.isSome hf hm.set e args s

/-- For every line that is given to a handler of the socket group: the handler reads only the
arguments of the line, in every state, exactly if the line is no `AT+SRECV?` with an argument in
passive mode. -/
theorem argv_read_iff (L : Lwip ν) {line : Bytes} {i : ArgvInfo ν} {type : AtcmdHandler}
    {args : List Bytes} (hline : called L line = some (i, type, args)) {f : ArgvHandler ν}
    (hf : i.handler type = some f) (e : Env) (s : Sockets ν) :
    (f e args.length (Argv.of args) s).isSome = true ↔ ¬ RecvGetParam i.cmd type args s := by
  unfold called at hline
  split at hline
  · obtain ⟨i', hfind, heq⟩ := Option.map_eq_some_iff.1 hline
    cases heq
    exact handler_isSome (List.mem_of_find?_eq_some hfind) hf e args s
  · cases hline

/-- Where nothing is stale. -/
def noEnv : Env := ⟨⟨[], 0, [], false⟩, 0⟩

/-- `AT+SCLOSE=0`. -/
theorem argv_read_iff_close :
    (atcmdSocketCloseSet_ queueLwip noEnv 1 (.of [bytes "0"]) (passiveUdp [])).isSome = true :=
  have hline : called queueLwip (bytes "SCLOSE=0\n") =
      some (⟨bytes "CLOSE", some (atcmdSocketCloseRun_ queueLwip), none,
        some (atcmdSocketCloseSet_ queueLwip)⟩, .set, [bytes "0"]) := rfl
  (argv_read_iff queueLwip hline rfl noEnv (passiveUdp [])).2 fun h => absurd h.2.1 (by decide)

/-- `AT+SRECV?=0` in passive mode reads a slot that nothing was stored in. -/
theorem argv_read_past : ¬ ∀ i type args f,
    called queueLwip (bytes "SRECV?=0\n") = some (i, type, args) → i.handler type = some f →
      ∀ e s, (f e args.length (Argv.of args) s).isSome = true := by
  intro h
  exact absurd (h _ _ _ _ rfl rfl noEnv (passiveUdp [])) (by decide)

end NrcAtcmd.SocketArgv
