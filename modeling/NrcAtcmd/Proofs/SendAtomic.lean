import NrcAtcmd.Proofs.DataBuffer

/-!
# A refused send

`_atcmd_socket_send_set` writes the remote address into the socket before it checks the length, the
event and the data mode, and it does not look at what `ipaddr_aton` returns. So a command may be
refused and leave another remote address behind, and one that is not refused may store the address
that was on the stack.
-/

namespace NrcAtcmd

variable {ν : Type*}

/-- The remote address and port that the parameters of `AT+SSEND` give. -/
def sendRemoteArg : List Bytes → Option (Bytes × Bytes)
  | [_, ip, port] | [_, ip, port, _] | [_, ip, port, _, _] =>
    (atcmdParamToStr ip 16).map (·, port)
  | _ => none

/-- The parameters of `AT+SSEND` that are left after the remote address. -/
def SendArgs.rest (argv : List Bytes) (p : SendArgs) : SendArgs :=
  if argv.length = 3 ∧ (sendRemoteArg argv).isSome = true
  then { p with len := none, doneEvent := none }
  else p

/-- The text of an address has 7 to 15 bytes, and its port is one. -/
def ValidRemote (str port : Bytes) : Prop :=
  7 ≤ str.length ∧ str.length ≤ 15 ∧ atcmdSocketValidPort_ (atoi port) = true

/-- What `AT+SSEND` is refused for after the remote address. -/
def Refuses (p : SendArgs) (s : Sockets ν) : Prop :=
  (atcmdDataLenMax : ℤ) < absInt ((p.len.map atoi).getD 0)
    ∨ atcmdSocketSendDoneEvent p s = none
    ∨ ((p.len.map atoi).getD 0 ≤ 0 ∧ s.passthroughSupport = false)
    ∨ s.mode.enable = true

/-- The socket with the remote address and port of a command. -/
def AtcmdSocket.withRemote (addr : Addr) (port : Bytes) (k : AtcmdSocket) : AtcmdSocket :=
  { k with remoteAddr := addr, remotePort := (atoi port).toNat }

/-- `AT+SSEND` that fails changes neither the table nor the data mode, and one that does not stores
the address its parameter denotes. -/
def SendAtomic (L : Lwip ν) (a : Args) (s : Sockets ν) : Prop :=
  ((atcmdSocketSendSet_ L a s).1 ≠ .success →
    (atcmdSocketSendSet_ L a s).2.table = s.table ∧ (atcmdSocketSendSet_ L a s).2.mode = s.mode)
  ∧ ((atcmdSocketSendSet_ L a s).1 = .success →
    ∀ str port, sendRemoteArg a.argv = some (str, port) → ∃ addr, L.ipaddrAton str = some addr
      ∧ ∃ p i k, sendArgs a.argv = some p ∧ atcmdSocketSearchId_ (atoi p.id) s.table = some (i, k)
        ∧ (atcmdSocketSendSet_ L a s).2.table = s.table.set i (some (k.withRemote addr port)))

/-- Where a remote address is stored, the parameters after it are not refused and it denotes an
address, or they are refused and what is stored is what the socket had. -/
def RemoteHeld (L : Lwip ν) (a : Args) (s : Sockets ν) : Prop :=
  ∀ p str port i k, sendArgs a.argv = some p → sendRemoteArg a.argv = some (str, port) →
    atcmdSocketSearchId_ (atoi p.id) s.table = some (i, k) → ValidRemote str port →
    (¬ Refuses (p.rest a.argv) s ∧ (L.ipaddrAton str).isSome = true)
    ∨ (Refuses (p.rest a.argv) s ∧ (L.ipaddrAton str).getD a.stale.addr = k.remoteAddr
        ∧ (atoi port).toNat = k.remotePort)

theorem AtcmdSocket.withRemote_eq {k : AtcmdSocket} {addr : Addr} {port : Bytes} :
    k.withRemote addr port = k ↔ addr = k.remoteAddr ∧ (atoi port).toNat = k.remotePort := by
  constructor
  · intro h
    rw [← h]
    exact ⟨rfl, rfl⟩
  · rintro ⟨rfl, hp⟩
    unfold AtcmdSocket.withRemote
    rw [hp]

theorem set_eq_self_iff {t : List (Option AtcmdSocket)} {i : ℕ} {k : AtcmdSocket}
    (h : t[i]? = some (some k)) (k' : AtcmdSocket) : t.set i (some k') = t ↔ k' = k := by
  obtain ⟨hi, hk⟩ := List.getElem?_eq_some_iff.1 h
  constructor
  · intro heq
    have := congrArg (·[i]?) heq
    simp only [List.getElem?_set_self hi, h, Option.some.injEq] at this
    exact this
  · rintro rfl
    rw [← hk, List.set_getElem_self]

/-- What is left of the command after the remote address depends on neither the table nor the
remote address. -/
theorem refuses_set {p : SendArgs} {s : Sockets ν} {i : ℕ} {k : AtcmdSocket} :
    Refuses p (s.set i k) ↔ Refuses p s := Iff.rfl

theorem sendMode_refused {p : SendArgs} {s : Sockets ν} (id : ℕ) (h : Refuses p s) :
    (atcmdSocketSendMode p id s).1 ≠ .success ∧ (atcmdSocketSendMode p id s).2 = s := by
  unfold atcmdSocketSendMode
  unfold Refuses at h
  generalize (p.len.map atoi).getD 0 = len at h ⊢
  simp only
  by_cases hlen : (atcmdDataLenMax : ℤ) < absInt len
  · rw [if_pos hlen]
    exact ⟨by simp, rfl⟩
  rw [if_neg hlen]
  rcases hdone : atcmdSocketSendDoneEvent p s with _ | done
  · exact ⟨by simp, rfl⟩
  simp only
  by_cases hsupp : len ≤ 0 ∧ s.passthroughSupport = false
  · rw [if_pos hsupp]
    exact ⟨by simp, rfl⟩
  rw [if_neg hsupp]
  have hen : s.mode.enable = true := by
    rcases h with h | h | h | h
    · exact absurd h hlen
    · rw [hdone] at h
      cases h
    · exact absurd h hsupp
    · exact h
  unfold atcmdDataModeEnable
  rw [if_pos hen]
  exact ⟨by simp, rfl⟩

theorem sendMode_accepted {p : SendArgs} {s : Sockets ν} (id : ℕ) (h : ¬ Refuses p s) :
    (atcmdSocketSendMode p id s).1 = .success
      ∧ (atcmdSocketSendMode p id s).2.table = s.table := by
  unfold Refuses at h
  simp only [not_or] at h
  obtain ⟨hlen, hdone, hsupp, hen⟩ := h
  obtain ⟨done, hdone⟩ := Option.ne_none_iff_exists'.1 hdone
  unfold atcmdSocketSendMode atcmdDataModeEnable
  simp only [hdone, if_neg hlen, if_neg hsupp, if_neg hen]
  exact ⟨trivial, trivial⟩

theorem sendRemote_none {L : Lwip ν} {a : Args} {p : SendArgs} {i : ℕ} {k : AtcmdSocket}
    {s : Sockets ν} (hp : sendArgs a.argv = some p) (h : sendRemoteArg a.argv = none) :
    atcmdSocketSendRemote L a p i k s = (.ok p, s)
      ∨ atcmdSocketSendRemote L a p i k s = (.error .inval, s) := by
  obtain ⟨argv, stale, now⟩ := a
  unfold sendArgs at hp
  unfold sendRemoteArg at h
  unfold atcmdSocketSendRemote
  simp only at hp h ⊢
  split at hp
  all_goals cases hp
  · exact .inl rfl
  · exact .inl rfl
  all_goals
    simp only [Option.map_eq_none_iff] at h
    simp [h]

theorem sendRemote_some {L : Lwip ν} {a : Args} {p : SendArgs} {str port : Bytes} {i : ℕ}
    {k : AtcmdSocket} {s : Sockets ν} (hp : sendArgs a.argv = some p)
    (h : sendRemoteArg a.argv = some (str, port)) :
    (ValidRemote str port → atcmdSocketSendRemote L a p i k s = (.ok (p.rest a.argv),
      s.set i (k.withRemote ((L.ipaddrAton str).getD a.stale.addr) port)))
    ∧ (¬ ValidRemote str port →
      atcmdSocketSendRemote L a p i k s = (.error .inval, s)) := by
  have hr : ∃ ip, p.remote = some (ip, port) ∧ atcmdParamToStr ip 16 = some str := by
    obtain ⟨argv, stale, now⟩ := a
    unfold sendArgs at hp
    unfold sendRemoteArg at h
    simp only at hp h
    split at hp
    all_goals cases hp
    · cases h
    · cases h
    all_goals
      simp only [Option.map_eq_some_iff, Prod.mk.injEq] at h
      obtain ⟨_, hip, rfl, rfl⟩ := h
      exact ⟨_, rfl, hip⟩
  obtain ⟨ip, hr, hip⟩ := hr
  have hrest : p.rest a.argv
      = if a.argv.length = 3 then { p with len := none, doneEvent := none } else p := by
    unfold SendArgs.rest
    simp [h]
  unfold atcmdSocketSendRemote
  rw [hrest, hr]
  simp only [hip]
  constructor
  · rintro ⟨h7, h15, hport⟩
    rw [if_neg (by omega), if_neg (by simp [hport])]
    rfl
  · intro hv
    by_cases hlen : str.length < 7 ∨ 15 < str.length
    · rw [if_pos hlen]
    · rw [if_neg hlen, if_pos]
      rw [Bool.not_eq_true', ← Bool.not_eq_true]
      exact fun hport => hv ⟨by omega, by omega, hport⟩

/-- The parameters name a remote address only if they are the ones of a send. -/
theorem sendArgs_of_remote {argv : List Bytes} {r : Bytes × Bytes}
    (h : sendRemoteArg argv = some r) : ∃ p, sendArgs argv = some p := by
  unfold sendRemoteArg at h
  split at h
  · exact ⟨_, rfl⟩
  · exact ⟨_, rfl⟩
  · exact ⟨_, rfl⟩
  · cases h

theorem sendSet_some {L : Lwip ν} {a : Args} {s : Sockets ν} {p : SendArgs}
    (hp : sendArgs a.argv = some p) : atcmdSocketSendSet_ L a s =
      match atcmdSocketSearchId_ (atoi p.id) s.table with
      | none => (.inval, s)
      | some (i, k) =>
        match atcmdSocketSendRemote L a p i k s with
        | (.error e, s) => (e, s)
        | (.ok p, s) => atcmdSocketSendMode p k.id s := by
  unfold atcmdSocketSendSet_
  rw [hp]
  split
  · rename_i hargv
    rw [hargv] at hp
    cases hp
  · rename_i h _
    cases h
  · rename_i h _
    cases h
    rfl

theorem sendSet_none {L : Lwip ν} {a : Args} {s : Sockets ν} (h : sendRemoteArg a.argv = none)
    (he : (atcmdSocketSendSet_ L a s).1 ≠ .success) : (atcmdSocketSendSet_ L a s).2 = s := by
  rcases hp : sendArgs a.argv with _ | p
  · unfold atcmdSocketSendSet_ at he ⊢
    rw [hp] at he ⊢
    split at he
    · exact absurd rfl he
    · rfl
    · rename_i h _
      cases h
  rw [sendSet_some hp] at he ⊢
  rcases hk : atcmdSocketSearchId_ (atoi p.id) s.table with _ | ⟨i, k⟩
  · rfl
  rw [hk] at he
  simp only at he ⊢
  rcases sendRemote_none (L := L) (i := i) (k := k) (s := s) hp h with hr | hr
  · rw [hr] at he ⊢
    by_cases href : Refuses p s
    · exact (sendMode_refused k.id href).2
    · exact absurd (sendMode_accepted k.id href).1 he
  · rw [hr]

/-- `AT+SSEND` is atomic exactly if what it stores is held. -/
theorem send_atomic_iff (L : Lwip ν) (a : Args) (s : Sockets ν) :
    SendAtomic L a s ↔ RemoteHeld L a s := by
  rcases harg : sendRemoteArg a.argv with _ | ⟨str, port⟩
  · constructor
    · intro _ p str port i k _ h
      rw [harg] at h
      cases h
    · intro _
      refine ⟨fun he => ?_, fun _ str port h => ?_⟩
      · rw [sendSet_none harg he]
        exact ⟨rfl, rfl⟩
      · rw [harg] at h
        cases h
  obtain ⟨p, hp⟩ := sendArgs_of_remote harg
  have hset := sendSet_some (L := L) (s := s) hp
  rcases hk : atcmdSocketSearchId_ (atoi p.id) s.table with _ | ⟨i, k⟩
  · rw [hk] at hset
    constructor
    · intro _ p' str' port' i k hp' _ hk'
      rw [Option.some.inj (hp.symm.trans hp'), hk'] at hk
      cases hk
    · intro _
      unfold SendAtomic
      rw [hset]
      exact ⟨fun _ => ⟨rfl, rfl⟩, fun h => by cases h⟩
  rw [hk] at hset
  simp only at hset
  -- one remote address, one socket: what is left is whether it is stored and what follows
  have hheld : RemoteHeld L a s ↔ (ValidRemote str port →
      (¬ Refuses (p.rest a.argv) s ∧ (L.ipaddrAton str).isSome = true)
      ∨ (Refuses (p.rest a.argv) s
        ∧ k.withRemote ((L.ipaddrAton str).getD a.stale.addr) port = k)) := by
    rw [AtcmdSocket.withRemote_eq]
    constructor
    · exact fun h hv => h p str port i k hp harg hk hv
    · rintro h p' str' port' i' k' hp' harg' hk' hv
      cases hp.symm.trans hp'
      cases harg.symm.trans harg'
      cases hk.symm.trans hk'
      exact h hv
  rw [hheld]
  obtain ⟨hvalid, hinvalid⟩ := sendRemote_some (L := L) (i := i) (k := k) (s := s) hp harg
  unfold SendAtomic
  by_cases hv : ValidRemote str port
  · rw [hset, hvalid hv]
    simp only
    by_cases href : Refuses (p.rest a.argv) s
    · obtain ⟨he, heq⟩ := sendMode_refused k.id (refuses_set.2 href)
      rw [heq]
      have hself := set_eq_self_iff (searchId_getElem hk)
        (k.withRemote ((L.ipaddrAton str).getD a.stale.addr) port)
      constructor
      · rintro ⟨h, -⟩ _
        exact .inr ⟨href, hself.1 (h he).1⟩
      · intro h
        rcases h hv with ⟨hn, -⟩ | ⟨-, hsame⟩
        · exact absurd href hn
        · exact ⟨fun _ => ⟨hself.2 hsame, rfl⟩, fun hok => absurd hok he⟩
    · obtain ⟨hok, htable⟩ := sendMode_accepted k.id (mt refuses_set.1 href)
      rw [hok, htable]
      constructor
      · rintro ⟨-, h⟩ _
        obtain ⟨addr, haddr, -⟩ := h rfl str port harg
        exact .inl ⟨href, by rw [haddr]; rfl⟩
      · intro h
        rcases h hv with ⟨-, hs⟩ | ⟨hr, -⟩
        · obtain ⟨addr, haddr⟩ := Option.isSome_iff_exists.1 hs
          refine ⟨fun hne => absurd rfl hne, fun _ str' port' h' => ?_⟩
          cases harg.symm.trans h'
          refine ⟨addr, haddr, p, i, k, hp, hk, ?_⟩
          rw [haddr]
          rfl
        · exact absurd hr href
  · rw [hset, hinvalid hv]
    exact ⟨fun _ h => absurd h hv, fun _ => ⟨fun _ => ⟨rfl, rfl⟩, fun h => by cases h⟩⟩

/-- `queueLwip` with one address that has a text. -/
def oneAddress (str : Bytes) (addr : Addr) : Lwip QueueStack :=
  { queueLwip with ipaddrAton := fun t => if t = str then some addr else none }

/-- `AT+SSEND` with an address and a length that is too long: the socket has the address then. -/
theorem send_atomic_too_long :
    let L := oneAddress (bytes "10.0.0.1") 1
    let a := argsOf [bytes "0", bytes "\"10.0.0.1\"", bytes "5000", bytes "9999"]
    (atcmdSocketSendSet_ L a (passiveUdp [])).1 = .inval
      ∧ (atcmdSocketSendSet_ L a (passiveUdp [])).2.table ≠ (passiveUdp []).table
      ∧ ¬ SendAtomic L a (passiveUdp []) := by
  intro L a
  have he : (atcmdSocketSendSet_ L a (passiveUdp [])).1 = .inval := by decide +kernel
  have ht : (atcmdSocketSendSet_ L a (passiveUdp [])).2.table ≠ (passiveUdp []).table := by
    decide +kernel
  refine ⟨he, ht, fun h => ht (h.1 ?_).1⟩
  rw [he]
  simp

end NrcAtcmd
