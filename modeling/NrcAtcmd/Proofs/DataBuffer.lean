import NrcAtcmd.FirmwareDownload
import NrcAtcmd.Proofs.DataMode
import NrcAtcmd.Proofs.SocketCommand

/-!
# The buffer of the data mode

`atcmd_receive_data` copies what it holds back into a buffer of `ATCMD_DATA_LEN_MAX` bytes and never
checks a copy: the length that enabled the data mode has to be one the buffer has room for. A copy
outside of it makes the buffer longer here (`Memory.length_memcpy_iff`).

`AT+FWBINDL` checks its length. `AT+SSEND` checks `abs` of its length, which is negative for the
least `int`, and then waits for `2 ^ 31` bytes.
-/

namespace NrcAtcmd

open Machine

variable {ε ν : Type*}

/-- A command that may enable the data mode, with what its handler reads. -/
inductive DataCommand (ν : Type*) where
  | ssend (a : Args) (s : Sockets ν)
  | fwbindl (argv : List Bytes) (timeout : UInt32) (u : FirmwareUpdate)

/-- The length that the parameters of `AT+SSEND` ask for. -/
def sendLength : List Bytes → ℤ
  | [_, len] | [_, _, _, len] | [_, _, _, len, _] => atoi len
  | [_, ip, _] => if (atcmdParamToStr ip 16).isSome then 0 else atoi ip
  | _ => 0

namespace DataCommand

/-- The data mode that a command enables. -/
def enable (L : Lwip ν) (m : DataMode) : DataCommand ν → Option DataMode
  | ssend a s =>
    match atcmdSocketSendSet_ L a { s with mode := m } with
    | (.success, s) => if !m.enable && s.mode.enable then some s.mode else none
    | _ => none
  | fwbindl argv timeout u =>
    match atcmdBasicFirmwareDownloadSet_ timeout u argv with
    | .ok (some p) => atcmdDataModeEnable p m
    | _ => none

/-- The session after a command that enabled the data mode, with its `OK` sent. -/
def start (L : Lwip ν) (now : UInt32) (rx : Receiver ε) (c : DataCommand ν) :
    Option (Session ε) :=
  (c.enable L rx.mode).map fun m =>
    { rx := atcmdTransmitOk now { rx with mode := m, out := [] }, rest := [] }

/-- The length is the least `int`. -/
def Least : DataCommand ν → Prop
  | ssend a _ => sendLength a.argv = -2147483648
  | fwbindl .. => False

end DataCommand

/-- The data that is waited for has room in the buffer, and no copy left it. -/
def InBuffer (rx : Receiver ε) : Prop :=
  rx.buf.length = atcmdDataLenMax
    ∧ (rx.mode.enable = true → rx.mode.sendLen ≤ atcmdDataLenMax ∧ rx.mode.cnt ≤ rx.mode.sendLen)

/-- The calls of `atcmd_receive` bring chunks of at most `ATCMD_DATA_LEN_MAX` bytes. -/
def Chunked (is : List Input) : Prop := ∀ buf, .receive buf ∈ is → buf.length ≤ atcmdDataLenMax

theorem absInt_le {n : ℤ} (hn : n ≠ -2147483648) (h : absInt n ≤ atcmdDataLenMax) :
    (absInt n % 2 ^ 32).toNat = n.natAbs ∧ n.natAbs ≤ atcmdDataLenMax := by
  unfold absInt atcmdDataLenMax at *
  rw [if_neg hn] at h ⊢
  omega

/-- A success of `atcmdSocketSendMode` enabled the data mode for the length given. -/
theorem sendMode_success {p : SendArgs} {id : ℕ} {s s' : Sockets ν}
    (h : atcmdSocketSendMode p id s = (.success, s')) : ∃ q : DataModeParams,
      atcmdDataModeEnable q s.mode = some s'.mode
      ∧ absInt ((p.len.map atoi).getD 0) ≤ atcmdDataLenMax
      ∧ q.len = (absInt ((p.len.map atoi).getD 0) % 2 ^ 32).toNat
      ∧ q.passthrough = decide ((p.len.map atoi).getD 0 ≤ 0) := by
  unfold atcmdSocketSendMode at h
  generalize (p.len.map atoi).getD 0 = len at h ⊢
  simp only at h
  by_cases hlen : (atcmdDataLenMax : ℤ) < absInt len
  · rw [if_pos hlen] at h
    cases h
  rw [if_neg hlen] at h
  rcases hdone : atcmdSocketSendDoneEvent p s with _ | done
  · rw [hdone] at h
    cases h
  rw [hdone] at h
  simp only at h
  by_cases hsupp : len ≤ 0 ∧ s.passthroughSupport = false
  · rw [if_pos hsupp] at h
    cases h
  rw [if_neg hsupp] at h
  split at h
  · cases h
  · rename_i mode hmode
    cases h
    exact ⟨_, hmode, not_lt.1 hlen, rfl, rfl⟩

/-- With three parameters of which the second is a string there is no length. -/
theorem sendRemote_ok {L : Lwip ν} {a : Args} {p p' : SendArgs} {i : ℕ} {k : AtcmdSocket}
    {s s' : Sockets ν} (h : atcmdSocketSendRemote L a p i k s = (.ok p', s')) :
    s'.mode = s.mode ∧ p'.len = if a.argv.length = 3
      ∧ (p.remote.bind fun r => atcmdParamToStr r.1 16).isSome = true then none else p.len := by
  unfold atcmdSocketSendRemote at h
  rcases hr : p.remote with _ | ⟨ip, port⟩
  · rw [hr] at h
    cases h
    exact ⟨rfl, by simp⟩
  rw [hr] at h
  simp only at h
  rcases hip : atcmdParamToStr ip 16 with _ | str
  · rw [hip] at h
    simp only at h
    split_ifs at h
    · cases h
    · cases h
      exact ⟨rfl, by simp [hip]⟩
  · rw [hip] at h
    simp only at h
    by_cases h3 : a.argv.length = 3
    · split_ifs at h
      · cases h
      · cases h
      · cases h
        exact ⟨rfl, by simp [hip, h3]⟩
    · rw [if_neg h3] at h
      split_ifs at h
      · cases h
      · cases h
      · cases h
        exact ⟨rfl, by simp [hip, h3]⟩

/-- An error over the remote address leaves everything as it was. -/
theorem sendRemote_error {L : Lwip ν} {a : Args} {p : SendArgs} {i : ℕ} {k : AtcmdSocket}
    {s s' : Sockets ν} {e : AtcmdError}
    (h : atcmdSocketSendRemote L a p i k s = (.error e, s')) : e = .inval ∧ s' = s := by
  unfold atcmdSocketSendRemote at h
  repeat' split at h
  all_goals
    cases h
    try exact ⟨rfl, rfl⟩

theorem sendRemote_len {L : Lwip ν} {a : Args} {p p' : SendArgs} {i : ℕ} {k : AtcmdSocket}
    {s s' : Sockets ν} (hp : sendArgs a.argv = some p)
    (h : atcmdSocketSendRemote L a p i k s = (.ok p', s')) :
    (p'.len.map atoi).getD 0 = sendLength a.argv := by
  rw [(sendRemote_ok h).2]
  obtain ⟨argv, stale, now⟩ := a
  unfold sendArgs at hp
  unfold sendLength
  simp only at hp ⊢
  split at hp
  all_goals cases hp
  · rfl
  · rfl
  · rename_i ip _
    by_cases hip : (atcmdParamToStr ip 16).isSome = true <;> simp [hip]
  · rfl
  · rfl

namespace DataCommand

/-- What a command asks for when it enables the data mode. -/
theorem enable_params {L : Lwip ν} {m m' : DataMode} {c : DataCommand ν}
    (h : c.enable L m = some m') : ∃ p : DataModeParams, atcmdDataModeEnable p m = some m'
      ∧ (c.Least → p.len = 2 ^ 31) ∧ (¬ c.Least → p.Sized) := by
  cases c with
  | ssend a s =>
    unfold enable at h
    simp only at h
    rcases hset : atcmdSocketSendSet_ L a { s with mode := m } with ⟨ret, s'⟩
    rw [hset] at h
    obtain rfl : ret = .success := by
      by_contra hret
      cases ret <;> first | cases h | exact hret rfl
    simp only [Option.ite_none_right_eq_some, Bool.and_eq_true, Bool.not_eq_true',
      Option.some.injEq] at h
    obtain ⟨⟨hm, hen⟩, rfl⟩ := h
    unfold atcmdSocketSendSet_ at hset
    split at hset
    · cases hset
      exact absurd (hm.symm.trans hen) (by decide)
    · cases hset
    · rename_i p hp _
      split at hset
      · cases hset
      rename_i i k hsearch
      split at hset
      · rename_i e s₁ hremote
        obtain ⟨rfl, -⟩ := sendRemote_error hremote
        cases hset
      · rename_i p' s₁ hremote
        have hlen := sendRemote_len hp hremote
        have hmode : s₁.mode = m := (sendRemote_ok hremote).1
        obtain ⟨q, henable, habs, hq, hpass⟩ := sendMode_success hset
        rw [hlen] at habs hq hpass
        rw [hmode] at henable
        refine ⟨q, henable, fun hleast => ?_, fun hleast => ?_⟩
        · rw [hq, show sendLength a.argv = -2147483648 from hleast]
          rfl
        · obtain ⟨habs, hle⟩ := absInt_le hleast habs
          rw [habs] at hq
          refine ⟨by rw [hq]; exact hle, fun hp => ?_⟩
          rw [hpass, decide_eq_false_iff_not] at hp
          omega
  | fwbindl argv timeout u =>
    unfold enable at h
    simp only at h
    split at h
    · rename_i p hp
      refine ⟨p, h, fun hf => absurd hf id, fun _ => ?_⟩
      unfold atcmdBasicFirmwareDownloadSet_ at hp
      split at hp
      · cases hp
      · split at hp
        · rename_i offset length _ _
          by_cases hlen : length = 0 ∨ atcmdDataLenMax < length.toNat
          · rw [if_pos hlen] at hp
            cases hp
          rw [if_neg hlen] at hp
          split_ifs at hp
          all_goals
            cases hp
          all_goals
            rw [not_or, not_lt] at hlen
            refine ⟨hlen.2, fun _ => Nat.pos_of_ne_zero fun h0 => hlen.1 ?_⟩
            exact UInt32.toNat_inj.1 h0
        · cases hp
      · cases hp
    · cases h

end DataCommand

theorem Quiet.inBuffer {rx : Receiver ε} (h : Quiet rx) (hsize : rx.buf.length = atcmdDataLenMax) :
    InBuffer rx :=
  ⟨hsize, fun hen => by rw [h.enable] at hen; cases hen⟩

theorem Live.inBuffer {p : DataModeParams} {taken : Bytes} {n : ℕ} {rx : Receiver ε}
    (h : Live p taken n rx) (hmax : p.len ≤ atcmdDataLenMax)
    (hsize : rx.buf.length = atcmdDataLenMax) : InBuffer rx := by
  refine ⟨hsize, fun _ => ?_⟩
  rw [h.sendLen]
  refine ⟨hmax, ?_⟩
  rcases h.room with hlt | ⟨-, -, h0⟩ <;> omega

/-- After a command that enabled the data mode every count stays within what the buffer has room
for, and every copy within the buffer, exactly if its length is not the least `int`. -/
theorem data_buffer_iff {L : Lwip ν} {S : Sink ε} {rx : Receiver ε} {c : DataCommand ν}
    {now : UInt32} {s : Session ε} (hrx : Ready S rx) (hs : c.start L now rx = some s) :
    (∀ is s', Chunked is → run (sessionStep S) s is = some s' → InBuffer s'.rx) ↔ ¬ c.Least := by
  obtain ⟨m, hm, hstart⟩ := Option.map_eq_some_iff.1 hs
  obtain ⟨p, henable, hleast, hsized⟩ := DataCommand.enable_params hm
  have hsession : sessionStart p now rx = some s := by
    rw [sessionStart, henable, Option.map_some, hstart]
  constructor
  · intro h hl
    have h0 := (h [] s (fun _ hb => absurd hb List.not_mem_nil) rfl).2
    rw [(sessionStart_eq_some hsession).2] at h0
    have hle : p.len ≤ atcmdDataLenMax := (h0 rfl).1
    rw [hleast hl] at hle
    exact absurd hle (by decide)
  · intro hl is s' _ hr
    have hsize := Session.size_sized hrx.quiet hrx.size (hsized hl) hsession hr
    rcases Progress.run hrx.quiet (hsized hl).posed hsession hr with ⟨_, _, h | h⟩ | ⟨_, _, h⟩
    · exact h.inBuffer (hsized hl).1 hsize
    · exact h.toQuiet.inBuffer hsize
    · exact h.toQuiet.inBuffer hsize

/-- `AT+SSEND=0` with a length, on a UDP socket. -/
def ssendCommand (len : String) : DataCommand QueueStack :=
  .ssend (argsOf [bytes "0", bytes len]) (passiveUdp [])

theorem data_buffer_iff_three : ∃ s,
    (ssendCommand "-3").start queueLwip 1 (.boot ()) = some s
      ∧ ∀ is s', Chunked is → run (sessionStep takeAll) s is = some s' → InBuffer s'.rx := by
  obtain ⟨s, hs⟩ := Option.isSome_iff_exists.1 (show
    ((ssendCommand "-3").start queueLwip 1 (.boot ())).isSome = true by decide +kernel)
  exact ⟨s, hs, (data_buffer_iff (.boot ()) hs).2 (show ¬ (_ : ℤ) = _ by decide +kernel)⟩

/-- With the least length the byte after the first chunk is copied behind the buffer. -/
theorem data_buffer_least : ∃ s s',
    (ssendCommand "-2147483648").start queueLwip 1 (.boot ()) = some s
      ∧ Chunked [.receive (List.replicate 4096 0), .turn 2, .receive [0], .turn 3]
      ∧ run (sessionStep takeAll) s
        [.receive (List.replicate 4096 0), .turn 2, .receive [0], .turn 3] = some s'
      ∧ s'.rx.buf.length = 4097 ∧ ¬ InBuffer s'.rx := by
  obtain ⟨s, hs, hrun⟩ := Option.bind_eq_some_iff.1 (show
    ((ssendCommand "-2147483648").start queueLwip 1 (.boot ())).bind (fun s =>
      (run (sessionStep takeAll) s
        [.receive (List.replicate 4096 0), .turn 2, .receive [0], .turn 3]).map fun s' =>
          s'.rx.buf.length) = some 4097 by decide +kernel)
  obtain ⟨s', hr, hlen⟩ := Option.map_eq_some_iff.1 hrun
  refine ⟨s, s', hs, ?_, hr, hlen, fun h => ?_⟩
  · rintro buf hbuf
    simp only [List.mem_cons, Input.receive.injEq, reduceCtorEq, List.not_mem_nil, or_false,
      false_or] at hbuf
    rcases hbuf with rfl | rfl
    · exact (List.length_replicate).le
    · exact Nat.succ_le_of_lt (by decide)
  · have := h.1
    rw [hlen] at this
    exact absurd this (by decide)

end NrcAtcmd
