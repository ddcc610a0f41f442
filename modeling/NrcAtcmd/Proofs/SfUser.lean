import NrcAtcmd.Lib.Tiles
import NrcAtcmd.Proofs.DataBuffer
import NrcAtcmd.Proofs.MsgPrint
import NrcAtcmd.SfUser

/-!
# The bounds of the user areas

`AT+SFUSER` reads, writes and erases within the area and within what the command asks for, and its
loop erases exactly that. `AT+SFSYSUSER` has no such read: it reads all of its area, and sends what
was asked for.
-/

namespace NrcAtcmd

open Machine Tiles

variable {A : SfApi}

namespace SfApi

/-- What `api_system.h` documents: a read that succeeds fills `size` bytes, user factory data fits
into the length given for it, and its area is a part of the flash. -/
structure Documented (A : SfApi) : Prop where
  read : ∀ flash offset size data, A.nrcReadUserData flash offset size = some data →
    data.length = size.toNat
  factory : ∀ flash bufLen data, A.nrcGetUserFactory flash bufLen = some data →
    data.length ≤ bufLen.toNat
  info : A.nrcGetUserFactoryInfo.toNat < 2 ^ 31

/-- The range of an access. -/
def range (A : SfApi) : FlashOp → ℕ × ℕ
  | .readUserData offset size => (offset.toNat, size.toNat)
  | .writeUserData offset data => (offset.toNat, data.length)
  | .eraseUserDataArea => (0, A.nrcGetUserDataAreaSize.toNat)
  | .getUserFactory _ => (0, A.nrcGetUserFactoryInfo.toNat)

end SfApi

namespace SfCommand

/-- The size of the area of a command. -/
def areaSize (A : SfApi) : SfCommand → ℕ
  | sfuser _ => A.nrcGetUserDataAreaSize.toNat
  | sfsysuser _ => A.nrcGetUserFactoryInfo.toNat

/-- An offset and a length, both of them numbers. -/
def span (offset length : Bytes) : Set ℕ :=
  match atcmdParamToUint32 offset, atcmdParamToUint32 length with
  | some offset, some length => Set.Ico offset.toNat (offset.toNat + length.toNat)
  | _, _ => ∅

/-- The cells a command asks for. -/
def requested (A : SfApi) : SfCommand → Set ℕ
  | sfuser [mode] => if atoi mode = 2 then Set.Ico 0 A.nrcGetUserDataAreaSize.toNat else ∅
  | sfuser [_, offset, length] => span offset length
  | sfsysuser [offset] =>
    match atcmdParamToUint32 offset with
    | some offset => Set.Ico offset.toNat A.nrcGetUserFactoryInfo.toNat
    | none => ∅
  | sfsysuser [offset, length] => span offset length
  | _ => ∅

/-- A part of the area is erased. -/
def PartialErase : SfCommand → Prop
  | sfuser [mode, _, _] => atoi mode = 2
  | _ => False

end SfCommand

/-! ## Messages -/

theorem length_ofNat_toNat (n : UInt32) : (Decimal.ofNat n.toNat).length ≤ 10 := by
  have := n.toNat_lt
  exact Decimal.length_ofNat_le (by omega) (by omega)

theorem length_percentD (n : UInt32) : (SfApi.percentD n).length ≤ 11 := by
  have hn := n.toNat_lt
  unfold SfApi.percentD
  split_ifs with h
  · exact Nat.le_succ_of_le (length_ofNat_toNat n)
  · obtain ⟨k, hk⟩ : ∃ k : ℕ, (n.toNat : ℤ) - 2 ^ 32 = .negSucc k :=
      ⟨2 ^ 32 - n.toNat - 1, by omega⟩
    rw [hk]
    exact Nat.succ_le_succ (Decimal.length_ofNat_le (by omega) (by omega))

namespace SfApi

/-- A message shorter than its buffer is sent whole. -/
theorem transmitMsg_fits {text : Bytes} (h : text.length + 3 < 128) (s : SfState) :
    A.transmitMsg text s = some (s.send [.transmit (atcmdMsgVsnprint text)]) := by
  have hstack : A.stack.cells.length = 128 := A.stack.length
  obtain ⟨buf, heq, hlen, htake⟩ := vsnprint_fits A.eoverflow .event
    (show 128 ≤ intMax by decide) (Nat.le_of_eq hstack.symm) h
  have hmsg : (atcmdMsgVsnprint text).length = 1 + text.length + 2 := by
    rw [atcmdMsgVsnprint, List.length_append, List.length_append]
    rfl
  unfold transmitMsg
  rw [show (atcmdMsgLenMax : ℤ) = (128 : ℕ) from rfl, heq, Option.bind_some]
  dsimp only
  rw [Int.toNat_natCast, Cells.fetch_of_le (by omega), Option.map_some, Memory.read,
    List.drop_zero, htake]

theorem transmit_of_le {n off len : ℕ} (buf : Cells.Buffer UInt8 n) (h : off + len ≤ n)
    (s : SfState) :
    transmit buf off len s = some (s.send [.transmit (Memory.read buf.cells off len)]) := by
  unfold transmit
  rw [Cells.fetch_of_le (by rwa [buf.length]), Option.map_some]

/-! ## What is accepted -/

theorem size_of_support (h : A.atcmdSfUserSupport_ = true) :
    A.nrcGetUserDataAreaSize.toNat ≤ 102400 := by
  unfold atcmdSfUserSupport_ at h
  simp only at h
  split at h
  · simp only [Bool.or_eq_true, Bool.and_eq_true, beq_iff_eq] at h
    rcases h with ⟨-, h⟩ | ⟨-, h⟩ <;> rw [h] <;> decide
  · simp only [Bool.and_eq_true, beq_iff_eq] at h
    rw [h.2]
    decide
  · cases h

/-- The sum of an accepted offset and length does not wrap around. -/
theorem of_valid {mode : SfUserMode} {offset length : UInt32} (h : A.atcmdSfUserSupport_ = true)
    (hv : A.atcmdSfUserValidParams_ mode offset length = true) :
    0 < length.toNat ∧ offset.toNat + length.toNat ≤ A.nrcGetUserDataAreaSize.toNat
      ∧ (mode ≠ .erase → length.toNat ≤ atcmdDataLenMax) := by
  have hsize := size_of_support h
  unfold atcmdSfUserValidParams_ at hv
  simp only at hv
  split_ifs at hv with hoff hlen hsum
  rw [UInt32.le_iff_toNat_le, Nat.not_le] at hoff
  rw [not_or, UInt32.lt_iff_toNat_lt, Nat.not_lt] at hlen
  rw [UInt32.lt_iff_toNat_lt, UInt32.toNat_add, Nat.not_lt] at hsum
  have hpos : length.toNat ≠ 0 := fun h0 => hlen.1 (UInt32.toNat_inj.1 h0)
  have hmax : length.toNat ≤ 102400 ∧ (mode ≠ .erase → length.toNat ≤ atcmdDataLenMax) := by
    have h4096 : (UInt32.ofNat atcmdDataLenMax).toNat = atcmdDataLenMax := rfl
    have hle := hlen.2
    unfold atcmdDataLenMax at *
    cases mode
    · exact ⟨by simp only at hle; omega, fun _ => by simp only at hle; omega⟩
    · exact ⟨by simp only at hle; omega, fun _ => by simp only at hle; omega⟩
    · exact ⟨Nat.le_trans hle hsize, fun hne => absurd rfl hne⟩
  refine ⟨by omega, ?_, hmax.2⟩
  rwa [Nat.mod_eq_of_lt (by omega)] at hsum

/-! ## The loop of an erase -/

/-- From `i` on the loop writes what is left of the range, in steps of a sector. -/
theorem sfUserErase_spec {n : ℕ} {buffer : Cells.Buffer UInt8 n} (offset length : UInt32)
    (hn : 4096 ≤ n) (hfill : buffer.cells = List.replicate n 0xff)
    (hsum : offset.toNat + length.toNat < 2 ^ 32) (i : UInt32) (s : SfState)
    (hi : i.toNat ≤ length.toNat) :
    ∃ ret s' ops, A.sfUserErase buffer offset length i s = some (ret, s')
      ∧ s'.mode = s.mode ∧ s'.flash = s.flash ++ ops
      ∧ (∀ op ∈ ops, (∃ o l, op = .writeUserData o (List.replicate l 0xff))
        ∧ cells (A.range op)
          ⊆ Set.Ico (offset.toNat + i.toNat) (offset.toNat + length.toNat))
      ∧ (ret = .success → Tiles 4096 (offset.toNat + i.toNat) (ops.map A.range)
        (offset.toNat + length.toNat)) := by
  generalize hk : length.toNat - i.toNat = k
  induction k using Nat.strong_induction_on generalizing i s with
  | _ k ih =>
    rw [sfUserErase]
    by_cases hlt : i < length
    · have hlt' := UInt32.lt_iff_toNat_lt.1 hlt
      have hlen := toNat_lenErase hlt
      generalize lenErase length i = l at hlen
      have hoff : (offset + i).toNat = offset.toNat + i.toNat := by
        rw [UInt32.toNat_add, Nat.mod_eq_of_lt (by omega)]
      have hnext : (i + l).toNat = i.toNat + l.toNat := by
        rw [UInt32.toNat_add, Nat.mod_eq_of_lt (by omega)]
      have hdata : Cells.fetch buffer.cells 0 l.toNat = some (List.replicate l.toNat 0xff) := by
        rw [Cells.fetch_of_le (by rw [buffer.length]; omega), hfill, Memory.read, List.drop_zero,
          List.take_replicate, Nat.min_eq_left (by omega)]
      have hcells : cells (A.range (.writeUserData (offset + i) (List.replicate l.toNat 0xff)))
          ⊆ Set.Ico (offset.toNat + i.toNat) (offset.toNat + length.toNat) := by
        refine cells_subset (Nat.le_of_eq hoff.symm) ?_
        simp only [range, hoff, List.length_replicate]
        omega
      rw [if_pos hlt, hdata, Option.bind_some]
      dsimp only
      by_cases hw : A.nrcWriteUserData s.flash (offset + i) (List.replicate l.toNat 0xff) = true
      · obtain ⟨ret, s', ops, heq, hmode, hflash, hops, htiles⟩ := ih (length.toNat - (i + l).toNat)
          (by omega) (i + l)
          (s.access (.writeUserData (offset + i) (List.replicate l.toNat 0xff))) (by omega) rfl
        rw [if_pos hw]
        refine ⟨ret, s', .writeUserData (offset + i) (List.replicate l.toNat 0xff) :: ops, heq,
          hmode, by rw [hflash]; simp [SfState.access], ?_, fun hret => ?_⟩
        · rintro op (_ | ⟨_, hop⟩)
          · exact ⟨⟨_, _, rfl⟩, hcells⟩
          · refine ⟨(hops op hop).1, (hops op hop).2.trans (Set.Ico_subset_Ico_left ?_)⟩
            omega
        · have ht := htiles hret
          rw [hnext, ← Nat.add_assoc] at ht
          rw [List.map_cons, range, hoff, List.length_replicate]
          refine .cons (by omega) (by omega) (fun hne => ?_) ht
          -- ranges are left only where this one is a whole sector
          have := ht.lt_of_ne_nil hne
          omega
      · rw [if_neg hw]
        refine ⟨.fail, _, [.writeUserData (offset + i) (List.replicate l.toNat 0xff)], rfl, rfl,
          rfl, ?_, fun h => by cases h⟩
        intro op hop
        obtain rfl := List.mem_singleton.1 hop
        exact ⟨⟨_, _, rfl⟩, hcells⟩
    · rw [UInt32.lt_iff_toNat_lt] at hlt
      rw [if_neg (by rwa [UInt32.lt_iff_toNat_lt])]
      refine ⟨.success, s, [], rfl, rfl, by simp, by simp, fun _ => ?_⟩
      rw [show length.toNat = i.toNat by omega]
      exact .nil _

end SfApi

/-! ## The session of a write -/

namespace SfApi

variable {S : Sink (List FlashOp)} {offset length : UInt32}

/-- A session has accessed no flash, or it ended with a write of all it was to bring. -/
def Kept (offset length : UInt32) (flash : List FlashOp) (s : Session (List FlashOp)) : Prop :=
  (∃ is n, Progress (sfUserWriteParams offset length) is n s)
    ∧ (s.rx.env = flash ∨ s.rx.mode.enable = false ∧ ∃ block : Bytes,
      block.length = length.toNat ∧ s.rx.env = flash ++ [.writeUserData offset block])

theorem Kept.step {flash : List FlashOp} {s s' : Session (List FlashOp)} {i : Input}
    (h : Kept offset length flash s) (hs : sessionStep (A.sink S) s i = some s') :
    Kept offset length flash s' := by
  obtain ⟨⟨is, n, hprog⟩, henv⟩ := h
  refine ⟨⟨_, _, hprog.step hs⟩, ?_⟩
  have hen : s.rx.mode.enable = true := by
    cases i <;> simp only [sessionStep, Option.ite_none_right_eq_some] at hs <;> tauto
  obtain henv | ⟨hen', -⟩ := henv
  swap
  · rw [hen] at hen'
    cases hen'
  obtain ⟨taken, hlive⟩ : ∃ taken, Live (sfUserWriteParams offset length) taken n s.rx := by
    rcases hprog with ⟨taken, -, h | h⟩ | ⟨_, -, h⟩
    · exact ⟨taken, h⟩
    · rw [h.enable] at hen
      cases hen
    · rw [h.enable] at hen
      cases hen
  by_cases hexit : ∃ now j, i = .turn now ∧ s.rx.mode.idle = true
      ∧ exitScan (sfUserWriteParams offset length).exit s.rx.cntExitCmd 0 s.rest = .matched j
  · obtain ⟨now, j, rfl, hidle, hscan⟩ := hexit
    simp only [sessionStep, Option.ite_none_right_eq_some, Option.some.injEq] at hs
    obtain ⟨⟨-, hrest⟩, rfl⟩ := hs
    have hne : s.rest.isEmpty = false := by simpa using hrest
    left
    rw [← hlive.params] at hscan
    simp only [atcmdReceiveData, hen, hne, hidle, hscan, Bool.not_true, Bool.or_self,
      Bool.false_eq_true, if_false, if_true]
    rw [(atcmdReceiveDataExit_fixed _ _ _ _ hen (by rw [hlive.params]; rfl)).1, henv]
  · have hstep := hlive.step_fixed rfl hs fun now hi hidle j hj => hexit ⟨now, j, hi, hidle, hj⟩
    rcases hstep with h | h
    · exact Or.inl (h.env.trans henv)
    · obtain ⟨block, ret, hlen, hans, -⟩ := h.out
      refine Or.inr ⟨h.enable, block, hlen, ?_⟩
      have := congrArg Prod.snd hans
      simp only [answer, sfUserWriteParams, sink, UInt32.ofNat_toNat] at this
      rw [← this, henv]

/-- However the data of a write comes, it stays in the buffer, and the range asked for is written
once or not at all. -/
theorem write_session {rx : Receiver (List FlashOp)} (hq : Quiet rx)
    (hbuf : rx.buf.length = atcmdDataLenMax) {flash : List FlashOp}
    {m : DataMode} (hsize : 0 < length.toNat ∧ length.toNat ≤ atcmdDataLenMax)
    (hm : atcmdDataModeEnable (sfUserWriteParams offset length) rx.mode = some m)
    (now : UInt32) {is : List Input} {s : Session (List FlashOp)}
    (hr : run (sessionStep (A.sink S)) (SfState.session ⟨m, flash, []⟩ now rx) is = some s) :
    InBuffer s.rx ∧ (s.rx.env = flash ∨ ∃ block : Bytes,
      block.length = length.toNat ∧ s.rx.env = flash ++ [.writeUserData offset block]) := by
  have hsized : (sfUserWriteParams offset length).Sized := ⟨hsize.2, fun _ => hsize.1⟩
  have hstart : sessionStart (sfUserWriteParams offset length) now { rx with env := flash }
      = some (SfState.session ⟨m, flash, []⟩ now rx) := by
    rw [sessionStart, hm]
    rfl
  have hquiet : Quiet { rx with env := flash } := ⟨hq.enable, hq.cntExitCmd⟩
  have hprog := Progress.start hquiet hsized.posed hstart
  have hsize' := Session.size_sized hquiet hbuf hsized hstart hr
  have hkept : Kept offset length flash s :=
    run_inv (fun s i s' h hs => h.step hs) ⟨⟨[], 0, hprog⟩, Or.inl rfl⟩ hr
  obtain ⟨⟨is, n, h⟩, henv⟩ := hkept
  refine ⟨?_, henv.imp_right And.right⟩
  rcases h with ⟨_, -, h | h⟩ | ⟨_, -, h⟩
  · exact h.inBuffer hsize.2 hsize'
  · exact h.toQuiet.inBuffer hsize'
  · exact h.toQuiet.inBuffer hsize'

/-! ## The commands -/

theorem sfUserRead_spec (hA : A.Documented) (offset : UInt32) {length : UInt32}
    (hlen : length.toNat ≤ atcmdDataLenMax) (s : SfState) : ∃ ret s' ops,
    A.sfUserRead offset length s = some (ret, s') ∧ s'.mode = s.mode ∧ s'.flash = s.flash ++ ops
      ∧ ∀ op ∈ ops, op = .readUserData offset length := by
  unfold sfUserRead
  rcases A.malloc s.flash atcmdDataLenMax with _ | buffer
  · exact ⟨_, _, [], rfl, rfl, by simp, by simp⟩
  dsimp only
  rcases hread : A.nrcReadUserData s.flash offset length with _ | data
  · exact ⟨_, _, [.readUserData offset length], rfl, rfl, rfl, by simp⟩
  dsimp only
  obtain ⟨buffer', hcopy, -⟩ := (buffer.fill 0).copy_of_le (i := 0) (s := data)
    (by rwa [Nat.zero_add, hA.read _ _ _ _ hread])
  have htext : (bytes "RXD_SFUSER:" ++ percentD offset ++ bytes "," ++ percentD length).length + 3
      < 128 := by
    have h11 : (bytes "RXD_SFUSER:").length = 11 := rfl
    have h1 : (bytes ",").length = 1 := rfl
    have := length_percentD offset
    have := length_percentD length
    simp only [List.length_append]
    omega
  rw [hcopy, Option.bind_some, transmitMsg_fits htext, Option.bind_some,
    transmit_of_le buffer' (by rwa [Nat.zero_add]), Option.map_some]
  exact ⟨_, _, [.readUserData offset length], rfl, rfl, rfl, by simp⟩

/-- What holds once parameters were accepted. -/
theorem sfUserRun_valid (hA : A.Documented) (h : A.atcmdSfUserSupport_ = true) {all : Bool}
    {mode : ℤ} {m : SfUserMode} {offset length : UInt32} (hm : SfUserMode.of mode = some m)
    (hv : A.atcmdSfUserValidParams_ m offset length = true)
    (hall : all = true → offset = 0 ∧ length = A.nrcGetUserDataAreaSize) (s : SfState) :
    ∃ ret s' ops, A.sfUserRun all mode offset length s = some (ret, s')
      ∧ s'.flash = s.flash ++ ops
      ∧ (∀ op ∈ ops, cells (A.range op)
        ⊆ Set.Ico offset.toNat (offset.toNat + length.toNat))
      ∧ (all = false → m = .erase → ret = .success →
        (∀ op ∈ ops, ∃ o l, op = .writeUserData o (List.replicate l 0xff))
        ∧ Tiles 4096 offset.toNat (ops.map A.range) (offset.toNat + length.toNat))
      ∧ (s'.mode = s.mode ∨ length.toNat ≤ atcmdDataLenMax
        ∧ atcmdDataModeEnable (sfUserWriteParams offset length) s.mode = some s'.mode) := by
  obtain ⟨hpos, hsum, hmax⟩ := of_valid h hv
  have hsize := size_of_support h
  unfold sfUserRun
  rw [hm]
  dsimp only
  rw [if_neg (by rw [hv]; decide)]
  cases m with
  | read =>
    obtain ⟨ret, s', ops, heq, hmode, hflash, hops⟩ := sfUserRead_spec hA offset
      (hmax (by decide)) s
    refine ⟨ret, s', ops, heq, hflash, fun op hop => ?_, fun _ hf => absurd hf (by decide),
      Or.inl hmode⟩
    rw [hops op hop]
    exact cells_subset (Nat.le_refl _) (Nat.le_refl _)
  | write =>
    dsimp only
    rcases hen : atcmdDataModeEnable (sfUserWriteParams offset length) s.mode with _ | md
    · exact ⟨_, s, [], rfl, by simp, by simp, fun _ hf => absurd hf (by decide), Or.inl rfl⟩
    · exact ⟨_, _, [], rfl, by simp, by simp, fun _ hf => absurd hf (by decide),
        Or.inr ⟨hmax (by decide), rfl⟩⟩
  | erase =>
    dsimp only
    rcases hb : all with _ | _
    · rw [if_neg (by decide)]
      rcases A.malloc s.flash sfSectorSize.toNat with _ | buffer
      · exact ⟨_, s, [], rfl, by simp, by simp, fun _ _ hf => absurd hf (by decide), Or.inl rfl⟩
      · obtain ⟨ret, s', ops, heq, hmode, hflash, hops, htiles⟩ := sfUserErase_spec (A := A)
          offset length (Nat.le_refl 4096) (show (buffer.fill 0xff).cells = _ from rfl) (by omega) 0 s
          (Nat.zero_le _)
        exact ⟨ret, s', ops, heq, hflash, fun op hop => (hops op hop).2, fun _ _ hret =>
          ⟨fun op hop => (hops op hop).1, htiles hret⟩, Or.inl hmode⟩
    · obtain ⟨rfl, rfl⟩ := hall hb
      rw [if_pos rfl]
      refine ⟨_, _, [.eraseUserDataArea], rfl, rfl, fun op hop => ?_,
        fun hf => absurd hf (by decide), Or.inl rfl⟩
      obtain rfl := List.mem_singleton.1 hop
      exact cells_subset (Nat.zero_le _) (Nat.le_refl _)

theorem sfUserRun_invalid {all : Bool} {mode : ℤ} {offset length : UInt32}
    (h : ∀ m, SfUserMode.of mode = some m → A.atcmdSfUserValidParams_ m offset length = false)
    (s : SfState) : A.sfUserRun all mode offset length s = some (.inval, s) := by
  unfold sfUserRun
  rcases hm : SfUserMode.of mode with _ | m
  · rfl
  · dsimp only
    rw [if_pos (h m hm)]

/-- The area is read whole into a buffer of its size, of which the range asked for is sent. -/
theorem sfSysUserRun_spec (hA : A.Documented) {offset length : UInt32}
    (hsum : offset.toNat + length.toNat ≤ A.nrcGetUserFactoryInfo.toNat) (s : SfState) :
    ∃ ret s' ops, A.sfSysUserRun offset length s = some (ret, s')
      ∧ s'.mode = s.mode ∧ s'.flash = s.flash ++ ops
      ∧ (∀ op ∈ ops, op = .getUserFactory A.nrcGetUserFactoryInfo.toUInt16)
      ∧ ret ≠ .success
      ∧ (ret = .noReturn → ∃ msg buf k,
        s'.out = s.out ++ [.ret .success, .transmit msg,
          .transmit (Memory.read buf offset.toNat length.toNat)]
        ∧ buf.length = A.nrcGetUserFactoryInfo.toNat
        ∧ A.nrcGetUserFactory s.flash A.nrcGetUserFactoryInfo.toUInt16 = some (buf.take k)
        ∧ ops = [.getUserFactory A.nrcGetUserFactoryInfo.toUInt16]) := by
  have hinfo := hA.info
  unfold sfSysUserRun
  dsimp only
  rw [if_neg (by rw [UInt32.lt_iff_toNat_lt, UInt32.toNat_add, Nat.mod_eq_of_lt (by omega)]; omega)]
  rcases A.malloc s.flash A.nrcGetUserFactoryInfo.toNat with _ | buf
  · exact ⟨_, s, [], rfl, rfl, by simp, by simp, by decide, fun h => absurd h (by decide)⟩
  dsimp only
  rcases hread : A.nrcGetUserFactory s.flash A.nrcGetUserFactoryInfo.toUInt16 with _ | data
  · exact ⟨_, _, [.getUserFactory _], rfl, rfl, rfl, by simp, by decide,
      fun h => absurd h (by decide)⟩
  dsimp only
  have hdata : data.length ≤ A.nrcGetUserFactoryInfo.toNat := by
    have h16 : A.nrcGetUserFactoryInfo.toUInt16.toNat = A.nrcGetUserFactoryInfo.toNat % 2 ^ 16 :=
      UInt32.toNat_toUInt16 _
    have := hA.factory _ _ _ hread
    have := Nat.mod_le A.nrcGetUserFactoryInfo.toNat (2 ^ 16)
    omega
  obtain ⟨buf', hcopy, hcells⟩ := buf.copy_of_le (i := 0) (s := data) (by rwa [Nat.zero_add])
  have htext : (bytes "RXD_SFSYSUSER:" ++ Decimal.ofNat offset.toNat ++ bytes ","
      ++ Decimal.ofNat length.toNat).length + 3 < 128 := by
    have h14 : (bytes "RXD_SFSYSUSER:").length = 14 := rfl
    have h1 : (bytes ",").length = 1 := rfl
    have := length_ofNat_toNat offset
    have := length_ofNat_toNat length
    simp only [List.length_append]
    omega
  rw [hcopy, Option.bind_some]
  generalize bytes "RXD_SFSYSUSER:" ++ Decimal.ofNat offset.toNat ++ bytes ","
    ++ Decimal.ofNat length.toNat = text at htext
  rw [transmitMsg_fits htext, Option.bind_some, transmit_of_le buf' hsum, Option.map_some]
  refine ⟨_, _, [.getUserFactory _], rfl, rfl, rfl, by simp, by decide, fun _ =>
    ⟨atcmdMsgVsnprint text, buf'.cells, data.length, ?_, buf'.length, ?_, rfl⟩⟩
  · simp [SfState.send, SfState.access]
  · rw [hcells, Memory.memcpy, List.take_zero, List.nil_append, List.take_left]

end SfApi

namespace SfCommand

/-- What holds of a command that made the accesses `ops`. -/
structure Bounded (A : SfApi) (c : SfCommand) (s : SfState) (ret : AtcmdError) (s' : SfState)
    (ops : List FlashOp) : Prop where
  flash : s'.flash = s.flash ++ ops
  area : ∀ op ∈ ops, cells (A.range op) ⊆ Set.Ico 0 (c.areaSize A)
  /-- `AT+SFUSER` accesses what it was asked for. -/
  requested : ∀ argv, c = sfuser argv → ∀ op ∈ ops, cells (A.range op) ⊆ c.requested A
  /-- An erase of a part is made of writes of ones that follow one another. -/
  erase : c.PartialErase → ret = .success →
    (∀ op ∈ ops, ∃ o l, op = .writeUserData o (List.replicate l 0xff))
      ∧ ∃ a b, Tiles 4096 a (ops.map A.range) b ∧ Set.Ico a b = c.requested A
  /-- `AT+SFSYSUSER` sends what it was asked for, out of a buffer as large as its area. -/
  sent : ∀ argv, c = sfsysuser argv → ret = .noReturn → ∃ msg buf k a l,
    s'.out = s.out ++ [.ret .success, .transmit msg, .transmit (Memory.read buf a l)]
      ∧ buf.length = c.areaSize A
      ∧ A.nrcGetUserFactory s.flash A.nrcGetUserFactoryInfo.toUInt16 = some (buf.take k)
      ∧ cells (a, l) = c.requested A ∧ a + l ≤ buf.length

/-- A command leaves the data mode as it was, or enables it for what it was asked for. -/
def Enables (A : SfApi) (c : SfCommand) (s s' : SfState) : Prop :=
  s'.mode = s.mode ∨ ∃ offset length : UInt32,
    (0 < length.toNat ∧ length.toNat ≤ atcmdDataLenMax)
      ∧ c.areaSize A = A.nrcGetUserDataAreaSize.toNat
      ∧ offset.toNat + length.toNat ≤ c.areaSize A
      ∧ c.requested A = cells (offset.toNat, length.toNat)
      ∧ atcmdDataModeEnable (SfApi.sfUserWriteParams offset length) s.mode = some s'.mode

variable {s s' : SfState} {c : SfCommand}

/-- A command that accesses nothing. -/
theorem Bounded.refused {ret : AtcmdError} (hflash : s'.flash = s.flash) (hret : ret ≠ .noReturn)
    (hc : c.PartialErase → ret ≠ .success) : c.Bounded A s ret s' [] where
  flash := by rw [hflash, List.append_nil]
  area := by simp
  requested := by simp
  erase h hr := absurd hr (hc h)
  sent _ _ hr := absurd hr hret

/-- A handler has a result, within its bounds. -/
def Handled (A : SfApi) (c : SfCommand) (s : SfState) (r : SfResult) : Prop :=
  ∃ ret s' ops, r = some (ret, s') ∧ c.Bounded A s ret s' ops ∧ c.Enables A s s'

theorem Handled.refused {ret : AtcmdError} (hret : ret ≠ .noReturn)
    (hc : c.PartialErase → ret ≠ .success) : c.Handled A s (some (ret, s)) :=
  ⟨ret, s, [], rfl, .refused rfl hret hc, Or.inl rfl⟩

/-- `AT+SFUSER` with accepted parameters, which ask for `length` cells from `offset` on. -/
theorem handled_run (hA : A.Documented) (h : A.atcmdSfUserSupport_ = true) {argv : List Bytes}
    {all : Bool} {mode : ℤ} {offset length : UInt32}
    (hall : all = true → offset = 0 ∧ length = A.nrcGetUserDataAreaSize)
    (hreq : (sfuser argv).requested A = cells (offset.toNat, length.toNat))
    (hpart : (sfuser argv).PartialErase → all = false ∧ mode = 2) (s : SfState) :
    (sfuser argv).Handled A s (A.sfUserRun all mode offset length s) := by
  by_cases hv : ∃ m, SfUserMode.of mode = some m
      ∧ A.atcmdSfUserValidParams_ m offset length = true
  · obtain ⟨m, hm, hv⟩ := hv
    obtain ⟨hpos, hsum, -⟩ := SfApi.of_valid h hv
    obtain ⟨ret, s', ops, heq, hflash, hops, herase, hmode⟩ :=
      SfApi.sfUserRun_valid hA h hm hv hall s
    refine ⟨ret, s', ops, heq, ⟨hflash, fun op hop => ?_, fun _ _ op hop => ?_, fun hp hret => ?_,
      fun _ hc => by cases hc⟩, ?_⟩
    · exact (hops op hop).trans (Set.Ico_subset_Ico (Nat.zero_le _) hsum)
    · rw [hreq]
      exact hops op hop
    · obtain ⟨hall, rfl⟩ := hpart hp
      cases hm
      obtain ⟨hones, htiles⟩ := herase hall rfl hret
      exact ⟨hones, _, _, htiles, hreq.symm⟩
    · exact hmode.imp_right fun hw => ⟨offset, length, ⟨hpos, hw.1⟩, rfl, hsum, hreq, hw.2⟩
  · have hinv : ∀ m, SfUserMode.of mode = some m
        → A.atcmdSfUserValidParams_ m offset length = false := by
      intro m hm
      by_contra hne
      exact hv ⟨m, hm, by simpa using hne⟩
    rw [SfApi.sfUserRun_invalid hinv s]
    exact .refused (by decide) fun _ => by decide

theorem handled_sfuser (hA : A.Documented) (argv : List Bytes) (s : SfState) :
    (sfuser argv).Handled A s (A.atcmdBasicSfUserSet_ argv s) := by
  unfold SfApi.atcmdBasicSfUserSet_
  rcases h : A.atcmdSfUserSupport_ with _ | _
  · exact .refused (by decide) fun _ => by decide
  rw [if_neg (by decide)]
  split
  · exact ⟨_, _, [], rfl, .refused rfl (by decide) (fun hp => absurd hp id), Or.inl rfl⟩
  · rename_i mode offset length
    rcases ho : atcmdParamToUint32 offset with _ | o
    · exact .refused (by decide) fun _ => by decide
    rcases hl : atcmdParamToUint32 length with _ | l
    · exact .refused (by decide) fun _ => by decide
    refine handled_run hA h (fun hf => by cases hf) ?_ (fun hp => ?_) s
    · simp only [requested, span, ho, hl]
      rfl
    · exact ⟨rfl, hp⟩
  · rename_i mode
    split_ifs with hmode
    · refine handled_run hA h (fun _ => ⟨rfl, rfl⟩) ?_ (fun hp => absurd hp id) s
      simp only [requested, if_pos hmode, cells, UInt32.toNat_zero, Nat.zero_add]
    · -- the values that stand for no parameter are too large for any area
      rw [SfApi.sfUserRun_invalid (fun m _ => ?_) s]
      · exact .refused (by decide) fun _ => by decide
      · by_contra hv
        have := (SfApi.of_valid h (by simpa using hv)).2.1
        have := SfApi.size_of_support h
        have h32 : (0xffffffff : UInt32).toNat = 4294967295 := rfl
        omega
  · exact .refused (by decide) fun _ => by decide

/-- `AT+SFSYSUSER` with accepted parameters. -/
theorem handled_sysRun (hA : A.Documented) {argv : List Bytes} {offset length : UInt32}
    (hsum : offset.toNat + length.toNat ≤ A.nrcGetUserFactoryInfo.toNat)
    (hreq : (sfsysuser argv).requested A = cells (offset.toNat, length.toNat)) (s : SfState) :
    (sfsysuser argv).Handled A s (A.sfSysUserRun offset length s) := by
  obtain ⟨ret, s', ops, heq, hmode, hflash, hops, hret, hsent⟩ :=
    SfApi.sfSysUserRun_spec hA hsum s
  refine ⟨ret, s', ops, heq, ⟨hflash, fun op hop => ?_, fun _ hc => SfCommand.noConfusion hc,
    fun hp => absurd hp id, fun _ _ hr => ?_⟩, Or.inl hmode⟩
  · rw [hops op hop]
    exact cells_subset (Nat.zero_le _) (Nat.le_of_eq (Nat.zero_add _))
  · obtain ⟨msg, buf, k, hout, hlen, hget, -⟩ := hsent hr
    exact ⟨msg, buf, k, _, _, hout, hlen, hget, hreq.symm, by rwa [hlen]⟩

theorem handled_sfsysuser (hA : A.Documented) (argv : List Bytes) (s : SfState) :
    (sfsysuser argv).Handled A s (A.atcmdBasicSfSysUserSet_ argv s) := by
  have hinfo := hA.info
  unfold SfApi.atcmdBasicSfSysUserSet_
  dsimp only
  split_ifs with h0
  · exact .refused (by decide) fun _ => by decide
  split
  · exact ⟨_, _, [], rfl, .refused rfl (by decide) (fun hp => absurd hp id), Or.inl rfl⟩
  · rename_i offset length
    rcases hl : atcmdParamToUint32 length with _ | l
    · exact .refused (by decide) fun _ => by decide
    dsimp only
    split_ifs with hlen
    · exact .refused (by decide) fun _ => by decide
    rcases ho : atcmdParamToUint32 offset with _ | o
    · exact .refused (by decide) fun _ => by decide
    dsimp only
    split_ifs with hoff
    · exact .refused (by decide) fun _ => by decide
    rw [not_or, UInt32.lt_iff_toNat_lt, Nat.not_lt] at hlen
    rw [UInt32.le_iff_toNat_le, Nat.not_le] at hoff
    by_cases hsum : o.toNat + l.toNat ≤ A.nrcGetUserFactoryInfo.toNat
    · refine handled_sysRun hA hsum ?_ s
      simp only [requested, span, ho, hl]
      rfl
    · have hlt : A.nrcGetUserFactoryInfo < o + l := by
        rw [UInt32.lt_iff_toNat_lt, UInt32.toNat_add, Nat.mod_eq_of_lt (by omega)]
        omega
      rw [SfApi.sfSysUserRun, if_pos hlt]
      exact .refused (by decide) fun _ => by decide
  · rename_i offset
    rcases ho : atcmdParamToUint32 offset with _ | o
    · exact .refused (by decide) fun _ => by decide
    dsimp only
    split_ifs with hoff
    · exact .refused (by decide) fun _ => by decide
    rw [UInt32.le_iff_toNat_le, Nat.not_le] at hoff
    have hsub : (A.nrcGetUserFactoryInfo - o).toNat = A.nrcGetUserFactoryInfo.toNat - o.toNat :=
      UInt32.toNat_sub_of_le _ _ (UInt32.le_iff_toNat_le.2 (Nat.le_of_lt hoff))
    refine handled_sysRun hA (by omega) ?_ s
    simp only [requested, ho, cells, hsub]
    rw [Nat.add_sub_cancel' (Nat.le_of_lt hoff)]
  · exact .refused (by decide) fun _ => by decide

end SfCommand

/-- Every command, and the session of the data mode it may begin, stays inside of its buffers and of
its area. `AT+SFUSER` accesses only what it was asked for, all of it if it erases a part; of what
`AT+SFSYSUSER` reads, only what it was asked for is sent. -/
theorem sf_user_bounds (hA : A.Documented) {S : Sink (List FlashOp)}
    {rx : Receiver (List FlashOp)} (hrx : Ready (A.sink S) rx) (c : SfCommand) :
    ∃ ret s' ops, c.handler A (.of rx) = some (ret, s') ∧ c.Bounded A (.of rx) ret s' ops
      ∧ ∀ now is s'', s'.mode.enable = true →
        run (sessionStep (A.sink S)) (s'.session now rx) is = some s'' →
        InBuffer s''.rx ∧ ∃ ops', s''.rx.env = s'.flash ++ ops'
          ∧ ∀ op ∈ ops', cells (A.range op) ⊆ Set.Ico 0 (c.areaSize A) ∩ c.requested A := by
  obtain ⟨ret, s', ops, heq, hb, hmode⟩ : c.Handled A (.of rx) (c.handler A (.of rx)) := by
    cases c with
    | sfuser argv => exact SfCommand.handled_sfuser hA argv _
    | sfsysuser argv => exact SfCommand.handled_sfsysuser hA argv _
  refine ⟨ret, s', ops, heq, hb, fun now is s'' hen hr => ?_⟩
  rcases hmode with hmode | ⟨offset, length, hsize, -, hsum, hreq, hm⟩
  · rw [hmode, show (SfState.of rx).mode.enable = rx.mode.enable from rfl, hrx.quiet.enable] at hen
    cases hen
  · obtain ⟨hbuf, henv⟩ := SfApi.write_session hrx.quiet hrx.size hsize hm now hr
    refine ⟨hbuf, ?_⟩
    rcases henv with henv | ⟨block, hlen, henv⟩
    · exact ⟨[], by rw [henv, List.append_nil], by simp⟩
    · refine ⟨_, henv, fun op hop => ?_⟩
      obtain rfl := List.mem_singleton.1 hop
      rw [hreq, SfApi.range, hlen]
      exact Set.subset_inter (cells_subset (Nat.zero_le _) hsum) (Set.Subset.refl _)

/-- A flash of 2 MB with a user area of 8 KB, where every call succeeds. -/
def smallFlash : SfApi where
  systemApiGetFlashSize := 0x200000
  nrcGetUserDataAreaAddress := 0x1F4000
  nrcGetUserDataAreaSize := 8 * 1024
  nrcGetUserFactoryInfo := 512
  nrcReadUserData _ _ size := some (List.replicate size.toNat 0xff)
  nrcWriteUserData _ _ _ := true
  nrcEraseUserDataArea _ := true
  nrcGetUserFactory _ bufLen := some (List.replicate bufLen.toNat 0xff)
  malloc _ n := some ⟨List.replicate n 0, List.length_replicate⟩
  stack := ⟨List.replicate atcmdMsgLenMax 0, List.length_replicate⟩
  eoverflow := false

theorem smallFlash_documented : smallFlash.Documented where
  read _ _ size _ h := Option.some.inj h ▸ List.length_replicate
  factory _ bufLen _ h := Option.some.inj h ▸ Nat.le_of_eq List.length_replicate
  info := by decide

/-- Sinks of which nothing is left behind. -/
def noSinks : Sink (List FlashOp) where
  atcmdSocketSendData _ buf e := (buf.length, e)
  atcmdFirmwareDownload buf e := (buf.length, e)
  atcmdSfUserWrite _ buf e := (buf.length, e)

theorem sf_user_bounds_write : ∃ s' s'',
    (SfCommand.sfuser [bytes "1", bytes "8189", bytes "3"]).handler smallFlash
        (.of (.boot [])) = some (.success, s')
      ∧ run (sessionStep (smallFlash.sink noSinks)) (s'.session 1 (.boot []))
        [.receive (bytes "ABCD"), .turn 2] = some s''
      ∧ s''.rx.env = [.writeUserData 8189 (bytes "ABC")] ∧ InBuffer s''.rx := by
  obtain ⟨s', s'', heq, hen, hr, henv⟩ : ∃ s' s'',
      (SfCommand.sfuser [bytes "1", bytes "8189", bytes "3"]).handler smallFlash
          (.of (.boot [])) = some (.success, s') ∧ s'.mode.enable = true
        ∧ run (sessionStep (smallFlash.sink noSinks)) (s'.session 1 (.boot []))
          [.receive (bytes "ABCD"), .turn 2] = some s''
        ∧ s''.rx.env = [.writeUserData 8189 (bytes "ABC")] := ⟨_, _, rfl, rfl, rfl, rfl⟩
  obtain ⟨ret, s₁, ops, h₁, -, hsession⟩ := sf_user_bounds smallFlash_documented
    (S := noSinks) (.boot []) (.sfuser [bytes "1", bytes "8189", bytes "3"])
  obtain rfl : s₁ = s' := (Prod.mk.inj (Option.some.inj (h₁.symm.trans heq))).2
  exact ⟨s₁, s'', heq, hr, henv, (hsession 1 _ s'' hen hr).1⟩

/-- `AT+SFSYSUSER=0,1` reads the 511 bytes after the one it was asked for too. -/
theorem sf_sys_user_reads_all : ∃ s',
    (SfCommand.sfsysuser [bytes "0", bytes "1"]).handler smallFlash (.of (.boot []))
        = some (.noReturn, s')
      ∧ ∃ op ∈ s'.flash, ¬ cells (smallFlash.range op)
        ⊆ (SfCommand.sfsysuser [bytes "0", bytes "1"]).requested smallFlash := by
  obtain ⟨⟨ret, s'⟩, heq, hs⟩ := Option.map_eq_some_iff.1 (show
    ((SfCommand.sfsysuser [bytes "0", bytes "1"]).handler smallFlash (.of (.boot []))).map
      (fun r => (r.1, r.2.flash)) = some (.noReturn, [.getUserFactory 512]) by decide +kernel)
  obtain ⟨rfl, hflash⟩ := Prod.mk.inj hs
  refine ⟨s', heq, .getUserFactory 512, hflash ▸ List.mem_singleton_self _, fun h => ?_⟩
  have h1 : 1 ∈ Set.Ico 0 1 := h (mem_cells.2 (by decide) : 1 ∈ cells (0, 512))
  exact absurd h1.2 (Nat.lt_irrefl 1)

end NrcAtcmd
