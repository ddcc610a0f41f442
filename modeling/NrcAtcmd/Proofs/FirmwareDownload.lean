import NrcAtcmd.FirmwareDownload
import NrcAtcmd.Lib.Channel
import NrcAtcmd.Proofs.DataMode
import NrcAtcmd.Proofs.Firmware
import NrcAtcmd.Proofs.Param

/-!
# Host and target agree on the firmware

While the host waits for the return of a command, that command or its return is all there is in
flight. While it polls, the target has a session for the chunk, and the events in flight are those
the session sent and the host has not heard. A chunk that was dropped sends both `DROP` and `DONE`;
the host that hears only the first gives up, and one that hears both and has a chunk left finds that
the target expects another offset.
-/

namespace NrcAtcmd

open Machine Channel

variable {φ : Type*} {D : UtilFota φ} {S : Sink (FirmwareLog φ)} {timeout : UInt32} {im : Image}

/-! ## Chunks -/

/-- The target has accepted the chunks before `off`, and expects the one there. -/
structure Has (im : Image) (off : ℕ) (e : FirmwareLog φ) : Prop where
  download : e.fw.update.download = .ofNat off
  accepted : ∀ k, k * 4096 < off →
    (UInt32.ofNat (k * 4096), (im.binData.drop (k * 4096)).take 4096) ∈ e.accepted

/-- An offset the host sends a chunk for. -/
def IsOffset (im : Image) (off : ℕ) : Prop := off < im.binData.length ∧ 4096 ∣ off

theorem IsOffset.length {off : ℕ} (h : IsOffset im off) :
    0 < im.length off ∧ im.length off ≤ 4096 ∧ off + im.length off ≤ im.binData.length := by
  have := h.1
  unfold Image.length
  split_ifs <;> omega

theorem IsOffset.length_chunk {off : ℕ} (h : IsOffset im off) :
    (im.chunk off).length = im.length off := by
  have := h.length
  unfold Image.chunk
  rw [List.length_take, List.length_drop]
  omega

theorem IsOffset.chunk_eq (im : Image) (off : ℕ) :
    im.chunk off = (im.binData.drop off).take 4096 := by
  unfold Image.chunk Image.length
  split_ifs with h
  · rfl
  · rw [List.take_of_length_le (by rw [List.length_drop]),
      List.take_of_length_le (by rw [List.length_drop]; omega)]

/-- After a chunk the next one begins, unless it was the last. -/
theorem IsOffset.next {off : ℕ} (h : IsOffset im off)
    (hlt : off + im.length off < im.binData.length) : IsOffset im (off + im.length off) := by
  refine ⟨hlt, ?_⟩
  obtain ⟨-, k, rfl⟩ := h
  unfold Image.length at *
  split_ifs at * with hl
  · exact ⟨k + 1, by omega⟩
  · omega

theorem Has.next {off : ℕ} {e e' : FirmwareLog φ} (h : Has im off e) (ho : IsOffset im off)
    (hd : e'.fw.update.download = e.fw.update.download + .ofNat (im.length off))
    (ha : e'.accepted = e.accepted ++ [(e.fw.update.download, im.chunk off)]) :
    Has im (off + im.length off) e' where
  download := by rw [hd, h.download, UInt32.ofNat_add]
  accepted k hk := by
    have hlen := ho.length
    rw [ha]
    by_cases hlt : k * 4096 < off
    · exact List.mem_append_left _ (h.accepted k hlt)
    · obtain ⟨-, j, rfl⟩ := ho
      have hkj : k * 4096 = 4096 * j := by omega
      refine List.mem_append_right _ ?_
      rw [List.mem_singleton, h.download, IsOffset.chunk_eq, hkj]

/-! ## A session for a chunk -/

@[simp] theorem replies_append (o o' : List Out) : replies (o ++ o') = replies o ++ replies o' := by
  simp [replies]

/-- The events of a session before it ends. -/
def IsIdle : Reply → Prop
  | .bevent (.fwbindlIdle ..) => True
  | _ => False

/-- The parameters of a session for the chunk at `off`. -/
structure ForChunk (im : Image) (off : ℕ) (p : DataModeParams) : Prop where
  dataType : p.dataType = .fwbindl
  doneEvent : p.doneEvent = true
  len : p.len = im.length off

theorem ForChunk.passthrough {off : ℕ} {p : DataModeParams} (h : ForChunk im off p) :
    p.passthrough = false := by
  simp [DataModeParams.passthrough, h.dataType]

/-- A block of the session is accepted whole, or dropped. -/
theorem firmwareSink_answer {off : ℕ} {p : DataModeParams} {block : Bytes} {ret : ℕ}
    {e e' : FirmwareLog φ} (hp : ForChunk im off p) (hb : block ≠ [])
    (h : answer (firmwareSink D S) p block e = (ret, e')) :
    (ret = block.length
        ∧ e'.fw.update.download = e.fw.update.download + .ofNat block.length
        ∧ e'.accepted = e.accepted ++ [(e.fw.update.download, block)])
      ∨ (ret = 0 ∧ e'.fw.update.download = e.fw.update.download) := by
  have hlen := List.length_pos_iff.2 hb
  unfold answer firmwareSink atcmdFirmwareDownload_ at h
  rw [hp.dataType] at h
  dsimp only at h
  split_ifs at h with h0 h1 h2
  · right
    simp only [Prod.mk.injEq] at h
    rw [← h.1, ← h.2]
    exact ⟨rfl, by simp⟩
  · exact absurd rfl h1
  · omega
  · left
    simp only [Prod.mk.injEq] at h
    rw [← h.1, ← h.2]
    exact ⟨rfl, rfl, rfl⟩

/-- The events of a chunk that was accepted, or dropped. -/
theorem reportOf_chunk {off : ℕ} {p : DataModeParams} (ho : IsOffset im off)
    (hp : ForChunk im off p) :
    replies (reportOf p (.ofNat p.len) (.ofNat p.len - .ofNat p.len))
        = [.bevent (.fwbindlDone (.ofNat p.len))]
      ∧ replies (reportOf p (.ofNat 0) (.ofNat p.len - .ofNat 0))
        = [.bevent (.fwbindlDrop (.ofNat p.len)), .bevent (.fwbindlDone 0)] := by
  have hlen := ho.length
  rw [← hp.len] at hlen
  have hpos : (0 : UInt32) < .ofNat p.len := by
    rw [UInt32.lt_iff_toNat_lt, UInt32.toNat_ofNat']
    have : p.len % 2 ^ 32 = p.len := Nat.mod_eq_of_lt (by omega)
    simp only [UInt32.toNat_zero]
    omega
  constructor
  · simp [reportOf, hp.doneEvent, atcmdReceiveDataDone_, hp.dataType, replies]
  · simp [reportOf, hp.doneEvent, atcmdReceiveDataDone_, atcmdReceiveDataDrop_, hp.dataType,
      replies, hpos]

/-- A target between two sessions, with nothing left to read. -/
structure Calm (T : Session (FirmwareLog φ)) : Prop extends Quiet T.rx where
  rest : T.rest = []

/-- The target has taken the chunk at `off` to its end, and sends `o`: it accepted the chunk, or
dropped it. -/
structure Ended (im : Image) (off : ℕ) (o : List Reply) (T : Session (FirmwareLog φ)) : Prop
    extends Calm T where
  events : (∃ len, o = [.bevent (.fwbindlDone len)] ∧ Has im (off + im.length off) T.rx.env)
    ∨ ∃ len, o = [.bevent (.fwbindlDrop len), .bevent (.fwbindlDone 0)]
      ∧ T.rx.env.fw.update.download = .ofNat off

theorem timeout_isIdle {off : ℕ} {p : DataModeParams} (hp : ForChunk im off p) {o : List Out}
    (h : ∀ x ∈ o, ∃ m : DataMode, m.params = p ∧ x = atcmdDataModeTimeout m) :
    ∀ x ∈ replies o, IsIdle x := by
  intro x hx
  obtain ⟨y, hy, hyx⟩ := List.mem_filterMap.1 hx
  obtain ⟨m, hm, rfl⟩ := h y hy
  simp only [atcmdDataModeTimeout, hm, hp.dataType, Option.some.injEq] at hyx
  rw [← hyx]
  trivial

/-- A step of a session for a chunk, of which the target has not got more than the chunk: the session
goes on, or ends with the whole chunk. -/
theorem chunk_step {off : ℕ} {p : DataModeParams} {taken data unsent : Bytes} {n : ℕ}
    {T T' : Session (FirmwareLog φ)} {i : Input} (ho : IsOffset im off) (hp : ForChunk im off p)
    (h : Live p taken n T.rx) (hs : sessionStep (firmwareSink D S) T i = some T')
    (hexit : ∀ now, i = .turn now → T.rx.mode.idle = true →
      ∀ j, exitScan p.exit T.rx.cntExitCmd 0 T.rest ≠ .matched j)
    (hhas : Has im off T.rx.env) (hdata : taken ++ T.rest ++ i.received ++ unsent = data)
    (hpre : data <+: im.chunk off) :
    (∃ taken' n' o, Live p taken' n' T'.rx ∧ taken' ++ T'.rest = taken ++ T.rest ++ i.received
        ∧ Has im off T'.rx.env ∧ T'.rx.out = T.rx.out ++ o ∧ ∀ x ∈ replies o, IsIdle x)
      ∨ ∃ o, T'.rx.out = T.rx.out ++ o ∧ unsent = [] ∧ data = im.chunk off
        ∧ Ended im off (replies o) T' := by
  have hprog : Progress p [.receive (taken ++ T.rest)] n T :=
    Or.inl ⟨taken, by simp [received, Input.received], Or.inl h⟩
  have hrec : received ([.receive (taken ++ T.rest)] ++ [i])
      = taken ++ T.rest ++ i.received := by
    simp [received, Input.received]
  have hstep := hprog.step hs
  unfold Progress at hstep
  rw [hrec] at hstep
  rcases h.step_fixed hp.passthrough hs hexit with hg | hf
  · left
    obtain ⟨o, hout, hidle⟩ := hg.out
    rcases hstep with ⟨taken', ht, hl | hc⟩ | ⟨_, _, he⟩
    · exact ⟨taken', _, o, hl, ht.symm, by rwa [hg.env], hout, timeout_isIdle hp hidle⟩
    · have := hc.enable
      rw [hg.enable] at this
      cases this
    · have := he.enable
      rw [hg.enable] at this
      cases this
  · right
    obtain ⟨block, ret, hbl, hans, hout⟩ := hf.out
    have hrep := reportOf_spec p (.ofNat ret) (.ofNat p.len - .ofNat ret)
    refine ⟨_, hout, ?_⟩
    rcases hstep with ⟨taken', ht, hl | hc⟩ | ⟨_, _, he⟩
    · have := hl.enable
      rw [hf.enable] at this
      cases this
    · -- the session took the whole chunk, so nothing of it is lost
      obtain ⟨block', hblocks, hbl', hof⟩ := hc.block
      have hsink : ∀ (d : DataType) (id : ℤ) (l : Bytes) (o : List Out),
          blocks (.sink d id l ret :: o) = l :: blocks o := fun _ _ _ _ => rfl
      rw [hout, blocks_append, (h.fixed hp.passthrough).1, hsink, hrep.1] at hblocks
      simp only [List.nil_append, List.cons.injEq, and_true] at hblocks
      subst hblocks
      have hcount := hof.count
      have hle := hpre.length_le
      rw [ho.length_chunk, ← hp.len] at hle
      have hlen : taken'.length + T'.rest.length + unsent.length ≤ p.len := by
        rw [← hdata, ht] at hle
        simpa [Nat.add_assoc] using hle
      simp only [List.flatten_singleton, List.length_nil, hbl, Nat.add_zero] at hcount
      have hrest : T'.rest = [] := List.length_eq_zero_iff.1 (by omega)
      have hunsent : unsent = [] := List.length_eq_zero_iff.1 (by omega)
      have hblock : taken' = block := by
        have hlost : n + lostAt T i = 0 := by omega
        simpa using hof.exact_of hlost
      have hd : data = block := by
        rw [← hdata, ht, hrest, hunsent, hblock, List.append_nil, List.append_nil]
      have hchunk : block = im.chunk off := by
        rw [hd] at hpre
        exact hpre.eq_of_length (by rw [ho.length_chunk, hbl, hp.len])
      have hne : block ≠ [] := by
        rw [Ne, ← List.length_eq_zero_iff, hbl, hp.len]
        have := ho.length
        omega
      refine ⟨hunsent, hd.trans hchunk, ⟨hc.toQuiet, hrest⟩, ?_⟩
      obtain ⟨hrdone, hrdrop⟩ := reportOf_chunk ho hp
      rcases firmwareSink_answer hp hne hans with ⟨hret, hdown, hacc⟩ | ⟨hret, hdown⟩
      · left
        rw [hbl] at hret hdown
        rw [hp.len] at hdown
        rw [hchunk] at hacc
        refine ⟨.ofNat p.len, ?_, hhas.next ho hdown hacc⟩
        rw [hret]
        exact hrdone
      · right
        refine ⟨.ofNat p.len, ?_, hdown.trans hhas.download⟩
        rw [hret]
        exact hrdrop
    · -- the exit command sends an event of its own
      obtain ⟨o', done, drop, hout', -⟩ := he.event
      have hno : NoExit T'.rx.out := by
        rw [hout]
        refine h.noExit.append fun x hx => ?_
        rcases List.mem_cons.1 hx with rfl | hx
        · exact id
        · exact hrep.2 x hx
      refine absurd (atcmdReceiveDataExit_isExit p p.len done drop) (hno _ ?_)
      rw [hout']
      exact List.mem_append_right _ (List.mem_singleton.2 rfl)

/-! ## The messages in flight -/

/-- What the host has heard since it sent the command for a chunk. -/
def HeardAll (s : Download φ) : Prop :=
  Channel.Heard hostHear (none, .clear) (replies s.target.rx.out) (s.ret, s.flags) s.toHost

/-- The data of a chunk in flight. -/
def dataMsgs (unsent : Bytes) : List HostMsg := if unsent = [] then [] else [.data unsent]

/-- The host has sent `data` of the chunk at `off`, and the target has a session for it. -/
structure Sending (im : Image) (off : ℕ) (data : Bytes) (s : Download φ) : Prop where
  session : ∃ p taken n unsent, ForChunk im off p ∧ Live p taken n s.target.rx
    ∧ taken ++ s.target.rest ++ unsent = data
    ∧ s.toTarget = dataMsgs unsent
  heard : HeardAll s
  idle : ∃ l, replies s.target.rx.out = .ok :: l ∧ ∀ x ∈ l, IsIdle x
  has : Has im off s.target.rx.env

/-- The target has taken the chunk at `off` to its end. -/
structure Sent (im : Image) (off : ℕ) (s : Download φ) : Prop where
  toTarget : s.toTarget = []
  heard : HeardAll s
  ended : ∃ l o, replies s.target.rx.out = .ok :: (l ++ o) ∧ (∀ x ∈ l, IsIdle x)
    ∧ Ended im off o s.target

theorem dataMsgs_inj {l l' : Bytes} (h : dataMsgs l = dataMsgs l') : l = l' := by
  unfold dataMsgs at h
  split_ifs at h with h1 h2 h2
  · rw [h1, h2]
  · simpa using h

/-- A step of the target's session adds to what the host has not heard yet. -/
theorem HeardAll.session {s s' : Download φ} {S : Sink (FirmwareLog φ)} {i : Input} {o : List Out}
    (h : HeardAll s) (hs : s.session S i = some s')
    (ho : s'.target.rx.out = s.target.rx.out ++ o) : HeardAll s' := by
  unfold Download.session at hs
  obtain ⟨T', -, rfl⟩ := Option.map_eq_some_iff.1 hs
  dsimp only at ho
  unfold HeardAll
  simp only [ho, List.drop_left, replies_append]
  exact h.send (replies o)

theorem Sending.session_step {off : ℕ} {data : Bytes} {s s₀ s' : Download φ} {i : Input}
    (h : Sending im off data s) (unsent : Bytes) (ho : IsOffset im off)
    (hpre : data <+: im.chunk off) (hs : s₀.session (firmwareSink D S) i = some s')
    (htarget : s₀.target = s.target) (hheard : HeardAll s₀)
    (hexit : ∀ now, i = .turn now → s.target.rx.mode.idle = true → ∀ j,
      exitScan s.target.rx.mode.params.exit s.target.rx.cntExitCmd 0 s.target.rest ≠ .matched j)
    (hun : s.toTarget = dataMsgs (i.received ++ unsent)) (hto : s₀.toTarget = dataMsgs unsent) :
    Sending im off data s' ∨ data = im.chunk off ∧ Sent im off s' := by
  obtain ⟨p, taken, n, unsent₀, hp, hl, hdata, hto₀⟩ := h.session
  obtain ⟨l, hrep, hidle⟩ := h.idle
  have hs' := hs
  unfold Download.session at hs
  rw [htarget] at hs
  obtain ⟨T', hT, rfl⟩ := Option.map_eq_some_iff.1 hs
  have hdata' : taken ++ s.target.rest ++ i.received ++ unsent = data := by
    rw [← hdata, ← dataMsgs_inj (hun.symm.trans hto₀)]
    simp
  rw [hl.params] at hexit
  rcases chunk_step ho hp hl hT hexit h.has hdata' hpre with
    ⟨taken', n', o, hl', ht, hhas, hout, hio⟩ | ⟨o, hout, hnil, hfull, hend⟩
  · left
    refine ⟨⟨p, taken', n', unsent, hp, hl', by rw [ht]; exact hdata', hto⟩, ?_, ?_, hhas⟩
    · exact hheard.session hs' (by rw [htarget]; exact hout)
    · refine ⟨l ++ replies o, ?_, ?_⟩
      · rw [hout, replies_append, hrep]
        rfl
      · intro x hx
        rcases List.mem_append.1 hx with hx | hx
        · exact hidle x hx
        · exact hio x hx
  · right
    refine ⟨hfull, by rw [hto, hnil]; rfl, ?_, l, replies o, ?_, hidle, hend⟩
    · exact hheard.session hs' (by rw [htarget]; exact hout)
    · rw [hout, replies_append, hrep]
      rfl

/-- The return of a command is in flight, or has arrived. -/
def Told (ok : Bool) (s : Download φ) : Prop :=
  (s.toHost = [if ok then .ok else .error] ∧ s.ret = none) ∨ (s.toHost = [] ∧ s.ret = some ok)

/-- The host waits for the return of `c`, which is in flight while the target meets `P`. The target
meets `Q` once it has returned `OK`. -/
structure Waits (s : Download φ) (c : HostCmd) (P Q : FirmwareLog φ → Prop) : Prop where
  calm : Calm s.target
  state : (s.toTarget = [.cmd c] ∧ s.toHost = [] ∧ s.ret = none ∧ P s.target.rx.env)
    ∨ (s.toTarget = [] ∧ ∃ ok, Told ok s ∧ (ok = true → Q s.target.rx.env))

theorem Waits.head {s : Download φ} {c : HostCmd} {P Q : FirmwareLog φ → Prop}
    (h : Waits s c P Q) : (s.toTarget.head?.map HostMsg.isData).getD false = false := by
  rcases h.state with ⟨ht, -⟩ | ⟨ht, -⟩ <;> rw [ht] <;> rfl

/-- Between two sessions the target takes commands only. -/
theorem calm_step {s s' : Download φ} {i : DownloadInput φ} (hc : Calm s.target)
    (hd : (s.toTarget.head?.map HostMsg.isData).getD false = false)
    (hs : downloadStep D S timeout im s i = some s') :
    i = .host ∨ i = .giveUp ∨ i = .deliver ∨ ∃ now, i = .command now := by
  cases i with
  | host => exact Or.inl rfl
  | giveUp => exact Or.inr (Or.inl rfl)
  | deliver => exact Or.inr (Or.inr (Or.inl rfl))
  | command now => exact Or.inr (Or.inr (Or.inr ⟨now, rfl⟩))
  | receive n =>
    simp only [downloadStep] at hs
    split at hs
    · split_ifs at hs <;> simp [Download.session, sessionStep, hc.enable] at hs
    · cases hs
  | turn now => simp [downloadStep, Download.session, sessionStep, hc.enable] at hs
  | tick now => simp [downloadStep, Download.session, sessionStep, hc.enable] at hs
  | misread out T => simp [downloadStep, hc.rest, hd] at hs

theorem Told.deliver {ok : Bool} {s s' : Download φ} (h : Told ok s)
    (hs : downloadStep D S timeout im s .deliver = some s') :
    Told ok s' ∧ s'.toTarget = s.toTarget ∧ s'.target = s.target := by
  simp only [downloadStep] at hs
  rcases h with ⟨ht, -⟩ | ⟨ht, -⟩
  · rw [ht] at hs
    simp only [Option.some.injEq] at hs
    subst hs
    refine ⟨Or.inr ⟨rfl, ?_⟩, rfl, rfl⟩
    cases ok <;> rfl
  · rw [ht] at hs
    cases hs

theorem Waits.deliver {s s' : Download φ} {c : HostCmd} {P Q : FirmwareLog φ → Prop}
    (h : Waits s c P Q) (hs : downloadStep D S timeout im s .deliver = some s') :
    Waits s' c P Q := by
  rcases h.state with ⟨-, ht, -⟩ | ⟨ht, ok, htold, hQ⟩
  · simp [downloadStep, ht] at hs
  · obtain ⟨h1, h2, h3⟩ := htold.deliver hs
    exact ⟨by rw [h3]; exact h.calm, Or.inr ⟨h2.trans ht, ok, h1, by rw [h3]; exact hQ⟩⟩

/-- The target takes the command the host waits for. -/
theorem Waits.command {s s' : Download φ} {c : HostCmd} {P Q : FirmwareLog φ → Prop}
    {now : UInt32} (h : Waits s c P Q)
    (hs : downloadStep D S timeout im s (.command now) = some s') :
    P s.target.rx.env ∧ s' =
      { s with
        toTarget := [], toHost := [(targetCommand D timeout now s.target c).2]
        target := (targetCommand D timeout now s.target c).1 } ∧ s.ret = none := by
  rcases h.state with ⟨ht, hh, hret, hP⟩ | ⟨ht, -⟩
  · simp only [downloadStep, ht, h.calm.enable, h.calm.rest, and_self, if_true, Option.some.injEq,
      hh, List.nil_append] at hs
    exact ⟨hP, hs.symm, hret⟩
  · simp [downloadStep, ht] at hs

/-! ## Each command -/

theorem updateSet_download {argv : List Bytes} {fw : Firmware φ}
    (h : (atcmdBasicFirmwareUpdateSet_ D argv fw).1 = .success) :
    (atcmdBasicFirmwareUpdateSet_ D argv fw).2.update.download = 0 := by
  unfold atcmdBasicFirmwareUpdateSet_ at *
  rcases hp : firmwareUpdateParams D fw.update argv with ret | ⟨size, crc32, verify⟩
  · rw [hp] at h
    have := firmwareUpdateParams_ne_success hp
    exact absurd h this
  · rfl

/-- Where the host is, the command it waits for, and what the target meets before and after it. -/
inductive WaitsFor (im : Image) :
    HostPc → HostCmd → (FirmwareLog φ → Prop) → (FirmwareLog φ → Prop) → Prop
  | updateReset : WaitsFor im .updateReset (.fwupdateSet [bytes "0"]) (fun _ => True)
      (fun _ => True)
  | updateSet : WaitsFor im .updateSet (.fwupdateSet im.updateArgv) (fun _ => True) (Has im 0)
  | updateGet : WaitsFor im .updateGet .fwupdateGet (Has im 0) (Has im 0)
  | downloadGet : WaitsFor im .downloadGet .fwbindlGet (Has im 0) (Has im 0)
  | downloadGetDone : WaitsFor im .downloadGetDone .fwbindlGet (Has im im.binData.length)
      (Has im im.binData.length)
  | updateGetDone : WaitsFor im .updateGetDone .fwupdateGet (Has im im.binData.length)
      (Has im im.binData.length)

theorem WaitsFor.command {pc : HostPc} {c : HostCmd} {P Q : FirmwareLog φ → Prop}
    (timeout now : UInt32) {T : Session (FirmwareLog φ)} (h : WaitsFor im pc c P Q) (hc : Calm T)
    (hP : P T.rx.env) :
    ∃ ok : Bool, (targetCommand D timeout now T c).2 = (if ok then .ok else .error)
      ∧ Calm (targetCommand D timeout now T c).1
      ∧ (ok = true → Q (targetCommand D timeout now T c).1.rx.env) := by
  have hset : ∀ argv, ∃ ok : Bool, (targetCommand D timeout now T (.fwupdateSet argv)).2
      = (if ok then .ok else .error) ∧ Calm (targetCommand D timeout now T (.fwupdateSet argv)).1
      ∧ (ok = true →
        Has im 0 (targetCommand D timeout now T (.fwupdateSet argv)).1.rx.env) := by
    intro argv
    refine ⟨decide ((atcmdBasicFirmwareUpdateSet_ D argv T.rx.env.fw).1 = .success), ?_,
      ⟨⟨hc.enable, hc.cntExitCmd⟩, hc.rest⟩, fun hok => ⟨?_, fun k hk => by omega⟩⟩
    · simp [targetCommand]
    · exact updateSet_download (of_decide_eq_true hok)
  cases h with
  | updateReset =>
    obtain ⟨ok, h1, h2, -⟩ := hset [bytes "0"]
    exact ⟨ok, h1, h2, fun _ => trivial⟩
  | updateSet => exact hset im.updateArgv
  | updateGet => exact ⟨true, rfl, hc, fun _ => hP⟩
  | downloadGet => exact ⟨true, rfl, hc, fun _ => hP⟩
  | downloadGetDone => exact ⟨true, rfl, hc, fun _ => hP⟩
  | updateGetDone => exact ⟨true, rfl, hc, fun _ => hP⟩

/-- The arguments of `AT+FWBINDL` for the chunk at `off`. -/
def chunkArgv (im : Image) (off : ℕ) : List Bytes :=
  [Decimal.ofNat off, Decimal.ofNat (im.length off)]

/-- `AT+FWBINDL` enables the data mode for the chunk when the target expects its offset, and fails
when it does not. -/
theorem downloadSet_chunk (timeout : UInt32) {off : ℕ} (u : FirmwareUpdate)
    (ho : IsOffset im off) :
    (u.download = .ofNat off → ∃ p, ForChunk im off p
        ∧ atcmdBasicFirmwareDownloadSet_ timeout u (chunkArgv im off) = .ok (some p))
      ∧ (u.download ≠ .ofNat off →
        atcmdBasicFirmwareDownloadSet_ timeout u (chunkArgv im off) = .error .inval) := by
  have hlen := ho.length
  have himg := im.binSize_lt
  have hnat : (UInt32.ofNat (im.length off)).toNat = im.length off := by
    rw [UInt32.toNat_ofNat']
    exact Nat.mod_eq_of_lt (by omega)
  have hok : ¬ (UInt32.ofNat (im.length off) = 0
      ∨ atcmdDataLenMax < (UInt32.ofNat (im.length off)).toNat) := by
    rw [hnat]
    rintro (h | h)
    · have := congrArg UInt32.toNat h
      rw [hnat, UInt32.toNat_zero] at this
      omega
    · unfold atcmdDataLenMax at h
      omega
  unfold atcmdBasicFirmwareDownloadSet_ chunkArgv
  simp only [atcmdParamToUint32_ofNat (n := off) (by omega),
    atcmdParamToUint32_ofNat (n := im.length off) (by omega), if_neg hok]
  constructor
  · intro h
    rw [if_pos h.symm]
    exact ⟨_, ⟨rfl, rfl, hnat⟩, rfl⟩
  · intro h
    rw [if_neg (Ne.symm h)]

/-! ## The invariant -/

/-- What holds between the steps of host and target. -/
inductive Inv (im : Image) (s : Download φ) : Prop
  | waits {c : HostCmd} {P Q : FirmwareLog φ → Prop} (hw : WaitsFor im s.pc c P Q)
      (h : Waits s c P Q)
  | request {off : ℕ} (hpc : s.pc = .chunk off) (ho : IsOffset im off) (hf : s.flags = .clear)
      (h : Waits s (.fwbindlSet (chunkArgv im off))
        (fun e => Has im off e ∨ e.fw.update.download ≠ .ofNat off) (fun _ => False))
  | opened {off : ℕ} (hpc : s.pc = .chunk off) (ho : IsOffset im off) (h : Sending im off [] s)
  | sending {off : ℕ} (hpc : s.pc = .poll off) (ho : IsOffset im off)
      (h : Sending im off (im.chunk off) s)
  | sent {off : ℕ} (hpc : s.pc = .poll off) (ho : IsOffset im off) (h : Sent im off s)
  | abort (hpc : s.pc = .abort)
  | failed (hpc : s.pc = .done (-1))
  | done (hpc : s.pc = .done 0) (hc : Calm s.target) (ht : s.toTarget = [])
      (h : Has im im.binData.length s.target.rx.env)

/-- Only the host moves the host. -/
theorem pc_step {s s' : Download φ} {i : DownloadInput φ}
    (hs : downloadStep D S timeout im s i = some s') (hh : i ≠ .host) (hg : i ≠ .giveUp) :
    s'.pc = s.pc := by
  have hsession : ∀ {s s' : Download φ} {i : Input},
      s.session (firmwareSink D S) i = some s' → s'.pc = s.pc := by
    intro s s' i h
    obtain ⟨T, -, rfl⟩ := Option.map_eq_some_iff.1 h
    rfl
  cases i with
  | host => exact absurd rfl hh
  | giveUp => exact absurd rfl hg
  | deliver =>
    simp only [downloadStep] at hs
    split at hs
    · cases hs
    · simp only [Option.some.injEq] at hs
      rw [← hs]
  | command now =>
    simp only [downloadStep] at hs
    split at hs
    · split_ifs at hs
      simp only [Option.some.injEq] at hs
      rw [← hs]
    · cases hs
  | receive n =>
    simp only [downloadStep] at hs
    split at hs
    · split_ifs at hs
      · have hpc := hsession hs
        exact hpc
      · have hpc := hsession hs
        exact hpc
    · cases hs
  | turn now => exact hsession hs
  | tick now => exact hsession hs
  | misread out T =>
    simp only [downloadStep] at hs
    split_ifs at hs <;> (simp only [Option.some.injEq] at hs; rw [← hs])

theorem deliver_eq {s s' : Download φ} (hs : downloadStep D S timeout im s .deliver = some s') :
    ∃ m toHost, s.toHost = m :: toHost ∧ s' =
      { s with
        ret := (hostHear (s.ret, s.flags) m).1, flags := (hostHear (s.ret, s.flags) m).2
        toHost := toHost } := by
  simp only [downloadStep] at hs
  split at hs
  · cases hs
  · rename_i m toHost hm
    simp only [Option.some.injEq] at hs
    exact ⟨m, toHost, hm, hs.symm⟩

theorem HeardAll.deliver {s s' : Download φ} (h : HeardAll s)
    (hs : downloadStep D S timeout im s .deliver = some s') :
    HeardAll s' ∧ s'.target = s.target ∧ s'.toTarget = s.toTarget := by
  obtain ⟨m, toHost, hm, rfl⟩ := deliver_eq hs
  refine ⟨?_, rfl, rfl⟩
  unfold HeardAll at *
  rw [hm] at h
  exact h.deliver

/-- While the target has a session for the chunk, its session is what takes steps. -/
theorem Sending.step {off : ℕ} {data : Bytes} {s s' : Download φ} {i : DownloadInput φ}
    (h : Sending im off data s) (ho : IsOffset im off) (hpre : data <+: im.chunk off)
    (hC : ¬ Misjudges im s i) (hs : downloadStep D S timeout im s i = some s') (hh : i ≠ .host)
    (hg : i ≠ .giveUp) :
    Sending im off data s' ∨ data = im.chunk off ∧ Sent im off s' := by
  obtain ⟨p, taken, n, unsent, hp, hl, hdata, hto⟩ := h.session
  cases i with
  | host => exact absurd rfl hh
  | giveUp => exact absurd rfl hg
  | deliver =>
    obtain ⟨hheard, h1, h2⟩ := h.heard.deliver hs
    left
    refine ⟨⟨p, taken, n, unsent, hp, ?_, ?_, h2.trans hto⟩, hheard, ?_, ?_⟩
    · rw [h1]
      exact hl
    · rw [h1]
      exact hdata
    · rw [h1]
      exact h.idle
    · rw [h1]
      exact h.has
  | command now =>
    simp only [downloadStep, hto, dataMsgs] at hs
    split_ifs at hs
  | receive m =>
    by_cases hn : unsent = []
    · simp [downloadStep, hto, dataMsgs, hn] at hs
    have hto' : s.toTarget = [.data unsent] := by rw [hto, dataMsgs, if_neg hn]
    simp only [downloadStep, hto'] at hs
    by_cases hm : 0 < m ∧ m ≤ (HostMsg.data unsent).bytes.length
    swap
    · rw [if_neg hm] at hs
      cases hs
    rw [if_pos hm] at hs
    by_cases hall : m = (HostMsg.data unsent).bytes.length
    · rw [if_pos hall] at hs
      refine h.session_step [] ho hpre hs rfl h.heard (fun now h => by cases h) ?_ rfl
      rw [hto, hall, List.append_nil, Input.received, List.take_length, HostMsg.bytes]
    · rw [if_neg hall] at hs
      refine h.session_step (unsent.drop m) ho hpre hs rfl h.heard
        (fun now h => by cases h) ?_ ?_
      · rw [hto, Input.received, HostMsg.bytes, List.take_append_drop]
      · rw [HostMsg.bytes] at hm hall
        rw [dataMsgs, if_neg (by rw [List.drop_eq_nil_iff]; omega)]
        rfl
  | turn now =>
    refine h.session_step unsent ho hpre hs rfl h.heard ?_ hto hto
    intro _ _ hidle j hj
    exact hC ⟨hidle, by rw [hj]; trivial⟩
  | tick now =>
    exact h.session_step unsent ho hpre hs rfl h.heard
      (fun now h => by cases h) hto hto
  | misread out T => simp [downloadStep, hl.enable] at hs

theorem Sent.step {off : ℕ} {s s' : Download φ} {i : DownloadInput φ} (h : Sent im off s)
    (hs : downloadStep D S timeout im s i = some s') (hh : i ≠ .host) (hg : i ≠ .giveUp) :
    Sent im off s' := by
  obtain ⟨l, o, hrep, hidle, hend⟩ := h.ended
  rcases calm_step hend.toCalm (by rw [h.toTarget]; rfl) hs with rfl | rfl | rfl | ⟨now, rfl⟩
  · exact absurd rfl hh
  · exact absurd rfl hg
  · obtain ⟨hheard, h1, h2⟩ := h.heard.deliver hs
    exact ⟨h2.trans h.toTarget, hheard, l, o, by rw [h1]; exact hrep, hidle, by rw [h1]; exact hend⟩
  · simp [downloadStep, h.toTarget] at hs

/-- The target takes the command for a chunk. -/
theorem request_command {off : ℕ} {s s' : Download φ} {now : UInt32} (hf : s.flags = .clear)
    (ho : IsOffset im off)
    (h : Waits s (.fwbindlSet (chunkArgv im off))
      (fun e => Has im off e ∨ e.fw.update.download ≠ .ofNat off) (fun _ => False))
    (hs : downloadStep D S timeout im s (.command now) = some s') :
    Waits s' (.fwbindlSet (chunkArgv im off))
        (fun e => Has im off e ∨ e.fw.update.download ≠ .ofNat off) (fun _ => False)
      ∨ Sending im off [] s' := by
  obtain ⟨hP, rfl, hret⟩ := h.command hs
  obtain ⟨hgood, hbad⟩ := downloadSet_chunk timeout s.target.rx.env.fw.update ho
  rcases hP with hhas | hne
  · right
    obtain ⟨p, hp, hset⟩ := hgood hhas.download
    have hquiet := h.calm.toQuiet
    obtain ⟨T, hstart⟩ : ∃ T, sessionStart p now s.target.rx = some T := by
      simp [sessionStart, atcmdDataModeEnable, hquiet.enable]
    have htc : targetCommand D timeout now s.target (.fwbindlSet (chunkArgv im off)) = (T, .ok) := by
      simp only [targetCommand, hset, hstart]
    have hposed : p.Posed := by
      have hlen := ho.length
      unfold DataModeParams.Posed
      rw [hp.len]
      exact fun _ => ⟨hlen.1, hlen.2.1⟩
    have hprog := Progress.start hquiet hposed hstart
    obtain ⟨hrest, hrx⟩ := sessionStart_eq_some hstart
    have hrep : replies T.rx.out = [.ok] := by
      rw [hrx]
      rfl
    simp only [htc]
    rcases hprog with ⟨taken, ht, hl | hc⟩ | ⟨_, _, he⟩
    · have htaken : taken = [] := by
        have := congrArg List.length ht
        simp only [received, List.map_nil, List.flatten_nil, List.length_nil,
          List.length_append] at this
        exact List.length_eq_zero_iff.1 (by omega)
      refine ⟨⟨p, taken, 0, [], hp, hl, by simp [htaken, hrest], rfl⟩, ?_, ⟨[], hrep, by simp⟩, ?_⟩
      · unfold HeardAll
        simp only [hrep, hret, hf]
        exact (Heard.start hostHear (none, HostFlags.clear)).send [.ok]
      · rw [hrx]
        exact hhas
    · have := hc.enable
      rw [hrx] at this
      cases this
    · have := he.enable
      rw [hrx] at this
      cases this
  · left
    have htc : targetCommand D timeout now s.target (.fwbindlSet (chunkArgv im off))
        = (s.target, .error) := by
      simp only [targetCommand, hbad hne]
    simp only [htc]
    exact ⟨h.calm, Or.inr ⟨rfl, false, Or.inl ⟨rfl, hret⟩, by simp⟩⟩

/-- A step of the target, or of the messages, keeps the invariant. -/
theorem Inv.target_step {s s' : Download φ} {i : DownloadInput φ} (h : Inv im s)
    (hC : ¬ Misjudges im s i) (hs : downloadStep D S timeout im s i = some s') (hh : i ≠ .host)
    (hg : i ≠ .giveUp) : Inv im s' := by
  have hpc := pc_step hs hh hg
  rcases h with ⟨hw, h⟩ | ⟨hp, ho, hf, h⟩ | ⟨hp, ho, h⟩ | ⟨hp, ho, h⟩ | ⟨hp, ho, h⟩ | hp | hp |
    ⟨hp, hc, ht, h⟩
  · rcases calm_step h.calm h.head hs with rfl | rfl | rfl | ⟨now, rfl⟩
    · exact absurd rfl hh
    · exact absurd rfl hg
    · exact .waits (by rw [hpc]; exact hw) (h.deliver hs)
    · obtain ⟨hP, rfl, hret⟩ := h.command hs
      obtain ⟨ok, hr, hcalm, hQ⟩ := hw.command (D := D) timeout now h.calm hP
      exact .waits hw ⟨hcalm, Or.inr ⟨rfl, ok, Or.inl ⟨by rw [hr], hret⟩, hQ⟩⟩
  · rcases calm_step h.calm h.head hs with rfl | rfl | rfl | ⟨now, rfl⟩
    · exact absurd rfl hh
    · exact absurd rfl hg
    · refine .request (hpc.trans hp) ho ?_ (h.deliver hs)
      obtain ⟨m, toHost, hm, rfl⟩ := deliver_eq hs
      rcases h.state with ⟨-, ht, -⟩ | ⟨-, ok, htold, -⟩
      · rw [ht] at hm
        cases hm
      · rcases htold with ⟨ht, -⟩ | ⟨ht, -⟩
        · rw [ht] at hm
          simp only [List.cons.injEq] at hm
          rw [← hm.1]
          cases ok <;> exact hf
        · rw [ht] at hm
          cases hm
    · rcases request_command hf ho h hs with h' | h'
      · refine .request (hpc.trans hp) ho ?_ h'
        obtain ⟨-, rfl, -⟩ := h.command hs
        exact hf
      · exact .opened (hpc.trans hp) ho h'
  · rcases h.step ho (List.nil_prefix) hC hs hh hg with h | ⟨hnil, -⟩
    · exact .opened (hpc.trans hp) ho h
    · have := ho.length_chunk
      have := ho.length
      rw [← hnil] at *
      simp at *
      omega
  · rcases h.step ho List.prefix_rfl hC hs hh hg with h | ⟨-, h⟩
    · exact .sending (hpc.trans hp) ho h
    · exact .sent (hpc.trans hp) ho h
  · exact .sent (hpc.trans hp) ho (h.step hs hh hg)
  · exact .abort (hpc.trans hp)
  · exact .failed (hpc.trans hp)
  · rcases calm_step hc (by rw [ht]; rfl) hs with rfl | rfl | rfl | ⟨now, rfl⟩
    · exact absurd rfl hh
    · exact absurd rfl hg
    · obtain ⟨m, toHost, hm, rfl⟩ := deliver_eq hs
      exact .done hp hc ht h
    · simp [downloadStep, ht] at hs

/-! ## The host goes on -/

def isDone : Reply → Bool
  | .bevent (.fwbindlDone _) => true
  | _ => false

def isDrop : Reply → Bool
  | .bevent (.fwbindlDrop _) => true
  | _ => false

theorem hear_flags : ∀ (l : List Reply) (b : Option Bool × HostFlags),
    (l.foldl hostHear b).2.done = (b.2.done || l.any isDone)
      ∧ (l.foldl hostHear b).2.drop = (b.2.drop || l.any isDrop)
  | [], b => by simp
  | m :: l, b => by
    obtain ⟨h1, h2⟩ := hear_flags l (hostHear b m)
    rw [List.foldl_cons, h1, h2, List.any_cons, List.any_cons, ← Bool.or_assoc, ← Bool.or_assoc]
    have hm : (hostHear b m).2.done = (b.2.done || isDone m)
        ∧ (hostHear b m).2.drop = (b.2.drop || isDrop m) := by
      rcases m with _ | _ | e | e
      · simp [hostHear, isDone, isDrop]
      · simp [hostHear, isDone, isDrop]
      · simp [hostHear, isDone, isDrop]
      · cases e <;>
          simp [hostHear, nrcAtcmdFirmwareDownloadEventCallback, isDone, isDrop]
    rw [hm.1, hm.2]
    exact ⟨rfl, rfl⟩

theorem idle_flags {l : List Reply} (h : ∀ x ∈ l, IsIdle x) :
    l.any isDone = false ∧ l.any isDrop = false := by
  simp only [List.any_eq_false]
  refine ⟨fun x hx => ?_, fun x hx => ?_⟩ <;>
  · have := h x hx
    unfold IsIdle at this
    split at this
    · simp [isDone, isDrop]
    · cases this

/-- The host has not heard of an end that the target has not come to. -/
theorem Sending.not_done {off : ℕ} {data : Bytes} {s : Download φ} (h : Sending im off data s) :
    s.flags.done = false := by
  obtain ⟨seen, hb, ht⟩ := h.heard
  obtain ⟨l, hl, hidle⟩ := h.idle
  have hd : (replies s.target.rx.out).any isDone = false := by
    rw [hl, List.any_cons, (idle_flags hidle).1]
    rfl
  rw [← ht, List.any_append, Bool.or_eq_false_iff] at hd
  have := (hear_flags seen (none, .clear)).1
  rw [← hb, hd.1] at this
  exact this

/-- The host that has heard `DONE` has heard everything, and so `DROP` if the chunk was dropped. -/
theorem Sent.done {off : ℕ} {s : Download φ} (h : Sent im off s) (hd : s.flags.done = true) :
    s.toHost = [] ∧ (Has im (off + im.length off) s.target.rx.env
      ∨ s.flags.drop = true ∧ s.target.rx.env.fw.update.download = .ofNat off) := by
  obtain ⟨l, o, hrep, hidle, hend⟩ := h.ended
  have hheard := h.heard
  unfold HeardAll at hheard
  -- `DONE` is the last event, and the only one that sets its flag
  have hlast : ∀ (init : List Reply) (m : Reply), replies s.target.rx.out = init ++ [m] →
      init.any isDone = false → s.toHost = [] := by
    intro init m hm hinit
    rw [hm] at hheard
    refine hheard.eq_nil_of_last (P := fun b => b.2.done = true) hd fun k => ?_
    rw [(hear_flags _ _).1]
    have : (init.take k).any isDone = false := by
      rw [List.any_eq_false] at hinit ⊢
      exact fun x hx => hinit x (List.mem_of_mem_take hx)
    rw [this]
    simp [HostFlags.clear]
  rcases hend.events with ⟨len, rfl, hhas⟩ | ⟨len, rfl, hdown⟩
  · refine ⟨hlast (.ok :: l) _ hrep ?_, Or.inl hhas⟩
    rw [List.any_cons, (idle_flags hidle).1]
    rfl
  · have hnil : s.toHost = [] := by
      refine hlast (.ok :: (l ++ [.bevent (.fwbindlDrop len)])) (.bevent (.fwbindlDone 0))
        (by rw [hrep]; simp) ?_
      rw [List.any_cons, List.any_append, (idle_flags hidle).1]
      rfl
    refine ⟨hnil, Or.inr ⟨?_, hdown⟩⟩
    rw [hnil] at hheard
    have hall := congrArg (fun b => b.2.drop) hheard.all
    simp only [(hear_flags _ _).2, hrep] at hall
    rw [hall, List.any_cons, List.any_append]
    simp [isDrop]

theorem Waits.told {s : Download φ} {c : HostCmd} {P Q : FirmwareLog φ → Prop} {ok : Bool}
    (h : Waits s c P Q) (hret : s.ret = some ok) :
    s.toTarget = [] ∧ s.toHost = [] ∧ (ok = true → Q s.target.rx.env) := by
  rcases h.state with ⟨-, -, hn, -⟩ | ⟨ht, ok', htold, hQ⟩
  · rw [hn] at hret
    cases hret
  · rcases htold with ⟨-, hn⟩ | ⟨hh, hn⟩
    · rw [hn] at hret
      cases hret
    · rw [hn, Option.some.injEq] at hret
      exact ⟨ht, hh, hret ▸ hQ⟩

theorem Waits.send {s : Download φ} {c : HostCmd} {P Q : FirmwareLog φ → Prop} {pc : HostPc}
    (hc : Calm s.target) (ht : s.toTarget = []) (hh : s.toHost = []) (hP : P s.target.rx.env) :
    Waits (s.sendCmd c pc) c P Q :=
  ⟨hc, Or.inl ⟨by simp [Download.sendCmd, ht], hh, rfl, hP⟩⟩

/-- The host comes to the head of its loop. -/
theorem Inv.loop {s : Download φ} {off : ℕ} (hc : Calm s.target) (ht : s.toTarget = [])
    (hh : s.toHost = []) (ho : off < im.binData.length → IsOffset im off
      ∧ (Has im off s.target.rx.env ∨ s.target.rx.env.fw.update.download ≠ .ofNat off))
    (hend : im.binData.length ≤ off → Has im im.binData.length s.target.rx.env) :
    Inv im (s.loop im off) := by
  unfold Download.loop
  split_ifs with hlt
  · exact .request rfl (ho hlt).1 rfl (Waits.send hc ht hh (ho hlt).2)
  · exact .waits .downloadGetDone (Waits.send hc ht hh (hend (by omega)))

/-- The host that goes on after the return of a command. -/
theorem Inv.host_waits {s s' : Download φ} {c : HostCmd} {P Q : FirmwareLog φ → Prop}
    (hw : WaitsFor im s.pc c P Q) (h : Waits s c P Q) (hs : s.host im = some s') : Inv im s' := by
  have hhost : ∃ ok, s.ret = some ok ∧ (ok = false → s' = { s with pc := .done (-1) }) := by
    unfold Download.host at hs
    cases hpc : s.pc <;> rw [hpc] at hs hw <;> (try cases hw) <;>
    · obtain ⟨ok, hret, hs⟩ := Option.map_eq_some_iff.1 hs
      exact ⟨ok, hret, fun hok => by rw [hok] at hs; exact hs.symm⟩
  obtain ⟨ok, hret, hfail⟩ := hhost
  obtain ⟨ht, hh, hQ⟩ := h.told hret
  have hc := h.calm
  rcases ok with _ | _
  · rw [hfail rfl]
    exact .failed rfl
  have hQ := hQ rfl
  have hzero : ∀ off, Has im 0 s.target.rx.env → off = 0 →
      off < im.binData.length → IsOffset im off
        ∧ (Has im off s.target.rx.env ∨ s.target.rx.env.fw.update.download ≠ .ofNat off) := by
    rintro off h0 rfl hlt
    exact ⟨⟨hlt, dvd_zero _⟩, Or.inl h0⟩
  unfold Download.host at hs
  cases hpc : s.pc <;> rw [hpc] at hs hw <;> (try cases hw) <;>
    simp only [hret, Option.map_some, Option.some.injEq, Bool.not_true, Bool.false_eq_true,
      if_false] at hs <;> subst hs
  · exact .waits .updateSet (Waits.send hc ht hh trivial)
  · exact .waits .updateGet (Waits.send hc ht hh hQ)
  · exact .waits .downloadGet (Waits.send hc ht hh hQ)
  · refine Inv.loop hc ht hh (hzero 0 hQ rfl) fun hle => ?_
    have : im.binData.length = 0 := by omega
    rwa [this]
  · exact .waits .updateGetDone (Waits.send hc ht hh hQ)
  · exact .done rfl hc ht hQ

/-- The host goes on. -/
theorem Inv.host_step {s s' : Download φ} (h : Inv im s) (hC : ¬ Misjudges im s .host)
    (hs : s.host im = some s') : Inv im s' := by
  rcases h with ⟨hw, h⟩ | ⟨hp, ho, hf, h⟩ | ⟨hp, ho, h⟩ | ⟨hp, ho, h⟩ | ⟨hp, ho, h⟩ | hp | hp |
    ⟨hp, hc, ht, h⟩
  · exact Inv.host_waits hw h hs
  · -- the target refused the chunk
    simp only [Download.host, hp] at hs
    obtain ⟨ok, hret, hs⟩ := Option.map_eq_some_iff.1 hs
    obtain ⟨-, -, hQ⟩ := h.told hret
    rcases ok with _ | _
    · subst hs
      exact .failed rfl
    · exact (hQ rfl).elim
  · -- the host sends the data
    rename_i off
    simp only [Download.host, hp] at hs
    obtain ⟨ok, hret, hs⟩ := Option.map_eq_some_iff.1 hs
    obtain ⟨p, taken, n, unsent, hfor, hl, hdata, hto⟩ := h.session
    simp only [List.append_eq_nil_iff] at hdata
    obtain ⟨⟨rfl, hrest⟩, rfl⟩ := hdata
    rcases ok with _ | _
    · subst hs
      exact .failed rfl
    · subst hs
      refine .sending rfl ho ⟨⟨p, [], n, im.chunk off, hfor, hl, by simp [hrest], ?_⟩, h.heard,
        h.idle, h.has⟩
      have hne : im.chunk off ≠ [] := by
        rw [Ne, ← List.length_eq_zero_iff, ho.length_chunk]
        have := ho.length
        omega
      simp only [hto, dataMsgs, if_true, List.nil_append, if_neg hne]
      rfl
  · -- nothing has ended yet
    simp only [Download.host, hp, h.not_done] at hs
    split_ifs at hs
    · simp only [Option.some.injEq] at hs
      subst hs
      exact .abort rfl
    · rename_i hd
      exact absurd rfl hd
  · simp only [Download.host, hp] at hs
    split_ifs at hs with hclear hdone
    · simp only [Option.some.injEq] at hs
      subst hs
      exact .abort rfl
    · simp only [Option.some.injEq] at hs
      subst hs
      rename_i off
      obtain ⟨l, o, -, -, hend⟩ := h.ended
      have hd : s.flags.done = true := by simpa using hdone
      obtain ⟨hh, hcase⟩ := h.done hd
      have hlen := ho.length
      rcases hcase with hhas | ⟨hdrop, hdown⟩
      · refine Inv.loop hend.toCalm h.toTarget hh (fun hlt => ⟨ho.next hlt, Or.inl hhas⟩) ?_
        intro hle
        have : im.binData.length = off + im.length off := Nat.le_antisymm hle hlen.2.2
        rwa [this]
      · -- a dropped chunk was not the last, and the next one comes at the wrong offset
        have hlt : off + im.length off < im.binData.length := by
          rw [← Nat.not_le]
          exact fun hle => hC (by
            simp only [Misjudges, Download.MissesDrop, hp]
            exact ⟨hle, hdrop, hd⟩)
        refine Inv.loop hend.toCalm h.toTarget hh (fun hlt => ⟨ho.next hlt, Or.inr ?_⟩)
          (fun hle => absurd hlt (by omega))
        rw [hdown]
        intro heq
        have hnat := congrArg UInt32.toNat heq
        have himg := im.binSize_lt
        rw [UInt32.toNat_ofNat', UInt32.toNat_ofNat', Nat.mod_eq_of_lt (by omega),
          Nat.mod_eq_of_lt (by omega)] at hnat
        omega
  · simp only [Download.host, hp] at hs
    obtain ⟨ok, -, hs⟩ := Option.map_eq_some_iff.1 hs
    split_ifs at hs <;> (subst hs; exact .failed rfl)
  · simp [Download.host, hp] at hs
  · simp [Download.host, hp] at hs

theorem Inv.step {s s' : Download φ} {i : DownloadInput φ} (h : Inv im s)
    (hC : ¬ Misjudges im s i) (hs : downloadStep D S timeout im s i = some s') : Inv im s' := by
  by_cases hh : i = .host
  · subst hh
    exact h.host_step hC hs
  by_cases hg : i = .giveUp
  · subst hg
    simp only [downloadStep] at hs
    split at hs
    · cases hs
    · simp only [Option.some.injEq] at hs
      subst hs
      exact .failed rfl
  exact h.target_step hC hs hh hg

/-! ## Whole downloads -/

/-- When `nrc_atcmd_firmware_download` returns zero, the target has the whole image, each chunk of it
accepted at its offset, unless the host took the two events of a dropped last chunk for success or
the target took data for the exit command. -/
theorem firmware_download_agrees {fw : Firmware φ} {flags : HostFlags}
    {rx : Receiver (FirmwareLog φ)} {s : Download φ} {is : List (DownloadInput φ)}
    (hrx : Ready (firmwareSink D S) rx)
    (hC : Along (downloadStep D S timeout im) (fun s i => ¬ Misjudges im s i)
      (downloadStart fw flags rx) is)
    (hr : run (downloadStep D S timeout im) (downloadStart fw flags rx) is = some s)
    (hret : s.pc = .done 0) :
    s.target.rx.env.fw.update.download = .ofNat im.binData.length
      ∧ ∀ k, k * 4096 < im.binData.length →
        (UInt32.ofNat (k * 4096), (im.binData.drop (k * 4096)).take 4096)
          ∈ s.target.rx.env.accepted := by
  have hq := hrx.quiet
  have hstart : Inv im (downloadStart fw flags rx) :=
    .waits .updateReset ⟨⟨⟨hq.enable, hq.cntExitCmd⟩, rfl⟩, Or.inl ⟨rfl, rfl, rfl, trivial⟩⟩
  have hinv := run_along (P := Inv im) (fun _ _ _ h hC hs => h.step hC hs) hstart hC hr
  rcases hinv with ⟨hw, -⟩ | ⟨hp, -⟩ | ⟨hp, -⟩ | ⟨hp, -⟩ | ⟨hp, -⟩ | hp | hp | ⟨-, -, -, h⟩
  · rw [hret] at hw
    cases hw
  · rw [hret] at hp
    cases hp
  · rw [hret] at hp
    cases hp
  · rw [hret] at hp
    cases hp
  · rw [hret] at hp
    cases hp
  · rw [hret] at hp
    cases hp
  · rw [hret] at hp
    cases hp
  · exact ⟨h.download, h.accepted⟩

/-- A chip that never fails, or whose writes fail. -/
def flashOf (ok : Bool) : UtilFota NorFlash :=
  { norFlash with
    write := fun off buf x => if ok then norFlash.write off buf x else (-1, x)
    write_cells := fun off buf x i h => by
      cases ok
      · rfl
      · exact norFlash.write_cells off buf x i h
    write_info := fun off buf x => by cases ok <;> rfl }

/-- The image `abcd`. -/
def image : Image where
  binData := bytes "abcd"
  binSize_lt := by decide
  binCrc32 := 0xed82cd11
  verify := 0

/-- Sinks that are not there. -/
def noSink : Sink (FirmwareLog NorFlash) :=
  ⟨fun _ _ e => (0, e), fun _ e => (0, e), fun _ _ e => (0, e)⟩

/-- A download of one chunk, whose events the host hears before it polls. -/
def wholeRun (events : ℕ) : List (DownloadInput NorFlash) :=
  [.command 1, .deliver, .host, .command 2, .deliver, .host, .command 3, .deliver, .host,
    .command 4, .deliver, .host, .command 5, .deliver, .host, .receive 1, .turn 6, .receive 3,
    .turn 7] ++ List.replicate events .deliver
    ++ [.host, .command 8, .deliver, .host, .command 9, .deliver, .host]

/-- The host downloads `abcd` to a target that was reset. -/
def imageStart : Download NorFlash :=
  downloadStart (.boot blank) .clear (.boot { fw := .boot blank, accepted := [] })

theorem firmware_download_agrees_image : ∃ s : Download NorFlash,
    run (downloadStep (flashOf true) noSink 0 image) imageStart (wholeRun 1) = some s
      ∧ s.pc = .done 0 ∧ s.target.rx.env.fw.update.download = 4 := by
  have hdone : ((run (downloadStep (flashOf true) noSink 0 image) imageStart (wholeRun 1)).map
      fun s => s.pc) = some (.done 0) := by decide +kernel
  obtain ⟨s, hr, h⟩ := Option.map_eq_some_iff.1 hdone
  exact ⟨s, hr, h, (firmware_download_agrees (.boot _) (by decide +kernel) hr h).1⟩

/-- Every write fails. The host hears `DROP` and `DONE` of its only chunk before it polls, and returns
zero, while the target has accepted nothing. -/
theorem firmware_download_misses_drop : ∃ s : Download NorFlash,
    run (downloadStep (flashOf false) noSink 0 image) imageStart (wholeRun 2) = some s
      ∧ s.pc = .done 0 ∧ s.target.rx.env.fw.update.download = 0
      ∧ s.target.rx.env.accepted = [] := by
  have hdone : ((run (downloadStep (flashOf false) noSink 0 image) imageStart (wholeRun 2)).map
      fun s => decide (s.pc = .done 0 ∧ s.target.rx.env.fw.update.download = 0
        ∧ s.target.rx.env.accepted = [])) = some true := by decide +kernel
  obtain ⟨s, hr, h⟩ := Option.map_eq_some_iff.1 hdone
  exact ⟨s, hr, of_decide_eq_true h⟩

end NrcAtcmd
