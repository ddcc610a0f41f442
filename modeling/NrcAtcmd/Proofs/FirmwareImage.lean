import NrcAtcmd.FirmwareImage
import NrcAtcmd.Proofs.DataMode
import NrcAtcmd.Proofs.Firmware

/-!
# Where the image is written, and what it holds

A turn of a session either leaves the firmware area alone or hands one block to it, and then the
session is over. A block is written at the download counter once, or twice with an erase between;
the counter moves on by its length or stays.
-/

namespace NrcAtcmd

open Memory Machine

variable {ε φ : Type*}

/-! ## What a session hands over -/

theorem block_env {S : Sink ε} {now : UInt32} {len : ℕ} {block : Bytes} {rx : Receiver ε}
    (hen : rx.mode.enable = true) (hp : rx.mode.params.passthrough = false) :
    (atcmdReceiveDataBlock S now len block rx).mode.enable = false ∧
      (atcmdReceiveDataBlock S now len block rx).env
        = if block = [] then rx.env else (answer S rx.mode.params block rx.env).2 := by
  by_cases hb : block = []
  · subst hb
    simp [atcmdReceiveDataBlock, atcmdReceiveData_, hp, atcmdReceiveDataReport_eq,
      atcmdDataModeDisable, hen]
  · obtain ⟨ret, e, ha, hr⟩ := atcmdReceiveDataBlock_fixed S now len rx hb hp
    rw [hr, if_neg hb, ha]
    simp [atcmdDataModeDisable, hen]

/-- What a turn of a session without passthrough does to the state of the sinks. -/
theorem turn_env {S : Sink ε} {now : UInt32} {s s' : Session ε}
    (hp : s.rx.mode.params.passthrough = false) (hs : sessionStep S s (.turn now) = some s') :
    (s.handsOver = none ∧ s'.rx.env = s.rx.env
        ∧ (s'.rx.mode.enable = true → s'.rx.mode.params = s.rx.mode.params))
      ∨ ∃ block, s.handsOver = some block ∧ s'.rx.mode.enable = false ∧ s'.rx.env
        = if block = [] then s.rx.env else (answer S s.rx.mode.params block s.rx.env).2 := by
  simp only [sessionStep, Option.ite_none_right_eq_some, Option.some.injEq] at hs
  obtain ⟨⟨hen, hne⟩, rfl⟩ := hs
  have hbody : ∀ c, s.rx.mode.idle = false ∨ exitScan s.rx.mode.params.exit s.rx.cntExitCmd 0 s.rest
        = .mismatch → let r := atcmdReceiveDataBody S now s.rest { s.rx with cntExitCmd := c }
      (s.handsOver = none ∧ r.1.env = s.rx.env
          ∧ (r.1.mode.enable = true → r.1.mode.params = s.rx.mode.params))
        ∨ ∃ block, s.handsOver = some block ∧ r.1.mode.enable = false ∧ r.1.env
          = if block = [] then s.rx.env else (answer S s.rx.mode.params block s.rx.env).2 := by
    intro c hi
    have hidle : ¬ (s.rx.mode.idle = true
        ∧ exitScan s.rx.mode.params.exit s.rx.cntExitCmd 0 s.rest ≠ .mismatch) := by
      rintro ⟨h1, h2⟩
      rcases hi with hi | hi
      · rw [h1] at hi
        cases hi
      · exact h2 hi
    unfold atcmdReceiveDataBody Session.handsOver
    simp only [hp, hen, hne, hidle, Bool.false_and, Bool.false_eq_true, ↓reduceIte,
      Bool.not_true, List.isEmpty_iff, Bool.or_eq_true, or_self]
    by_cases hlen : s.rx.mode.cnt + s.rest.length < s.rx.mode.sendLen
    · left
      simp [hlen, atcmdDataModeContinue]
    · right
      by_cases hc : 0 < s.rx.mode.cnt
      · simp only [hlen, hc, ↓reduceIte]
        exact ⟨_, rfl, block_env (by simp) (by simpa using hp)⟩
      · simp only [hlen, hc, ↓reduceIte]
        exact ⟨_, rfl, block_env (by simpa using hen) (by simpa using hp)⟩
  unfold atcmdReceiveData
  simp only [hen, Bool.not_true, List.isEmpty_eq_false_iff.2 hne, Bool.or_self,
    Bool.false_eq_true, ↓reduceIte]
  by_cases hi : s.rx.mode.idle = true
  · simp only [hi, ↓reduceIte]
    rcases he : exitScan s.rx.mode.params.exit s.rx.cntExitCmd 0 s.rest with _ | j | c
    · exact hbody 0 (Or.inr he)
    · left
      refine ⟨by simp [Session.handsOver, hi, he], ?_, ?_⟩
      · exact (atcmdReceiveDataExit_fixed S now _ _ hen hp).1
      · intro h
        rw [(atcmdReceiveDataExit_fixed S now _ _ hen hp).2] at h
        cases h
    · left
      exact ⟨by simp [Session.handsOver, hi, he], rfl, fun _ => rfl⟩
  · rw [if_neg hi]
    exact hbody s.rx.cntExitCmd (Or.inl (by simpa using hi))

/-! ## The steps of the target -/

variable {D : UtilFota φ} {S : Sink (FirmwareLog φ)} {timeout : UInt32} {t t' : FirmwareTarget φ}
  {i : TargetInput}

/-- A session of the target is one for a chunk. -/
def FirmwareTarget.ForChunks (t : FirmwareTarget φ) : Prop :=
  t.session.rx.mode.enable = true → t.session.rx.mode.params.dataType = .fwbindl

/-- `_atcmd_firmware_download` of a block, and what it adds to the log. -/
def FirmwareLog.download (D : UtilFota φ) (S : Sink (FirmwareLog φ)) (block : Bytes)
    (e : FirmwareLog φ) : FirmwareLog φ := ((firmwareSink D S).atcmdFirmwareDownload block e).2

theorem handsOver_enable {s : Session ε} {block : Bytes} (h : block ∈ s.handsOver) :
    s.rx.mode.enable = true ∧ s.rest ≠ [] := by
  unfold Session.handsOver at h
  by_cases hen : (!s.rx.mode.enable || s.rest.isEmpty) = true
  · simp [hen] at h
  · simpa using hen

/-- The turn that hands a block over writes it. -/
theorem target_handsOver {block : Bytes} (hf : t.ForChunks) (hb : block ∈ t.session.handsOver)
    (hne : block ≠ []) (now : UInt32) :
    ∃ t', targetStep D S timeout t (.session (.turn now)) = some t'
      ∧ t'.ForChunks ∧ t'.session.rx.env = t.session.rx.env.download D S block
      ∧ t'.since = t.since := by
  obtain ⟨hen, hrest⟩ := handsOver_enable hb
  have hd := hf hen
  have hp : t.session.rx.mode.params.passthrough = false := by
    simp [DataModeParams.passthrough, hd]
  rcases hs : sessionStep (firmwareSink D S) t.session (.turn now) with _ | s'
  · simp [sessionStep, hen, hrest] at hs
  refine ⟨{ t with session := s' }, by simp [targetStep, hs], ?_⟩
  rcases turn_env hp hs with ⟨hn, -⟩ | ⟨block', hb', hen', henv⟩
  · rw [hn] at hb
    cases hb
  · rw [hb', Option.mem_def, Option.some.injEq] at hb
    subst hb
    refine ⟨fun h => ?_, ?_, rfl⟩
    · rw [hen'] at h
      cases h
    · rw [henv, if_neg hne]
      simp only [answer, hd]
      rfl

theorem updateSet_cases (argv : List Bytes) (fw : Firmware φ) :
    (atcmdBasicFirmwareUpdateSet_ D argv fw).1 = .success
        ∧ (atcmdBasicFirmwareUpdateSet_ D argv fw).2.update.download = 0
      ∨ (atcmdBasicFirmwareUpdateSet_ D argv fw).1 ≠ .success
        ∧ (atcmdBasicFirmwareUpdateSet_ D argv fw).2 = fw := by
  unfold atcmdBasicFirmwareUpdateSet_
  rcases h : firmwareUpdateParams D fw.update argv with ret | ⟨size, crc32, verify⟩
  · exact Or.inr ⟨firmwareUpdateParams_ne_success h, rfl⟩
  · exact Or.inl ⟨rfl, rfl⟩

theorem downloadSet_dataType {u : FirmwareUpdate} {argv : List Bytes} {p : DataModeParams}
    (h : atcmdBasicFirmwareDownloadSet_ timeout u argv = .ok (some p)) : p.dataType = .fwbindl := by
  unfold atcmdBasicFirmwareDownloadSet_ at h
  split at h
  · cases h
  · split at h
    · split_ifs at h <;>
        (simp only [Except.ok.injEq, Option.some.injEq] at h; rw [← h])
    · cases h
  · cases h

theorem targetCommand_fwbindlSet {now : UInt32} {argv : List Bytes} {s : Session (FirmwareLog φ)}
    (hen : s.rx.mode.enable = false) :
    (targetCommand D timeout now s (.fwbindlSet argv)).1.rx.env = s.rx.env ∧
      ((targetCommand D timeout now s (.fwbindlSet argv)).1.rx.mode.enable = true →
        (targetCommand D timeout now s (.fwbindlSet argv)).1.rx.mode.params.dataType = .fwbindl) := by
  simp only [targetCommand]
  split
  · exact ⟨rfl, fun h => by rw [hen] at h; cases h⟩
  · exact ⟨rfl, fun h => by rw [hen] at h; cases h⟩
  · rename_i p hd
    split
    · rename_i s' hst
      simp only [sessionStart, Option.map_eq_some_iff, atcmdDataModeEnable,
        Option.ite_none_left_eq_some, Option.some.injEq] at hst
      obtain ⟨m, ⟨-, rfl⟩, rfl⟩ := hst
      exact ⟨rfl, fun _ => downloadSet_dataType hd⟩
    · exact ⟨rfl, fun h => by rw [hen] at h; cases h⟩

/-- A step of the target leaves the firmware area alone, or begins a download, or writes a block. -/
theorem target_cases (hf : t.ForChunks) (hs : targetStep D S timeout t i = some t') :
    t'.ForChunks ∧
      ((t'.session.rx.env = t.session.rx.env ∧ t'.since = t.since)
        ∨ (∃ argv, (atcmdBasicFirmwareUpdateSet_ D argv t.fw).1 = .success
            ∧ t'.fw = (atcmdBasicFirmwareUpdateSet_ D argv t.fw).2
            ∧ t'.since = t'.session.rx.env)
        ∨ ∃ now block, i = .session (.turn now) ∧ block ∈ t.session.handsOver ∧ block ≠ []
            ∧ t'.session.rx.env = t.session.rx.env.download D S block
            ∧ t'.since = t.since) := by
  cases i with
  | command now c n =>
    simp only [targetStep] at hs
    split_ifs at hs with hen
    simp only [Option.some.injEq] at hs
    subst hs
    match c with
    | .at | .fwupdateGet | .fwbindlGet =>
      exact ⟨fun h => absurd h (by simpa [targetCommand] using hen), Or.inl ⟨rfl, rfl⟩⟩
    | .fwupdateSet argv =>
      refine ⟨fun h => absurd h (by simpa [targetCommand] using hen), ?_⟩
      rcases updateSet_cases (D := D) argv t.fw with ⟨hok, -⟩ | ⟨hok, hfw⟩
      · refine Or.inr (Or.inl ⟨argv, hok, rfl, ?_⟩)
        unfold FirmwareTarget.fw at hok
        simp only [targetCommand, hok, ↓reduceIte]
      · unfold FirmwareTarget.fw at hok hfw
        refine Or.inl ⟨?_, ?_⟩
        · simp only [targetCommand, hfw]
        · simp only [targetCommand, hok, ↓reduceIte]
    | .fwbindlSet argv =>
      obtain ⟨henv, hdata⟩ := targetCommand_fwbindlSet (D := D)
        (by simpa using hen)
      exact ⟨hdata, Or.inl ⟨henv, rfl⟩⟩
  | receive buf =>
    simp only [targetStep] at hs
    split_ifs at hs
    simp only [Option.some.injEq] at hs
    subst hs
    exact ⟨hf, Or.inl ⟨rfl, rfl⟩⟩
  | session j =>
    obtain ⟨s', hs', rfl⟩ := Option.map_eq_some_iff.1 hs
    cases j with
    | receive buf =>
      simp only [sessionStep, Option.ite_none_right_eq_some, Option.some.injEq] at hs'
      obtain ⟨-, rfl⟩ := hs'
      exact ⟨hf, Or.inl ⟨rfl, rfl⟩⟩
    | tick now =>
      simp only [sessionStep, Option.ite_none_right_eq_some, Option.some.injEq] at hs'
      obtain ⟨hen, rfl⟩ := hs'
      unfold FirmwareTarget.ForChunks atcmdDataModeTask
      dsimp only
      split_ifs <;> exact ⟨fun _ => hf hen, Or.inl ⟨rfl, rfl⟩⟩
    | turn now =>
      have hen : t.session.rx.mode.enable = true := by
        simp only [sessionStep, Option.ite_none_right_eq_some] at hs'
        exact hs'.1.1
      have hp : t.session.rx.mode.params.passthrough = false := by
        simp [DataModeParams.passthrough, hf hen]
      rcases turn_env hp hs' with ⟨-, henv, hpar⟩ | ⟨block, hb, hen', henv⟩
      · exact ⟨fun h => by rw [hpar h]; exact hf hen, Or.inl ⟨henv, rfl⟩⟩
      · refine ⟨fun h => absurd (hen'.symm.trans h) (by decide), ?_⟩
        by_cases hne : block = []
        · exact Or.inl ⟨by rw [henv, if_pos hne], rfl⟩
        · obtain ⟨t', ht, -, henv', -⟩ :=
            target_handsOver (D := D) (S := S) hf hb hne now
          rw [hs, Option.some.injEq] at ht
          exact Or.inr (Or.inr ⟨now, block, rfl, hb, hne, by rw [← henv', ← ht], rfl⟩)

/-- What a block does to the target. -/
theorem target_download {block : Bytes} (hne : block ≠ [])
    (he : t'.session.rx.env = t.session.rx.env.download D S block) :
    let r := firmwareDownloadLoop D t.fw.update.verify t.fw.update.download.toNat block t.fw.flash
    t'.fw.flash = r.2 ∧ t'.fw.update.size = t.fw.update.size ∧
      t'.fw.update.download
        = t.fw.update.download + (if r.1 = 0 then .ofNat block.length else 0) ∧
      t'.session.rx.env.accepted
        = t.session.rx.env.accepted ++ if r.1 = 0 then [(t.fw.update.download, block)] else [] := by
  have hlen : block.length ≠ 0 := by
    rwa [Ne, List.length_eq_zero_iff]
  unfold FirmwareTarget.fw
  rw [he]
  unfold FirmwareLog.download firmwareSink atcmdFirmwareDownload_
  dsimp only
  by_cases hr : (firmwareDownloadLoop D t.session.rx.env.fw.update.verify
    t.session.rx.env.fw.update.download.toNat block t.session.rx.env.fw.flash).1 = 0 <;>
    simp [hr, hne]

theorem toNat_add_ofNat {n : UInt32} {k : ℕ} (h : n.toNat + k < 2 ^ 32) :
    (n + .ofNat k).toNat = n.toNat + k := by
  rw [UInt32.toNat_add, UInt32.toNat_ofNat', Nat.mod_eq_of_lt (a := k) (by omega),
    Nat.mod_eq_of_lt h]

/-! ## Where it is written -/

theorem try_logged (verify : ℤ) (off : ℕ) (buf : Bytes) (x : φ × List (ℕ × ℕ)) :
    (firmwareDownloadTry D.logged verify off buf x).2.2 = x.2 ++ [(off, buf.length)] := by
  unfold firmwareDownloadTry atcmdFirmwareVerify_ UtilFota.logged
  dsimp only
  split_ifs <;> rfl

theorem loop_logged (verify : ℤ) (off : ℕ) (buf : Bytes) (x : φ × List (ℕ × ℕ)) :
    ∃ ws, (off, buf.length) ∈ ws ∧ (∀ w ∈ ws, w = (off, buf.length))
      ∧ (firmwareDownloadLoop D.logged verify off buf x).2.2 = x.2 ++ ws := by
  have htry := try_logged (D := D) verify off buf x
  have herase : ∀ y : φ × List (ℕ × ℕ), (D.logged.erase off buf.length y).2.2 = y.2 := fun _ => rfl
  unfold firmwareDownloadLoop
  dsimp only
  split_ifs
  · exact ⟨[(off, buf.length)], by simp, by simp, htry⟩
  · exact ⟨[(off, buf.length)], by simp, by simp, by rw [herase, htry]⟩
  · refine ⟨[(off, buf.length), (off, buf.length)], by simp, by simp, ?_⟩
    rw [try_logged, herase, htry, List.append_assoc, List.singleton_append]

/-- What the log of the driver holds besides the bounds. -/
structure FirmwareTarget.Written (t : FirmwareTarget (φ × List (ℕ × ℕ))) : Prop
    extends t.Bounded where
  forChunks : t.ForChunks
  log : ∃ ws, t.fw.flash.2 = t.since.fw.flash.2 ++ ws

theorem writes_eq {t : FirmwareTarget (φ × List (ℕ × ℕ))} {ws : List (ℕ × ℕ)}
    (h : t.fw.flash.2 = t.since.fw.flash.2 ++ ws) : t.writes = ws := by
  rw [FirmwareTarget.writes, h, List.drop_left]

section Written

variable {S : Sink (FirmwareLog (φ × List (ℕ × ℕ)))} {t t' : FirmwareTarget (φ × List (ℕ × ℕ))}

/-- A block adds its own writes to those since the last `AT+FWUPDATE`. -/
theorem writes_download {block : Bytes} (hw : t.Written) (hne : block ≠ [])
    (he : t'.session.rx.env = t.session.rx.env.download D.logged S block)
    (hs : t'.since = t.since) :
    ∃ ws, (t.fw.update.download.toNat, block.length) ∈ ws
      ∧ (∀ w ∈ ws, w = (t.fw.update.download.toNat, block.length))
      ∧ t'.writes = t.writes ++ ws ∧ ∃ ws', t'.fw.flash.2 = t'.since.fw.flash.2 ++ ws' := by
  obtain ⟨old, hold⟩ := hw.log
  obtain ⟨hflash, -⟩ := target_download hne he
  obtain ⟨ws, hmem, hall, hlog⟩ := loop_logged (D := D) t.fw.update.verify
    t.fw.update.download.toNat block t.fw.flash
  have hnew : t'.fw.flash.2 = t'.since.fw.flash.2 ++ (old ++ ws) := by
    rw [hs, ← List.append_assoc, ← hold, ← hlog, hflash]
  exact ⟨ws, hmem, hall, by rw [writes_eq hnew, writes_eq hold], _, hnew⟩

theorem Written.step {i : TargetInput} (hw : t.Written) (hc : ¬ Overruns t i)
    (hs : targetStep D.logged S timeout t i = some t') : t'.Written := by
  obtain ⟨hf, ⟨henv, hsince⟩ | ⟨argv, hok, hfw, hsince⟩ | ⟨now, block, rfl, hb, hne, henv, hsince⟩⟩ :=
    target_cases hw.forChunks hs
  · have hfw : t'.fw = t.fw := congrArg FirmwareLog.fw henv
    refine ⟨⟨by rw [hfw]; exact hw.download, ?_⟩, hf, by rw [hfw, hsince]; exact hw.log⟩
    unfold FirmwareTarget.writes
    rw [hfw, hsince]
    exact hw.writes
  · rcases updateSet_cases (D := D.logged) argv t.fw with ⟨-, hzero⟩ | ⟨hno, -⟩
    · have hlog : t'.fw.flash.2 = t'.since.fw.flash.2 ++ [] := by
        rw [hsince, List.append_nil]
        rfl
      refine ⟨⟨?_, ?_⟩, hf, [], hlog⟩
      · rw [hfw, hzero]
        exact UInt32.zero_le
      · rw [writes_eq hlog]
        simp
    · exact absurd hok hno
  · have hfit : t.fw.update.download.toNat + block.length ≤ t.fw.update.size.toNat := by
      by_contra hlt
      exact hc ⟨block, hb, by omega⟩
    obtain ⟨ws, -, hall, hnew, hlog⟩ := writes_download hw hne henv hsince
    obtain ⟨-, hsize, hd, -⟩ := target_download hne henv
    refine ⟨⟨?_, ?_⟩, hf, hlog⟩
    · rw [hsize, hd, UInt32.le_iff_toNat_le]
      have := t.fw.update.size.toNat_lt
      split_ifs
      · rwa [toNat_add_ofNat (by omega)]
      · simpa using UInt32.le_iff_toNat_le.1 hw.download
    · intro w hmem
      rw [hnew, List.mem_append] at hmem
      rw [hsize]
      rcases hmem with hmem | hmem
      · exact hw.writes w hmem
      · rw [hall w hmem]
        exact hfit

/-- A chunk that ends behind the size is written there. -/
theorem Written.overruns {i : TargetInput} (hw : t.Written) (hc : Overruns t i) :
    ∃ t', targetStep D.logged S timeout t i = some t' ∧ ¬ t'.Bounded := by
  unfold Overruns at hc
  split at hc
  · rename_i now
    obtain ⟨block, hb, hlt⟩ := hc
    have hle := UInt32.le_iff_toNat_le.1 hw.download
    have hne : block ≠ [] := by
      rintro rfl
      rw [List.length_nil] at hlt
      omega
    obtain ⟨t', hs, -, henv, hsince⟩ := target_handsOver (D := D.logged) (S := S)
      hw.forChunks hb hne now
    obtain ⟨ws, hmem, -, hnew, -⟩ := writes_download hw hne henv hsince
    obtain ⟨-, hsize, -⟩ := target_download hne henv
    refine ⟨t', hs, fun hbd => ?_⟩
    have := hbd.writes _ (by rw [hnew]; exact List.mem_append_right _ hmem)
    rw [hsize] at this
    omega
  · exact hc.elim

/-- The download and its writes stay inside the size that was declared in every state of a run
exactly when every chunk of it that comes in whole ends there. -/
theorem firmware_bounded_iff (x : φ × List (ℕ × ℕ)) (is : List TargetInput) :
    (∀ js t, js <+: is → run (targetStep D.logged S timeout) (.boot x) js = some t → t.Bounded)
      ↔ Along (targetStep D.logged S timeout) (fun t i => ¬ Overruns t i) (.boot x) is := by
  refine along_iff (I := FirmwareTarget.Written) (fun t h => h.toBounded)
    (fun t i t' h hc hs => Written.step h hc hs)
    (fun t i h hc => Written.overruns h (not_not.1 hc)) is _ ?_
  have hlog : (FirmwareTarget.boot x).fw.flash.2 = (FirmwareTarget.boot x).since.fw.flash.2 ++ [] :=
    (List.append_nil _).symm
  refine ⟨⟨UInt32.le_refl _, ?_⟩, ?_, [], hlog⟩
  · rw [writes_eq hlog]
    simp
  · intro h
    cases h

end Written

/-- Sinks that take nothing. -/
def idleSinks : Sink ε := ⟨fun _ _ e => (0, e), fun _ e => (0, e), fun _ _ e => (0, e)⟩

/-- A chunk is written to a target for which no size was declared. -/
theorem firmware_bounded_fails_undeclared : ∃ t,
    run (targetStep norFlash.logged idleSinks 0) (.boot (blank, []))
        [.command 1 (.fwbindlSet [bytes "0", bytes "1"]) 0, .session (.receive (bytes "A")),
          .session (.turn 2)] = some t
      ∧ t.fw.update.size = 0 ∧ t.writes = [(0, 1)] ∧ ¬ t.Bounded := by
  obtain ⟨t, hr, h⟩ := Option.map_eq_some_iff.1
    (show (run (targetStep norFlash.logged idleSinks 0) (.boot (blank, []))
        [.command 1 (.fwbindlSet [bytes "0", bytes "1"]) 0, .session (.receive (bytes "A")),
          .session (.turn 2)]).map (fun t => (t.fw.update.size, t.writes)) = some (0, [(0, 1)])
      by decide +kernel)
  simp only [Prod.mk.injEq] at h
  refine ⟨t, hr, h.1, h.2, fun hb => ?_⟩
  have := hb.writes (0, 1) (by simp [h.2])
  simp [h.1] at this

/-! ## What it holds -/

theorem verify_cells (off i : ℕ) (buf : Bytes) (x : φ) :
    D.cells (atcmdFirmwareVerify_ D off buf x).2 i = D.cells x i :=
  congrFun (D.read_cells off buf.length x) i

theorem try_cells (verify : ℤ) {off i : ℕ} (buf : Bytes) (x : φ) (hi : i < off) :
    D.cells (firmwareDownloadTry D verify off buf x).2 i = D.cells x i := by
  have hw := D.write_cells off buf x i (Or.inl hi)
  unfold firmwareDownloadTry
  dsimp only
  split_ifs
  · exact hw
  · rw [verify_cells, hw]
  · exact hw

/-- The retry erases from the beginning of the sector. -/
theorem loop_cells {verify : ℤ} {off i : ℕ} {buf : Bytes} {x : φ} (hi : i < off)
    (h : 4096 ∣ off ∨ (firmwareDownloadTry D verify off buf x).1 = 0) :
    D.cells (firmwareDownloadLoop D verify off buf x).2 i = D.cells x i := by
  have htry := try_cells (D := D) verify buf x hi
  unfold firmwareDownloadLoop
  dsimp only
  by_cases h0 : (firmwareDownloadTry D verify off buf x).1 = 0
  · rw [if_pos h0]
    exact htry
  · rw [if_neg h0]
    have hsec : sectorStart off = off := by
      obtain ⟨k, rfl⟩ := h.resolve_right h0
      unfold sectorStart
      omega
    have herase := D.erase_cells off buf.length (firmwareDownloadTry D verify off buf x).2 i
      (Or.inl (by rw [hsec]; exact hi))
    split_ifs
    · rw [herase, htry]
    · rw [try_cells verify buf _ hi, herase, htry]

theorem verify_stored (hD : D.Stores) {off : ℕ} {buf : Bytes} {x : φ}
    (h : (atcmdFirmwareVerify_ D off buf x).1 = 0) {i : ℕ} (hi : i < buf.length) :
    D.cells x (off + i) = buf[i] := by
  unfold atcmdFirmwareVerify_ at h
  dsimp only at h
  split_ifs at h with hret hread
  · exact absurd h hret
  · have heq := hD.read off buf.length x (not_not.1 hret)
    rw [hread] at heq
    conv_rhs => rw [List.getElem_of_eq heq hi]
    simp
  · cases h

/-- A try that succeeds has stored the chunk if it is verified, or written to erased cells. -/
theorem try_stored (hD : D.Stores) {verify : ℤ} {off : ℕ} {buf : Bytes} {x : φ}
    (hx : 0 < verify ∨ D.Erased x off buf.length)
    (h : (firmwareDownloadTry D verify off buf x).1 = 0) {i : ℕ} (hi : i < buf.length) :
    D.cells (firmwareDownloadTry D verify off buf x).2 (off + i) = buf[i] := by
  unfold firmwareDownloadTry at *
  dsimp only at *
  split_ifs at * with h1 h2
  · exact absurd h h1
  · rw [verify_cells]
    exact verify_stored hD h hi
  · exact hD.write off buf x (hx.resolve_left h2) (not_not.1 h1) i hi

/-- The second try writes to cells that the retry has erased. -/
theorem loop_stored (hD : D.Stores) {verify : ℤ} {off : ℕ} {buf : Bytes} {x : φ}
    (hx : (firmwareDownloadTry D verify off buf x).1 = 0 →
      0 < verify ∨ D.Erased x off buf.length)
    (h : (firmwareDownloadLoop D verify off buf x).1 = 0) {i : ℕ} (hi : i < buf.length) :
    D.cells (firmwareDownloadLoop D verify off buf x).2 (off + i) = buf[i] := by
  unfold firmwareDownloadLoop at *
  dsimp only at *
  split_ifs at * with h0 h1
  · exact try_stored hD (hx h0) h0 hi
  · exact absurd h h1
  · exact try_stored hD (Or.inr (hD.erase _ _ _ (not_not.1 h1))) h hi

theorem image_add (f : ℕ → UInt8) {n : ℕ} {buf : Bytes}
    (h : ∀ i, (hi : i < buf.length) → f (n + i) = buf[i]) :
    Attested.image f (n + buf.length) = Attested.image f n ++ buf := by
  unfold Attested.image
  rw [List.range_add, List.map_append, List.append_cancel_left_eq, List.map_map]
  refine List.ext_getElem (by simp) fun i hi hi' => ?_
  simpa using h i hi'

/-- What holds besides the contents of the flash. -/
structure FirmwareTarget.Kept (D : UtilFota φ) (t : FirmwareTarget φ) : Prop where
  holds : t.Holds D
  forChunks : t.ForChunks
  log : ∃ l, t.session.rx.env.accepted = t.since.accepted ++ l

theorem chunks_eq {l : List (UInt32 × Bytes)}
    (h : t.session.rx.env.accepted = t.since.accepted ++ l) : t.chunks = l.map (·.2) := by
  rw [FirmwareTarget.chunks, h, List.drop_left]

theorem not_destroys {now : UInt32} {block : Bytes} (hc : ¬ Destroys D t (.session (.turn now)))
    (hb : block ∈ t.session.handsOver) :
    let off := t.fw.update.download.toNat
    let ret := (firmwareDownloadTry D t.fw.update.verify off block t.fw.flash).1
    (4096 ∣ off ∨ ret = 0)
      ∧ (ret = 0 → 0 < t.fw.update.verify ∨ D.Erased t.fw.flash off block.length)
      ∧ off + block.length < 2 ^ 32 := by
  intro off ret
  refine ⟨?_, fun h0 => ?_, ?_⟩
  · by_contra hno
    rw [not_or] at hno
    exact hc ⟨block, hb, Or.inl hno⟩
  · by_contra hno
    rw [not_or, not_lt] at hno
    exact hc ⟨block, hb, Or.inr (Or.inl ⟨h0, hno⟩)⟩
  · by_contra hno
    exact hc ⟨block, hb, Or.inr (Or.inr (not_lt.1 hno))⟩

theorem Kept.step (hD : D.Stores) (hk : t.Kept D) (hc : ¬ Destroys D t i)
    (hs : targetStep D S timeout t i = some t') : t'.Kept D := by
  obtain ⟨hf, ⟨henv, hsince⟩ | ⟨argv, hok, hfw, hsince⟩ | ⟨now, block, rfl, hb, hne, henv, hsince⟩⟩ :=
    target_cases hk.forChunks hs
  · refine ⟨?_, hf, by rw [henv, hsince]; exact hk.log⟩
    unfold FirmwareTarget.Holds FirmwareTarget.chunks FirmwareTarget.fw
    rw [henv, hsince]
    exact hk.holds
  · rcases updateSet_cases (D := D) argv t.fw with ⟨-, hzero⟩ | ⟨hno, -⟩
    · have hlog : t'.session.rx.env.accepted = t'.since.accepted ++ [] := by
        rw [hsince, List.append_nil]
      refine ⟨?_, hf, [], hlog⟩
      unfold FirmwareTarget.Holds
      rw [chunks_eq hlog, hfw, hzero]
      rfl
    · exact absurd hok hno
  · obtain ⟨l, hl⟩ := hk.log
    obtain ⟨hflash, -, hd, hacc⟩ := target_download hne henv
    obtain ⟨hsec, herased, hfit⟩ := not_destroys hc hb
    have hold : Attested.image (D.cells (firmwareDownloadLoop D t.fw.update.verify
        t.fw.update.download.toNat block t.fw.flash).2) t.fw.update.download.toNat
          = t.chunks.flatten := by
      rw [← hk.holds]
      exact Attested.image_congr fun i hi => loop_cells hi hsec
    rw [hl, List.append_assoc, ← hsince] at hacc
    refine ⟨?_, hf, _, hacc⟩
    unfold FirmwareTarget.Holds
    rw [chunks_eq hacc, hflash, hd]
    rw [chunks_eq hl] at hold
    by_cases h0 : (firmwareDownloadLoop D t.fw.update.verify t.fw.update.download.toNat block
        t.fw.flash).1 = 0
    · rw [if_pos h0, if_pos h0, toNat_add_ofNat hfit,
        image_add _ fun i hi => loop_stored hD herased h0 hi, hold]
      simp
    · rw [if_neg h0, if_neg h0, List.append_nil, UInt32.add_zero]
      exact hold

/-- While every chunk that is not written at the first try begins at a sector, and the others are
verified or written to erased cells, the flash holds the chunks that were accepted. -/
theorem firmware_holds (hD : D.Stores) {x : φ} {is : List TargetInput}
    (hc : Along (targetStep D S timeout) (fun t i => ¬ Destroys D t i) (.boot x) is)
    (hr : run (targetStep D S timeout) (.boot x) is = some t) : t.Holds D := by
  have hb : (FirmwareTarget.boot x).Kept D := ⟨rfl, (by intro h; cases h), [], rfl⟩
  exact (run_along (P := fun t : FirmwareTarget φ => t.Kept D)
    (fun t i t' h hc hs => Kept.step hD h hc hs) hb hc hr).holds

/-! ## A chip that fails -/

/-- A flash chip, the record of the update, and whether each of the next writes fails. -/
structure FlakyFlash where
  chip : NorFlash
  fails : List Bool

/-- A chip whose driver fails a write without an effect. -/
def flakyFlash : UtilFota FlakyFlash where
  maxFwSize := norFlash.maxFwSize
  calCrc := crc32
  cells x := x.chip.cells
  info x := x.chip.info
  read off len x := (0, (List.range len).map fun i => x.chip.cells (off + i), x)
  write off buf x :=
    if x.fails.headD false then (1, { x with fails := x.fails.tail })
    else (0, { chip := (norFlash.write off buf x.chip).2, fails := x.fails.tail })
  erase off len x := (0, { x with chip := (norFlash.erase off len x.chip).2 })
  eraseInfo x := { x with chip := norFlash.eraseInfo x.chip }
  setInfo size crc x := { x with chip := norFlash.setInfo size crc x.chip }
  setReady ready x := { x with chip := norFlash.setReady ready x.chip }
  read_cells _ _ _ := rfl
  read_info _ _ _ := rfl
  write_cells off buf x i h := by
    split_ifs
    · rfl
    · exact norFlash.write_cells off buf x.chip i h
  write_info off buf x := by split_ifs <;> rfl
  erase_cells off len x i h := norFlash.erase_cells off len x.chip i h
  erase_info _ _ _ := rfl
  eraseInfo_info _ := rfl
  setInfo_cells _ _ _ := rfl
  setInfo_info _ _ _ := rfl
  setReady_cells _ _ := rfl
  setReady_info _ _ := rfl

theorem norFlash_stores : norFlash.Stores where
  write off buf x hx _ i hi := by
    have hcell : x.cells (off + i) = 255 := hx i hi
    simp only [norFlash, hcell]
    rw [if_neg (by omega), Nat.add_sub_cancel_left, ← List.getElem_eq_getD 255]
    exact UInt8.neg_one_and
  erase off len x _ i hi := by
    have hlo : sectorStart off ≤ off := Nat.div_mul_le_self off 4096
    have hhi : off + i < sectorStart (off + len + 4095) := by
      unfold sectorStart
      omega
    simp only [norFlash]
    rw [if_neg (by omega)]
  read _ _ _ _ := rfl

theorem flakyFlash_stores : flakyFlash.Stores where
  write off buf x hx h := by
    unfold flakyFlash at *
    dsimp only at *
    split_ifs at * with hfail
    · cases h
    · exact norFlash_stores.write off buf x.chip hx rfl
  erase off len x _ := norFlash_stores.erase off len x.chip rfl
  read _ _ _ _ := rfl

/-- The commands that download `A` and `B` as two chunks. -/
def twoChunks : List TargetInput :=
  [.command 1 (.fwupdateSet [bytes "2", bytes "0x1"]) 0,
    .command 1 (.fwbindlSet [bytes "0", bytes "1"]) 0, .session (.receive (bytes "A")),
    .session (.turn 2), .command 3 (.fwbindlSet [bytes "1", bytes "1"]) 0,
    .session (.receive (bytes "B")), .session (.turn 4)]

/-- The first chunk is written at the second try. -/
theorem firmware_holds_twoChunks : ∃ t,
    run (targetStep flakyFlash idleSinks 0) (.boot ⟨blank, [true]⟩) twoChunks = some t
      ∧ t.chunks = [bytes "A", bytes "B"] ∧ t.Holds flakyFlash := by
  obtain ⟨t, hr, h⟩ := Option.map_eq_some_iff.1
    (show (run (targetStep flakyFlash idleSinks 0) (.boot ⟨blank, [true]⟩) twoChunks).map
      FirmwareTarget.chunks = some [bytes "A", bytes "B"] by decide +kernel)
  exact ⟨t, hr, h, firmware_holds flakyFlash_stores (by decide +kernel) hr⟩

/-- The second chunk is written at the second try, and the first is erased. -/
theorem firmware_holds_fails_retry : ∃ t,
    run (targetStep flakyFlash idleSinks 0) (.boot ⟨blank, [false, true]⟩) twoChunks = some t
      ∧ t.chunks = [bytes "A", bytes "B"] ∧ ¬ t.Holds flakyFlash := by
  obtain ⟨t, hr, h⟩ := Option.map_eq_some_iff.1
    (show (run (targetStep flakyFlash idleSinks 0) (.boot ⟨blank, [false, true]⟩) twoChunks).map
      (fun t => (t.chunks,
        Attested.image (flakyFlash.cells t.fw.flash) t.fw.update.download.toNat))
      = some ([bytes "A", bytes "B"], [255] ++ bytes "B") by decide +kernel)
  simp only [Prod.mk.injEq] at h
  refine ⟨t, hr, h.1, fun hh => ?_⟩
  unfold FirmwareTarget.Holds at hh
  rw [h.1, h.2] at hh
  exact absurd hh (by decide)

end NrcAtcmd
