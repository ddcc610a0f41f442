import NrcAtcmd.Firmware

/-!
# A ready update has its CRC on record

Each step spares what the record vouches for, gives the record up, or makes it anew from the
contents of the flash. The exceptions are the chunks and blocks that reach into the image of an
update that is already ready: neither download gives the record up before it writes.
-/

namespace NrcAtcmd

open Machine Attested

variable {φ : Type*} {D : UtilFota φ}

theorem verified_iff {x : φ} : Verified D x ↔ (D.attested x).Sound D.calCrc := by
  unfold Verified Sound UtilFota.attested
  constructor
  · intro h n d hr
    split_ifs at hr with hready
    · simp only [Option.some.injEq, Prod.mk.injEq] at hr
      rw [← hr.1, ← hr.2]
      exact h hready
  · intro h hready
    exact h _ _ (by rw [if_pos hready])

theorem record_eq_none {x : φ} : (D.attested x).record = none ↔ (D.info x).ready = false := by
  unfold UtilFota.attested
  split_ifs with h <;> simp [h]

/-- A change that leaves the record, and what it vouches for while it is ready, spares it. -/
theorem spares_of {x y : φ} (hi : D.info y = D.info x)
    (hc : (D.info x).ready = true → ∀ i < (D.info x).size.toNat, D.cells y i = D.cells x i) :
    (D.attested x).Spares (D.attested y) where
  record := by simp only [UtilFota.attested, hi]
  content n d hr i hlt := by
    unfold UtilFota.attested at hr
    split_ifs at hr with hready
    · simp only [Option.some.injEq, Prod.mk.injEq] at hr
      rw [← hr.1] at hlt
      exact hc hready i hlt

/-! ## The download by command -/

theorem write_spares {off : ℕ} {buf : Bytes} {x : φ}
    (h : (D.info x).ready = true → (D.info x).size.toNat ≤ off) :
    (D.attested x).Spares (D.attested (D.write off buf x).2) :=
  spares_of (D.write_info off buf x) fun hready i hi =>
    D.write_cells off buf x i (Or.inl (lt_of_lt_of_le hi (h hready)))

theorem erase_spares (off len : ℕ) {x : φ}
    (h : (D.info x).ready = true → (D.info x).size.toNat ≤ sectorStart off) :
    (D.attested x).Spares (D.attested (D.erase off len x).2) :=
  spares_of (D.erase_info off len x) fun hready i hi =>
    D.erase_cells off len x i (Or.inl (lt_of_lt_of_le hi (h hready)))

theorem verify_spares {off : ℕ} {buf : Bytes} {x : φ} :
    (D.attested x).Spares (D.attested (atcmdFirmwareVerify_ D off buf x).2) := by
  refine spares_of (D.read_info off buf.length x) fun _ i _ => ?_
  exact congrFun (D.read_cells off buf.length x) i

theorem try_spares (verify : ℤ) {off : ℕ} (buf : Bytes) {x : φ}
    (h : (D.info x).ready = true → (D.info x).size.toNat ≤ off) :
    (D.attested x).Spares (D.attested (firmwareDownloadTry D verify off buf x).2) := by
  unfold firmwareDownloadTry
  dsimp only
  split_ifs
  · exact write_spares h
  · exact (write_spares h).trans verify_spares
  · exact write_spares h

theorem try_info (verify : ℤ) (off : ℕ) (buf : Bytes) (x : φ) :
    D.info (firmwareDownloadTry D verify off buf x).2 = D.info x := by
  unfold firmwareDownloadTry
  dsimp only
  split_ifs
  · exact D.write_info off buf x
  · exact (D.read_info off buf.length _).trans (D.write_info off buf x)
  · exact D.write_info off buf x

theorem loop_spares {verify : ℤ} {off : ℕ} {buf : Bytes} {x : φ}
    (h : (D.info x).ready = true → (D.info x).size.toNat ≤ off)
    (hs : (D.info x).ready = true → (firmwareDownloadTry D verify off buf x).1 ≠ 0 →
      (D.info x).size.toNat ≤ sectorStart off) :
    (D.attested x).Spares (D.attested (firmwareDownloadLoop D verify off buf x).2) := by
  have htry := try_spares verify buf h
  have hinfo := try_info (D := D) verify off buf x
  unfold firmwareDownloadLoop
  dsimp only
  by_cases h0 : (firmwareDownloadTry D verify off buf x).1 = 0
  · rw [if_pos h0]
    exact htry
  · rw [if_neg h0]
    have herase := htry.trans (erase_spares off buf.length (by
      rw [hinfo]
      exact fun hr => hs hr h0))
    split_ifs
    · exact herase
    · refine herase.trans (try_spares verify buf ?_)
      rw [D.erase_info, hinfo]
      exact h

theorem download_spares {buf : Bytes} {off : UInt32} {fw : Firmware φ}
    (h : ¬ Spoils D fw (.download off buf)) :
    (D.attested fw.flash).Spares (D.attested (atcmdFirmwareDownload_ D buf fw).2.flash) := by
  refine loop_spares ?_ ?_
  · intro hready
    by_contra hlt
    exact h ⟨hready, Or.inl (UInt32.lt_iff_toNat_lt.2 (by omega))⟩
  · intro hready h0
    by_contra hlt
    exact h ⟨hready, Or.inr ⟨by omega, h0⟩⟩

/-! ## The record -/

theorem bind_eq_error {α β : Type} {x : Except AtcmdError α} {f : α → Except AtcmdError β}
    {e : AtcmdError} (h : x.bind f = .error e) :
    x = .error e ∨ ∃ a, x = .ok a ∧ f a = .error e := by
  cases x with
  | error e' =>
    simp only [Except.bind, Except.error.injEq] at h
    exact Or.inl (by rw [h])
  | ok a => exact Or.inr ⟨a, rfl, h⟩

/-- A check that fails returns an error. -/
theorem firmwareUpdateParams_ne_success {u : FirmwareUpdate} {argv : List Bytes}
    {ret : AtcmdError} (h : firmwareUpdateParams D u argv = .error ret) : ret ≠ .success := by
  rintro rfl
  cases argv with
  | nil => cases h
  | cons size argv =>
    rcases bind_eq_error h with h | ⟨verify, -, h⟩
    · unfold firmwareUpdateVerify at h
      split at h <;> (try split_ifs at h) <;> cases h
    rcases bind_eq_error h with h | ⟨crc32, -, h⟩
    · unfold firmwareUpdateCrc32 at h
      split at h
      · cases h
      · split at h <;> (try split_ifs at h) <;> cases h
    rcases bind_eq_error h with h | ⟨n, -, h⟩
    · unfold firmwareUpdateSize at h
      split at h <;> cases h
    rcases bind_eq_error h with h | ⟨-, -, h⟩
    · unfold firmwareUpdateCheck at h
      split_ifs at h <;> cases h
    · cases h

theorem setReady_verified {x : φ} {size crc : UInt32} (h : D.areaCrc x size = crc) :
    Verified D (D.setReady true (D.setInfo size crc x)) := by
  refine verified_iff.2 (Sound.attest (n := size.toNat) (d := crc) ?_ ?_)
  · unfold UtilFota.attested
    rw [D.setReady_info, D.setInfo_info]
    rfl
  · unfold UtilFota.attested
    rw [D.setReady_cells, D.setInfo_cells]
    exact h

theorem updateRun_verified {fw : Firmware φ} (h : Verified D fw.flash) :
    Verified D (atcmdBasicFirmwareUpdateRun_ D fw).2.flash := by
  unfold atcmdBasicFirmwareUpdateRun_
  dsimp only
  split_ifs with h1 h2
  · exact h
  · exact h
  · exact setReady_verified (not_not.1 h2)

theorem updateSet_verified {argv : List Bytes} {fw : Firmware φ} (h : Verified D fw.flash) :
    Verified D (atcmdBasicFirmwareUpdateSet_ D argv fw).2.flash := by
  unfold atcmdBasicFirmwareUpdateSet_
  rcases firmwareUpdateParams D fw.update argv with ret | ⟨size, crc32, verify⟩
  · exact h
  · refine verified_iff.2 (Sound.of_none (record_eq_none.2 ?_))
    dsimp only
    rw [D.eraseInfo_info]

theorem check_verified {fw : Firmware φ} (h : Verified D fw.flash) :
    Verified D (atcmdFotaFwUpdateCheck D fw).2.flash := by
  unfold atcmdFotaFwUpdateCheck
  dsimp only
  split_ifs with h1 h2 h3
  · exact h
  · exact h
  · exact h
  · exact setReady_verified (not_not.1 h3)

/-! ## The download by the FOTA task -/

theorem callback_reset_flash (fw : Firmware φ) :
    (atcmdFotaFwUpdateCallback_ D [] 0 fw).2.flash = fw.flash := by
  simp [atcmdFotaFwUpdateCallback_]

theorem callback_spares {data : Bytes} {total : UInt32} {fw : Firmware φ}
    (h : ¬ Spoils D fw (.fotaBlock data total)) :
    (D.attested fw.flash).Spares
      (D.attested (atcmdFotaFwUpdateCallback_ D data total fw).2.flash) := by
  unfold atcmdFotaFwUpdateCallback_
  dsimp only
  by_cases h0 : data = [] ∨ total = 0
  · rw [if_pos h0]
    exact Spares.refl _
  rw [if_neg h0]
  by_cases hmax : fw.fota.cnt = 0 ∧ D.maxFwSize < total
  · rw [if_pos hmax]
    exact Spares.refl _
  rw [if_neg hmax]
  by_cases hcnt : fw.fota.cnt = 0
  · -- the whole area is erased, so nothing may be on record
    have hle : total ≤ D.maxFwSize := by
      rw [← UInt32.not_lt]
      exact fun hlt => hmax ⟨hcnt, hlt⟩
    have hready : ∀ y, D.info y = D.info fw.flash → (D.attested y).record = none := by
      intro y hy
      rw [record_eq_none, hy, ← Bool.not_eq_true]
      exact fun hr => h ⟨hr, Or.inl ⟨hcnt, hle⟩⟩
    refine Spares.of_none (hready _ rfl) (hready _ ?_)
    rw [if_pos hcnt]
    exact (D.write_info _ _ _).trans (D.erase_info _ _ _)
  · rw [if_neg hcnt]
    refine write_spares fun hr => ?_
    by_contra hlt
    exact h ⟨hr, Or.inr ⟨hcnt, UInt32.lt_iff_toNat_lt.2 (by omega)⟩⟩

/-! ## Whole runs -/

theorem firmwareStep_verified {fw fw' : Firmware φ} {i : FirmwareInput} (h : Verified D fw.flash)
    (hC : ¬ Spoils D fw i) (hs : firmwareStep D fw i = some fw') : Verified D fw'.flash := by
  have hspares : ∀ {x : φ}, (D.attested fw.flash).Spares (D.attested x) → Verified D x :=
    fun hx => verified_iff.2 ((verified_iff.1 h).spares hx)
  cases i with
  | updateSet argv =>
    simp only [firmwareStep, Option.some.injEq] at hs
    subst hs
    exact updateSet_verified h
  | updateRun =>
    simp only [firmwareStep, Option.some.injEq] at hs
    subst hs
    exact updateRun_verified h
  | download offset data =>
    simp only [firmwareStep, Option.ite_none_right_eq_some, Option.some.injEq] at hs
    obtain ⟨-, rfl⟩ := hs
    exact hspares (download_spares hC)
  | fotaStart name crc32 =>
    simp only [firmwareStep] at hs
    split_ifs at hs <;> (simp only [Option.some.injEq] at hs; subst hs; exact h)
  | fotaBlock data total =>
    simp only [firmwareStep, Option.ite_none_right_eq_some, Option.some.injEq] at hs
    obtain ⟨-, rfl⟩ := hs
    split_ifs
    · refine hspares ?_
      simp only [atcmdFotaTaskExit, callback_reset_flash]
      exact callback_spares hC
    · exact hspares (callback_spares hC)
  | fotaEnd ret =>
    simp only [firmwareStep] at hs
    split_ifs at hs
    · simp only [Option.some.injEq] at hs
      subst hs
      simp only [atcmdFotaTaskExit, callback_reset_flash]
      exact h
    · simp only [Option.some.injEq] at hs
      subst hs
      exact check_verified h

theorem cells_of_spares {x y : φ} {i : ℕ} (h : (D.attested x).Spares (D.attested y))
    (hready : (D.info x).ready = true) (hi : i < (D.info x).size.toNat) :
    D.cells y i = D.cells x i :=
  h.content _ _ (by rw [UtilFota.attested, if_pos hready]) i hi

/-- What is vouched for before a step and after it is the same. -/
theorem firmwareStep_cells {fw fw' : Firmware φ} {i : FirmwareInput} {j : ℕ}
    (hC : ¬ Spoils D fw i) (hs : firmwareStep D fw i = some fw') (h : Vouched D fw j)
    (h' : Vouched D fw' j) : D.cells fw'.flash j = D.cells fw.flash j := by
  obtain ⟨hready, hj⟩ := h
  cases i with
  | updateSet argv =>
    simp only [firmwareStep, Option.some.injEq] at hs
    subst hs
    obtain ⟨hready', -⟩ := h'
    unfold atcmdBasicFirmwareUpdateSet_ at hready' ⊢
    rcases hp : firmwareUpdateParams D fw.update argv with ret | ⟨size, crc32, verify⟩
    · rfl
    · simp only [hp, D.eraseInfo_info, Bool.false_eq_true] at hready'
  | updateRun =>
    simp only [firmwareStep, Option.some.injEq] at hs
    subst hs
    unfold atcmdBasicFirmwareUpdateRun_
    dsimp only
    split_ifs
    · rfl
    · rfl
    · rw [D.setReady_cells, D.setInfo_cells]
  | download offset data =>
    simp only [firmwareStep, Option.ite_none_right_eq_some, Option.some.injEq] at hs
    obtain ⟨-, rfl⟩ := hs
    exact cells_of_spares (download_spares hC) hready hj
  | fotaStart name crc32 =>
    simp only [firmwareStep] at hs
    split_ifs at hs <;> (simp only [Option.some.injEq] at hs; subst hs; rfl)
  | fotaBlock data total =>
    simp only [firmwareStep, Option.ite_none_right_eq_some, Option.some.injEq] at hs
    obtain ⟨-, rfl⟩ := hs
    refine cells_of_spares ?_ hready hj
    split_ifs
    · simp only [atcmdFotaTaskExit, callback_reset_flash]
      exact callback_spares hC
    · exact callback_spares hC
  | fotaEnd ret =>
    simp only [firmwareStep] at hs
    split_ifs at hs
    · simp only [Option.some.injEq] at hs
      subst hs
      simp only [atcmdFotaTaskExit, callback_reset_flash]
    · simp only [Option.some.injEq] at hs
      subst hs
      simp only [atcmdFotaTaskExit]
      unfold atcmdFotaFwUpdateCheck
      dsimp only
      split_ifs
      · rfl
      · rfl
      · rfl
      · rw [D.setReady_cells, D.setInfo_cells]

theorem firmwareRun_cells {fw fw' : Firmware φ} {is : List FirmwareInput} {j : ℕ}
    (hC : Along (firmwareStep D) (fun fw i => ¬ Spoils D fw i) fw is)
    (hr : run (firmwareStep D) fw is = some fw')
    (h : ∀ js fw₁, js <+: is → run (firmwareStep D) fw js = some fw₁ → Vouched D fw₁ j) :
    D.cells fw'.flash j = D.cells fw.flash j := by
  induction is generalizing fw with
  | nil =>
    obtain rfl := Option.some.inj hr
    rfl
  | cons i is ih =>
    obtain ⟨m, hm, hr⟩ := run_cons_eq_some.1 hr
    have h₀ : Vouched D fw j := h [] fw List.nil_prefix rfl
    have h₁ : Vouched D m j := h [i] m (by simp) (by simp [run, hm])
    rw [ih (hC.2 m hm) hr fun js fw₁ hjs hr₁ => h (i :: js) fw₁
      ((List.prefix_cons_inj i).2 hjs) (run_cons_eq_some.2 ⟨m, hm, hr₁⟩)]
    exact firmwareStep_cells hC.1 hm h₀ h₁

/-- While no step reaches into the image of an update that is ready, the CRC of that image is the
one on record in every state, and the image is the same for as long as it is ready. -/
theorem firmware_verified {fw fw' : Firmware φ} {is : List FirmwareInput}
    (h : Verified D fw.flash) (hC : Along (firmwareStep D) (fun fw i => ¬ Spoils D fw i) fw is)
    (hr : run (firmwareStep D) fw is = some fw') :
    Verified D fw'.flash ∧ ∀ j, (∀ js fw₁, js <+: is → run (firmwareStep D) fw js = some fw₁ →
      Vouched D fw₁ j) → D.cells fw'.flash j = D.cells fw.flash j :=
  ⟨run_along (P := fun fw => Verified D fw.flash)
    (fun _ _ _ h hC hs => firmwareStep_verified h hC hs) h hC hr,
    fun _ hj => firmwareRun_cells hC hr hj⟩

/-! ## A flash chip -/

/-- The CRC-32 of a ZIP file, which the host puts into `AT+FWUPDATE`. -/
def crc32 (bs : Bytes) : UInt32 :=
  ~~~ bs.foldl (fun c b => (List.range 8).foldl
    (fun c _ => if c &&& 1 = 1 then (c >>> 1) ^^^ 0xedb88320 else c >>> 1) (c ^^^ b.toUInt32))
    0xffffffff

/-- A flash chip and the record of the update. -/
structure NorFlash where
  cells : ℕ → UInt8
  info : FotaInfo

/-- A chip that never fails. A write can only clear bits, and an erase sets those of its sectors. -/
def norFlash : UtilFota NorFlash where
  maxFwSize := 917504
  calCrc := crc32
  cells x := x.cells
  info x := x.info
  read off len x := (0, (List.range len).map fun i => x.cells (off + i), x)
  write off buf x := (0, { x with
    cells := fun i => if i < off ∨ off + buf.length ≤ i then x.cells i
      else x.cells i &&& buf.getD (i - off) 255 })
  erase off len x := (0, { x with
    cells := fun i => if i < sectorStart off ∨ sectorStart (off + len + 4095) ≤ i then x.cells i
      else 255 })
  eraseInfo x := { x with info := ⟨false, 0, 0⟩ }
  setInfo size crc x := { x with info := ⟨x.info.ready, size, crc⟩ }
  setReady ready x := { x with info := ⟨ready, x.info.size, x.info.crc⟩ }
  read_cells _ _ _ := rfl
  read_info _ _ _ := rfl
  write_cells _ _ _ _ h := if_pos h
  write_info _ _ _ := rfl
  erase_cells _ _ _ _ h := if_pos h
  erase_info _ _ _ := rfl
  eraseInfo_info _ := rfl
  setInfo_cells _ _ _ := rfl
  setInfo_info _ _ _ := rfl
  setReady_cells _ _ := rfl
  setReady_info _ _ := rfl

/-- The commands that download `abcd` and make it ready. -/
def updateCommands : List FirmwareInput :=
  [.updateSet [bytes "4", bytes "0xED82CD11"], .download 0 (bytes "abcd"), .updateRun]

/-- A chip with nothing on it. -/
def blank : NorFlash := ⟨fun _ => 255, ⟨false, 0, 0⟩⟩

theorem firmware_verified_commands : ∃ fw : Firmware NorFlash,
    run (firmwareStep norFlash) (.boot blank) updateCommands = some fw
      ∧ (norFlash.info fw.flash).ready = true ∧ Verified norFlash fw.flash := by
  have hready : ((run (firmwareStep norFlash) (.boot blank) updateCommands).map
      fun fw => (norFlash.info fw.flash).ready) = some true := by decide +kernel
  obtain ⟨fw, hr, h⟩ := Option.map_eq_some_iff.1 hready
  exact ⟨fw, hr, h, (firmware_verified (fun h => by cases h) (by decide +kernel) hr).1⟩

/-- After these commands the FOTA task starts a download of another image, and aborts it after one
block. The update is still ready, and is not the one whose CRC is on record. -/
theorem firmware_verified_fails_fota : ∃ fw : Firmware NorFlash,
    run (firmwareStep norFlash) (.boot blank) (updateCommands
        ++ [.fotaStart (bytes "fw.bin") 1, .fotaBlock (bytes "wxyz") 8, .fotaEnd (-1)]) = some fw
      ∧ (norFlash.info fw.flash).ready = true ∧ ¬ Verified norFlash fw.flash := by
  have hbad : ((run (firmwareStep norFlash) (.boot blank) (updateCommands
      ++ [.fotaStart (bytes "fw.bin") 1, .fotaBlock (bytes "wxyz") 8, .fotaEnd (-1)])).map
      fun fw => decide ((norFlash.info fw.flash).ready = true
        ∧ ¬ (norFlash.areaCrc fw.flash (norFlash.info fw.flash).size
          = (norFlash.info fw.flash).crc))) = some true := by decide +kernel
  obtain ⟨fw, hr, h⟩ := Option.map_eq_some_iff.1 hbad
  simp only [decide_eq_true_eq] at h
  exact ⟨fw, hr, h.1, fun hv => h.2 (hv h.1)⟩

end NrcAtcmd
