import NrcAtcmd.IdleTimer
import NrcAtcmd.Proofs.DataMode

/-!
# One idle event for each quiet stretch

The difference of two clock values is the time between them, however often the clock has wrapped, as
long as less than `2 ^ 32` milliseconds have passed. So a session that was continued at a clock
value other than zero waits for its timeout and then tells the host, once. A clock value of zero
stands for a session that has not been continued, and nothing is told until it is continued again.
-/

namespace NrcAtcmd

open Machine

variable {ε : Type*} {S : Sink ε}

/-! ## The clock -/

theorem elapsed_sysNow {t₀ t : ℕ} (h : t₀ ≤ t) :
    elapsedTime (atcmdSysNow t) (atcmdSysNow t₀) = .ofNat (t - t₀) := by
  have hsub : elapsedTime (atcmdSysNow t) (atcmdSysNow t₀)
      = atcmdSysNow t - atcmdSysNow t₀ := by
    unfold elapsedTime
    split_ifs
    · rfl
    · grind
  rw [hsub]
  unfold atcmdSysNow
  apply UInt32.toNat_inj.1
  rw [UInt32.toNat_sub]
  simp only [UInt32.toNat_ofNat']
  omega

@[simp] theorem taskPass_taking (s : Timed ε) : s.taskPass.taking = s.taking := rfl

@[simp] theorem taskPass_time (s : Timed ε) : s.taskPass.time = s.time := rfl

/-- A session continued at `t₀`, whose timeout has not run out. -/
structure Armed (t₀ : ℕ) (s : Timed ε) : Prop where
  enable : s.rx.mode.enable = true
  idle : s.rx.mode.idle = false
  last : s.rx.mode.lastSendTime = atcmdSysNow t₀
  nonzero : atcmdSysNow t₀ ≠ 0
  since : t₀ ≤ s.time
  short : s.time < t₀ + s.rx.mode.sendTimeout.toNat

/-- The task waits for what is left of the timeout. -/
theorem Armed.taskPass {t₀ : ℕ} {s : Timed ε} (h : Armed t₀ s) :
    s.taskPass = { s with wake := some (t₀ + s.rx.mode.sendTimeout.toNat) } := by
  have hlt := s.rx.mode.sendTimeout.toNat_lt
  have hsince := h.since
  have hshort := h.short
  have hel : (UInt32.ofNat (s.time - t₀)).toNat = s.time - t₀ := by
    rw [UInt32.toNat_ofNat']
    exact Nat.mod_eq_of_lt (by omega)
  have hless : UInt32.ofNat (s.time - t₀) < s.rx.mode.sendTimeout := by
    rw [UInt32.lt_iff_toNat_lt, hel]
    omega
  have hpos : 0 < atcmdSysNow t₀ := UInt32.pos_iff_ne_zero.2 h.nonzero
  have htimeout : 0 < s.rx.mode.sendTimeout := by
    rw [UInt32.lt_iff_toNat_lt]
    exact Nat.lt_of_le_of_lt (Nat.zero_le _) (UInt32.lt_iff_toNat_lt.1 hless)
  have hrest : (s.rx.mode.sendTimeout - UInt32.ofNat (s.time - t₀)).toNat
      = s.rx.mode.sendTimeout.toNat - (s.time - t₀) := by
    rw [UInt32.toNat_sub_of_le _ _ (UInt32.le_of_lt hless), hel]
  have hne : s.rx.mode.sendTimeout - UInt32.ofNat (s.time - t₀) ≠ 0 := by
    intro h0
    rw [h0] at hrest
    simp only [UInt32.toNat_zero] at hrest
    omega
  unfold Timed.taskPass atcmdDataModeTask
  simp only [h.enable, h.last, hpos, htimeout, decide_true, Bool.and_self, if_true,
    elapsed_sysNow hsince, if_pos hless]
  simp only [if_neg hne, hrest, ite_self]
  congr 2
  omega

theorem taskPass_idle {s : Timed ε} (h : s.rx.mode.idle = true) : s.taskPass.rx = s.rx := by
  unfold Timed.taskPass atcmdDataModeTask
  simp only [h, Bool.not_true, Bool.false_eq_true, if_false]
  split_ifs <;> rfl

theorem taskPass_zero {s : Timed ε} (h : s.rx.mode.lastSendTime = 0) :
    s.taskPass = { s with wake := none } := by
  unfold Timed.taskPass atcmdDataModeTask
  simp [h]

theorem isIdle_timeout (m : DataMode) : (atcmdDataModeTimeout m).isIdle = true := by
  unfold atcmdDataModeTimeout
  rcases m.params.dataType <;> rfl

/-- When the timeout has run out the host is told, and the session is idle. -/
theorem taskPass_due {t₀ : ℕ} {s : Timed ε} (henable : s.rx.mode.enable = true)
    (hidle : s.rx.mode.idle = false) (hlast : s.rx.mode.lastSendTime = atcmdSysNow t₀)
    (hnonzero : atcmdSysNow t₀ ≠ 0) (htimeout : 0 < s.rx.mode.sendTimeout.toNat)
    (htime : s.time = t₀ + s.rx.mode.sendTimeout.toNat) :
    s.taskPass = { s with
      rx := { s.rx with
        mode := { s.rx.mode with idle := true }
        out := if s.sending then s.rx.out else s.rx.out ++ [atcmdDataModeTimeout s.rx.mode] }
      wake := none } := by
  have hpos : 0 < atcmdSysNow t₀ := UInt32.pos_iff_ne_zero.2 hnonzero
  have htimeout' : 0 < s.rx.mode.sendTimeout := UInt32.lt_iff_toNat_lt.2 htimeout
  have hel : UInt32.ofNat (s.time - t₀) = s.rx.mode.sendTimeout := by
    rw [htime, Nat.add_sub_cancel_left, UInt32.ofNat_toNat]
  unfold Timed.taskPass atcmdDataModeTask
  simp only [henable, hlast, hpos, htimeout', decide_true, Bool.and_self, if_true,
    elapsed_sysNow (show t₀ ≤ s.time by omega), hel, UInt32.lt_irrefl, if_false, hidle,
    Bool.not_false, Receiver.emit]
  split_ifs <;> rfl

/-! ## A call of `atcmd_receive_data` -/

/-- What a call may change: nothing it sends is an idle event, the timeout stays, and a session that
it ends or continues is not idle. -/
structure Takes (now : UInt32) (rx rx' : Receiver ε) : Prop where
  out : ∃ o, rx'.out = rx.out ++ o ∧ ∀ x ∈ o, x.isIdle = false
  timeout : rx'.mode.sendTimeout = rx.mode.sendTimeout
  idle : rx'.mode.idle = false
  last : rx'.mode.enable = true → rx'.mode.lastSendTime = now

theorem atcmdReceiveData_spec (S : Sink ε) (buf : Bytes) (rx : Receiver ε) :
    (atcmdReceiveData_ S buf rx).2.mode = rx.mode
      ∧ ∃ o, (atcmdReceiveData_ S buf rx).2.out = rx.out ++ o ∧ ∀ x ∈ o, x.isIdle = false := by
  by_cases hb : buf = []
  · unfold atcmdReceiveData_
    rw [if_pos hb]
    exact ⟨rfl, [], by simp, by simp⟩
  · obtain ⟨ret, e, -, hs⟩ := atcmdReceiveData_eq S hb rx
    rw [hs]
    exact ⟨rfl, _, rfl, by simp [Out.isIdle]⟩

theorem reportOf_isIdle (p : DataModeParams) (done drop : UInt32) :
    ∀ x ∈ reportOf p done drop, x.isIdle = false := by
  have hdrop : (atcmdReceiveDataDrop_ p drop).isIdle = false := by
    unfold atcmdReceiveDataDrop_
    rcases p.dataType <;> rfl
  have hdone : (atcmdReceiveDataDone_ p done).isIdle = false := by
    unfold atcmdReceiveDataDone_
    rcases p.dataType <;> rfl
  intro x hx
  unfold reportOf at hx
  split_ifs at hx <;> simp only [List.mem_append, List.mem_singleton, List.not_mem_nil] at hx <;>
    grind

theorem disable_timeout (m : DataMode) :
    (atcmdDataModeDisable m).sendTimeout = m.sendTimeout := by
  unfold atcmdDataModeDisable
  split_ifs <;> rfl

theorem disable_enable (m : DataMode) : (atcmdDataModeDisable m).enable = false := by
  unfold atcmdDataModeDisable
  split_ifs with h
  · rfl
  · simpa using h

theorem atcmdReceiveDataBlock_takes (S : Sink ε) (now : UInt32) (len : ℕ) (block : Bytes)
    (rx : Receiver ε) (hen : rx.mode.enable = true) :
    Takes now rx (atcmdReceiveDataBlock S now len block rx) := by
  obtain ⟨hmode, o, hout, ho⟩ := atcmdReceiveData_spec S block rx
  unfold atcmdReceiveDataBlock
  rcases hs : atcmdReceiveData_ S block rx with ⟨ret, rx'⟩
  rw [hs] at hmode hout
  simp only at hmode hout ⊢
  rw [hmode]
  split_ifs
  · rw [atcmdReceiveDataReport_eq]
    refine ⟨⟨o ++ reportOf _ _ _, by simp only [hout, List.append_assoc]; rfl, ?_⟩, ?_, ?_, ?_⟩
    · intro x hx
      rcases List.mem_append.1 hx with hx | hx
      · exact ho x hx
      · exact reportOf_isIdle _ _ _ x hx
    all_goals simp [atcmdDataModeContinue, hen]
  · rw [atcmdReceiveDataReport_eq]
    refine ⟨⟨o ++ reportOf _ _ _, by simp only [hout, List.append_assoc]; rfl, ?_⟩, ?_, ?_, ?_⟩
    · intro x hx
      rcases List.mem_append.1 hx with hx | hx
      · exact ho x hx
      · exact reportOf_isIdle _ _ _ x hx
    · simp only [hmode, disable_timeout]
    · simp [hmode, atcmdDataModeDisable, hen]
    · simp [disable_enable]

theorem atcmdReceiveDataBody_takes (S : Sink ε) (now : UInt32) (buf : Bytes) (rx : Receiver ε)
    (hen : rx.mode.enable = true) : Takes now rx (atcmdReceiveDataBody S now buf rx).1 := by
  unfold atcmdReceiveDataBody
  simp only
  split_ifs
  · exact atcmdReceiveDataBlock_takes S now _ _ _ hen
  · refine ⟨⟨[], by simp, by simp⟩, ?_, ?_, ?_⟩ <;> simp [atcmdDataModeContinue, hen]
  · obtain ⟨hout, htimeout, hidle, hlast⟩ := atcmdReceiveDataBlock_takes S now rx.mode.sendLen
      ((Memory.memcpy rx.buf rx.mode.cnt (buf.take (rx.mode.sendLen - rx.mode.cnt))).take
        rx.mode.sendLen)
      { rx with
        buf := Memory.memcpy rx.buf rx.mode.cnt (buf.take (rx.mode.sendLen - rx.mode.cnt))
        mode := { rx.mode with cnt := rx.mode.cnt + (rx.mode.sendLen - rx.mode.cnt) } } hen
    exact ⟨hout, htimeout, hidle, hlast⟩
  · exact atcmdReceiveDataBlock_takes S now _ _ _ hen

theorem isIdle_exit (p : DataModeParams) (len : ℕ) (done drop : UInt32) :
    (atcmdReceiveDataExit_ p len done drop).isIdle = false := by
  unfold atcmdReceiveDataExit_
  rcases p.dataType <;> rfl

theorem atcmdReceiveDataLeave_takes (S : Sink ε) (now : UInt32) (i : ℕ) (buf : Bytes)
    (rx : Receiver ε) (hen : rx.mode.enable = true) :
    Takes now rx (atcmdReceiveDataLeave S i buf rx)
      ∧ (atcmdReceiveDataLeave S i buf rx).mode.enable = false := by
  unfold atcmdReceiveDataLeave
  simp only
  generalize hrx₁ : (if rx.mode.params.exit.length ≤ i then
    { rx with
      buf := Memory.memcpy rx.buf rx.mode.cnt (buf.take (i + 1 - rx.mode.params.exit.length))
      mode := { rx.mode with cnt := rx.mode.cnt + (i + 1 - rx.mode.params.exit.length) } }
    else rx) = rx₁
  have h₁ : rx₁.out = rx.out ∧ rx₁.mode.enable = true
      ∧ rx₁.mode.sendTimeout = rx.mode.sendTimeout := by
    rw [← hrx₁]
    split_ifs <;> exact ⟨rfl, hen, rfl⟩
  obtain ⟨hout₁, hen₁, htimeout₁⟩ := h₁
  obtain ⟨hmode, o, hout, ho⟩ := atcmdReceiveData_spec S (rx₁.buf.take rx₁.mode.cnt) rx₁
  by_cases hp : (rx.mode.params.passthrough && decide (0 < rx₁.mode.cnt)) = true
  · simp only [hp, if_true, Receiver.emit]
    rw [hmode, hout, hout₁]
    refine ⟨⟨⟨o ++ [_], List.append_assoc _ _ _, ?_⟩, ?_, ?_, ?_⟩, disable_enable _⟩
    · intro x hx
      rcases List.mem_append.1 hx with hx | hx
      · exact ho x hx
      · rw [List.mem_singleton.1 hx, isIdle_exit]
    · rw [disable_timeout, htimeout₁]
    · simp [atcmdDataModeDisable, hen₁]
    · simp [disable_enable]
  · rw [Bool.not_eq_true] at hp
    simp only [hp, Bool.false_eq_true, if_false, Receiver.emit]
    refine ⟨⟨⟨[_], by rw [hout₁], ?_⟩, ?_, ?_, ?_⟩, disable_enable _⟩
    · intro x hx
      rw [List.mem_singleton.1 hx, isIdle_exit]
    · rw [disable_timeout, htimeout₁]
    · simp [atcmdDataModeDisable, hen₁]
    · simp [disable_enable]

/-- The task has nothing to tell of a session that was continued right now. -/
theorem taskPass_continued {s : Timed ε} (hidle : s.rx.mode.idle = false)
    (hlast : s.rx.mode.lastSendTime = atcmdSysNow s.time) : s.taskPass.rx = s.rx := by
  unfold Timed.taskPass atcmdDataModeTask
  simp only [hlast, elapsed_sysNow (Nat.le_refl s.time), Nat.sub_self, hidle, Bool.not_false, if_true]
  by_cases h : (s.rx.mode.enable && decide (0 < atcmdSysNow s.time)
      && decide (0 < s.rx.mode.sendTimeout)) = true
  · have hlt : UInt32.ofNat 0 < s.rx.mode.sendTimeout := by
      simp only [Bool.and_eq_true, decide_eq_true_eq] at h
      exact h.2
    simp only [if_pos h, if_pos hlt, ite_self]
  · simp only [if_neg h, ite_self]

/-! ## A step -/

/-- No idle event can come of a pass of the task: the session is idle already, the task was never
told to wait, or it still waits. -/
def Held (s : Timed ε) : Prop :=
  s.rx.mode.idle = true ∨ (s.rx.mode.lastSendTime = 0 ∧ s.wake = none)
    ∨ ∃ t₀, Armed t₀ s ∧ s.wake = some (t₀ + s.rx.mode.sendTimeout.toNat)

/-- Where a session is. -/
inductive Phase (w : Observed ε) : Prop where
  | ended : w.s.rx.mode.enable = false → w.s.rx.mode.idle = false → w.s.taking = none →
      w.events = [] → Phase w
  | waiting : w.s.taking = none → Armed w.start w.s →
      w.s.wake = some (w.start + w.s.rx.mode.sendTimeout.toNat) → w.events = [] → Phase w
  | unarmed : w.s.rx.mode.enable = true → w.s.taking = none → w.s.rx.mode.idle = false →
      w.s.rx.mode.lastSendTime = 0 → w.s.wake = none →
      w.s.time < w.start + w.s.rx.mode.sendTimeout.toNat → w.events = [] → Phase w
  | told : w.s.rx.mode.enable = true → w.s.taking = none → w.s.rx.mode.idle = true →
      w.start + w.s.rx.mode.sendTimeout.toNat ≤ w.s.time →
      w.events = [w.start + w.s.rx.mode.sendTimeout.toNat] → Phase w
  | taking : w.s.rx.mode.enable = true → w.s.taking.isSome = true → Held w.s → w.events = [] →
      Phase w

/-- What holds of a session while every step is in time. -/
structure Observed.Inv (timeout : ℕ) (w : Observed ε) : Prop where
  sending : w.s.taking = none → w.s.sending = false
  past : ∀ x ∈ w.past, x.Notified timeout
  pos : 0 < timeout
  timeout : w.s.rx.mode.sendTimeout.toNat = timeout
  phase : Phase w

theorem idleEvents_append {s s' : Timed ε} {o : List Out} (ho : s'.rx.out = s.rx.out ++ o) :
    idleEvents s s' = List.replicate (o.countP Out.isIdle) s'.time := by
  unfold idleEvents
  rw [ho, List.drop_left]

theorem idleEvents_nil {s s' : Timed ε} {o : List Out} (ho : s'.rx.out = s.rx.out ++ o)
    (hidle : ∀ x ∈ o, x.isIdle = false) : idleEvents s s' = [] := by
  rw [idleEvents_append ho, List.countP_eq_zero.2 (by simpa using hidle)]
  rfl

/-- A step in which nothing is told goes on with the stretch, or begins a new one. -/
theorem next_silent {w : Observed ε} {s' : Timed ε} {o : List Out}
    (ho : s'.rx.out = w.s.rx.out ++ o) (hidle : ∀ x ∈ o, x.isIdle = false) :
    w.next s' = if s'.quiet = w.s.quiet then { w with s := s' }
      else { s := s', start := s'.time, events := [], past := w.past ++ [w.last] } := by
  unfold Observed.next
  rw [idleEvents_nil ho hidle, List.append_nil]

theorem Observed.Inv.last {timeout : ℕ} {w : Observed ε} (h : w.Inv timeout) :
    w.last.Notified timeout := by
  unfold Stretch.Notified Observed.last Timed.quiet
  rcases h.phase with ⟨hen, -, -, hev⟩ | ⟨ht, harmed, -, hev⟩ | ⟨hen, ht, -, -, -, hshort, hev⟩
    | ⟨hen, ht, -, htime, hev⟩ | ⟨hen, ht, -, hev⟩
  · simp [hen, hev]
  · have := harmed.short
    rw [h.timeout] at this
    simp only [hev, harmed.enable, ht, Option.isNone_none, Bool.and_self, true_and]
    rw [if_neg (by omega)]
  · rw [h.timeout] at hshort
    simp only [hev, hen, ht, Option.isNone_none, Bool.and_self, true_and]
    rw [if_neg (by omega)]
  · rw [h.timeout] at htime hev
    simp [hen, ht, hev, htime]
  · obtain ⟨c, hc⟩ := Option.isSome_iff_exists.1 ht
    simp [hc, hev]

theorem Observed.Inv.notified {timeout : ℕ} {w : Observed ε} (h : w.Inv timeout) :
    w.Notified timeout where
  stretches := by
    intro x hx
    rcases List.mem_append.1 hx with hx | hx
    · exact h.past x hx
    · rw [List.mem_singleton.1 hx]
      exact h.last
  idle := by
    intro htaking
    unfold Timed.quiet
    rcases h.phase with ⟨hen, hidle, -, -⟩ | ⟨ht, harmed, -, -⟩ | ⟨hen, ht, hidle, -, -, hshort, -⟩
      | ⟨hen, ht, hidle, htime, -⟩ | ⟨-, ht, -, -⟩
    · simp [hen, hidle]
    · have := harmed.short
      rw [h.timeout] at this
      simp only [harmed.idle, Bool.false_eq_true, false_iff, not_and]
      omega
    · rw [h.timeout] at hshort
      simp only [hidle, Bool.false_eq_true, false_iff, not_and]
      omega
    · rw [h.timeout] at htime
      simp [hen, ht, hidle, htime]
    · rw [htaking] at ht
      cases ht

/-- The same stretch goes on after a step in which nothing is told. -/
theorem Observed.Inv.same {timeout : ℕ} {w : Observed ε} {s' : Timed ε} {o : List Out}
    (h : w.Inv timeout) (ho : s'.rx.out = w.s.rx.out ++ o) (hidle : ∀ x ∈ o, x.isIdle = false)
    (htimeout : s'.rx.mode.sendTimeout = w.s.rx.mode.sendTimeout) (hq : s'.quiet = w.s.quiet)
    (hsending : s'.taking = none → s'.sending = false) (hphase : Phase { w with s := s' }) :
    (w.next s').Inv timeout := by
  rw [next_silent ho hidle, if_pos hq]
  exact ⟨hsending, h.past, h.pos, by rw [← h.timeout, ← htimeout], hphase⟩

/-- A new stretch begins after a step in which nothing is told. -/
theorem Observed.Inv.other {timeout : ℕ} {w : Observed ε} {s' : Timed ε} {o : List Out}
    (h : w.Inv timeout) (ho : s'.rx.out = w.s.rx.out ++ o) (hidle : ∀ x ∈ o, x.isIdle = false)
    (htimeout : s'.rx.mode.sendTimeout = w.s.rx.mode.sendTimeout) (hq : s'.quiet ≠ w.s.quiet)
    (hsending : s'.taking = none → s'.sending = false)
    (hphase : Phase
      { s := s', start := s'.time, events := [], past := w.past ++ [w.last] }) :
    (w.next s').Inv timeout := by
  rw [next_silent ho hidle, if_neg hq]
  refine ⟨hsending, fun x hx => ?_, h.pos, by rw [← h.timeout, ← htimeout], hphase⟩
  rcases List.mem_append.1 hx with hx | hx
  · exact h.past x hx
  · rw [List.mem_singleton.1 hx]
    exact h.last

theorem Armed.later {t₀ : ℕ} {s s' : Timed ε} (h : Armed t₀ s) (hrx : s'.rx = s.rx)
    (hle : s.time ≤ s'.time) (ht : s'.time < t₀ + s.rx.mode.sendTimeout.toNat) : Armed t₀ s' := by
  obtain ⟨henable, hidle, hlast, hnonzero, hsince, -⟩ := h
  rw [← hrx] at henable hidle hlast ht
  exact ⟨henable, hidle, hlast, hnonzero, Nat.le_trans hsince hle, ht⟩

theorem Held.taskPass {s : Timed ε} (h : Held s) : s.taskPass.rx = s.rx ∧ Held s.taskPass := by
  rcases h with hidle | hzero | ⟨t₀, harmed, hwake⟩
  · have hrx := taskPass_idle hidle
    exact ⟨hrx, .inl (by rw [hrx]; exact hidle)⟩
  · rw [taskPass_zero hzero.1]
    exact ⟨rfl, .inr (.inl ⟨hzero.1, rfl⟩)⟩
  · rw [harmed.taskPass]
    exact ⟨rfl, .inr (.inr ⟨t₀, harmed.later rfl (Nat.le_refl _) harmed.short, rfl⟩)⟩

/-- The timeout of a quiet session runs out. -/
theorem Observed.Inv.due {timeout d : ℕ} {w : Observed ε} (h : w.Inv timeout)
    (ht : w.s.taking = none) (harmed : Armed w.start w.s) (hev : w.events = [])
    (hdue : w.s.time + d = w.start + w.s.rx.mode.sendTimeout.toNat) :
    (w.next { w.s with time := w.s.time + d }.taskPass).Inv timeout := by
  have hpos : 0 < w.s.rx.mode.sendTimeout.toNat := h.timeout ▸ h.pos
  rw [taskPass_due (s := { w.s with time := w.s.time + d }) harmed.enable harmed.idle harmed.last
    harmed.nonzero hpos hdue]
  simp only [h.sending ht, Bool.false_eq_true, if_false]
  unfold Observed.next
  rw [if_pos (by unfold Timed.quiet; rfl), hev, List.nil_append,
    idleEvents_append (o := [atcmdDataModeTimeout w.s.rx.mode]) rfl]
  refine ⟨fun _ => rfl, h.past, h.pos, h.timeout,
    .told harmed.enable ht rfl (Nat.le_of_eq hdue.symm) ?_⟩
  simp only [List.countP_singleton, isIdle_timeout, if_true]
  rw [hdue]
  rfl

/-- The timeout runs out while a call is in `_atcmd_socket_send_data`: nothing is told. -/
theorem Observed.Inv.dueSending {timeout d t₀ : ℕ} {w : Observed ε} (h : w.Inv timeout)
    (ht : w.s.taking.isSome = true) (harmed : Armed t₀ w.s) (hev : w.events = [])
    (hdue : w.s.time + d = t₀ + w.s.rx.mode.sendTimeout.toNat) (hsending : w.s.sending = true) :
    (w.next { w.s with time := w.s.time + d }.taskPass).Inv timeout := by
  have hpos : 0 < w.s.rx.mode.sendTimeout.toNat := h.timeout ▸ h.pos
  rw [taskPass_due (s := { w.s with time := w.s.time + d }) harmed.enable harmed.idle harmed.last
    harmed.nonzero hpos hdue]
  simp only [hsending, if_true]
  have hsome : w.s.taking ≠ none := Option.isSome_iff_ne_none.1 ht
  exact h.same (o := []) (by simp) (by simp) rfl rfl (fun hnone => absurd hnone hsome)
    (.taking harmed.enable ht (.inl rfl) hev)

/-- A quiet session that was told idle stays so whatever the task does. -/
theorem Observed.Inv.stayTold {timeout : ℕ} {w : Observed ε} {s' : Timed ε} (h : w.Inv timeout)
    (hen : w.s.rx.mode.enable = true) (ht : w.s.taking = none) (hidle : w.s.rx.mode.idle = true)
    (htime : w.start + w.s.rx.mode.sendTimeout.toNat ≤ w.s.time)
    (hev : w.events = [w.start + w.s.rx.mode.sendTimeout.toNat]) (hmode : s'.rx.mode = w.s.rx.mode)
    (hout : s'.rx.out = w.s.rx.out) (htaking : s'.taking = w.s.taking)
    (hsending : s'.sending = w.s.sending) (hle : w.s.time ≤ s'.time) :
    (w.next s').Inv timeout := by
  refine h.same (o := []) (by simp [hout]) (by simp) (by rw [hmode]) ?_ ?_ (.told ?_ ?_ ?_ ?_ ?_)
  · unfold Timed.quiet
    rw [hmode, htaking]
  · rw [htaking, hsending]
    exact h.sending
  · exact hmode ▸ hen
  · exact htaking.trans ht
  · exact hmode ▸ hidle
  · simp only [hmode]
    exact Nat.le_trans htime hle
  · simp only [hmode]
    exact hev

/-- A call under way stays so whatever the task does. -/
theorem Observed.Inv.stayTaking {timeout : ℕ} {w : Observed ε} {s' : Timed ε} (h : w.Inv timeout)
    (hen : w.s.rx.mode.enable = true) (ht : w.s.taking.isSome = true) (hev : w.events = [])
    (hrx : s'.rx = w.s.rx) (htaking : s'.taking = w.s.taking) (hheld : Held s') :
    (w.next s').Inv timeout := by
  refine h.same (o := []) (by simp [hrx]) (by simp) (by rw [hrx]) ?_ ?_ (.taking ?_ ?_ hheld hev)
  · unfold Timed.quiet
    rw [hrx, htaking]
  · rw [htaking]
    intro hnone
    rw [hnone] at ht
    cases ht
  · exact hrx ▸ hen
  · simp only [htaking]
    exact ht

/-- Time goes on while a call is under way. -/
theorem Observed.Inv.advanceTaking {timeout d : ℕ} {w : Observed ε} (h : w.Inv timeout)
    (hc : ¬ Mistimes w (.advance d)) (hen : w.s.rx.mode.enable = true)
    (ht : w.s.taking.isSome = true) (hheld : Held w.s) (hev : w.events = [])
    (hle : w.s.wake.all (fun t => w.s.time + d ≤ t) = true) :
    (w.next (if w.s.wake = some (w.s.time + d) then
      { w.s with time := w.s.time + d }.taskPass else { w.s with time := w.s.time + d })).Inv
        timeout := by
  rcases hheld with hidle | ⟨hzero, hwake⟩ | ⟨t₀, harmed, hwake⟩
  · have hheld : Held { w.s with time := w.s.time + d } := .inl hidle
    split_ifs
    · exact h.stayTaking hen ht hev hheld.taskPass.1 rfl hheld.taskPass.2
    · exact h.stayTaking hen ht hev rfl rfl hheld
  · rw [if_neg (by rw [hwake]; simp)]
    exact h.stayTaking hen ht hev rfl rfl (.inr (.inl ⟨hzero, hwake⟩))
  · have hne : w.s.taking ≠ none := by
      intro hnone
      rw [hnone] at ht
      cases ht
    by_cases hdue : w.s.wake = some (w.s.time + d)
    · have hsending : w.s.sending = true := by
        by_contra hno
        exact hc ⟨harmed.idle, .inr ⟨hne, Bool.eq_false_iff.2 hno, hdue⟩⟩
      rw [if_pos hdue]
      exact h.dueSending ht harmed hev (Option.some.inj (hdue.symm.trans hwake)) hsending
    · rw [if_neg hdue]
      rw [hwake] at hle hdue
      simp only [Option.all_some, decide_eq_true_eq, Option.some.injEq] at hle hdue
      refine h.stayTaking hen ht hev rfl rfl (.inr (.inr ⟨t₀, ?_, hwake⟩))
      exact harmed.later rfl (Nat.le_add_right _ _)
        (Nat.lt_of_le_of_ne hle fun heq => hdue heq.symm)

/-- Time goes on. -/
theorem Observed.Inv.advance {timeout d : ℕ} {w : Observed ε} {s' : Timed ε} (h : w.Inv timeout)
    (hc : ¬ Mistimes w (.advance d)) (hs : timedStep S w.s (.advance d) = some s') :
    (w.next s').Inv timeout := by
  unfold timedStep at hs
  simp only [Option.ite_none_right_eq_some, Option.some.injEq] at hs
  obtain ⟨⟨hen, hle⟩, rfl⟩ := hs
  rcases h.phase with ⟨hen', -, -, -⟩ | ⟨ht, harmed, hwake, hev⟩
    | ⟨-, ht, hidle, hzero, hwake, -, hev⟩ | ⟨-, ht, hidle, htime, hev⟩ | ⟨-, ht, hheld, hev⟩
  · rw [hen] at hen'
    cases hen'
  · rw [hwake] at hle
    simp only [Option.all_some, decide_eq_true_eq] at hle
    by_cases hdue : w.s.time + d = w.start + w.s.rx.mode.sendTimeout.toNat
    · rw [if_pos (by rw [hwake, hdue])]
      exact h.due ht harmed hev hdue
    · rw [if_neg (by rw [hwake]; simpa using Ne.symm hdue)]
      refine h.same (o := []) (by simp) (by simp) rfl rfl h.sending (.waiting ht ?_ hwake hev)
      exact harmed.later rfl (Nat.le_add_right _ _) (Nat.lt_of_le_of_ne hle hdue)
  · have hquiet : w.s.quiet = true := by
      unfold Timed.quiet
      simp [hen, ht]
    rw [if_neg (by rw [hwake]; simp)]
    refine h.same (o := []) (by simp) (by simp) rfl rfl h.sending
      (.unarmed hen ht hidle hzero hwake ?_ hev)
    exact Nat.lt_of_not_le fun hlong => hc ⟨hidle, .inl ⟨hquiet, hzero, hlong⟩⟩
  · split_ifs
    · have hrx := taskPass_idle (s := { w.s with time := w.s.time + d }) hidle
      exact h.stayTold hen ht hidle htime hev (by rw [hrx]) (by rw [hrx]) rfl rfl
        (Nat.le_add_right _ _)
    · exact h.stayTold hen ht hidle htime hev rfl rfl rfl rfl (Nat.le_add_right _ _)
  · exact h.advanceTaking hc hen ht hheld hev hle

/-- The wait of the task is over early. -/
theorem Observed.Inv.early {timeout : ℕ} {w : Observed ε} {s' : Timed ε} (h : w.Inv timeout)
    (hs : timedStep S w.s .early = some s') : (w.next s').Inv timeout := by
  unfold timedStep at hs
  simp only [Option.ite_none_right_eq_some, Option.some.injEq] at hs
  obtain ⟨hen, rfl⟩ := hs
  rcases h.phase with ⟨hen', -, -, -⟩ | ⟨ht, harmed, hwake, hev⟩
    | ⟨-, ht, hidle, hzero, hwake, hshort, hev⟩ | ⟨-, ht, hidle, htime, hev⟩ | ⟨-, ht, hheld, hev⟩
  · rw [hen] at hen'
    cases hen'
  · rw [harmed.taskPass]
    refine h.same (o := []) (by simp) (by simp) rfl rfl h.sending (.waiting ht ?_ rfl hev)
    exact harmed.later rfl (Nat.le_refl _) harmed.short
  · rw [taskPass_zero hzero]
    exact h.same (o := []) (by simp) (by simp) rfl rfl h.sending
      (.unarmed hen ht hidle hzero rfl hshort hev)
  · have hrx := taskPass_idle hidle
    exact h.stayTold hen ht hidle htime hev (by rw [hrx]) (by rw [hrx]) rfl rfl (Nat.le_refl _)
  · exact h.stayTaking hen ht hev hheld.taskPass.1 rfl hheld.taskPass.2

/-- A call is in `_atcmd_socket_send_data`, or no longer is. -/
theorem Observed.Inv.sends {timeout : ℕ} {b : Bool} {w : Observed ε} {s' : Timed ε}
    (h : w.Inv timeout) (hs : timedStep S w.s (.sending b) = some s') :
    (w.next s').Inv timeout := by
  unfold timedStep at hs
  simp only [Option.ite_none_right_eq_some, Option.some.injEq] at hs
  obtain ⟨⟨ht, -⟩, rfl⟩ := hs
  rcases h.phase with ⟨-, -, hnone, -⟩ | ⟨hnone, -, -, -⟩ | ⟨-, hnone, -, -, -, -, -⟩
    | ⟨-, hnone, -, -, -⟩ | ⟨hen, -, hheld, hev⟩
  any_goals
    rw [hnone] at ht
    cases ht
  refine h.stayTaking hen ht hev rfl rfl ?_
  rcases hheld with hidle | hzero | ⟨t₀, harmed, hwake⟩
  · exact .inl hidle
  · exact .inr (.inl hzero)
  · exact .inr (.inr ⟨t₀, harmed.later rfl (Nat.le_refl _) harmed.short, hwake⟩)

/-- After a pass of the task a session that was continued right now is held. -/
theorem held_continued {s : Timed ε} (hen : s.rx.mode.enable = true)
    (hidle : s.rx.mode.idle = false) (hlast : s.rx.mode.lastSendTime = atcmdSysNow s.time)
    (hpos : 0 < s.rx.mode.sendTimeout.toNat) : Held s.taskPass := by
  by_cases hzero : atcmdSysNow s.time = 0
  · rw [taskPass_zero (hlast.trans hzero)]
    exact .inr (.inl ⟨hlast.trans hzero, rfl⟩)
  · have harmed : Armed s.time s := ⟨hen, hidle, hlast, hzero, Nat.le_refl _, by omega⟩
    rw [harmed.taskPass]
    exact .inr (.inr ⟨s.time, harmed.later rfl (Nat.le_refl _) harmed.short, rfl⟩)

/-- A call begins to take data. -/
theorem Observed.Inv.begin {timeout : ℕ} {w : Observed ε} {s' : Timed ε} {o : List Out}
    (h : w.Inv timeout) (ht : w.s.taking = none) (hen : w.s.rx.mode.enable = true)
    (ho : s'.rx.out = w.s.rx.out ++ o) (hidle : ∀ x ∈ o, x.isIdle = false)
    (htimeout : s'.rx.mode.sendTimeout = w.s.rx.mode.sendTimeout)
    (hen' : s'.rx.mode.enable = true) (htaking : s'.taking.isSome = true) (hheld : Held s') :
    (w.next s').Inv timeout := by
  obtain ⟨c, hc⟩ := Option.isSome_iff_exists.1 htaking
  refine h.other ho hidle htimeout ?_ (by simp [hc]) (.taking hen' htaking hheld rfl)
  unfold Timed.quiet
  simp [hen, ht, hc]

/-- A call begins. -/
theorem Observed.Inv.take {timeout : ℕ} {buf : Bytes} {w : Observed ε} {s' : Timed ε}
    (h : w.Inv timeout) (hs : timedStep S w.s (.take buf) = some s') :
    (w.next s').Inv timeout := by
  unfold timedStep at hs
  simp only [Option.ite_none_right_eq_some, Option.some.injEq] at hs
  obtain ⟨⟨hen, ht, -⟩, rfl⟩ := hs
  unfold Timed.take
  rcases h.phase with ⟨hen', -, -, -⟩ | ⟨-, harmed, hwake, hev⟩
    | ⟨-, -, hidle, hzero, hwake, -, -⟩ | ⟨-, -, hidle, htime, hev⟩ | ⟨-, ht', -, -⟩
  · rw [hen] at hen'
    cases hen'
  · rw [if_neg (by simp [harmed.idle])]
    refine h.begin (o := []) ht hen (by simp) (by simp) rfl hen rfl (.inr (.inr ⟨_, ?_, hwake⟩))
    exact harmed.later rfl (Nat.le_refl _) harmed.short
  · rw [if_neg (by simp [hidle])]
    exact h.begin (o := []) ht hen (by simp) (by simp) rfl hen rfl (.inr (.inl ⟨hzero, hwake⟩))
  · rw [if_pos hidle]
    split
    · exact h.begin (o := []) ht hen (by simp) (by simp) rfl hen rfl (.inl hidle)
    · rename_i i _
      have hpass := taskPass_continued (s :=
        { w.s with
          rx := atcmdTransmitOk (atcmdSysNow w.s.time) { w.s.rx with cntExitCmd := 0 }
          taking := some (.exit i buf) })
        (by simp [atcmdTransmitOk, atcmdDataModeContinue, hen])
        (by simp [atcmdTransmitOk, atcmdDataModeContinue, hen])
      refine h.begin (o := [.ok]) ht hen ?_ (by simp [Out.isIdle]) ?_ ?_ rfl (held_continued ?_ ?_
        ?_ ?_)
      · rw [hpass]
        rfl
      · rw [hpass]
        simp [atcmdTransmitOk, atcmdDataModeContinue, hen]
      · rw [hpass]
        simp [atcmdTransmitOk, atcmdDataModeContinue, hen]
      · simp [atcmdTransmitOk, atcmdDataModeContinue, hen]
      · simp [atcmdTransmitOk, atcmdDataModeContinue, hen]
      · simp [atcmdTransmitOk, atcmdDataModeContinue, hen]
      · simp only [atcmdTransmitOk, atcmdDataModeContinue, hen, if_true]
        rw [h.timeout]
        exact h.pos
    · exact h.stayTold hen ht hidle htime hev rfl rfl rfl rfl (Nat.le_refl _)
  · rw [ht] at ht'
    cases ht'

/-- A session that was continued right now begins to wait, if the clock is not zero. -/
theorem phase_continued {s : Timed ε} {past : List Stretch} (hen : s.rx.mode.enable = true)
    (ht : s.taking = none) (hidle : s.rx.mode.idle = false)
    (hlast : s.rx.mode.lastSendTime = atcmdSysNow s.time) (hpos : 0 < s.rx.mode.sendTimeout.toNat) :
    Phase { s := s.taskPass, start := s.time, events := [], past := past } := by
  by_cases hzero : atcmdSysNow s.time = 0
  · rw [taskPass_zero (hlast.trans hzero)]
    exact .unarmed hen ht hidle (hlast.trans hzero) rfl (Nat.lt_add_of_pos_right hpos) rfl
  · have harmed : Armed s.time s :=
      ⟨hen, hidle, hlast, hzero, Nat.le_refl _, Nat.lt_add_of_pos_right hpos⟩
    rw [harmed.taskPass]
    exact .waiting ht (harmed.later rfl (Nat.le_refl _) harmed.short) rfl rfl

/-- A call ends, and the session is quiet or has ended. -/
theorem Observed.Inv.finish {timeout : ℕ} {w : Observed ε} {s' : Timed ε} (h : w.Inv timeout)
    (hs : timedStep S w.s .finish = some s') : (w.next s').Inv timeout := by
  unfold timedStep at hs
  simp only [Option.ite_none_left_eq_some, Bool.not_eq_true, Option.map_eq_some_iff] at hs
  obtain ⟨hsending, t, ht, rfl⟩ := hs
  rcases h.phase with ⟨-, -, hnone, -⟩ | ⟨hnone, -, -, -⟩ | ⟨-, hnone, -, -, -, -, -⟩
    | ⟨-, hnone, -, -, -⟩ | ⟨hen, -, -, hev⟩
  any_goals
    rw [hnone] at ht
    cases ht
  have hquiet : w.s.quiet = false := by
    unfold Timed.quiet
    simp [ht]
  have hended : ∀ rx', Takes (atcmdSysNow w.s.time) w.s.rx rx' → rx'.mode.enable = false →
      (w.next { w.s with rx := rx', taking := none }).Inv timeout := by
    rintro rx' ⟨⟨o, ho, hoidle⟩, htimeout, hidle, -⟩ hen'
    refine h.same ho hoidle htimeout ?_ (fun _ => hsending) (.ended hen' hidle rfl hev)
    rw [hquiet]
    unfold Timed.quiet
    simp [hen']
  cases t with
  | data buf =>
    have htakes := atcmdReceiveDataBody_takes S (atcmdSysNow w.s.time) buf w.s.rx hen
    unfold Timed.finish
    simp only
    split_ifs with hen'
    · obtain ⟨⟨o, ho, hoidle⟩, htimeout, hidle, hlast⟩ := htakes
      have hrx := taskPass_continued (s := { w.s with
          rx := (atcmdReceiveDataBody S (atcmdSysNow w.s.time) buf w.s.rx).1, taking := none })
        hidle (hlast hen')
      refine h.other (o := o) (by rw [hrx]; exact ho) hoidle (by rw [hrx]; exact htimeout) ?_
        (fun _ => hsending) (phase_continued hen' rfl hidle (hlast hen') ?_)
      · rw [hquiet]
        unfold Timed.quiet
        simp [hrx, hen']
      · simp only [htimeout, h.timeout]
        exact h.pos
    · rw [Bool.not_eq_true] at hen'
      exact hended _ htakes hen'
  | exit i buf =>
    obtain ⟨htakes, hen'⟩ := atcmdReceiveDataLeave_takes S (atcmdSysNow w.s.time) i buf w.s.rx hen
    exact hended _ htakes hen'

/-! ## A run -/

theorem DataModeParams.WholeSeconds.pos {p : DataModeParams} (h : p.WholeSeconds) :
    0 < (p.timeout + 100).toNat := by
  obtain ⟨sec, hsec⟩ := h
  rw [hsec, UInt32.toNat_add, UInt32.toNat_ofNat', show (100 : UInt32).toNat = 100 from rfl]
  omega

theorem Observed.Inv.start {p : DataModeParams} {time : ℕ} {rx : Receiver ε} {w : Observed ε}
    (hp : p.WholeSeconds) (hw : observeStart p time rx = some w) :
    w.Inv (p.timeout + 100).toNat := by
  obtain ⟨s, hs, rfl⟩ := Option.map_eq_some_iff.1 hw
  obtain ⟨s₀, hs₀, rfl⟩ := Option.map_eq_some_iff.1 hs
  obtain ⟨-, hrx⟩ := sessionStart_eq_some hs₀
  have hidle : s₀.rx.mode.idle = false := by rw [hrx]
  have hlast : s₀.rx.mode.lastSendTime = atcmdSysNow time := by rw [hrx]
  have htimeout : s₀.rx.mode.sendTimeout = p.timeout + 100 := by rw [hrx]
  have hpass := taskPass_continued
    (s := { rx := s₀.rx, taking := none, sending := false, time := time, wake := none }) hidle hlast
  refine ⟨fun _ => rfl, by simp, hp.pos, by rw [hpass, htimeout],
    phase_continued ?_ rfl hidle hlast ?_⟩
  · simp only [hrx]
  · simp only [htimeout]
    exact hp.pos

theorem Observed.Inv.step {timeout : ℕ} {w w' : Observed ε} {i : TimedInput} (h : w.Inv timeout)
    (hc : ¬ Mistimes w i) (hs : observeStep S w i = some w') : w'.Inv timeout := by
  obtain ⟨s', hs', rfl⟩ := Option.map_eq_some_iff.1 hs
  cases i with
  | advance d => exact h.advance hc hs'
  | early => exact h.early hs'
  | take buf => exact h.take hs'
  | sending b => exact h.sends hs'
  | finish => exact h.finish hs'

/-- A session that was last continued at a clock value of zero is not told idle. -/
theorem Observed.Inv.missed {timeout d : ℕ} {w : Observed ε} (h : w.Inv timeout)
    (hidle : w.s.rx.mode.idle = false) (hquiet : w.s.quiet = true)
    (hzero : w.s.rx.mode.lastSendTime = 0)
    (hlong : w.start + w.s.rx.mode.sendTimeout.toNat ≤ w.s.time + d) :
    ∃ w', observeStep S w (.advance d) = some w' ∧ ¬ w'.Notified timeout := by
  have hq := hquiet
  unfold Timed.quiet at hq
  simp only [Bool.and_eq_true, Option.isNone_iff_eq_none] at hq
  obtain ⟨hwake, hev⟩ : w.s.wake = none ∧ w.events = [] := by
    rcases h.phase with ⟨hen, -, -, -⟩ | ⟨-, harmed, -, -⟩ | ⟨-, -, -, -, hwake, -, hev⟩
      | ⟨-, -, htold, -, -⟩ | ⟨-, ht, -, -⟩
    · rw [hq.1] at hen
      cases hen
    · exact absurd (harmed.last.symm.trans hzero) harmed.nonzero
    · exact ⟨hwake, hev⟩
    · rw [hidle] at htold
      cases htold
    · rw [hq.2] at ht
      cases ht
  have hstep : timedStep S w.s (.advance d) = some { w.s with time := w.s.time + d } := by
    rw [timedStep, if_pos ⟨hq.1, by rw [hwake]; rfl⟩]
    exact congrArg some (if_neg (by rw [hwake]; simp))
  refine ⟨_, by rw [observeStep, hstep]; rfl, fun hn => ?_⟩
  have hlast := hn.stretches _ (List.mem_append_right _ (List.mem_singleton_self _))
  rw [next_silent (o := []) (by simp) (by simp), if_pos (by unfold Timed.quiet; rfl)] at hlast
  unfold Stretch.Notified Observed.last at hlast
  rw [h.timeout] at hlong
  have hquiet' : ({ w.s with time := w.s.time + d } : Timed ε).quiet = true := hquiet
  simp only [hev, hquiet', true_and, if_pos hlong] at hlast
  cases hlast

/-- A session is told idle in the middle of a call. -/
theorem Observed.Inv.hasty {timeout d : ℕ} {w : Observed ε} (h : w.Inv timeout)
    (hidle : w.s.rx.mode.idle = false) (ht : w.s.taking ≠ none) (hsending : w.s.sending = false)
    (hdue : w.s.wake = some (w.s.time + d)) :
    ∃ w', observeStep S w (.advance d) = some w' ∧ ¬ w'.Notified timeout := by
  obtain ⟨hen, t₀, harmed, hwake⟩ : w.s.rx.mode.enable = true ∧ ∃ t₀, Armed t₀ w.s
      ∧ w.s.wake = some (t₀ + w.s.rx.mode.sendTimeout.toNat) := by
    rcases h.phase with ⟨-, -, hnone, -⟩ | ⟨hnone, -, -, -⟩ | ⟨-, hnone, -, -, -, -, -⟩
      | ⟨-, hnone, -, -, -⟩ | ⟨hen, -, htold | ⟨-, hno⟩ | ⟨t₀, harmed, hwake⟩, -⟩
    · exact absurd hnone ht
    · exact absurd hnone ht
    · exact absurd hnone ht
    · exact absurd hnone ht
    · rw [hidle] at htold
      cases htold
    · rw [hno] at hdue
      cases hdue
    · exact ⟨hen, t₀, harmed, hwake⟩
  have hpass : ({ w.s with time := w.s.time + d } : Timed ε).taskPass = { w.s with
      rx := { w.s.rx with
        mode := { w.s.rx.mode with idle := true }
        out := w.s.rx.out ++ [atcmdDataModeTimeout w.s.rx.mode] }
      time := w.s.time + d
      wake := none } := by
    rw [taskPass_due (s := { w.s with time := w.s.time + d }) harmed.enable harmed.idle harmed.last
      harmed.nonzero (h.timeout ▸ h.pos) (Option.some.inj (hdue.symm.trans hwake))]
    simp only [hsending, Bool.false_eq_true, if_false]
  have hstep : timedStep S w.s (.advance d) =
      some ({ w.s with time := w.s.time + d } : Timed ε).taskPass := by
    rw [timedStep, if_pos ⟨hen, by rw [hdue]; simp⟩]
    exact congrArg some (if_pos hdue)
  refine ⟨_, by rw [observeStep, hstep]; rfl, fun hn => ?_⟩
  obtain ⟨t, htaking⟩ := Option.ne_none_iff_exists'.1 ht
  have hquiet : w.s.quiet = false := by
    unfold Timed.quiet
    simp [htaking]
  have hlast := hn.stretches _ (List.mem_append_right _ (List.mem_singleton_self _))
  rw [hpass] at hlast
  unfold Observed.next at hlast
  rw [if_pos (by unfold Timed.quiet; rfl),
    idleEvents_append (o := [atcmdDataModeTimeout w.s.rx.mode]) rfl] at hlast
  unfold Stretch.Notified Observed.last Timed.quiet at hlast
  simp [htaking, isIdle_timeout] at hlast

/-- In every state of a run a session has one idle event in each quiet stretch of its timeout and no
other exactly if no time is missed, and none comes in the middle of a call. -/
theorem idle_notified_iff {p : DataModeParams} {time : ℕ} {rx : Receiver ε} {w : Observed ε}
    (hp : p.WholeSeconds) (hw : observeStart p time rx = some w) (is : List TimedInput) :
    (∀ js w', js <+: is → run (observeStep S) w js = some w' → w'.Notified (p.timeout + 100).toNat)
      ↔ Along (observeStep S) (fun w i => ¬ Mistimes w i) w is := by
  refine along_iff (fun _ h => h.notified) (fun _ _ _ h hc hs => h.step hc hs) ?_ is w
    (Observed.Inv.start hp hw)
  intro w i h hc
  rw [not_not] at hc
  cases i with
  | advance d =>
    rcases hc with ⟨hidle, ⟨hquiet, hzero, hlong⟩ | ⟨ht, hsending, hdue⟩⟩
    · exact h.missed hidle hquiet hzero hlong
    · exact h.hasty hidle ht hsending hdue
  | early | take | sending | finish => exact hc.elim

/-- A passthrough session that is continued at a clock value of zero and again in time. The timeout
runs out while a byte is sent, and later in two seconds without one. -/
def wrapInputs : List TimedInput :=
  [.advance 5, .take [0], .sending true, .sending false, .finish, .advance 1000, .take [0],
    .sending true, .advance 5, .sending false, .finish, .advance 1090, .take [0], .sending true,
    .advance 10, .sending false, .finish, .advance 1100, .advance 900]

theorem idle_notified_iff_wrap : ∃ w w' : Observed Unit,
    observeStart (ssendParams true 0) (2 ^ 32 - 5) (.boot ()) = some w
      ∧ run (observeStep takeAll) w wrapInputs = some w'
      ∧ w'.last = ⟨true, 2 ^ 32 + 2105, 2 ^ 32 + 4105, [2 ^ 32 + 3205]⟩ ∧ w'.Notified 1100 := by
  obtain ⟨w, w', hw, hr, hlast, hc⟩ : ∃ w w' : Observed Unit,
      observeStart (ssendParams true 0) (2 ^ 32 - 5) (.boot ()) = some w
        ∧ run (observeStep takeAll) w wrapInputs = some w'
        ∧ w'.last = ⟨true, 2 ^ 32 + 2105, 2 ^ 32 + 4105, [2 ^ 32 + 3205]⟩
        ∧ Along (observeStep takeAll) (fun w i => ¬ Mistimes w i) w wrapInputs :=
    ⟨_, _, rfl, rfl, by decide +kernel, by decide +kernel⟩
  exact ⟨w, w', hw, hr, hlast,
    (idle_notified_iff ⟨1, rfl⟩ hw wrapInputs).2 hc wrapInputs w' List.prefix_rfl hr⟩

/-- A byte is taken when the clock is zero, and then none for two seconds: nothing is told. -/
theorem idle_not_notified : ∃ w w' : Observed Unit,
    observeStart (ssendParams true 0) (2 ^ 32 - 5) (.boot ()) = some w
      ∧ run (observeStep takeAll) w [.advance 5, .take [0], .finish, .advance 2000] = some w'
      ∧ w'.last = ⟨true, 2 ^ 32, 2 ^ 32 + 2000, []⟩ ∧ ¬ w'.Notified 1100 := by
  obtain ⟨w, w', hw, hr, hlast⟩ : ∃ w w' : Observed Unit,
      observeStart (ssendParams true 0) (2 ^ 32 - 5) (.boot ()) = some w
        ∧ run (observeStep takeAll) w [.advance 5, .take [0], .finish, .advance 2000] = some w'
        ∧ w'.last = ⟨true, 2 ^ 32, 2 ^ 32 + 2000, []⟩ := ⟨_, _, rfl, rfl, by decide +kernel⟩
  refine ⟨w, w', hw, hr, hlast, fun h => ?_⟩
  have hbad := h.stretches _ (List.mem_append_right _ (List.mem_singleton_self _))
  rw [hlast] at hbad
  exact absurd hbad (by unfold Stretch.Notified; decide)

/-- The timeout runs out while the chunk that came in time is written to the flash. -/
example : (observeStart ⟨.fwbindl, -1, 2, 1000, true, none⟩ 1 (.boot ())).bind (fun w =>
    (run (observeStep takeAll) w [.advance 1090, .take [0, 0], .advance 10]).map Observed.last)
      = some ⟨false, 1091, 1101, [1101]⟩ := by decide +kernel

end NrcAtcmd
