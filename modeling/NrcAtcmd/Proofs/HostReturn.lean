import NrcAtcmd.HostReturn

/-!
# A command returns what the target gave for it

As long as a return comes to a thread that waits for it, and no other comes before it is read, the
result of a command and `val` go together: nothing is given for a command before the wait ends, and
what is read then was given for it, unless the wait timed out.
-/

namespace NrcAtcmd

open Machine

/-- What was given for the command, by where the sending thread is. -/
def HostSync.Fits (s : HostSync) : Prop :=
  match s.pc with
  | .woken => s.given = some s.val ∨ s.given = none ∧ s.val = .timeout
  | _ => s.given = none

theorem leave_returned (s : HostSync) (sent : Bool) (ret : HostRet) :
    (s.leave sent ret).returned = s.returned ++ [⟨s.cmd, sent, s.given, ret⟩] := rfl

theorem fits_leave (s : HostSync) (sent : Bool) (ret : HostRet) : (s.leave sent ret).Fits := rfl

theorem HostSync.recv_cases {s s' : HostSync} {m : TargetReturn} {own : Bool}
    (h : s.recv m own = some s') :
    (own = true ∧ s.pc ≠ .idle ∧ s.pc ≠ .reset ∧ s.given = none
        ∧ s' = nrcAtcmdSetReturn m.ret { s with given := some m.ret })
      ∨ own = false ∧ ∃ late, s' = nrcAtcmdSetReturn m.ret { s with late := late } := by
  unfold HostSync.recv at h
  cases own with
  | true =>
    simp only [↓reduceIte, Option.ite_none_right_eq_some, Option.some.injEq] at h
    obtain ⟨⟨hi, hr, hg⟩, rfl⟩ := h
    exact Or.inl ⟨rfl, hi, hr, hg, rfl⟩
  | false =>
    refine Or.inr ⟨rfl, ?_⟩
    rcases m
    case ok | error =>
      simp only [Bool.false_eq_true, ↓reduceIte, Option.ite_none_right_eq_some,
        Option.some.injEq] at h
      exact ⟨_, h.2.symm⟩
    case boot | wakeup =>
      simp only [Bool.false_eq_true, ↓reduceIte, Option.some.injEq] at h
      exact ⟨s.late, h.symm⟩

/-- Nothing is returned by the receiving thread. -/
theorem HostSync.recv_returned {s s' : HostSync} {m : TargetReturn} {own : Bool}
    (h : s.recv m own = some s') : s'.returned = s.returned := by
  rcases HostSync.recv_cases h with ⟨-, -, -, -, rfl⟩ | ⟨-, late, rfl⟩ <;> rfl

/-- A return that is the result of the command comes in the wait, and ends it. Another does not
come in the wait, nor changes `val` after it. -/
theorem fits_recv {s s' : HostSync} {m : TargetReturn} {own : Bool} (hf : s.Fits)
    (hm : ¬ Misses s (.recv m own)) (h : s.recv m own = some s') : s'.Fits := by
  unfold HostSync.Fits at hf
  unfold Misses at hm
  rcases HostSync.recv_cases h with ⟨rfl, hi, hr, hg, rfl⟩ | ⟨rfl, late, rfl⟩ <;>
    unfold HostSync.Fits nrcAtcmdSetReturn
  · rcases hp : s.pc <;> simp_all
  · rcases hp : s.pc <;> simp_all

theorem fits_step {s s' : HostSync} {i : SyncInput} (hf : s.Fits) (hm : ¬ Misses s i)
    (h : syncStep s i = some s') : s'.Fits := by
  cases i with
  | recv m own => exact fits_recv hf hm h
  | spurious => exact absurd trivial hm
  | sendCmd text =>
    simp only [syncStep, Option.ite_none_right_eq_some] at h
    obtain ⟨hp, h⟩ := h
    split at h <;> simp only [Option.some.injEq] at h <;> subst h
    · exact fits_leave _ _ _
    · simpa [HostSync.Fits, nrcAtcmdInitReturn, hp] using hf
  | send ret =>
    simp only [syncStep, Option.ite_none_right_eq_some, Option.some.injEq] at h
    obtain ⟨hp, h⟩ := h
    split_ifs at h <;> subst h
    · exact fits_leave _ _ _
    · simpa [HostSync.Fits, hp] using hf
  | wait | timeout =>
    simp only [syncStep, Option.ite_none_right_eq_some, Option.some.injEq] at h
    obtain ⟨hp, rfl⟩ := h
    simpa [HostSync.Fits, hp] using hf
  | expire =>
    simp only [syncStep, Option.ite_none_right_eq_some, Option.some.injEq] at h
    obtain ⟨hp, rfl⟩ := h
    have hg : s.given = none := by simpa [HostSync.Fits, hp] using hf
    simp [HostSync.Fits, nrcAtcmdSetReturn, hg]
  | getReturn =>
    simp only [syncStep, Option.ite_none_right_eq_some, Option.some.injEq] at h
    obtain ⟨hp, rfl⟩ := h
    exact fits_leave _ _ _

/-- What is returned is right, given that what is there to read fits. -/
theorem right_step {s s' : HostSync} {i : SyncInput} (hf : s.Fits)
    (hr : ∀ c ∈ s.returned, c.Right) (h : syncStep s i = some s') :
    ∀ c ∈ s'.returned, c.Right := by
  have hleave : ∀ (t : HostSync) (sent : Bool) (ret : HostRet), t.returned = s.returned →
      (⟨t.cmd, sent, t.given, ret⟩ : SentCmd).Right →
      ∀ c ∈ (t.leave sent ret).returned, c.Right := by
    intro t sent ret ht hc c hmem
    rw [leave_returned, List.mem_append, List.mem_singleton] at hmem
    rcases hmem with hmem | rfl
    · exact hr c (ht ▸ hmem)
    · exact hc
  cases i with
  | recv m own =>
    rw [HostSync.recv_returned h]
    exact hr
  | sendCmd text =>
    simp only [syncStep, Option.ite_none_right_eq_some] at h
    obtain ⟨-, h⟩ := h
    split at h <;> simp only [Option.some.injEq] at h <;> subst h
    · exact hleave _ _ _ rfl rfl
    · exact hr
  | send ret =>
    simp only [syncStep, Option.ite_none_right_eq_some, Option.some.injEq] at h
    obtain ⟨-, h⟩ := h
    split_ifs at h <;> subst h
    · exact hleave _ _ _ rfl rfl
    · exact hr
  | wait | spurious | timeout | expire =>
    simp only [syncStep, Option.ite_none_right_eq_some, Option.some.injEq] at h
    obtain ⟨-, rfl⟩ := h
    exact hr
  | getReturn =>
    simp only [syncStep, Option.ite_none_right_eq_some, Option.some.injEq] at h
    obtain ⟨hp, rfl⟩ := h
    refine hleave _ _ _ rfl ?_
    simp only [HostSync.Fits, hp] at hf
    simpa [SentCmd.Right] using hf

/-- What was given for a command is there to be read, so the sending thread returns it next. -/
theorem unblocked_of_fits {s : HostSync} (hf : s.Fits) (r : HostRet) (hg : s.given = some r) :
    ∃ is s', (∀ i ∈ is, SyncInput.IsSender i) ∧ run syncStep s is = some s' ∧
      s'.returned = s.returned ++ [⟨s.cmd, true, some r, r⟩] := by
  have hp : s.pc = .woken ∧ s.val = r := by
    unfold HostSync.Fits at hf
    split at hf
    · rename_i hp
      rcases hf with hf | ⟨hf, -⟩
      · exact ⟨hp, by simpa [hf] using hg⟩
      · simp [hf] at hg
    · simp [hf] at hg
  refine ⟨[.getReturn], s.leave true s.val, ?_, ?_, ?_⟩
  · intro i hi
    rw [List.mem_singleton.1 hi]
    trivial
  · simp [run, syncStep, hp.1]
  · rw [leave_returned, hg, hp.2]

/-- The commands of a run return what the target gave for them, none waits for a return that is
there, and none times out after it. -/
theorem send_cmd_synced {is : List SyncInput} {s : HostSync}
    (hr : run syncStep .boot is = some s) (hm : Along syncStep (fun s i => ¬ Misses s i) .boot is) :
    s.Synced := by
  have hinv : s.Fits ∧ ∀ c ∈ s.returned, c.Right :=
    run_along (P := fun s => s.Fits ∧ ∀ c ∈ s.returned, c.Right)
      (fun s i s' h hm hs => ⟨fits_step h.1 hm hs, right_step h.1 h.2 hs⟩)
      ⟨rfl, by simp [HostSync.boot]⟩ hm hr
  exact ⟨hinv.2, unblocked_of_fits hinv.1⟩

/-- Two commands: the second times out, and its `OK` comes later. -/
def commandRun : List SyncInput :=
  [.sendCmd (bytes "AT"), .send 4, .wait, .recv .ok true, .getReturn,
    .sendCmd (bytes "AT+UART=115200"), .send 16, .wait, .timeout, .expire, .getReturn,
    .recv .ok false]

theorem send_cmd_synced_timeout : ∃ s, run syncStep .boot commandRun = some s ∧
    s.returned.map SentCmd.ret = [.ok, .timeout] ∧ s.Synced := by
  obtain ⟨s, hs, h⟩ := Option.map_eq_some_iff.1
    (show (run syncStep .boot commandRun).map (fun s => s.returned.map SentCmd.ret)
      = some [.ok, .timeout] by decide +kernel)
  exact ⟨s, hs, h, send_cmd_synced hs (by decide +kernel)⟩

/-- A thread that waits does nothing by itself. -/
theorem blocked_stays {s s' : HostSync} {is : List SyncInput} (hp : s.pc = .blocked)
    (hi : ∀ i ∈ is, SyncInput.IsSender i) (h : run syncStep s is = some s') : s' = s := by
  cases is with
  | nil => simpa using h.symm
  | cons i is =>
    obtain ⟨m, hm, -⟩ := run_cons_eq_some.1 h
    have := hi i (List.mem_cons_self ..)
    cases i <;> simp_all [syncStep, SyncInput.IsSender]

/-- The `OK` comes before the wait, which then never ends. -/
theorem send_cmd_misses_return : ∃ is s, run syncStep .boot is = some s ∧
    s.pc = .blocked ∧ s.given = some .ok ∧ ¬ s.Synced := by
  refine ⟨[.sendCmd (bytes "AT"), .send 4, .recv .ok true, .wait], _, rfl, rfl, rfl, ?_⟩
  intro hs
  obtain ⟨is, s', hi, hr, hret⟩ := hs.unblocked .ok rfl
  rw [blocked_stays rfl hi hr] at hret
  simp at hret

end NrcAtcmd
