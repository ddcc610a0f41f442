import NrcAtcmd.Proofs.HostLine
import NrcAtcmd.SendExit

/-!
# What the exit command is read back as

A text that is accepted is stored between `AT+` and CR LF (`stored_cmd`), so that six bytes are
needed beside its own. The limit it was checked against is that of the whole buffer.
-/

namespace NrcAtcmd.SendExit

open Memory (memcpy memcpy_append)
open ParamStore (CStr)

theorem strcpy_start (mem s : Bytes) : strcpy mem 0 s = s ++ 0 :: mem.drop (s.length + 1) := by
  have h : strcpy mem 0 s = (s ++ [0]) ++ mem.drop (s ++ [0]).length :=
    memcpy_append (List.length_nil (α := UInt8))
  rw [h, List.append_assoc, List.length_append]
  rfl

theorem strcpy_cmd (cmd mem : Bytes) :
    strcpy (strcpy (strcpy mem 0 (bytes "AT+")) 3 cmd) (3 + cmd.length) (bytes "\r\n") =
      bytes "AT+" ++ cmd ++ bytes "\r\n" ++ 0 :: mem.drop (cmd.length + 6) := by
  have h3 : (bytes "AT+").length = 3 := by decide
  have h2 : (bytes "\r\n").length = 2 := by decide
  have h₁ : strcpy mem 0 (bytes "AT+") = bytes "AT+" ++ 0 :: mem.drop 4 := by
    rw [strcpy_start, h3]
  have h₂ : strcpy (bytes "AT+" ++ 0 :: mem.drop 4) 3 cmd =
      bytes "AT+" ++ cmd ++ 0 :: mem.drop (cmd.length + 4) := by
    rw [strcpy, memcpy_append h3]
    simp [Nat.add_comm]
  have h₃ : strcpy (bytes "AT+" ++ cmd ++ 0 :: mem.drop (cmd.length + 4)) (3 + cmd.length)
      (bytes "\r\n") = bytes "AT+" ++ cmd ++ bytes "\r\n" ++ 0 :: mem.drop (cmd.length + 6) := by
    rw [strcpy, memcpy_append (by rw [List.length_append, h3])]
    simp [h2, Nat.add_assoc]
  rw [h₁, h₂, h₃]

theorem cString_stored {s w : Bytes} (h : 0 ∉ s) : cString (s ++ 0 :: w) = s := by
  rw [cString_append h]
  simp [cString]

theorem cmd_nul {cmd : Bytes} (h0 : 0 ∉ cmd) : 0 ∉ bytes "AT+" ++ cmd ++ bytes "\r\n" := by
  have hp : bytes "AT+" = [65, 84, 43] := by decide
  have hc : bytes "\r\n" = [13, 10] := by decide
  simp [hp, hc, h0]

theorem cmd_ne (cmd : Bytes) : bytes "AT+" ++ cmd ++ bytes "\r\n" ≠ bytes "AT\r\n" := by
  rw [show bytes "AT+" = [65, 84, 43] by decide, show bytes "AT\r\n" = [65, 84, 13, 10] by decide]
  simp

/-- The command of a text, between `AT+` and CR LF. -/
theorem get_cmd {cmd w : Bytes} (h0 : 0 ∉ cmd) :
    atcmdSocketSendExitGet_ [] (bytes "AT+" ++ cmd ++ bytes "\r\n" ++ 0 :: w) =
      (.success, [.info (bytes "SSENDEXIT") (quoted cmd)],
        bytes "AT+" ++ cmd ++ bytes "\r\n" ++ 0 :: w) := by
  have hp : bytes "AT+" = [65, 84, 43] := by decide
  have hc : bytes "\r\n" = [13, 10] := by decide
  have htake : (bytes "AT+" ++ cmd ++ bytes "\r\n" ++ 0 :: w).take 3 = bytes "AT+" := by
    simp [hp]
  have hend : (bytes "AT+" ++ cmd ++ bytes "\r\n").length - 2 = (bytes "AT+" ++ cmd).length := by
    simp [hp, hc]
  have hset : ∀ x y : UInt8, (bytes "AT+" ++ cmd ++ x :: 10 :: 0 :: w).set
      (bytes "AT+" ++ cmd).length y = bytes "AT+" ++ cmd ++ y :: 10 :: 0 :: w := by
    intro x y
    rw [List.set_append_right _ _ (Nat.le_refl _), Nat.sub_self, List.set_cons_zero]
  have hmem : bytes "AT+" ++ cmd ++ bytes "\r\n" ++ 0 :: w =
      bytes "AT+" ++ cmd ++ 13 :: 10 :: 0 :: w := by
    simp [hc]
  have htext : cString ((bytes "AT+" ++ cmd ++ 0 :: 10 :: 0 :: w).drop 3) = cmd := by
    rw [hp, List.append_assoc]
    exact cString_stored h0
  unfold atcmdSocketSendExitGet_
  simp only [cString_stored (cmd_nul h0), if_neg (cmd_ne cmd), if_pos htake, hend]
  rw [hmem, hset, hset, htext]

theorem quoted_of_paramToStr {param cmd : Bytes} {len : ℕ}
    (h : atcmdParamToStr param len = some cmd) : param = quoted cmd := by
  unfold atcmdParamToStr at h
  split_ifs at h with hlen hends
  simp only [ne_eq, not_or, not_not, Option.some.injEq, List.drop_one] at hlen hends h
  obtain ⟨hhead, hlast⟩ := hends
  obtain ⟨t, rfl⟩ : ∃ t, param = 34 :: t := List.head?_eq_some_iff.1 hhead
  have ht : t ≠ [] := by
    rintro rfl
    exact absurd hlen.1 (by simp)
  rw [List.getLast?_cons_of_ne_nil ht, List.getLast?_eq_some_iff] at hlast
  obtain ⟨t', rfl⟩ := hlast
  rw [← h]
  simp [quoted]

/-- What `AT+SSENDEXIT` accepts: nothing, or a text of at most 32 characters. -/
theorem set_success {param mem : Bytes} (h : (atcmdSocketSendExitSet_ [param] mem).1 = .success) :
    (param = bytes "\"\"" ∧ stored param mem = strcpy mem 0 (bytes "AT\r\n"))
      ∨ ∃ cmd, param = quoted cmd ∧ 0 < cmd.length ∧ cmd.length ≤ 32
        ∧ stored param mem
          = bytes "AT+" ++ cmd ++ bytes "\r\n" ++ 0 :: mem.drop (cmd.length + 6) := by
  unfold stored
  unfold atcmdSocketSendExitSet_ at h ⊢
  by_cases hnil : param = bytes "\"\""
  · simp [hnil]
  · simp only [if_neg hnil] at h ⊢
    rcases hcmd : atcmdParamToStr param size with _ | cmd
    · simp [hcmd] at h
    · simp only [hcmd] at h ⊢
      split_ifs at h ⊢ with hlen
      refine .inr ⟨cmd, ?_, hlen.1, hlen.2, strcpy_cmd cmd mem⟩
      exact quoted_of_paramToStr hcmd

theorem drop_stored {s : Bytes} (mem : Bytes) (h : s.length < size) :
    (s ++ 0 :: mem.drop (s.length + 1)).drop size = mem.drop size := by
  rw [List.append_cons, List.drop_append, List.drop_eq_nil_of_le (by simp; omega),
    List.nil_append, List.drop_drop, List.length_append, List.length_singleton]
  congr 1
  omega

theorem kept_nil {param mem : Bytes} (hparam : param = bytes "\"\"")
    (hs : stored param mem = strcpy mem 0 (bytes "AT\r\n")) : Kept param mem := by
  have hl : (bytes "AT\r\n").length = 4 := by decide
  have hmem : stored param mem = bytes "AT\r\n" ++ 0 :: mem.drop 5 := by
    rw [hs, strcpy_start, hl]
  have hstr : cString (stored param mem) = bytes "AT\r\n" := by
    rw [hmem]
    exact cString_stored (by decide)
  refine ⟨by rw [hstr]; decide, ?_, ?_⟩
  · rw [hmem]
    exact drop_stored (s := bytes "AT\r\n") _ (by decide)
  · rw [atcmdSocketSendExitGet_, if_pos hstr, hparam]
    rfl

/-- A text is kept if there is room for six more bytes. -/
theorem kept_cmd {param cmd mem : Bytes} (h0 : 0 ∉ cmd) (hparam : param = quoted cmd)
    (hs : stored param mem =
      bytes "AT+" ++ cmd ++ bytes "\r\n" ++ 0 :: mem.drop (cmd.length + 6)) :
    Kept param mem ↔ cmd.length + 6 ≤ size := by
  have hp : bytes "AT+" = [65, 84, 43] := by decide
  have hc : bytes "\r\n" = [13, 10] := by decide
  have hl : (bytes "AT+" ++ cmd ++ bytes "\r\n").length = cmd.length + 5 := by simp [hp, hc]
  have hfits : (cString (stored param mem)).length < size ↔ cmd.length + 6 ≤ size := by
    rw [hs, cString_stored (cmd_nul h0), hl]
    omega
  refine ⟨fun h => hfits.1 h.fits, fun h => ⟨hfits.2 h, ?_, ?_⟩⟩
  · rw [hs]
    have := drop_stored (s := bytes "AT+" ++ cmd ++ bytes "\r\n") mem (by rw [hl]; omega)
    rwa [hl] at this
  · rw [hs, get_cmd h0, hparam]

/-- For every text that is accepted: it is stored with its terminator in the buffer, reported as it
was set, and still there then, exactly if it has at most 27 characters. -/
theorem send_exit_iff (param : CStr) (mem : ExitMem)
    (h : (atcmdSocketSendExitSet_ [param.1] mem.1).1 = .success) :
    Kept param.1 mem.1 ↔ param.1.length ≤ 29 := by
  obtain ⟨param, h0⟩ := param
  obtain ⟨mem, hmem⟩ := mem
  simp only at h ⊢
  rcases set_success h with ⟨hnil, hs⟩ | ⟨cmd, hcmd, hpos, hlen, hs⟩
  · exact iff_of_true (kept_nil hnil hs) (by rw [hnil]; decide)
  · have hz : 0 ∉ cmd := fun hm => h0 (by simp [hcmd, quoted, hm])
    have hq : param.length = cmd.length + 2 := by simp [hcmd, quoted]
    rw [kept_cmd hz hcmd hs, hq, size]
    omega

theorem send_exit_iff_quit : Kept (bytes "\"quit\"") (List.replicate 64 7) :=
  (send_exit_iff ⟨bytes "\"quit\"", by decide⟩ ⟨List.replicate 64 7, by decide⟩ (by decide)).2
    (by decide)

/-- A text of 28 characters is accepted and has its terminator behind the buffer. -/
theorem send_exit_overflows :
    (atcmdSocketSendExitSet_ [quoted (List.replicate 28 97)] (List.replicate 64 7)).1 = .success
      ∧ ¬ Kept (quoted (List.replicate 28 97)) (List.replicate 64 7) :=
  ⟨by decide, fun h => absurd h.fits (by decide)⟩

/-! ## The handlers over the string -/

section Strings

variable {ν : Type*}

/-- The handler of `SocketCommand` accepts what this one does, and stores the string of it. -/
theorem sendExitSet_eq (s : Sockets ν) (stale : Stale) (now : UInt32) (param : CStr) {mem : Bytes}
    (hmem : s.sendExit = cString mem) :
    NrcAtcmd.atcmdSocketSendExitSet_ ⟨[param.1], stale, now⟩ s =
      ((atcmdSocketSendExitSet_ [param.1] mem).1,
        { s with sendExit := cString (stored param.1 mem) }) := by
  obtain ⟨param, h0⟩ := param
  have hkeep : { s with sendExit := cString mem } = s := by rw [← hmem]
  have hn : cString (strcpy mem 0 (bytes "AT\r\n")) = bytes "AT\r\n" := by
    rw [strcpy_start]
    exact cString_stored (by decide)
  unfold NrcAtcmd.atcmdSocketSendExitSet_ stored atcmdSocketSendExitSet_
  by_cases hnil : param = bytes "\"\""
  · simp only [if_pos hnil, hn]
  · simp only [if_neg hnil]
    rcases hcmd : atcmdParamToStr param size with _ | cmd
    · have hcmd' : atcmdParamToStr param 33 = none := hcmd
      simp only [hcmd', hkeep]
    · have hcmd' : atcmdParamToStr param 33 = some cmd := hcmd
      have hz : 0 ∉ cmd := fun hm => h0 (by simp [quoted_of_paramToStr hcmd, quoted, hm])
      simp only [hcmd']
      split_ifs with hlen
      · rw [strcpy_cmd, cString_stored (cmd_nul hz)]
      · simp only [hkeep]

theorem sendExitGet_eq (s : Sockets ν) (stale : Stale) (now : UInt32) (param : CStr) {mem : Bytes}
    (h : (atcmdSocketSendExitSet_ [param.1] mem).1 = .success)
    (hmem : s.sendExit = cString (stored param.1 mem)) :
    NrcAtcmd.atcmdSocketSendExitGet_ ⟨[], stale, now⟩ s =
      ((atcmdSocketSendExitGet_ [] (stored param.1 mem)).1,
        (atcmdSocketSendExitGet_ [] (stored param.1 mem)).2.1.foldl (fun s m => s.emit m) s) := by
  obtain ⟨param, h0⟩ := param
  simp only at h hmem ⊢
  rcases set_success h with ⟨hnil, hs⟩ | ⟨cmd, hcmd, -, -, hs⟩
  · have hstr : cString (stored param mem) = bytes "AT\r\n" := by
      rw [hs, strcpy_start]
      exact cString_stored (by decide)
    simp only [NrcAtcmd.atcmdSocketSendExitGet_, atcmdSocketSendExitGet_, hmem, hstr, if_true,
      List.foldl_cons, List.foldl_nil]
  · have hz : 0 ∉ cmd := fun hm => h0 (by simp [hcmd, quoted, hm])
    rw [hs, cString_stored (cmd_nul hz)] at hmem
    have hp : bytes "AT+" = [65, 84, 43] := by decide
    have hc : bytes "\r\n" = [13, 10] := by decide
    have htake : (bytes "AT+" ++ cmd ++ bytes "\r\n").take 3 = bytes "AT+" := by simp [hp]
    have htext : ((bytes "AT+" ++ cmd ++ bytes "\r\n").drop 3).take
        ((bytes "AT+" ++ cmd ++ bytes "\r\n").length - 3 - 2) = cmd := by
      simp [hp, hc]
    rw [hs, get_cmd hz]
    simp only [NrcAtcmd.atcmdSocketSendExitGet_, hmem, if_neg (cmd_ne cmd), if_pos htake, htext,
      List.foldl_cons, List.foldl_nil]

end Strings

end NrcAtcmd.SendExit
