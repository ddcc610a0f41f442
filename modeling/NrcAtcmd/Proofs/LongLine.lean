import NrcAtcmd.Proofs.PrefixCheck

/-!
# Lines that are too long

`atcmd_receive_command` counts up to `ATCMD_MSG_LEN_MAX` and then stores each further character
over the last one. `atcmd_process_command` refuses a longer line, but sees the count only, which is
never larger. So a long line is taken for its first characters (`long_line`).

A `Listener` also has the line as it would be with room for all of it. The two are the same unless
a character came to a full buffer, and then the line is longer than what was kept of it, until both
are empty again. So the end of such a line is where a handler is called for a part of it, if one is
found for that part.
-/

namespace NrcAtcmd

open Machine

variable {ε : Type*}

/-- A line at its end: what was kept of it, all of it, and what it came to. -/
structure Line (ε : Type*) where
  kept : Bytes
  text : Bytes
  effect : Effect ε

/-- A handler that is called is called for all of the line. -/
def Line.Complete (l : Line ε) : Prop :=
  match l.effect with
  | .call .. => l.kept = l.text ∧ l.text.length ≤ atcmdMsgLenMax
  | _ => True

instance : DecidablePred (@Line.Complete ε)
  | ⟨_, _, .call ..⟩ => inferInstanceAs (Decidable (_ ∧ _))
  | ⟨_, _, .nothing⟩ | ⟨_, _, .reset⟩ | ⟨_, _, .reply _⟩ => isTrue trivial

/-- The reader, the line so far, whether it lost a character since it began, and the lines that came
to their end. -/
structure Listener (ε : Type*) where
  line : LineReader
  text : Bytes
  lost : Bool
  lines : List (Line ε)

/-- The line after a character of each kind, with room for all of it. -/
def LineReader.sent (r : LineReader) (text : Bytes) (c : UInt8) : AtcmdKey → Bytes
  | .print => if text.length < 2 ∧ (bytes "AT")[text.length]? ≠ some c then [] else text ++ [c]
  | .bs => text.dropLast
  | .lf | .reset => []
  | .cr => if r.config.linefeed then text else []
  | _ => text

/-- The character is one to keep, and the buffer is full. -/
def LineReader.Saturates (r : LineReader) (c : UInt8) : Prop :=
  (atcmdKeyCode r.key c).2 = .print ∧ r.cmd.length = atcmdMsgLenMax

instance (r : LineReader) : DecidablePred r.Saturates := fun _ =>
  inferInstanceAs (Decidable (_ ∧ _))

/-- A character comes. -/
def listenStep (groups : List (AtcmdGroup ε)) (s : Listener ε) (c : UInt8) :
    Option (Listener ε) :=
  let (line, got) := atcmdReceiveChar groups s.line c
  let text := s.line.sent s.text c (atcmdKeyCode s.line.key c).2
  some
    { line := line
      text := text
      lost := (s.lost || decide (s.line.Saturates c)) && !(line.cmd.isEmpty && text.isEmpty)
      lines := match got with
        | .line e => s.lines ++ [⟨s.line.cmd, s.text, e⟩]
        | _ => s.lines }

/-- The character ends a line. -/
def LineReader.Ends (r : LineReader) (c : UInt8) : Prop :=
  (atcmdKeyCode r.key c).2 = .lf ∨ ((atcmdKeyCode r.key c).2 = .cr ∧ r.config.linefeed = false)

instance (r : LineReader) : DecidablePred r.Ends := fun _ => inferInstanceAs (Decidable (_ ∨ _))

/-- A handler is found for what was kept of a line. -/
def Selects (groups : List (AtcmdGroup ε)) (r : LineReader) : Bool :=
  match (atcmdProcessCommand groups r.config r.cmd).2 with
  | .call .. => true
  | _ => false

/-- The character ends a line that lost one, and a handler is found for what was kept. -/
def Cuts (groups : List (AtcmdGroup ε)) (s : Listener ε) (c : UInt8) : Prop :=
  s.lost = true ∧ s.line.Ends c ∧ Selects groups s.line = true

instance (groups : List (AtcmdGroup ε)) (s : Listener ε) : DecidablePred (Cuts groups s) := fun _ =>
  inferInstanceAs (Decidable (_ ∧ _ ∧ _))

/-- A line that lost a character was erased up to its first one, nothing is kept any more, and an
`A` comes: the line has none of its own, and the reader begins one. -/
def Restarts (s : Listener ε) (c : UInt8) : Prop :=
  s.lost = true ∧ s.line.cmd = [] ∧ s.text.length = 1 ∧ (atcmdKeyCode s.line.key c).2 = .print
    ∧ c = 65

instance (s : Listener ε) : DecidablePred (Restarts s) := fun _ =>
  inferInstanceAs (Decidable (_ ∧ _ ∧ _ ∧ _ ∧ _))

/-- What was kept of a line that lost nothing is the line, and the lines before it were whole. -/
structure Listener.Whole (s : Listener ε) : Prop where
  fits : s.line.cmd.length ≤ atcmdMsgLenMax
  kept : s.lost = false → s.line.cmd = s.text
  lines : ∀ l ∈ s.lines, l.Complete

/-- What was kept of a line that lost a character is shorter. -/
structure Listener.Lags (s : Listener ε) : Prop where
  fits : s.line.cmd.length ≤ atcmdMsgLenMax
  kept : s.lost = false → s.line.cmd = s.text
  behind : s.lost = true → s.line.cmd.length < s.text.length

/-! ## What is kept -/

theorem switch_cmd (groups : List (AtcmdGroup ε)) (r : LineReader) (c : UInt8) (code : AtcmdKey) :
    (r.switch groups c code).1.cmd = match code with
      | .print => (r.print c).cmd
      | .bs => r.cmd.dropLast
      | .cr | .lf | .reset => []
      | _ => r.cmd := by
  cases code
  case cr | lf =>
    unfold LineReader.switch
    split_ifs with h
    · exact h
    · rfl
  all_goals rfl

theorem receiveChar_cmd (groups : List (AtcmdGroup ε)) (r : LineReader) (c : UInt8) :
    (atcmdReceiveChar groups r c).1.cmd = match (atcmdKeyCode r.key c).2 with
      | .print => (r.print c).cmd
      | .bs => r.cmd.dropLast
      | .lf | .reset => []
      | .cr => if r.config.linefeed then r.cmd else []
      | _ => r.cmd := by
  have hprint : ∀ key cntCR, (LineReader.print ⟨key, r.cmd, cntCR, r.config⟩ c).cmd
      = (r.print c).cmd := by
    intro key cntCR
    unfold LineReader.print
    split_ifs <;> rfl
  unfold atcmdReceiveChar
  simp only
  by_cases hl : r.config.linefeed = true
  · rw [if_pos hl]
    by_cases hcr : (atcmdKeyCode r.key c).2 = .cr
    · rw [if_pos hcr, hcr]
      simp only [if_pos hl]
      split_ifs <;> rfl
    · rw [if_neg hcr, switch_cmd]
      rcases hcode : (atcmdKeyCode r.key c).2 <;> simp_all
  · rw [if_neg hl, switch_cmd]
    rcases hcode : (atcmdKeyCode r.key c).2 <;> simp_all

theorem switch_line {groups : List (AtcmdGroup ε)} {r : LineReader} {c : UInt8} {code : AtcmdKey}
    {e : Effect ε} : (r.switch groups c code).2 = .line e ↔
      (code = .cr ∨ code = .lf) ∧ r.cmd ≠ [] ∧ e = (atcmdProcessCommand groups r.config r.cmd).2 := by
  cases code
  case cr | lf =>
    unfold LineReader.switch
    by_cases h : r.cmd = []
    · simp [h]
    · simp [h, eq_comm]
  all_goals simp [LineReader.switch]

theorem receiveChar_line {groups : List (AtcmdGroup ε)} {r : LineReader} {c : UInt8} {e : Effect ε} :
    (atcmdReceiveChar groups r c).2 = .line e ↔
      r.Ends c ∧ r.cmd ≠ [] ∧ e = (atcmdProcessCommand groups r.config r.cmd).2 := by
  unfold atcmdReceiveChar LineReader.Ends
  simp only
  by_cases hl : r.config.linefeed = true
  · rw [if_pos hl]
    by_cases hcr : (atcmdKeyCode r.key c).2 = .cr
    · rw [if_pos hcr]
      split_ifs <;> simp [hl, hcr]
    · rw [if_neg hcr, switch_line]
      simp [hcr]
  · rw [if_neg hl, switch_line]
    simp [hl, or_comm]

theorem print_cmd {r : LineReader} (h : r.cmd.length < atcmdMsgLenMax) (c : UInt8) :
    (r.print c).cmd =
      if r.cmd.length < 2 ∧ (bytes "AT")[r.cmd.length]? ≠ some c then [] else r.cmd ++ [c] := by
  unfold LineReader.print
  rw [if_pos h]
  split_ifs <;> rfl

/-- The line after a character, as long as there is room for it. -/
theorem receiveChar_sent (groups : List (AtcmdGroup ε)) {r : LineReader} {c : UInt8}
    (h : (atcmdKeyCode r.key c).2 = .print → r.cmd.length < atcmdMsgLenMax) :
    (atcmdReceiveChar groups r c).1.cmd = r.sent r.cmd c (atcmdKeyCode r.key c).2 := by
  rw [receiveChar_cmd]
  rcases hcode : (atcmdKeyCode r.key c).2 <;> try rfl
  exact print_cmd (h hcode) c

theorem print_cmd_length (r : LineReader) (c : UInt8) :
    (r.print c).cmd.length ≤ r.cmd.length + 1
      ∧ (r.cmd.length ≤ atcmdMsgLenMax → (r.print c).cmd.length ≤ atcmdMsgLenMax) := by
  unfold LineReader.print
  split_ifs
  · exact ⟨Nat.zero_le _, fun _ => Nat.zero_le _⟩
  · rw [List.length_append, List.length_singleton]
    omega
  · exact ⟨Nat.le_succ _, id⟩

theorem sent_print {r : LineReader} {text : Bytes} (h : 2 ≤ text.length) (c : UInt8) :
    r.sent text c .print = text ++ [c] := if_neg (by omega)

/-! ## Lines that lose a character -/

variable {groups : List (AtcmdGroup ε)} {s s' : Listener ε} {c : UInt8}

/-- A line that loses nothing is kept, and a line that lost a character is kept again once both are
empty. -/
theorem listenStep_kept (hfits : s.line.cmd.length ≤ atcmdMsgLenMax)
    (hkept : s.lost = false → s.line.cmd = s.text) (hs : listenStep groups s c = some s')
    (hlost : s'.lost = false) : s'.line.cmd = s'.text := by
  rw [listenStep, Option.some.injEq] at hs
  subst hs
  simp only [Bool.and_eq_false_iff, Bool.or_eq_false_iff, decide_eq_false_iff_not,
    Bool.not_eq_false', Bool.and_eq_true, List.isEmpty_iff] at hlost
  rcases hlost with ⟨hlost, hsat⟩ | ⟨hcmd, htext⟩
  · rw [← hkept hlost]
    refine receiveChar_sent groups fun hprint => ?_
    have hne : s.line.cmd.length ≠ atcmdMsgLenMax := fun hfull => hsat ⟨hprint, hfull⟩
    omega
  · exact hcmd.trans htext.symm

theorem listenStep_fits (hfits : s.line.cmd.length ≤ atcmdMsgLenMax)
    (hs : listenStep groups s c = some s') : s'.line.cmd.length ≤ atcmdMsgLenMax := by
  rw [listenStep, Option.some.injEq] at hs
  subst hs
  simp only [receiveChar_cmd]
  split
  · exact (print_cmd_length _ _).2 hfits
  · rw [List.length_dropLast]
    omega
  · exact Nat.zero_le _
  · exact Nat.zero_le _
  · split_ifs
    · exact hfits
    · exact Nat.zero_le _
  · exact hfits

theorem Listener.Whole.step (h : s.Whole) (hc : ¬ Cuts groups s c)
    (hs : listenStep groups s c = some s') : s'.Whole := by
  refine ⟨listenStep_fits h.fits hs, listenStep_kept h.fits h.kept hs, ?_⟩
  rw [listenStep, Option.some.injEq] at hs
  subst hs
  rcases hgot : (atcmdReceiveChar groups s.line c).2 with _ | _ | e <;> simp only
  · exact h.lines
  · exact h.lines
  · refine List.forall_mem_append.2 ⟨h.lines, List.forall_mem_singleton.2 ?_⟩
    obtain ⟨hends, -, rfl⟩ := receiveChar_line.1 hgot
    unfold Line.Complete
    split
    · rename_i heq
      have hlost : s.lost = false := by
        refine Bool.eq_false_iff.2 fun hlost => hc ⟨hlost, hends, ?_⟩
        dsimp only at heq
        rw [Selects, heq]
      have hkept := h.kept hlost
      exact ⟨hkept, hkept ▸ h.fits⟩
    · trivial

theorem print_lags (hlost : s.lost = true) (hlag : s.line.cmd.length < s.text.length)
    (hc : ¬ Restarts s c) (hcode : (atcmdKeyCode s.line.key c).2 = .print)
    (hne : (s.line.print c).cmd ≠ [] ∨ s.line.sent s.text c .print ≠ []) :
    (s.line.print c).cmd.length < (s.line.sent s.text c .print).length := by
  have hlen := (print_cmd_length s.line c).1
  by_cases htwo : 2 ≤ s.text.length
  · rw [sent_print htwo, List.length_append, List.length_singleton]
    omega
  -- nothing is kept, and one character of the line is left
  have hone : s.text.length = 1 := by omega
  have hnil : s.line.cmd = [] := List.length_eq_zero_iff.1 (by omega)
  have hA : c ≠ 65 := fun hA => hc ⟨hlost, hnil, hone, hcode, hA⟩
  have hkept : (s.line.print c).cmd = [] := by
    have h0 : (bytes "AT")[0]? = some 65 := rfl
    unfold LineReader.print
    rw [hnil, if_pos ⟨by decide, by simpa [h0] using Ne.symm hA⟩]
  rw [hkept]
  exact List.length_pos_of_ne_nil (hne.resolve_left (not_not.2 hkept))

/-- A line that lost a character stays longer than what is kept of it. -/
theorem Listener.Lags.step (h : s.Lags) (hc : ¬ Restarts s c)
    (hs : listenStep groups s c = some s') : s'.Lags := by
  refine ⟨listenStep_fits h.fits hs, listenStep_kept h.fits h.kept hs, fun hlost => ?_⟩
  rw [listenStep, Option.some.injEq] at hs
  subst hs
  simp only [Bool.and_eq_true, Bool.or_eq_true, decide_eq_true_eq, Bool.not_eq_true',
    Bool.and_eq_false_iff, List.isEmpty_eq_false_iff, receiveChar_cmd] at hlost ⊢
  obtain ⟨hlost, hne⟩ := hlost
  have hmax : atcmdMsgLenMax = 128 := rfl
  by_cases hs : s.lost = true
  swap
  · -- the character comes to a full buffer
    obtain ⟨hprint, hfull⟩ := hlost.resolve_left hs
    have htext := h.kept (Bool.eq_false_iff.2 hs)
    have hlen := (print_cmd_length s.line c).2 h.fits
    rw [htext] at hfull
    rw [hprint, sent_print (by omega), List.length_append, List.length_singleton]
    dsimp only
    omega
  have hlag := h.behind hs
  rcases hcode : (atcmdKeyCode s.line.key c).2 <;> rw [hcode] at hne
  case print => exact print_lags hs hlag hc hcode hne
  all_goals simp only [LineReader.sent] at hne ⊢
  case bs =>
    rw [List.length_dropLast, List.length_dropLast]
    rcases hne with hne | hne <;> have := List.length_pos_of_ne_nil hne <;>
      rw [List.length_dropLast] at this <;> omega
  case cr => split_ifs at hne ⊢ <;> simp_all
  all_goals simp_all

end NrcAtcmd
