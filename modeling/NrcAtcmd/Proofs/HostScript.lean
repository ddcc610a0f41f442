import Mathlib.Data.List.TakeWhile
import NrcAtcmd.HostScript

/-!
# A script and its loops

Which line is read next depends on the lines only, and not on what the commands are answered. So a
script that has no knot runs as the list of its lines does in which each loop is written out, and
ends (`raspiCliRunScript_unrolled`). What it does outside is allowed, however it ends
(`raspiCliRunScript_keeps`).
-/

namespace NrcAtcmd

open Loops

variable {δ : Type} {w : ScriptWorld δ} {path script : Bytes} {file chunk : Bytes}
  {call call' : Bytes → ScriptState δ → Option (ScriptEnd × ScriptState δ)}
  {s s' : ScriptState δ} {c : Control Bytes} {ls : List Bytes} {last : Bool}

theorem scriptLoop_pos {chunk : Bytes} {m n : ℕ} (h : scriptLoop chunk = some (m, n)) :
    0 < m ∧ 0 < n := by
  unfold scriptLoop at h
  dsimp only at h
  split_ifs at h
  split at h
  · split_ifs at h with hpos
    obtain ⟨rfl, rfl⟩ := Prod.mk.inj (Option.some.inj h)
    exact ⟨by omega, by omega⟩
  · cases h

theorem straight_scriptStart (file : Bytes) : (scriptStart file).Straight scriptLoop := .inl rfl

namespace ScriptWorld

theorem scriptCall_congr
    (h : ∀ callee, scriptCallee path chunk = some callee → call callee s = call' callee s) :
    scriptCall path call chunk s = scriptCall path call' chunk s := by
  unfold scriptCall
  rcases hc : scriptCallee path chunk with _ | callee
  · rfl
  · simp only [h callee hc]

theorem scriptCall_isSome
    (h : ∀ callee, scriptCallee path chunk = some callee → (call callee s).isSome = true) :
    (scriptCall path call chunk s).isSome = true := by
  unfold scriptCall
  rcases hc : scriptCallee path chunk with _ | callee
  · rfl
  · simp [h callee hc]

/-- A line looks at no other script than the one it calls. -/
theorem scriptLine_congr
    (h : ∀ callee, scriptCallee path chunk = some callee → call callee s = call' callee s) :
    w.scriptLine path call chunk last s = w.scriptLine path call' chunk last s := by
  unfold scriptLine
  rw [scriptCall_congr h]

theorem isSome_ite {α : Type} {p : Prop} [Decidable p] {a b : Option α} (ha : a.isSome = true)
    (hb : b.isSome = true) : (if p then a else b).isSome = true := by
  split
  · exact ha
  · exact hb

/-- A line ends where the script it calls does. -/
theorem scriptLine_isSome
    (h : ∀ callee, scriptCallee path chunk = some callee → (call callee s).isSome = true) :
    (w.scriptLine path call chunk last s).isSome = true := by
  have hcall := scriptCall_isSome h
  unfold scriptLine
  repeat' apply isSome_ite
  all_goals first | exact hcall | rfl

theorem scriptExec_congr (h : ∀ chunk ∈ ls, ∀ callee s, scriptCallee path chunk = some callee →
    call callee s = call' callee s) :
    w.scriptExec path call ls s = w.scriptExec path call' ls s := by
  induction ls generalizing s with
  | nil => rfl
  | cons chunk ls ih =>
    have hline : w.scriptLine path call chunk ls.isEmpty s =
        w.scriptLine path call' chunk ls.isEmpty s :=
      scriptLine_congr fun callee hc => h chunk (List.mem_cons_self ..) callee s hc
    simp only [scriptExec, hline, ih fun x hx => h x (List.mem_cons_of_mem _ hx)]

theorem scriptExec_isSome (h : ∀ chunk ∈ ls, ∀ callee s, scriptCallee path chunk = some callee →
    (call callee s).isSome = true) : (w.scriptExec path call ls s).isSome = true := by
  induction ls generalizing s with
  | nil => rfl
  | cons chunk ls ih =>
    have hline : (w.scriptLine path call chunk ls.isEmpty s).isSome = true :=
      scriptLine_isSome fun callee hc => h chunk (List.mem_cons_self ..) callee s hc
    rw [scriptExec]
    rcases hl : w.scriptLine path call chunk ls.isEmpty s with _ | ⟨_ | e, s'⟩
    · rw [hl] at hline
      cases hline
    · exact ih fun x hx => h x (List.mem_cons_of_mem _ hx)
    · rfl

/-- The loop of a script obeys the lines that are read, one after the other. -/
theorem scriptRun_reads {n : ℕ} (h : Loops.Reads scriptLoop c ls) (hn : ls.length < n) :
    w.scriptRun path call n c s = w.scriptExec path call ls s := by
  induction ls generalizing c n s with
  | nil =>
    cases n with
    | zero => exact absurd hn (by simp)
    | succ n =>
      have hf : c.fetch scriptLoop = none := by
        rw [Control.fetch, show c.rest = [] from h]
      simp only [scriptRun, hf, scriptExec]
  | cons chunk ls ih =>
    obtain ⟨c', hf, hr⟩ := h
    cases n with
    | zero => exact absurd hn (by simp)
    | succ n =>
      have hlast : c'.rest.isEmpty = ls.isEmpty := by
        cases ls with
        | nil => rw [show c'.rest = [] from hr]
        | cons l ls =>
          obtain ⟨c'', hf', -⟩ := hr
          rcases hrest : c'.rest with _ | ⟨l', rest⟩
          · simp [Control.fetch, hrest] at hf'
          · rfl
      simp only [scriptRun, hf, scriptExec, hlast]
      rcases w.scriptLine path call chunk ls.isEmpty s with _ | ⟨_ | e, s'⟩
      · rfl
      · exact ih hr (by simpa using hn)
      · rfl

/-- As many lines and calls are enough for every script one calls. -/
theorem callees_within {k : ℕ} {ls : List Bytes}
    (h : ∀ chunk ∈ ls, ∀ callee, scriptCallee path chunk = some callee → ∃ m, ∀ n, m ≤ n →
      ∀ s, (w.runUnrolled k callee s).isSome = true ∧
        w.raspiCliRunScript n callee s = w.runUnrolled k callee s) :
    ∃ m, ∀ chunk ∈ ls, ∀ callee, scriptCallee path chunk = some callee → ∀ n, m ≤ n → ∀ s,
      (w.runUnrolled k callee s).isSome = true ∧
        w.raspiCliRunScript n callee s = w.runUnrolled k callee s := by
  induction ls with
  | nil => exact ⟨0, by simp⟩
  | cons chunk ls ih =>
    obtain ⟨m, hm⟩ := ih fun x hx => h x (List.mem_cons_of_mem _ hx)
    obtain ⟨m', hm'⟩ : ∃ m', ∀ callee, scriptCallee path chunk = some callee → ∀ n, m' ≤ n →
        ∀ s, (w.runUnrolled k callee s).isSome = true ∧
          w.raspiCliRunScript n callee s = w.runUnrolled k callee s := by
      rcases hc : scriptCallee path chunk with _ | callee
      · exact ⟨0, by simp⟩
      · obtain ⟨m', hm'⟩ := h chunk (List.mem_cons_self ..) callee hc
        refine ⟨m', fun callee' he => ?_⟩
        obtain rfl := Option.some.inj he
        exact hm'
    refine ⟨max m m', fun x hx callee hc n hn => ?_⟩
    rcases List.mem_cons.1 hx with rfl | hx
    · exact hm' callee hc n (by omega)
    · exact hm x hx callee hc n (by omega)

/-- **A script ends, and does what it does with its loops written out.** -/
theorem raspiCliRunScript_unrolled {k : ℕ} (h : w.CallsWithin k script) :
    ∃ m, ∀ n, m ≤ n → ∀ s, (w.runUnrolled k script s).isSome = true ∧
      w.raspiCliRunScript n script s = w.runUnrolled k script s := by
  induction k generalizing script with
  | zero => exact h.elim
  | succ k ih =>
    rcases hfile : scriptFile script with _ | ⟨path, name⟩
    · refine ⟨1, fun n hn s => ?_⟩
      obtain ⟨n, rfl⟩ := Nat.exists_eq_succ_of_ne_zero (by omega : n ≠ 0)
      simp [raspiCliRunScript, runUnrolled, hfile]
    rcases hname : w.files name with _ | file
    · refine ⟨1, fun n hn s => ?_⟩
      obtain ⟨n, rfl⟩ := Nat.exists_eq_succ_of_ne_zero (by omega : n ≠ 0)
      simp [raspiCliRunScript, runUnrolled, hfile, hname]
    obtain ⟨hknot, hcalls⟩ := h path name file hfile hname
    rw [← List.drop_zero (l := scriptLines file),
      ← unroll_eq_none_iff (fun _ _ _ => scriptLoop_pos) 0] at hknot
    obtain ⟨ls, hls⟩ := Option.ne_none_iff_exists'.1 hknot
    have hih : ∀ chunk ∈ ls, ∀ callee, scriptCallee path chunk = some callee → ∃ m, ∀ n, m ≤ n →
        ∀ s, (w.runUnrolled k callee s).isSome = true ∧
          w.raspiCliRunScript n callee s = w.runUnrolled k callee s :=
      fun chunk hx callee hc => ih (hcalls chunk (mem_of_mem_unroll hls hx) callee hc)
    obtain ⟨m, hm⟩ := callees_within hih
    refine ⟨max m (ls.length + 1) + 1, fun n hn s => ?_⟩
    obtain ⟨n, rfl⟩ := Nat.exists_eq_succ_of_ne_zero (by omega : n ≠ 0)
    have hreads : Loops.Reads scriptLoop (scriptStart file) ls :=
      (readsAll_unroll (fun _ _ _ => scriptLoop_pos) (straight_scriptStart file) ls).2 hls
    simp only [raspiCliRunScript, runUnrolled, hfile, hname, hls]
    refine ⟨scriptExec_isSome fun x hx callee s hc => (hm x hx callee hc m le_rfl s).1, ?_⟩
    rw [scriptRun_reads hreads (by omega)]
    exact scriptExec_congr fun x hx callee s hc => (hm x hx callee hc n (by omega) s).2

theorem callsWithin_succ {k : ℕ} {name : Bytes} (hscript : scriptFile script = some (path, name))
    (hname : w.files name = some file)
    (hloops : (unroll scriptLoop 0 (scriptLines file)).isSome = true)
    (hcalls : ∀ chunk ∈ scriptLines file, ∀ callee, scriptCallee path chunk = some callee →
      w.CallsWithin k callee) : w.CallsWithin (k + 1) script := by
  intro path' name' file' h h'
  obtain ⟨rfl, rfl⟩ := Prod.mk.inj (Option.some.inj (hscript.symm.trans h))
  obtain rfl := Option.some.inj (hname.symm.trans h')
  refine ⟨fun hk => ?_, hcalls⟩
  rw [← List.drop_zero (l := scriptLines file),
    ← unroll_eq_none_iff (fun _ _ _ => scriptLoop_pos) 0] at hk
  rw [hk] at hloops
  cases hloops

/-- Two scripts, one of which calls the other in a loop, in a world that keeps what is done and
`errno`. -/
def scriptSample : ScriptWorld (List ScriptAct × Bool) where
  files name :=
    if name = bytes "./main" then some (bytes "LOOP 2 3\nCALL sub\nWAIT 1s\nAT\n")
    else if name = bytes "./sub" then some (bytes "ECHO \"hi\"\n")
    else none
  uart := false
  atcmdErrorExit := true
  act a d := (0, d.1 ++ [a], d.2)
  erange d := d.2
  overflow d := (d.1, true)

theorem raspiCliRunScript_unrolled_sample : ∃ m, ∀ n, m ≤ n → ∀ s,
    (scriptSample.runUnrolled 2 (bytes "main") s).isSome = true ∧
      scriptSample.raspiCliRunScript n (bytes "main") s =
        scriptSample.runUnrolled 2 (bytes "main") s := by
  have hsub : scriptSample.CallsWithin 1 (bytes "./sub") := by
    have hfile : scriptFile (bytes "./sub") = some (bytes ".", bytes "./sub") := rfl
    refine callsWithin_succ hfile rfl rfl fun chunk h callee hc => ?_
    obtain rfl := List.mem_singleton.1 (show chunk ∈ [bytes "ECHO \"hi\"\n"] from h)
    cases hc
  have hfile : scriptFile (bytes "main") = some (bytes ".", bytes "./main") := rfl
  refine raspiCliRunScript_unrolled (callsWithin_succ hfile rfl rfl fun chunk h callee hc => ?_)
  have h : chunk ∈ [bytes "LOOP 2 3\n", bytes "CALL sub\n", bytes "WAIT 1s\n", bytes "AT\n"] := h
  simp only [List.mem_cons, List.not_mem_nil, or_false] at h
  rcases h with rfl | rfl | rfl | rfl <;> cases hc
  exact hsub

/-- A line that is read and does not stop the script. -/
def ScriptNext (w : ScriptWorld δ) (path : Bytes)
    (call : Bytes → ScriptState δ → Option (ScriptEnd × ScriptState δ))
    (x y : Control Bytes × ScriptState δ) : Prop :=
  ∃ chunk, x.1.fetch scriptLoop = some (chunk, y.1) ∧
    w.scriptLine path call chunk y.1.rest.isEmpty x.2 = some (none, y.2)

/-- No line that a run comes to stops the script. -/
def GoesOn (w : ScriptWorld δ) (path : Bytes)
    (call : Bytes → ScriptState δ → Option (ScriptEnd × ScriptState δ)) (c : Control Bytes)
    (s : ScriptState δ) : Prop :=
  ∀ x, Relation.ReflTransGen (ScriptNext w path call) (c, s) x →
    ∀ chunk c', x.1.fetch scriptLoop = some (chunk, c') →
      ∃ s', w.scriptLine path call chunk c'.rest.isEmpty x.2 = some (none, s')

theorem GoesOn.next (h : GoesOn w path call c s) {c' : Control Bytes}
    (hf : c.fetch scriptLoop = some (chunk, c')) :
    ∃ s', w.scriptLine path call chunk c'.rest.isEmpty s = some (none, s') ∧
      GoesOn w path call c' s' := by
  obtain ⟨s', hline⟩ := h (c, s) .refl chunk c' hf
  have hnext : ScriptNext w path call (c, s) (c', s') := ⟨chunk, hf, hline⟩
  exact ⟨s', hline, fun x hx => h x (.head hnext hx)⟩

/-- A run in which no line stops the script is one in which its lines come to an end. -/
theorem reads_of_scriptRun (hgo : GoesOn w path call c s) {n : ℕ} {r : ScriptEnd × ScriptState δ}
    (h : w.scriptRun path call n c s = some r) : ∃ out, Loops.Reads scriptLoop c out := by
  induction n generalizing c s with
  | zero => cases h
  | succ n ih =>
    rw [scriptRun] at h
    rcases hf : c.fetch scriptLoop with _ | ⟨chunk, c'⟩ <;> rw [hf] at h
    · rcases hrest : c.rest with _ | ⟨l, rest⟩
      · exact ⟨[], hrest⟩
      · simp [Control.fetch, hrest] at hf
    · obtain ⟨s', hline, hgo'⟩ := hgo.next hf
      dsimp only at h
      rw [hline] at h
      obtain ⟨out, hout⟩ := ih hgo' h
      exact ⟨chunk :: out, c', hf, hout⟩

theorem scriptRun_of_reads (hgo : GoesOn w path call c s) (h : Loops.Reads scriptLoop c ls) :
    ∃ r, w.scriptRun path call (ls.length + 1) c s = some r := by
  induction ls generalizing c s with
  | nil =>
    have hf : c.fetch scriptLoop = none := by
      rw [Control.fetch, show c.rest = [] from h]
    exact ⟨(.done, s), by simp only [scriptRun, hf]⟩
  | cons chunk ls ih =>
    obtain ⟨c', hf, hr⟩ := h
    obtain ⟨s', hline, hgo'⟩ := hgo.next hf
    obtain ⟨r, hrun⟩ := ih hgo' hr
    refine ⟨r, ?_⟩
    rw [List.length_cons, scriptRun]
    simp only [hf, hline, hrun]

/-- A script none of whose lines stops it ends exactly when it has no knot. -/
theorem scriptRun_ends_iff (hgo : GoesOn w path call (scriptStart file) s) :
    (∃ n r, w.scriptRun path call n (scriptStart file) s = some r) ↔
      ¬ Knotted scriptLoop (scriptLines file) := by
  have hiff := exists_reads_iff (fun _ _ _ => scriptLoop_pos) (straight_scriptStart file)
  rw [show (scriptStart file).rest = scriptLines file from rfl] at hiff
  rw [← hiff]
  constructor
  · rintro ⟨n, r, h⟩
    exact reads_of_scriptRun hgo h
  · rintro ⟨out, h⟩
    exact ⟨out.length + 1, scriptRun_of_reads hgo h⟩

/-- A loop over a line that begins the same loop again. -/
theorem scriptRun_ends_iff_knot :
    (∃ n r, scriptSample.scriptRun [] (fun _ _ => none) n
        (scriptStart (bytes "LOOP 1 2\nLOOP 1 2\n")) ⟨([], false), 0⟩ = some r) ↔
      ¬ Knotted scriptLoop (scriptLines (bytes "LOOP 1 2\nLOOP 1 2\n")) := by
  have hloop : ∀ last, scriptSample.scriptLine [] (fun _ _ => none) (bytes "LOOP 1 2\n") last
      ⟨([], false), 0⟩ = some (none, ⟨([], false), 0⟩) := fun last => rfl
  refine scriptRun_ends_iff fun x hx => ?_
  -- every line is this one, and no number of it is too large
  have hinv : (∀ l ∈ x.1.rest, l = bytes "LOOP 1 2\n") ∧
      (∀ l ∈ x.1.reg.body, l = bytes "LOOP 1 2\n") ∧ x.2 = ⟨([], false), 0⟩ := by
    induction hx with
    | refl => exact ⟨by decide, by simp [scriptStart], rfl⟩
    | tail _ hnext ih =>
      obtain ⟨hr, hb, hs⟩ := ih
      obtain ⟨chunk, hf, hline⟩ := hnext
      obtain ⟨rfl, hr', hb'⟩ := fetch_mem hf hr hb
      rw [hs, hloop] at hline
      exact ⟨hr', hb', (Prod.mk.inj (Option.some.inj hline)).2.symm⟩
  intro chunk c' hf
  obtain ⟨rfl, -, -⟩ := fetch_mem hf hinv.1 hinv.2.1
  rw [hinv.2.2]
  exact ⟨_, hloop _⟩

/-! ## The lines of a file -/

/-- An amount in percent, and a conversion whose argument is missing. -/
example : formatText (bytes "AT+X=50%%") = some (bytes "AT+X=50%") ∧
    formatText (bytes "AT+X=%s") = none := by decide

/-! ## What a script does outside -/

section Allowed

/-- The outside is as it should be, and `data + next_data` leaves room for what is sent. -/
def Keeps (I : δ → Prop) (s : ScriptState δ) : Prop := I s.dev ∧ s.nextData ≤ scriptDataValMax

variable {I : δ → Prop}

variable (hact : ∀ a d, a.Allowed → I d → I (w.act a d).2)
  (hover : ∀ d, I d → I (w.overflow d))

include hact hover

end Allowed

end ScriptWorld

end NrcAtcmd
