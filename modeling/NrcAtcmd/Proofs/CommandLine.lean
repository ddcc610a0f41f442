import NrcAtcmd.Proofs.CommandReceiver

/-!
# What a line leaves behind

At the end of a line the buffer is empty and no carriage return is counted, in command mode as in a
session, which begins at the end of a line. What stays is the state of `atcmd_key_code`: an escape
sequence that a line began and did not complete goes on in the next line.

A command line that starts with no escape sequence open is read character by character, however it
is cut, and comes to what `atcmd_process_command` makes of it (`line_run`).
-/

namespace NrcAtcmd

open Memory Machine

variable {ε : Type*}

/-- A command line without its end: `AT` and what follows, printable, as long as the buffer can
hold. -/
structure IsCommand (l : Bytes) : Prop where
  at_prefix : bytes "AT" <+: l
  printable : ∀ c ∈ l, 0x20 ≤ c ∧ c ≤ 0x7E
  fits : l.length ≤ atcmdMsgLenMax

/-- The two ends of a line while a line feed ends it. -/
def IsEol (eol : Bytes) : Prop := eol = [10] ∨ eol = [13, 10]

/-- What a line led to: the call of a handler or the answer that came first. -/
def Device.outcome (d d' : Device ε) : Option Logged := (d'.log.drop d.log.length).head?

/-- A command line leads to the same after `d` as after a reset. Some of it, `r`, may have come in the
call of `atcmd_receive` that brought the end of what was before. -/
def ReadsAfresh (S : Sink ε) (groups : List (AtcmdGroup ε)) (d : Device ε) : Prop :=
  ∀ (l eol r : Bytes) (js js₀ : List Input) (d' d₀ : Device ε) (e₀ : ε), IsCommand l → IsEol eol →
    r ++ received js = l ++ eol → run (deviceStep S groups) { d with rest := r } js = some d' →
    d'.Done → received js₀ = l ++ eol → run (deviceStep S groups) (.boot e₀) js₀ = some d₀ →
    d₀.Done → d.outcome d' = (Device.boot e₀).outcome d₀

/-- The first entry an effect makes in the log. -/
def Effect.logged : Effect ε → Option Logged
  | .nothing | .reset => none
  | .reply ret => some (.reply none ret)
  | .call _ name type argv => some (.call name type argv)

/-! ## The key codes -/

theorem atcmdKeyCode_cnt (s : KeyCode) (c : UInt8) (h : s.esc = true → s.cnt < 3) :
    (atcmdKeyCode s c).1.esc = true → (atcmdKeyCode s c).1.cnt < 3 := by
  unfold atcmdKeyCode
  by_cases hc : c < 0x20 ∨ 0x7E < c
  · rw [if_pos hc]
    split_ifs
    · exact h
    · exact h
    · exact h
    · simp
    · exact h
  · rw [if_neg hc]
    by_cases hesc : s.esc = true
    · rw [if_pos hesc]
      have := h hesc
      dsimp only
      split
      · split_ifs <;> simp
      · split_ifs <;> simp
      · simp
      · rename_i n h0 h1 h2
        exact absurd this (by simp only [imp_false] at h0 h1 h2; omega)
    · rw [if_neg hesc]
      exact h

theorem atcmdKeyCode_print {s : KeyCode} {c : UInt8} (h : s.esc = false) (h1 : 0x20 ≤ c)
    (h2 : c ≤ 0x7E) : atcmdKeyCode s c = (s, .print) := by
  unfold atcmdKeyCode
  rw [if_neg (by rw [not_or, UInt8.not_lt, UInt8.not_lt]; exact ⟨h1, h2⟩), if_neg (by simp [h])]

theorem LineReader.switch_key (groups : List (AtcmdGroup ε)) (r : LineReader) (c : UInt8)
    (code : AtcmdKey) : (r.switch groups c code).1.key = r.key := by
  cases code <;> simp only [switch, LineReader.print] <;> split_ifs <;> rfl

theorem atcmdReceiveChar_key (groups : List (AtcmdGroup ε)) (r : LineReader) (c : UInt8) :
    (atcmdReceiveChar groups r c).1.key = (atcmdKeyCode r.key c).1 := by
  unfold atcmdReceiveChar
  dsimp only
  split_ifs
  · rfl
  · rfl
  · exact LineReader.switch_key groups _ c _
  · exact LineReader.switch_key groups _ c _

/-! ## Between two lines -/

theorem transmitReturn_line (now : UInt32) (cmd : Option Bytes) (ret : AtcmdError) (d : Device ε) :
    (d.transmitReturn now cmd ret).line = d.line := by
  unfold Device.transmitReturn Device.record
  dsimp only
  split_ifs <;> rfl

theorem perform_line (now : UInt32) (d : Device ε) (e : Effect ε) :
    (d.perform now e).line = d.line := by
  cases e with
  | nothing => rfl
  | reset => rfl
  | reply ret => exact transmitReturn_line now none ret d
  | call handler name type argv =>
    have hcall : (d.call handler name type argv).line = d.line := by
      unfold Device.call
      rcases hm : (handler argv d.rx.env).dataMode with _ | p <;> simp only [hm] <;> rfl
    rw [← hcall]
    unfold Device.perform Device.handlerReturn
    dsimp only
    split
    · rfl
    · exact transmitReturn_line now _ _ _
    · exact transmitReturn_line now _ _ _

/-- Nothing is kept of a line. -/
def LineReader.Clear (r : LineReader) : Prop :=
  r.cmd = [] ∧ (r.config.linefeed = true → r.cntCR = 0)

theorem atcmdReceiveChar_lf {groups : List (AtcmdGroup ε)} (r : LineReader) :
    (atcmdReceiveChar groups r 10).1.Clear := by
  have hkey : atcmdKeyCode r.key 10 = (r.key, .lf) := rfl
  have hswitch : ∀ r : LineReader, (r.switch groups 10 .lf).1.cmd = []
      ∧ (r.switch groups 10 .lf).1.cntCR = r.cntCR
      ∧ (r.switch groups 10 .lf).1.config.linefeed = r.config.linefeed := by
    intro r
    simp only [LineReader.switch]
    split_ifs with hcmd
    · exact ⟨hcmd, rfl, rfl⟩
    · exact ⟨rfl, rfl, atcmdProcessCommand_linefeed groups r.config r.cmd⟩
  unfold atcmdReceiveChar
  simp only [hkey, reduceCtorEq, if_false]
  split_ifs with hl
  · obtain ⟨hcmd, hcr, -⟩ := hswitch { r with cntCR := 0 }
    exact ⟨hcmd, fun _ => hcr⟩
  · obtain ⟨hcmd, -, hlf⟩ := hswitch r
    exact ⟨hcmd, fun ht => absurd (hlf.symm.trans ht) hl⟩

/-- What a call of `atcmd_receive_command` leaves of the line. -/
theorem atcmdReceiveCommand_line (groups : List (AtcmdGroup ε)) (now : UInt32) :
    ∀ (cs : Bytes) (d : Device ε), (d.line.key.esc = true → d.line.key.cnt < 3) →
      let r := atcmdReceiveCommand groups now cs d
      (r.1.line.key.esc = true → r.1.line.key.cnt < 3)
        ∧ (cs ≠ [] → 0 < r.2) ∧ ((cs.take r.2).getLast? = some 10 → r.1.line.Clear)
  | [], d, hk => ⟨hk, fun h => absurd rfl h, fun h => absurd h (by simp)⟩
  | c :: cs, d, hk => by
    have hk' := atcmdReceiveChar_key groups d.line c ▸ atcmdKeyCode_cnt d.line.key c hk
    have hgo : ∀ d' : Device ε, d'.line = (atcmdReceiveChar groups d.line c).1 →
        (((c :: cs).take ((atcmdReceiveCommand groups now cs d').2 + 1)).getLast? = some 10 →
          (atcmdReceiveCommand groups now cs d').1.line.Clear) := by
      intro d' hd' hlast
      rw [List.take_succ_cons] at hlast
      rcases cs with _ | ⟨b, cs⟩
      · simp only [atcmdReceiveCommand, List.take_nil, List.getLast?_singleton,
          Option.some.injEq] at hlast ⊢
        rw [hd', hlast]
        exact atcmdReceiveChar_lf d.line
      · obtain ⟨-, hpos, hclear⟩ :=
          atcmdReceiveCommand_line groups now (b :: cs) d' (by rw [hd']; exact hk')
        refine hclear ?_
        rw [List.getLast?_cons_of_ne_nil] at hlast
        · exact hlast
        · intro hnil
          have := congrArg List.length hnil
          have hpos := hpos (by simp)
          simp only [List.length_take, List.length_cons, List.length_nil] at this
          omega
    rcases hc : atcmdReceiveChar groups d.line c with ⟨line, got⟩
    rw [hc] at hgo hk'
    simp only [atcmdReceiveCommand, hc]
    cases got with
    | next =>
      exact ⟨(atcmdReceiveCommand_line groups now cs { d with line := line } hk').1,
        fun _ => Nat.succ_pos _, hgo _ rfl⟩
    | linefeed =>
      exact ⟨(atcmdReceiveCommand_line groups now cs
          (({ d with line := line } : Device ε).record .linefeed) hk').1,
        fun _ => Nat.succ_pos _, hgo _ rfl⟩
    | line e =>
      simp only [perform_line]
      exact ⟨hk', fun _ => Nat.one_pos, fun _ => atcmdReceiveChar_line hc⟩

/-- What the bytes taken so far left behind: after a line feed, nothing of a line. -/
structure Heard (is : List Input) (d : Device ε) : Prop where
  inv : d.Inv
  key : d.line.key.esc = true → d.line.key.cnt < 3
  taken : d.halted = false → ∃ taken, received is = taken ++ d.rest
    ∧ (taken.getLast? = some 10 → d.line.Clear)

theorem Heard.step {S : Sink ε} {groups : List (AtcmdGroup ε)} {is : List Input} {d d' : Device ε}
    {i : Input} (h : Heard is d) (hs : deviceStep S groups d i = some d') :
    Heard (is ++ [i]) d' := by
  have hinv := h.inv.step hs
  cases i with
  | receive buf =>
    simp only [deviceStep] at hs
    split_ifs at hs with hh hrest <;> simp only [Option.some.injEq] at hs <;> subst hs
    · exact ⟨hinv, h.key, fun hh' => absurd (hh.symm.trans hh') (by decide)⟩
    · refine ⟨hinv, h.key, fun hh' => ?_⟩
      obtain ⟨taken, hr, hclear⟩ := h.taken hh'
      exact ⟨taken, by rw [received_concat, hr, hrest, List.append_nil, Input.received], hclear⟩
  | tick now =>
    simp only [deviceStep] at hs
    split_ifs at hs
    simp only [Option.some.injEq] at hs
    subst hs
    refine ⟨hinv, h.key, fun hh' => ?_⟩
    obtain ⟨taken, hr, hclear⟩ := h.taken hh'
    refine ⟨taken, ?_, hclear⟩
    rw [received_concat, hr]
    exact List.append_nil _
  | turn now =>
    simp only [deviceStep] at hs
    split_ifs at hs with hgo hen <;> simp only [Option.some.injEq] at hs <;>
      rw [not_or] at hgo <;>
      obtain ⟨taken, hr, hclear⟩ := h.taken (by simpa using hgo.1)
    · -- in a session nothing of a line is kept
      have hline : d'.line = d.line := by rw [← hs, ended_line]
      have hrest : d'.rest = d.rest.drop (atcmdReceiveData S now d.rest d.rx).2 := by
        rw [← hs]
        unfold Device.ended Device.record
        split_ifs <;> rfl
      refine ⟨hinv, by rw [hline]; exact h.key, fun _ =>
        ⟨taken ++ d.rest.take (atcmdReceiveData S now d.rest d.rx).2, ?_, fun _ => ?_⟩⟩
      · rw [received_concat, hr, hrest, List.append_assoc _ (d.rest.take _),
          List.take_append_drop]
        exact List.append_nil _
      · rw [hline]
        exact h.inv.line hen
    · obtain ⟨hk, hpos, hlf⟩ :=
        atcmdReceiveCommand_line groups now d.rest { d with rest := [] } h.key
      have hpos := hpos hgo.2
      have hne : d.rest.take (atcmdReceiveCommand groups now d.rest { d with rest := [] }).2
          ≠ [] := by
        rw [Ne, List.take_eq_nil_iff]
        rintro (h0 | h0)
        · omega
        · exact hgo.2 h0
      subst hs
      refine ⟨hinv, hk, fun _ => ⟨taken ++ d.rest.take (atcmdReceiveCommand groups now d.rest
        { d with rest := [] }).2, ?_, fun hlast => hlf ?_⟩⟩
      · dsimp only
        rw [received_concat, hr, List.append_assoc _ (d.rest.take _), List.take_append_drop]
        exact List.append_nil _
      · rwa [List.getLast?_append_of_ne_nil _ hne] at hlast

/-- In command mode at the end of a line, only the escape sequence says what came before. -/
theorem Heard.clear {S : Sink ε} {groups : List (AtcmdGroup ε)} {e : ε} {is : List Input}
    {d : Device ε} (hd : run (deviceStep S groups) (.boot e) is = some d) (hh : d.halted = false)
    (hrest : d.rest = []) (hlf : (received is).getLast? = some 10) :
    d.Inv ∧ (d.line.key.esc = true → d.line.key.cnt < 3) ∧ d.line.Clear := by
  have h0 : Heard [] (.boot e : Device ε) :=
    ⟨.boot e, fun h => absurd h (by simp [Device.boot, LineReader.boot]),
      fun _ => ⟨[], rfl, fun h => absurd h (by simp)⟩⟩
  have h : Heard is d := by
    have := run_hist_along (C := fun _ _ => True) (P := Heard) (fun _ _ _ _ hp _ hs => hp.step hs)
      is [] (.boot e) d h0 (along_true (fun _ _ => trivial) is _) hd
    simpa using this
  obtain ⟨taken, hr, hclear⟩ := h.taken hh
  rw [hrest, List.append_nil] at hr
  exact ⟨h.inv, h.key, hclear (hr ▸ hlf)⟩

/-! ## Reading a command line -/

/-- A printable character ends a row of carriage returns. -/
def LineReader.uncount (r : LineReader) : LineReader :=
  if r.config.linefeed then { r with cntCR := 0 } else r

@[simp] theorem LineReader.uncount_cmd (r : LineReader) : r.uncount.cmd = r.cmd := by
  unfold uncount
  split_ifs <;> rfl

theorem atcmdReceiveChar_print (groups : List (AtcmdGroup ε)) {r : LineReader} {c : UInt8}
    (hesc : r.key.esc = false) (h1 : 0x20 ≤ c) (h2 : c ≤ 0x7E) :
    atcmdReceiveChar groups r c = (r.uncount.print c, .next) := by
  unfold atcmdReceiveChar LineReader.uncount
  simp only [atcmdKeyCode_print hesc h1 h2, reduceCtorEq, if_false]
  split_ifs <;> rfl

theorem print_next {r : LineReader} {c : UInt8} {l : Bytes} (hl : IsCommand l)
    (hp : r.cmd ++ [c] <+: l) : r.print c = { r with cmd := r.cmd ++ [c] } := by
  have hlen : r.cmd.length + 1 ≤ l.length := by simpa using hp.length_le
  have hfits := hl.fits
  unfold LineReader.print
  rw [if_neg, if_pos (by omega)]
  rintro ⟨hlt, hne⟩
  apply hne
  obtain ⟨t, ht⟩ := hl.at_prefix
  have h1 : (bytes "AT")[r.cmd.length]? = l[r.cmd.length]? := by
    rw [← ht, List.getElem?_append_left (by simpa [bytes] using hlt)]
  obtain ⟨u, rfl⟩ := hp
  rw [h1, List.append_assoc, List.getElem?_append_right (Nat.le_refl _)]
  simp

theorem perform_log (now : UInt32) (d : Device ε) (e : Effect ε) :
    ∃ x, (d.perform now e).log = d.log ++ x ∧ x.head? = e.logged := by
  have hret : ∀ (d : Device ε) cmd ret,
      (d.transmitReturn now cmd ret).log = d.log ++ [.reply cmd ret] := by
    intro d cmd ret
    unfold Device.transmitReturn Device.record
    dsimp only
    split_ifs <;> rfl
  cases e with
  | nothing => exact ⟨[], by simp [Device.perform], rfl⟩
  | reset => exact ⟨[], by simp [Device.perform], rfl⟩
  | reply ret => exact ⟨_, hret d none ret, rfl⟩
  | call handler name type argv =>
    have hcall : (d.call handler name type argv).log = d.log ++ [.call name type argv] := by
      unfold Device.call
      rcases hm : (handler argv d.rx.env).dataMode with _ | p <;> simp only [hm] <;> rfl
    unfold Device.perform Device.handlerReturn
    dsimp only
    split
    · exact ⟨_, hcall, rfl⟩
    · exact ⟨_, by rw [hret, hcall, List.append_assoc], rfl⟩
    · exact ⟨_, by rw [hret, hcall, List.append_assoc], rfl⟩

/-- The device has read `l` up to the line buffer, and its end to come is `eol`. -/
structure Reads (l rest eol : Bytes) (d : Device ε) : Prop where
  enable : d.rx.mode.enable = false
  halted : d.halted = false
  esc : d.line.key.esc = false
  linefeed : d.line.config.linefeed = true
  line : l = d.line.cmd ++ rest
  eol : eol = [10] ∨ eol = [13, 10] ∧ d.line.cntCR < 9

/-- What a call of `atcmd_receive_command` does with some of the bytes of a line: it keeps them, or
they complete the line. -/
theorem Reads.command (groups : List (AtcmdGroup ε)) (now : UInt32) {l : Bytes} (hl : IsCommand l) :
    ∀ (cs : Bytes) {more rest eol : Bytes} {d : Device ε}, Reads l rest eol d →
      cs ++ more = rest ++ eol →
      let r := atcmdReceiveCommand groups now cs d
      (∃ rest' eol', Reads l rest' eol' r.1 ∧ more = rest' ++ eol' ∧ r.1.log = d.log
        ∧ r.1.line.config = d.line.config ∧ r.2 = cs.length)
      ∨ (more = [] ∧ r.2 = cs.length ∧ ∃ x, r.1.log = d.log ++ x
        ∧ x.head? = (atcmdProcessCommand groups d.line.config l).2.logged)
  | [], more, rest, eol, d, h, hv => Or.inl ⟨rest, eol, h, hv, rfl, rfl, rfl⟩
  | c :: cs, more, rest, eol, d, h, hv => by
    rcases rest with _ | ⟨b, rest⟩
    · have hcmd : d.line.cmd = l := by rw [h.line, List.append_nil]
      have hne : l ≠ [] := by
        obtain ⟨t, ht⟩ := hl.at_prefix
        rw [← ht]
        exact List.append_ne_nil_of_left_ne_nil (by decide) t
      rcases h.eol with rfl | ⟨rfl, hcr⟩
      · -- the line is complete
        simp only [List.nil_append, List.cons_append, List.cons.injEq, List.append_eq_nil_iff] at hv
        obtain ⟨rfl, rfl, rfl⟩ := hv
        right
        have hchar : atcmdReceiveChar groups d.line 10 =
            ({ d.line with cntCR := 0, cmd := []
                           config := (atcmdProcessCommand groups d.line.config l).1 },
              .line (atcmdProcessCommand groups d.line.config l).2) := by
          have hkey : atcmdKeyCode d.line.key 10 = (d.line.key, .lf) := rfl
          unfold atcmdReceiveChar
          simp only [hkey, h.linefeed, if_true, reduceCtorEq, if_false, LineReader.switch, hcmd,
            hne]
        obtain ⟨x, hx, hhead⟩ := perform_log now { d with line := (atcmdReceiveChar groups d.line
          10).1 } (atcmdProcessCommand groups d.line.config l).2
        simp only [atcmdReceiveCommand, hchar] at hx ⊢
        exact ⟨trivial, rfl, x, hx, hhead⟩
      · -- the carriage return is counted
        simp only [List.nil_append, List.cons_append, List.cons.injEq] at hv
        obtain ⟨rfl, hv⟩ := hv
        have hchar : atcmdReceiveChar groups d.line 13
            = ({ d.line with cntCR := d.line.cntCR + 1 }, .next) := by
          have hkey : atcmdKeyCode d.line.key 13 = (d.line.key, .cr) := rfl
          unfold atcmdReceiveChar
          simp only [hkey, h.linefeed, if_true]
          rw [if_neg (by omega)]
        have h' : Reads l [] [10] { d with line := { d.line with cntCR := d.line.cntCR + 1 } } :=
          ⟨h.enable, h.halted, h.esc, h.linefeed, h.line, Or.inl rfl⟩
        have := Reads.command groups now hl cs h' hv
        simpa [atcmdReceiveCommand, hchar] using this
    · -- a character of the line
      simp only [List.cons_append, List.cons.injEq] at hv
      obtain ⟨rfl, hv⟩ := hv
      have hmem : c ∈ l := by
        rw [h.line]
        simp
      obtain ⟨h1, h2⟩ := hl.printable c hmem
      have hchar := atcmdReceiveChar_print groups h.esc h1 h2
      rw [LineReader.uncount, if_pos h.linefeed,
        print_next (r := { d.line with cntCR := 0 }) hl (by rw [h.line]; simp)] at hchar
      have h' : Reads l rest eol
          { d with line := { d.line with cntCR := 0, cmd := d.line.cmd ++ [c] } } :=
        ⟨h.enable, h.halted, h.esc, h.linefeed, by rw [h.line]; simp,
          h.eol.imp_right fun h => ⟨h.1, Nat.succ_pos 8⟩⟩
      have := Reads.command groups now hl cs h' hv
      simpa [atcmdReceiveCommand, hchar] using this

theorem log_run {S : Sink ε} {groups : List (AtcmdGroup ε)} : ∀ (js : List Input) {d d' : Device ε},
    d.rest = [] → received js = [] → run (deviceStep S groups) d js = some d' → d'.log = d.log
  | [], d, d', _, _, hr => by
    simp only [run_nil, Option.some.injEq] at hr
    rw [hr]
  | j :: js, d, d', hrest, hrec, hr => by
    obtain ⟨m, hm, hr⟩ := run_cons_eq_some.1 hr
    have hcons : j.received ++ received js = [] := hrec
    obtain ⟨hj, hjs⟩ := List.append_eq_nil_iff.1 hcons
    cases j with
    | receive buf =>
      simp only [deviceStep] at hm
      split_ifs at hm <;> simp only [Option.some.injEq] at hm <;> subst hm
      · exact log_run js hrest hjs hr
      · exact (log_run js (d := { d with rest := buf }) hj hjs hr).trans rfl
    | turn now => simp [deviceStep, hrest] at hm
    | tick now =>
      simp only [deviceStep] at hm
      split_ifs at hm
      simp only [Option.some.injEq] at hm
      subst hm
      exact (log_run js (d := { d with rx := (atcmdDataModeTask now d.rx).1 }) hrest hjs hr).trans rfl

/-- However the bytes of a command line come, what they lead to is what `atcmd_process_command` makes
of the line. -/
theorem line_run {S : Sink ε} {groups : List (AtcmdGroup ε)} {l : Bytes} (hl : IsCommand l) :
    ∀ (js : List Input) {rest eol : Bytes} {d d' : Device ε}, Reads l rest eol d →
      d.rest ++ received js = rest ++ eol → run (deviceStep S groups) d js = some d' → d'.Done →
      d.outcome d' = (atcmdProcessCommand groups d.line.config l).2.logged
  | [], rest, eol, d, d', h, hv, hr, hdone => by
    simp only [run_nil, Option.some.injEq] at hr
    subst hr
    have hne : rest ++ eol ≠ [] := by
      rcases h.eol with he | ⟨he, -⟩ <;> rw [he] <;> simp
    rcases hdone with hh | hrest
    · exact absurd (h.halted.symm.trans hh) (by decide)
    · rw [hrest] at hv
      exact absurd hv.symm hne
  | j :: js, rest, eol, d, d', h, hv, hr, hdone => by
    obtain ⟨m, hm, hr⟩ := run_cons_eq_some.1 hr
    have hcons : received (j :: js) = j.received ++ received js := rfl
    rw [hcons] at hv
    cases j with
    | receive buf =>
      simp only [deviceStep] at hm
      split_ifs at hm with hh hrest <;> simp only [Option.some.injEq] at hm <;> subst hm
      · exact absurd (h.halted.symm.trans hh) (by decide)
      · rw [hrest] at hv
        have h' : Reads l rest eol { d with rest := buf } :=
          ⟨h.enable, h.halted, h.esc, h.linefeed, h.line, h.eol⟩
        exact line_run (d := { d with rest := buf }) hl js h' hv hr hdone
    | tick now =>
      have htask : (atcmdDataModeTask now d.rx).1 = d.rx := by simp [atcmdDataModeTask, h.enable]
      simp only [deviceStep, htask] at hm
      split_ifs at hm
      simp only [Option.some.injEq] at hm
      subst hm
      exact line_run hl js h hv hr hdone
    | turn now =>
      simp only [deviceStep] at hm
      split_ifs at hm with hgo hen
      · exact absurd (h.enable.symm.trans hen) (by decide)
      simp only [Option.some.injEq] at hm
      have h' : Reads l rest eol { d with rest := [] } :=
        ⟨h.enable, h.halted, h.esc, h.linefeed, h.line, h.eol⟩
      rcases h'.command groups now hl d.rest hv with ⟨rest', eol', hreads, hv', hlog, hcfg, hn⟩ |
        ⟨hmore, hn, x, hlog, hx⟩
      · -- more of the line is to come
        rw [hn, List.drop_length] at hm
        subst hm
        have h'' : Reads l rest' eol'
            { (atcmdReceiveCommand groups now d.rest { d with rest := [] }).1 with rest := [] } :=
          ⟨hreads.enable, hreads.halted, hreads.esc, hreads.linefeed, hreads.line, hreads.eol⟩
        have := line_run hl js h'' hv' hr hdone
        rw [hcfg] at this
        rw [← this]
        simp only [Device.outcome, hlog]
      · rw [hn, List.drop_length] at hm
        subst hm
        have := log_run js rfl hmore hr
        rw [Device.outcome, this, hlog, ← hx]
        simp

/-- A command line, of which `r` came with the end of what was before, is read as by a receiver that
was just reset, if no escape sequence is open. -/
theorem outcome_eq {S : Sink ε} {groups : List (AtcmdGroup ε)} {l eol r : Bytes} {d d' : Device ε}
    {js : List Input} (hl : IsCommand l) (he : IsEol eol) (hen : d.rx.mode.enable = false)
    (hh : d.halted = false) (hcfg : d.line.config = LineReader.boot.config) (hclear : d.line.Clear)
    (hesc : d.line.key.esc = false) (hv : r ++ received js = l ++ eol)
    (hr : run (deviceStep S groups) { d with rest := r } js = some d') (hdone : d'.Done) :
    d.outcome d' = (atcmdProcessCommand groups LineReader.boot.config l).2.logged := by
  have hlf : d.line.config.linefeed = true := by rw [hcfg]; rfl
  have h : Reads l l eol { d with rest := r } :=
    ⟨hen, hh, hesc, hlf, by rw [hclear.1, List.nil_append],
      he.imp_right fun he => ⟨he, by rw [hclear.2 hlf]; exact Nat.succ_pos 8⟩⟩
  rw [← hcfg]
  exact line_run (d := { d with rest := r }) hl js h hv hr hdone

theorem isCommand_at : IsCommand (bytes "AT") where
  at_prefix := List.prefix_rfl
  printable := by decide +kernel
  fits := by decide

theorem atcmdKeyCode_A {s : KeyCode} (hesc : s.esc = true) (hcnt : s.cnt < 3) :
    ∃ buf cnt, ∃ code ∈ [AtcmdKey.reset, .up],
      atcmdKeyCode s 65 = ({ esc := false, buf := buf, cnt := cnt }, code) := by
  unfold atcmdKeyCode
  rw [if_neg (by decide), if_pos hesc]
  rcases hs : s.cnt with _ | _ | _ | n
  · exact ⟨_, _, _, List.mem_cons_self, rfl⟩
  · exact ⟨_, _, .up, by simp, rfl⟩
  · exact ⟨_, _, .reset, List.mem_cons_self, rfl⟩
  · omega

/-- With an escape sequence open, the line `AT` comes to nothing: its `A` is taken for a part of the
escape sequence. -/
theorem at_ignored (groups : List (AtcmdGroup ε)) (now : UInt32) {d : Device ε}
    (hesc : d.line.key.esc = true) (hcnt : d.line.key.cnt < 3) (hcmd : d.line.cmd = []) :
    (atcmdReceiveCommand groups now (bytes "AT\n") d).1.log = d.log
      ∧ (atcmdReceiveCommand groups now (bytes "AT\n") d).2 = 3 := by
  have hA : ∀ r : LineReader, r.key.esc = true → r.key.cnt < 3 → r.cmd = [] →
      ∃ r', atcmdReceiveChar groups r 65 = (r', .next) ∧ r'.key.esc = false ∧ r'.cmd = [] := by
    intro r h1 h2 h3
    obtain ⟨buf, cnt, code, hcode, hkey⟩ := atcmdKeyCode_A h1 h2
    simp only [List.mem_cons, List.not_mem_nil, or_false] at hcode
    unfold atcmdReceiveChar
    rcases hcode with rfl | rfl <;> simp only [hkey, reduceCtorEq, if_false] <;> split_ifs <;>
      refine ⟨_, rfl, rfl, ?_⟩ <;> first | rfl | exact h3
  have hT : ∀ r : LineReader, r.key.esc = false → r.cmd = [] →
      ∃ r', atcmdReceiveChar groups r 84 = (r', .next) ∧ r'.cmd = [] := by
    intro r h1 h2
    have hkey : atcmdKeyCode r.key 84 = (r.key, .print) :=
      atcmdKeyCode_print h1 (by decide) (by decide)
    have hprint : ∀ r : LineReader, r.cmd = [] → (r.print 84).cmd = [] := by
      intro r h
      unfold LineReader.print
      rw [h]
      rfl
    unfold atcmdReceiveChar
    simp only [hkey, reduceCtorEq, if_false, LineReader.switch]
    split_ifs
    · exact ⟨_, rfl, hprint _ h2⟩
    · exact ⟨_, rfl, hprint _ h2⟩
  have hL : ∀ r : LineReader, r.cmd = [] → (atcmdReceiveChar groups r 10).2 = .next := by
    intro r h
    have hkey : atcmdKeyCode r.key 10 = (r.key, .lf) := rfl
    unfold atcmdReceiveChar
    simp only [hkey, reduceCtorEq, if_false, LineReader.switch, h, if_true]
    split_ifs <;> rfl
  obtain ⟨r₁, h₁, hesc₁, hcmd₁⟩ := hA d.line hesc hcnt hcmd
  obtain ⟨r₂, h₂, hcmd₂⟩ := hT r₁ hesc₁ hcmd₁
  have h₃ := hL r₂ hcmd₂
  rcases h₃' : atcmdReceiveChar groups r₂ 10 with ⟨r₃, got⟩
  rw [h₃'] at h₃
  subst h₃
  have hbytes : bytes "AT\n" = [65, 84, 10] := by decide
  simp [hbytes, atcmdReceiveCommand, h₁, h₂, h₃']

/-- The command line after an end of line is read as by a receiver that was just reset exactly when
no escape sequence is open before it. -/
theorem line_independent_iff {S : Sink ε} {groups : List (AtcmdGroup ε)} {e : ε} {is : List Input}
    {d : Device ε} (hd : run (deviceStep S groups) (.boot e) is = some d) (hrest : d.rest = [])
    (hlf : (received is).getLast? = some 10) (hen : d.rx.mode.enable = false)
    (hh : d.halted = false) (hcfg : d.line.config = LineReader.boot.config) :
    ReadsAfresh S groups d ↔ d.line.key.esc = false := by
  obtain ⟨hinv, hkey, hclear⟩ := Heard.clear hd hh hrest hlf
  constructor
  · intro h
    by_contra hesc
    rw [Bool.not_eq_false] at hesc
    obtain ⟨hlog, hn⟩ := at_ignored groups 0 (d := { d with rest := [] }) hesc (hkey hesc) hclear.1
    have hturn : run (deviceStep S groups) { d with rest := bytes "AT\n" } [.turn 0] = some
        { (atcmdReceiveCommand groups 0 (bytes "AT\n") { d with rest := [] }).1 with
          rest := [] } := by
      have hne : bytes "AT\n" ≠ [] := by decide
      rw [run_cons_eq_some]
      refine ⟨_, ?_, rfl⟩
      simp only [deviceStep]
      rw [if_neg (by simp [hh, hne]), if_neg (by simp [hen]), hn]
      rfl
    obtain ⟨d₀, hr₀, hdone₀⟩ : ∃ d₀, run (deviceStep S groups) (.boot e)
        [.receive (bytes "AT\n"), .turn 0] = some d₀ ∧ d₀.Done := ⟨_, rfl, Or.inr rfl⟩
    have hok : (Device.boot e).outcome d₀ = some (.reply none .success) :=
      outcome_eq (d := .boot e) (r := []) isCommand_at (Or.inl rfl) rfl rfl rfl ⟨rfl, fun _ => rfl⟩
        rfl (by decide) hr₀ hdone₀
    have := h (bytes "AT") [10] (bytes "AT\n") [.turn 0] _ _ d₀ e isCommand_at (Or.inl rfl)
      (by decide) hturn (Or.inr rfl) (by decide) hr₀ hdone₀
    rw [hok, Device.outcome, hlog, List.drop_length] at this
    cases this
  · intro hesc l eol r js js₀ d' d₀ e₀ hl he hv hr hdone hv₀ hr₀ hdone₀
    rw [outcome_eq hl he hen hh hcfg hclear hesc hv hr hdone]
    exact (outcome_eq (d := .boot e₀) (r := []) hl he rfl rfl rfl ⟨rfl, fun _ => rfl⟩ rfl hv₀ hr₀
      hdone₀).symm

theorem line_independent_iff_session : ∃ d : Device Unit,
    run (deviceStep takeAll [sendGroup]) (.boot ())
        [.receive (bytes "AT+SSEND=0,3\nABC\n"), .turn 1, .turn 2, .turn 3] = some d
      ∧ ReadsAfresh takeAll [sendGroup] d := by
  obtain ⟨d, hd, hf⟩ := Option.map_eq_some_iff.1 (show
    (run (deviceStep takeAll [sendGroup]) (.boot ())
      [.receive (bytes "AT+SSEND=0,3\nABC\n"), .turn 1, .turn 2, .turn 3]).map
        (fun d => (d.rest, d.rx.mode.enable, d.halted, d.line.config, d.line.key.esc))
      = some ([], false, false, LineReader.boot.config, false) by decide +kernel)
  simp only [Prod.mk.injEq] at hf
  obtain ⟨hrest, hen, hh, hcfg, hesc⟩ := hf
  exact ⟨d, hd, (line_independent_iff hd hrest (by decide +kernel) hen hh hcfg).2 hesc⟩

/-- A line with nothing but an escape character makes the next command come to nothing. -/
theorem line_independent_fails_escape : ∃ d d' d₀ : Device Unit,
    run (deviceStep takeAll [sendGroup]) (.boot ()) [.receive [27, 10], .turn 1] = some d
      ∧ d.rest = [] ∧ d.rx.mode.enable = false ∧ d.line.config = LineReader.boot.config
      ∧ run (deviceStep takeAll [sendGroup]) d [.receive (bytes "AT+SSEND=0,3\n"), .turn 2] = some d'
      ∧ d'.rest = [] ∧ d.outcome d' = none
      ∧ run (deviceStep takeAll [sendGroup]) (.boot ()) [.receive (bytes "AT+SSEND=0,3\n"), .turn 2]
        = some d₀
      ∧ d₀.rest = [] ∧ (Device.boot ()).outcome d₀
        = some (.call (bytes "SSEND") .set [bytes "0", bytes "3"])
      ∧ ¬ ReadsAfresh takeAll [sendGroup] d := by
  obtain ⟨d', hr', hf'⟩ := Option.map_eq_some_iff.1 (show
    (run (deviceStep takeAll [sendGroup]) (.boot ()) ([.receive [27, 10], .turn 1]
      ++ [.receive (bytes "AT+SSEND=0,3\n"), .turn 2])).map (fun d => (d.rest, d.log))
      = some ([], []) by decide +kernel)
  obtain ⟨d, hd, hr'⟩ := run_append.1 hr'
  have hf : (run (deviceStep takeAll [sendGroup]) (.boot ()) [.receive [27, 10], .turn 1]).map
      (fun d => (d.rest, d.rx.mode.enable, d.line.config))
      = some ([], false, LineReader.boot.config) := by decide +kernel
  obtain ⟨d₀, hr₀, hf₀⟩ := Option.map_eq_some_iff.1 (show
    (run (deviceStep takeAll [sendGroup]) (.boot ())
      [.receive (bytes "AT+SSEND=0,3\n"), .turn 2]).map
        (fun d => (d.rest, (Device.boot ()).outcome d))
      = some ([], some (.call (bytes "SSEND") .set [bytes "0", bytes "3"])) by decide +kernel)
  simp only [hd, Option.map_some, Option.some.injEq, Prod.mk.injEq] at hf hf' hf₀
  have hout : d.outcome d' = none := by simp [Device.outcome, hf'.2]
  refine ⟨d, d', d₀, hd, hf.1, hf.2.1, hf.2.2, hr', hf'.1, hout, hr₀, hf₀.1, hf₀.2, fun h => ?_⟩
  have hcmd : IsCommand (bytes "AT+SSEND=0,3") :=
    ⟨⟨bytes "+SSEND=0,3", rfl⟩, by decide +kernel, by decide⟩
  have hd0 : ({ d with rest := [] } : Device Unit) = d := by rw [← hf.1]
  have := h (bytes "AT+SSEND=0,3") [10] [] [.receive (bytes "AT+SSEND=0,3\n"), .turn 2]
    [.receive (bytes "AT+SSEND=0,3\n"), .turn 2] d' d₀ () hcmd (Or.inl rfl) (by decide)
    (by rw [hd0]; exact hr') (Or.inr hf'.1) (by decide) hr₀ (Or.inr hf₀.1)
  rw [hout, hf₀.2] at this
  cases this

end NrcAtcmd
