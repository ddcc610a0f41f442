import NrcAtcmd.Proofs.CommandReceiver

/-!
# How a session is left

A session is left by its exit command when the bytes it was sent since it last became idle begin
with that command, and then at once: the turn that has the last of these bytes leaves it. While it
is idle these bytes are the matched part of the exit command and those still to be read, and once
the match has failed nothing that follows can make them begin with the exit command.

The turn leaves the last byte of the exit command to be read as a command. It is a line feed, the
line is empty and no carriage return is counted, so it is skipped.
-/

namespace NrcAtcmd

open Memory Machine

variable {ε : Type*}

/-- A device, and the bytes its session was sent since it last became idle. -/
structure Watched (ε : Type*) where
  dev : Device ε
  since : Option Bytes

/-- The steps of the device. A session becomes idle with the bytes it has not taken yet. -/
def watchStep (S : Sink ε) (groups : List (AtcmdGroup ε)) (w : Watched ε) (i : Input) :
    Option (Watched ε) :=
  (deviceStep S groups w.dev i).map fun d =>
    { dev := d
      since :=
        if d.rx.mode.enable then
          if Fires w.dev i then some w.dev.rest else w.since.map (· ++ i.received)
        else none }

/-- The session is left by its exit command on the way to `d'`. -/
def LeftBy (d d' : Device ε) : Prop :=
  ∃ out, d'.log = d.log ++ [.session d.rx.mode.params out] ∧ ∃ o ∈ out, o.IsExit

/-! ## The match -/

/-- Where a scan fails, what it read does not begin with the exit command, whatever follows. -/
theorem exitScan_mismatch {e : Bytes} : ∀ {bs : Bytes} {c i : ℕ}, c < e.length →
    exitScan e c i bs = .mismatch → ∀ x, ¬ e <+: e.take c ++ bs ++ x
  | [], c, i, _, h => by simp [exitScan] at h
  | b :: bs, c, i, hc, h => by
    intro x
    simp only [exitScan] at h
    split_ifs at h with h1 h2
    · intro hp
      have hlen : c < (e.take c).length + (b :: bs).length := by
        rw [List.length_take, Nat.min_eq_left (Nat.le_of_lt hc), List.length_cons]
        omega
      have hget := hp.getElem hc
      rw [List.getElem_append_left (by rw [List.length_append]; exact hlen),
        List.getElem_append_right (by rw [List.length_take]; omega)] at hget
      apply h1
      rw [List.getElem?_eq_getElem hc, hget]
      simp [Nat.min_eq_left (Nat.le_of_lt hc)]
    · simp only [ne_eq, not_not] at h1
      have := exitScan_mismatch (by omega) h x
      rwa [List.take_add_one, h1, Option.toList_some, List.append_assoc (e.take c),
        List.singleton_append] at this

/-! ## A turn of a session -/

/-- The turn to `d'` leaves the session by its exit command, and `tail` came after that. -/
structure Leaves (d d' : Device ε) (tail : Bytes) : Prop where
  log : ∃ out, d'.log = d.log ++ [.session d.rx.mode.params (d.rx.out ++ out)]
    ∧ out.count .ok = 1 ∧ out.countP (·.IsExit) = 1
  enable : d'.rx.mode.enable = false
  line : d'.line = d.line
  halted : d'.halted = false
  rest : ∃ last, d.rx.mode.params.exit.getLast? = some last ∧ d'.rest = last :: tail

theorem Leaves.leftBy {d d' : Device ε} {tail : Bytes} (h : Leaves d d' tail) : LeftBy d d' := by
  obtain ⟨out, hlog, -, hexit⟩ := h.log
  obtain ⟨o, ho, hx⟩ := List.countP_pos_iff.1 (by omega : 0 < out.countP (·.IsExit))
  exact ⟨_, hlog, o, List.mem_append_right _ ho, by simpa using hx⟩

theorem not_leftBy_of_log {d d' : Device ε} (h : d'.log = d.log) : ¬ LeftBy d d' := by
  rintro ⟨out, hout, -⟩
  have := congrArg List.length (h.symm.trans hout)
  simp at this

/-- A match of the exit command that reaches its end. -/
theorem Live.leaves {p : DataModeParams} {taken : Bytes} {n i : ℕ} {d : Device ε}
    (h : Live p taken n d.rx) (hh : d.halted = false)
    (hm : exitScan p.exit d.rx.cntExitCmd 0 d.rest = .matched i) (S : Sink ε) (now : UInt32) :
    ∃ tail, p.exit.take d.rx.cntExitCmd ++ d.rest = p.exit ++ tail
      ∧ Leaves d ({ d with
          rx := atcmdReceiveDataExit S now i d.rest d.rx, rest := d.rest.drop i }.ended p) tail := by
  obtain rfl := h.params
  obtain ⟨k, rfl, hk, hlt, he⟩ := exitScan_matched h.scan hm
  rw [Nat.zero_add]
  obtain ⟨o, done, drop, hout, ⟨hoff, -⟩, -, -, -, ho, -⟩ :=
    atcmdReceiveDataExit_eq S now (i := k) d.rest h.enable (by omega) h.fits
  have hlast : d.rx.mode.params.exit.getLast? = some d.rest[k] := by
    rw [he, List.take_add_one, List.getElem?_eq_getElem hk, Option.toList_some,
      ← List.append_assoc, List.getLast?_concat]
  have hok : ∀ l : List Out, (∀ x ∈ l, ∃ block ret, x = .sink d.rx.mode.params.dataType
      d.rx.mode.params.id block ret) → l.count .ok = 0 ∧ l.countP (·.IsExit) = 0 := by
    intro l hl
    refine ⟨List.count_eq_zero.2 fun hx => ?_, List.countP_eq_zero.2 fun x hx => ?_⟩
    · obtain ⟨_, _, hx⟩ := hl _ hx
      cases hx
    · obtain ⟨_, _, rfl⟩ := hl _ hx
      exact (decide_eq_false id).symm ▸ Bool.false_ne_true
  have hnone : ¬ (Out.ok).IsExit := id
  have hev := atcmdReceiveDataExit_isExit d.rx.mode.params d.rx.mode.sendLen done drop
  have hne : atcmdReceiveDataExit_ d.rx.mode.params d.rx.mode.sendLen done drop ≠ .ok := by
    intro heq
    rw [heq] at hev
    exact hev
  have hended : ({ d with rx := atcmdReceiveDataExit S now k d.rest d.rx, rest := d.rest.drop k } :
      Device ε).ended d.rx.mode.params = { d.record (.session d.rx.mode.params
        (atcmdReceiveDataExit S now k d.rest d.rx).out) with
          rx := { atcmdReceiveDataExit S now k d.rest d.rx with out := [] }
          rest := d.rest.drop k } := by
    simp [Device.ended, Device.record, hoff]
  refine ⟨d.rest.drop (k + 1), ?_, ?_⟩
  · conv_rhs => rw [he]
    rw [List.append_assoc, List.take_append_drop]
  · rw [hended]
    exact
      { log := by
          refine ⟨.ok :: o ++ [atcmdReceiveDataExit_ d.rx.mode.params d.rx.mode.sendLen done drop],
            ?_, ?_, ?_⟩
          · simp [Device.record, hout]
          · simp [(hok o ho).1, hne]
          · simp [(hok o ho).2, hev, hnone]
        enable := hoff
        line := rfl
        halted := hh
        rest := ⟨_, hlast, List.drop_eq_getElem_cons hk⟩ }

/-- A turn of a session does not leave it, or leaves it by the exit command, or holds back all it
reads. In the first case the session is not idle after it, and a match that was running failed. -/
theorem session_turn {S : Sink ε} {groups : List (AtcmdGroup ε)} {d d' : Device ε} {now : UInt32}
    (h : d.Inv) (hen : d.rx.mode.enable = true)
    (hs : deviceStep S groups d (.turn now) = some d') :
    (d'.rx.mode.idle = false ∧ ¬ LeftBy d d'
      ∧ (d'.rx.mode.enable = true → d'.rx.mode.params = d.rx.mode.params)
      ∧ (d.rx.mode.idle = true → ∀ x,
        ¬ d.rx.mode.params.exit <+: d.rx.mode.params.exit.take d.rx.cntExitCmd ++ d.rest ++ x))
    ∨ (d.rx.mode.idle = true ∧ ∃ tail,
      d.rx.mode.params.exit.take d.rx.cntExitCmd ++ d.rest = d.rx.mode.params.exit ++ tail
      ∧ Leaves d d' tail)
    ∨ (d.rx.mode.idle = true ∧ ∃ c, c < d.rx.mode.params.exit.length
      ∧ d.rx.mode.params.exit.take c = d.rx.mode.params.exit.take d.rx.cntExitCmd ++ d.rest
      ∧ d' = { d with rx := { d.rx with cntExitCmd := c }, rest := [] }) := by
  obtain ⟨p, taken, n, hl⟩ := h.live hen
  obtain rfl := hl.params
  simp only [deviceStep, hen, if_true] at hs
  split_ifs at hs with hgo
  simp only [Option.some.injEq] at hs
  rw [not_or] at hgo
  have hh : d.halted = false := by simpa using hgo.1
  rcases hl.data_cases S now hgo.2 with ⟨hd, hm⟩ | ⟨hidle, i, hm, hd⟩ | ⟨hidle, c, hm, hd⟩
  · left
    rw [hd] at hs
    have hbody := hl.spill.body rfl S now hgo.2
    have hoff := (Live.body_reading (d := { d with rx := { d.rx with cntExitCmd := 0 } }) hl.spill
      hh S groups now hgo.2).2
    subst hs
    refine ⟨by rw [ended_mode]; exact hoff, ?_, fun hon => ?_, fun hidle => ?_⟩
    · unfold Device.ended Device.record
      split_ifs with hon
      · exact not_leftBy_of_log rfl
      · rcases hbody with hb | hb
        · exact absurd hb.enable hon
        · rintro ⟨out, hout, o, ho, hx⟩
          simp only [List.append_cancel_left_eq, List.cons.injEq, Logged.session.injEq,
            and_true, true_and] at hout
          rw [← hout] at ho
          exact hb.noExit o ho hx
    · rw [ended_mode] at hon ⊢
      rcases hbody with hb | hb
      · exact hb.params
      · exact absurd (hb.enable.symm.trans hon) (by decide)
    · exact exitScan_mismatch hl.scan (hm hidle)
  · rw [hd] at hs
    obtain ⟨tail, htail, hleaves⟩ := hl.leaves hh hm S now
    exact Or.inr (Or.inl ⟨hidle, tail, htail, hs ▸ hleaves⟩)
  · obtain ⟨hc, hlt⟩ := exitScan_more hl.scan hm
    refine Or.inr (Or.inr ⟨hidle, c, hlt, hc, ?_⟩)
    rw [← hs, hd, ended_of_enable (by exact hen), List.drop_length]

/-! ## What holds of a watched device -/

structure Watched.Inv (w : Watched ε) : Prop where
  dev : w.dev.Inv
  since : w.dev.rx.mode.enable = false → w.since = none
  idle : w.dev.rx.mode.idle = true →
    w.since = some (w.dev.rx.mode.params.exit.take w.dev.rx.cntExitCmd ++ w.dev.rest)
  busy : w.dev.rx.mode.idle = false →
    ∀ bs, w.since = some bs → ∀ x, ¬ w.dev.rx.mode.params.exit <+: bs ++ x

theorem Watched.Inv.boot (e : ε) : (⟨.boot e, none⟩ : Watched ε).Inv where
  dev := .boot e
  since _ := rfl
  idle h := absurd h (by simp [Device.boot, Receiver.boot])
  busy _ _ h := absurd h (by simp)

theorem watchStep_eq_some {S : Sink ε} {groups : List (AtcmdGroup ε)} {w w' : Watched ε}
    {i : Input} (h : watchStep S groups w i = some w') :
    deviceStep S groups w.dev i = some w'.dev
      ∧ w'.since = if w'.dev.rx.mode.enable then
          if Fires w.dev i then some w.dev.rest else w.since.map (· ++ i.received)
        else none := by
  obtain ⟨d, hd, rfl⟩ := Option.map_eq_some_iff.1 h
  exact ⟨hd, rfl⟩

/-- A pass of `atcmd_data_mode_task` that does not find the session idle changes nothing. -/
theorem task_of_not_fires {d : Device ε} {now : UInt32} (h : ¬ Fires d (.tick now)) :
    (atcmdDataModeTask now d.rx).1 = d.rx := by
  unfold Fires at h
  unfold atcmdDataModeTask at h ⊢
  dsimp only at h ⊢
  split_ifs at h ⊢ with h1 h2 h3
  · rfl
  · rw [Bool.not_eq_true'] at h3
    exact absurd ⟨h3, rfl⟩ h
  · rfl
  · rfl

theorem task_fixed (now : UInt32) (rx : Receiver ε) :
    (atcmdDataModeTask now rx).1.mode.params = rx.mode.params
      ∧ (atcmdDataModeTask now rx).1.cntExitCmd = rx.cntExitCmd := by
  unfold atcmdDataModeTask
  dsimp only
  split_ifs <;> exact ⟨rfl, rfl⟩

/-- A match runs only while the session is idle. -/
theorem Device.Inv.cntExitCmd {d : Device ε} (h : d.Inv) (hidle : d.rx.mode.idle = false) :
    d.rx.cntExitCmd = 0 := by
  rcases h.rx with ⟨p, taken, n, hl⟩ | hq
  · by_contra hc
    rw [hl.idle (by omega)] at hidle
    exact absurd hidle (by decide)
  · exact hq.cntExitCmd

theorem Watched.Inv.receive {S : Sink ε} {groups : List (AtcmdGroup ε)} {w w' : Watched ε}
    {buf : Bytes} (h : w.Inv) (hs : watchStep S groups w (.receive buf) = some w') : w'.Inv := by
  obtain ⟨hd, hsince⟩ := watchStep_eq_some hs
  have hdev := h.dev.step hd
  have hf : ¬ Fires w.dev (.receive buf) := id
  rw [if_neg hf] at hsince
  have hrx : w'.dev.rx = w.dev.rx ∧ (w'.dev.rx.mode.enable = true →
      w.dev.rest = [] ∧ w'.dev.rest = buf) := by
    simp only [deviceStep] at hd
    split_ifs at hd with hh hrest <;> simp only [Option.some.injEq] at hd <;> rw [← hd]
    · exact ⟨rfl, fun hon => absurd ((h.dev.halted hh).symm.trans hon) (by decide)⟩
    · exact ⟨rfl, fun _ => ⟨hrest, rfl⟩⟩
  refine ⟨hdev, fun hoff => by simpa [hoff] using hsince, fun hidle => ?_, fun hidle bs hbs x => ?_⟩
  · have hon : w'.dev.rx.mode.enable = true := by
      by_contra hoff
      rw [hdev.idle (by simpa using hoff)] at hidle
      exact absurd hidle (by decide)
    obtain ⟨hrest, hrest'⟩ := hrx.2 hon
    rw [hsince, if_pos hon, hrest', hrx.1, h.idle (hrx.1 ▸ hidle), hrest, List.append_nil]
    rfl
  · rw [hsince] at hbs
    split_ifs at hbs with hon
    obtain ⟨bs', hbs', rfl⟩ := Option.map_eq_some_iff.1 hbs
    rw [hrx.1] at hidle ⊢
    rw [List.append_assoc]
    exact h.busy hidle bs' hbs' _

theorem Watched.Inv.turn {S : Sink ε} {groups : List (AtcmdGroup ε)} {w w' : Watched ε}
    {now : UInt32} (h : w.Inv) (hs : watchStep S groups w (.turn now) = some w') : w'.Inv := by
  obtain ⟨hd, hsince⟩ := watchStep_eq_some hs
  have hdev := h.dev.step hd
  have hf : ¬ Fires w.dev (.turn now) := id
  simp only [if_neg hf, Input.received, List.append_nil, Option.map_id'] at hsince
  have hnone : w'.dev.rx.mode.enable = false → w'.since = none := fun hoff => by
    rw [hsince, hoff]
    rfl
  rcases hen : w.dev.rx.mode.enable with _ | _
  · -- a command: no session was there to become idle
    have hoff := (reading_turn h.dev (h.dev.idle hen) hd).1
    rw [h.since hen, ite_self] at hsince
    refine ⟨hdev, hnone, fun hidle => ?_, fun _ bs hbs => ?_⟩
    · rw [hoff] at hidle
      exact absurd hidle (by decide)
    · rw [hsince] at hbs
      exact absurd hbs (by simp)
  · rcases session_turn h.dev hen hd with ⟨hoff, -, hparams, hmis⟩ | ⟨-, tail, -, hl⟩ |
      ⟨hidle, c, -, hc, hd'⟩
    · -- the session is not idle any more, and no match is left
      refine ⟨hdev, hnone, fun hidle => ?_, fun _ bs hbs x => ?_⟩
      · rw [hoff] at hidle
        exact absurd hidle (by decide)
      · rw [hsince] at hbs
        split_ifs at hbs with hon
        rw [hparams hon]
        rcases hi : w.dev.rx.mode.idle with _ | _
        · exact h.busy hi bs hbs x
        · rw [h.idle hi, Option.some.injEq] at hbs
          rw [← hbs]
          exact hmis hi x
    · refine ⟨hdev, hnone, fun hidle => ?_, fun _ bs hbs => ?_⟩
      · rw [hdev.idle hl.enable] at hidle
        exact absurd hidle (by decide)
      · rw [hnone hl.enable] at hbs
        exact absurd hbs (by simp)
    · refine ⟨hdev, hnone, fun _ => ?_, fun hi => ?_⟩
      · rw [hsince, h.idle hidle, ← hc, hd']
        simp [hen]
      · rw [hd'] at hi
        exact absurd (hi.symm.trans hidle) (by decide)

theorem Watched.Inv.tick {S : Sink ε} {groups : List (AtcmdGroup ε)} {w w' : Watched ε}
    {now : UInt32} (h : w.Inv) (hs : watchStep S groups w (.tick now) = some w') : w'.Inv := by
  obtain ⟨hd, hsince⟩ := watchStep_eq_some hs
  have hdev := h.dev.step hd
  simp only [deviceStep] at hd
  split_ifs at hd
  simp only [Option.some.injEq] at hd
  by_cases hf : Fires w.dev (.tick now)
  · -- the session becomes idle, with no match running
    have hi' : w'.dev.rx.mode.idle = true := by
      rw [← hd]
      exact hf.2
    have hon : w'.dev.rx.mode.enable = true := by
      by_contra hoff
      rw [hdev.idle (by simpa using hoff)] at hi'
      exact absurd hi' (by decide)
    rw [if_pos hon, if_pos hf] at hsince
    refine ⟨hdev, fun hoff => absurd (hoff.symm.trans hon) (by decide), fun _ => ?_, fun hi => ?_⟩
    · rw [hsince, ← hd]
      show some w.dev.rest = some ((atcmdDataModeTask now w.dev.rx).1.mode.params.exit.take
        (atcmdDataModeTask now w.dev.rx).1.cntExitCmd ++ w.dev.rest)
      rw [(task_fixed now w.dev.rx).2, h.dev.cntExitCmd hf.1]
      rfl
    · exact absurd (hi.symm.trans hi') (by decide)
  · have hw : w' = w := by
      have hdev' : w'.dev = w.dev := by rw [← hd, task_of_not_fires hf]
      have hs' : w'.since = w.since := by
        rw [hsince, hdev', if_neg hf]
        rcases hon : w.dev.rx.mode.enable with _ | _
        · rw [h.since hon]
          rfl
        · simp [Input.received]
      cases w
      cases w'
      simp_all
    exact hw ▸ h

theorem Watched.Inv.step {S : Sink ε} {groups : List (AtcmdGroup ε)} {w w' : Watched ε} :
    ∀ {i : Input}, w.Inv → watchStep S groups w i = some w' → w'.Inv
  | .receive _, h, hs => h.receive hs
  | .turn _, h, hs => h.turn hs
  | .tick _, h, hs => h.tick hs

/-! ## Leaving -/

/-- A line feed on an empty line is skipped. -/
theorem atcmdReceiveCommand_lf {groups : List (AtcmdGroup ε)} {now : UInt32} {d : Device ε}
    (hcmd : d.line.cmd = []) (hcr : d.line.config.linefeed = true → d.line.cntCR = 0)
    (cs : Bytes) :
    atcmdReceiveCommand groups now (10 :: cs) d
      = ((atcmdReceiveCommand groups now cs d).1, (atcmdReceiveCommand groups now cs d).2 + 1) := by
  have hchar : atcmdReceiveChar groups d.line 10 = (d.line, .next) := by
    have hkey : atcmdKeyCode d.line.key 10 = (d.line.key, .lf) := rfl
    have hswitch : d.line.switch groups 10 .lf = (d.line, .next) := by
      simp [LineReader.switch, hcmd]
    unfold atcmdReceiveChar
    simp only [hkey]
    rcases hl : d.line.config.linefeed with _ | _
    · exact hswitch
    · have h0 : ({ d.line with cntCR := 0 } : LineReader) = d.line := by rw [← hcr hl]
      simp only [if_true, reduceCtorEq, if_false, h0]
      exact hswitch
  rw [atcmdReceiveCommand, hchar]

/-- After the session is left by an exit command with a line feed at its end, the device reads what
came after it as it would read it in command mode. -/
theorem Leaves.turn {S : Sink ε} {groups : List (AtcmdGroup ε)} {d d' : Device ε} {tail pre : Bytes}
    (h : Leaves d d' tail) (hd : d.Inv) (hen : d.rx.mode.enable = true)
    (hexit : d.rx.mode.params.exit = pre ++ bytes "\r\n") (now : UInt32) :
    deviceStep S groups d' (.turn now) =
      if tail = [] then some { d' with rest := [] }
      else deviceStep S groups { d' with rest := tail } (.turn now) := by
  obtain ⟨last, hlast, hrest⟩ := h.rest
  have h10 : last = 10 := by
    rw [hexit, show bytes "\r\n" = [13, 10] from by decide] at hlast
    simpa using hlast.symm
  obtain ⟨hcmd, hcr⟩ := hd.line hen
  subst h10
  simp only [deviceStep, h.halted, h.enable, hrest, Bool.false_eq_true, false_or, if_false,
    List.cons_ne_nil]
  rw [atcmdReceiveCommand_lf (by rw [h.line]; exact hcmd) (by rw [h.line]; exact hcr)]
  split_ifs with htail
  · rw [htail]
    rfl
  · rw [List.drop_succ_cons]

theorem run_dev {S : Sink ε} {groups : List (AtcmdGroup ε)} : ∀ {is : List Input} {w w' : Watched ε},
    run (watchStep S groups) w is = some w' →
      run (deviceStep S groups) w.dev is = some w'.dev
  | [], w, w', h => by
    simp only [run_nil, Option.some.injEq] at h
    rw [h, run_nil]
  | i :: is, w, w', h => by
    obtain ⟨m, hm, hr⟩ := run_cons_eq_some.1 h
    exact run_cons_eq_some.2 ⟨m.dev, (watchStep_eq_some hm).1, run_dev hr⟩

theorem recognised {S : Sink ε} {groups : List (AtcmdGroup ε)} {e : ε} {is : List Input}
    {w w' : Watched ε} {i : Input} {pre : Bytes}
    (hr : run (watchStep S groups) ⟨.boot e, none⟩ is = some w)
    (hen : w.dev.rx.mode.enable = true)
    (hexit : w.dev.rx.mode.params.exit = pre ++ bytes "\r\n")
    (hs : watchStep S groups w i = some w') :
    (LeftBy w.dev w'.dev ↔ (∃ now, i = .turn now)
      ∧ ∃ bs, w.since = some bs ∧ w.dev.rx.mode.params.exit <+: bs)
    ∧ ∀ tail, w.since = some (w.dev.rx.mode.params.exit ++ tail) →
      (w.dev.halted = false ∧ w.dev.rest ≠ []) ∧ ∀ now, i = .turn now →
        (∃ out, w'.dev.log
            = w.dev.log ++ [.session w.dev.rx.mode.params (w.dev.rx.out ++ out)]
          ∧ out.count .ok = 1 ∧ out.countP (·.IsExit) = 1)
        ∧ w'.dev.rx.mode.enable = false
        ∧ ∀ time, deviceStep S groups w'.dev (.turn time) =
          if tail = [] then some { w'.dev with rest := [] }
          else deviceStep S groups { w'.dev with rest := tail } (.turn time) := by
  have h : w.Inv := run_inv (fun _ _ _ hp hs => hp.step hs) (.boot e) hr
  obtain ⟨hd, hsince⟩ := watchStep_eq_some hs
  have hprefix : ∀ bs, w.since = some bs → w.dev.rx.mode.params.exit <+: bs →
      w.dev.rx.mode.idle = true
        ∧ bs = w.dev.rx.mode.params.exit.take w.dev.rx.cntExitCmd ++ w.dev.rest := by
    intro bs hbs hp
    rcases hi : w.dev.rx.mode.idle with _ | _
    · exact absurd (by simpa using hp) (h.busy hi bs hbs [])
    · exact ⟨rfl, by rw [h.idle hi, Option.some.injEq] at hbs; exact hbs.symm⟩
  have hleave : ∀ now tail, i = .turn now → w.since = some (w.dev.rx.mode.params.exit ++ tail) →
      Leaves w.dev w'.dev tail := by
    rintro now tail rfl hbs
    obtain ⟨hi, hbs'⟩ := hprefix _ hbs (List.prefix_append _ _)
    rcases session_turn h.dev hen hd with ⟨-, -, -, hmis⟩ | ⟨-, tail', htail', hl⟩ |
      ⟨-, c, hlt, hc, -⟩
    · exact absurd (by rw [← hbs']; simp) (hmis hi [])
    · rw [← hbs'] at htail'
      exact List.append_cancel_left htail' ▸ hl
    · have hlen := congrArg List.length (hc.trans hbs'.symm)
      rw [List.length_take, List.length_append] at hlen
      omega
  refine ⟨⟨fun hl => ?_, ?_⟩, fun tail hbs => ⟨?_, fun now hi => ?_⟩⟩
  · cases i with
    | receive buf =>
      refine absurd hl (not_leftBy_of_log ?_)
      simp only [deviceStep] at hd
      split_ifs at hd <;> simp only [Option.some.injEq] at hd <;> rw [← hd]
    | turn now =>
      refine ⟨⟨now, rfl⟩, ?_⟩
      rcases session_turn h.dev hen hd with ⟨-, hn, -⟩ | ⟨hi, tail, htail, -⟩ | ⟨-, c, -, -, hd'⟩
      · exact absurd hl hn
      · exact ⟨_, h.idle hi, htail ▸ List.prefix_append _ _⟩
      · exact absurd hl (not_leftBy_of_log (by rw [hd']))
    | tick now =>
      refine absurd hl (not_leftBy_of_log ?_)
      simp only [deviceStep] at hd
      split_ifs at hd
      simp only [Option.some.injEq] at hd
      rw [← hd]
  · rintro ⟨⟨now, hi⟩, bs, hbs, tail, rfl⟩
    exact (hleave now tail hi hbs).leftBy
  · obtain ⟨-, hbs'⟩ := hprefix _ hbs (List.prefix_append _ _)
    obtain ⟨p, taken, n, hl⟩ := h.dev.live hen
    obtain rfl := hl.params
    refine ⟨?_, fun hrest => ?_⟩
    · by_contra hh
      rw [h.dev.halted (by simpa using hh)] at hen
      exact absurd hen (by decide)
    · have hlen := congrArg List.length hbs'
      have hscan := hl.scan
      rw [hrest, List.append_nil, List.length_append, List.length_take] at hlen
      omega
  · have hl := hleave now tail hi hbs
    exact ⟨hl.log, hl.enable, fun time => hl.turn h.dev hen hexit time⟩

/-- No copy leaves the buffer; a session is left by its exit command exactly in a turn before which
the bytes it was sent since it last became idle begin with that command; such a turn is there as soon
as they do; it sends one `OK` and one event of a session that was left, and what came after the exit
command is then read as in command mode. This is so exactly when no turn so far copied over the end
of the buffer. -/
theorem exit_recognised_iff {S : Sink ε} {groups : List (AtcmdGroup ε)} {e : ε} {is : List Input}
    {w w' : Watched ε} {i : Input} {pre : Bytes}
    (hr : run (watchStep S groups) ⟨.boot e, none⟩ is = some w)
    (hen : w.dev.rx.mode.enable = true)
    (hexit : w.dev.rx.mode.params.exit = pre ++ bytes "\r\n")
    (hs : watchStep S groups w i = some w') :
    (w'.dev.rx.buf.length = atcmdDataLenMax
      ∧ (LeftBy w.dev w'.dev ↔ (∃ now, i = .turn now)
        ∧ ∃ bs, w.since = some bs ∧ w.dev.rx.mode.params.exit <+: bs)
      ∧ ∀ tail, w.since = some (w.dev.rx.mode.params.exit ++ tail) →
        (w.dev.halted = false ∧ w.dev.rest ≠ []) ∧ ∀ now, i = .turn now →
          (∃ out, w'.dev.log
              = w.dev.log ++ [.session w.dev.rx.mode.params (w.dev.rx.out ++ out)]
            ∧ out.count .ok = 1 ∧ out.countP (·.IsExit) = 1)
          ∧ w'.dev.rx.mode.enable = false
          ∧ ∀ time, deviceStep S groups w'.dev (.turn time) =
            if tail = [] then some { w'.dev with rest := [] }
            else deviceStep S groups { w'.dev with rest := tail } (.turn time))
      ↔ Along (deviceStep S groups) (fun d i => ¬ d.Overruns i) (.boot e) (is ++ [i]) := by
  have hrun : run (deviceStep S groups) (.boot e) (is ++ [i]) = some w'.dev :=
    run_append.2 ⟨w.dev, run_dev hr, run_cons_eq_some.2 ⟨_, (watchStep_eq_some hs).1, rfl⟩⟩
  rw [← Device.size_run hrun]
  exact and_iff_left (recognised hr hen hexit hs)

/-- The exit command and a command in one call, after the session was idle. -/
theorem exit_recognised_iff_ssend : ∃ w w' : Watched Unit,
    run (watchStep takeAll [sendGroup]) ⟨.boot (), none⟩
        [.receive (bytes "AT+SSEND=0,3\n"), .turn 1, .tick 2000,
          .receive (bytes "AT\r\nAT\n")] = some w
      ∧ watchStep takeAll [sendGroup] w (.turn 2001) = some w'
      ∧ w'.dev.rx.buf.length = atcmdDataLenMax ∧ LeftBy w.dev w'.dev := by
  obtain ⟨w', hr'⟩ := Option.isSome_iff_exists.1 (show
    (run (watchStep takeAll [sendGroup]) ⟨.boot (), none⟩
      ([.receive (bytes "AT+SSEND=0,3\n"), .turn 1, .tick 2000,
        .receive (bytes "AT\r\nAT\n")] ++ [.turn 2001])).isSome = true by decide +kernel)
  obtain ⟨w, hr, hlast⟩ := run_append.1 hr'
  obtain ⟨m, hs, -⟩ := run_cons_eq_some.1 hlast
  have hw : (run (watchStep takeAll [sendGroup]) ⟨.boot (), none⟩
      [.receive (bytes "AT+SSEND=0,3\n"), .turn 1, .tick 2000,
        .receive (bytes "AT\r\nAT\n")]).map
      (fun w => (w.since, w.dev.rx.mode.params.exit, w.dev.rx.mode.enable))
        = some (some (bytes "AT\r\nAT\n"), bytes "AT" ++ bytes "\r\n", true) := by decide +kernel
  simp only [hr, Option.map_some, Option.some.injEq, Prod.mk.injEq] at hw
  obtain ⟨hsince, hexit, hen⟩ := hw
  obtain ⟨hsize, hleft, -⟩ := (exit_recognised_iff hr hen hexit hs).2 (by decide +kernel)
  refine ⟨w, m, hr, hs, hsize, hleft.2 ⟨⟨_, rfl⟩, _, hsince, ?_⟩⟩
  rw [hexit]
  decide

/-- A session that waits for `2 ^ 31` bytes is sent 4097 before it becomes idle: the last one is
copied behind the buffer. -/
theorem exit_recognised_overruns : ∃ w w' : Watched Unit,
    run (watchStep takeAll [leastGroup]) ⟨.boot (), none⟩
        [.receive (bytes "AT+SSEND=0,-2147483648\n"), .turn 1,
          .receive (List.replicate 4096 0), .turn 2, .receive [0]] = some w
      ∧ (w.dev.rx.mode.enable = true
        ∧ w.dev.rx.mode.params.exit = bytes "AT" ++ bytes "\r\n")
      ∧ watchStep takeAll [leastGroup] w (.turn 3) = some w' ∧ w'.dev.rx.buf.length = 4097 := by
  obtain ⟨w, hr, hw⟩ := Option.bind_eq_some_iff.1 (show
    (run (watchStep takeAll [leastGroup]) ⟨.boot (), none⟩
      [.receive (bytes "AT+SSEND=0,-2147483648\n"), .turn 1,
        .receive (List.replicate 4096 0), .turn 2, .receive [0]]).bind (fun w =>
      (watchStep takeAll [leastGroup] w (.turn 3)).map fun w' =>
        (w.dev.rx.mode.enable, w.dev.rx.mode.params.exit, w'.dev.rx.buf.length))
      = some (true, bytes "AT" ++ bytes "\r\n", 4097) by decide +kernel)
  obtain ⟨w', hs, hw⟩ := Option.map_eq_some_iff.1 hw
  simp only [Prod.mk.injEq] at hw
  exact ⟨w, w', hr, ⟨hw.1, hw.2.1⟩, hs, hw.2.2⟩

end NrcAtcmd
