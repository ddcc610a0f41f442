import NrcAtcmd.CommandLink
import NrcAtcmd.Proofs.PrefixCheck
import NrcAtcmd.Proofs.TargetStream

/-!
# The target as a server

A reader of bytes gives an answer at the end of a line. A turn of the target writes the answers to
the bytes it takes, and nothing else that is one; and a command with the end of its line, or the
data of a session, is a step of the server.
-/

namespace NrcAtcmd

open Memory Machine HostRecv

variable {ε : Type*}

/-! ## Answers -/

/-- What a line that is done is answered. -/
def Effect.answers (e : ε) : Effect ε → List HostRet
  | .nothing | .reset => []
  | .reply ret => [ret.told]
  | .call handler _ _ argv =>
    if (handler argv e).ret = .noReturn then [] else [(handler argv e).ret.told]

namespace Reading

/-- What is answered when the next byte is read. -/
def answer (groups : List (AtcmdGroup ε)) (r : Reading ε) (b : UInt8) : List HostRet :=
  if r.halted then []
  else match r.mode with
    | .command e => match (atcmdReceiveChar groups r.line b).2 with
      | .line eff => eff.answers e
      | .linefeed | .next => []
    | .stream .. | .collect .. => []

/-- What is answered as the bytes are read. -/
def answers (S : Sink ε) (groups : List (AtcmdGroup ε)) : Reading ε → Bytes → List HostRet
  | _, [] => []
  | r, b :: l => r.answer groups b ++ answers S groups (r.step S groups b) l

variable {S : Sink ε} {groups : List (AtcmdGroup ε)}

/-- A character that does not end a line is kept, or not, and answered nothing. -/
theorem step_next {r : Reading ε} {b : UInt8} {e : ε} {line : LineReader} {got : Got ε}
    (hh : r.halted = false) (hm : r.mode = .command e)
    (hc : atcmdReceiveChar groups r.line b = (line, got)) (hg : ∀ eff, got ≠ .line eff) :
    r.step S groups b = { r with line := line } ∧ r.answer groups b = [] := by
  rcases r with ⟨line₀, mode, calls, handed, halted⟩
  simp only at hh hm hc
  subst hh hm
  cases got with
  | line eff => exact absurd rfl (hg eff)
  | next => simp [step, answer, hc]
  | linefeed => simp [step, answer, hc]

/-- What a line comes to is done at its end, and answered. -/
theorem step_line {r : Reading ε} {b : UInt8} {e : ε} {line : LineReader} {eff : Effect ε}
    (hh : r.halted = false) (hm : r.mode = .command e)
    (hc : atcmdReceiveChar groups r.line b = (line, .line eff)) :
    r.step S groups b = ({ r with line := line }).perform e eff
      ∧ r.answer groups b = eff.answers e := by
  rcases r with ⟨line₀, mode, calls, handed, halted⟩
  simp only at hh hm hc
  subst hh hm
  simp [step, answer, hc]

theorem answers_append : ∀ (l l' : Bytes) (r : Reading ε), answers S groups r (l ++ l') =
    answers S groups r l ++ answers S groups (l.foldl (step S groups) r) l'
  | [], _, _ => rfl
  | b :: l, l', r => by
    rw [List.cons_append, answers, answers_append l l', answers, List.foldl_cons, List.append_assoc]

theorem answers_stream {p : DataModeParams} : ∀ (l : Bytes) {r : Reading ε} {handed : Bytes},
    r.halted = false → r.mode = .stream p handed → answers S groups r l = []
  | [], _, _, _, _ => rfl
  | b :: l, r, handed, hh, h => by
    have hs : step S groups r b = { r with mode := .stream p (handed ++ [b]) } := by
      simp [step, hh, h]
    have hl : answers S groups { r with mode := .stream p (handed ++ [b]) } l = [] :=
      answers_stream l hh rfl
    rw [answers, hs, hl]
    simp [answer, h]

/-- Up to the end of its block a session gives no answer. -/
theorem answers_collect {p : DataModeParams} {e : ε} {handed : Bytes} :
    ∀ (l : Bytes) {r : Reading ε} {queue : Bytes}, r.halted = false →
      r.mode = .collect p e queue handed → queue.length + l.length ≤ p.len →
      answers S groups r l = []
  | [], _, _, _, _, _ => rfl
  | b :: l, r, queue, hh, h, hle => by
    have ha : answer groups r b = [] := by simp [answer, h]
    rw [answers, ha, List.nil_append]
    rw [List.length_cons] at hle
    rcases Nat.lt_or_ge (queue.length + 1) p.len with hlt | hge
    · have hs : step S groups r b = { r with mode := .collect p e (queue ++ [b]) handed } := by
        simp only [step, hh, h, Bool.false_eq_true, if_false]
        rw [if_pos hlt]
      have hle' : (queue ++ [b]).length + l.length ≤ p.len := by
        rw [List.length_append, List.length_singleton]
        omega
      rw [hs]
      exact answers_collect l hh rfl hle'
    · obtain rfl := List.length_eq_zero_iff.1 (show l.length = 0 by omega)
      rfl

theorem calls_step (r : Reading ε) (b : UInt8) : r.calls <+: (r.step S groups b).calls := by
  have hperf : ∀ (r : Reading ε) (e : ε) (eff : Effect ε), r.calls <+: (r.perform e eff).calls := by
    intro r e eff
    cases eff with
    | call => exact List.prefix_append _ _
    | _ => exact List.prefix_rfl
  have hblock : ∀ (p : DataModeParams) (e : ε) (queue handed : Bytes),
      (r.block S p e queue handed).calls = r.calls := by
    intro p e queue handed
    unfold block
    dsimp only
    split_ifs <;> rfl
  unfold step
  split_ifs
  · exact List.prefix_rfl
  · split
    · exact List.prefix_rfl
    · split_ifs
      · exact List.prefix_rfl
      · rw [hblock]
    · rcases hc : atcmdReceiveChar groups r.line b with ⟨line, _ | _ | eff⟩
      · exact List.prefix_rfl
      · exact List.prefix_rfl
      · exact hperf { r with line := line } _ eff

theorem calls_foldl : ∀ (l : Bytes) (r : Reading ε), r.calls <+: (l.foldl (step S groups) r).calls
  | [], _ => List.prefix_rfl
  | b :: l, r => (calls_step r b).trans (calls_foldl l _)

end Reading

/-! ## Messages -/

section Messages

variable (strerror : ℤ → Bytes)

/-- The returns in some messages. -/
def rets (ms : List TargetMsg) : List HostRet := ms.flatMap (TargetMsg.rets strerror)

@[simp] theorem rets_nil : rets strerror [] = [] := rfl

@[simp] theorem rets_append (ms ms' : List TargetMsg) :
    rets strerror (ms ++ ms') = rets strerror ms ++ rets strerror ms' := by
  simp [rets]

theorem rets_returnMessages (cmd : Option Bytes) (ret : AtcmdError) :
    rets strerror (returnMessages cmd ret) = [ret.told] := by
  unfold returnMessages AtcmdError.told
  split_ifs
  · rfl
  · cases cmd <;> rfl

/-- No event of a session is a return. -/
theorem rets_out {o : Out} (h : o ≠ .ok) : rets strerror o.messages = [] := by
  have hnames : ∀ n ∈ targetNames, n ≠ "DEEPSLEEP_WAKEUP" →
      AtcmdEvent.ofName (bytes n) ≠ some .deepsleepWakeup := by decide +kernel
  have hevent : ∀ e : TargetEvent, (e.print strerror).1 ≠ "DEEPSLEEP_WAKEUP" →
      rets strerror [.event e] = [] := by
    intro e he
    simp only [rets, List.flatMap_cons, List.flatMap_nil, List.append_nil, TargetMsg.rets,
      TargetMsg.calls]
    split
    · rfl
    · rename_i heq
      exact absurd heq (hnames _ (print_mem strerror e).1 he)
    · rfl
  cases o with
  | ok => exact absurd rfl h
  | sink => rfl
  | sevent e =>
    exact hevent (.socket e) (by cases e <;> simp [TargetEvent.print, atcmdSocketEventHandler_])
  | bevent e =>
    exact hevent (.basic e) (by cases e <;> simp [TargetEvent.print, atcmdBasicEventHandler_])

theorem rets_outs {o : List Out} (h : .ok ∉ o) : rets strerror (o.flatMap Out.messages) = [] := by
  induction o with
  | nil => rfl
  | cons x o ih =>
    rw [List.mem_cons, not_or] at h
    rw [List.flatMap_cons, rets_append, rets_out strerror (Ne.symm h.1), ih h.2]
    rfl

/-! ## What a turn writes -/

/-- Between the two the target wrote messages with these returns. -/
def Device.Wrote (d d' : Device ε) (as : List HostRet) : Prop :=
  ∃ ms, d'.messages = d.messages ++ ms ∧ rets strerror ms = as

variable {strerror}

namespace Device.Wrote

theorem refl (d : Device ε) : d.Wrote strerror d [] := ⟨[], by simp, rfl⟩

theorem trans {d d' d'' : Device ε} {as bs : List HostRet} (h : d.Wrote strerror d' as)
    (h' : d'.Wrote strerror d'' bs) : d.Wrote strerror d'' (as ++ bs) := by
  obtain ⟨ms, hms, rfl⟩ := h
  obtain ⟨ms', hms', rfl⟩ := h'
  exact ⟨ms ++ ms', by rw [hms', hms, List.append_assoc], rets_append strerror ms ms'⟩

/-- Nothing but the log and what a session sends out is written. -/
theorem of_log {d d' : Device ε} (hd : d.rx.out = []) {ls : List Logged}
    (hlog : d'.log = d.log ++ ls) (hout : d'.rx.out = []) :
    d.Wrote strerror d' (rets strerror (ls.flatMap Logged.messages)) :=
  ⟨ls.flatMap Logged.messages, by simp [Device.messages, hd, hout, hlog], rfl⟩

end Device.Wrote

variable (strerror)

theorem wrote_transmitReturn {d : Device ε} (h : d.rx.out = []) (now : UInt32)
    (cmd : Option Bytes) (ret : AtcmdError) :
    d.Wrote strerror (d.transmitReturn now cmd ret) [ret.told]
      ∧ (d.transmitReturn now cmd ret).rx.out = [] := by
  have hout : (d.transmitReturn now cmd ret).rx.out = [] := by
    unfold Device.transmitReturn
    dsimp only
    split_ifs <;> exact h
  have hlog : (d.transmitReturn now cmd ret).log = d.log ++ [.reply cmd ret] := by
    unfold Device.transmitReturn
    dsimp only
    split_ifs <;> rfl
  have hw : d.Wrote strerror _ _ := .of_log h hlog hout
  rw [List.flatMap_singleton] at hw
  exact ⟨rets_returnMessages strerror cmd ret ▸ hw, hout⟩

/-- A line that is done is answered. -/
theorem wrote_perform {d : Device ε} (h : d.rx.out = []) (now : UInt32) (e : Effect ε) :
    d.Wrote strerror (d.perform now e) (e.answers d.rx.env) ∧ (d.perform now e).rx.out = [] := by
  cases e with
  | nothing => exact ⟨.refl d, h⟩
  | reset => exact ⟨⟨[], by simp [Device.perform, Device.messages], rfl⟩, h⟩
  | reply ret => exact wrote_transmitReturn strerror h now none ret
  | call handler name type argv =>
    have hout : (d.call handler name type argv).rx.out = [] := by
      unfold Device.call
      rcases hm : (handler argv d.rx.env).dataMode with _ | p <;> simp only [hm]
      · exact h
      · rfl
    have hlog : (d.call handler name type argv).log = d.log ++ [.call name type argv] := by
      unfold Device.call
      rcases hm : (handler argv d.rx.env).dataMode with _ | p <;> simp only [hm] <;> rfl
    have hcall : d.Wrote strerror (d.call handler name type argv) [] :=
      Device.Wrote.of_log h hlog hout
    simp only [Device.perform, Effect.answers]
    rcases hret : (handler argv d.rx.env).ret
    case noReturn => exact ⟨hcall, hout⟩
    all_goals
      obtain ⟨hw, ho⟩ := wrote_transmitReturn strerror hout now _ _
      exact ⟨hcall.trans hw, ho⟩

/-- A call of `atcmd_receive_command` answers the characters it takes. -/
theorem wrote_command (S : Sink ε) (groups : List (AtcmdGroup ε)) (now : UInt32) :
    ∀ (cs : Bytes) {d : Device ε}, d.rx.mode.enable = false → d.halted = false → d.rx.out = [] →
      let r := atcmdReceiveCommand groups now cs d
      d.Wrote strerror r.1 (Reading.answers S groups d.reading (cs.take r.2)) ∧ r.1.rx.out = []
  | [], d, _, _, hout => ⟨.refl d, hout⟩
  | c :: cs, d, hen, hh, hout => by
    have hmode : d.reading.mode = .command d.rx.env := reading_command hen
    rcases hc : atcmdReceiveChar groups d.line c with ⟨line, got⟩
    have hread : ({ d with line := line } : Device ε).reading = { d.reading with line := line } := rfl
    simp only [atcmdReceiveCommand, hc]
    cases got with
    | next =>
      obtain ⟨hw, ho⟩ := wrote_command S groups now cs (d := { d with line := line }) hen hh hout
      obtain ⟨hs, ha⟩ := Reading.step_next (S := S) (r := d.reading) hh hmode hc (by simp)
      rw [List.take_succ_cons, Reading.answers, ha, hs, ← hread]
      exact ⟨hw, ho⟩
    | linefeed =>
      obtain ⟨hw, ho⟩ := wrote_command S groups now cs
        (d := ({ d with line := line } : Device ε).record .linefeed) hen hh hout
      obtain ⟨hs, ha⟩ := Reading.step_next (S := S) (r := d.reading) hh hmode hc (by simp)
      have hrec : (({ d with line := line } : Device ε).record .linefeed).reading
          = { d.reading with line := line } := by
        simp [Device.reading, Device.record, Device.calls]
      have hline : d.Wrote strerror (({ d with line := line } : Device ε).record .linefeed)
          (rets strerror ([Logged.linefeed].flatMap Logged.messages)) := .of_log hout rfl hout
      rw [List.take_succ_cons, Reading.answers, ha, hs, ← hrec]
      exact ⟨hline.trans hw, ho⟩
    | line e =>
      obtain ⟨hw, ho⟩ := wrote_perform strerror (d := { d with line := line }) hout now e
      obtain ⟨-, ha⟩ := Reading.step_line (S := S) (r := d.reading) hh hmode hc
      rw [List.take_succ_cons, List.take_zero, Reading.answers, Reading.answers, ha, List.append_nil]
      exact ⟨hw, ho⟩

/-- A block and its report are no `OK`. -/
theorem out_block (S : Sink ε) (now : UInt32) (len : ℕ) (block : Bytes) (rx : Receiver ε) :
    ∃ o, (atcmdReceiveDataBlock S now len block rx).out = rx.out ++ o ∧ .ok ∉ o := by
  have hreport : ∀ (p : DataModeParams) (done drop : UInt32), .ok ∉ reportOf p done drop := by
    intro p done drop
    unfold reportOf atcmdReceiveDataDrop_ atcmdReceiveDataDone_
    rcases p.dataType <;> split_ifs <;> simp
  obtain ⟨o, ret, rx', hdata, hout, hok⟩ : ∃ o ret rx', atcmdReceiveData_ S block rx = (ret, rx')
      ∧ rx'.out = rx.out ++ o ∧ .ok ∉ o := by
    unfold atcmdReceiveData_
    split_ifs
    · exact ⟨[], _, _, rfl, by simp, by simp⟩
    · exact ⟨_, _, _, rfl, rfl, by simp⟩
  simp only [atcmdReceiveDataBlock, hdata, atcmdReceiveDataReport_eq, apply_ite Receiver.out, hout,
    List.append_assoc]
  split_ifs
  · exact ⟨_, rfl, by simp [hok, hreport]⟩
  · exact ⟨_, rfl, by simp [hok, hreport]⟩

/-- Past the idle branch a session sends out no `OK`, and takes no more than completes its block. -/
theorem out_body (S : Sink ε) (now : UInt32) (buf : Bytes) (rx : Receiver ε) :
    let r := atcmdReceiveDataBody S now buf rx
    (∃ o, r.1.out = rx.out ++ o ∧ .ok ∉ o)
      ∧ ((rx.mode.params.passthrough && rx.mode.sendLen == 0) = false →
        r.2 ≤ rx.mode.sendLen - rx.mode.cnt) := by
  unfold atcmdReceiveDataBody
  dsimp only
  split_ifs with hpass hlt hcnt
  · exact ⟨out_block S now _ buf rx, fun h => absurd (hpass.symm.trans h) (by decide)⟩
  · exact ⟨⟨[], by simp, by simp⟩, fun _ => by dsimp only; omega⟩
  · exact ⟨out_block S now _ _ _, fun _ => le_rfl⟩
  · exact ⟨out_block S now _ _ rx, fun _ => le_rfl⟩

/-- No session is idle, and what the last one sent out is in the log. -/
structure Device.Awake (d : Device ε) : Prop where
  inv : d.Inv
  idle : d.rx.mode.idle = false
  out : d.rx.mode.enable = false → d.rx.out = []

theorem Device.Awake.boot (e : ε) : (Device.boot e).Awake := ⟨.boot e, rfl, fun _ => rfl⟩

/-- A turn reads and answers the bytes it takes. -/
theorem Device.Awake.turn {S : Sink ε} {groups : List (AtcmdGroup ε)} {d d' : Device ε}
    {now : UInt32} (h : d.Awake) (hs : deviceStep S groups d (.turn now) = some d') :
    d'.Awake ∧ ∃ n, d'.rest = d.rest.drop n
      ∧ d'.reading = (d.rest.take n).foldl (Reading.step S groups) d.reading
      ∧ d.Wrote strerror d' (Reading.answers S groups d.reading (d.rest.take n)) := by
  have hinv := h.inv.step hs
  have hidle := (reading_turn h.inv h.idle hs).1
  simp only [deviceStep] at hs
  split_ifs at hs with hgo hen <;> simp only [Option.some.injEq] at hs <;>
    rw [not_or] at hgo <;> have hh : d.halted = false := by simpa using hgo.1
  · obtain ⟨p, taken, n, hl⟩ := h.inv.live hen
    obtain rfl := hl.params
    have hdata : atcmdReceiveData S now d.rest d.rx = atcmdReceiveDataBody S now d.rest d.rx := by
      unfold atcmdReceiveData
      simp [hen, hgo.2, h.idle]
    rw [hdata] at hs
    obtain ⟨⟨o, hout, hok⟩, htaken⟩ := out_body S now d.rest d.rx
    have hread := (hl.body_reading hh S groups now hgo.2).1
    -- the end of the session is in the log, or it goes on
    have hmsgs : d'.messages = d.messages ++ o.flatMap Out.messages
        ∧ (d'.rx.mode.enable = false → d'.rx.out = []) ∧ d'.rest
          = d.rest.drop (atcmdReceiveDataBody S now d.rest d.rx).2 := by
      subst hs
      unfold Device.ended Device.record Device.messages
      split_ifs with hon
      · exact ⟨by simp [hout], fun hoff => absurd (hon.symm.trans hoff) (by decide), rfl⟩
      · exact ⟨by simp [hout, Logged.messages], fun _ => rfl, rfl⟩
    refine ⟨⟨hinv, hidle, hmsgs.2.1⟩, _, hmsgs.2.2, hs ▸ hread, o.flatMap Out.messages, hmsgs.1, ?_⟩
    rw [rets_outs strerror hok]
    symm
    by_cases hu : d.rx.mode.params.Unbuffered
    · have hmode : d.reading.mode = .stream d.rx.mode.params (blocks d.rx.out).flatten := by
        simp [Device.reading, Receiver.reading, hen, hu]
      exact Reading.answers_stream _ hh hmode
    · have hmode : d.reading.mode = .collect d.rx.mode.params d.rx.env
          (d.rx.buf.take d.rx.mode.cnt) (blocks d.rx.out).flatten := by
        simp [Device.reading, Receiver.reading, hen, hu]
      refine Reading.answers_collect _ hh hmode ?_
      have hroom := hl.room
      have hlen := htaken (by
        rw [← Bool.not_eq_true, DataModeParams.unbuffered_iff hl.sendLen]; exact hu)
      rw [hl.sendLen] at hlen
      simp only [List.length_take]
      omega
  · obtain ⟨hw, ho⟩ := wrote_command strerror S groups now d.rest (d := { d with rest := [] })
      (by simpa using hen) hh (h.out (by simpa using hen))
    obtain ⟨-, -, hread⟩ :=
      atcmdReceiveCommand_spec S groups now d.rest (h.inv.rest []) (by simpa using hen) hh
    subst hs
    exact ⟨⟨hinv, hidle, fun _ => ho⟩, _, rfl, hread, hw⟩

/-- A pass of the data mode task that finds no session idle does nothing. -/
theorem Device.Awake.tick {S : Sink ε} {groups : List (AtcmdGroup ε)} {d d' : Device ε}
    {now : UInt32} (h : d.Awake) (hf : ¬ Fires d (.tick now))
    (hs : deviceStep S groups d (.tick now) = some d') : d' = d := by
  simp only [deviceStep] at hs
  split_ifs at hs
  simp only [Option.some.injEq] at hs
  subst hs
  have hrx : (atcmdDataModeTask now d.rx).1 = d.rx := by
    have hidle : ¬ (atcmdDataModeTask now d.rx).1.mode.idle = true := fun hi => hf ⟨h.idle, hi⟩
    unfold atcmdDataModeTask at hidle ⊢
    simp only [h.idle] at hidle ⊢
    split_ifs at hidle ⊢ with h1 h2 h3
    · rfl
    · exact absurd rfl hidle
    · rfl
    · rfl
  rw [hrx]

end Messages

/-! ## Lines -/

section Line

variable (S : Sink ε) (groups : List (AtcmdGroup ε)) {r : Reading ε} {e : ε} {text : Bytes}

/-- No line is begun, no carriage return is counted, and a line feed ends a line. -/
structure LineReader.Blank (r : LineReader) : Prop extends r.Fresh where
  cntCR : r.cntCR = 0
  linefeed : r.config.linefeed = true

/-- A line is kept as it comes, and answered nothing. -/
theorem Reading.foldl_text (hl : IsCommand text) : ∀ (l : Bytes) {r : Reading ε},
    r.halted = false → r.mode = .command e → r.line.key.esc = false → r.line.cntCR = 0 →
      r.line.cmd ++ l <+: text →
      l.foldl (Reading.step S groups) r = { r with line := { r.line with cmd := r.line.cmd ++ l } }
        ∧ Reading.answers S groups r l = []
  | [], r, _, _, _, _, _ => ⟨by rw [List.append_nil]; rfl, rfl⟩
  | c :: l, r, hh, hm, hesc, hcr, hp => by
    have hmem : c ∈ text := hp.subset (by simp)
    obtain ⟨h1, h2⟩ := hl.printable c hmem
    have hp' : r.line.cmd ++ [c] ++ l <+: text := by simpa using hp
    have huncount : r.line.uncount = r.line := by
      unfold LineReader.uncount
      rw [← hcr]
      split_ifs <;> rfl
    have hc : atcmdReceiveChar groups r.line c
        = ({ r.line with cmd := r.line.cmd ++ [c] }, .next) := by
      rw [atcmdReceiveChar_print groups hesc h1 h2, huncount,
        print_next hl ((List.prefix_append _ _).trans hp')]
    obtain ⟨hs, ha⟩ := Reading.step_next (S := S) hh hm hc (by simp)
    obtain ⟨hf, has⟩ := Reading.foldl_text hl l
      (r := { r with line := { r.line with cmd := r.line.cmd ++ [c] } }) hh hm hesc hcr hp'
    rw [List.foldl_cons, Reading.answers, hs, ha, hf, has]
    simp

/-- A line with its end comes to what `atcmd_process_command` makes of it. -/
theorem Reading.foldl_line (hh : r.halted = false) (hm : r.mode = .command e) (hr : r.line.Blank)
    (hl : IsCommand text) :
    let c := atcmdProcessCommand groups r.line.config text
    (text ++ bytes "\r\n").foldl (Reading.step S groups) r
        = ({ r with line := { r.line with config := c.1 } } : Reading ε).perform e c.2
      ∧ Reading.answers S groups r (text ++ bytes "\r\n") = c.2.answers e := by
  rcases r with ⟨⟨key, cmd, cntCR, config⟩, mode, calls, handed, halted⟩
  obtain ⟨⟨hcmd, hesc⟩, hcr, hlf⟩ := hr
  simp only at hh hm hesc hcmd hcr hlf
  subst hh hm hcmd hcr
  have hne : text ≠ [] := by
    rintro rfl
    exact absurd hl.at_prefix (by decide)
  obtain ⟨hf, ha⟩ := Reading.foldl_text S groups hl text
    (r := ⟨⟨key, [], 0, config⟩, .command e, calls, handed, false⟩) rfl rfl hesc rfl List.prefix_rfl
  -- the carriage return is counted, and the line feed ends the line
  have h13 : atcmdReceiveChar groups ⟨key, text, 0, config⟩ 13 = (⟨key, text, 1, config⟩, .next) := by
    have hkey : atcmdKeyCode key 13 = (key, .cr) := rfl
    simp [atcmdReceiveChar, hkey, hlf]
  have h10 : atcmdReceiveChar groups ⟨key, text, 1, config⟩ 10
      = (⟨key, [], 0, (atcmdProcessCommand groups config text).1⟩,
        .line (atcmdProcessCommand groups config text).2) := by
    have hkey : atcmdKeyCode key 10 = (key, .lf) := rfl
    simp [atcmdReceiveChar, hkey, hlf, LineReader.switch, hne]
  obtain ⟨hs13, ha13⟩ := Reading.step_next (S := S)
    (r := ⟨⟨key, text, 0, config⟩, .command e, calls, handed, false⟩) rfl rfl h13 (by simp)
  obtain ⟨hs10, ha10⟩ := Reading.step_line (S := S)
    (r := ⟨⟨key, text, 1, config⟩, .command e, calls, handed, false⟩) rfl rfl h10
  have hend : bytes "\r\n" = [13, 10] := by decide
  simp only [hend, List.foldl_append, Reading.answers_append, hf, ha, List.foldl_cons, List.foldl_nil,
    Reading.answers, List.nil_append, List.append_nil, hs13, ha13, hs10, ha10, and_self]

end Line

/-! ## The server -/

/-- The bytes the host writes. -/
def HostOp.wire : HostOp → Bytes
  | .cmd line => line
  | .data buf => buf

/-- The commands that are answered by a step, each with its answer. -/
def HostOp.Answered : HostOp → List (Bytes × HostRet) → Prop
  | .cmd line, as => ∃ ret, as = [(line, ret)]
  | .data _, as => as = []

/-- The reader is where the server is. -/
structure Reading.At (r : Reading ε) (v : CommandServer ε) : Prop where
  blank : r.line.Blank
  config : r.line.config = v.config
  mode : r.mode = match v.session with
    | none => .command v.env
    | some p => start p v.env
  posed : ∀ p ∈ v.session, p.Posed
  calls : r.calls = v.calls
  handed : r.handed = v.handed
  halted : r.halted = false

theorem Reading.At.boot (e : ε) : (Device.boot e).reading.At (.boot e) :=
  ⟨⟨⟨rfl, rfl⟩, rfl, rfl⟩, rfl, rfl, by simp [CommandServer.boot], rfl, rfl, rfl⟩

theorem sendCmdLine_spec {text line : Bytes} (h : sendCmdLine text = some line) :
    line = text ++ bytes "\r\n" ∧ bytes "AT" <+: text ∧ text.length ≤ 126 := by
  unfold sendCmdLine at h
  split_ifs at h with hlen hat
  simp only [Option.some.injEq] at h
  rw [not_or, not_lt, not_lt] at hlen
  rw [not_not] at hat
  exact ⟨h.symm, hat ▸ List.take_prefix 2 text, hlen.2⟩

section Server

variable {S : Sink ε} {groups : List (AtcmdGroup ε)} {r : Reading ε} {v v' : CommandServer ε}

/-- What a command comes to is done by the reader as by the server. -/
theorem Reading.At.perform (h : r.At v) {line : Bytes} {eff : Effect ε}
    (hv : v.perform line eff = some v') :
    (r.perform v.env eff).At v'
      ∧ ∃ ret, v'.answered = v.answered ++ [(line, ret)] ∧ eff.answers v.env = [ret] := by
  cases eff with
  | nothing => cases hv
  | reset => cases hv
  | reply ret =>
    simp only [CommandServer.perform, Option.some.injEq] at hv
    subst hv
    exact ⟨⟨h.blank, h.config, h.mode, h.posed, h.calls, h.handed, h.halted⟩, _, rfl, rfl⟩
  | call handler name type argv =>
    simp only [CommandServer.perform, Option.ite_none_left_eq_some, Option.some.injEq] at hv
    obtain ⟨hret, rfl⟩ := hv
    refine ⟨⟨h.blank, h.config, ?_, ?_, congrArg (· ++ [(name, type, argv)]) h.calls, h.handed,
      h.halted⟩, _, rfl, by simp [Effect.answers, hret]⟩
    · simp only [Reading.perform]
      rcases (handler argv v.env).dataMode with _ | p <;> rfl
    · intro p hp
      obtain ⟨q, -, rfl⟩ := Option.map_eq_some_iff.1 hp
      exact q.2

/-- What the host writes for a step of the server is read as that step, and answered so. -/
theorem Reading.At.step {op : HostOp} (h : r.At v)
    (hv : CommandServer.step S groups v op = some v') :
    (op.wire.foldl (Reading.step S groups) r).At v'
      ∧ ∃ as, op.Answered as ∧ v'.answered = v.answered ++ as
        ∧ Reading.answers S groups r op.wire = as.map (·.2) := by
  have hmode := h.mode
  cases op with
  | cmd line =>
    simp only [CommandServer.step, Option.ite_none_right_eq_some] at hv
    obtain ⟨⟨hs, hline, hprint, -⟩, hv⟩ := hv
    obtain ⟨heq, hat, hlen⟩ := sendCmdLine_spec hline
    have hprint : ∀ c ∈ line.take (line.length - 2), 0x20 ≤ c ∧ c ≤ 0x7E := fun c hc =>
      of_decide_eq_true (List.all_eq_true.1 hprint c hc)
    generalize line.take (line.length - 2) = text at *
    subst heq
    rw [hs] at hmode
    obtain ⟨hf, ha⟩ := Reading.foldl_line S groups h.halted hmode h.blank
      ⟨hat, hprint, hlen.trans (by decide)⟩
    rw [h.config] at hf ha
    have hlf := (atcmdProcessCommand_linefeed groups v.config text).trans
      (h.config ▸ h.blank.linefeed)
    have hat : ({ r with line := { r.line with
        config := (atcmdProcessCommand groups v.config text).1 } } : Reading ε).At
        { v with config := (atcmdProcessCommand groups v.config text).1 } :=
      ⟨⟨⟨h.blank.cmd, h.blank.esc⟩, h.blank.cntCR, hlf⟩, rfl, h.mode, h.posed, h.calls, h.handed,
        h.halted⟩
    obtain ⟨hat', ret, hret, hans⟩ := hat.perform hv
    rw [HostOp.wire, hf, ha]
    exact ⟨hat', [(_, ret)], ⟨ret, rfl⟩, hret, hans⟩
  | data data =>
    simp only [CommandServer.step] at hv
    rcases hs : v.session with _ | p
    · rw [hs] at hv
      cases hv
    · rw [hs] at hv hmode
      simp only [Option.ite_none_right_eq_some, Option.some.injEq] at hv
      obtain ⟨⟨hpass, hlen⟩, rfl⟩ := hv
      have hpos := (h.posed p hs hpass).1
      have hu : ¬ p.Unbuffered := fun hu => by simp [hu.1] at hpass
      have hcollect : r.mode = .collect p v.env [] [] := by
        simpa only [Reading.start, if_neg hu] using hmode
      have hne : data ≠ [] := by
        rintro rfl
        simp only [List.length_nil] at hlen
        omega
      have hf : data.foldl (Reading.step S groups) r = _ :=
        Reading.foldl_block data h.halted hcollect hne (by simpa using hlen)
      have ha : Reading.answers S groups r data = [] :=
        Reading.answers_collect data h.halted hcollect (by simp [hlen])
      rw [HostOp.wire, hf, ha]
      refine ⟨?_, [], rfl, by simp, rfl⟩
      simp only [Reading.block, hpass, Bool.false_eq_true, if_false, List.nil_append]
      exact ⟨h.blank, h.config, rfl, by simp, h.calls, congrArg (· ++ [data]) h.handed, h.halted⟩

end Server

end NrcAtcmd
