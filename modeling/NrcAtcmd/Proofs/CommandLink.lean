import NrcAtcmd.Proofs.CommandServer

/-!
# Commands from the host are served one after the other

Whatever the host will have been told, once it has read all that is on the way, and what the target
has yet to write and to answer, are together the answers of the server to what the host wrote
(`Flow.answers`): no step that does not cross changes that. The host sends its next command when it
has returned the last, so at most one answer is on the way, and the sending thread waits for it.
-/

namespace NrcAtcmd

open Machine HostRecv

variable {ε : Type*}

/-! ## What the host is told -/

/-- The returns the host was told. -/
def HostRecv.heard (s : HostRecv) : List HostRet := s.calls.filterMap HostCall.ret?

theorem calls_hear (malloc : ℕ → Bool) (s : HostRecv) (msg : Bytes) :
    s.calls <+: (s.hear malloc msg).calls := by
  unfold HostRecv.hear expect HostRecv.tell
  dsimp only
  split <;> try split_ifs
  all_goals first | exact List.prefix_rfl | exact List.prefix_append _ _

theorem calls_recvMsg (malloc : ℕ → Bool) (s : HostRecv) (b : UInt8) :
    s.calls <+: (s.recvMsg malloc b).calls := by
  have hstore : (s.giveUp.storeByte b).calls = s.calls := by
    unfold storeByte giveUp
    dsimp only
    split_ifs <;> rfl
  unfold recvMsg
  dsimp only
  split
  · exact hstore ▸ List.prefix_rfl
  · split_ifs
    · rw [← hstore]
      exact calls_hear malloc ((s.giveUp.storeByte b).store _) _
    · exact hstore ▸ List.prefix_rfl

/-- Nothing the host was told is taken back. -/
theorem calls_recvByte (malloc : ℕ → Bool) (s : HostRecv) (b : UInt8) :
    s.calls <+: (s.recvByte malloc b).calls := by
  unfold recvByte
  split
  · rename_i r _
    split_ifs
    · unfold recvData
      dsimp only
      split_ifs
      · exact List.prefix_append _ _
      · exact List.prefix_rfl
    · exact (List.prefix_append _ _).trans (calls_recvMsg malloc (s.endData r) b)
  · exact calls_recvMsg malloc s b

theorem calls_foldl (malloc : ℕ → Bool) : ∀ (l : Bytes) (s : HostRecv),
    s.calls <+: (l.foldl (recvByte malloc) s).calls
  | [], _ => List.prefix_rfl
  | b :: l, s => (calls_recvByte malloc s b).trans (calls_foldl malloc l _)

theorem foldl_told : ∀ (cs : List HostCall) (s : HostSync), cs.foldl HostSync.told s =
    (cs.filterMap HostCall.ret?).foldl (fun s r => nrcAtcmdSetReturn r s) s
  | [], _ => rfl
  | c :: cs, s => by
    rw [List.foldl_cons, foldl_told cs]
    cases c <;> rfl

section Heeded

variable (strerror : ℤ → Bytes)

/-- An event the host has no name for tells it nothing. -/
theorem event_passed {e : TargetEvent} (h : TargetMsg.Sent strerror (.event e))
    (hplain : TargetMsg.Plain (e.print strerror).2)
    (hev : AtcmdEvent.ofName (bytes (e.print strerror).1) = none) {s : HostRecv} (hs : Listening s) :
    Listening ((TargetMsg.wire strerror (.event e)).foldl (recvByte fun _ => true) s)
      ∧ ((TargetMsg.wire strerror (.event e)).foldl (recvByte fun _ => true) s).calls = s.calls := by
  obtain ⟨hne, htcp, hname⟩ := targetNames_plain _ (print_mem strerror e).1
  have hno : NoCrlf (bytes e.head ++ (quoted (bytes (e.print strerror).1) ++
      (e.print strerror).2.flatMap (44 :: ·))) := by
    rw [← List.append_assoc, ← params_cons]
    refine noCrlf_params (List.forall_mem_cons.2 ⟨event_head_noCrlf strerror e, ?_⟩)
    exact fun q hq => noCrlf_iff.2 (hplain q hq).2
  have hhead : (43 :: bytes e.head).length = 8 := by simp [(event_head e).1]
  have hline := nrcAtcmdRecvEvent_line hhead hne htcp
    (fun b hb => ⟨(hname b hb).1, (hname b hb).2.1⟩) (flatMap_comma_head (e.print strerror).2)
  rw [hev] at hline
  obtain ⟨s', htype, hrxd, hdata, hcalls, hlast⟩ :=
    line_heard (fun _ => true) hs.idle (event_length strerror h) hno
  have hear : s'.hear (fun _ => true) (43 :: (bytes e.head ++
      (quoted (bytes (e.print strerror).1) ++ (e.print strerror).2.flatMap (44 :: ·))))
        = s'.tell (nrcAtcmdRecvEvent (43 :: bytes e.head ++
          (quoted (bytes (e.print strerror).1) ++ (e.print strerror).2.flatMap (44 :: ·)))) := by
    unfold HostRecv.hear
    rcases event_type htype with ht | ht | ht <;> rw [ht] <;> rfl
  have hfold := event_wire strerror e ▸ hlast
  rw [hear] at hfold
  refine ⟨⟨?_, hs.short.foldl _⟩, ?_⟩
  · rw [hfold]
    exact ⟨rfl, rfl, hrxd, hdata⟩
  · rw [hfold, ← hcalls]
    show s'.calls ++ _ = _
    rw [hline, List.append_nil]

/-- A message that is heeded is told with its returns, and the host waits for the next. -/
theorem heard_message {m : TargetMsg} (h : m.Heeded strerror) {s : HostRecv} (hs : Listening s) :
    Listening ((m.wire strerror).foldl (recvByte fun _ => true) s)
      ∧ ((m.wire strerror).foldl (recvByte fun _ => true) s).heard
        = s.heard ++ m.rets strerror := by
  have hclear : ∀ m : TargetMsg, m.Sent strerror → m.Clear strerror →
      Listening ((m.wire strerror).foldl (recvByte fun _ => true) s)
        ∧ ((m.wire strerror).foldl (recvByte fun _ => true) s).heard
          = s.heard ++ m.rets strerror := by
    intro m hsent hc
    have hread := readsMsg_of_clear strerror hsent hc
    have hsaid := congrArg (List.filterMap fun c => c.bind HostCall.ret?) (hread.said s hs)
    exact ⟨hread.idle s hs, by
      simpa [told, HostRecv.heard, TargetMsg.rets, List.filterMap_append] using hsaid⟩
  cases m with
  | event e =>
    obtain ⟨hsent, hplain⟩ := h
    rcases hev : AtcmdEvent.ofName (bytes (e.print strerror).1) with _ | ev
    · obtain ⟨hl, hcalls⟩ := event_passed strerror hsent hplain hev hs
      refine ⟨hl, ?_⟩
      have hrets : TargetMsg.rets strerror (.event e) = [] := by
        simp [TargetMsg.rets, TargetMsg.calls, hev]
      rw [HostRecv.heard, hcalls, hrets, List.append_nil]
      rfl
    · exact hclear _ hsent ⟨by simp [hev], hplain⟩
  | _ => exact hclear _ h.1 h.2

end Heeded

/-! ## The link -/

variable (S : Sink ε) (groups : List (AtcmdGroup ε)) (strerror : ℤ → Bytes) (e : ε)

/-- The host once it has read all that is on the way. -/
def CommandLink.heardAll (s : CommandLink ε) : HostRecv := s.up.foldl (recvByte fun _ => true) s.recv

/-- The target gets to where the server is, and so do the answers. -/
structure CommandLink.Flow (s : CommandLink ε) (v : CommandServer ε) : Prop where
  served : s.served S groups e [] = some v
  awake : s.device.Awake
  listening : Listening s.heardAll
  reader : ((s.device.rest ++ s.down).foldl (Reading.step S groups) s.device.reading).At v
  answers : s.heardAll.heard ++ rets strerror (s.device.messages.drop s.written)
    ++ Reading.answers S groups s.device.reading (s.device.rest ++ s.down) = v.answered.map (·.2)

/-- The answers the host was told, and the commands it returned, by where its sending thread is. -/
def CommandLink.Waits (s : CommandLink ε) (v : CommandServer ε) : Prop :=
  match s.host.pc with
  | .idle | .reset => v.answered = s.answered ∧ s.recv.heard = v.answered.map (·.2)
  | .sent | .blocked => ∃ ret, v.answered = s.answered ++ [(s.host.cmd, ret)]
      ∧ s.recv.heard = s.answered.map (·.2)
  | .woken => v.answered = s.answered ++ [(s.host.cmd, s.host.val)]
      ∧ s.recv.heard = v.answered.map (·.2)
  | .expired => False

variable {S groups strerror e} {s s' : CommandLink ε} {v v' : CommandServer ε}

namespace CommandLink.Flow

theorem boot (e : ε) : (CommandLink.boot e).Flow S groups strerror e (.boot e) where
  served := rfl
  awake := .boot e
  listening := ⟨⟨rfl, rfl, rfl, rfl⟩, ⟨by simp [heardAll, CommandLink.boot, HostRecv.boot],
    by simp [heardAll, CommandLink.boot, HostRecv.boot]⟩⟩
  reader := .boot e
  answers := rfl

theorem op (h : s.Flow S groups strerror e v) {op : HostOp}
    (hv : CommandServer.step S groups v op = some v') :
    ({ s with down := s.down ++ op.wire, ops := s.ops ++ [op] } : CommandLink ε).Flow
        S groups strerror e v'
      ∧ ∃ as, op.Answered as ∧ v'.answered = v.answered ++ as := by
  obtain ⟨hat, as, has, hans, hread⟩ := h.reader.step hv
  refine ⟨⟨?_, h.awake, h.listening, ?_, ?_⟩, as, has, hans⟩
  · have hs : run (CommandServer.step S groups) (.boot e) s.ops = some v := by
      simpa [CommandLink.served] using h.served
    have hop : run (CommandServer.step S groups) v [op] = some v' := by simp [run, hv]
    simpa [CommandLink.served] using run_append.2 ⟨v, hs, hop⟩
  · show Reading.At ((s.device.rest ++ (s.down ++ op.wire)).foldl (Reading.step S groups)
      s.device.reading) v'
    rw [← List.append_assoc, List.foldl_append]
    exact hat
  · show s.heardAll.heard ++ rets strerror (s.device.messages.drop s.written)
      ++ Reading.answers S groups s.device.reading (s.device.rest ++ (s.down ++ op.wire)) = _
    rw [← List.append_assoc s.device.rest, Reading.answers_append, hread, hans, List.map_append,
      ← h.answers, List.append_assoc _ (Reading.answers ..)]

theorem halted (h : s.Flow S groups strerror e v) : s.device.halted = false := by
  by_contra hh
  rw [Bool.not_eq_false] at hh
  have hat := h.reader.halted
  rw [Reading.foldl_halted (r := s.device.reading) hh] at hat
  exact absurd (hh.symm.trans hat) (by decide)

theorem deliver (h : s.Flow S groups strerror e v) {n : ℕ} {d : Device ε}
    (hd : deviceStep S groups s.device (.receive (s.down.take n)) = some d) :
    ({ s with device := d, down := s.down.drop n } : CommandLink ε).Flow S groups strerror e v := by
  simp only [deviceStep] at hd
  rw [if_neg (by simp [h.halted]), Option.ite_none_right_eq_some, Option.some.injEq] at hd
  obtain ⟨hrest, rfl⟩ := hd
  have hbytes : s.down.take n ++ s.down.drop n = s.device.rest ++ s.down := by
    rw [List.take_append_drop, hrest, List.nil_append]
  refine ⟨h.served, ⟨h.awake.inv.rest _, h.awake.idle, h.awake.out⟩, h.listening, ?_, ?_⟩
  · show Reading.At ((s.down.take n ++ s.down.drop n).foldl (Reading.step S groups)
      s.device.reading) v
    rw [hbytes]
    exact h.reader
  · show s.heardAll.heard ++ rets strerror (s.device.messages.drop s.written)
      ++ Reading.answers S groups s.device.reading (s.down.take n ++ s.down.drop n) = _
    rw [hbytes]
    exact h.answers

theorem turn (h : s.Flow S groups strerror e v) (hw : s.written = s.device.messages.length)
    {now : UInt32} {d : Device ε} (hd : deviceStep S groups s.device (.turn now) = some d) :
    ({ s with device := d } : CommandLink ε).Flow S groups strerror e v := by
  obtain ⟨hawake, n, hrest, hread, ms, hms, hrets⟩ := h.awake.turn strerror hd
  have hbytes : s.device.rest ++ s.down = s.device.rest.take n ++ (d.rest ++ s.down) := by
    rw [hrest, ← List.append_assoc, List.take_append_drop]
  have hans := h.answers
  have hat := h.reader
  rw [hbytes, List.foldl_append, ← hread] at hat
  rw [hbytes, Reading.answers_append, ← hread, ← hrets, hw, List.drop_length, rets_nil,
    List.append_nil] at hans
  refine ⟨h.served, hawake, h.listening, hat, ?_⟩
  show s.heardAll.heard ++ rets strerror (d.messages.drop s.written)
    ++ Reading.answers S groups d.reading (d.rest ++ s.down) = _
  rw [hms, hw, List.drop_left, List.append_assoc]
  exact hans

theorem up (h : s.Flow S groups strerror e v) {m : TargetMsg} (hm : m.Heeded strerror)
    {written : ℕ} (hw : rets strerror (s.device.messages.drop s.written)
      = m.rets strerror ++ rets strerror (s.device.messages.drop written)) :
    ({ s with up := s.up ++ m.wire strerror, written := written } : CommandLink ε).Flow
      S groups strerror e v := by
  obtain ⟨hl, hheard⟩ := heard_message strerror hm h.listening
  have hall : ({ s with up := s.up ++ m.wire strerror, written := written } : CommandLink ε).heardAll
      = (m.wire strerror).foldl (recvByte fun _ => true) s.heardAll := List.foldl_append
  have hans := h.answers
  rw [hw, ← List.append_assoc, ← hheard] at hans
  exact ⟨h.served, h.awake, hall ▸ hl, h.reader, hall ▸ hans⟩

/-- The host reads on. -/
theorem hear (h : s.Flow S groups strerror e v) (n : ℕ) (host : HostSync) :
    ({ s with
      recv := nrcAtcmdRecv (fun _ => true) (s.up.take n) s.recv
      up := s.up.drop n
      host := host } : CommandLink ε).Flow S groups strerror e v := by
  have hall : ({ s with
      recv := nrcAtcmdRecv (fun _ => true) (s.up.take n) s.recv
      up := s.up.drop n
      host := host } : CommandLink ε).heardAll = s.heardAll := by
    show (s.up.drop n).foldl _ ((s.up.take n).foldl _ s.recv) = _
    rw [← List.foldl_append, List.take_append_drop]
    rfl
  exact ⟨h.served, h.awake, hall ▸ h.listening, h.reader, hall ▸ h.answers⟩

end CommandLink.Flow

/-! ## The sending thread -/

namespace CommandLink.Waits

theorem host (h : s.Waits v) {i : SyncInput} (hc : ¬ (i = .spurious ∨ i = .timeout))
    (hsend : ∀ r, i ≠ .send r) (hrecv : ∀ m own, i ≠ .recv m own) {t : HostSync}
    (ht : syncStep s.host i = some t) : ({ s with host := t } : CommandLink ε).Waits v := by
  rw [not_or] at hc
  unfold Waits at h
  cases i with
  | send r => exact absurd rfl (hsend r)
  | recv m own => exact absurd rfl (hrecv m own)
  | spurious => exact absurd rfl hc.1
  | timeout => exact absurd rfl hc.2
  | sendCmd text =>
    simp only [syncStep, Option.ite_none_right_eq_some] at ht
    obtain ⟨hp, ht⟩ := ht
    rw [hp] at h
    split at ht <;> simp only [Option.some.injEq] at ht <;> subst ht
    · simpa [Waits, HostSync.leave, answered] using h
    · exact h
  | wait =>
    simp only [syncStep, Option.ite_none_right_eq_some, Option.some.injEq] at ht
    obtain ⟨hp, rfl⟩ := ht
    rw [hp] at h
    exact h
  | expire =>
    simp only [syncStep, Option.ite_none_right_eq_some] at ht
    rw [ht.1] at h
    exact h.elim
  | getReturn =>
    simp only [syncStep, Option.ite_none_right_eq_some, Option.some.injEq] at ht
    obtain ⟨hp, rfl⟩ := ht
    rw [hp] at h
    simpa [Waits, HostSync.leave, answered] using h

/-- The command goes out: the server answers it, and the host has returned all before it. -/
theorem send (h : s.Waits v) (hp : s.host.pc = .reset) {ret : HostRet} {down : Bytes}
    {ops : List HostOp} (hv : v'.answered = v.answered ++ [(s.host.cmd, ret)]) :
    ({ s with host := { s.host with pc := .sent }, down := down, ops := ops } :
      CommandLink ε).Waits v' := by
  unfold Waits at h
  rw [hp] at h
  exact ⟨ret, by rw [hv, h.1]; rfl, h.2.trans (congrArg (List.map _) h.1)⟩

/-- The host is told an answer only where it waits for it, and then it is the one to its command. -/
theorem hear (h : s.Waits v) {recv : HostRecv} {cs : List HostCall} {up : Bytes}
    (hcs : recv.calls = s.recv.calls ++ cs) (hv : recv.heard <+: v.answered.map (·.2))
    (hc : s.host.pc = .sent → cs.filterMap HostCall.ret? = []) :
    ({ s with recv := recv, up := up, host := cs.foldl HostSync.told s.host } :
      CommandLink ε).Waits v := by
  have hheard : recv.heard = s.recv.heard ++ cs.filterMap HostCall.ret? := by
    simp [HostRecv.heard, hcs]
  rw [foldl_told]
  rw [hheard] at hv
  -- where all answers are heard, there is none to come
  have hall : s.recv.heard = v.answered.map (·.2) → cs.filterMap HostCall.ret? = [] := by
    intro heq
    rw [heq] at hv
    simpa using hv.length_le
  have hnone : cs.filterMap HostCall.ret? = [] →
      ({ s with
        recv := recv, up := up
        host := (cs.filterMap HostCall.ret?).foldl (fun s r => nrcAtcmdSetReturn r s) s.host } :
          CommandLink ε).Waits v := by
    intro hnil
    rw [hnil, List.append_nil] at hheard
    rw [hnil]
    unfold Waits at h ⊢
    simpa [answered, hheard] using h
  rcases hp : s.host.pc
  case idle | reset =>
    unfold Waits at h
    rw [hp] at h
    exact hnone (hall h.2)
  case woken =>
    unfold Waits at h
    rw [hp] at h
    exact hnone (hall h.2)
  case sent => exact hnone (hc hp)
  case expired =>
    unfold Waits at h
    rw [hp] at h
    exact h.elim
  case blocked =>
    have h' := h
    unfold Waits at h'
    rw [hp] at h'
    obtain ⟨ret, hans, hold⟩ := h'
    rw [hold, hans, List.map_append, List.prefix_append_right_inj] at hv
    rcases hr : cs.filterMap HostCall.ret? with _ | ⟨r, rs⟩
    · exact hr ▸ hnone hr
    · -- the answer comes to the thread that waits for it
      rw [hr] at hv hheard
      obtain ⟨rfl, hrs⟩ := List.cons_prefix_cons.1 hv
      obtain rfl := List.prefix_nil.1 hrs
      simp only [List.foldl_cons, List.foldl_nil, nrcAtcmdSetReturn, hp, if_true]
      refine ⟨hans, ?_⟩
      show recv.heard = _
      rw [hheard, hold, hans, List.map_append]
      rfl

end CommandLink.Waits

/-! ## Runs -/

theorem served_step (h : s.Flow S groups strerror e v) {op : HostOp}
    (hc : ¬ (s.served S groups e [op]).isNone) : ∃ v', CommandServer.step S groups v op = some v' := by
  obtain ⟨v', hv'⟩ := Option.ne_none_iff_exists'.1 (by simpa using hc)
  obtain ⟨w, hw, hop⟩ := run_append.1 hv'
  have hs : run (CommandServer.step S groups) (.boot e) s.ops = some v := by
    simpa [CommandLink.served] using h.served
  obtain rfl := Option.some.inj (hs.symm.trans hw)
  obtain ⟨w, hw, -⟩ := run_cons_eq_some.1 hop
  exact ⟨w, hw⟩

/-- A step that does not cross keeps both ends with the server. -/
theorem linear_step {i : LinkInput} (h : s.Flow S groups strerror e v) (hw : s.Waits v)
    (hc : ¬ s.Crosses S groups strerror e i) (hs : linkStep S groups strerror s i = some s') :
    ∃ v', s'.Flow S groups strerror e v' ∧ s'.Waits v' := by
  cases i with
  | host i =>
    obtain ⟨hsend, hrecv, t, ht, rfl⟩ : (∀ r, i ≠ .send r) ∧ (∀ m own, i ≠ .recv m own)
        ∧ ∃ t, syncStep s.host i = some t ∧ ({ s with host := t } : CommandLink ε) = s' := by
      cases i <;> simp_all [linkStep]
    exact ⟨v, ⟨h.served, h.awake, h.listening, h.reader, h.answers⟩, hw.host hc hsend hrecv ht⟩
  | send failed =>
    rcases failed with _ | n
    · obtain ⟨v', hv'⟩ := served_step h hc
      obtain ⟨t, ht, rfl⟩ := Option.map_eq_some_iff.1 hs
      simp only [syncStep, Option.ite_none_right_eq_some, Option.some.injEq] at ht
      obtain ⟨hp, rfl⟩ := ht
      obtain ⟨hflow, as, ⟨ret, rfl⟩, hans⟩ := h.op hv'
      exact ⟨v', ⟨hflow.served, hflow.awake, hflow.listening, hflow.reader, hflow.answers⟩,
        hw.send hp hans⟩
    · obtain rfl : n = 0 := not_not.1 hc
      obtain ⟨t, ht, rfl⟩ := Option.map_eq_some_iff.1 hs
      simp only [syncStep, Option.ite_none_right_eq_some, Option.some.injEq] at ht
      obtain ⟨hp, rfl⟩ := ht
      simp only [List.take_zero, List.append_nil]
      refine ⟨v, ⟨h.served, h.awake, h.listening, h.reader, h.answers⟩, ?_⟩
      unfold CommandLink.Waits at hw ⊢
      rw [hp] at hw
      simpa [HostSync.leave, CommandLink.answered] using hw
  | data buf =>
    obtain ⟨v', hv'⟩ := served_step h hc
    simp only [linkStep, Option.ite_none_right_eq_some, Option.some.injEq] at hs
    obtain ⟨hp, rfl⟩ := hs
    obtain ⟨hflow, as, has, hans⟩ := h.op hv'
    obtain rfl : as = [] := has
    rw [List.append_nil] at hans
    refine ⟨v', hflow, ?_⟩
    unfold CommandLink.Waits at hw ⊢
    rw [hp] at hw
    simp only [hp, hans]
    exact hw
  | deliver n =>
    simp only [linkStep, Option.ite_none_right_eq_some] at hs
    obtain ⟨d, hd, rfl⟩ := Option.map_eq_some_iff.1 hs.2
    exact ⟨v, h.deliver hd, hw⟩
  | turn now =>
    simp only [linkStep, Option.ite_none_right_eq_some] at hs
    obtain ⟨d, hd, rfl⟩ := Option.map_eq_some_iff.1 hs.2
    exact ⟨v, h.turn hs.1 hd, hw⟩
  | tick now =>
    obtain ⟨d, hd, rfl⟩ := Option.map_eq_some_iff.1 hs
    obtain rfl := h.awake.tick hc hd
    exact ⟨v, h, hw⟩
  | write =>
    obtain ⟨m, hm, rfl⟩ := Option.map_eq_some_iff.1 hs
    have hheed : m.Heeded strerror := by
      by_contra hno
      exact hc ⟨m, hm, hno⟩
    refine ⟨v, h.up hheed ?_, hw⟩
    obtain ⟨hlt, rfl⟩ := List.getElem?_eq_some_iff.1 hm
    rw [List.drop_eq_getElem_cons hlt]
    rfl
  | print m =>
    obtain ⟨hheed, hrets⟩ := not_or.1 hc
    obtain rfl := Option.some.inj hs
    exact ⟨v, h.up (not_not.1 hheed) (by rw [not_not.1 hrets, List.nil_append]), hw⟩
  | hear n =>
    obtain rfl := Option.some.inj hs
    have hflow := h.hear n
    obtain ⟨cs, hcs⟩ := calls_foldl (fun _ => true) (s.up.take n) s.recv
    have hdrop : (nrcAtcmdRecv (fun _ => true) (s.up.take n) s.recv).calls.drop s.recv.calls.length
        = cs := by
      rw [nrcAtcmdRecv, ← hcs, List.drop_left]
    refine ⟨v, hflow _, ?_⟩
    simp only [hdrop]
    refine hw.hear hcs.symm ?_ fun hp => ?_
    · -- what is told now is told once all on the way is read
      have hgrow := calls_foldl (fun _ => true) (s.up.drop n)
        (nrcAtcmdRecv (fun _ => true) (s.up.take n) s.recv)
      have hans := (hflow s.host).answers
      exact (hgrow.filterMap HostCall.ret?).trans
        (hans ▸ (List.prefix_append _ _).trans (List.prefix_append _ _))
    · by_contra hne
      exact hc ⟨hp, hdrop ▸ hne⟩

theorem linear_of_flow (h : s.Flow S groups strerror e v) (hw : s.Waits v) :
    s.Linear S groups e v := by
  have hcalls : s.device.reading.calls <+: v.calls := h.reader.calls ▸ Reading.calls_foldl _ _
  refine ⟨h.served, ?_, hcalls, fun hrest hdown => ?_, fun hrest hdown hwritten hup hp => ?_⟩
  · unfold CommandLink.Waits at hw
    rcases hp : s.host.pc <;> rw [hp] at hw
    case idle | reset => exact Or.inl hw.1.symm
    case sent | blocked =>
      obtain ⟨ret, hans, -⟩ := hw
      exact Or.inr ⟨by simp, ret, hans⟩
    case woken => exact Or.inr ⟨by simp, _, hw.1⟩
    case expired => exact hw.elim
  · have hat : s.device.reading.At v := by
      have hat := h.reader
      rwa [hrest, hdown] at hat
    refine ⟨hat.calls, fun hs => ?_⟩
    have hmode := hat.mode
    rw [hs] at hmode
    refine ⟨by rw [Device.handed_eq, Reading.allHanded, hmode, hat.handed, List.append_nil], ?_⟩
    change s.device.rx.reading = .command v.env at hmode
    unfold Receiver.reading at hmode
    split_ifs at hmode
    exact Mode.command.inj hmode
  · -- all answers are heard, so none is waited for
    have hans := h.answers
    rw [hrest, hdown, List.drop_of_length_le hwritten, CommandLink.heardAll, hup, List.foldl_nil,
      rets_nil, List.append_nil] at hans
    replace hans := (List.append_nil _).symm.trans hans
    unfold CommandLink.Waits at hw
    simp only [List.mem_cons, List.not_mem_nil, or_false] at hp
    rcases hp with hp | hp | hp <;> rw [hp] at hw
    case inl | inr.inl =>
      obtain ⟨ret, hret, hold⟩ := hw
      rw [hold, hret] at hans
      simpa using congrArg List.length hans
    case inr.inr => exact hw

/-- As long as no step crosses, what the host and the target see is what the server does with the
commands and the data of the host, one after the other. -/
theorem command_link_linear {is : List LinkInput}
    (hr : run (linkStep S groups strerror) (.boot e) is = some s)
    (hc : Along (linkStep S groups strerror) (fun s i => ¬ s.Crosses S groups strerror e i)
      (.boot e) is) : ∃ v, s.Linear S groups e v := by
  have hinv := run_along (P := fun s => ∃ v, CommandLink.Flow S groups strerror e s v ∧ s.Waits v)
    (fun s i s' ⟨v, hf, hw⟩ hc hs => linear_step hf hw hc hs)
    ⟨.boot e, .boot e, rfl, rfl⟩ hc hr
  obtain ⟨v, hf, hw⟩ := hinv
  exact ⟨v, linear_of_flow hf hw⟩

/-- A command, its data and another command, of which the target reads some while the host sends on,
and an event that comes between. -/
def linkRun : List LinkInput :=
  [.host (.sendCmd (bytes "AT+SSEND=0,3")), .send none, .host .wait, .deliver 4, .turn 1,
    .deliver 40, .turn 2, .write, .print (.event (.socket (.recvReady 1 6))), .hear 2, .hear 100,
    .host .getReturn, .data (bytes "ABC"), .host (.sendCmd (bytes "AT")), .deliver 2, .turn 3,
    .tick 4, .send none, .deliver 20, .turn 5, .write, .turn 6, .host .wait, .write, .hear 40,
    .host .getReturn]

theorem command_link_linear_send : ∃ s : CommandLink Unit,
    run (linkStep takeAll [sendGroup] fun _ => []) (.boot ()) linkRun = some s
      ∧ s.answered = [(bytes "AT+SSEND=0,3\r\n", .ok), (bytes "AT\r\n", .ok)]
      ∧ ∃ v, s.Linear takeAll [sendGroup] () v := by
  obtain ⟨s, hs, h⟩ := Option.map_eq_some_iff.1 (show
    (run (linkStep takeAll [sendGroup] fun _ => []) (.boot ()) linkRun).map (·.answered)
      = some [(bytes "AT+SSEND=0,3\r\n", .ok), (bytes "AT\r\n", .ok)] by decide +kernel)
  exact ⟨s, hs, h, command_link_linear hs (by decide +kernel)⟩

end NrcAtcmd
