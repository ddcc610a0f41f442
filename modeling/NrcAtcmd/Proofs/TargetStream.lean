import NrcAtcmd.Proofs.HostLine

/-!
# The host is told what the target wrote

A message that is clear is read: its line is heard for what was printed, and its payload by the
length that was printed. Of the others, the host is told something else at the first end of a line in
them, or nothing at the end of their line.
-/

namespace NrcAtcmd

open HostRecv

/-! ## The names of the target's events -/

def targetNames : List String :=
  ["FWBINDL_IDLE", "FWBINDL_DROP", "FWBINDL_FAIL", "FWBINDL_DONE", "SFUSER_IDLE", "SFUSER_DROP",
    "SFUSER_FAIL", "SFUSER_DONE", "CONNECT_SUCCESS", "DISCONNECT", "STA_CONNECT",
    "STA_DISCONNECT", "DHCP_RELEASE", "DHCP_RENEW", "DHCP_START", "DHCP_BUSY", "DHCP_TIMEOUT",
    "DHCP_STOP", "DHCP_FAIL", "DHCP_SUCCESS", "FOTA_VERSION", "FOTA_BINARY", "FOTA_DOWNLOAD",
    "FOTA_UPDATE", "FOTA_FAIL", "DEEPSLEEP_WAKEUP", "WPS_SUCCESS", "WPS_TIMEOUT", "WPS_FAIL",
    "CONNECT", "CLOSE", "SEND_DONE", "SEND_IDLE", "SEND_DROP", "SEND_EXIT", "SEND_ERROR",
    "RECV_READY", "RECV_ERROR"]

variable (strerror : ℤ → Bytes)

theorem print_mem (e : TargetEvent) :
    (e.print strerror).1 ∈ targetNames ∧ (e.print strerror).2.length ≤ 4 := by
  rcases e with e | e | e
  · cases e <;> simp [TargetEvent.print, atcmdBasicEventHandler_, targetNames]
  · cases e
    case fota e =>
      cases e <;>
        simp [TargetEvent.print, atcmdWifiEvent, atcmdWifiFotaEventCallback_, targetNames]
    case staDisconnect macaddr ip4addr =>
      cases ip4addr <;> simp [TargetEvent.print, atcmdWifiEvent, targetNames]
    all_goals simp [TargetEvent.print, atcmdWifiEvent, targetNames]
  · cases e <;> simp [TargetEvent.print, atcmdSocketEventHandler_, targetNames]

theorem targetNames_plain : ∀ n ∈ targetNames, bytes n ≠ [] ∧ bytes n ≠ bytes "TCP_ERROR" ∧
    ∀ b ∈ bytes n, b ≠ 0 ∧ b ≠ 44 ∧ b ≠ 13 := by
  -- as a test on the list: the quantifier over bytes may be decided on all 256 of them
  have h : targetNames.all fun n => bytes n ≠ [] ∧ bytes n ≠ bytes "TCP_ERROR" ∧
      (bytes n).all fun b => b ≠ 0 ∧ b ≠ 44 ∧ b ≠ 13 := by decide +kernel
  simpa using h

/-! ## The payload -/

/-- The host has read some bytes of a payload. -/
structure InPayload (calls : List HostCall) (r : AtcmdRxd) (d : Bytes) (s : HostRecv) : Prop where
  type : s.type = .none
  msg : s.msg = []
  rxd : s.rxd = some r
  data : s.data = d
  calls : s.calls = calls

section Payload

variable {malloc : ℕ → Bool} {s : HostRecv} {calls : List HostCall} {r : AtcmdRxd} {d : Bytes}

theorem InPayload.byte (h : InPayload calls r d s) {b : UInt8}
    (hlen : (d.length : ℤ) + 1 < r.length) :
    InPayload calls r (d ++ [b]) (s.recvByte malloc b) := by
  have hstep : s.recvByte malloc b =
      { s.store ⟨.data, s.data.length⟩ with data := s.data ++ [b] } := by
    unfold recvByte
    rw [h.rxd]
    simp only [recvData]
    rw [if_pos (by omega), if_neg]
    simp only [h.data, List.length_append, List.length_singleton, Nat.cast_add, Nat.cast_one]
    omega
  rw [hstep]
  exact ⟨h.type, h.msg, h.rxd, congrArg (· ++ [b]) h.data, h.calls⟩

theorem InPayload.bytes (h : InPayload calls r d s) : ∀ (q : Bytes),
    ((d ++ q).length : ℤ) < r.length → InPayload calls r (d ++ q) (q.foldl (recvByte malloc) s) := by
  intro q
  induction q using List.reverseRecOn with
  | nil => exact fun _ => by simpa using h
  | append_singleton q b ih =>
    intro hlen
    rw [← List.append_assoc] at hlen ⊢
    rw [List.length_append, List.length_singleton, Nat.cast_add, Nat.cast_one] at hlen
    rw [List.foldl_append]
    exact (ih (by omega)).byte hlen

/-- The last byte of a payload. -/
theorem InPayload.last (h : InPayload calls r d s) {b : UInt8}
    (hlen : (d.length : ℤ) + 1 = r.length) :
    (s.recvByte malloc b).Idle ∧ (s.recvByte malloc b).calls = calls ++ [.rxd r (d ++ [b])] := by
  have hstep : s.recvByte malloc b =
      endData { s.store ⟨.data, s.data.length⟩ with data := s.data ++ [b] } r := by
    unfold recvByte
    rw [h.rxd]
    simp only [recvData]
    rw [if_pos (by omega), if_pos]
    simp only [h.data, List.length_append, List.length_singleton, Nat.cast_add, Nat.cast_one]
    exact hlen
  rw [hstep]
  refine ⟨⟨h.type, h.msg, rfl, rfl⟩, ?_⟩
  show s.calls ++ [.rxd r (s.data ++ [b])] = _
  rw [h.calls, h.data]

/-- A payload is told at its last byte. -/
theorem payload_heard (h : InPayload calls r [] s) {data : Bytes} (hne : data ≠ [])
    (hlen : r.length = data.length) :
    (∀ q, q <+: data → q ≠ data → (q.foldl (recvByte malloc) s).calls = calls) ∧
      (data.foldl (recvByte malloc) s).Idle ∧
      (data.foldl (recvByte malloc) s).calls = calls ++ [.rxd r data] := by
  constructor
  · intro q hq hqne
    have hlt := Frames.length_lt_of_prefix_ne hq hqne
    exact (h.bytes q (by rw [hlen, List.nil_append]; omega)).calls
  · obtain ⟨q, b, rfl⟩ : ∃ q b, data = q ++ [b] :=
      ⟨data.dropLast, data.getLast hne, (List.dropLast_append_getLast hne).symm⟩
    rw [List.length_append, List.length_singleton, Nat.cast_add, Nat.cast_one] at hlen
    have hq : InPayload calls r ([] ++ q) (q.foldl (recvByte malloc) s) :=
      h.bytes q (by rw [hlen, List.nil_append]; omega)
    rw [List.foldl_append]
    exact hq.last (by rw [List.nil_append]; omega)

end Payload

/-! ## Messages that are read -/

/-- The host waits for a message, and has only seen addresses it has room for. -/
structure Listening (s : HostRecv) : Prop where
  idle : s.Idle
  short : s.Short

/-- The host, all of whose allocations succeed, is told of the message as it should. -/
abbrev ReadsMsg (m : TargetMsg) : Prop :=
  Frames.Reads (recvByte fun _ => true) told (TargetMsg.wire strerror) (TargetMsg.calls strerror)
    Listening m

/-- The host is told something else. -/
abbrev MisreadsMsg (m : TargetMsg) : Prop :=
  Frames.Misreads (recvByte fun _ => true) told (TargetMsg.wire strerror)
    (TargetMsg.calls strerror) Listening m

theorem told_append {s s' : HostRecv} {cs : List HostCall} (h : s'.calls = s.calls ++ cs) :
    s'.told = s.told ++ cs.map some := by
  unfold told
  rw [h, List.map_append]

/-- A message that is a line is read if nothing is told before its end, and then what it should. -/
theorem reads_heard {m : TargetMsg} {l : Bytes} {cs : List HostCall}
    (hwire : m.wire strerror = l ++ [13] ++ [10]) (hcs : cs.map some = m.calls strerror)
    (hquiet : ∀ s : HostRecv, s.Idle → ∀ q, q <+: l ++ [13] →
      (q.foldl (recvByte fun _ => true) s).calls = s.calls)
    (hheard : ∀ s : HostRecv, s.Idle → ((l ++ [13] ++ [10]).foldl (recvByte fun _ => true) s).Idle ∧
      ((l ++ [13] ++ [10]).foldl (recvByte fun _ => true) s).calls = s.calls ++ cs) :
    ReadsMsg strerror m := by
  refine ⟨fun s q hs hq hne => ?_, fun s hs => ?_, fun s hs => ?_⟩
  · rw [hwire] at hq hne
    rcases List.prefix_concat_iff.1 hq with rfl | hq
    · exact absurd rfl hne
    · exact congrArg (List.map some) (hquiet s hs.idle q hq)
  · rw [hwire]
    exact ⟨(hheard s hs.idle).1, hs.short.foldl _⟩
  · rw [hwire, ← hcs]
    exact told_append (hheard s hs.idle).2

theorem reads_return {m : TargetMsg} (type : AtcmdMsgType) (r : HostRet) {b : UInt8} {l : Bytes}
    (hwire : m.wire strerror = b :: l ++ [13] ++ [10]) (hcs : [some (.ret r)] = m.calls strerror)
    (hfirst : recvType .none [b] = some (type, [b])) (hne : type ≠ .none) (hlen : l.length < 126)
    (hkeep : ∀ q, b :: q <+: b :: l ++ [13] → recvType type (b :: q) = some (type, b :: q))
    (hlast : recvType type (b :: l ++ [13] ++ [10]) = none)
    (hear : ∀ s : HostRecv, s.type = type → s.hear (fun _ => true) (b :: l) = s.tell ([.ret r], [])) :
    ReadsMsg strerror m := by
  have hcs' : [HostCall.ret r].map some = m.calls strerror := hcs
  refine reads_heard strerror (l := b :: l) hwire hcs' ?_ ?_
  · intro s hs q hq
    cases q with
    | nil => rfl
    | cons c q =>
      obtain ⟨rfl, -⟩ := List.cons_prefix_cons.1 hq
      exact (return_bytes _ hs hfirst hne hlen hkeep q hq).calls
  · intro s hs
    have hline := return_bytes (fun _ => true) hs hfirst hne hlen hkeep (l ++ [13])
      List.prefix_rfl
    obtain ⟨s', htype, hrxd, hdata, hcalls, hstep⟩ := hline.last (l := b :: l)
      (by simp only [List.length_append, List.length_cons, List.length_nil]; omega) hlast
    have hfold : (b :: l ++ [13] ++ [10]).foldl (recvByte fun _ => true) s =
        (s'.tell ([.ret r], [])).keep .none [] := by
      rw [List.foldl_append, ← hear s' htype]
      exact hstep
    rw [hfold, ← hcalls]
    exact ⟨⟨rfl, rfl, hrxd, hdata⟩, rfl⟩

theorem reads_ok : ReadsMsg strerror .ok := by
  refine reads_return strerror .ok .ok (b := 79) (l := [75]) rfl rfl (by decide) (by decide)
    (by decide) (fun q hq => ?_) (by decide) fun s hs => ?_
  · have := hq.length_le
    simp only [List.length_append, List.length_cons, List.length_nil] at this
    simp only [recvType, List.length_cons]
    rw [if_pos (by omega)]
  · unfold HostRecv.hear
    rw [hs]

theorem reads_error : ReadsMsg strerror .error := by
  refine reads_return strerror .error .error (b := 69) (l := [82, 82, 79, 82]) rfl rfl (by decide)
    (by decide) (by decide) (fun q hq => ?_) (by decide) fun s hs => ?_
  · have := hq.length_le
    simp only [List.length_append, List.length_cons, List.length_nil] at this
    simp only [recvType, List.length_cons]
    rw [if_pos (by omega)]
  · unfold HostRecv.hear
    rw [hs]

/-- A message that is a line with a plus is read if its parser tells what it should. -/
theorem reads_line {m : TargetMsg} {text : Bytes} (cs : List HostCall)
    (hwire : m.wire strerror = 43 :: text ++ [13] ++ [10]) (hcs : cs.map some = m.calls strerror)
    (hlen : text.length < 126) (hno : NoCrlf text)
    (hear : ∀ s : HostRecv, PlusType (43 :: text ++ [13]) s.type →
      ∃ w, s.hear (fun _ => true) (43 :: text) = s.tell (cs, w)) : ReadsMsg strerror m := by
  refine reads_heard strerror hwire hcs (fun s hs q hq => line_quiet hs hlen hno hq) fun s hs => ?_
  obtain ⟨s', htype, hrxd, hdata, hcalls, hlast⟩ :=
    line_heard (fun _ => true) hs hlen hno
  obtain ⟨w, hw⟩ := hear s' htype
  rw [hlast, hw, ← hcalls]
  exact ⟨⟨rfl, rfl, hrxd, hdata⟩, rfl⟩

/-! ### Information -/

theorem command_bytes {cmd : Bytes} (h : TargetMsg.IsCommand cmd) :
    ∀ b ∈ cmd, b ≠ 0 ∧ b ≠ 58 ∧ b ≠ 13 := by
  intro b hb
  rcases h.1 b hb with ⟨h1, h2⟩ | ⟨h1, h2⟩ <;> refine ⟨?_, ?_, ?_⟩ <;> rintro rfl <;>
    revert h1 h2 <;> decide

theorem info_wire (cmd : Bytes) (ps : List Bytes) : TargetMsg.wire strerror (.info cmd ps) =
    43 :: (cmd ++ 58 :: params ps) ++ [13] ++ [10] := by
  show [43] ++ (cmd ++ [58] ++ params ps) ++ [13, 10] = _
  simp

theorem length_of_textFits {text : Bytes} (h : TargetMsg.TextFits text) : text.length < 126 := by
  unfold TargetMsg.TextFits at h
  rw [atcmdMsgVsnprint_eq] at h
  simp only [List.length_append, List.length_cons, List.length_nil] at h
  omega

theorem info_length {cmd : Bytes} {ps : List Bytes} (h : TargetMsg.Sent strerror (.info cmd ps)) :
    (cmd ++ 58 :: params ps).length < 126 := by
  have := length_of_textFits h.2.2.2
  rw [List.append_assoc] at this
  exact this

/-- The type of a line of information, whatever follows the command. -/
theorem info_type {cmd x : Bytes} {type : AtcmdMsgType} (hcmd : TargetMsg.IsCommand cmd)
    (h : PlusType (43 :: (cmd ++ 58 :: x) ++ [13]) type) :
    type = if cmd = bytes "BOOT" then .boot else .info := by
  have hcolon : 58 ∉ cmd := fun hm => (command_bytes hcmd 58 hm).2.1 rfl
  have happ : 43 :: (cmd ++ 58 :: x) ++ [13] = 43 :: (cmd ++ 58 :: (x ++ [13])) := by simp
  rw [happ] at h
  split_ifs with hboot
  · subst hboot
    exact h.eq_of_head "+BOOT:" (by decide) ⟨x ++ [13], rfl⟩
  · exact h.eq_info (not_head_of_command hcmd hcolon hboot)

/-- What is told of a line of information. -/
theorem info_heard {cmd x : Bytes} {s : HostRecv} (hcmd : TargetMsg.IsCommand cmd)
    (hs : s.type = .info) : ∃ w, s.hear (fun _ => true) (43 :: (cmd ++ 58 :: x)) =
      s.tell ([.info cmd (1 + x.count 44)
        (argString x :: (argvLoop (cmd.length + 2) 1 x).argv)], w) := by
  have hbytes := command_bytes hcmd
  have hinfo := nrcAtcmdRecvInfo_line x
    fun b hb => ⟨(hbytes b hb).1, (hbytes b hb).2.1⟩
  refine ⟨(nrcAtcmdRecvInfo (43 :: cmd ++ 58 :: x)).2, ?_⟩
  unfold HostRecv.hear
  rw [hs, ← hinfo]
  rfl

theorem params_bytes {ps : List Bytes} (h0 : 0 ∉ params ps) (hplain : TargetMsg.Plain ps) :
    ∀ q ∈ ps, ∀ b ∈ q, b ≠ 0 ∧ b ≠ 44 := by
  intro q hq b hb
  refine ⟨?_, ?_⟩
  · rintro rfl
    exact h0 ((infix_params hq).subset hb)
  · rintro rfl
    exact (hplain q hq).1 hb

theorem reads_info {cmd : Bytes} {ps : List Bytes} (h : TargetMsg.Sent strerror (.info cmd ps))
    (hc : TargetMsg.Clear strerror (.info cmd ps)) : ReadsMsg strerror (.info cmd ps) := by
  obtain ⟨hcmd, hne, h0, -⟩ := id h
  obtain ⟨hboot, hten, hplain⟩ := hc
  obtain ⟨q, qs, rfl⟩ := List.exists_cons_of_ne_nil hne
  have hbytes := params_bytes h0 hplain
  obtain ⟨hq, hqs⟩ := List.forall_mem_cons.1 hbytes
  have hno : NoCrlf (cmd ++ 58 :: params (q :: qs)) := by
    refine noCrlf_append_cons (by decide) (noCrlf_of_notMem fun hm => ?_) (noCrlf_params ?_)
    · exact (command_bytes hcmd 13 hm).2.2 rfl
    · exact fun p hp => noCrlf_iff.2 (hplain p hp).2
  refine reads_line strerror [.info cmd _ (q :: qs)] (info_wire strerror cmd (q :: qs)) rfl
    (info_length strerror h) hno fun s hs => ?_
  have htype := info_type hcmd hs
  rw [if_neg hboot] at htype
  obtain ⟨w, hw⟩ := info_heard (x := params (q :: qs)) hcmd htype
  refine ⟨w, ?_⟩
  have hcomma : (44 : UInt8) ∉ q := fun hm => (hq 44 hm).2 rfl
  have hcount : (params (q :: qs)).count 44 = qs.length := by
    rw [params_cons, List.count_append, List.count_eq_zero.2 hcomma, Nat.zero_add]
    exact (count_commas qs).2.2 fun p hp hm => (hqs p hp 44 hm).2 rfl
  rw [hw, hcount, params_cons, argString_append hq (flatMap_comma_head qs),
    argvLoop_append q _ _ 1 hcomma, argvLoop_params qs _ 1 hqs, List.take_of_length_le,
    List.length_cons, Nat.add_comm]
  rw [List.length_cons] at hten
  omega

/-! ### Events -/

/-- The calls for an event of the host with so many arguments. -/
def eventCalls (e : AtcmdEvent) (argc : ℕ) (argv : List Bytes) : List HostCall :=
  (if e = .deepsleepWakeup then [.ret .none] else []) ++ [.event e argc argv]

theorem calls_event {e : TargetEvent} {ev : AtcmdEvent}
    (h : AtcmdEvent.ofName (bytes (e.print strerror).1) = some ev) :
    (eventCalls ev (e.print strerror).2.length (e.print strerror).2).map some =
      TargetMsg.calls strerror (.event e) := by
  unfold TargetMsg.calls
  simp only [h]
  cases ev <;> rfl

theorem event_wire (e : TargetEvent) : TargetMsg.wire strerror (.event e) =
    43 :: (bytes e.head ++ (quoted (bytes (e.print strerror).1) ++
      (e.print strerror).2.flatMap (44 :: ·))) ++ [13] ++ [10] := by
  show [43] ++ (bytes e.head ++ (_ ++ _)) ++ [13, 10] = _
  simp

theorem event_head (e : TargetEvent) : (bytes e.head).length = 7 ∧ 13 ∉ bytes e.head ∧
    ∃ h ∈ infoHeads, bytes h.1 = 43 :: bytes e.head ∧
      (h.2 = .bevent ∨ h.2 = .wevent ∨ h.2 = .sevent) := by
  have hheads : ∀ head ∈ ["BEVENT:", "WEVENT:", "SEVENT:"],
      (bytes head).length = 7 ∧ 13 ∉ bytes head ∧ ∃ h ∈ infoHeads, bytes h.1 = 43 :: bytes head ∧
        (h.2 = .bevent ∨ h.2 = .wevent ∨ h.2 = .sevent) := by decide +kernel
  refine hheads e.head ?_
  rcases e with e | e | e <;> simp [TargetEvent.head]

theorem event_type {e : TargetEvent} {x : Bytes} {type : AtcmdMsgType}
    (h : PlusType (43 :: (bytes e.head ++ x) ++ [13]) type) :
    type = .bevent ∨ type = .wevent ∨ type = .sevent := by
  obtain ⟨-, -, head, hmem, heq, htype⟩ := event_head e
  have happ : 43 :: (bytes e.head ++ x) ++ [13] = bytes head.1 ++ (x ++ [13]) := by simp [heq]
  rw [happ] at h
  rwa [h.eq_of_head head.1 hmem (List.prefix_append _ _)]

/-- What is told of a line of an event the host has a name for, whatever follows the name. -/
theorem event_heard {e : TargetEvent} {ev : AtcmdEvent} {t : Bytes} {s : HostRecv}
    (hev : AtcmdEvent.ofName (bytes (e.print strerror).1) = some ev)
    (ht : t = [] ∨ t.head? = some 44)
    (hs : s.type = .bevent ∨ s.type = .wevent ∨ s.type = .sevent) :
    ∃ i w, s.hear (fun _ => true)
        (43 :: (bytes e.head ++ (quoted (bytes (e.print strerror).1) ++ t))) =
      s.tell (eventCalls ev (t.count 44) (argvLoop i 1 t).argv, w) := by
  obtain ⟨hne, htcp, hname⟩ := targetNames_plain _ (print_mem strerror e).1
  have hhead : (43 :: bytes e.head).length = 8 := by simp [(event_head e).1]
  have hline := nrcAtcmdRecvEvent_line hhead hne htcp
    (fun b hb => ⟨(hname b hb).1, (hname b hb).2.1⟩) ht
  rw [hev] at hline
  refine ⟨8 + (quoted (bytes (e.print strerror).1)).length, (nrcAtcmdRecvEvent (43 :: bytes e.head ++
    (quoted (bytes (e.print strerror).1) ++ t))).2, ?_⟩
  have hear : s.hear (fun _ => true) (43 :: bytes e.head ++
      (quoted (bytes (e.print strerror).1) ++ t)) = s.tell (nrcAtcmdRecvEvent (43 :: bytes e.head ++
        (quoted (bytes (e.print strerror).1) ++ t))) := by
    unfold HostRecv.hear
    rcases hs with hs | hs | hs <;> rw [hs]
  exact hear.trans (congrArg s.tell (Prod.ext hline rfl))

theorem event_length {e : TargetEvent} (h : TargetMsg.Sent strerror (.event e)) :
    (bytes e.head ++ (quoted (bytes (e.print strerror).1) ++
      (e.print strerror).2.flatMap (44 :: ·))).length < 126 :=
  length_of_textFits h.2

theorem event_head_noCrlf (e : TargetEvent) :
    NoCrlf (bytes e.head ++ quoted (bytes (e.print strerror).1)) := by
  obtain ⟨-, -, hname⟩ := targetNames_plain _ (print_mem strerror e).1
  refine noCrlf_of_notMem fun hm => ?_
  rcases List.mem_append.1 hm with hm | hm
  · exact (event_head e).2.1 hm
  · simp only [quoted, List.cons_append, List.mem_cons, List.mem_append, List.not_mem_nil,
      or_false] at hm
    rcases hm with hm | hm | hm
    · exact absurd hm (by decide)
    · exact (hname 13 hm).2.2 rfl
    · exact absurd hm (by decide)

theorem reads_event {e : TargetEvent} (h : TargetMsg.Sent strerror (.event e))
    (hc : TargetMsg.Clear strerror (.event e)) : ReadsMsg strerror (.event e) := by
  obtain ⟨hev, hplain⟩ := hc
  obtain ⟨ev, hev⟩ := Option.isSome_iff_exists.1 hev
  have hbytes : ∀ q ∈ (e.print strerror).2, ∀ b ∈ q, b ≠ 0 ∧ b ≠ 44 := by
    have h0 : 0 ∉ params (quoted (bytes (e.print strerror).1) :: (e.print strerror).2) :=
      fun hm => h.1 (List.mem_append_right _ hm)
    intro q hq b hb
    refine ⟨?_, ?_⟩
    · rintro rfl
      exact h0 ((infix_params (List.mem_cons_of_mem _ hq)).subset hb)
    · rintro rfl
      exact (hplain q hq).1 hb
  have hno : NoCrlf (bytes e.head ++ (quoted (bytes (e.print strerror).1) ++
      (e.print strerror).2.flatMap (44 :: ·))) := by
    rw [← List.append_assoc, ← params_cons]
    refine noCrlf_params (List.forall_mem_cons.2 ⟨event_head_noCrlf strerror e, ?_⟩)
    exact fun q hq => noCrlf_iff.2 (hplain q hq).2
  have hcount := (count_commas (e.print strerror).2).2.2 fun q hq => (hplain q hq).1
  have hfour := (print_mem strerror e).2
  refine reads_line strerror _ (event_wire strerror e) (calls_event strerror hev)
    (event_length strerror h) hno fun s hs => ?_
  obtain ⟨i, w, hw⟩ := event_heard strerror hev (flatMap_comma_head _) (event_type hs)
  refine ⟨w, ?_⟩
  rw [hw, hcount, argvLoop_params _ i 1 hbytes, List.take_of_length_le (by omega)]

/-! ### Payloads -/

theorem ofNat_bytes (n : ℕ) : ∀ b ∈ Decimal.ofNat n, b ≠ 0 ∧ b ≠ 44 ∧ b ≠ 13 := by
  intro b hb
  have hdigit := Decimal.isDigit_of_mem_ofNat n b hb
  refine ⟨?_, ?_, ?_⟩ <;> rintro rfl <;> revert hdigit <;> decide

theorem addr_bytes {addr : Bytes} (h : IsAddr addr) :
    ∀ b ∈ quoted addr, b ≠ 0 ∧ b ≠ 44 ∧ b ≠ 13 := by
  intro b hb
  simp only [quoted, List.cons_append, List.mem_cons, List.mem_append, List.not_mem_nil,
    or_false] at hb
  rcases hb with rfl | hb | rfl
  · decide
  · have hchar := h.2.2 b hb
    refine ⟨?_, ?_, ?_⟩ <;> rintro rfl <;> revert hchar <;> decide
  · decide

theorem rxd_bytes {r : TargetRxd} (h : r.Sent) (len : ℕ) :
    ∀ q ∈ r.print len, ∀ b ∈ q, b ≠ 0 ∧ b ≠ 44 ∧ b ≠ 13 := by
  rcases r with ⟨id, _ | ⟨addr, port⟩⟩ | offset | offset
  case socket.some =>
    have haddr := addr_bytes (h.2 _ rfl).1
    simp only [TargetRxd.print, List.forall_mem_cons]
    exact ⟨ofNat_bytes _, ofNat_bytes _, haddr, ofNat_bytes _, by simp⟩
  all_goals
    simp only [TargetRxd.print, List.forall_mem_cons]
    exact ⟨ofNat_bytes _, ofNat_bytes _, by simp⟩

theorem rxd_noCrlf {r : TargetRxd} (h : r.Sent) (len : ℕ) : NoCrlf (r.text len) := by
  refine noCrlf_of_notMem fun hm => ?_
  have hhead : (13 : UInt8) ∉ bytes r.head := by
    have hheads : ∀ head ∈ ["RXD:", "RXD_SFUSER:", "RXD_SFSYSUSER:"], 13 ∉ bytes head := by
      decide +kernel
    refine hheads r.head ?_
    cases r <;> simp [TargetRxd.head]
  rcases List.mem_append.1 hm with hm | hm
  · exact hhead hm
  · obtain ⟨q, hq, hm⟩ := mem_params hm
    rcases hm with hm | hm
    · exact (rxd_bytes h len q hq 13 hm).2.2 rfl
    · cases hm

/-- What the line of a header begins with. -/
def TargetRxd.header : TargetRxd → String
  | socket .. => "+RXD:"
  | sfuser _ => "+RXD_SFUSER:"
  | sfsysuser _ => "+RXD_SFSYSUSER:"

/-- Its type. -/
def TargetRxd.type : TargetRxd → AtcmdMsgType
  | socket .. => .dataSocket
  | sfuser _ => .dataSfuser
  | sfsysuser _ => .dataSfsysuser

theorem rxd_text (r : TargetRxd) (len : ℕ) :
    43 :: r.text len = bytes r.header ++ params (r.print len) := by
  have hhead : bytes r.header = 43 :: bytes r.head := by
    rcases r with _ | _ | _
    · exact (by decide : bytes "+RXD:" = 43 :: bytes "RXD:")
    · exact (by decide : bytes "+RXD_SFUSER:" = 43 :: bytes "RXD_SFUSER:")
    · exact (by decide : bytes "+RXD_SFSYSUSER:" = 43 :: bytes "RXD_SFSYSUSER:")
  rw [hhead]
  rfl

theorem rxd_type {r : TargetRxd} {len : ℕ} {type : AtcmdMsgType}
    (h : PlusType (43 :: r.text len ++ [13]) type) : type = r.type := by
  have hmem : (r.header, r.type) ∈ infoHeads := by
    cases r <;> simp [TargetRxd.header, TargetRxd.type, infoHeads]
  rw [rxd_text, List.append_assoc] at h
  exact h.eq_of_head r.header hmem (List.prefix_append _ _)

theorem rxd_argv {r : TargetRxd} (h : r.Sent) (len n : ℕ) (hn : (r.print len).length ≤ n) :
    (rxdArgv n r.header (bytes r.header ++ params (r.print len))).1 = some (r.print len) := by
  have hbytes : ∀ q ∈ r.print len, ∀ b ∈ q, b ≠ 0 ∧ b ≠ 44 := fun q hq b hb =>
    ⟨(rxd_bytes h len q hq b hb).1, (rxd_bytes h len q hq b hb).2.1⟩
  have hne : r.print len ≠ [] := by
    rcases r with ⟨id, _ | ⟨addr, port⟩⟩ | offset | offset <;> simp [TargetRxd.print]
  obtain ⟨q, qs, hqs⟩ := List.exists_cons_of_ne_nil hne
  rw [hqs] at hbytes hn ⊢
  exact rxdArgv_line r.header hbytes hn

/-- A header is taken for what was printed if its address fits, and else for none. -/
theorem rxd_heard {r : TargetRxd} {len : ℕ} {s : HostRecv} (h : r.Sent) (hlen : len ≤ 4096)
    (hs : s.type = r.type) :
    ∃ rxd w, s.hear (fun _ => true) (43 :: r.text len) = s.expect (fun _ => true) (rxd, w) ∧
      (r.AddrFits → rxd = some (r.rxd len)) ∧ (¬ r.AddrFits → rxd = none) := by
  have hargv := rxd_argv h len
  rw [rxd_text]
  obtain ⟨l, hl⟩ : ∃ l, l = bytes r.header ++ params (r.print len) := ⟨_, rfl⟩
  rw [← hl] at hargv ⊢
  rcases r with ⟨id, remote⟩ | offset | offset
  · have hear : s.hear (fun _ => true) l = s.expect (fun _ => true) (nrcAtcmdRecvRxd l) := by
      unfold HostRecv.hear
      rw [hs]
      rfl
    refine ⟨(nrcAtcmdRecvRxd l).1, (nrcAtcmdRecvRxd l).2, hear, ?_⟩
    rcases remote with _ | ⟨addr, port⟩
    · have hline := nrcAtcmdRecvRxd_line h.1 (by omega) (hargv 4 (by simp [TargetRxd.print]))
      exact ⟨fun _ => hline, fun hno => absurd (by simp [TargetRxd.AddrFits]) hno⟩
    · obtain ⟨⟨hne, -, -⟩, hport⟩ := h.2 _ rfl
      have hport : port < 2 ^ 16 := hport
      have hline := nrcAtcmdRecvRxd_verbose h.1 (by omega) (by omega) hne
        (hargv 4 (by simp [TargetRxd.print]))
      simp only [TargetRxd.AddrFits, Option.mem_def, Option.some.injEq, forall_eq']
      exact ⟨fun hfit => hline.trans (if_pos hfit), fun hno => hline.trans (if_neg hno)⟩
  · have hear : s.hear (fun _ => true) l = s.expect (fun _ => true) (nrcAtcmdRecvRxdSfuser l) := by
      unfold HostRecv.hear
      rw [hs]
      rfl
    have hline := recvRxdOffset_line .sfuser h (by omega) (hargv 2 (by simp [TargetRxd.print]))
    exact ⟨_, (nrcAtcmdRecvRxdSfuser l).2, hear, fun _ => hline, fun hno => absurd trivial hno⟩
  · have hear : s.hear (fun _ => true) l =
        s.expect (fun _ => true) (nrcAtcmdRecvRxdSfsysuser l) := by
      unfold HostRecv.hear
      rw [hs]
      rfl
    have hline := recvRxdOffset_line .sfsysuser h (by omega) (hargv 2 (by simp [TargetRxd.print]))
    exact ⟨_, (nrcAtcmdRecvRxdSfsysuser l).2, hear, fun _ => hline, fun hno => absurd trivial hno⟩

theorem rxd_wire (r : TargetRxd) (data : Bytes) : TargetMsg.wire strerror (.rxd r data) =
    43 :: r.text data.length ++ [13] ++ [10] ++ data := by
  show [43] ++ r.text data.length ++ [13, 10] ++ data = _
  simp

/-- The line of a header, to its end. -/
theorem header_heard {r : TargetRxd} {len : ℕ} {s : HostRecv} (hs : s.Idle) (h : r.Sent)
    (hlen : len ≤ 4096) (hfits : TargetMsg.TextFits (r.text len)) :
    ∃ rxd, (r.AddrFits → rxd = some (r.rxd len)) ∧ (¬ r.AddrFits → rxd = none) ∧
      ∃ s', (43 :: r.text len ++ [13] ++ [10]).foldl (recvByte fun _ => true) s = s' ∧
        s'.type = .none ∧ s'.msg = [] ∧ s'.rxd = rxd ∧ s'.data = [] ∧ s'.calls = s.calls := by
  obtain ⟨s', htype, hrxd, hdata, hcalls, hlast⟩ :=
    line_heard (fun _ => true) hs (length_of_textFits hfits) (rxd_noCrlf h len)
  obtain ⟨rxd, w, hear, hfit, hno⟩ := rxd_heard h hlen (rxd_type htype)
  refine ⟨rxd, hfit, hno, _, rfl, ?_⟩
  rw [hlast, hear]
  exact ⟨rfl, rfl, rfl, hdata, hcalls⟩

theorem reads_rxd {r : TargetRxd} {data : Bytes} (h : TargetMsg.Sent strerror (.rxd r data))
    (hc : TargetMsg.Clear strerror (.rxd r data)) : ReadsMsg strerror (.rxd r data) := by
  obtain ⟨hsent, hlen, hfits⟩ := h
  obtain ⟨hne, haddr⟩ := hc
  have hpay : ∀ s : HostRecv, s.Idle → InPayload s.calls (r.rxd data.length) []
      ((43 :: r.text data.length ++ [13] ++ [10]).foldl (recvByte fun _ => true) s) := by
    intro s hs
    obtain ⟨rxd, hfit, -, s', hs', htype, hmsg, hrxd, hdata, hcalls⟩ :=
      header_heard hs hsent hlen hfits
    rw [hs']
    exact ⟨htype, hmsg, hrxd.trans (hfit haddr), hdata, hcalls⟩
  have hrlen : (r.rxd data.length).length = data.length := by
    rcases r with ⟨id, _ | ⟨addr, port⟩⟩ | offset | offset <;> rfl
  refine ⟨fun s q hs hq hqne => ?_, fun s hs => ?_, fun s hs => ?_⟩
  · rw [rxd_wire] at hq hqne
    refine congrArg (List.map some) ?_
    rcases List.prefix_or_prefix_of_prefix hq (List.prefix_append _ data) with hpre | hpre
    · rcases List.prefix_concat_iff.1 hpre with rfl | hpre
      · exact (hpay s hs.idle).calls
      · exact line_quiet hs.idle (length_of_textFits hfits) (rxd_noCrlf hsent _) hpre
    · obtain ⟨d, rfl⟩ := hpre
      rw [List.foldl_append]
      exact (payload_heard (hpay s hs.idle) hne hrlen).1 d
        ((List.prefix_append_right_inj _).1 hq) fun hd => hqne (by rw [hd])
  · rw [rxd_wire, List.foldl_append]
    exact ⟨(payload_heard (hpay s hs.idle) hne hrlen).2.1, (hs.short.foldl _).foldl _⟩
  · rw [rxd_wire, List.foldl_append]
    exact told_append (payload_heard (hpay s hs.idle) hne hrlen).2.2

/-! ## Messages that are not -/

/-- A message whose first line tells the host something before its end, or something else. -/
theorem misreads_line {m : TargetMsg} {text u : Bytes}
    (hwire : m.wire strerror = 43 :: text ++ [13] ++ [10] ++ u) (hlen : text.length < 126)
    (hno : NoCrlf text)
    (hear : ∀ s : HostRecv, PlusType (43 :: text ++ [13]) s.type →
      ∃ cs w, s.hear (fun _ => true) (43 :: text) = s.tell (cs, w) ∧ cs ≠ [] ∧
        (u = [] → cs.map some ≠ m.calls strerror)) : MisreadsMsg strerror m := by
  intro s hs
  obtain ⟨s', htype, -, -, hcalls, hlast⟩ := line_heard (fun _ => true) hs.idle hlen hno
  obtain ⟨cs, w, hw, hne, hcs⟩ := hear s' htype
  have htold : told ((43 :: text ++ [13] ++ [10]).foldl (recvByte fun _ => true) s) =
      s.told ++ cs.map some := by
    rw [hlast, hw]
    exact told_append (by rw [← hcalls]; rfl)
  refine ⟨43 :: text ++ [13] ++ [10], hwire ▸ List.prefix_append _ u, ?_⟩
  by_cases hu : u = []
  · refine Or.inr ⟨by rw [hwire, hu, List.append_nil], ?_⟩
    rw [htold]
    exact fun h => hcs hu (List.append_cancel_left h)
  · refine Or.inl ⟨?_, ?_⟩
    · rw [hwire]
      exact fun h => hu (List.self_eq_append_right.1 h)
    · rw [htold]
      simpa using hne

/-- The first end of a line after a text that has no CR in it. -/
theorem exists_first_crlf_after {l t : Bytes} (hl : 13 ∉ l) (h : ¬ NoCrlf (l ++ t)) :
    ∃ x u, t = x ++ 13 :: 10 :: u ∧ NoCrlf (l ++ x) := by
  have happend : ∀ x, NoCrlf x → NoCrlf (l ++ x) := by
    intro x hx
    refine List.isChain_append.2 ⟨noCrlf_of_notMem hl, hx, ?_⟩
    rintro a ha b hb ⟨rfl, rfl⟩
    exact hl (List.mem_of_mem_getLast? ha)
  obtain ⟨x, u, ht, hx⟩ := exists_first_crlf fun ht => h (happend t ht)
  exact ⟨x, u, ht, happend x (noCrlf_mono (List.prefix_append _ _) hx)⟩

theorem boot_heard (x : Bytes) {s : HostRecv} (hs : s.type = .boot) :
    ∃ reason, s.hear (fun _ => true) (43 :: (bytes "BOOT" ++ 58 :: x)) =
      s.tell ([.ret .none, .boot reason], []) := by
  have hboot : 43 :: (bytes "BOOT" ++ 58 :: x) = bytes "+BOOT:" ++ x := rfl
  unfold HostRecv.hear nrcAtcmdRecvBoot
  rw [hs, hboot]
  simp only []
  rw [if_neg (not_not.2 (List.take_left' (by decide)))]
  exact ⟨_, rfl⟩

/-- Parameters that come out with their number have no comma in them. -/
theorem comma_notMem_of_count {q : Bytes} {ps : List Bytes}
    (h : 1 + (params (q :: ps)).count 44 = (q :: ps).length) : ∀ p ∈ q :: ps, 44 ∉ p := by
  obtain ⟨hle, hiff⟩ := count_commas ps
  rw [params_cons, List.count_append, List.length_cons] at h
  refine List.forall_mem_cons.2 ⟨List.count_eq_zero.1 (by omega), hiff.1 (by omega)⟩

theorem noCrlf_of_infix {l l' : Bytes} (h : l <:+: l') (hl : NoCrlf l') : ¬ [13, 10] <:+: l :=
  fun hm => noCrlf_iff.1 hl (hm.trans h)

theorem misreads_info {cmd : Bytes} {ps : List Bytes} (h : TargetMsg.Sent strerror (.info cmd ps))
    (hc : ¬ TargetMsg.Clear strerror (.info cmd ps)) : MisreadsMsg strerror (.info cmd ps) := by
  obtain ⟨hcmd, hne, -, -⟩ := id h
  obtain ⟨q, qs, rfl⟩ := List.exists_cons_of_ne_nil hne
  have hlen := info_length strerror h
  have hcr : 13 ∉ cmd ++ [58] := by
    rw [List.mem_append]
    rintro (hm | hm)
    · exact (command_bytes hcmd 13 hm).2.2 rfl
    · simp at hm
  -- whatever follows the command, something is told; the whole line is told as something else
  have hear : ∀ (x : Bytes) (s : HostRecv), PlusType (43 :: (cmd ++ 58 :: x) ++ [13]) s.type →
      ∃ cs w, s.hear (fun _ => true) (43 :: (cmd ++ 58 :: x)) = s.tell (cs, w) ∧ cs ≠ [] ∧
        (cmd ≠ bytes "BOOT" → cs = [.info cmd (1 + x.count 44)
          (argString x :: (argvLoop (cmd.length + 2) 1 x).argv)]) ∧
        (cmd = bytes "BOOT" → cs.length = 2) := by
    intro x s hs
    have htype := info_type hcmd hs
    by_cases hboot : cmd = bytes "BOOT"
    · rw [if_pos hboot] at htype
      obtain ⟨reason, hreason⟩ := boot_heard x htype
      exact ⟨_, _, hboot ▸ hreason, by simp, fun hno => absurd hboot hno, fun _ => rfl⟩
    · rw [if_neg hboot] at htype
      obtain ⟨w, hw⟩ := info_heard (x := x) hcmd htype
      exact ⟨_, w, hw, by simp, fun _ => rfl, fun hyes => absurd hyes hboot⟩
  by_cases hno : NoCrlf (cmd ++ 58 :: params (q :: qs))
  · refine misreads_line strerror (u := []) (by rw [List.append_nil]; exact info_wire strerror _ _)
      hlen hno fun s hs => ?_
    obtain ⟨cs, w, hw, hcs, hinfo, hboot⟩ := hear _ s hs
    refine ⟨cs, w, hw, hcs, fun _ heq => hc ?_⟩
    have hboot : cmd ≠ bytes "BOOT" := by
      intro hb
      have := congrArg List.length heq
      rw [List.length_map, hboot hb] at this
      cases this
    rw [hinfo hboot] at heq
    simp only [TargetMsg.calls, List.map_cons, List.map_nil, List.cons.injEq, Option.some.injEq,
      HostCall.info.injEq, and_true, true_and] at heq
    obtain ⟨hargc, -, hargv⟩ := heq
    have hten := congrArg List.length hargv
    rw [argvLoop_argv_length] at hten
    refine ⟨hboot, by rw [List.length_cons]; omega,
      fun p hp => ⟨comma_notMem_of_count hargc p hp, ?_⟩⟩
    refine noCrlf_of_infix ((infix_params hp).trans ?_) hno
    exact ⟨cmd ++ [58], [], by simp⟩
  · have happ : cmd ++ 58 :: params (q :: qs) = cmd ++ [58] ++ params (q :: qs) := by simp
    rw [happ] at hno
    obtain ⟨x, u, hx, hnox⟩ := exists_first_crlf_after hcr hno
    have htext : cmd ++ [58] ++ x = cmd ++ 58 :: x := by simp
    rw [htext] at hnox
    rw [hx] at hlen
    have hwire : TargetMsg.wire strerror (.info cmd (q :: qs)) =
        43 :: (cmd ++ 58 :: x) ++ [13] ++ [10] ++ (u ++ [13, 10]) := by
      rw [info_wire, hx]
      simp
    refine misreads_line strerror hwire ?_ hnox fun s hs => ?_
    · simp only [List.length_append, List.length_cons] at hlen ⊢
      omega
    · obtain ⟨cs, w, hw, hcs, -⟩ := hear _ s hs
      exact ⟨cs, w, hw, hcs, fun hu => absurd hu (by simp)⟩

theorem misreads_event {e : TargetEvent} (h : TargetMsg.Sent strerror (.event e))
    (hc : ¬ TargetMsg.Clear strerror (.event e)) : MisreadsMsg strerror (.event e) := by
  rcases hname : AtcmdEvent.ofName (bytes (e.print strerror).1) with _ | ev
  · -- no call is what the host should be told
    intro s hs
    refine ⟨_, List.prefix_rfl, Or.inr ⟨rfl, fun heq => ?_⟩⟩
    have hcalls : TargetMsg.calls strerror (.event e) = [none] := by
      unfold TargetMsg.calls
      simp only [hname]
    have hmem : none ∈ told ((TargetMsg.wire strerror (.event e)).foldl
        (recvByte fun _ => true) s) := by simp [heq, hcalls]
    simp [told] at hmem
  have hlen := event_length strerror h
  have hcr : 13 ∉ bytes e.head ++ quoted (bytes (e.print strerror).1) := by
    obtain ⟨-, -, hname⟩ := targetNames_plain _ (print_mem strerror e).1
    simp only [quoted, List.mem_append, List.cons_append, List.mem_cons, List.not_mem_nil,
      or_false, not_or]
    exact ⟨(event_head e).2.1, by decide, fun hm => (hname 13 hm).2.2 rfl, by decide⟩
  by_cases hno : NoCrlf (bytes e.head ++ (quoted (bytes (e.print strerror).1) ++
      (e.print strerror).2.flatMap (44 :: ·)))
  · refine misreads_line strerror (u := [])
      (by rw [List.append_nil]; exact event_wire strerror e) hlen hno fun s hs => ?_
    obtain ⟨i, w, hw⟩ := event_heard strerror hname (flatMap_comma_head _) (event_type hs)
    refine ⟨_, w, hw, by simp [eventCalls], fun _ heq => hc ⟨by simp [hname], fun p hp => ?_⟩⟩
    rw [← calls_event strerror hname] at heq
    have hcalls := List.map_injective_iff.2 (Option.some_injective _) heq
    have hcount := List.append_cancel_left hcalls
    simp only [List.cons.injEq, HostCall.event.injEq, true_and, and_true] at hcount
    refine ⟨(count_commas _).2.1 hcount.1 p hp, noCrlf_of_infix ?_ hno⟩
    obtain ⟨l, t, hlt⟩ := List.append_of_mem hp
    rw [hlt]
    exact ⟨bytes e.head ++ (quoted (bytes (e.print strerror).1) ++ (l.flatMap (44 :: ·) ++ [44])),
      t.flatMap (44 :: ·), by simp⟩
  · rw [← List.append_assoc] at hno
    obtain ⟨x, u, hx, hnox⟩ := exists_first_crlf_after hcr hno
    rw [List.append_assoc] at hnox
    have hhead : x = [] ∨ x.head? = some 44 := by
      rcases x with _ | ⟨b, x⟩
      · exact Or.inl rfl
      · rcases flatMap_comma_head (e.print strerror).2 with hnil | hb
        · rw [hnil] at hx
          cases hx
        · rw [hx] at hb
          exact Or.inr hb
    rw [hx] at hlen
    have hwire : TargetMsg.wire strerror (.event e) = 43 :: (bytes e.head ++
        (quoted (bytes (e.print strerror).1) ++ x)) ++ [13] ++ [10] ++ (u ++ [13, 10]) := by
      rw [event_wire, hx]
      simp
    refine misreads_line strerror hwire ?_ hnox fun s hs => ?_
    · simp only [List.length_append, List.length_cons] at hlen ⊢
      omega
    · obtain ⟨i, w, hw⟩ := event_heard strerror hname hhead (event_type hs)
      exact ⟨_, w, hw, by simp [eventCalls], fun hu => absurd hu (by simp)⟩

theorem misreads_rxd {r : TargetRxd} {data : Bytes} (h : TargetMsg.Sent strerror (.rxd r data))
    (hc : ¬ TargetMsg.Clear strerror (.rxd r data)) : MisreadsMsg strerror (.rxd r data) := by
  obtain ⟨hsent, hlen, hfits⟩ := h
  intro s hs
  refine ⟨_, List.prefix_rfl, Or.inr ⟨rfl, fun heq => ?_⟩⟩
  by_cases hne : data = []
  · -- an empty payload is not told with its header
    obtain ⟨rxd, -, -, s', hs', -, -, -, -, hcalls⟩ := header_heard hs.idle hsent hlen hfits
    rw [rxd_wire, List.foldl_append, hs', hne] at heq
    have hlength := congrArg List.length heq
    simp [told, hcalls, TargetMsg.calls] at hlength
  · -- an address that does not fit is in no call
    have haddr : ¬ r.AddrFits := fun haddr => hc ⟨hne, haddr⟩
    rcases r with ⟨id, _ | ⟨addr, port⟩⟩ | offset | offset
    case socket.some =>
      have hlong : ¬ addr.length ≤ 43 := by simpa [TargetRxd.AddrFits] using haddr
      have hmem : some (HostCall.rxd (.socket data.length id (quoted addr) port true) data) ∈
          told ((TargetMsg.wire strerror (.rxd (.socket id (some (addr, port))) data)).foldl
            (recvByte fun _ => true) s) := by
        rw [heq]
        exact List.mem_append_right _ (List.mem_singleton.2 rfl)
      obtain ⟨c, hcall, hsome⟩ := List.mem_map.1 hmem
      cases hsome
      have hshort : (quoted addr).length ≤ 45 := (hs.short.foldl _).calls _ hcall
      simp only [quoted, List.cons_append, List.length_cons, List.length_append,
        List.length_nil] at hshort
      omega
    case socket.none => exact haddr (by simp [TargetRxd.AddrFits])
    all_goals exact haddr trivial

/-! ## Streams of messages -/

theorem readsMsg_of_clear {m : TargetMsg} (h : m.Sent strerror) (hc : m.Clear strerror) :
    ReadsMsg strerror m := by
  cases m with
  | ok => exact reads_ok strerror
  | error => exact reads_error strerror
  | info cmd ps => exact reads_info strerror h hc
  | event e => exact reads_event strerror h hc
  | rxd r data => exact reads_rxd strerror h hc

theorem misreadsMsg_of_not_clear {m : TargetMsg} (h : m.Sent strerror) (hc : ¬ m.Clear strerror) :
    MisreadsMsg strerror m := by
  cases m with
  | ok => exact absurd trivial hc
  | error => exact absurd trivial hc
  | info cmd ps => exact misreads_info strerror h hc
  | event e => exact misreads_event strerror h hc
  | rxd r data => exact misreads_rxd strerror h hc

theorem wire_ne_nil (m : TargetMsg) : m.wire strerror ≠ [] := by
  cases m with
  | ok => exact (by decide : bytes "OK\r\n" ≠ [])
  | error => exact (by decide : bytes "ERROR\r\n" ≠ [])
  | info cmd ps => rw [info_wire]; simp
  | event e => rw [event_wire]; simp
  | rxd r data => rw [rxd_wire]; simp

/-- However the stream is cut, the host was told, at every byte, of the messages that are complete
by then and of nothing else, exactly when all of them are clear. -/
theorem nrc_atcmd_recv_told_iff (ms : List TargetMsg) (h : ∀ m ∈ ms, m.Sent strerror) :
    (∀ chunks : List Bytes, chunks.flatten <+: Frames.stream (TargetMsg.wire strerror) ms →
      (chunks.foldl (fun s buf => nrcAtcmdRecv (fun _ => true) buf s) .boot).told =
        Frames.delivered (TargetMsg.wire strerror) (TargetMsg.calls strerror) ms
          chunks.flatten.length) ↔
      ∀ m ∈ ms, m.Clear strerror := by
  have hboot : Listening .boot := ⟨⟨rfl, rfl, rfl, rfl⟩, ⟨by simp [boot], by simp [boot]⟩⟩
  have hsaid := Frames.said_iff (wire_ne_nil strerror) ms
    (fun m hm hc => readsMsg_of_clear strerror (h m hm) hc)
    (fun m hm hc => misreadsMsg_of_not_clear strerror (h m hm) hc) .boot hboot
  rw [← hsaid]
  constructor
  · intro hchunks p hp
    have hone := hchunks [p] (by simpa using hp)
    rw [nrcAtcmdRecv_chunks, List.flatten_cons, List.flatten_nil, List.append_nil] at hone
    exact hone
  · intro hp chunks hchunks
    rw [nrcAtcmdRecv_chunks]
    exact hp _ hchunks

/-- A return, information, an event, and a payload that looks like a return. -/
theorem nrc_atcmd_recv_told_iff_rxd :
    let ms : List TargetMsg := [.info (bytes "SRECVMODE") [bytes "1", bytes "0"], .ok,
      .event (.socket (.recvReady 1 6)), .rxd (.socket 1 none) (bytes "\r\nOK\r\n")]
    (∀ chunks : List Bytes,
      chunks.flatten <+: Frames.stream (TargetMsg.wire fun _ => bytes "error") ms →
      (chunks.foldl (fun s buf => nrcAtcmdRecv (fun _ => true) buf s) .boot).told =
        Frames.delivered (TargetMsg.wire fun _ => bytes "error")
          (TargetMsg.calls fun _ => bytes "error") ms chunks.flatten.length) ↔
      ∀ m ∈ ms, m.Clear fun _ => bytes "error" := by
  refine nrc_atcmd_recv_told_iff (fun _ => bytes "error") _ ?_
  simp only [List.forall_mem_cons]
  refine ⟨⟨by decide +kernel, by decide, by decide +kernel, ?_⟩, trivial, ⟨?_, ?_⟩,
    ⟨⟨by decide, by simp⟩, by decide +kernel, ?_⟩, by simp⟩
  · unfold TargetMsg.TextFits; decide +kernel
  · decide +kernel
  · unfold TargetMsg.TextFits; decide +kernel
  · unfold TargetMsg.TextFits; decide +kernel

/-- The host has no name for the end of a transfer. -/
theorem nrc_atcmd_recv_untold :
    let ms : List TargetMsg := [.event (.socket (.sendDone 1 10))]
    (nrcAtcmdRecv (fun _ => true) (Frames.stream (TargetMsg.wire fun _ => []) ms) .boot).told ≠
      Frames.delivered (TargetMsg.wire fun _ => []) (TargetMsg.calls fun _ => []) ms
        (Frames.stream (TargetMsg.wire fun _ => []) ms).length := by
  decide +kernel

end NrcAtcmd
