import Mathlib.Data.List.Induction
import NrcAtcmd.HostRecv

/-!
# The host stores inside its buffers but for the lines with too many arguments

The line buffer is safe as a message is given up before it is full, so what is left are the loops
over the arguments and the payload. Each loop stores what the number of commas says, by recursion
over the text.
-/

namespace NrcAtcmd

/-! ## The loops -/

theorem storesAt_inside {buf : HostBuf} {i n : ℕ} (h : i + n ≤ buf.size) :
    ∀ w ∈ storesAt buf i n, w.Inside := by
  intro w hw
  simp only [storesAt, List.mem_map, List.mem_range] at hw
  obtain ⟨k, hk, rfl⟩ := hw
  show i + k < buf.size
  omega

theorem argString_length_le (s : Bytes) : (argString s).length ≤ s.length :=
  (List.takeWhile_sublist _).length_le

theorem argvLoop_argc : ∀ (t : Bytes) (i argc : ℕ),
    (argvLoop i argc t).argc = argc + t.count 44
  | [], _, _ => by simp [argvLoop]
  | b :: t, i, argc => by
    unfold argvLoop
    by_cases hb : b = 44
    · subst hb
      have ih := argvLoop_argc t (i + 1) (argc + 1)
      simp only [↓reduceIte, List.count_cons_self]
      split_ifs <;> simp only [ih] <;> omega
    · rw [if_neg hb, argvLoop_argc t (i + 1) argc, List.count_cons_of_ne hb]

theorem argvLoop_argv_length : ∀ (t : Bytes) (i argc : ℕ),
    (argvLoop i argc t).argv.length = min (t.count 44) (10 - argc)
  | [], _, _ => by simp [argvLoop]
  | b :: t, i, argc => by
    unfold argvLoop
    by_cases hb : b = 44
    · subst hb
      have ih := argvLoop_argv_length t (i + 1) (argc + 1)
      simp only [↓reduceIte, List.count_cons_self]
      split_ifs <;> simp only [List.length_cons, ih] <;> omega
    · rw [if_neg hb, argvLoop_argv_length t (i + 1) argc, List.count_cons_of_ne hb]

/-- The loop does not store where there is no room. -/
theorem argvLoop_stores : ∀ (t : Bytes) (i argc : ℕ), i + t.length ≤ 129 →
    ∀ w ∈ (argvLoop i argc t).stores, w.Inside
  | [], _, _, _ => by simp [argvLoop]
  | b :: t, i, argc, hi => by
    rw [List.length_cons] at hi
    have hmsg : (Store.mk .msg i).Inside := by
      show i < 129
      omega
    unfold argvLoop
    split_ifs with hb hroom
    · intro w hw
      simp only [List.mem_cons] at hw
      rcases hw with rfl | rfl | hw
      · exact hmsg
      · exact hroom
      · exact argvLoop_stores t (i + 1) (argc + 1) (by omega) w hw
    · intro w hw
      simp only [List.mem_cons] at hw
      rcases hw with rfl | hw
      · exact hmsg
      · exact argvLoop_stores t (i + 1) (argc + 1) (by omega) w hw
    · exact argvLoop_stores t (i + 1) argc (by omega)

/-- The loop looks for room one comma too late. -/
theorem rxdLoop_stores {n : ℕ} : ∀ (t : Bytes) (i argc : ℕ), i + t.length ≤ 129 → argc ≤ n →
    ((∀ w ∈ (rxdLoop n i argc t).2, w.Inside) ↔ argc + (cString t).count 44 ≤ n)
  | [], _, _, _, hn => by simpa [rxdLoop, cString] using hn
  | b :: t, i, argc, hi, hn => by
    rw [List.length_cons] at hi
    unfold rxdLoop
    by_cases h0 : b = 0
    · subst h0
      simpa [cString] using hn
    have hc : cString (b :: t) = b :: cString t := by simp [cString, h0]
    rw [if_neg h0, if_neg (by omega), hc]
    by_cases hb : b = 44
    · subst hb
      have hmsg : (Store.mk .msg i).Inside := by
        show i < 129
        omega
      simp only [↓reduceIte, List.forall_mem_cons, List.count_cons_self]
      by_cases hroom : argc < n
      · rw [rxdLoop_stores t (i + 1) (argc + 1) (by omega) hroom]
        constructor
        · rintro ⟨-, -, h⟩
          omega
        · intro h
          exact ⟨hmsg, hroom, by omega⟩
      · constructor
        · rintro ⟨-, h, -⟩
          exact absurd h hroom
        · intro h
          omega
    · rw [if_neg hb, rxdLoop_stores t (i + 1) argc (by omega) hn, List.count_cons_of_ne hb]

/-! ## The parsers -/

theorem nrcAtcmdRecvInfo_stores {msg : Bytes} (h : msg.length ≤ 128) :
    ∀ w ∈ (nrcAtcmdRecvInfo msg).2, w.Inside := by
  unfold nrcAtcmdRecvInfo
  split
  · simp
  · rename_i i hi
    have hlt : i < msg.length := by
      obtain ⟨hlt, -⟩ := List.findIdx?_eq_some_iff_getElem.1 hi
      exact hlt.trans_le (List.takeWhile_sublist _).length_le
    intro w hw
    simp only [List.mem_cons] at hw
    rcases hw with rfl | rfl | hw
    · show i < 129
      omega
    · show 0 < 10
      omega
    · refine argvLoop_stores _ _ _ ?_ w hw
      rw [List.length_drop]
      omega

theorem nrcAtcmdRecvInfo_calls (mem : Bool) (msg : Bytes) :
    (∀ c ∈ (nrcAtcmdRecvInfo msg).1, c.Stored) ↔ ¬ LineOverruns mem .info msg := by
  unfold nrcAtcmdRecvInfo LineOverruns
  split
  · rename_i h
    simp [h]
  · rename_i i hi
    simp only [List.forall_mem_singleton, HostCall.Stored, argvLoop_argc, List.length_cons,
      argvLoop_argv_length, hi, Option.mem_def, Option.some.injEq, exists_eq_left']
    omega

theorem nrcAtcmdParamToStr_length {param str : Bytes} {len : ℕ}
    (h : nrcAtcmdParamToStr param len = some str) : str.length + 2 ≤ param.length := by
  unfold nrcAtcmdParamToStr at h
  split_ifs at h with h0 h1 h2
  simp only [Option.some.injEq] at h
  rw [← h, List.length_take, List.length_drop]
  omega

theorem eventName_stores {argv0 : Bytes} (h : argv0.length ≤ 120) :
    ∀ w ∈ (eventName argv0).2, w.Inside := by
  unfold eventName
  rcases hs : nrcAtcmdParamToStr argv0 argv0.length with _ | str
  · have htcp : ∀ w ∈ storesAt .msg 8 11, w.Inside := storesAt_inside (by decide)
    simp only [List.nil_append]
    split_ifs
    · exact htcp
    · simp
  · have hl := nrcAtcmdParamToStr_length hs
    have hstr : ∀ w ∈ storesAt .msg 8 (str.length + 1), w.Inside := storesAt_inside (by
      show 8 + (str.length + 1) ≤ 129
      omega)
    have htcp : ∀ w ∈ storesAt .msg 8 11, w.Inside := storesAt_inside (by decide)
    simp only []
    split_ifs
    · exact List.forall_mem_append.2 ⟨hstr, htcp⟩
    · exact hstr

/-- What is told of an event, where the host has one of the name. -/
theorem nrcAtcmdRecvEvent_told (msg : Bytes) :
    ∃ argv, argv.length = min ((msg.drop 8).count 44) 9 ∧ (nrcAtcmdRecvEvent msg).1 =
      match AtcmdEvent.ofName (eventName (argString (msg.drop 8))).1 with
      | none => []
      | some e => (if e = .deepsleepWakeup then [.ret .none] else []) ++
          [.event e ((msg.drop 8).count 44) argv] := by
  refine ⟨if argString (msg.drop 8) = bytes "TCP_ERROR" then
    (argvLoop 8 1 (msg.drop 8)).argv.modifyHead fun _ => [] else
    (argvLoop 8 1 (msg.drop 8)).argv, ?_, ?_⟩
  · split_ifs <;> simp [argvLoop_argv_length]
  · unfold nrcAtcmdRecvEvent
    simp only []
    rcases AtcmdEvent.ofName (eventName (argString (msg.drop 8))).1 with _ | e
    · rfl
    · cases e <;> simp [argvLoop_argc]

theorem nrcAtcmdRecvEvent_calls {mem : Bool} {type : AtcmdMsgType} (msg : Bytes)
    (ht : type = .bevent ∨ type = .wevent ∨ type = .sevent) :
    (∀ c ∈ (nrcAtcmdRecvEvent msg).1, c.Stored) ↔ ¬ LineOverruns mem type msg := by
  have hl : LineOverruns mem type msg ↔
      (AtcmdEvent.ofName (eventName (argString (msg.drop 8))).1).isSome ∧
        10 ≤ (msg.drop 8).count 44 := by
    rcases ht with rfl | rfl | rfl <;> rfl
  obtain ⟨argv, hargv, hcalls⟩ := nrcAtcmdRecvEvent_told msg
  rw [hl, hcalls]
  rcases AtcmdEvent.ofName (eventName (argString (msg.drop 8))).1 with _ | e
  · simp
  · have hret : ∀ c ∈ (if e = .deepsleepWakeup then [HostCall.ret .none] else []), c.Stored := by
      split_ifs <;> simp [HostCall.Stored]
    simp only [List.forall_mem_append, List.forall_mem_singleton, HostCall.Stored, hargv,
      Option.isSome_some, true_and]
    constructor
    · rintro ⟨-, h⟩
      omega
    · intro h
      exact ⟨hret, by omega⟩

theorem nrcAtcmdRecvEvent_stores {msg : Bytes} (h : msg.length ≤ 128) :
    ∀ w ∈ (nrcAtcmdRecvEvent msg).2, w.Inside := by
  have hw : (nrcAtcmdRecvEvent msg).2 = ⟨.argv 10, 0⟩ :: (argvLoop 8 1 (msg.drop 8)).stores ++
      (eventName (argString (msg.drop 8))).2 := by
    unfold nrcAtcmdRecvEvent
    simp only []
    split <;> rfl
  have hlen := argString_length_le (msg.drop 8)
  rw [List.length_drop] at hlen
  have harg : (Store.mk (.argv 10) 0).Inside := by
    show 0 < 10
    omega
  rw [hw]
  refine List.forall_mem_append.2 ⟨?_, eventName_stores (by omega)⟩
  by_cases h8 : 8 ≤ msg.length
  · refine List.forall_mem_cons.2 ⟨harg, argvLoop_stores _ _ _ ?_⟩
    rw [List.length_drop]
    omega
  · rw [List.drop_eq_nil_of_le (by omega)]
    simpa [argvLoop] using harg

theorem rxdArgv_stores {n : ℕ} {head : String} {msg : Bytes} (hn : 1 ≤ n) (h : msg.length ≤ 128) :
    (∀ w ∈ (rxdArgv n head msg).2, w.Inside) ↔ ¬ RxdOverruns n head msg := by
  unfold rxdArgv RxdOverruns
  split_ifs with hh
  · simp [hh]
  · have hh := not_not.1 hh
    have hlen : (bytes head).length ≤ msg.length := by
      rw [← hh]
      exact (List.length_take_le' _ _)
    have hloop := rxdLoop_stores (n := n) (msg.drop (bytes head).length) (bytes head).length 1
      (by rw [List.length_drop]; omega) hn
    simp only [List.forall_mem_cons, hloop, hh, true_and]
    constructor
    · rintro ⟨-, h⟩
      omega
    · intro h
      exact ⟨hn, by omega⟩

/-- The stores besides those of the loop are of an address, as long as there is room for. -/
theorem nrcAtcmdRecvRxd_stores {msg : Bytes} (h : msg.length ≤ 128) :
    (∀ w ∈ (nrcAtcmdRecvRxd msg).2, w.Inside) ↔ ¬ RxdOverruns 4 "+RXD:" msg := by
  have hany : ∀ w ∈ storesAt .remoteAddr 0 8, w.Inside := storesAt_inside (by decide)
  rw [← rxdArgv_stores (by omega) h]
  unfold nrcAtcmdRecvRxd
  rcases rxdArgv 4 "+RXD:" msg with ⟨argv, w⟩
  have hw : (∀ v ∈ storesAt .remoteAddr 0 8 ++ w, v.Inside) ↔ ∀ v ∈ w, v.Inside := by
    rw [List.forall_mem_append]
    exact and_iff_right hany
  simp only []
  split
  · split_ifs <;> exact hw
  · rename_i id length addr port
    split_ifs with h0 hlen
    · exact hw
    · exact hw
    all_goals
      have haddr : ∀ v ∈ storesAt .remoteAddr 0 (addr.length + 1), v.Inside :=
        storesAt_inside (by show 0 + (addr.length + 1) ≤ 46; omega)
      rw [List.forall_mem_append, hw]
      exact and_iff_left haddr
  · exact hw

theorem recvRxdOffset_stores {head : String} {rxd : ℤ → ℤ → AtcmdRxd} {msg : Bytes}
    (h : msg.length ≤ 128) :
    (∀ w ∈ (recvRxdOffset head rxd msg).2, w.Inside) ↔ ¬ RxdOverruns 2 head msg := by
  rw [← rxdArgv_stores (by omega) h]
  unfold recvRxdOffset
  rcases rxdArgv 2 head msg with ⟨argv, w⟩
  simp only []
  split
  · split_ifs <;> rfl
  · rfl

/-! ## The bytes -/

/-- What a `+` line begins with where it is not information. -/
def infoHeads : List (String × AtcmdMsgType) :=
  [("+BOOT:", .boot), ("+BEVENT:", .bevent), ("+WEVENT:", .wevent), ("+SEVENT:", .sevent),
    ("+RXD:", .dataSocket), ("+RXD_SFUSER:", .dataSfuser), ("+RXD_SFSYSUSER:", .dataSfsysuser)]

theorem infoType_eq_some {msg : Bytes} {type : AtcmdMsgType} :
    infoType msg = some type ↔ ∃ head, (head, type) ∈ infoHeads ∧ bytes head = msg := by
  constructor
  · intro h
    unfold infoType at h
    split_ifs at h <;> simp only [Option.some.injEq] at h <;> subst h <;>
      simp_all [infoHeads]
  · rintro ⟨head, hmem, rfl⟩
    simp only [infoHeads, List.mem_cons, Prod.mk.injEq, List.not_mem_nil, or_false] at hmem
    rcases hmem with ⟨rfl, rfl⟩ | ⟨rfl, rfl⟩ | ⟨rfl, rfl⟩ | ⟨rfl, rfl⟩ | ⟨rfl, rfl⟩ | ⟨rfl, rfl⟩ |
      ⟨rfl, rfl⟩ <;> decide

namespace HostRecv

variable {malloc : ℕ → Bool} {s : HostRecv}

theorem safe_tell (p : List HostCall × List Store) :
    (s.tell p).Safe ↔ s.Safe ∧ (∀ w ∈ p.2, w.Inside) ∧ ∀ c ∈ p.1, c.Stored := by
  constructor
  · intro h
    have hw := List.forall_mem_append.1 h.stores
    have hc := List.forall_mem_append.1 h.calls
    exact ⟨⟨hw.1, hc.1⟩, hw.2, hc.2⟩
  · rintro ⟨h, hw, hc⟩
    exact ⟨List.forall_mem_append.2 ⟨h.stores, hw⟩, List.forall_mem_append.2 ⟨h.calls, hc⟩⟩

theorem safe_store (w : Store) : (s.store w).Safe ↔ s.Safe ∧ w.Inside := by
  constructor
  · intro h
    have hw := List.forall_mem_append.1 h.stores
    exact ⟨⟨hw.1, h.calls⟩, hw.2 w (List.mem_singleton_self w)⟩
  · rintro ⟨h, hw⟩
    exact ⟨List.forall_mem_append.2 ⟨h.stores, by simpa using hw⟩, h.calls⟩

theorem safe_expect (p : Option AtcmdRxd × List Store) :
    (s.expect malloc p).Safe ↔ s.Safe ∧ (malloc s.allocs = true → ∀ w ∈ p.2, w.Inside) := by
  unfold expect
  simp only []
  split_ifs with hm
  · constructor
    · intro h
      have hw := List.forall_mem_append.1 h.stores
      exact ⟨⟨hw.1, h.calls⟩, fun _ => hw.2⟩
    · rintro ⟨h, hw⟩
      exact ⟨List.forall_mem_append.2 ⟨h.stores, hw hm⟩, h.calls⟩
  · constructor
    · intro h
      exact ⟨⟨h.stores, h.calls⟩, fun hm' => absurd hm' hm⟩
    · rintro ⟨h, -⟩
      exact ⟨h.stores, h.calls⟩

/-- What is said of a line is safe as far as there is room for its arguments. -/
theorem safe_hear {msg : Bytes} (h : msg.length ≤ 128) :
    (s.hear malloc msg).Safe ↔ s.Safe ∧ ¬ LineOverruns (malloc s.allocs) s.type msg := by
  unfold hear
  split <;> rename_i ht <;> rw [ht]
  case h_1 | h_2 => simp [safe_tell, LineOverruns, HostCall.Stored]
  case h_3 =>
    rw [safe_tell, ← nrcAtcmdRecvInfo_calls]
    have := nrcAtcmdRecvInfo_stores h
    tauto
  case h_4 =>
    rw [safe_tell]
    have hb : ∀ c ∈ nrcAtcmdRecvBoot msg, c.Stored := by
      unfold nrcAtcmdRecvBoot
      split_ifs <;> simp [HostCall.Stored]
    simpa [LineOverruns] using fun _ => hb
  case h_5 | h_6 | h_7 =>
    rw [safe_tell, ← nrcAtcmdRecvEvent_calls _ (by simp)]
    have := nrcAtcmdRecvEvent_stores h
    tauto
  case h_8 =>
    rw [safe_expect, nrcAtcmdRecvRxd_stores h]
    unfold LineOverruns
    tauto
  case h_9 | h_10 =>
    first
    | rw [safe_expect, nrcAtcmdRecvRxdSfuser, recvRxdOffset_stores h]
    | rw [safe_expect, nrcAtcmdRecvRxdSfsysuser, recvRxdOffset_stores h]
    unfold LineOverruns
    tauto
  case h_11 => simp [LineOverruns]

theorem hear_data (msg : Bytes) : (s.hear malloc msg).data = s.data := by
  unfold hear expect
  simp only []
  split <;> (try split_ifs) <;> rfl

theorem safe_keep (type : AtcmdMsgType) (msg : Bytes) : (s.keep type msg).Safe ↔ s.Safe :=
  ⟨fun h => ⟨h.stores, h.calls⟩, fun h => ⟨h.stores, h.calls⟩⟩

theorem safe_giveUp : s.giveUp.Safe ↔ s.Safe := by
  unfold giveUp
  split_ifs
  · rw [safe_keep, safe_store]
    exact and_iff_left (by decide : 128 < 129)
  · rfl

theorem storeByte_eq {b : UInt8} (h : s.type ≠ .none) :
    s.storeByte b = (s.store ⟨.msg, s.msg.length⟩).keep s.type (s.msg ++ [b]) := by
  unfold storeByte
  simp only []
  rw [if_neg fun hn => h hn.1]

theorem safe_storeByte {b : UInt8} (h : s.msg.length < 128) :
    (s.storeByte b).Safe ↔ s.Safe := by
  have hmsg : (Store.mk .msg s.msg.length).Inside := by
    show s.msg.length < 129
    omega
  have hzero : (Store.mk .msg 0).Inside := by
    show 0 < 129
    omega
  unfold storeByte
  simp only []
  split_ifs
  · rw [safe_keep, safe_store, safe_keep, safe_store, and_iff_left hzero, and_iff_left hmsg]
  · rw [safe_keep, safe_store, and_iff_left hmsg]

theorem storeByte_type (b : UInt8) : (s.storeByte b).type = s.type := by
  unfold storeByte
  simp only []
  split_ifs <;> rfl

theorem storeByte_length (b : UInt8) : (s.storeByte b).msg.length ≤ s.msg.length + 1 := by
  unfold storeByte
  simp only []
  split_ifs <;> simp [keep]

theorem giveUp_length : s.giveUp.msg.length < 128 := by
  unfold giveUp
  split_ifs with h
  · show 0 < 128
    omega
  · simpa using h

theorem safe_endLine (h : s.msg.length ≤ 128) :
    (s.endLine malloc).Safe ↔
      s.Safe ∧ ¬ LineOverruns (malloc s.allocs) s.type (s.msg.take (s.msg.length - 2)) := by
  have hl : (s.msg.take (s.msg.length - 2)).length ≤ 128 :=
    (List.length_take_le' _ _).trans h
  have hw : (Store.mk .msg (s.msg.take (s.msg.length - 2)).length).Inside := by
    show (s.msg.take (s.msg.length - 2)).length < 129
    omega
  unfold endLine
  simp only []
  rw [safe_keep, safe_hear hl, safe_store, and_iff_left hw]
  rfl

/-- No header ends with a line feed. -/
theorem infoType_lf {msg : Bytes} (h : msg.getLast? = some 10) : infoType msg = none := by
  rcases ht : infoType msg with _ | type
  · rfl
  · obtain ⟨head, hmem, rfl⟩ := infoType_eq_some.1 ht
    have hlast : ∀ p ∈ infoHeads, (bytes p.1).getLast? = some 58 := by decide
    rw [hlast _ hmem] at h
    cases h

theorem recvType_length {type type' : AtcmdMsgType} {msg msg' : Bytes}
    (h : recvType type msg = some (type', msg')) : msg'.length ≤ msg.length := by
  unfold recvType at h
  split at h
  iterate 3
    split_ifs at h <;> simp only [Option.some.injEq, Prod.mk.injEq] at h <;> simp [← h.2]
  · obtain ⟨t, -, h⟩ := Option.map_eq_some_iff.1 h
    simp only [Prod.mk.injEq] at h
    simp [← h.2]
  · cases h

theorem suffix_crlf {msg : Bytes} {b : UInt8} :
    [13, 10] <:+ msg ++ [b] ↔ b = 10 ∧ msg.getLast? = some 13 := by
  rw [show ([13, 10] : Bytes) = [13] ++ [10] from rfl, List.suffix_concat_iff]
  constructor
  · rintro (h | ⟨t, ht, hs⟩)
    · simp at h
    · obtain ⟨rfl, hb⟩ := List.append_inj' ht rfl
      simp only [List.cons.injEq, and_true] at hb
      obtain ⟨u, rfl⟩ := hs
      exact ⟨hb.symm, by simp⟩
  · rintro ⟨rfl, h⟩
    refine Or.inr ⟨[13], rfl, ?_⟩
    obtain ⟨u, rfl⟩ := List.getLast?_eq_some_iff.1 h
    exact List.suffix_append _ _

theorem safe_recvMsg (b : UInt8) :
    (s.recvMsg malloc b).Safe ↔ s.Safe ∧ ¬ s.EndOverruns malloc b := by
  have hg := giveUp_length (s := s)
  have hst : (s.giveUp.storeByte b).Safe ↔ s.Safe := by rw [safe_storeByte hg, safe_giveUp]
  have hlen : (s.giveUp.storeByte b).msg.length ≤ 128 := by
    have := storeByte_length (s := s.giveUp) b
    omega
  unfold recvMsg
  simp only []
  by_cases hnone : s.giveUp.type = .none
  · -- the first byte of a line does not end it
    have hty : (s.giveUp.storeByte b).type = .none := (storeByte_type b).trans hnone
    have hover : ¬ s.EndOverruns malloc b := by
      rintro ⟨-, -, hl, h⟩
      rw [giveUp, if_neg (by omega)] at hnone
      rw [hnone] at h
      exact h
    rw [and_iff_left hover, hty]
    unfold recvType
    simp only []
    split_ifs <;> rwa [safe_keep]
  · have hl : s.msg.length < 128 := by
      by_contra hl
      rw [giveUp, if_pos (by omega)] at hnone
      exact hnone rfl
    have hgive : s.giveUp = s := by rw [giveUp, if_neg (by omega)]
    rw [hgive] at hnone hst hlen ⊢
    have hmsg : (s.storeByte b).msg = s.msg ++ [b] := by rw [storeByte_eq hnone]; rfl
    have hall : (s.storeByte b).allocs = s.allocs := by rw [storeByte_eq hnone]; rfl
    have hcut : (s.msg ++ [b]).take ((s.msg ++ [b]).length - 2) = s.msg.dropLast := by
      rw [List.length_append, List.length_singleton, List.dropLast_eq_take,
        List.take_append_of_le_length (by omega)]
      rfl
    rcases hr : recvType (s.storeByte b).type (s.storeByte b).msg with _ | ⟨type, msg⟩
    · simp only [hmsg, suffix_crlf]
      split_ifs with hend
      · rw [safe_endLine hlen, hst, hmsg, hcut, hall, storeByte_type]
        unfold EndOverruns
        tauto
      · rw [hst]
        unfold EndOverruns
        tauto
    · have hover : ¬ s.EndOverruns malloc b := by
        rintro ⟨rfl, -, -, h⟩
        rw [storeByte_type, hmsg] at hr
        have hinfo : infoType (s.msg ++ [10]) = none := infoType_lf (by simp)
        rcases ht : s.type <;> rw [ht] at hr h
        all_goals
          first
          | exact h
          | simp [recvType, hinfo] at hr
      rw [and_iff_left hover]
      rwa [safe_keep]

theorem recvMsg_length (b : UInt8) : (s.recvMsg malloc b).msg.length ≤ 128 := by
  have hg := giveUp_length (s := s)
  have hl := storeByte_length (s := s.giveUp) b
  unfold recvMsg
  simp only []
  split
  · rename_i type msg hr
    have := recvType_length hr
    show msg.length ≤ 128
    omega
  · split_ifs
    · exact Nat.zero_le _
    · omega

theorem recvMsg_data (b : UInt8) : (s.recvMsg malloc b).data = s.data := by
  have hst : (s.giveUp.storeByte b).data = s.data := by
    unfold storeByte giveUp
    simp only []
    split_ifs <;> rfl
  unfold recvMsg endLine
  simp only []
  split
  · exact hst
  · split_ifs
    · exact (hear_data _).trans hst
    · exact hst

/-- The line fits, and the payload is shorter than was announced. -/
structure Fits (s : HostRecv) : Prop where
  msg : s.msg.length ≤ 128
  data : s.data = [] ∨ ∃ r ∈ s.rxd, (s.data.length : ℤ) < r.length

theorem fits_recvMsg {b : UInt8} (h : s.data = []) : (s.recvMsg malloc b).Fits where
  msg := recvMsg_length b
  data := Or.inl (by rw [recvMsg_data, h])

theorem fits_recvData {r : AtcmdRxd} {b : UInt8} (h : s.Fits) (hr : s.rxd = some r)
    (hpos : 0 < r.length) : (s.recvData r b).Fits := by
  unfold recvData
  simp only []
  split_ifs with hend
  · exact ⟨h.msg, Or.inl rfl⟩
  · refine ⟨h.msg, Or.inr ⟨r, hr, ?_⟩⟩
    simp only [List.length_append, List.length_singleton, Nat.cast_add, Nat.cast_one]
      at hend ⊢
    rcases h.data with hd | ⟨r', hr', hlt⟩
    · rw [hd] at hend ⊢
      simp only [List.length_nil, Nat.cast_zero] at hend ⊢
      omega
    · rw [hr, Option.mem_some_iff] at hr'
      subst hr'
      omega

theorem fits_recvByte (h : s.Fits) (b : UInt8) : (s.recvByte malloc b).Fits := by
  unfold recvByte
  split
  · rename_i r hr
    split_ifs with hpos
    · exact fits_recvData h hr hpos
    · exact fits_recvMsg rfl
  · rename_i hr
    refine fits_recvMsg ?_
    rcases h.data with hd | ⟨r, hr', -⟩
    · exact hd
    · rw [hr] at hr'
      cases hr'

theorem safe_endData (r : AtcmdRxd) : (s.endData r).Safe ↔ s.Safe := by
  constructor
  · intro h
    exact ⟨h.stores, (List.forall_mem_append.1 h.calls).1⟩
  · intro h
    refine ⟨h.stores, List.forall_mem_append.2 ⟨h.calls, ?_⟩⟩
    simp [HostCall.Stored]

theorem safe_recvData {r : AtcmdRxd} {b : UInt8} :
    (s.recvData r b).Safe ↔ s.Safe ∧ s.data.length < 4097 := by
  have hs : ({ s.store ⟨.data, s.data.length⟩ with data := s.data ++ [b] } : HostRecv).Safe ↔
      s.Safe ∧ s.data.length < 4097 := by
    constructor
    · intro h
      exact (safe_store _).1 ⟨h.stores, h.calls⟩
    · intro h
      have h := (safe_store ⟨.data, s.data.length⟩).2 h
      exact ⟨h.stores, h.calls⟩
  unfold recvData
  simp only []
  split_ifs
  · rw [safe_endData]
    exact hs
  · exact hs

/-- A byte is safe exactly where it does not overrun. -/
theorem safe_recvByte (h : s.Fits) (b : UInt8) :
    (s.recvByte malloc b).Safe ↔ s.Safe ∧ ¬ s.Overruns malloc b := by
  unfold recvByte Overruns
  rcases hr : s.rxd with _ | r
  · exact safe_recvMsg b
  · by_cases hpos : 0 < r.length
    · simp only [Option.filter_some, hpos, decide_true, if_true]
      rw [safe_recvData]
      have hlt : s.data.length < 4097 ↔ ¬ (4097 < r.length ∧ 4097 ≤ s.data.length) := by
        rcases h.data with hd | ⟨r', hr', hlt⟩
        · rw [hd]
          simp
        · rw [hr, Option.mem_some_iff] at hr'
          subst hr'
          omega
      rw [hlt]
    · simp only [Option.filter_some, hpos, decide_false, Bool.false_eq_true, if_false]
      rw [safe_recvMsg, safe_endData]
      rfl

end HostRecv

open HostRecv

theorem nrcAtcmdRecv_chunks (malloc : ℕ → Bool) (chunks : List Bytes) (s : HostRecv) :
    chunks.foldl (fun s buf => nrcAtcmdRecv malloc buf s) s =
      nrcAtcmdRecv malloc chunks.flatten s := by
  unfold nrcAtcmdRecv
  rw [List.foldl_flatten]

theorem fits_nrcAtcmdRecv (malloc : ℕ → Bool) (buf : Bytes) :
    (nrcAtcmdRecv malloc buf .boot).Fits := by
  induction buf using List.reverseRecOn with
  | nil => exact ⟨Nat.zero_le _, Or.inl rfl⟩
  | append_singleton buf b ih =>
    rw [nrcAtcmdRecv, List.foldl_append]
    exact fits_recvByte ih b

/-- What the target sends, in whatever calls it comes, is stored inside the buffers, and no call has
more arguments than were stored, exactly when none of its bytes overruns where it comes. -/
theorem nrc_atcmd_recv_safe_iff (malloc : ℕ → Bool) (chunks : List Bytes) :
    (chunks.foldl (fun s buf => nrcAtcmdRecv malloc buf s) .boot).Safe ↔
      ∀ p b, p ++ [b] <+: chunks.flatten → ¬ (nrcAtcmdRecv malloc p .boot).Overruns malloc b := by
  rw [nrcAtcmdRecv_chunks]
  induction chunks.flatten using List.reverseRecOn with
  | nil =>
    have hboot : (nrcAtcmdRecv malloc [] .boot).Safe := ⟨by simp [nrcAtcmdRecv, boot],
      by simp [nrcAtcmdRecv, boot]⟩
    simpa using hboot
  | append_singleton buf c ih =>
    rw [nrcAtcmdRecv, List.foldl_append]
    show ((nrcAtcmdRecv malloc buf .boot).recvByte malloc c).Safe ↔ _
    rw [safe_recvByte (fits_nrcAtcmdRecv malloc buf), ih]
    constructor
    · rintro ⟨h, hc⟩ p b hp
      rcases List.prefix_concat_iff.1 hp with hp | hp
      · obtain ⟨rfl, hb⟩ := List.append_inj' hp rfl
        simp only [List.cons.injEq, and_true] at hb
        exact hb ▸ hc
      · exact h p b hp
    · intro h
      exact ⟨fun p b hp => h p b (hp.trans (List.prefix_append _ _)), h buf c List.prefix_rfl⟩

/-- A header with five arguments stores the fifth behind the four there is room for. -/
theorem nrc_atcmd_recv_unsafe :
    ¬ ([bytes "+RXD:0,1,2,3", bytes ",4\r\n"].foldl
      (fun s buf => nrcAtcmdRecv (fun _ => true) buf s) .boot).Safe := by
  intro h
  have hout : 4 < 4 := h.stores ⟨.argv 4, 4⟩ (by decide +kernel)
  omega

end NrcAtcmd
