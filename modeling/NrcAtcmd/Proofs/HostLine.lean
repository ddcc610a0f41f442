import Mathlib.Data.List.Chain
import NrcAtcmd.Proofs.HostRecv
import NrcAtcmd.Proofs.Param
import NrcAtcmd.TargetStream

/-!
# A line is heard as its parser takes it

The state of the host in the middle of a line is a function of the bytes of the line so far, but for
its type, which those bytes settle. What the parser of a line takes it for is what was printed, as
far as the commas go, by recursion over the parameters.
-/

namespace NrcAtcmd

open HostRecv

/-! ## No end of line -/

/-- No CR with a LF after it. -/
def NoCrlf (l : Bytes) : Prop := l.IsChain fun a b => ¬ (a = 13 ∧ b = 10)

theorem noCrlf_iff {l : Bytes} : NoCrlf l ↔ ¬ [13, 10] <:+: l := by
  unfold NoCrlf
  rw [List.isChain_iff_forall_rel_of_append_cons_cons]
  constructor
  · rintro h ⟨l₁, l₂, rfl⟩
    have happ : l₁ ++ [13, 10] ++ l₂ = l₁ ++ 13 :: 10 :: l₂ := by simp
    exact h happ ⟨rfl, rfl⟩
  · rintro h a b l₁ l₂ rfl ⟨rfl, rfl⟩
    exact h ⟨l₁, l₂, by simp⟩

theorem noCrlf_mono {l l' : Bytes} (h : l <+: l') (hl : NoCrlf l') : NoCrlf l := by
  obtain ⟨t, rfl⟩ := h
  exact (List.isChain_append.1 hl).1

theorem noCrlf_of_notMem {l : Bytes} (h : 13 ∉ l) : NoCrlf l := by
  rw [noCrlf_iff]
  intro hl
  exact h (hl.subset (by simp))

theorem noCrlf_concat_cr {l : Bytes} (h : NoCrlf l) : NoCrlf (l ++ [13]) := by
  refine List.isChain_append.2 ⟨h, List.isChain_singleton _, ?_⟩
  simp

/-- Texts with a letter between them that ends no line. -/
theorem noCrlf_append_cons {l t : Bytes} {b : UInt8} (hb : b ≠ 13 ∧ b ≠ 10) (h : NoCrlf l)
    (ht : NoCrlf t) : NoCrlf (l ++ b :: t) := by
  refine List.isChain_append.2 ⟨h, List.isChain_cons.2 ⟨?_, ht⟩, ?_⟩
  · intro y _ hy
    exact hb.1 hy.1
  · intro x _ y hy hxy
    simp only [List.head?_cons, Option.mem_some_iff] at hy
    exact hb.2 (hy.trans hxy.2)

/-- The first end of a line in a text. -/
theorem exists_first_crlf : ∀ {l : Bytes}, ¬ NoCrlf l →
    ∃ l₁ l₂, l = l₁ ++ 13 :: 10 :: l₂ ∧ NoCrlf (l₁ ++ [13])
  | [], h => absurd List.isChain_nil h
  | a :: l, h => by
    by_cases ha : a = 13 ∧ l.head? = some 10
    · obtain ⟨rfl, hl⟩ := ha
      obtain ⟨l₂, rfl⟩ := List.head?_eq_some_iff.1 hl
      exact ⟨[], l₂, rfl, List.isChain_singleton _⟩
    · have hl : ¬ NoCrlf l := by
        intro hl
        refine h (List.isChain_cons.2 ⟨?_, hl⟩)
        rintro y hy ⟨rfl, rfl⟩
        exact ha ⟨rfl, hy⟩
      obtain ⟨l₁, l₂, rfl, h₁⟩ := exists_first_crlf hl
      refine ⟨a :: l₁, l₂, rfl, List.isChain_cons.2 ⟨?_, h₁⟩⟩
      rintro y hy ⟨rfl, rfl⟩
      cases l₁ with
      | nil => simp at hy
      | cons c l₁ => exact ha ⟨rfl, hy⟩

/-! ## The type of a line -/

/-- The type that the bytes of a `+` line so far settle. -/
def PlusType (p : Bytes) (type : AtcmdMsgType) : Prop :=
  (∃ head, (head, type) ∈ infoHeads ∧ bytes head <+: p) ∨
    type = .info ∧ ∀ h ∈ infoHeads, ¬ bytes h.1 <+: p

theorem plusType_plus : PlusType [43] .info := Or.inr ⟨rfl, by decide⟩

/-- Two headers that begin one line are the same. -/
theorem PlusType.eq_of_head {p : Bytes} {type type' : AtcmdMsgType} (h : PlusType p type)
    (head : String) (hmem : (head, type') ∈ infoHeads) (hp : bytes head <+: p) :
    type = type' := by
  have hone : ∀ a ∈ infoHeads, ∀ b ∈ infoHeads, bytes a.1 <+: bytes b.1 → a = b := by decide
  rcases h with ⟨head', hmem', hp'⟩ | ⟨-, hno⟩
  · rcases List.prefix_or_prefix_of_prefix hp' hp with hpre | hpre
    · exact congrArg Prod.snd (hone _ hmem' _ hmem hpre)
    · exact (congrArg Prod.snd (hone _ hmem _ hmem' hpre)).symm
  · exact absurd hp (hno _ hmem)

theorem PlusType.eq_info {p : Bytes} {type : AtcmdMsgType} (h : PlusType p type)
    (hno : ∀ h ∈ infoHeads, ¬ bytes h.1 <+: p) : type = .info := by
  rcases h with ⟨head, hmem, hp⟩ | ⟨rfl, -⟩
  · exact absurd hp (hno _ hmem)
  · rfl

theorem PlusType.ne_none {p : Bytes} {type : AtcmdMsgType} (h : PlusType p type) :
    type ≠ .none := by
  have hheads : ∀ h ∈ infoHeads, h.2 ≠ .none := by decide
  rcases h with ⟨head, hmem, -⟩ | ⟨rfl, -⟩
  · exact hheads _ hmem
  · simp

theorem recvType_head : ∀ h ∈ infoHeads, ∀ msg, recvType h.2 msg = none := by
  intro h hh msg
  simp only [infoHeads, List.mem_cons, List.not_mem_nil, or_false] at hh
  rcases hh with rfl | rfl | rfl | rfl | rfl | rfl | rfl <;> rfl

/-- One byte more: the type is settled by the byte, or it stays. -/
theorem PlusType.concat {p : Bytes} {type : AtcmdMsgType} (h : PlusType p type) (b : UInt8) :
    ∃ type', PlusType (p ++ [b]) type' ∧ (recvType type (p ++ [b]) = some (type', p ++ [b]) ∨
      recvType type (p ++ [b]) = none ∧ type' = type) := by
  rcases h with ⟨head, hmem, hp⟩ | ⟨rfl, hno⟩
  · exact ⟨type, Or.inl ⟨head, hmem, hp.trans (List.prefix_append _ _)⟩,
      Or.inr ⟨recvType_head _ hmem _, rfl⟩⟩
  · rcases hi : infoType (p ++ [b]) with _ | type
    · refine ⟨.info, Or.inr ⟨rfl, fun h hh hp => ?_⟩, Or.inr ⟨by simp [recvType, hi], rfl⟩⟩
      rcases List.prefix_concat_iff.1 hp with hp | hp
      · rw [infoType_eq_some.2 ⟨h.1, hh, hp⟩] at hi
        cases hi
      · exact hno h hh hp
    · obtain ⟨head, hmem, hp⟩ := infoType_eq_some.1 hi
      exact ⟨type, Or.inl ⟨head, hmem, hp ▸ List.prefix_rfl⟩, Or.inl (by simp [recvType, hi])⟩

theorem eq_of_prefix_colon : ∀ {w cmd x : Bytes}, w ++ [58] <+: cmd ++ 58 :: x → 58 ∉ w →
    58 ∉ cmd → w = cmd
  | [], [], _, _, _, _ => rfl
  | [], c :: cmd, _, h, _, hcmd => by
    obtain ⟨rfl, -⟩ := List.cons_prefix_cons.1 h
    simp at hcmd
  | a :: w, [], _, h, hw, _ => by
    obtain ⟨rfl, -⟩ := List.cons_prefix_cons.1 h
    simp at hw
  | a :: w, c :: cmd, x, h, hw, hcmd => by
    obtain ⟨rfl, htail⟩ := List.cons_prefix_cons.1 h
    rw [List.mem_cons, not_or] at hw hcmd
    rw [eq_of_prefix_colon htail hw.2 hcmd.2]

/-- A command names no header but that of a boot. -/
theorem not_head_of_command {cmd x : Bytes} (hcmd : TargetMsg.IsCommand cmd)
    (hcolon : 58 ∉ cmd) (hboot : cmd ≠ bytes "BOOT") :
    ∀ h ∈ infoHeads, ¬ bytes h.1 <+: 43 :: (cmd ++ 58 :: x) := by
  have hheads : ∀ h ∈ infoHeads, ∃ w, bytes h.1 = 43 :: (w ++ [58]) ∧ 58 ∉ w ∧
      (TargetMsg.IsCommand w → w = bytes "BOOT") := by
    intro h hh
    refine ⟨((bytes h.1).drop 1).dropLast, ?_⟩
    revert h
    decide +kernel
  intro h hh hp
  obtain ⟨w, hw, hwcolon, hwboot⟩ := hheads h hh
  rw [hw, List.cons_prefix_cons] at hp
  have := eq_of_prefix_colon hp.2 hwcolon hcolon
  subst this
  exact hboot (hwboot hcmd)

/-! ## The host in a line -/

/-- The host is told nothing of what it reads: it waits for a message. -/
structure HostRecv.Idle (s : HostRecv) : Prop where
  type : s.type = .none
  msg : s.msg = []
  rxd : s.rxd = none
  data : s.data = []

/-- The host has read some bytes of a line. -/
structure InLine (calls : List HostCall) (type : AtcmdMsgType) (p : Bytes) (s : HostRecv) :
    Prop where
  ne_none : type ≠ .none
  type : s.type = type
  msg : s.msg = p
  rxd : s.rxd = none
  data : s.data = []
  calls : s.calls = calls

variable {malloc : ℕ → Bool} {s : HostRecv} {calls : List HostCall} {type : AtcmdMsgType} {p : Bytes}

/-- The first byte of a line. -/
theorem inLine_first (h : s.Idle) {b : UInt8} (hr : recvType .none [b] = some (type, [b]))
    (hne : type ≠ .none) : InLine s.calls type [b] (s.recvByte malloc b) := by
  have hgive : s.giveUp = s := by
    rw [giveUp, if_neg]
    simp [h.msg]
  have hst : s.storeByte b = (s.store ⟨.msg, 0⟩).keep .none [b] := by
    unfold storeByte
    simp only [h.msg, h.type]
    rfl
  have hmsg : s.recvByte malloc b = ((s.store ⟨.msg, 0⟩).keep .none [b]).keep type [b] := by
    unfold recvByte
    rw [h.rxd]
    show s.recvMsg malloc b = _
    have ht : recvType ((s.store ⟨.msg, 0⟩).keep .none [b]).type
        ((s.store ⟨.msg, 0⟩).keep .none [b]).msg = some (type, [b]) := hr
    unfold recvMsg
    simp only [hgive, hst, ht]
  rw [hmsg]
  exact ⟨hne, rfl, rfl, h.rxd, h.data, rfl⟩

/-- The bytes of a line are stored as long as there is room for them. -/
theorem InLine.stored (h : InLine calls type p s) (hlen : p.length < 128) (b : UInt8) :
    s.recvByte malloc b = match recvType type (p ++ [b]) with
      | some (type', msg) => ((s.store ⟨.msg, p.length⟩).keep type (p ++ [b])).keep type' msg
      | none => if [13, 10] <:+ p ++ [b]
        then ((s.store ⟨.msg, p.length⟩).keep type (p ++ [b])).endLine malloc
        else (s.store ⟨.msg, p.length⟩).keep type (p ++ [b]) := by
  have hgive : s.giveUp = s := by
    rw [giveUp, if_neg]
    rw [h.msg]
    omega
  have hst : s.storeByte b = (s.store ⟨.msg, p.length⟩).keep type (p ++ [b]) := by
    rw [storeByte_eq (h.type ▸ h.ne_none), h.msg, h.type]
  unfold recvByte
  rw [h.rxd]
  show s.recvMsg malloc b = _
  unfold recvMsg
  simp only [hgive, hst]
  rfl

theorem InLine.keep {b : UInt8} {type' : AtcmdMsgType} (h : InLine calls type p s)
    (hlen : p.length < 128) (hr : recvType type (p ++ [b]) = some (type', p ++ [b]))
    (hne : type' ≠ .none) : InLine calls type' (p ++ [b]) (s.recvByte malloc b) := by
  rw [h.stored hlen, hr]
  exact ⟨hne, rfl, rfl, h.rxd, h.data, h.calls⟩

theorem endLine_eq {l : Bytes} (h : s.msg = l ++ [13] ++ [10]) :
    s.endLine malloc = ((s.store ⟨.msg, l.length⟩).hear malloc l).keep .none [] := by
  have hcut : s.msg.take (s.msg.length - 2) = l := by simp [h]
  unfold endLine
  simp only [hcut]

/-- The end of the line: the parser of its type hears it. -/
theorem InLine.last {l : Bytes} (h : InLine calls type (l ++ [13]) s)
    (hlen : (l ++ [13]).length < 128) (hr : recvType type (l ++ [13] ++ [10]) = none) :
    ∃ s' : HostRecv, s'.type = type ∧ s'.rxd = none ∧ s'.data = [] ∧ s'.calls = calls ∧
      s.recvByte malloc 10 = (s'.hear malloc l).keep .none [] := by
  have hend : [13, 10] <:+ l ++ [13] ++ [10] := ⟨l, by simp⟩
  rw [h.stored hlen, hr]
  simp only [if_pos hend]
  rw [endLine_eq (l := l) rfl]
  exact ⟨((s.store _).keep type (l ++ [13] ++ [10])).store ⟨.msg, l.length⟩, rfl, h.rxd,
    h.data, h.calls, rfl⟩

/-! ### A line with a plus -/

/-- A byte that does not end the line. -/
theorem InLine.byte (h : InLine calls type p s) (htype : PlusType p type) (hlen : p.length < 128)
    {b : UInt8} (hno : NoCrlf (p ++ [b])) :
    ∃ type', PlusType (p ++ [b]) type' ∧ InLine calls type' (p ++ [b]) (s.recvByte malloc b) := by
  have hend : ¬ [13, 10] <:+ p ++ [b] := fun hs => (noCrlf_iff.1 hno) hs.isInfix
  obtain ⟨type', htype', hr | ⟨hr, rfl⟩⟩ := htype.concat b
  · exact ⟨type', htype', h.keep hlen hr htype'.ne_none⟩
  · refine ⟨type', htype', ?_⟩
    rw [h.stored hlen, hr]
    simp only [if_neg hend]
    exact ⟨h.ne_none, rfl, rfl, h.rxd, h.data, h.calls⟩

/-- Some bytes of a line that do not end it. -/
theorem plus_bytes (malloc : ℕ → Bool) (hs : s.Idle) :
    ∀ (q : Bytes), (43 :: q).length ≤ 128 → NoCrlf (43 :: q) → ∃ type, PlusType (43 :: q) type ∧
      InLine s.calls type (43 :: q) ((43 :: q).foldl (recvByte malloc) s) := by
  intro q
  induction q using List.reverseRecOn with
  | nil => exact fun _ _ => ⟨.info, plusType_plus, inLine_first hs rfl (by simp)⟩
  | append_singleton q b ih =>
    rw [← List.cons_append]
    intro hlen hno
    rw [List.length_append, List.length_singleton] at hlen
    obtain ⟨type, htype, hline⟩ := ih (by omega) (noCrlf_mono (List.prefix_append _ _) hno)
    rw [List.foldl_append]
    exact hline.byte htype (by omega) hno

theorem atcmdMsgVsnprint_eq (text : Bytes) : atcmdMsgVsnprint text = 43 :: text ++ [13] ++ [10] := by
  show [43] ++ text ++ [13, 10] = _
  simp

theorem noCrlf_plus {text : Bytes} (hno : NoCrlf text) : NoCrlf (43 :: text ++ [13]) :=
  noCrlf_concat_cr (noCrlf_append_cons (l := []) (by decide) List.isChain_nil hno)

/-- The bytes of a line tell the host nothing before the last one. -/
theorem line_quiet (hs : s.Idle) {text q : Bytes} (hlen : text.length < 126) (hno : NoCrlf text)
    (hq : q <+: 43 :: text ++ [13]) : (q.foldl (recvByte malloc) s).calls = s.calls := by
  cases q with
  | nil => rfl
  | cons b q =>
    have hlen' : (b :: q).length ≤ 128 := by
      have := hq.length_le
      simp only [List.length_append, List.length_cons, List.length_nil] at this ⊢
      omega
    have hno' := noCrlf_mono hq (noCrlf_plus hno)
    obtain ⟨rfl, -⟩ := List.cons_prefix_cons.1 hq
    obtain ⟨type, -, hline⟩ := plus_bytes malloc hs q hlen' hno'
    exact hline.calls

/-- A line is heard by the parser of its type. -/
theorem line_heard (malloc : ℕ → Bool) (hs : s.Idle) {text : Bytes} (hlen : text.length < 126)
    (hno : NoCrlf text) :
    ∃ s' : HostRecv, PlusType (43 :: text ++ [13]) s'.type ∧ s'.rxd = none ∧ s'.data = [] ∧
      s'.calls = s.calls ∧ (43 :: text ++ [13] ++ [10]).foldl (recvByte malloc) s =
        (s'.hear malloc (43 :: text)).keep .none [] := by
  have hcr : (43 :: text ++ [13]).length < 128 := by
    simp only [List.length_append, List.length_cons, List.length_nil]
    omega
  obtain ⟨type, htype, hline⟩ :=
    plus_bytes malloc hs (text ++ [13]) (by simpa using Nat.le_of_lt hcr)
      (by simpa using noCrlf_plus hno)
  rw [← List.cons_append] at htype hline
  have hr : recvType type (43 :: text ++ [13] ++ [10]) = none := by
    rcases htype with ⟨head, hmem, -⟩ | ⟨rfl, -⟩
    · exact recvType_head _ hmem _
    · have hinfo : infoType (43 :: text ++ [13] ++ [10]) = none :=
        infoType_lf List.getLast?_concat
      simp only [recvType, hinfo, Option.map_none]
  obtain ⟨s', rfl, hs'⟩ := hline.last hcr hr
  refine ⟨s', htype, hs'.1, hs'.2.1, hs'.2.2.1, ?_⟩
  rw [List.foldl_append]
  exact hs'.2.2.2

/-! ### A return -/

/-- The line of a return is kept to its end, under the type its first byte gives it. -/
theorem return_bytes (malloc : ℕ → Bool) (hs : s.Idle) {b : UInt8} {l : Bytes}
    (hfirst : recvType .none [b] = some (type, [b])) (hne : type ≠ .none) (hlen : l.length < 126)
    (hkeep : ∀ q, b :: q <+: b :: l ++ [13] → recvType type (b :: q) = some (type, b :: q)) :
    ∀ q, b :: q <+: b :: l ++ [13] →
      InLine s.calls type (b :: q) ((b :: q).foldl (recvByte malloc) s) := by
  intro q
  induction q using List.reverseRecOn with
  | nil => exact fun _ => inLine_first hs hfirst hne
  | append_singleton q c ih =>
    rw [← List.cons_append]
    intro hq
    have hlen' := hq.length_le
    simp only [List.length_append, List.length_cons, List.length_nil] at hlen'
    have hline := ih ((List.prefix_append _ _).trans hq)
    rw [List.foldl_append]
    exact hline.keep (by simp only [List.length_cons]; omega) (hkeep (q ++ [c]) hq) hne

/-! ## What the parsers make of a line -/

theorem params_cons (q : Bytes) (ps : List Bytes) :
    params (q :: ps) = q ++ ps.flatMap (44 :: ·) := rfl

theorem params_cons_cons (q q' : Bytes) (ps : List Bytes) :
    params (q :: q' :: ps) = q ++ 44 :: params (q' :: ps) := rfl

theorem infix_params {q : Bytes} : ∀ {ps : List Bytes}, q ∈ ps → q <:+: params ps
  | [q'], h => by
    rw [List.mem_singleton] at h
    subst h
    simp [params]
  | q' :: q'' :: ps, h => by
    rw [params_cons_cons]
    rcases List.mem_cons.1 h with rfl | h
    · exact (List.prefix_append _ _).isInfix
    · exact (infix_params h).trans ((List.suffix_cons _ _).trans (List.suffix_append _ _)).isInfix

theorem mem_params {b : UInt8} : ∀ {ps : List Bytes}, b ∈ params ps →
    ∃ q ∈ ps, b ∈ q ∨ b = 44
  | q :: ps, h => by
    rw [params_cons, List.mem_append, List.mem_flatMap] at h
    rcases h with h | ⟨q', hq', h⟩
    · exact ⟨q, List.mem_cons_self, Or.inl h⟩
    · exact ⟨q', List.mem_cons_of_mem _ hq', (List.mem_cons.1 h).symm⟩

theorem noCrlf_params : ∀ {ps : List Bytes}, (∀ q ∈ ps, NoCrlf q) → NoCrlf (params ps)
  | [], _ => List.isChain_nil
  | [q], h => by simpa [params] using h
  | q :: q' :: ps, h => by
    obtain ⟨hq, h⟩ := List.forall_mem_cons.1 h
    rw [params_cons_cons]
    exact noCrlf_append_cons (by decide) hq (noCrlf_params h)

/-- The commas are those before the parameters and those in them. -/
theorem count_commas : ∀ ps : List Bytes, ps.length ≤ (ps.flatMap (44 :: ·)).count 44 ∧
    ((ps.flatMap (44 :: ·)).count 44 = ps.length ↔ ∀ q ∈ ps, 44 ∉ q)
  | [] => by simp
  | q :: ps => by
    have ih := count_commas ps
    rw [List.flatMap_cons, List.cons_append, List.count_cons_self, List.count_append,
      List.length_cons, List.forall_mem_cons, ← List.count_eq_zero, ← ih.2]
    omega

theorem argString_append {q t : Bytes} (hq : ∀ b ∈ q, b ≠ 0 ∧ b ≠ 44)
    (ht : t = [] ∨ t.head? = some 44) : argString (q ++ t) = q := by
  unfold argString
  rw [List.takeWhile_append_of_pos (by simpa using hq)]
  rcases ht with rfl | ht
  · simp
  · obtain ⟨t, rfl⟩ := List.head?_eq_some_iff.1 ht
    simp

theorem flatMap_comma_head (ps : List Bytes) :
    ps.flatMap (44 :: ·) = [] ∨ (ps.flatMap (44 :: ·)).head? = some 44 := by
  cases ps with
  | nil => exact Or.inl rfl
  | cons q ps => exact Or.inr rfl

theorem argvLoop_append : ∀ (q t : Bytes) (i argc : ℕ), 44 ∉ q →
    argvLoop i argc (q ++ t) = argvLoop (i + q.length) argc t
  | [], _, _, _, _ => by simp
  | b :: q, t, i, argc, h => by
    rw [List.mem_cons, not_or] at h
    rw [List.cons_append, argvLoop, if_neg (Ne.symm h.1), argvLoop_append q t (i + 1) argc h.2,
      List.length_cons]
    congr 1
    omega

/-- The parameters after the first are stored as far as there is room. -/
theorem argvLoop_params : ∀ (ps : List Bytes) (i argc : ℕ),
    (∀ q ∈ ps, ∀ b ∈ q, b ≠ 0 ∧ b ≠ 44) →
    (argvLoop i argc (ps.flatMap (44 :: ·))).argv = ps.take (10 - argc)
  | [], _, _, _ => by simp [argvLoop]
  | q :: ps, i, argc, h => by
    obtain ⟨hq, hps⟩ := List.forall_mem_cons.1 h
    have hcomma : 44 ∉ q := fun hm => (hq 44 hm).2 rfl
    have ih := argvLoop_params ps (i + 1 + q.length) (argc + 1) hps
    rw [List.flatMap_cons, List.cons_append, argvLoop, if_pos rfl,
      argvLoop_append q _ (i + 1) (argc + 1) hcomma,
      argString_append hq (flatMap_comma_head ps)]
    simp only []
    split_ifs with hroom
    · rw [ih, show 10 - argc = 10 - (argc + 1) + 1 by omega, List.take_succ_cons]
    · rw [ih, show 10 - argc = 0 by omega, show 10 - (argc + 1) = 0 by omega]
      simp

theorem rxdLoop_append {n : ℕ} : ∀ (q t : Bytes) (i argc : ℕ), (∀ b ∈ q, b ≠ 0 ∧ b ≠ 44) →
    argc ≤ n → rxdLoop n i argc (q ++ t) = rxdLoop n (i + q.length) argc t
  | [], _, _, _, _, _ => by simp
  | b :: q, t, i, argc, h, hn => by
    obtain ⟨hb, hq⟩ := List.forall_mem_cons.1 h
    rw [List.cons_append, rxdLoop, if_neg hb.1, if_neg (by omega), if_neg hb.2,
      rxdLoop_append q t (i + 1) argc hq hn, List.length_cons]
    congr 1
    omega

theorem rxdLoop_params {n : ℕ} : ∀ (ps : List Bytes) (i argc : ℕ),
    (∀ q ∈ ps, ∀ b ∈ q, b ≠ 0 ∧ b ≠ 44) → argc + ps.length ≤ n →
    (rxdLoop n i argc (ps.flatMap (44 :: ·))).1 = some ps
  | [], _, _, _, _ => by simp [rxdLoop]
  | q :: ps, i, argc, h, hn => by
    obtain ⟨hq, hps⟩ := List.forall_mem_cons.1 h
    rw [List.length_cons] at hn
    rw [List.flatMap_cons, List.cons_append, rxdLoop, if_neg (by decide), if_neg (by omega),
      if_pos rfl, rxdLoop_append q _ (i + 1) (argc + 1) hq (by omega),
      argString_append hq (flatMap_comma_head ps)]
    have ih := rxdLoop_params (n := n) ps (i + 1 + q.length) (argc + 1) hps (by omega)
    simp only [ih, Option.map_some]

theorem cString_append {q t : Bytes} (hq : 0 ∉ q) : cString (q ++ t) = q ++ cString t := by
  unfold cString
  rw [List.takeWhile_append_of_pos]
  intro b hb
  simp only [bne_iff_ne]
  rintro rfl
  exact hq hb

/-- A line of information is told with its command. -/
theorem nrcAtcmdRecvInfo_line {cmd : Bytes} (text : Bytes) (h : ∀ b ∈ cmd, b ≠ 0 ∧ b ≠ 58) :
    (nrcAtcmdRecvInfo (43 :: cmd ++ 58 :: text)).1 = [.info cmd (1 + text.count 44)
      (argString text :: (argvLoop (cmd.length + 2) 1 text).argv)] := by
  have hstr : cString (43 :: cmd ++ 58 :: text) = 43 :: cmd ++ 58 :: cString text := by
    have hnul : (0 : UInt8) ∉ 43 :: cmd ++ [58] := by
      simp only [List.mem_append, List.mem_cons, List.not_mem_nil, or_false]
      rintro ((h0 | h0) | h0)
      · cases h0
      · exact (h 0 h0).1 rfl
      · cases h0
    have := cString_append (t := text) hnul
    simpa using this
  have hidx : (cString (43 :: cmd ++ 58 :: text)).findIdx? (· == 58) = some (cmd.length + 1) := by
    have hnone : (43 :: cmd).findIdx? (· == 58) = none := by
      simp only [List.findIdx?_eq_none_iff, List.mem_cons, forall_eq_or_imp, beq_eq_false_iff_ne]
      exact ⟨by decide, fun b hb => (h b hb).2⟩
    rw [hstr, List.findIdx?_append, hnone]
    simp [List.findIdx?_cons]
  unfold nrcAtcmdRecvInfo
  rw [hidx]
  have hdrop : (43 :: cmd ++ 58 :: text).drop (cmd.length + 1 + 1) = text := by
    rw [List.cons_append, List.drop_succ_cons, List.drop_append]
    simp
  have htake : ((43 :: cmd ++ 58 :: text).take (cmd.length + 1)).drop 1 = cmd := by
    rw [List.cons_append, List.take_succ_cons, List.take_left]
    rfl
  simp only [hdrop, htake, argvLoop_argc]

theorem eventName_quoted {name : Bytes} (hne : name ≠ []) (htcp : name ≠ bytes "TCP_ERROR") :
    (eventName (quoted name)).1 = name := by
  have hpos : 0 < name.length := List.length_pos_iff.2 hne
  have hlen : (quoted name).length = name.length + 2 := by simp [quoted]
  have hstr : nrcAtcmdParamToStr (quoted name) (quoted name).length = some name := by
    unfold nrcAtcmdParamToStr
    rw [hlen, if_neg (by omega), if_neg (by omega), if_neg (by simp [quoted])]
    simp [quoted]
  unfold eventName
  simp only [hstr, if_neg htcp]

/-- A line of an event is told with the event of its name. -/
theorem nrcAtcmdRecvEvent_line {head name t : Bytes} (hhead : head.length = 8) (hne : name ≠ [])
    (htcp : name ≠ bytes "TCP_ERROR") (hname : ∀ b ∈ name, b ≠ 0 ∧ b ≠ 44)
    (ht : t = [] ∨ t.head? = some 44) :
    (nrcAtcmdRecvEvent (head ++ (quoted name ++ t))).1 = match AtcmdEvent.ofName name with
      | none => []
      | some e => (if e = .deepsleepWakeup then [.ret .none] else []) ++
          [.event e (t.count 44) (argvLoop (8 + (quoted name).length) 1 t).argv] := by
  have hq : ∀ b ∈ quoted name, b ≠ 0 ∧ b ≠ 44 := by
    intro b hb
    simp only [quoted, List.cons_append, List.mem_cons, List.mem_append, List.not_mem_nil,
      or_false] at hb
    rcases hb with rfl | hb | rfl
    · decide
    · exact hname b hb
    · decide
  have hcomma : 44 ∉ quoted name := fun hm => (hq 44 hm).2 rfl
  have hdrop : (head ++ (quoted name ++ t)).drop 8 = quoted name ++ t := by
    rw [← hhead, List.drop_left]
  have harg := argString_append hq ht
  have hraw : quoted name ≠ bytes "TCP_ERROR" := by
    intro h
    have hhead : (bytes "TCP_ERROR").head? = some 84 := rfl
    rw [← h] at hhead
    simp [quoted] at hhead
  unfold nrcAtcmdRecvEvent
  simp only [hdrop, harg, eventName_quoted hne htcp, if_neg hraw, argvLoop_argc,
    argvLoop_append _ t 8 1 hcomma]
  rcases AtcmdEvent.ofName name with _ | e
  · rfl
  · cases e <;> simp

theorem rxdArgv_line {n : ℕ} (head : String) {q : Bytes} {ps : List Bytes}
    (h : ∀ p ∈ q :: ps, ∀ b ∈ p, b ≠ 0 ∧ b ≠ 44) (hn : (q :: ps).length ≤ n) :
    (rxdArgv n head (bytes head ++ params (q :: ps))).1 = some (q :: ps) := by
  obtain ⟨hq, hps⟩ := List.forall_mem_cons.1 h
  rw [List.length_cons] at hn
  unfold rxdArgv
  rw [List.take_left, if_neg (by simp), List.drop_left, params_cons]
  have hfirst := rxdLoop_append (n := n) q (ps.flatMap (44 :: ·)) (bytes head).length 1 hq (by omega)
  have hrest := rxdLoop_params (n := n) ps ((bytes head).length + q.length) 1 hps (by omega)
  simp only [hfirst, hrest, argString_append hq (flatMap_comma_head ps), Option.map_some]

theorem atoi_ofNat_self {n : ℕ} (hn : n < 2 ^ 31) : atoi (Decimal.ofNat n) = n := by
  have h := atoi_ofNat hn (show ∀ b ∈ ([] : Bytes).head?, Decimal.isDigit b = false by simp)
  rwa [List.append_nil] at h

theorem nrcAtcmdRecvRxd_line {msg : Bytes} {id length : ℕ} (hid : id < 2 ^ 31)
    (hl : length < 2 ^ 31)
    (h : (rxdArgv 4 "+RXD:" msg).1 = some [Decimal.ofNat id, Decimal.ofNat length]) :
    (nrcAtcmdRecvRxd msg).1 = some (.socket length id (bytes "0.0.0.0") 0 false) := by
  unfold nrcAtcmdRecvRxd
  rcases hr : rxdArgv 4 "+RXD:" msg with ⟨argv, w⟩
  rw [hr] at h
  obtain rfl : argv = _ := h
  simp only [atoi_ofNat_self hid, atoi_ofNat_self hl]
  rw [if_neg (by omega)]

/-- An address is taken if it has room with its quotes. -/
theorem nrcAtcmdRecvRxd_verbose {msg addr : Bytes} {id length port : ℕ} (hid : id < 2 ^ 31)
    (hl : length < 2 ^ 31) (hport : port < 2 ^ 31) (haddr : addr ≠ [])
    (h : (rxdArgv 4 "+RXD:" msg).1 =
      some [Decimal.ofNat id, Decimal.ofNat length, quoted addr, Decimal.ofNat port]) :
    (nrcAtcmdRecvRxd msg).1 = if addr.length ≤ 43 then
      some (.socket length id (quoted addr) port true) else none := by
  have hpos : 0 < addr.length := List.length_pos_iff.2 haddr
  have hlen : (quoted addr).length = addr.length + 2 := by simp [quoted]
  unfold nrcAtcmdRecvRxd
  rcases hr : rxdArgv 4 "+RXD:" msg with ⟨argv, w⟩
  rw [hr] at h
  obtain rfl : argv = _ := h
  simp only [atoi_ofNat_self hid, atoi_ofNat_self hl, atoi_ofNat_self hport, hlen]
  rw [if_neg (by omega)]
  by_cases h43 : addr.length ≤ 43
  · rw [if_neg (by omega), if_neg (by omega), if_pos h43]
  · rw [if_pos (by omega), if_neg h43]

theorem recvRxdOffset_line {head : String} (rxd : ℤ → ℤ → AtcmdRxd) {msg : Bytes}
    {offset length : ℕ} (ho : offset < 2 ^ 31) (hl : length < 2 ^ 31)
    (h : (rxdArgv 2 head msg).1 = some [Decimal.ofNat offset, Decimal.ofNat length]) :
    (recvRxdOffset head rxd msg).1 = some (rxd length offset) := by
  unfold recvRxdOffset
  rcases hr : rxdArgv 2 head msg with ⟨argv, w⟩
  rw [hr] at h
  obtain rfl : argv = _ := h
  simp only [atoi_ofNat_self ho, atoi_ofNat_self hl]
  rw [if_neg (by omega)]

/-! ## Addresses -/

/-- An address in the call is one there is room for. -/
def HostCall.Short : HostCall → Prop
  | .rxd (.socket _ _ addr _ _) _ => addr.length ≤ 45
  | _ => True

/-- The host was told of no longer address, and will not be. -/
structure HostRecv.Short (s : HostRecv) : Prop where
  calls : ∀ c ∈ s.calls, c.Short
  rxd : ∀ r ∈ s.rxd, ∀ data, (HostCall.rxd r data).Short

theorem short_nrcAtcmdRecvRxd {msg : Bytes} {r : AtcmdRxd} (h : (nrcAtcmdRecvRxd msg).1 = some r)
    (data : Bytes) : (HostCall.rxd r data).Short := by
  unfold nrcAtcmdRecvRxd at h
  simp only [] at h
  split at h
  · split_ifs at h
    simp only [Option.some.injEq] at h
    subst h
    exact (by decide : (bytes "0.0.0.0").length ≤ 45)
  · split_ifs at h with h0 hlen hport
    simp only [Option.some.injEq] at h
    subst h
    simp only [HostCall.Short]
    omega
  · cases h

theorem short_recvRxdOffset {head : String} {rxd : ℤ → ℤ → AtcmdRxd} {msg : Bytes} {r : AtcmdRxd}
    (hrxd : ∀ l o data, (HostCall.rxd (rxd l o) data).Short)
    (h : (recvRxdOffset head rxd msg).1 = some r) (data : Bytes) :
    (HostCall.rxd r data).Short := by
  unfold recvRxdOffset at h
  simp only [] at h
  split at h
  · split_ifs at h
    simp only [Option.some.injEq] at h
    subst h
    exact hrxd _ _ _
  · cases h

theorem HostRecv.Short.tell {p : List HostCall × List Store} (h : s.Short) (hp : ∀ c ∈ p.1, c.Short) :
    (s.tell p).Short :=
  ⟨List.forall_mem_append.2 ⟨h.calls, hp⟩, h.rxd⟩

theorem HostRecv.Short.expect {p : Option AtcmdRxd × List Store} (h : s.Short)
    (hp : ∀ r ∈ p.1, ∀ data, (HostCall.rxd r data).Short) : (s.expect malloc p).Short := by
  unfold HostRecv.expect
  simp only []
  split_ifs
  · exact ⟨h.calls, hp⟩
  · exact ⟨h.calls, by simp⟩

theorem HostRecv.Short.hear (malloc : ℕ → Bool) (h : s.Short) (msg : Bytes) :
    (s.hear malloc msg).Short := by
  unfold HostRecv.hear
  split
  case h_1 | h_2 => exact h.tell (by simp [HostCall.Short])
  case h_3 =>
    refine h.tell ?_
    unfold nrcAtcmdRecvInfo
    split <;> simp [HostCall.Short]
  case h_4 =>
    refine h.tell ?_
    unfold nrcAtcmdRecvBoot
    simp only []
    split_ifs <;> simp [HostCall.Short]
  case h_5 | h_6 | h_7 =>
    refine h.tell ?_
    obtain ⟨argv, -, hcalls⟩ := nrcAtcmdRecvEvent_told msg
    rw [hcalls]
    split
    · simp
    · split_ifs <;> simp [HostCall.Short]
  case h_8 => exact h.expect fun r hr => short_nrcAtcmdRecvRxd hr
  case h_9 =>
    have hs : ∀ l o data, (HostCall.rxd (.sfuser l o) data).Short := fun _ _ _ => trivial
    exact h.expect fun r hr => short_recvRxdOffset hs hr
  case h_10 =>
    have hs : ∀ l o data, (HostCall.rxd (.sfsysuser l o) data).Short := fun _ _ _ => trivial
    exact h.expect fun r hr => short_recvRxdOffset hs hr
  case h_11 => exact h

theorem HostRecv.Short.recvMsg (h : s.Short) (b : UInt8) : (s.recvMsg malloc b).Short := by
  have hst : (s.giveUp.storeByte b).Short := by
    unfold HostRecv.storeByte giveUp
    simp only []
    split_ifs <;> exact ⟨h.calls, h.rxd⟩
  unfold HostRecv.recvMsg
  simp only []
  split
  · exact ⟨hst.calls, hst.rxd⟩
  · split_ifs
    · have hh := HostRecv.Short.hear malloc (s := (s.giveUp.storeByte b).store
        ⟨.msg, ((s.giveUp.storeByte b).msg.take ((s.giveUp.storeByte b).msg.length - 2)).length⟩)
        ⟨hst.calls, hst.rxd⟩
        ((s.giveUp.storeByte b).msg.take ((s.giveUp.storeByte b).msg.length - 2))
      exact ⟨hh.calls, hh.rxd⟩
    · exact hst

theorem HostRecv.Short.endData {r : AtcmdRxd} (h : s.Short) (hr : s.rxd = some r) :
    (s.endData r).Short := by
  refine ⟨List.forall_mem_append.2 ⟨h.calls, ?_⟩, by simp [HostRecv.endData]⟩
  simpa using h.rxd r hr s.data

theorem HostRecv.Short.recvByte (h : s.Short) (b : UInt8) : (s.recvByte malloc b).Short := by
  unfold HostRecv.recvByte
  split
  · rename_i r hr
    split_ifs
    · unfold recvData
      simp only []
      split_ifs
      · refine ⟨List.forall_mem_append.2 ⟨h.calls, ?_⟩, by simp [HostRecv.endData]⟩
        simpa using h.rxd r hr _
      · exact ⟨h.calls, h.rxd⟩
    · exact (h.endData hr).recvMsg b
  · exact h.recvMsg b

theorem HostRecv.Short.foldl (h : s.Short) (q : Bytes) :
    (q.foldl (HostRecv.recvByte malloc) s).Short :=
  List.foldlRecOn q _ h fun _ hs b _ => hs.recvByte b

end NrcAtcmd
