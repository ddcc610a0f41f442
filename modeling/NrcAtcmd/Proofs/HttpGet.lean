import NrcAtcmd.HttpGet
import NrcAtcmd.Proofs.Param

/-!
# The HTTP reader and the buffer it searches

The end of the header is searched in the receive buffer as a string, so the bytes that the buffer had
before are searched with those received. Where the search finds nothing before the header is whole,
the bytes received lie over the old ones (`FotaGet.Held`) until the header is found at its place
(`Searching.pass_found`), and from there each part of the body is handed over as it was received
(`Reading.pass`). Where it finds something, that ends behind what was received (`pass_early`).
-/

namespace NrcAtcmd

open Decimal
open Memory (memcpy take_memcpy length_memcpy)

/-! ## The end of a header -/

/-- What `strstr` found stands in the part it found it in. -/
theorem strstrHeaderEnd_append {a s t : Bytes} {j : ℕ} (h : strstrHeaderEnd (a ++ s) = some j)
    (hj : j + 4 ≤ a.length) : strstrHeaderEnd (a ++ t) = some j := by
  induction a generalizing j with
  | nil => simp at hj
  | cons b a ih =>
    rw [List.cons_append, strstrHeaderEnd] at h ⊢
    rw [List.length_cons] at hj
    have htake : 4 ≤ a.length + 1 → ∀ s' : Bytes, (b :: (a ++ s')).take 4 = (b :: a).take 4 := by
      intro hl s'
      rw [← List.cons_append, List.take_append_of_le_length (by rw [List.length_cons]; omega)]
    rw [htake (by omega)] at h ⊢
    split_ifs at h ⊢ with h0 h4
    · exact h
    · obtain ⟨i, hi, rfl⟩ := Option.map_eq_some_iff.1 h
      rw [ih hi (by omega)]
      rfl

/-- A line, with no NUL and no CR in it, is passed over. -/
theorem strstrHeaderEnd_line {l s : Bytes} (h : ∀ b ∈ l, isText b = true) :
    strstrHeaderEnd (l ++ s) = (strstrHeaderEnd s).map (· + l.length) := by
  induction l with
  | nil => simp
  | cons b l ih =>
    have hb := h b (by simp)
    simp only [isText, Bool.not_eq_true', Bool.or_eq_false_iff, beq_eq_false_iff_ne] at hb
    rw [List.cons_append, strstrHeaderEnd, if_neg hb.1.1, if_neg, ih fun b hm => h b (by simp [hm]),
      Option.map_map]
    · congr 1
    · intro ht
      exact hb.2 (List.cons.inj ht).1

theorem strstrHeaderEnd_crlf {s : Bytes} (h : s.take 2 ≠ [13, 10]) :
    strstrHeaderEnd (13 :: 10 :: s) = (strstrHeaderEnd s).map (· + 2) := by
  have h4 : (13 :: 10 :: s).take 4 ≠ [13, 10, 13, 10] := by
    intro ht
    exact h (by simpa using ht)
  rw [strstrHeaderEnd, if_neg (by decide), if_neg h4, strstrHeaderEnd, if_neg (by decide),
    if_neg (by simp), Option.map_map]
  congr 1

/-- Lines that are not empty, and then an empty one: it is the first. -/
theorem strstrHeaderEnd_lines : ∀ {ls : List Bytes} {s : Bytes}, ls ≠ [] →
    (∀ l ∈ ls, l ≠ [] ∧ ∀ b ∈ l, isText b = true) →
    strstrHeaderEnd ((ls.map (· ++ [13, 10])).flatten ++ 13 :: 10 :: s) =
      some ((ls.map (· ++ [13, 10])).flatten.length - 2)
  | [], _, h, _ => absurd rfl h
  | l :: ls, s, _, hl => by
    obtain ⟨hne, htext⟩ := hl l (by simp)
    rw [List.map_cons, List.flatten_cons, List.append_assoc, List.append_assoc,
      strstrHeaderEnd_line htext]
    rcases ls with _ | ⟨l', ls⟩
    · simp [strstrHeaderEnd]
    · have ih := strstrHeaderEnd_lines (s := s) (List.cons_ne_nil l' ls)
        fun l hm => hl l (by simp [hm])
      obtain ⟨hne', htext'⟩ := hl l' (by simp)
      have h2 : (((l' :: ls).map (· ++ [13, 10])).flatten ++ 13 :: 10 :: s).take 2 ≠ [13, 10] := by
        obtain ⟨b, l'', rfl⟩ := List.exists_cons_of_ne_nil hne'
        intro ht
        have hb := htext' b (by simp)
        simp only [List.map_cons, List.flatten_cons, List.cons_append, List.take_succ_cons,
          List.cons.injEq] at ht
        rw [ht.1] at hb
        exact absurd hb (by decide)
      rw [List.cons_append, List.cons_append, List.nil_append, strstrHeaderEnd_crlf h2, ih]
      simp only [Option.map_some, List.map_cons, List.flatten_cons, List.length_append,
        List.length_cons, List.length_nil]
      congr 1
      omega

/-! ## The tokens -/

theorem strtokCrlf_crlf (s t : Bytes) : strtokCrlf (s ++ 13 :: 10 :: t) =
    strtokCrlf s ++ strtokCrlf t := by
  have h : (10 :: t).splitOnP (fun b => b == 13 || b == 10) =
      [] :: t.splitOnP fun b => b == 13 || b == 10 :=
    List.splitOnP_append_cons_of_forall_mem (List.forall_mem_nil _) 10 rfl t
  unfold strtokCrlf
  rw [List.splitOnP_append_cons s _ rfl, h, List.filter_append, List.filter_cons_of_neg (by simp)]

theorem strtokCrlf_line {l : Bytes} (hne : l ≠ []) (h : ∀ b ∈ l, isText b = true) :
    strtokCrlf l = [l] := by
  unfold strtokCrlf
  rw [List.splitOnP_eq_singleton, List.filter_cons_of_pos (by simpa using hne), List.filter_nil]
  intro b hb
  have := h b hb
  simp only [isText, Bool.not_eq_true', Bool.or_eq_false_iff, beq_eq_false_iff_ne] at this
  simp [this.1.2, this.2]

theorem strtokCrlf_lines {ls : List Bytes} (h : ∀ l ∈ ls, l ≠ [] ∧ ∀ b ∈ l, isText b = true) :
    strtokCrlf (ls.map (· ++ [13, 10])).flatten = ls := by
  induction ls with
  | nil => rfl
  | cons l ls ih =>
    obtain ⟨hne, htext⟩ := h l (by simp)
    rw [List.map_cons, List.flatten_cons, List.append_assoc, List.cons_append, List.cons_append,
      List.nil_append, strtokCrlf_crlf, strtokCrlf_line hne htext, ih fun l hm => h l (by simp [hm])]
    rfl

/-! ## What the parser reads of a response -/

/-- A colon that is in neither name ends both. -/
theorem prefix_colon {k n r v : Bytes} (hk : 58 ∉ k) (hn : 58 ∉ n) :
    k ++ 58 :: r <+: n ++ 58 :: v ↔ n = k ∧ r <+: v := by
  induction k generalizing n with
  | nil =>
    rcases n with _ | ⟨c, n⟩
    · simp [List.cons_prefix_cons]
    · have : (58 : UInt8) ≠ c := fun h => hn (by simp [h])
      simp [List.cons_prefix_cons, this]
  | cons b k ih =>
    have hb : b ≠ 58 := fun h => hk (by simp [h])
    rcases n with _ | ⟨c, n⟩
    · simp [List.cons_prefix_cons, hb]
    · rw [List.cons_append, List.cons_append, List.cons_prefix_cons,
        ih (fun h => hk (by simp [h])) (fun h => hn (by simp [h])), List.cons.injEq, and_assoc]
      exact and_congr_left' eq_comm

theorem prefix_of_no_colon {l n v : Bytes} (hl : 58 ∉ l) (h : l <+: n ++ 58 :: v) : l <+: n := by
  induction l generalizing n with
  | nil => simp
  | cons b l ih =>
    rcases n with _ | ⟨c, n⟩
    · rw [List.nil_append, List.cons_prefix_cons] at h
      exact absurd (by simp [h.1]) hl
    · rw [List.cons_append, List.cons_prefix_cons] at h
      exact List.cons_prefix_cons.2 ⟨h.1, ih (fun hm => hl (by simp [hm])) h.2⟩

namespace HttpField

variable (f : HttpField)

theorem not_mem_name {b : UInt8} (hb : isTchar b = false) : b ∉ f.name := fun h => by
  rw [f.name_tchar b h] at hb
  exact absurd hb (by decide)

theorem not_version : ¬ bytes "HTTP/1." <+: f.line := fun h =>
  f.not_mem_name (show isTchar 47 = false by decide)
    ((prefix_of_no_colon (by decide) h).subset (by decide))

theorem length_prefix : bytes "Content-Length: " <+: f.line ↔
    f.name = bytes "Content-Length" ∧ [32] <+: f.value := by
  have hb : bytes "Content-Length: " = bytes "Content-Length" ++ 58 :: [32] := by decide
  rw [hb, line, prefix_colon (by decide) (f.not_mem_name (by decide))]

/-- A field that is not the length is not read. -/
theorem token_other (h : ¬ f.isContentLength) (resp : HttpcResp) : resp.token f.line = resp := by
  have hn : ¬ bytes "Content-Length: " <+: f.line := fun hp => by
    have := (f.length_prefix.1 hp).1
    exact h (by rw [isContentLength, this]; decide)
  rw [HttpcResp.token, if_neg f.not_version, if_neg hn]

theorem line_text : f.line ≠ [] ∧ ∀ b ∈ f.line, isText b = true := by
  refine ⟨by simp [line], fun b hb => ?_⟩
  rcases List.mem_append.1 hb with hb | hb
  · have ht := f.name_tchar b hb
    simp only [isTchar, Bool.and_eq_true, decide_eq_true_eq] at ht
    simp only [isText, Bool.not_eq_true', Bool.or_eq_false_iff, beq_eq_false_iff_ne]
    refine ⟨⟨?_, ?_⟩, ?_⟩ <;> rintro rfl <;> exact absurd ht.1.1 (by decide)
  · rcases List.mem_cons.1 hb with rfl | hb
    · decide
    · exact f.value_text b hb

end HttpField

theorem foldl_others {fs : List HttpField} (h : ∀ f ∈ fs, ¬ f.isContentLength) (resp : HttpcResp) :
    (fs.map HttpField.line).foldl HttpcResp.token resp = resp := by
  induction fs with
  | nil => rfl
  | cons f fs ih =>
    rw [List.map_cons, List.foldl_cons, f.token_other (h f (by simp)),
      ih fun f hm => h f (by simp [hm])]

namespace HttpResponse

variable (r : HttpResponse)

/-- The length is spelled as the parser looks for it. -/
def Spelled : Prop := r.length.name = bytes "Content-Length" ∧ r.pad.head? = some 32

instance : Decidable r.Spelled := inferInstanceAs (Decidable (_ ∧ _))

/-- The length the parser reads. -/
def parsedLength : ℕ := if r.Spelled then r.body.length else 0

theorem scanInt_digits {pad ds bs : Bytes} {n : ℕ} (hpad : ∀ b ∈ pad, isSpace b = true)
    (hds : scan 0 ds = (n, [])) (hne : ds ≠ []) (hn : n < 2 ^ 31)
    (h : ∀ b ∈ bs.head?, isDigit b = false) : scanInt (pad ++ ds ++ bs) = some (n : ℤ) := by
  have hl : longOf n = n := by
    unfold longOf
    omega
  have : bs ≠ pad ++ ds ++ bs := fun he => by
    have := congrArg List.length he
    have := List.length_pos_iff.2 hne
    simp only [List.length_append] at *
    omega
  rw [scanInt, strtol_digits hpad hds hne h, if_neg this, hl]

theorem token_status (resp : HttpcResp) : resp.token (bytes "HTTP/1." ++ [r.minor] ++ bytes " 200" ++
    r.reason) = { resp with version := true, statusCode := 200 } := by
  have hp : bytes "HTTP/1." <+: bytes "HTTP/1." ++ [r.minor] ++ bytes " 200" ++ r.reason := by
    simp only [List.append_assoc]
    exact List.prefix_append _ _
  have hd : (bytes "HTTP/1." ++ [r.minor] ++ bytes " 200" ++ r.reason).drop 7 =
      r.minor :: 32 :: (bytes "200" ++ r.reason) := by
    simp only [List.append_assoc]
    exact List.drop_left' (by decide)
  have hf : scanFraction (r.minor :: 32 :: (bytes "200" ++ r.reason)) =
      [32] ++ bytes "200" ++ r.reason := by
    have hs : isDigit 32 = false := by decide
    rw [scanFraction, List.dropWhile_cons_of_pos r.minor_digit,
      List.dropWhile_cons_of_neg (by simp [hs])]
    simp
  have hr : ∀ b ∈ r.reason.head?, isDigit b = false := by
    intro b hb
    rcases r.reason_sp with h | h <;> rw [h] at hb
    · simp at hb
    · rw [Option.mem_some_iff.1 hb.symm]
      decide
  rw [HttpcResp.token, if_pos hp, hd, hf, scanInt_digits (n := 200) (by simp; decide) (by decide)
    (by decide) (by decide) hr]
  rfl

theorem pad_head : [32] <+: r.length.value ↔ r.pad.head? = some 32 := by
  rw [r.length_value]
  rcases hp : r.pad with _ | ⟨b, pad⟩
  · obtain ⟨d, ds, hd⟩ := List.exists_cons_of_ne_nil r.digits_ne
    have hs := r.digits_scan
    have hne : d ≠ 32 := by
      rintro rfl
      rw [hd, scan, if_neg (by decide)] at hs
      simp at hs
    simp [hd, List.cons_prefix_cons, hne.symm]
  · simp [List.cons_prefix_cons, eq_comm]

theorem token_length (resp : HttpcResp) (h : resp.contentLength = 0) :
    resp.token r.length.line = { resp with contentLength := r.parsedLength } := by
  rw [HttpcResp.token, if_neg r.length.not_version]
  by_cases hs : r.Spelled
  · have hp := r.length.length_prefix.2 ⟨hs.1, r.pad_head.2 hs.2⟩
    have hd : r.length.line.drop 15 = r.pad ++ r.digits ++ r.trail := by
      rw [HttpField.line, hs.1, ← r.length_value, ← List.singleton_append, ← List.append_assoc]
      exact List.drop_left' (by decide)
    have hpad : ∀ b ∈ r.pad, isSpace b = true := by
      intro b hb
      rcases r.pad_space b hb with rfl | rfl <;> decide
    have htrail : ∀ b ∈ r.trail.head?, isDigit b = false := by
      intro b hb
      rcases r.trail_space b (List.mem_of_mem_head? hb) with rfl | rfl <;> decide
    rw [if_pos hp, hd, scanInt_digits hpad r.digits_scan r.digits_ne r.body_lt htrail, parsedLength,
      if_pos hs]
    rfl
  · have hp : ¬ bytes "Content-Length: " <+: r.length.line := fun hp =>
      hs ⟨(r.length.length_prefix.1 hp).1, r.pad_head.1 (r.length.length_prefix.1 hp).2⟩
    rw [if_neg hp, parsedLength, if_neg hs, Nat.cast_zero, ← h]

end HttpResponse

namespace HttpResponse

variable (r : HttpResponse)

theorem lines_text : ∀ l ∈ r.lines, l ≠ [] ∧ ∀ b ∈ l, isText b = true := by
  intro l hl
  rcases List.mem_cons.1 hl with rfl | hl
  · refine ⟨by simp, fun b hb => ?_⟩
    simp only [List.mem_append, List.mem_singleton] at hb
    rcases hb with ((hb | rfl) | hb) | hb
    · exact (show ∀ b ∈ bytes "HTTP/1.", isText b = true by decide +kernel) b hb
    · have hd := r.minor_digit
      simp only [isDigit, Bool.and_eq_true, decide_eq_true_eq] at hd
      simp only [isText, Bool.not_eq_true', Bool.or_eq_false_iff, beq_eq_false_iff_ne]
      refine ⟨⟨?_, ?_⟩, ?_⟩ <;> intro h <;> rw [h] at hd <;> exact absurd hd.1 (by decide)
    · exact (show ∀ b ∈ bytes " 200", isText b = true by decide +kernel) b hb
    · exact r.reason_text b hb
  · obtain ⟨f, -, rfl⟩ := List.mem_map.1 hl
    exact f.line_text

theorem lines_ne : r.lines ≠ [] := List.cons_ne_nil _ _

theorem four_le : 4 ≤ r.header.length := by
  simp only [header, lines, List.map_cons, List.flatten_cons, List.length_append, List.length_cons,
    List.length_nil]
  omega

/-- The header's end is the first thing `strstr` finds in it. -/
theorem headerEnd (s : Bytes) : strstrHeaderEnd (r.header ++ s) = some (r.header.length - 4) := by
  have h := strstrHeaderEnd_lines (s := s) r.lines_ne r.lines_text
  rw [header, List.append_assoc, List.cons_append, List.cons_append, List.nil_append, h,
    List.length_append]
  congr 1

/-- What is found in less than the header ends behind it. -/
theorem headerEnd_early {n j : ℕ} {s : Bytes} (hn : n < r.header.length)
    (h : strstrHeaderEnd (r.header.take n ++ s) = some j) : n < j + 4 := by
  by_contra hj
  have hl : j + 4 ≤ (r.header.take n).length := by rw [List.length_take]; omega
  have := strstrHeaderEnd_append (t := r.header.drop n) h hl
  rw [List.take_append_drop, ← List.append_nil r.header, r.headerEnd,
    Option.some.injEq] at this
  have := r.four_le
  omega

/-- The parser reads the status, and the length if it is spelled as it looks for it. -/
theorem parse (s : Bytes) : atcmdFotaHttpcParseRespHeader_
    ((r.header ++ s).take (r.header.length - 4)) ⟨false, 0, 0, 0⟩ =
      ⟨true, 200, r.parsedLength, 0⟩ := by
  have hsplit : ∃ t, (r.lines.map (· ++ [13, 10])).flatten = t ++ 13 :: 10 :: [] := by
    have hne := r.lines_ne
    refine ⟨((r.lines.dropLast).map (· ++ [13, 10])).flatten ++ r.lines.getLast hne, ?_⟩
    conv_lhs => rw [← List.dropLast_append_getLast hne]
    simp
  obtain ⟨t, ht⟩ := hsplit
  have htake : (r.header ++ s).take (r.header.length - 4) = t := by
    rw [header, ht]
    simp
  have htok : strtokCrlf t = r.lines := by
    have := strtokCrlf_lines r.lines_text
    rw [ht, strtokCrlf_crlf] at this
    simpa [strtokCrlf] using this
  rw [atcmdFotaHttpcParseRespHeader_, htake, htok, lines, List.foldl_cons, r.token_status,
    List.map_append, List.map_cons, List.foldl_append, List.foldl_cons,
    foldl_others fun f hf => r.others f (List.mem_append_left _ hf), r.token_length _ rfl,
    foldl_others fun f hf => r.others f (List.mem_append_right _ hf)]

end HttpResponse

/-! ## Receiving -/

namespace FotaGet

variable {bufLen : ℕ} {accept : ℕ → Bool} {closed : Bool} {s : FotaGet}

theorem loop_stop (h : s.ret ≤ 0) (fuel : ℕ) : loop bufLen accept closed fuel s = s := by
  rcases fuel with _ | fuel
  · rfl
  · rw [loop, if_neg (by omega)]

theorem recv_nil (h : s.chunks = []) : s.recv closed =
    { s with
      recvedSize := 0
      ret := if closed ∧ s.resp.contentLengthDone = s.resp.contentLength then 0 else -1 } := by
  unfold recv
  rw [h]

/-- A receive with room takes a first part of what is there. -/
theorem recv_cons {c : Bytes} {cs : List Bytes} (h : s.chunks = c :: cs) (hc : c ≠ [])
    (hroom : 0 < s.dataInLength) (hcs : ∀ c ∈ cs, c ≠ []) :
    ∃ data chunks, s.recv closed = { s with
        mem := memcpy s.mem s.dataIn data
        recvedSize := data.length
        ret := 1
        chunks := chunks } ∧
      data ≠ [] ∧ data.length ≤ s.dataInLength ∧ data ++ chunks.flatten = s.chunks.flatten ∧
      (∀ c ∈ chunks, c ≠ []) ∧
      (data = c ∧ chunks = cs ∨ data.length = s.dataInLength ∧ s.dataInLength < c.length) := by
  have hl := List.length_pos_iff.2 hc
  have hd : (c.take s.dataInLength).length ≠ 0 := by rw [List.length_take]; omega
  refine ⟨c.take s.dataInLength,
    if c.length ≤ s.dataInLength then cs else c.drop s.dataInLength :: cs, ?_, ?_, ?_, ?_, ?_, ?_⟩
  · unfold recv
    simp only [h, if_neg hd]
  · exact fun h0 => hd (by rw [h0]; rfl)
  · rw [List.length_take]
    omega
  · rw [h, List.flatten_cons]
    split_ifs with hle
    · rw [List.take_of_length_le hle]
    · rw [List.flatten_cons, ← List.append_assoc, List.take_append_drop]
  · split_ifs with hle
    · exact hcs
    · intro x hx
      rcases List.mem_cons.1 hx with rfl | hx
      · exact fun h0 => by
          have := congrArg List.length h0
          rw [List.length_drop, List.length_nil] at this
          omega
      · exact hcs x hx
  · by_cases hle : c.length ≤ s.dataInLength
    · exact .inl ⟨List.take_of_length_le hle, if_pos hle⟩
    · exact .inr ⟨by rw [List.length_take]; omega, by omega⟩

/-- Receiving changes neither what was parsed nor what was handed over. -/
theorem recv_frame : (s.recv closed).resp = s.resp ∧ (s.recv closed).calls = s.calls ∧
    (s.recv closed).stale = s.stale := by
  unfold recv
  split
  · exact ⟨rfl, rfl, rfl⟩
  · dsimp only
    split_ifs <;> exact ⟨rfl, rfl, rfl⟩

/-- What was set stays set. -/
theorem pass_stale (h : s.stale = true) : (s.pass bufLen accept closed).stale = true := by
  unfold pass
  dsimp only
  by_cases hv : s.resp.version = false
  · rw [if_pos hv]
    split
    · split_ifs <;> simp [h]
    · split_ifs
      · exact h
      · rw [recv_frame.2.2]
        exact h
  · rw [if_neg hv]
    split_ifs
    · exact h
    · exact h
    · rw [recv_frame.2.2]
      exact h
    · rw [recv_frame.2.2]
      exact h

theorem loop_stale (bufLen : ℕ) (accept : ℕ → Bool) (closed : Bool) :
    ∀ (fuel : ℕ) {s : FotaGet}, s.stale = true →
    (loop bufLen accept closed fuel s).stale = true
  | 0, _, h => h
  | fuel + 1, s, h => by
    rw [loop]
    split_ifs
    · exact loop_stale bufLen accept closed fuel (pass_stale h)
    · exact h

/-- Without a length nothing is handed over: what arrives is passed over. -/
theorem pass_idle (hv : s.resp.version = true) (hl : s.resp.contentLength ≤ 0) :
    s.pass bufLen accept closed = s.recv closed := by
  rw [pass, if_neg (by simp [hv]), if_neg (by omega)]

theorem loop_idle (bufLen : ℕ) (accept : ℕ → Bool) (closed : Bool) :
    ∀ (fuel : ℕ) {s : FotaGet}, s.resp.version = true →
    s.resp.contentLength ≤ 0 → (loop bufLen accept closed fuel s).calls = s.calls
  | 0, _, _, _ => rfl
  | fuel + 1, s, hv, hl => by
    rw [loop]
    split_ifs
    · obtain ⟨hr, hc, -⟩ := recv_frame (s := s)
      rw [pass_idle hv hl,
        loop_idle bufLen accept closed fuel (by rw [hr]; exact hv) (by rw [hr]; exact hl), hc]
    · rfl

end FotaGet

/-! ## The body -/

/-- The header was read and `p` is the part of the body that was received last. -/
structure FotaGet.Reading (b : RecvBuf) (s : FotaGet) (p : Bytes) : Prop where
  version : s.resp.version = true
  done : s.resp.contentLengthDone = s.calls.flatten.length
  ret : s.ret = 1
  stale : s.stale = false
  mem : b.len ≤ s.mem.length
  room : s.dataIn + s.dataInLength = b.len
  size : s.recvedSize = p.length
  part : (s.mem.drop s.dataIn).take p.length = p
  ne_nil : ∀ c ∈ s.chunks, c ≠ []

/-- The loop ends with all of `total` handed over, as a success if that is all there is. -/
structure FotaGet.Ended (s : FotaGet) (total : Bytes) (len : ℤ) : Prop where
  stale : s.stale = false
  calls : s.calls.flatten = total
  ret : s.ret = 0 ∨ s.ret = -1
  ret_iff : s.ret = 0 ↔ (total.length : ℤ) = len

/-- The loop goes on, with more in hand and less to come. -/
structure FotaGet.Goes (b : RecvBuf) (s : FotaGet) (total : Bytes) (left : ℕ) (len : ℤ) : Prop where
  reading : ∃ p, p ≠ [] ∧ s.Reading b p ∧ s.calls.flatten ++ p ++ s.chunks.flatten = total
  left : s.chunks.flatten.length < left
  length : s.resp.contentLength = len
  short : (s.calls.flatten.length : ℤ) < len

/-- A receive, with everything before it handed over. -/
theorem FotaGet.recv_step {b : RecvBuf} {s : FotaGet} (closed : Bool)
    (hne : ∀ c ∈ s.chunks, c ≠ []) (hv : s.resp.version = true)
    (hd : s.resp.contentLengthDone = s.calls.flatten.length) (hs : s.stale = false)
    (hm : b.len ≤ s.mem.length) (hr : s.dataIn + s.dataInLength = b.len)
    (hroom : s.chunks = [] ∨ 0 < s.dataInLength)
    (hlt : (s.calls.flatten.length : ℤ) < s.resp.contentLength) :
    (s.recv closed).Ended (s.calls.flatten ++ s.chunks.flatten) s.resp.contentLength ∨
      FotaGet.Goes b (s.recv closed) (s.calls.flatten ++ s.chunks.flatten) s.chunks.flatten.length
        s.resp.contentLength := by
  rcases hch : s.chunks with _ | ⟨c, cs⟩
  · left
    rw [FotaGet.recv_nil hch, if_neg (by omega)]
    refine ⟨hs, by simp, .inr rfl, ?_⟩
    simp only [List.flatten_nil, List.append_nil]
    omega
  · right
    obtain ⟨data, chunks, he, hdn, hdl, hfl, hcs, -⟩ := FotaGet.recv_cons hch
      (hne c (by simp [hch])) (hroom.resolve_left (by simp [hch]))
      fun x hx => hne x (by simp [hch, hx])
    have hml : (memcpy s.mem s.dataIn data).length = s.mem.length := length_memcpy (by omega)
    have hpart : ((memcpy s.mem s.dataIn data).drop s.dataIn).take data.length = data := by
      have : (memcpy s.mem s.dataIn data).take (s.dataIn + data.length) =
          s.mem.take s.dataIn ++ data := take_memcpy (by omega)
      rw [List.take_drop, Nat.add_comm, Nat.add_comm data.length, this]
      exact List.drop_left' (by rw [List.length_take]; omega)
    have hl := congrArg List.length hfl
    have := List.length_pos_iff.2 hdn
    rw [List.length_append] at hl
    rw [he, ← hch, ← hfl]
    refine ⟨⟨data, hdn, ⟨hv, hd, rfl, hs, by rw [hml]; exact hm, hr, rfl, hpart, hcs⟩, ?_⟩, ?_, rfl,
      hlt⟩
    · rw [List.append_assoc]
    · simp only [List.length_append]
      omega

/-- One pass over the body: the part received last is handed over, and the next one received. -/
theorem FotaGet.Reading.pass {b : RecvBuf} {accept : ℕ → Bool} {s : FotaGet} {p total : Bytes}
    (h : s.Reading b p) (closed : Bool) (hacc : ∀ k, accept k = true) (hb : 0 < b.len)
    (hroom : p = [] → s.chunks = [] ∨ 0 < s.dataInLength)
    (hlt : (s.calls.flatten.length : ℤ) < s.resp.contentLength)
    (ht : s.calls.flatten ++ p ++ s.chunks.flatten = total)
    (hle : (total.length : ℤ) ≤ s.resp.contentLength) :
    (s.pass b.len accept closed).Ended total s.resp.contentLength ∨
      FotaGet.Goes b (s.pass b.len accept closed) total s.chunks.flatten.length
        s.resp.contentLength := by
  have hsize := h.size
  have hdone := h.done
  by_cases hp : p = []
  · subst hp
    have hpass : s.pass b.len accept closed = s.recv closed := by
      rw [FotaGet.pass, if_neg (by simp [h.version]), if_neg]
      rintro ⟨-, h0⟩
      rw [hsize] at h0
      simp at h0
    rw [List.append_nil] at ht
    rw [hpass, ← ht]
    exact FotaGet.recv_step closed h.ne_nil h.version h.done h.stale h.mem h.room (hroom rfl) hlt
  · have hpl := List.length_pos_iff.2 hp
    have hcall : (s.mem.drop s.dataIn).take s.recvedSize.toNat = p := by
      rw [hsize, Int.toNat_natCast, h.part]
    have hcl : (s.calls ++ [p]).flatten = s.calls.flatten ++ p := by simp
    have hlen := congrArg List.length ht
    rw [List.length_append, List.length_append] at hlen
    unfold FotaGet.pass
    rw [if_neg (by simp [h.version]), if_pos (by omega)]
    simp only [hcall, hacc, Bool.not_true, Bool.false_eq_true, if_false]
    split_ifs with hfull
    · left
      have hnil : s.chunks.flatten = [] := List.length_eq_zero_iff.1 (by omega)
      rw [hnil, List.append_nil] at ht
      refine ⟨h.stale, by simp only [hcl, ht], .inl rfl, ?_⟩
      simp only [true_iff]
      omega
    · have hd' : s.resp.contentLengthDone + s.recvedSize = ((s.calls ++ [p]).flatten.length : ℤ) := by
        rw [hcl, List.length_append]
        omega
      have hlt' : ((s.calls ++ [p]).flatten.length : ℤ) < s.resp.contentLength := by
        rw [← hd']
        rw [hcl, List.length_append] at hd'
        omega
      have hstep := FotaGet.recv_step (b := b) closed
        (s := { s with
          calls := s.calls ++ [p]
          resp := { s.resp with
            contentLengthDone := s.resp.contentLengthDone + s.recvedSize }
          dataIn := 0
          dataInLength := b.len })
        h.ne_nil h.version hd' h.stale h.mem (Nat.zero_add _) (.inr hb) hlt'
      simp only [hcl, ht] at hstep
      exact hstep

/-- With a length, every part is handed over, and the end of the body is where the length says. -/
theorem body_run {b : RecvBuf} {accept : ℕ → Bool} (closed : Bool) (hacc : ∀ k, accept k = true)
    (hb : 0 < b.len) (total : Bytes) : ∀ (fuel : ℕ) {s : FotaGet} {p : Bytes}, s.Reading b p →
    s.chunks.flatten.length < fuel → (p = [] → s.chunks = [] ∨ 0 < s.dataInLength) →
    (s.calls.flatten.length : ℤ) < s.resp.contentLength →
    s.calls.flatten ++ p ++ s.chunks.flatten = total →
    (total.length : ℤ) ≤ s.resp.contentLength →
    (FotaGet.loop b.len accept closed fuel s).Ended total s.resp.contentLength
  | 0, _, _, _, hf, _, _, _, _ => absurd hf (by omega)
  | fuel + 1, s, p, h, hf, hroom, hlt, ht, hle => by
    have hret := h.ret
    rw [FotaGet.loop, if_pos (by omega)]
    rcases h.pass closed hacc hb hroom hlt ht hle with he | hg
    · rw [FotaGet.loop_stop (by rcases he.ret with h0 | h0 <;> omega)]
      exact he
    · obtain ⟨p', hp', hr, ht'⟩ := hg.reading
      have := hg.left
      rw [← hg.length] at hle ⊢
      exact body_run closed hacc hb total fuel hr (by omega) (fun h0 => absurd h0 hp')
        (by rw [hg.length]; exact hg.short) ht' hle

/-! ## The search -/

/-- The `n` bytes received are in the buffer, over what it held before. -/
structure FotaGet.Held (r : HttpResponse) (b : RecvBuf) (s : FotaGet) (n : ℕ) : Prop where
  mem : s.mem = r.stream.take n ++ b.mem.drop n
  room : s.dataIn + s.dataInLength = b.len
  resp : s.resp = ⟨false, 0, 0, 0⟩
  calls : s.calls = []
  stale : s.stale = false
  ne_nil : ∀ c ∈ s.chunks, c ≠ []
  arrives : r.stream.take n ++ s.chunks.flatten <+: r.stream
  le : n ≤ b.len
  inside : n ≤ r.stream.length

/-- The header is to be searched in the bytes received. -/
structure FotaGet.Searching (r : HttpResponse) (b : RecvBuf) (s : FotaGet) (n : ℕ) : Prop
    extends s.Held r b n where
  at_ : s.dataIn + s.recvedSize = n
  size : 0 ≤ s.recvedSize
  ret : s.ret = 1

namespace FotaGet

variable {r : HttpResponse} {b : RecvBuf} {s : FotaGet} {n : ℕ}

theorem Held.length_take (h : s.Held r b n) : (r.stream.take n).length = n := by
  have := h.inside
  rw [List.length_take]
  omega

/-- The next receive of the search. -/
theorem Held.recv (h : s.Held r b n) (hn : s.dataIn = n) (hlt : n < b.len) {c : Bytes}
    {cs : List Bytes} (hch : s.chunks = c :: cs) (closed : Bool) :
    ∃ k, 0 < k ∧ (s.recv closed).Searching r b (n + k) ∧
      r.stream.take (n + k) ++ (s.recv closed).chunks.flatten =
        r.stream.take n ++ s.chunks.flatten ∧
      (k = c.length ∧ (s.recv closed).chunks = cs ∨ n + k = b.len ∧ k < c.length) := by
  have hmem : n ≤ b.mem.length := by have := b.le; omega
  have hr := h.room
  have htl := h.length_take
  obtain ⟨data, chunks, he, hdn, hdl, hfl, hcs, hor⟩ := FotaGet.recv_cons hch
    (h.ne_nil c (by simp [hch])) (by omega) fun x hx => h.ne_nil x (by simp [hch, hx])
  have hpos := List.length_pos_iff.2 hdn
  have hpre : r.stream.take n ++ data <+: r.stream := by
    refine List.IsPrefix.trans ?_ h.arrives
    rw [← hfl, ← List.append_assoc]
    exact List.prefix_append _ _
  have htake : r.stream.take (n + data.length) = r.stream.take n ++ data := by
    have := List.prefix_iff_eq_take.1 hpre
    rw [List.length_append, htl] at this
    exact this.symm
  have hin := hpre.length_le
  rw [List.length_append, htl] at hin
  refine ⟨data.length, hpos, ?_, ?_, ?_⟩
  · rw [he]
    refine ⟨⟨?_, hr, h.resp, h.calls, h.stale, hcs, ?_, by omega, hin⟩, by simp only; omega, by simp,
      rfl⟩
    · simp only [h.mem, hn, memcpy]
      rw [List.take_append_of_le_length htl.ge, List.take_of_length_le htl.le, htake,
        List.drop_append, List.drop_eq_nil_of_le (by omega), htl, List.nil_append, List.drop_drop]
      congr 2
      omega
    · rw [htake, List.append_assoc, hfl]
      exact h.arrives
  · rw [he, htake, List.append_assoc, hfl]
  · rw [he]
    rcases hor with ⟨hd, hc⟩ | ⟨hd, hc⟩
    · exact .inl ⟨by rw [hd], hc⟩
    · exact .inr ⟨by omega, by omega⟩

/-- Nothing found: the next receive goes behind what was received. -/
theorem Searching.pass_none (h : s.Searching r b n) (hlt : n < b.len)
    (hf : strstrHeaderEnd s.mem = none) (accept : ℕ → Bool) (closed : Bool) :
    ∃ s' : FotaGet, s.pass b.len accept closed = s'.recv closed ∧ s'.Held r b n ∧ s'.dataIn = n ∧
      s'.chunks = s.chunks := by
  have hat := h.at_
  have hsize := h.size
  have hroom := h.room
  have hb := b.lt
  refine ⟨{ s with
    dataIn := (s.dataIn + s.recvedSize).toNat
    dataInLength := ((s.dataInLength - s.recvedSize) % 2 ^ 32).toNat }, ?_, ?_, ?_, rfl⟩
  · rw [FotaGet.pass, if_pos (by rw [h.resp]), hf]
    simp only
    rw [if_neg (by omega)]
  · exact ⟨h.mem, by simp only; omega, h.resp, h.calls, h.stale, h.ne_nil, h.arrives, h.le, h.inside⟩
  · simp only
    omega

/-- Something found in less than the header: it ends behind what was received. -/
theorem Searching.pass_early (h : s.Searching r b n) (hlt : n < r.header.length) {j : ℕ}
    (hf : strstrHeaderEnd s.mem = some j) (accept : ℕ → Bool) (closed : Bool) :
    (s.pass b.len accept closed).stale = true := by
  have hst : r.stream.take n = r.header.take n := by
    rw [HttpResponse.stream, List.take_append_of_le_length hlt.le]
  have hat := h.at_
  have hj : n < j + 4 := r.headerEnd_early hlt (by rw [← hst, ← h.mem]; exact hf)
  rw [FotaGet.pass, if_pos (by rw [h.resp]), hf]
  simp only
  split_ifs
  · simp only [Bool.or_eq_true, decide_eq_true_eq]
    omega
  · simp only [Bool.or_eq_true, decide_eq_true_eq]
    omega

/-- The header was received: it is found, and what is behind it is the first of the body. -/
theorem Searching.pass_found (h : s.Searching r b n) (hle : r.header.length ≤ n)
    (accept : ℕ → Bool) (closed : Bool) : ∃ s', s.pass b.len accept closed = s' ∧
      s'.Reading b (r.body.take (n - r.header.length)) ∧
      s'.resp.contentLength = r.parsedLength ∧ s'.calls = [] ∧ s'.chunks = s.chunks ∧
      s'.dataInLength = b.len - r.header.length := by
  have hat := h.at_
  have hbl := b.lt
  have hlen := h.le
  have hin := h.inside
  have h4 := r.four_le
  have hst : r.stream.take n = r.header ++ r.body.take (n - r.header.length) := by
    rw [HttpResponse.stream, List.take_append, List.take_of_length_le hle]
  have hmem : s.mem = r.header ++ (r.body.take (n - r.header.length) ++ b.mem.drop n) := by
    rw [h.mem, hst, List.append_assoc]
  have hbody : (r.body.take (n - r.header.length)).length = n - r.header.length := by
    rw [HttpResponse.stream, List.length_append] at hin
    rw [List.length_take]
    omega
  refine ⟨{ s with
    resp := ⟨true, 200, r.parsedLength, 0⟩
    recvedSize := (n - r.header.length : ℕ)
    dataIn := r.header.length
    dataInLength := b.len - r.header.length
    stale := false }, ?_, ⟨rfl, ?_, h.ret, rfl, ?_, ?_, ?_, ?_, h.ne_nil⟩, rfl, h.calls, rfl, rfl⟩
  · have hdl : ((b.len - (r.header.length - 4 + 4 : ℕ) : ℤ) % 2 ^ 32).toNat =
        b.len - r.header.length := by omega
    have hrs : ((s.dataIn : ℤ) + s.recvedSize - (r.header.length - 4 + 4 : ℕ)) =
        ((n - r.header.length : ℕ) : ℤ) := by omega
    rw [FotaGet.pass, if_pos (by rw [h.resp]), hmem, r.headerEnd]
    simp only
    rw [h.resp, r.parse, if_pos rfl, hdl, hrs, h.stale, Nat.sub_add_cancel h4, ← hmem]
    simp only [Bool.false_or, FotaGet.mk.injEq, true_and, decide_eq_false_iff_not]
    omega
  · simp [h.calls]
  · have := b.le
    simp only [h.mem, List.length_append, h.length_take, List.length_drop]
    omega
  · simp only
    omega
  · rw [hbody]
  · simp only
    rw [hmem, List.drop_left, List.take_left]

end FotaGet

/-! ## The reader -/

/-- The callback was given the part of the body that arrived, nothing else was interpreted, and
the reader succeeds exactly when the whole response arrived. -/
structure Delivers (r : HttpResponse) (t : HttpTransport) (s : FotaGet) : Prop where
  stale : s.stale = false
  calls : s.calls.flatten = t.arrived.drop r.header.length
  ret : s.ret = 0 ∨ s.ret = -1
  ret_iff : s.ret = 0 ↔ t.arrived = r.stream

/-- What the reader needs of a header that arrives whole. -/
def BodyClear (r : HttpResponse) (b : RecvBuf) (t : HttpTransport) : Prop :=
  if 0 < r.parsedLength then r.header.length < b.len ∨ t.arrived.length = r.header.length
  else t.arrived.length = r.header.length ∧ (t.closed = true ↔ r.body = [])

/-- No receive that leaves the header incomplete leaves the empty line complete with the bytes the
buffer had before; a header that does not arrive whole ends with an error, if anything arrives; and
a header that does is fit for its body. -/
structure ClearOfStale (r : HttpResponse) (b : RecvBuf) (t : HttpTransport) : Prop where
  found : ∀ pre, pre <+: t.chunks → pre ≠ [] → pre.flatten.length < r.header.length →
    strstrHeaderEnd (pre.flatten ++ b.mem.drop pre.flatten.length) = none
  cut : t.arrived.length < r.header.length → t.chunks = [] ∨ t.closed = false
  body : r.header.length ≤ t.arrived.length → BodyClear r b t

section Reader

variable {r : HttpResponse} {b : RecvBuf} {t : HttpTransport} {accept : ℕ → Bool}

theorem eq_nil_of_flatten {cs : List Bytes} (hne : ∀ c ∈ cs, c ≠ []) (h : cs.flatten = []) :
    cs = [] := by
  rcases cs with _ | ⟨c, cs⟩
  · rfl
  · rw [List.flatten_cons, List.append_eq_nil_iff] at h
    exact absurd h.1 (hne c (by simp))

/-- What arrived is the header and `d`, the first of the body. -/
structure Brings (r : HttpResponse) (t : HttpTransport) (d : Bytes) : Prop where
  arrived : t.arrived = r.header ++ d
  body : d <+: r.body

namespace Brings

variable {d : Bytes}

theorem drop (h : Brings r t d) : t.arrived.drop r.header.length = d := by
  rw [h.arrived, List.drop_left]

theorem length (h : Brings r t d) : t.arrived.length = r.header.length + d.length := by
  rw [h.arrived, List.length_append]

theorem whole (h : Brings r t d) : t.arrived = r.stream ↔ d.length = r.body.length := by
  rw [h.arrived, HttpResponse.stream, List.append_cancel_left_eq]
  exact ⟨congrArg List.length, h.body.eq_of_length⟩

end Brings

namespace FotaGet

variable {s : FotaGet} {p : Bytes} {n fuel : ℕ}

/-- With no room left behind the header, the next receive ends the loop. -/
theorem Reading.full (hr : s.Reading b []) (ha : Brings r t s.chunks.flatten)
    (hcalls : s.calls = []) (hroom : s.dataInLength = 0) (hl : 0 < s.resp.contentLength)
    (hne : s.chunks ≠ []) (hf : 0 < fuel) :
    ¬ Delivers r t (loop b.len accept t.closed fuel s) := by
  obtain ⟨fuel, rfl⟩ : ∃ m, fuel = m + 1 := ⟨fuel - 1, by omega⟩
  obtain ⟨c, cs, hcc⟩ := List.exists_cons_of_ne_nil hne
  have hsz := hr.size
  have hret := hr.ret
  have hd := hr.done
  rw [hcalls, List.flatten_nil, List.length_nil, Nat.cast_zero] at hd
  have hpass : s.pass b.len accept t.closed = { s with recvedSize := 0, ret := -1 } := by
    rw [FotaGet.pass, if_neg (by simp [hr.version]), if_neg (by rw [hsz]; simp), recv, hcc]
    simp only [hroom, List.take_zero, List.length_nil, if_true]
    rw [hd, if_neg (by omega)]
  rw [loop, if_pos (by omega), hpass, loop_stop (by simp)]
  intro hdel
  have hnil := hdel.calls
  rw [ha.drop, hcalls, List.flatten_nil] at hnil
  exact hne (eq_nil_of_flatten hr.ne_nil hnil.symm)

/-- From an announced body on. -/
theorem Reading.announced_iff (hr : s.Reading b p) (ha : Brings r t (p ++ s.chunks.flatten))
    (hcalls : s.calls = []) (hfit : r.header.length ≤ b.len)
    (hroom : s.dataInLength = b.len - r.header.length) (hp : p.length ≤ b.len - r.header.length)
    (hl : s.resp.contentLength = r.body.length) (hpos : 0 < r.body.length)
    (hacc : ∀ k, accept k = true) (hf : s.chunks.flatten.length < fuel) :
    Delivers r t (loop b.len accept t.closed fuel s) ↔
      r.header.length < b.len ∨ t.arrived.length = r.header.length := by
  have h4 := r.four_le
  by_cases hfull : p = [] ∧ s.chunks ≠ [] ∧ r.header.length = b.len
  · obtain ⟨rfl, hne, hhb⟩ := hfull
    refine iff_of_false (hr.full ha hcalls (by omega) (by omega) hne (by omega)) ?_
    have hflat : s.chunks.flatten ≠ [] := fun h => hne (eq_nil_of_flatten hr.ne_nil h)
    have := List.length_pos_iff.2 hflat
    rw [ha.length, List.nil_append]
    omega
  · have hgo : p = [] → s.chunks = [] ∨ 0 < s.dataInLength := by
      intro hp0
      by_cases hne : s.chunks = []
      · exact .inl hne
      · have : r.header.length ≠ b.len := fun he => hfull ⟨hp0, hne, he⟩
        exact .inr (by omega)
    have hbr := body_run t.closed hacc (by omega) (p ++ s.chunks.flatten) fuel hr hf hgo
      (by rw [hcalls, hl]; simp only [List.flatten_nil, List.length_nil]; omega)
      (by rw [hcalls]; simp) (by rw [hl]; exact_mod_cast ha.body.length_le)
    rw [hl] at hbr
    refine iff_of_true ⟨hbr.stale, by rw [hbr.calls, ha.drop], hbr.ret, ?_⟩ ?_
    · rw [hbr.ret_iff, ha.whole]
      omega
    · by_contra hno
      rw [not_or] at hno
      have hp0 : p = [] := List.length_eq_zero_iff.1 (by omega)
      refine hfull ⟨hp0, fun h0 => hno.2 ?_, by omega⟩
      rw [ha.length, hp0, h0]
      rfl

/-- From a body whose length was not read on: what arrives of it is lost. -/
theorem Reading.idle_iff (hr : s.Reading b p) (ha : Brings r t (p ++ s.chunks.flatten))
    (hcalls : s.calls = []) (hl : s.resp.contentLength = 0) (hf : 0 < fuel) :
    Delivers r t (loop b.len accept t.closed fuel s) ↔
      t.arrived.length = r.header.length ∧ (t.closed = true ↔ r.body = []) := by
  have hdrop := ha.drop
  have hal := ha.length
  by_cases hd0 : p ++ s.chunks.flatten = []
  · obtain ⟨fuel, rfl⟩ : ∃ m, fuel = m + 1 := ⟨fuel - 1, by omega⟩
    have hret := hr.ret
    have hd := hr.done
    have hnil := eq_nil_of_flatten hr.ne_nil (List.append_eq_nil_iff.1 hd0).2
    have hend : ∀ ret : ℤ, ret = (if t.closed = true then 0 else -1) → ret ≤ 0 := by
      intro ret he
      split_ifs at he <;> omega
    have hwhole : t.arrived = r.stream ↔ r.body = [] := by
      rw [ha.whole, hd0, List.length_nil, eq_comm, List.length_eq_zero_iff]
    rw [hcalls] at hd
    rw [hd0, List.length_nil, Nat.add_zero] at hal
    rw [loop, if_pos (by omega), pass_idle hr.version hl.le, recv_nil hnil, hd, hl]
    simp only [List.flatten_nil, List.length_nil, Nat.cast_zero, and_true]
    rw [loop_stop (hend _ rfl)]
    constructor
    · intro hdel
      have hri := hdel.ret_iff
      rw [hwhole] at hri
      refine ⟨hal, ?_⟩
      rw [← hri]
      by_cases hcl : t.closed = true <;> simp [hcl]
    · rintro ⟨-, hiff⟩
      refine ⟨hr.stale, by rw [hdrop, hd0, hcalls]; rfl, ?_, ?_⟩
      · by_cases hcl : t.closed = true <;> simp [hcl]
      · rw [hwhole, ← hiff]
        by_cases hcl : t.closed = true <;> simp [hcl]
  · have hpos := List.length_pos_iff.2 hd0
    refine iff_of_false (fun hdel => ?_) fun h => by omega
    have hlost := hdel.calls
    rw [loop_idle b.len accept t.closed fuel hr.version hl.le, hcalls, hdrop] at hlost
    exact hd0 hlost.symm

/-- From the pass that finds the header on. -/
theorem Searching.found_iff (h : s.Searching r b n) (hfit : r.header.length ≤ b.len)
    (hle : r.header.length ≤ n) (hacc : ∀ k, accept k = true)
    (harr : t.arrived = r.stream.take n ++ s.chunks.flatten)
    (hf : s.chunks.flatten.length + 1 < fuel) :
    Delivers r t (loop b.len accept t.closed fuel s) ↔ BodyClear r b t := by
  obtain ⟨fuel, rfl⟩ : ∃ m, fuel = m + 1 := ⟨fuel - 1, by omega⟩
  obtain ⟨s', hs', hr, hlen, hcalls, hch, hroom⟩ := h.pass_found hle accept t.closed
  have hret := h.ret
  have hnl := h.le
  have hst : r.stream.take n = r.header ++ r.body.take (n - r.header.length) := by
    rw [HttpResponse.stream, List.take_append, List.take_of_length_le hle]
  set p := r.body.take (n - r.header.length) with hp
  have ha : Brings r t (p ++ s'.chunks.flatten) := by
    have hb := h.arrives
    rw [hst, HttpResponse.stream, List.append_assoc, List.prefix_append_right_inj, ← hch] at hb
    exact ⟨by rw [harr, hst, List.append_assoc, hch], hb⟩
  have hpl : p.length ≤ n - r.header.length := by
    rw [hp, List.length_take]
    omega
  rw [loop, if_pos (by omega), hs', BodyClear]
  by_cases hc : 0 < r.parsedLength
  · have hcb : r.parsedLength = r.body.length := by
      rw [HttpResponse.parsedLength] at hc ⊢
      split_ifs at hc ⊢
      · rfl
      · omega
    rw [if_pos hc]
    exact hr.announced_iff ha hcalls hfit hroom (by omega) (by rw [hlen, hcb]) (by omega) hacc
      (by rw [hch]; omega)
  · rw [if_neg hc]
    exact hr.idle_iff ha hcalls (by rw [hlen]; omega) (by omega)

end FotaGet

/-- Of the prefixes of what was received with a part more, those without the part end before it. -/
theorem prefix_concat_cases (pre : List Bytes) {pre' cs : List Bytes} {c : Bytes}
    (h : pre' <+: pre ++ c :: cs) : pre' <+: pre ∨ pre ++ [c] <+: pre' := by
  have hp : pre <+: pre ++ c :: cs := List.prefix_append _ _
  have hpc : pre ++ [c] <+: pre ++ c :: cs := by
    rw [List.prefix_append_right_inj]
    simp
  rcases Nat.lt_or_ge pre.length pre'.length with hl | hl
  · exact .inr (List.prefix_of_prefix_length_le hpc h (by simp; omega))
  · exact .inl (List.prefix_of_prefix_length_le h hp hl)

/-- After none of the receives `pre` was the empty line complete with the bytes from before. -/
def Unfound (b : RecvBuf) (pre : List Bytes) : Prop :=
  ∀ pre', pre' <+: pre → pre' ≠ [] →
    strstrHeaderEnd (pre'.flatten ++ b.mem.drop pre'.flatten.length) = none

theorem Unfound.concat {pre : List Bytes} {c : Bytes} (h : Unfound b pre)
    (hc : strstrHeaderEnd ((pre ++ [c]).flatten ++ b.mem.drop (pre ++ [c]).flatten.length) = none) :
    Unfound b (pre ++ [c]) := by
  intro pre' hp hne
  rcases List.prefix_concat_iff.1 hp with rfl | hp
  · exact hc
  · exact h pre' hp hne

theorem Unfound.clearOfStale_iff {pre cs : List Bytes} {c : Bytes} (h : Unfound b pre)
    (htc : t.chunks = pre ++ c :: cs) (hle : r.header.length ≤ (pre ++ [c]).flatten.length) :
    ClearOfStale r b t ↔ BodyClear r b t := by
  have hal : r.header.length ≤ t.arrived.length := by
    have : t.arrived = (pre ++ [c]).flatten ++ cs.flatten := by
      rw [HttpTransport.arrived, htc, ← List.flatten_append, List.append_assoc]
      rfl
    rw [this, List.length_append]
    omega
  refine ⟨fun hc => hc.body hal, fun hb => ⟨fun pre' hp hne hl => ?_, fun hl => by omega,
    fun _ => hb⟩⟩
  rw [htc] at hp
  rcases prefix_concat_cases _ hp with hp | ⟨rest, rfl⟩
  · exact h pre' hp hne
  · rw [List.flatten_append, List.length_append] at hl
    omega

namespace FotaGet

variable {s : FotaGet} {n fuel : ℕ}

/-- The transport ends in the header. -/
theorem Held.cut_iff (h : s.Held r b n) (hch : s.chunks = []) (hal : t.arrived.length = n)
    (hlt : n < r.header.length) (ht : t.chunks ≠ []) (hq : Unfound b t.chunks) :
    Delivers r t (loop b.len accept t.closed fuel (s.recv t.closed)) ↔ ClearOfStale r b t := by
  have hdrop : t.arrived.drop r.header.length = [] := List.drop_eq_nil_of_le (by omega)
  have hne : t.arrived ≠ r.stream := fun he => by
    have := congrArg List.length he
    rw [HttpResponse.stream, List.length_append] at this
    omega
  have hend : ∀ ret : ℤ, ret = (if t.closed = true then 0 else -1) → ret ≤ 0 := by
    intro ret he
    split_ifs at he <;> omega
  rw [recv_nil hch, h.resp]
  simp only [and_true]
  rw [loop_stop (hend _ rfl)]
  constructor
  · intro hd
    have hri := hd.ret_iff
    have hcl : t.closed = false := by
      by_contra hcl
      exact hne (hri.1 (by simp [hcl]))
    exact ⟨fun pre' hp hn _ => hq pre' hp hn, fun _ => .inr hcl, fun hl => by omega⟩
  · intro hc
    have hcl := (hc.cut (by omega)).resolve_left ht
    refine ⟨h.stale, by rw [hdrop, h.calls]; rfl, by simp [hcl], ?_⟩
    simp [hcl, hne]

/-- The empty line is found in less than the header: the rest of it are bytes from before. -/
theorem Searching.early_iff (h : s.Searching r b n) (hlt : n < r.header.length) {j : ℕ}
    (hfind : strstrHeaderEnd s.mem = some j) {pre : List Bytes} (hp : pre <+: t.chunks)
    (hne : pre ≠ []) (hn : pre.flatten.length = n)
    (hmem : s.mem = pre.flatten ++ b.mem.drop pre.flatten.length) (fuel : ℕ) :
    Delivers r t (loop b.len accept t.closed fuel (s.pass b.len accept t.closed)) ↔
      ClearOfStale r b t := by
  refine iff_of_false (fun hd => ?_) fun hc => ?_
  · have hst := loop_stale b.len accept t.closed fuel (h.pass_early hlt hfind accept t.closed)
    rw [hd.stale] at hst
    exact absurd hst (by decide)
  · have := hc.found pre hp hne (by omega)
    rw [← hmem, hfind] at this
    exact absurd this (by simp)

/-- From a receive of the search on. -/
theorem Held.search_iff (hfit : r.header.length ≤ b.len) (hacc : ∀ k, accept k = true)
    (harr : t.arrived <+: r.stream) (ht : t.chunks ≠ []) :
    ∀ (cs pre : List Bytes) {s : FotaGet} {fuel : ℕ}, t.chunks = pre ++ cs → s.chunks = cs →
    s.Held r b pre.flatten.length → s.dataIn = pre.flatten.length →
    pre.flatten.length < r.header.length → Unfound b pre → cs.flatten.length + 2 ≤ fuel →
    (Delivers r t (loop b.len accept t.closed fuel (s.recv t.closed)) ↔ ClearOfStale r b t)
  | [], pre, s, fuel, htc, hch, h, _, hlt, hq, _ => by
    rw [List.append_nil] at htc
    exact h.cut_iff hch (by rw [HttpTransport.arrived, htc]) hlt ht (htc ▸ hq)
  | c :: cs, pre, s, fuel, htc, hch, h, hn, hlt, hq, hf => by
    obtain ⟨fuel, rfl⟩ : ∃ m, fuel = m + 1 := ⟨fuel - 1, by omega⟩
    obtain ⟨k, hk, hs, hfl, hor⟩ := h.recv hn (by omega) hch t.closed
    have htc' : t.chunks = (pre ++ [c]) ++ cs := by simp [htc]
    have hpre : (pre ++ [c]).flatten <+: r.stream := by
      rw [HttpTransport.arrived, htc', List.flatten_append] at harr
      exact (List.prefix_append _ _).trans harr
    have hlen : (pre ++ [c]).flatten.length = pre.flatten.length + c.length := by simp
    have hleft : (s.recv t.closed).chunks.flatten.length + k = (c :: cs).flatten.length := by
      have hl := congrArg List.length hfl
      rw [List.length_append, List.length_append, hs.length_take, h.length_take, hch] at hl
      omega
    rcases Nat.lt_or_ge (pre.flatten.length + k) r.header.length with hlt' | hge
    · -- the header is still incomplete, so the whole part was received
      obtain ⟨rfl, hcs⟩ := hor.resolve_right (by omega)
      have hret := hs.ret
      have hmem : (s.recv t.closed).mem =
          (pre ++ [c]).flatten ++ b.mem.drop (pre ++ [c]).flatten.length := by
        rw [hs.mem, ← hlen, ← List.prefix_iff_eq_take.1 hpre]
      rw [loop, if_pos (by omega)]
      rcases hfind : strstrHeaderEnd (s.recv t.closed).mem with _ | j
      · obtain ⟨s', hs', hheld, hdi, hch'⟩ :=
          hs.pass_none (by omega) hfind accept t.closed
        rw [hs']
        rw [← hlen] at hheld hdi hlt'
        refine Held.search_iff hfit hacc harr ht cs (pre ++ [c]) htc' (hch'.trans hcs) hheld hdi
          hlt' (hq.concat (hmem ▸ hfind)) ?_
        rw [hcs] at hleft
        omega
      · exact hs.early_iff hlt' hfind (htc' ▸ List.prefix_append _ _) (by simp) hlen hmem fuel
    · have harr' : t.arrived =
          r.stream.take (pre.flatten.length + k) ++ (s.recv t.closed).chunks.flatten := by
        have hpf : pre.flatten <+: r.stream := by
          rw [List.flatten_append] at hpre
          exact (List.prefix_append _ _).trans hpre
        rw [hfl, ← List.prefix_iff_eq_take.1 hpf, hch, HttpTransport.arrived, htc,
          List.flatten_append]
      rw [hs.found_iff hfit hge hacc harr' (by omega)]
      exact (hq.clearOfStale_iff htc (by omega)).symm

end FotaGet

/-- Whatever the buffer held before and however the transport splits the response, the reader hands
over the body and tells whether it is complete, exactly if the search does not end in bytes that
were not received and the header and the end of the transport are as the reader expects them. -/
theorem httpc_get_iff (hfit : r.header.length ≤ b.len) (harr : t.arrived <+: r.stream)
    (hacc : ∀ k, accept k = true) :
    Delivers r t (atcmdFotaHttpcGet_ b.mem b.len accept t) ↔ ClearOfStale r b t := by
  have h4 := r.four_le
  unfold atcmdFotaHttpcGet_
  rcases hch : t.chunks with _ | ⟨c, cs⟩
  · have hnil : t.arrived = [] := by rw [HttpTransport.arrived, hch]; rfl
    have hne : t.arrived ≠ r.stream := fun he => by
      have := congrArg List.length he
      rw [hnil, HttpResponse.stream, List.length_append, List.length_nil] at this
      omega
    refine ⟨fun _ => ⟨fun pre hp hn _ => ?_, fun _ => .inl hch, fun hl => ?_⟩,
      fun _ => ⟨rfl, by rw [hnil]; simp, .inr rfl, by simp [hne]⟩⟩
    · rw [hch, List.prefix_nil] at hp
      exact absurd hp hn
    · rw [hnil, List.length_nil] at hl
      omega
  · simp only
    refine FotaGet.Held.search_iff hfit hacc harr (by simp [hch]) (c :: cs) [] hch rfl
      ⟨by simp, by simp, rfl, rfl, rfl, ?_, ?_, Nat.zero_le _, Nat.zero_le _⟩ rfl ?_ ?_ ?_
    · exact fun x hx => t.ne_nil x (hch ▸ hx)
    · rw [HttpTransport.arrived, hch] at harr
      simpa using harr
    · simp only [List.flatten_nil, List.length_nil]
      omega
    · intro pre' hp hne
      exact absurd (List.prefix_nil.1 hp) hne
    · rw [HttpTransport.arrived, hch]
      omega

end Reader

/-- A response whose body is `hi`. -/
def hiResponse : HttpResponse where
  minor := 49
  reason := bytes " OK"
  before := []
  length := ⟨bytes "Content-Length", bytes " 2", by decide, by decide +kernel, by decide +kernel⟩
  after := []
  pad := [32]
  digits := [50]
  trail := []
  body := bytes "hi"
  minor_digit := rfl
  reason_text := by decide +kernel
  reason_sp := .inr rfl
  length_name := by
    show (bytes "Content-Length").map toLower = bytes "content-length"
    decide
  others := by simp
  length_value := by decide
  pad_space := by decide +kernel
  trail_space := by decide +kernel
  digits_ne := by decide
  digits_scan := by decide
  body_lt := by decide

/-- The response arrives in two parts, the first of them all but the empty line. -/
def hiTransport : HttpTransport where
  chunks := [hiResponse.header.take 36, 13 :: 10 :: bytes "hi"]
  closed := true
  ne_nil := by decide

/-- A buffer of 64 bytes with `mem` at its start, over zeros. -/
def bufOf (mem : Bytes) : RecvBuf where
  mem := mem ++ List.replicate 64 0
  len := 64
  le := by simp
  lt := by decide

theorem httpc_get_iff_hi : Delivers hiResponse hiTransport
    (atcmdFotaHttpcGet_ (bufOf []).mem 64 (fun _ => true) hiTransport) := by
  refine (httpc_get_iff (b := bufOf []) (by decide) (by decide +kernel) fun _ => rfl).2
    ⟨fun pre hp hne hl => ?_, fun hl => absurd hl (by decide +kernel), fun _ => ?_⟩
  · rcases prefix_concat_cases [hiResponse.header.take 36] hp with hp | hp
    · rcases List.prefix_cons_iff.1 hp with rfl | ⟨rest, rfl, hr⟩
      · exact absurd rfl hne
      · rw [List.prefix_nil.1 hr]
        decide +kernel
    · obtain ⟨rest, rfl⟩ := hp
      simp only [List.flatten_append, List.length_append] at hl
      have h0 : hiResponse.header.length ≤ (List.flatten [hiResponse.header.take 36]).length +
          (List.flatten [13 :: 10 :: bytes "hi"]).length := by decide +kernel
      omega
  · show if 0 < hiResponse.parsedLength then _ else _
    rw [if_pos (by decide)]
    exact .inl (by decide)

/-- Two bytes the buffer had before end the header: what is received next, the header's own end
first, is taken for the body, and the reader fails. -/
theorem httpc_get_fails_stale : hiTransport.arrived = hiResponse.stream ∧
    ¬ Delivers hiResponse hiTransport
      (atcmdFotaHttpcGet_ (bufOf (List.replicate 36 65 ++ [13, 10])).mem 64 (fun _ => true)
        hiTransport) := by
  refine ⟨by decide +kernel, fun h => ?_⟩
  have hc := h.calls
  rw [show (atcmdFotaHttpcGet_ (bufOf (List.replicate 36 65 ++ [13, 10])).mem 64 (fun _ => true)
      hiTransport).calls = [13 :: 10 :: bytes "hi"] by decide +kernel] at hc
  exact absurd hc (by decide +kernel)


end NrcAtcmd
