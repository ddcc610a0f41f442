import Mathlib.Data.List.TakeWhile
import NrcAtcmd.HostScript

/-!
# The parameters of a line

`raspi_cli_parse_params` writes zeros into the text and moves pointers into it. What it comes to is
`paramText` of each of the fields the text has (`raspiCliParseParams_fields`), unless a quote opens a
string behind the tenth.
-/

namespace NrcAtcmd

/-- The quotes that open a string in a field, of which the first closes one if `string`. -/
def opens (string : Bool) (field : Bytes) : ℕ := (field.count 34 + if string then 0 else 1) / 2

/-- The text with zeros for its quotes and the delimiters between its fields. -/
def paramBlank : List Bytes → Bytes
  | [] => []
  | [f] => f.map fun b => if b = 34 then 0 else b
  | f :: fs => (f.map fun b => if b = 34 then 0 else b) ++ 0 :: paramBlank fs

/-- Where the parameters begin in the text, if the first field is at `i`. -/
def paramStarts : ℕ → List Bytes → List ℕ
  | _, [] => []
  | i, f :: fs => (i + opens false f) :: paramStarts (i + f.length + 1) fs

/-- A quote opens a string behind the tenth parameter. -/
def ParamFault : ℕ → Bool → List Bytes → Prop
  | _, _, [] => False
  | k, string, f :: fs => 10 ≤ k ∧ 0 < opens string f ∨ ParamFault (k + 1) false fs

section Opens

variable {b : UInt8} {f : Bytes} {string : Bool}

@[simp] theorem opens_nil : opens string [] = 0 := by cases string <;> rfl

theorem opens_quote_false : opens false (34 :: f) = 1 + opens true f := by
  simp only [opens, List.count_cons_self, Bool.false_eq_true, if_false, if_true]
  omega

theorem opens_quote_true : opens true (34 :: f) = opens false f := by
  simp [opens]

theorem opens_cons (hb : b ≠ 34) : opens string (b :: f) = opens string f := by
  simp [opens, hb]

theorem paramBlank_cons {fs : List Bytes} (hfs : fs ≠ []) :
    paramBlank (fs.modifyHead (b :: ·)) = (if b = 34 then 0 else b) :: paramBlank fs := by
  rcases fs with _ | ⟨f, _ | ⟨f', fs⟩⟩
  · exact absurd rfl hfs
  · rfl
  · rfl

theorem paramFields_ne_nil (delimiter : UInt8) (string : Bool) (t : Bytes) :
    paramFields delimiter string t ≠ [] := by
  induction t generalizing string with
  | nil => simp [paramFields]
  | cons b t ih =>
    rw [paramFields]
    split
    · simp
    · obtain ⟨f, fs, hfs⟩ := List.exists_cons_of_ne_nil (ih (if b = 34 then !string else string))
      simp [hfs]

end Opens

/-- What the parser comes to in `argc - 1 = k` of its parameters, at `i` of the text, where the one
it is in begins at `a`. -/
def Parsed (n k i a : ℕ) (string : Bool) (argv : List ℕ) (done : Bytes) (f : Bytes)
    (fs : List Bytes) (res : Option ParseParams) : Prop :=
  ParamFault k string (f :: fs) ∧ res = none ∨ ¬ ParamFault k string (f :: fs) ∧ ∃ p, res = some p ∧
    p.argc = k + (fs.length + 1) ∧ p.buf = done ++ paramBlank (f :: fs) ∧
      (k + (fs.length + 1) ≤ n → p.argv.take (k + (fs.length + 1)) =
        argv.take k ++ (a + opens string f) :: paramStarts (i + f.length + 1) fs)

namespace Parsed

variable {n k i a a' : ℕ} {string string' : Bool} {argv argv' : List ℕ} {done f : Bytes}
  {fs : List Bytes} {b : UInt8} {res : Option ParseParams}

/-- A character of a field. -/
theorem cons (h : Parsed n k (i + 1) a' string' argv' (done ++ [if b = 34 then 0 else b]) f fs res)
    (hopens : 10 ≤ k → (0 < opens string (b :: f) ↔ 0 < opens string' f))
    (ha : a' + opens string' f = a + opens string (b :: f)) (hargv : argv'.take k = argv.take k) :
    Parsed n k i a string argv done (b :: f) fs res := by
  have hfault : ParamFault k string ((b :: f) :: fs) ↔ ParamFault k string' (f :: fs) :=
    or_congr (and_congr_right hopens) Iff.rfl
  rcases h with ⟨hf, hres⟩ | ⟨hf, p, hres, hargc, hbuf, htake⟩
  · exact .inl ⟨hfault.2 hf, hres⟩
  · refine .inr ⟨fun h => hf (hfault.1 h), p, hres, hargc, ?_, fun hk => ?_⟩
    · rw [hbuf, List.append_assoc]
      congr 1
      exact (paramBlank_cons (List.cons_ne_nil f fs)).symm
    · rw [htake hk, ha, hargv, List.length_cons]
      congr 3
      omega

/-- A delimiter behind a field. -/
theorem delimiter (h : Parsed n (k + 1) (i + 1) a' false argv' (done ++ [0]) f fs res)
    (hn : n ≤ 10) (ha : k < 10 → argv[k]? = some a) (ha' : k + 1 < n → a' = i + 1)
    (htake : argv'.take (k + 1) = argv.take (k + 1)) :
    Parsed n k i a string argv done [] (f :: fs) res := by
  have hfault : ParamFault k string ([] :: f :: fs) ↔ ParamFault (k + 1) false (f :: fs) := by
    rw [ParamFault]
    simp
  rcases h with ⟨hf, hres⟩ | ⟨hf, p, hres, hargc, hbuf, hp⟩
  · exact .inl ⟨hfault.2 hf, hres⟩
  · refine .inr ⟨fun h => hf (hfault.1 h), p, hres, ?_, ?_, fun hk => ?_⟩
    · rw [hargc, List.length_cons]
      omega
    · rw [hbuf, List.append_assoc]
      rfl
    · rw [List.length_cons] at hk ⊢
      have := hp (by omega)
      rw [htake, List.take_add_one, ha (by omega), ha' (by omega)] at this
      rw [show k + (fs.length + 1 + 1) = k + 1 + (fs.length + 1) by omega, this]
      simp [paramStarts]

end Parsed

theorem parseParams_parsed {n : ℕ} (hn : n ≤ 10) (delimiter : UInt8) (t : Bytes) {k a : ℕ}
    {string : Bool} {v : List ℕ} {d : Bytes} {f : Bytes} {fs : List Bytes}
    (hv : v.length = 10) (ha : k < 10 → v[k]? = some a)
    (hfs : paramFields delimiter string t = f :: fs) :
    Parsed n k d.length a string v d f fs
      (parseParams n delimiter t d.length ⟨string, k + 1, v, d ++ t⟩) := by
  induction t generalizing k a string v d f fs with
  | nil =>
    obtain ⟨rfl, rfl⟩ := List.cons.inj hfs
    refine .inr ⟨by simp [ParamFault], _, rfl, by simp, by simp [paramBlank], fun hk => ?_⟩
    have := ha (by simp at hk; omega)
    simp [List.take_add_one, this, paramStarts]
  | cons b t ih =>
    have hbuf : ∀ b', (d ++ b :: t).set d.length b' = d ++ [b'] ++ t := by simp
    rw [paramFields] at hfs
    rw [parseParams]
    unfold parseParam
    obtain ⟨f', fs', hfs'⟩ := List.exists_cons_of_ne_nil
      (paramFields_ne_nil delimiter (if b = 34 then !string else string) t)
    by_cases hq : b = 34
    · subst hq
      rw [if_neg (by simp), hfs'] at hfs
      obtain ⟨rfl, rfl⟩ := List.cons.inj hfs
      rw [if_pos rfl] at hfs' ⊢
      dsimp only
      rw [hbuf]
      rcases string with _ | _
      · rw [Bool.not_false, if_neg (by decide)]
        by_cases hk : k + 1 - 1 < 10
        · -- the beginning moves behind the quote
          rw [if_pos hk, Option.bind_some]
          have h := ih (d := d ++ [0]) (v := v.modify (k + 1 - 1) (· + 1)) (a := a + 1)
            (k := k) (by simpa using hv) (fun hk => by simp [ha hk]) hfs'
          rw [List.length_append, List.length_singleton] at h
          refine h.cons (fun hk' => absurd hk (by omega))
            (by rw [opens_quote_false, Bool.not_false]; omega) ?_
          rw [List.take_modify, List.modify_eq_self (by simp)]
        · rw [if_neg hk]
          refine .inl ⟨.inl ⟨by omega, ?_⟩, rfl⟩
          rw [opens_quote_false]
          omega
      · rw [Bool.not_true, if_pos (by decide), Option.bind_some]
        have h := ih (d := d ++ [0]) hv ha hfs'
        rw [List.length_append, List.length_singleton] at h
        exact h.cons (fun _ => by rw [opens_quote_true]; rfl) (by rw [opens_quote_true]; rfl) rfl
    · rw [if_neg hq] at hfs' ⊢
      by_cases hd : string = false ∧ b = delimiter
      · rw [if_pos ⟨hq, hd⟩] at hfs
        obtain ⟨rfl, rfl⟩ := hd
        obtain ⟨rfl, rfl⟩ := List.cons.inj hfs
        rw [if_pos (by simp), Option.bind_some, hbuf]
        obtain ⟨f, fs, hfs⟩ := List.exists_cons_of_ne_nil (paramFields_ne_nil b false t)
        rw [hfs]
        set w := if k + 1 < n then v.set (k + 1) (d.length + 1) else v with hdef
        have hw : w.length = 10 := by
          rw [hdef]
          split_ifs <;> simpa using hv
        have h := ih (d := d ++ [0]) (k := k + 1) (a := w.getD (k + 1) 0) hw
          (fun hk => by rw [List.getD_eq_getElem?_getD, List.getElem?_eq_getElem (by omega)]; rfl) hfs
        rw [List.length_append, List.length_singleton] at h
        refine h.delimiter hn ha (fun hk => ?_) ?_
        · simp [hdef, hk, hv, show k + 1 < 10 by omega]
        · rw [hdef]
          split_ifs
          · rw [List.take_set_of_le le_rfl]
          · rfl
      · rw [if_neg (fun h => hd h.2), if_neg hq, hfs'] at hfs
        obtain ⟨rfl, rfl⟩ := List.cons.inj hfs
        rw [if_neg (by simpa using hd), Option.bind_some]
        have h := ih (d := d ++ [b]) hv ha hfs'
        rw [List.length_append, List.length_singleton, List.append_assoc] at h
        refine Parsed.cons ?_ (fun _ => by rw [opens_cons hq]) (by rw [opens_cons hq]) rfl
        rw [if_neg hq]
        exact h

theorem opens_le_length (f : Bytes) : opens false f ≤ f.length := by
  have := List.count_le_length (a := (34 : UInt8)) (l := f)
  simp only [opens, Bool.false_eq_true, if_false]
  omega

theorem opens_pos_iff {f : Bytes} : 0 < opens false f ↔ 34 ∈ f := by
  rw [← List.count_pos_iff]
  simp only [opens, Bool.false_eq_true, if_false]
  omega

/-- A string ends where a zero begins what follows it. -/
theorem cString_append_of_head {u t : Bytes} (ht : ∀ b ∈ t.head?, b = 0) :
    cString (u ++ t) = cString u := by
  induction u with
  | nil =>
    cases t with
    | nil => rfl
    | cons b t =>
      obtain rfl := ht b rfl
      rfl
  | cons b u ih =>
    simp only [cString, List.cons_append, List.takeWhile_cons] at ih ⊢
    rw [ih]

/-- A parameter reads from its beginning to a quote, the delimiter behind it or the end. -/
theorem cString_field {f t : Bytes} (ht : ∀ b ∈ t.head?, b = 0) :
    cString (((f.map fun b => if b = 34 then 0 else b) ++ t).drop (opens false f)) =
      paramText f := by
  rw [List.drop_append_of_le_length (by simpa using opens_le_length f),
    cString_append_of_head ht]
  rfl

theorem map_paramStarts (done : Bytes) (fs : List Bytes) :
    (paramStarts done.length fs).map (fun i => cString ((done ++ paramBlank fs).drop i)) =
      fs.map paramText := by
  induction fs generalizing done with
  | nil => rfl
  | cons f fs ih =>
    rw [paramStarts, List.map_cons, List.map_cons, List.drop_append, List.drop_eq_nil_of_le (by omega),
      List.nil_append, Nat.add_sub_cancel_left]
    cases fs with
    | nil =>
      have := cString_field (f := f) (t := []) (by simp)
      rw [List.append_nil] at this
      rw [paramBlank, this]
      rfl
    | cons f' fs =>
      have h := ih (done ++ ((f.map fun b => if b = 34 then 0 else b) ++ [0]))
      have hlen : (done ++ ((f.map fun b => if b = 34 then 0 else b) ++ [0])).length =
          done.length + f.length + 1 := by
        simp
        omega
      rw [hlen, List.append_assoc, List.append_assoc, List.singleton_append] at h
      have hblank : paramBlank (f :: f' :: fs) =
        (f.map fun b => if b = 34 then 0 else b) ++ 0 :: paramBlank (f' :: fs) := rfl
      rw [hblank, cString_field (by simp), h]

theorem paramFault_iff (k : ℕ) (fs : List Bytes) :
    ParamFault k false fs ↔ ∃ f ∈ fs.drop (10 - k), 34 ∈ f := by
  induction fs generalizing k with
  | nil => simp [ParamFault]
  | cons f fs ih =>
    rw [ParamFault, ih, opens_pos_iff]
    by_cases hk : 10 ≤ k
    · simp [hk, show 10 - k = 0 by omega, show 10 - (k + 1) = 0 by omega]
    · rw [show 10 - k = 10 - (k + 1) + 1 by omega, List.drop_succ_cons]
      exact or_iff_right fun h => hk h.1

/-- **What the parser makes of a text** is what is in its fields, if they are not too many; it writes
behind `argv` exactly where a field behind the tenth has a quote. -/
theorem raspiCliParseParams_fields {n : ℕ} (hn : n ≤ 10) (params : Bytes) (delimiter : UInt8) :
    raspiCliParseParams params n delimiter =
      let fs := paramFields delimiter false
        (if params.head? = some delimiter then params.tail else params)
      if ∃ f ∈ fs.drop 10, 34 ∈ f then none
      else some (if n < fs.length then none
        else some (if fs.map paramText = [[]] then [] else fs.map paramText)) := by
  unfold raspiCliParseParams
  dsimp only
  set text := if params.head? = some delimiter then params.tail else params
  obtain ⟨f, fs, hfs⟩ := List.exists_cons_of_ne_nil (paramFields_ne_nil delimiter false text)
  have h := parseParams_parsed (k := 0) (v := List.replicate 10 0) (d := []) hn delimiter text rfl
    (fun _ => rfl) hfs
  rw [hfs]
  unfold Parsed at h
  rw [paramFault_iff, Nat.sub_zero] at h
  rcases h with ⟨hf, hres⟩ | ⟨hf, p, hres, hargc, hbuf, htake⟩
  · rw [if_pos hf]
    exact Option.map_eq_none_iff.2 hres
  · rw [if_neg hf]
    refine Option.map_eq_some_iff.2 ⟨p, hres, ?_⟩
    rw [hargc, Nat.zero_add, List.length_cons]
    by_cases hlt : n < fs.length + 1
    · rw [if_pos hlt, if_pos hlt]
    · rw [if_neg hlt, if_neg hlt, hbuf]
      have hargv := htake (by omega)
      rw [Nat.zero_add] at hargv
      have hstarts : (List.replicate 10 0).take 0 ++ (0 + opens false f) ::
          paramStarts (([] : Bytes).length + f.length + 1) fs =
            paramStarts ([] : Bytes).length (f :: fs) := rfl
      rw [hargv, hstarts, map_paramStarts]

/-- The parser writes behind the ten entries of `argv` exactly where a field behind the tenth has a
quote. -/
theorem raspiCliParseParams_fault_iff {n : ℕ} (hn : n ≤ 10) (params : Bytes) (delimiter : UInt8) :
    raspiCliParseParams params n delimiter = none ↔
      ∃ f ∈ (paramFields delimiter false
        (if params.head? = some delimiter then params.tail else params)).drop 10, 34 ∈ f := by
  rw [raspiCliParseParams_fields hn]
  dsimp only
  rw [ite_eq_left_iff]
  simp only [reduceCtorEq, imp_false, not_not]

theorem raspiCliParseParams_fault_iff_echo :
    raspiCliParseParams (bytes " a b c d e f g h i j \"k\"") 1 32 = none ↔
      ∃ f ∈ (paramFields 32 false (bytes "a b c d e f g h i j \"k\"")).drop 10, 34 ∈ f :=
  raspiCliParseParams_fault_iff (by decide) (bytes " a b c d e f g h i j \"k\"") 32

/-! ## Parameters in quotes -/

section Quotes

variable {p t : Bytes}

theorem paramFields_string {delimiter : UInt8} (hp : 34 ∉ p) :
    paramFields delimiter true (p ++ 34 :: t) =
      (paramFields delimiter false t).modifyHead (p ++ 34 :: ·) := by
  induction p with
  | nil => simp [paramFields]
  | cons b p ih =>
    rw [List.mem_cons, not_or] at hp
    rw [List.cons_append, paramFields, if_neg (by simp), if_neg (Ne.symm hp.1), ih hp.2,
      List.modifyHead_modifyHead]
    rfl

theorem paramFields_quoteParams {ps : List Bytes} (hps : ps ≠ []) (hq : ∀ p ∈ ps, 34 ∉ p) :
    paramFields 32 false (quoteParams ps) = ps.map fun p => 34 :: (p ++ [34]) := by
  induction ps with
  | nil => exact absurd rfl hps
  | cons p ps ih =>
    have hp := hq p (List.mem_cons_self ..)
    cases ps with
    | nil =>
      rw [quoteParams, paramFields, if_neg (by simp), if_pos rfl, Bool.not_false,
        paramFields_string hp]
      rfl
    | cons p' ps =>
      have hquote : quoteParams (p :: p' :: ps) =
        34 :: (p ++ 34 :: 32 :: quoteParams (p' :: ps)) := rfl
      rw [hquote, paramFields, if_neg (by simp), if_pos rfl, Bool.not_false,
        paramFields_string hp, paramFields, if_pos (by simp),
        ih (by simp) fun x hx => hq x (List.mem_cons_of_mem _ hx)]
      simp

theorem paramText_quote (hq : 34 ∉ p) (h0 : 0 ∉ p) : paramText (34 :: (p ++ [34])) = p := by
  have hcount : (34 :: (p ++ [34])).count 34 = 2 := by
    simp [List.count_eq_zero_of_not_mem hq]
  have hmap : (p.map fun b => if b = 34 then 0 else b) = p := by
    conv_rhs => rw [← List.map_id p]
    refine List.map_congr_left fun b hb => if_neg ?_
    rintro rfl
    exact hq hb
  rw [paramText, hcount, List.map_cons, List.map_append, hmap]
  rw [show (2 + 1) / 2 = 1 from rfl, List.drop_one, List.tail_cons,
    cString_append_of_head (by simp), cString, List.takeWhile_eq_self_iff]
  intro b hb
  refine bne_iff_ne.2 ?_
  rintro rfl
  exact h0 hb

end Quotes

/-- **Parameters in quotes come back** as they were, whatever else is in them. -/
theorem raspiCliParseParams_quoteParams {ps : List Bytes} {n : ℕ} (hps : ps ≠ []) (hne : ps ≠ [[]])
    (hlen : ps.length ≤ n) (hn : n ≤ 10) (hq : ∀ p ∈ ps, 34 ∉ p ∧ 0 ∉ p) :
    raspiCliParseParams (quoteParams ps) n 32 = some (some ps) := by
  have hhead : (quoteParams ps).head? ≠ some 32 := by
    rcases ps with _ | ⟨p, _ | ⟨p', ps⟩⟩
    · exact absurd rfl hps
    · simp [quoteParams]
    · simp [quoteParams]
  have htext : (ps.map fun p => 34 :: (p ++ [34])).map paramText = ps := by
    conv_rhs => rw [← List.map_id ps]
    rw [List.map_map]
    exact List.map_congr_left fun p hp => paramText_quote (hq p hp).1 (hq p hp).2
  rw [raspiCliParseParams_fields hn, if_neg hhead,
    paramFields_quoteParams hps fun p hp => (hq p hp).1]
  dsimp only
  have hfault : ¬ ∃ f ∈ (ps.map fun p => (34 : UInt8) :: (p ++ [34])).drop 10, 34 ∈ f := by
    rw [List.drop_eq_nil_of_le (by simpa using hlen.trans hn)]
    simp
  rw [if_neg hfault, List.length_map, if_neg (by omega), htext, if_neg hne]

theorem raspiCliParseParams_quoteParams_two :
    raspiCliParseParams (quoteParams [bytes "a b", bytes ""]) 2 32 =
      some (some [bytes "a b", bytes ""]) :=
  raspiCliParseParams_quoteParams (by decide) (by decide) (by decide) (by decide) (by decide)

end NrcAtcmd
