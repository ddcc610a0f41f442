import Mathlib.Data.List.Forall2
import Mathlib.Data.Option.NAry
import NrcAtcmd.CommandBuffer
import NrcAtcmd.Proofs.LongLine

/-!
# The command line stays in its buffer

Over the buffer, the functions that read a line do what they do over the line alone, and access the
buffer inside of it, with one exception: at the end of a line of `ATCMD_MSG_LEN_MAX` characters that
begins with `AT+`, `atcmd_process_command` writes a terminator behind the line feed it appended, and
so behind the last cell.

`Scan` is the invariant of the loops of `atcmd_parse`: where the complete arguments are, and that the
rest of the line is still to come.
-/

namespace NrcAtcmd

open Cells Machine
open List (Forall₂)

variable {ε : Type*}

/-! ## The parser -/

namespace AtcmdBuf

/-- The strings at the places. -/
abbrev Strs (b : List UInt8) (ps : List ℕ) (args : List Bytes) : Prop :=
  Forall₂ (fun p s => str b p = some s) ps args

/-- The complete arguments are in `u`, the running one starts behind it, and no argument starts in
the first, the name. -/
structure Scan (u : List UInt8) (ps : List ℕ) (args : List Bytes) (arg : Bytes) : Prop where
  strs : Strs u ps args
  nul : 0 ∉ arg
  behind : arg = [] → u ≠ [] ∧ u.getLast? ≠ some 13
  sep : ∀ p ∈ ps.head?, ∀ n ∈ args.head?, ∀ q ∈ ps.tail ++ [u.length], p + n.length < q

/-- The handler is the same, and its arguments are at the places. -/
def Same (b : List UInt8) (r : Option (AtcmdHandler × List ℕ))
    (r' : Option (AtcmdHandler × List Bytes)) : Prop :=
  Option.Rel (fun x y => x.1 = y.1 ∧ Strs b x.2 y.2) r r'

theorem strupr_nul {s : Bytes} (h : 0 ∉ s) : 0 ∉ NrcAtcmd.strupr s := by
  unfold NrcAtcmd.strupr
  rw [List.mem_map]
  rintro ⟨c, hc, h0⟩
  split_ifs at h0 with hlow
  · obtain ⟨h1, h2⟩ := hlow
    have : c = 32 := by
      rw [UInt8.sub_eq_iff_eq_add, UInt8.zero_add] at h0
      exact h0
    subst this
    exact absurd h1 (by decide)
  · exact h (h0 ▸ hc)

theorem Strs.append {u : List UInt8} {ps : List ℕ} {args : List Bytes} (h : Strs u ps args)
    (w : List UInt8) : Strs (u ++ w) ps args :=
  h.imp fun _ _ hs => str_append hs w

/-- A separator is overwritten, and the running argument is complete. -/
theorem Scan.push {u : List UInt8} {ps : List ℕ} {args : List Bytes} {arg : Bytes}
    (h : Scan u ps args arg) : Scan (u ++ arg ++ [0]) (ps ++ [u.length]) (args ++ [arg]) [] where
  strs := by
    have hlast : str (u ++ arg ++ [0]) u.length = some arg := str_mid h.nul u [] rfl
    rw [List.append_assoc] at hlast ⊢
    exact List.rel_append (h.strs.append _) (.cons hlast .nil)
  nul := List.not_mem_nil
  behind := fun _ => by simp
  sep := by
    have hsep := h.sep
    have hlen := h.strs.length_eq
    rcases ps with _ | ⟨p, ps⟩ <;> rcases args with _ | ⟨n, args⟩ <;> simp at hlen
    · simp
    · simp only [List.cons_append, List.head?_cons, Option.mem_def, Option.some.injEq,
        forall_eq', List.tail_cons] at hsep ⊢
      intro q hq
      rcases List.mem_append.1 hq with hq | hq
      · exact hsep q hq
      · have := hsep u.length (by simp)
        simp only [List.mem_singleton] at hq
        simp only [List.length_append, List.length_singleton] at hq
        omega

/-- A separator is overwritten, and the running argument is dropped. -/
theorem Scan.drop {u : List UInt8} {ps : List ℕ} {args : List Bytes} {arg : Bytes}
    (h : Scan u ps args arg) : Scan (u ++ arg ++ [0]) ps args [] where
  strs := by
    rw [List.append_assoc]
    exact h.strs.append _
  nul := List.not_mem_nil
  behind := fun _ => by simp
  sep := by
    intro p hp n hn q hq
    rcases List.mem_append.1 hq with hq | hq
    · exact h.sep p hp n hn q (List.mem_append_left _ hq)
    · have := h.sep p hp n hn u.length (by simp)
      simp only [List.mem_singleton, List.length_append, List.length_singleton] at hq
      omega

theorem Scan.more {u : List UInt8} {ps : List ℕ} {args : List Bytes} {arg : Bytes} {x : UInt8}
    (h : Scan u ps args arg) (hx : x ≠ 0) : Scan u ps args (arg ++ [x]) where
  strs := h.strs
  nul := by simp [h.nul, Ne.symm hx]
  behind := fun hnil => absurd hnil (by simp)
  sep := h.sep

end AtcmdBuf

namespace AtcmdBuf

theorem parseTerminate_eq {u : List UInt8} {ps : List ℕ} {args : List Bytes} {arg : Bytes}
    (h : Scan u ps args arg) (w : List UInt8) :
    ∃ w', parseTerminate (u ++ arg ++ 10 :: w) (u.length + arg.length) =
      some (u ++ (if arg.getLast? = some 13 then arg.dropLast else arg) ++ 0 :: w')
        ∧ (u ++ (if arg.getLast? = some 13 then arg.dropLast else arg) ++ 0 :: w').length =
          (u ++ arg ++ 10 :: w).length := by
  unfold parseTerminate
  have hne : u ++ arg ≠ [] := by
    rcases arg with _ | ⟨x, arg⟩
    · simpa using (h.behind rfl).1
    · simp
  have hbefore : (u ++ arg ++ 10 :: w)[u.length + arg.length - 1]? = (u ++ arg).getLast? := by
    have hpos := List.length_pos_of_ne_nil hne
    rw [List.getLast?_eq_getElem?, List.length_append,
      List.getElem?_append_left (by rw [List.length_append] at hpos ⊢; omega)]
  rw [hbefore, List.getLast?_eq_some_getLast hne, Option.bind_some]
  by_cases hcr : arg.getLast? = some 13
  · obtain ⟨arg', rfl⟩ : ∃ arg', arg = arg' ++ [13] :=
      ⟨_, (List.dropLast_append_getLast? 13 hcr).symm⟩
    refine ⟨10 :: w, ?_, by simp⟩
    rw [if_pos (by simp), if_pos hcr, List.dropLast_concat, ← List.append_assoc,
      List.append_assoc (u ++ arg')]
    exact store_mid _ _ 13 0 (by simp)
  · refine ⟨w, ?_, by simp [hcr]⟩
    rw [if_neg, if_neg hcr]
    · exact store_mid _ _ 10 0 (by simp)
    · intro hlast
      have hlast : (u ++ arg).getLast? = some 13 := by
        rw [List.getLast?_eq_some_getLast hne, hlast]
      rcases arg with _ | ⟨x, arg⟩
      · rw [List.append_nil] at hlast
        exact (h.behind rfl).2 hlast
      · rw [List.getLast?_append_of_ne_nil _ (by simp)] at hlast
        exact hcr hlast

end AtcmdBuf

namespace AtcmdBuf

theorem strupr_eq {b : List UInt8} {ps : List ℕ} {args : List Bytes} (h : Strs b ps args)
    (hne : ps ≠ []) (hnul : ∀ s ∈ args, 0 ∉ s)
    (hsep : ∀ p ∈ ps.head?, ∀ n ∈ args.head?, ∀ q ∈ ps.tail, p + n.length < q) :
    ∃ b', strupr b (ps.getD 0 0) = some b' ∧ b'.length = b.length
      ∧ Strs b' ps (args.modifyHead NrcAtcmd.strupr) := by
  rcases h with _ | ⟨hp, hrest⟩
  · exact absurd rfl hne
  · rename_i p n ps args
    have hn : 0 ∉ n := hnul n List.mem_cons_self
    obtain ⟨hlen, hhead, hother⟩ := memcpy_str hp (strupr_nul hn) (List.length_map _)
    refine ⟨_, by rw [strupr, List.getD_cons_zero, hp, Option.map_some], hlen, .cons hhead ?_⟩
    have hsep : ∀ q ∈ ps, p + n.length < q := hsep p rfl n rfl
    refine ((List.forall₂_and_left _ _).2 ⟨hsep, hrest⟩).imp fun q s hq => ?_
    rw [hother q hq.1]
    exact hq.2

theorem parseArgc_eq {b : List UInt8} {ps : List ℕ} {args : List Bytes} (h : Strs b ps args)
    (type : Option AtcmdType) : parseArgc type ps b =
      some (if args.length - 1 ≠ 0 ∧ (type = some .getParam ∨ type = some .set)
        ∧ args.getD 1 [] ≠ [] then 1 + (args.length - 1) else 1) := by
  unfold parseArgc
  rw [h.length_eq]
  by_cases hi : args.length - 1 ≠ 0 ∧ (type = some .getParam ∨ type = some .set)
  · rcases h with _ | ⟨-, _ | ⟨hs, -⟩⟩
    · exact absurd rfl hi.1
    · exact absurd rfl hi.1
    · rw [if_pos hi, List.getD_cons_succ, List.getD_cons_zero, hs, Option.map_some]
      exact congrArg some (if_congr ⟨fun hne => ⟨hi.1, hi.2, hne⟩, fun hno => hno.2.2⟩ rfl rfl)
  · rw [if_neg hi, if_neg fun hno => hi ⟨hno.1, hno.2.1⟩]

theorem parseEnd_eq {u : List UInt8} {ps : List ℕ} {args : List Bytes} {arg : Bytes}
    (h : Scan u ps args arg) (hnul : ∀ s ∈ args, 0 ∉ s) (type : Option AtcmdType)
    (w : List UInt8) : ∃ b r,
      atcmdParseEnd type (ps ++ [u.length]) (u ++ arg ++ 10 :: w) (u.length + arg.length)
        = some (b, r) ∧ b.length = (u ++ arg ++ 10 :: w).length
        ∧ Same b r (NrcAtcmd.atcmdParseEnd type
          (args ++ [if arg.getLast? = some 13 then arg.dropLast else arg])) := by
  obtain ⟨w', hterm, hlen⟩ := parseTerminate_eq h w
  have harg : 0 ∉ (if arg.getLast? = some 13 then arg.dropLast else arg) := by
    split_ifs
    · exact fun h0 => h.nul (List.dropLast_subset _ h0)
    · exact h.nul
  generalize (if arg.getLast? = some 13 then arg.dropLast else arg) = arg' at hterm hlen harg ⊢
  have hstrs : Strs (u ++ arg' ++ 0 :: w') (ps ++ [u.length]) (args ++ [arg']) := by
    have hlast := str_mid harg u w' rfl
    rw [List.append_assoc] at hlast ⊢
    exact List.rel_append (h.strs.append _) (.cons hlast .nil)
  have hsep : ∀ p ∈ (ps ++ [u.length]).head?, ∀ n ∈ (args ++ [arg']).head?,
      ∀ q ∈ (ps ++ [u.length]).tail, p + n.length < q := by
    have hsep := h.sep
    have hl := h.strs.length_eq
    rcases ps with _ | ⟨p, ps⟩ <;> rcases args with _ | ⟨n, args⟩ <;> simp at hl
    · simp
    · exact hsep
  obtain ⟨b, hupr, hb, hstrs'⟩ := strupr_eq hstrs (by simp)
    (List.forall_mem_append.2 ⟨hnul, List.forall_mem_singleton.2 harg⟩) hsep
  generalize hA : args ++ [arg'] = as at hstrs hstrs'
  generalize hP : ps ++ [u.length] = qs at hstrs hstrs' hupr ⊢
  have hlen' := hstrs.length_eq
  unfold atcmdParseEnd
  simp only [hterm, hlen', parseArgc_eq hstrs, hupr, Option.bind_eq_bind, Option.bind_some,
    Option.pure_def]
  refine ⟨_, _, rfl, by rw [hb, hlen], ?_⟩
  unfold NrcAtcmd.atcmdParseEnd
  simp only
  generalize (if as.length - 1 = 0 ∧ type = none then some AtcmdType.run else type) = type
  -- the first argument is there, whatever the number
  have htake : ∀ k, Strs b (qs.take (k + 1)) ((as.take (k + 1)).modifyHead NrcAtcmd.strupr) := by
    intro k
    rcases as with _ | ⟨a, as⟩
    · simp at hA
    · have := List.forall₂_take (k + 1) hstrs'
      simpa using this
  generalize hk : (if as.length - 1 ≠ 0 ∧ (type = some AtcmdType.getParam ∨ type = some .set)
    ∧ as.getD 1 [] ≠ [] then 1 + (as.length - 1) else 1) = argc
  obtain ⟨k, rfl⟩ : ∃ k, argc = k + 1 := by
    refine ⟨argc - 1, ?_⟩
    rw [← hk]
    split_ifs <;> omega
  rcases type with _ | _ | _ | _ | _ | _
  · exact .none
  · exact .some ⟨rfl, htake k⟩
  · exact .some ⟨rfl, htake k⟩
  · simp only
    split_ifs
    · exact .none
    · exact .some ⟨rfl, htake k⟩
  · simp only
    split_ifs
    · exact .none
    · exact .some ⟨rfl, htake k⟩
  · exact .some ⟨rfl, htake k⟩

end AtcmdBuf

namespace AtcmdBuf

theorem Strs.nul {b : List UInt8} {ps : List ℕ} {args : List Bytes} (h : Strs b ps args) :
    ∀ s ∈ args, 0 ∉ s := by
  induction h with
  | nil => exact fun s hs => absurd hs List.not_mem_nil
  | cons hs _ ih =>
    obtain ⟨-, -, -, -, hnul⟩ := str_eq_some hs
    exact List.forall_mem_cons.2 ⟨hnul, ih⟩

/-- The loops over the buffer read from the running argument on what those over the line do. -/
theorem parseFrom_eq : ∀ (t : Bytes) {u : List UInt8} {ps : List ℕ} {args : List Bytes}
    {arg : Bytes} (type : Option AtcmdType) {fuel : ℕ} (w : List UInt8), Scan u ps args arg →
    (∀ x ∈ t, x ≠ 0 ∧ x ≠ 10) → t.length < fuel → ∃ b r,
      atcmdParseFrom type ps u.length (u ++ arg ++ (t ++ 10 :: w)) (u.length + arg.length) fuel
        = some (b, r) ∧ b.length = (u ++ arg ++ (t ++ 10 :: w)).length
        ∧ Same b r (NrcAtcmd.atcmdParseFrom type args arg (t ++ [10]))
  | [], u, ps, args, arg, type, fuel + 1, w, h, ht, hf => by
    have hread : (u ++ arg ++ ([] ++ 10 :: w))[u.length + arg.length]? = some 10 := by
      rw [List.getElem?_append_right (by simp)]
      simp
    obtain ⟨b, r, heq, hlen, hsame⟩ := parseEnd_eq h h.strs.nul type w
    refine ⟨b, r, ?_, hlen, ?_⟩
    · rw [atcmdParseFrom, hread]
      exact heq
    · rw [List.nil_append, NrcAtcmd.atcmdParseFrom]
      exact hsame
  | x :: t, u, ps, args, arg, type, fuel + 1, w, h, ht, hf => by
    obtain ⟨⟨hx0, hx10⟩, ht⟩ := List.forall_mem_cons.1 ht
    have hf : t.length < fuel := by simpa using hf
    have hlen := h.strs.length_eq
    have hread : (u ++ arg ++ (x :: t ++ 10 :: w))[u.length + arg.length]? = some x := by
      rw [List.getElem?_append_right (by simp)]
      simp
    have hmore : ∃ b r, atcmdParseFrom type ps u.length (u ++ arg ++ (x :: t ++ 10 :: w))
        (u.length + arg.length + 1) fuel = some (b, r)
          ∧ b.length = (u ++ arg ++ (x :: t ++ 10 :: w)).length
          ∧ Same b r (NrcAtcmd.atcmdParseFrom type args (arg ++ [x]) (t ++ [10])) := by
      have := parseFrom_eq t type w (h.more hx0) ht hf
      simpa [Nat.add_assoc] using this
    -- the character is overwritten, and what follows is the next argument
    have hnext : ∀ (type : Option AtcmdType) (ps' : List ℕ) (args' : List Bytes),
        Scan (u ++ arg ++ [0]) ps' args' [] → ∃ b r,
          ((store (u ++ arg ++ (x :: t ++ 10 :: w)) (u.length + arg.length) 0).bind fun b =>
            if ps'.length < atcmdMsgParamMax + 1 then
              atcmdParseFrom type ps' (u.length + arg.length + 1) b (u.length + arg.length + 1) fuel
            else pure (b, none)) = some (b, r)
          ∧ b.length = (u ++ arg ++ (x :: t ++ 10 :: w)).length
          ∧ Same b r (if args'.length < atcmdMsgParamMax + 1 then
              NrcAtcmd.atcmdParseFrom type args' [] (t ++ [10]) else none) := by
      intro type ps' args' h'
      have hstore : store (u ++ arg ++ (x :: t ++ 10 :: w)) (u.length + arg.length) 0 =
          some (u ++ arg ++ [0] ++ [] ++ (t ++ 10 :: w)) := by
        rw [List.cons_append, store_mid _ _ x 0 (by simp)]
        simp
      rw [hstore, Option.bind_some, h'.strs.length_eq]
      split_ifs
      · obtain ⟨b, r, heq, hb, hsame⟩ := parseFrom_eq t type w h' ht hf
        refine ⟨b, r, ?_, by rw [hb]; simp, hsame⟩
        rw [← heq]
        simp [Nat.add_assoc]
      · exact ⟨_, _, rfl, by simp, .none⟩
    have hfirst : args.length = 0 → Scan (u ++ arg ++ [0]) [u.length] [arg] [] := by
      intro h0
      have := h.push
      rwa [List.length_eq_zero_iff.1 (hlen.trans h0), List.length_eq_zero_iff.1 h0] at this
    rw [atcmdParseFrom, hread, show x :: t ++ [10] = x :: (t ++ [10]) from rfl,
      NrcAtcmd.atcmdParseFrom]
    simp only [Option.bind_eq_bind, Option.bind_some, hlen]
    by_cases heq : x = 61
    · rw [if_pos heq, if_pos heq]
      by_cases h0 : args.length = 0
      · rw [if_pos h0, if_pos h0]
        exact hnext _ _ _ (hfirst h0)
      rw [if_neg h0, if_neg h0]
      by_cases h1 : args.length = 1 ∧ type = some .get
      · rw [if_pos h1, if_pos h1]
        simpa only [hlen] using hnext _ _ _ h.drop
      · rw [if_neg h1, if_neg h1]
        exact hmore
    by_cases hq : x = 63
    · rw [if_neg heq, if_pos hq, if_neg heq, if_pos hq]
      by_cases h0 : args.length = 0
      · rw [if_pos h0, if_pos h0]
        exact hnext _ _ _ (hfirst h0)
      rw [if_neg h0, if_neg h0]
      by_cases h1 : args.length = 1 ∧ type = some .set
      · rw [if_pos h1, if_pos h1]
        simpa only [hlen] using hnext _ _ _ h.drop
      · rw [if_neg h1, if_neg h1]
        exact hmore
    rw [if_neg heq, if_neg hq, if_neg heq, if_neg hq, if_neg hx10, if_neg hx10, if_neg hx0]
    by_cases hc : x = 44
    · rw [if_pos hc, if_pos hc]
      by_cases hset : type = some .set
      · rw [if_pos hset, if_pos hset]
        exact hnext _ _ _ h.push
      · rw [if_neg hset, if_neg hset]
        exact hmore
    · rw [if_neg hc, if_neg hc]
      exact hmore

end AtcmdBuf

namespace AtcmdBuf

/-! ## The line -/

/-- The function comes to the result inside a buffer as long as `b`. -/
def Gives {β : Type*} (b : List UInt8) (o : Option (List UInt8 × β)) (x : β) : Prop :=
  ∃ b', o = some (b', x) ∧ b'.length = b.length

theorem Strs.mapM {b : List UInt8} {ps : List ℕ} {args : List Bytes} (h : Strs b ps args) :
    ps.mapM (str b) = some args := by
  induction h with
  | nil => rfl
  | cons hs _ ih => simp [List.mapM_cons, hs, ih]

theorem atcmdHandler_eq (groups : List (AtcmdGroup ε)) {t : Bytes} (ht : ∀ x ∈ t, x ≠ 0 ∧ x ≠ 10)
    (w : List UInt8) : Gives (bytes "AT+" ++ t ++ 10 :: w)
      (atcmdHandler groups (bytes "AT+" ++ t ++ 10 :: w) 0)
      (AtcmdGroup.atcmdHandler groups (bytes "AT+" ++ t ++ [10])) := by
  have hscan : Scan (bytes "AT+") [] [] [] :=
    ⟨.nil, List.not_mem_nil, fun _ => ⟨by decide, by decide⟩, by simp⟩
  obtain ⟨b, r, heq, hlen, hsame⟩ := parseFrom_eq t none w hscan ht
    (show t.length < (bytes "AT+" ++ t ++ 10 :: w).length + 1 by simp; omega)
  rw [List.append_nil, ← List.append_assoc] at heq hlen
  have hparse : atcmdParse (bytes "AT+" ++ t ++ 10 :: w) (0 + 3) = some (b, r) := heq
  have hline : NrcAtcmd.atcmdParse ((bytes "AT+" ++ t ++ [10]).drop 3) =
    NrcAtcmd.atcmdParseFrom none [] [] (t ++ [10]) := rfl
  unfold atcmdHandler AtcmdGroup.atcmdHandler
  rw [hparse, hline, Option.bind_some]
  generalize NrcAtcmd.atcmdParseFrom none [] [] (t ++ [10]) = r' at hsame ⊢
  rcases hsame with hsame | _
  · rename_i x y
    obtain ⟨type, ps⟩ := x
    obtain ⟨type', args⟩ := y
    obtain ⟨rfl, hstrs⟩ := hsame
    simp only [hstrs.mapM, Option.map_some]
    refine ⟨b, ?_, hlen⟩
    rcases args with _ | ⟨name, argv⟩
    · rfl
    · simp only
      rcases atcmdSearch groups name with _ | info
      · rfl
      · simp only
        rcases info.handler type with _ | handler <;> rfl
  · exact ⟨b, rfl, hlen⟩

section Process

variable {s : Bytes} (w : List UInt8) (config : AtcmdConfig)

theorem ifCommand_eq {β : Type*} {text : Bytes} (h : text.length ≤ s.length) (eq ne : Option β) :
    ifCommand (s ++ w) 0 text eq ne = if s.take text.length = text then eq else ne := by
  unfold ifCommand
  rw [if_pos (by rw [List.length_append]; omega), List.drop_zero,
    List.take_append_of_le_length h]

theorem ifCommand_line {β : Type*} {text : Bytes} (h : s.length = text.length)
    (eq ne : Option β) : ifCommand (s ++ w) 0 text eq ne = if s = text then eq else ne := by
  rw [ifCommand_eq w h.ge, List.take_of_length_le h.le]

theorem processReturn_eq (hs : ∀ x ∈ s, x ≠ 0 ∧ x ≠ 10) (ret : AtcmdError) :
    Gives (s ++ 10 :: w) (processReturn (s ++ 10 :: w) 0 s.length config ret)
      (config, (.reply ret : Effect ε)) := by
  unfold processReturn
  split_ifs
  · exact ⟨_, rfl, rfl⟩
  · have hnul : 0 ∉ s := fun h0 => (hs 0 h0).1 rfl
    have hstr := str_mid hnul [] w rfl
    rw [List.nil_append, List.length_nil] at hstr
    rw [store_mid _ _ 10 0 (Nat.zero_add _), Option.bind_some, hstr]
    exact ⟨_, rfl, by simp⟩

end Process

end AtcmdBuf

/-- A line that fills the buffer, and is not refused. -/
def FullText (s : Bytes) : Prop := s.length = atcmdMsgLenMax ∧ bytes "AT+" <+: s

instance (s : Bytes) : Decidable (FullText s) := inferInstanceAs (Decidable (_ ∧ _))

namespace AtcmdBuf

/-- A line is processed as without the buffer, unless it fills it. -/
theorem processFrom_eq (groups : List (AtcmdGroup ε)) (config : AtcmdConfig) {s : Bytes}
    {w : List UInt8} (hs : ∀ x ∈ s, x ≠ 0 ∧ x ≠ 10) (hat : bytes "AT" <+: s)
    (hb : (s ++ 10 :: w).length = atcmdMsgLenMax + 1) :
    if FullText s then processFrom groups config (s ++ 10 :: w) 0 s.length = none
    else Gives (s ++ 10 :: w) (processFrom groups config (s ++ 10 :: w) 0 s.length)
      (NrcAtcmd.atcmdProcessCommand groups config s) := by
  have hmax : atcmdMsgLenMax = 128 := rfl
  have hret := fun config (ret : AtcmdError) => processReturn_eq (ε := ε) w config hs ret
  have h2 : 2 ≤ s.length := hat.length_le
  have hstr : strstrAT s = some s := by
    obtain ⟨t, rfl⟩ := hat
    rfl
  rw [List.length_append, List.length_cons] at hb
  have hsmall : s.length < 5 → ¬ FullText s := fun hlt h => by have := h.1; omega
  unfold processFrom NrcAtcmd.atcmdProcessCommand
  simp only [if_pos h2, hstr, Option.getD_some]
  obtain hn | hn | hn | hn : s.length = 2 ∨ s.length = 3 ∨ s.length = 4 ∨ 5 ≤ s.length := by omega
  · simp only [hn] at hret ⊢
    rw [if_neg (hsmall (by omega)), ifCommand_line _ hn]
    split_ifs
    · exact hret _ _
    · exact hret _ _
  · simp only [hn] at hret ⊢
    rw [if_neg (hsmall (by omega)), ifCommand_line _ hn, ifCommand_line _ hn, ifCommand_line _ hn]
    split_ifs
    · exact hret _ _
    · exact hret _ _
    · exact ⟨_, rfl, rfl⟩
    · exact hret _ _
  · simp only [hn] at hret ⊢
    rw [if_neg (hsmall (by omega)), ifCommand_line _ hn, ifCommand_line _ hn, ifCommand_line _ hn,
      ifCommand_line _ hn]
    by_cases he0 : s = bytes "ATE0"
    · rw [if_pos he0, if_pos he0]
      exact hret _ _
    rw [if_neg he0, if_neg he0]
    by_cases he1 : s = bytes "ATE1"
    · rw [if_pos he1, if_pos he1]
      exact hret _ _
    rw [if_neg he1, if_neg he1]
    by_cases hh0 : s = bytes "ATH0"
    · rw [if_pos hh0, if_pos (Or.inl hh0)]
      exact hret _ _
    rw [if_neg hh0]
    by_cases hh1 : s = bytes "ATH1"
    · rw [if_pos hh1, if_pos (Or.inr hh1)]
      exact hret _ _
    · rw [if_neg hh1, if_neg (by simp [hh0, hh1])]
      exact hret _ _
  · obtain ⟨n, hn⟩ := Nat.exists_eq_add_of_le' hn
    simp only [hn]
    rw [if_neg (show ¬ (n + 5 < 2 ∨ atcmdMsgLenMax < n + 5) by omega),
      if_neg (show ¬ (n + 5 < 2 ∨ atcmdMsgLenMax < n + 5) by omega),
      ifCommand_eq _ (by rw [hn]; exact Nat.le_add_left 3 (n + 2)),
      show (bytes "AT+").length = 3 from rfl]
    by_cases hplus : s.take 3 = bytes "AT+"
    · rw [if_pos hplus, if_pos hplus]
      obtain ⟨t, rfl⟩ : ∃ t, s = bytes "AT+" ++ t :=
        ⟨s.drop 3, by rw [← hplus, List.take_append_drop]⟩
      have hfull : FullText (bytes "AT+" ++ t) ↔ w = [] := by
        rw [FullText, and_iff_left (List.prefix_append _ _), ← List.length_eq_zero_iff]
        omega
      rcases w with _ | ⟨y, w⟩
      · -- the terminator behind the line feed is behind the last cell
        rw [if_pos (hfull.2 rfl), store_eq_none]
        · rfl
        · rw [List.length_append, List.length_singleton]
          omega
      · have hstore : store (bytes "AT+" ++ t ++ 10 :: y :: w) (0 + (n + 5) + 1) 0 =
            some (bytes "AT+" ++ t ++ 10 :: 0 :: w) := by
          have := store_mid (bytes "AT+" ++ t ++ [10]) w y 0 (i := n + 5 + 1) (by
            rw [List.length_append, hn, List.length_singleton])
          simpa using this
        have ht : ∀ x ∈ t, x ≠ 0 ∧ x ≠ 10 := fun x hx => hs x (List.mem_append_right _ hx)
        obtain ⟨b, heq, hlen⟩ := atcmdHandler_eq groups ht (0 :: w)
        rw [if_neg fun h => absurd (hfull.1 h) (by simp), hstore, Option.bind_some, heq,
          Option.map_some]
        exact ⟨b, rfl, by rw [hlen]; simp⟩
    · rw [if_neg hplus, if_neg hplus, if_neg]
      · simpa only [hn] using hret config .inval
      · rintro ⟨-, t, rfl⟩
        exact hplus rfl

end AtcmdBuf

/-- What the reader keeps of a line: printable characters, and `AT` first. -/
structure KeptLine (s : Bytes) : Prop where
  printable : ∀ x ∈ s, 0x20 ≤ x ∧ x ≤ 0x7E
  at_prefix : s <+: bytes "AT" ∨ bytes "AT" <+: s

theorem KeptLine.nil : KeptLine [] := ⟨by simp, Or.inl (List.nil_prefix)⟩

theorem KeptLine.dropLast {s : Bytes} (h : KeptLine s) : KeptLine s.dropLast := by
  refine ⟨fun x hx => h.printable x (List.dropLast_subset s hx), ?_⟩
  have hdrop : s.dropLast <+: s := List.dropLast_prefix s
  rcases h.at_prefix with hat | hat
  · exact Or.inl (hdrop.trans hat)
  · exact List.prefix_or_prefix_of_prefix hdrop hat

theorem KeptLine.concat {s : Bytes} {c : UInt8} (h : KeptLine s) (hc : 0x20 ≤ c ∧ c ≤ 0x7E)
    (hat : ¬ (s.length < 2 ∧ (bytes "AT")[s.length]? ≠ some c)) : KeptLine (s ++ [c]) := by
  refine ⟨List.forall_mem_append.2 ⟨h.printable, List.forall_mem_singleton.2 hc⟩, ?_⟩
  by_cases hlt : s.length < 2
  · have hcat : (bytes "AT")[s.length]? = some c := by
      by_contra hne
      exact hat ⟨hlt, hne⟩
    have hpre : s <+: bytes "AT" := by
      rcases h.at_prefix with hpre | hpre
      · exact hpre
      · exact absurd hpre.length_le (Nat.not_le.2 hlt)
    obtain ⟨t, ht⟩ := hpre
    rw [← ht, List.getElem?_append_right (Nat.le_refl _), Nat.sub_self] at hcat
    rcases t with _ | ⟨x, t⟩
    · simp at hcat
    · obtain rfl : x = c := by simpa using hcat
      exact Or.inl ⟨t, by rw [← ht]; simp⟩
  · right
    rcases h.at_prefix with hpre | hpre
    · have heq := hpre.eq_of_length_le (Nat.not_lt.1 hlt)
      exact heq ▸ List.prefix_append _ _
    · exact hpre.trans (List.prefix_append _ _)

namespace AtcmdBuf

theorem atcmdProcessCommand_eq (groups : List (AtcmdGroup ε)) (config : AtcmdConfig)
    {b : List UInt8} {cnt : ℕ} (hb : b.length = atcmdMsgLenMax + 1) (hcnt : cnt ≤ atcmdMsgLenMax)
    (h0 : cnt ≠ 0) (hkept : KeptLine (b.take cnt)) :
    if FullText (b.take cnt) then atcmdProcessCommand groups config b cnt = none
    else Gives b (atcmdProcessCommand groups config b cnt)
      (NrcAtcmd.atcmdProcessCommand groups config (b.take cnt)) := by
  have hmax : atcmdMsgLenMax = 128 := rfl
  obtain ⟨x, w, hw⟩ := List.exists_cons_of_ne_nil
    (show b.drop cnt ≠ [] from fun h => by rw [List.drop_eq_nil_iff] at h; omega)
  have hsplit : b = b.take cnt ++ x :: w := by rw [← hw, List.take_append_drop]
  have hs : (b.take cnt).length = cnt := by rw [List.length_take]; omega
  generalize b.take cnt = s at hsplit hs hkept ⊢
  subst hsplit
  unfold atcmdProcessCommand
  by_cases h2 : 2 ≤ cnt
  · have hat : bytes "AT" <+: s := by
      rcases hkept.at_prefix with hpre | hpre
      · exact (hpre.eq_of_length_le (by rw [hs]; exact h2)).symm ▸ List.prefix_rfl
      · exact hpre
    have hne : ∀ y ∈ s, y ≠ 0 ∧ y ≠ 10 := by
      intro y hy
      have h32 := (hkept.printable y hy).1
      constructor
      · rintro rfl
        exact absurd h32 (by decide)
      · rintro rfl
        exact absurd h32 (by decide)
    have hstr : str (s ++ 0 :: w) 0 = some s := by
      simpa using str_mid (fun h => (hne 0 h).1 rfl) [] w rfl
    have hstrstr : strstrAT s = some s := by
      obtain ⟨t, rfl⟩ := hat
      rfl
    rw [if_pos h2, store_mid _ _ x 0 hs.symm, Option.bind_some, hstr, Option.bind_some, hstrstr]
    simp only [Nat.sub_self]
    rw [store_mid _ _ 0 10 (Nat.zero_add _), Option.bind_some]
    have hlen : (s ++ 10 :: w).length = (s ++ x :: w).length := by simp
    have := processFrom_eq groups config hne hat (hlen.trans hb)
    unfold Gives at this ⊢
    rwa [hlen] at this
  · obtain rfl : cnt = 1 := by omega
    rw [if_neg h2, if_neg fun h => by have := h.1; omega]
    refine ⟨_, ?_, rfl⟩
    unfold NrcAtcmd.atcmdProcessCommand
    rw [if_neg (by omega)]
    simp only [hs]
    rfl

end AtcmdBuf

/-! ## The reader -/

/-- The character ends a line that fills the buffer. -/
def FullLine (r : LineReader) (c : UInt8) : Prop :=
  FullText r.cmd ∧ ((atcmdKeyCode r.key c).2 = .lf
    ∨ (atcmdKeyCode r.key c).2 = .cr ∧ r.config.linefeed = false)

instance (r : LineReader) : DecidablePred (FullLine r) := fun _ =>
  inferInstanceAs (Decidable (_ ∧ (_ ∨ _ ∧ _)))

namespace AtcmdBuf

/-- The buffer has all its cells, and the count is of those kept. -/
structure Good (r : AtcmdBuf) : Prop where
  size : r.cmd.length = atcmdMsgLenMax + 1
  cnt : r.cnt ≤ atcmdMsgLenMax
  kept : KeptLine r.line.cmd

theorem Good.length {r : AtcmdBuf} (h : r.Good) : r.line.cmd.length = r.cnt := by
  have h1 := h.size
  have h2 := h.cnt
  show (r.cmd.take r.cnt).length = r.cnt
  rw [List.length_take]
  omega

theorem print_eq {r : AtcmdBuf} {c : UInt8} (h : r.Good) (hread : r.cmd[r.cnt]? = some c)
    (hc : 0x20 ≤ c ∧ c ≤ 0x7E) :
    ∃ r', r.print = some r' ∧ r'.Good ∧ r.line.print c = r'.line := by
  have hsize := h.size
  have hlen := h.length
  unfold print LineReader.print
  rw [hread, hlen]
  simp only [Option.bind_eq_bind, Option.bind_some, Option.pure_def]
  by_cases hat : r.cnt < 2 ∧ (bytes "AT")[r.cnt]? ≠ some c
  · rw [if_pos hat, if_pos hat]
    refine ⟨_, rfl, ⟨hsize, Nat.zero_le _, ?_⟩, ?_⟩
    · simpa [line] using KeptLine.nil
    · simp [line]
  rw [if_neg hat, if_neg hat]
  by_cases hroom : r.cnt < atcmdMsgLenMax
  · have htake : r.cmd.take (r.cnt + 1) = r.line.cmd ++ [c] := by
      rw [List.take_add_one, hread]
      rfl
    rw [if_pos hroom, if_pos hroom]
    refine ⟨_, rfl, ⟨hsize, hroom, ?_⟩, ?_⟩
    · show KeptLine (r.cmd.take (r.cnt + 1))
      rw [htake]
      exact h.kept.concat hc (by rw [hlen]; exact hat)
    · show ({ r.line with cmd := r.line.cmd ++ [c] } : LineReader) =
        { r.line with cmd := r.cmd.take (r.cnt + 1) }
      rw [htake]
  · rw [if_neg hroom, if_neg hroom]
    exact ⟨r, rfl, h, rfl⟩

/-- The end of a line. -/
theorem switch_lf_eq (groups : List (AtcmdGroup ε)) {r : AtcmdBuf} (c : UInt8) (h : r.Good) :
    if FullText r.line.cmd then r.switch groups .lf = none
    else ∃ r' got, r.switch groups .lf = some (r', got) ∧ r'.Good
      ∧ r.line.switch groups c .lf = (r'.line, got) := by
  have hnil : r.line.cmd = [] ↔ r.cnt = 0 := by rw [← List.length_eq_zero_iff, h.length]
  unfold switch LineReader.switch
  simp only
  by_cases h0 : r.cnt = 0
  · have hcmd := hnil.2 h0
    rw [if_neg fun hf => absurd hf.2.length_le (by rw [hcmd]; decide), if_pos h0, if_pos hcmd]
    exact ⟨r, _, rfl, h, rfl⟩
  · rw [if_neg h0, if_neg fun hcmd => h0 (hnil.1 hcmd)]
    have hp := atcmdProcessCommand_eq groups r.config h.size h.cnt h0 h.kept
    change if FullText r.line.cmd then _ else Gives r.cmd _
      (NrcAtcmd.atcmdProcessCommand groups r.line.config r.line.cmd) at hp
    generalize NrcAtcmd.atcmdProcessCommand groups r.line.config r.line.cmd = res at hp ⊢
    split_ifs at hp ⊢
    · rw [hp]
      rfl
    · obtain ⟨b, heq, hlen⟩ := hp
      rw [heq]
      refine ⟨_, _, rfl, ⟨hlen.trans h.size, Nat.zero_le _, ?_⟩, ?_⟩
      · simpa [line] using KeptLine.nil
      · simp [line]

/-- The switch does what it does without the buffer, unless it processes a line that fills it. -/
theorem switch_eq (groups : List (AtcmdGroup ε)) {r : AtcmdBuf} {c : UInt8} {code : AtcmdKey}
    (h : r.Good) (hread : r.cmd[r.cnt]? = some c) (hc : code = .print → 0x20 ≤ c ∧ c ≤ 0x7E) :
    if FullText r.line.cmd ∧ (code = .cr ∨ code = .lf) then r.switch groups code = none
    else ∃ r' got, r.switch groups code = some (r', got) ∧ r'.Good
      ∧ r.line.switch groups c code = (r'.line, got) := by
  have hsize := h.size
  have hcnt := h.cnt
  cases code
  case cr | lf =>
    simp only [true_or, or_true, and_true]
    exact switch_lf_eq groups c h
  case print =>
    rw [if_neg (by simp)]
    obtain ⟨r', heq, hgood, hline⟩ := print_eq h hread (hc rfl)
    refine ⟨r', .next, ?_, hgood, ?_⟩
    · unfold switch
      rw [heq]
      rfl
    · unfold LineReader.switch
      rw [hline]
  case bs =>
    rw [if_neg (by simp)]
    have hdrop : r.cmd.take (r.cnt - 1) = r.line.cmd.dropLast := by
      rw [List.dropLast_eq_take, h.length]
      show _ = (r.cmd.take r.cnt).take (r.cnt - 1)
      rw [List.take_take, Nat.min_eq_left (by omega)]
    refine ⟨_, _, rfl, ⟨hsize, ?_, ?_⟩, ?_⟩
    · show r.cnt - 1 ≤ atcmdMsgLenMax
      omega
    · show KeptLine (r.cmd.take (r.cnt - 1))
      rw [hdrop]
      exact h.kept.dropLast
    · show ({ r.line with cmd := r.line.cmd.dropLast }, Got.next) =
        ({ r.line with cmd := r.cmd.take (r.cnt - 1) }, Got.next)
      rw [hdrop]
  case reset =>
    rw [if_neg (by simp)]
    exact ⟨_, _, rfl, ⟨hsize, Nat.zero_le _, by simpa [line] using KeptLine.nil⟩, by
      simp [line, LineReader.switch]⟩
  all_goals
    rw [if_neg (by simp)]
    exact ⟨r, _, rfl, h, rfl⟩

end AtcmdBuf

theorem atcmdKeyCode_printable {s : KeyCode} {c : UInt8} (h : (atcmdKeyCode s c).2 = .print) :
    0x20 ≤ c ∧ c ≤ 0x7E := by
  by_cases hc : c < 0x20 ∨ 0x7E < c
  · unfold atcmdKeyCode at h
    rw [if_pos hc] at h
    split_ifs at h
  · rwa [not_or, UInt8.not_lt, UInt8.not_lt] at hc

namespace AtcmdBuf

/-- A character does what it does without the buffer, unless it ends a line that fills it. -/
theorem receiveChar_eq (groups : List (AtcmdGroup ε)) {r : AtcmdBuf} (h : r.Good) (c : UInt8) :
    if FullLine r.line c then atcmdReceiveChar groups r c = none
    else ∃ r' got, atcmdReceiveChar groups r c = some (r', got) ∧ r'.Good
      ∧ NrcAtcmd.atcmdReceiveChar groups r.line c = (r'.line, got) := by
  have hprint := @atcmdKeyCode_printable r.key c
  obtain ⟨b, cnt, key, cntCR, ⟨echo, linefeed⟩⟩ := r
  obtain ⟨hsize, hcnt, hkept⟩ := h
  simp only [line] at hsize hcnt hkept hprint
  have hlt : cnt < b.length := by omega
  have hread : (b.set cnt c)[cnt]? = some c := List.getElem?_set_self hlt
  have htake : (b.set cnt c).take cnt = b.take cnt := List.take_set_of_le (Nat.le_refl _)
  have hgood : ∀ key cntCR config, (⟨b.set cnt c, cnt, key, cntCR, config⟩ : AtcmdBuf).Good :=
    fun _ _ _ => ⟨by simpa using hsize, hcnt, by simpa only [line, htake] using hkept⟩
  have hswitch := fun cntCR config =>
    switch_eq groups (hgood (atcmdKeyCode key c).1 cntCR config) hread hprint
  simp only [line, htake] at hswitch
  unfold atcmdReceiveChar NrcAtcmd.atcmdReceiveChar
  simp only [line, store, if_pos hlt, hread, Option.bind_some]
  cases linefeed with
  | true =>
    simp only [if_true]
    by_cases hcr : (atcmdKeyCode key c).2 = .cr
    · rw [if_neg (by simp [FullLine, hcr])]
      simp only [hcr, ↓reduceIte]
      by_cases h10 : cntCR + 1 = 10
      · simp only [h10, ↓reduceIte]
        exact ⟨_, _, rfl, hgood _ _ _, by rw [htake]⟩
      · simp only [h10, ↓reduceIte]
        exact ⟨_, _, rfl, hgood _ _ _, by rw [htake]⟩
    · simp only [hcr, ↓reduceIte]
      have hs := hswitch 0 ⟨echo, true⟩
      have hfull : FullLine ⟨key, b.take cnt, cntCR, ⟨echo, true⟩⟩ c ↔ FullText (b.take cnt)
          ∧ ((atcmdKeyCode key c).2 = .cr ∨ (atcmdKeyCode key c).2 = .lf) := by
        simp [FullLine, hcr]
      rwa [if_congr hfull rfl rfl]
  | false =>
    simp only [Bool.false_eq_true, if_false]
    have hs := hswitch cntCR ⟨echo, false⟩
    have hfull : FullLine ⟨key, b.take cnt, cntCR, ⟨echo, false⟩⟩ c ↔ FullText (b.take cnt)
        ∧ ((atcmdKeyCode key c).2 = .cr ∨ (atcmdKeyCode key c).2 = .lf) := by
      simp [FullLine, or_comm]
    rwa [if_congr hfull rfl rfl]

end AtcmdBuf

/-- The line reader takes a character. -/
def lineStep (groups : List (AtcmdGroup ε)) (r : LineReader) (c : UInt8) : Option LineReader :=
  some (atcmdReceiveChar groups r c).1

/-- Over the buffer the reader does what it does without it, up to a line that fills it. -/
theorem run_line (groups : List (AtcmdGroup ε)) : ∀ (cs : Bytes) {r : AtcmdBuf}, r.Good →
    if Along (lineStep groups) (fun r c => ¬ FullLine r c) r.line cs then
      ∃ r', run (AtcmdBuf.step groups) r cs = some r' ∧ run (lineStep groups) r.line cs = some r'.line
    else run (AtcmdBuf.step groups) r cs = none
  | [], r, h => by
    rw [if_pos (show Along _ _ r.line [] from trivial)]
    exact ⟨r, rfl, rfl⟩
  | c :: cs, r, h => by
    have hc := AtcmdBuf.receiveChar_eq groups h c
    by_cases hfull : FullLine r.line c
    · rw [if_pos hfull] at hc
      rw [if_neg fun ha => ha.1 hfull, run, AtcmdBuf.step, hc]
      rfl
    · rw [if_neg hfull] at hc
      obtain ⟨r', got, heq, hgood, hline⟩ := hc
      have hrest := run_line groups cs hgood
      have hlineStep : lineStep groups r.line c = some r'.line := by rw [lineStep, hline]
      have hstep : AtcmdBuf.step groups r c = some r' := by rw [AtcmdBuf.step, heq]; rfl
      have halong : Along (lineStep groups) (fun r c => ¬ FullLine r c) r.line (c :: cs) ↔
          Along (lineStep groups) (fun r c => ¬ FullLine r c) r'.line cs := by
        refine ⟨fun ha => ha.2 _ hlineStep, fun ha => ⟨hfull, fun m hm => ?_⟩⟩
        rw [hlineStep, Option.mem_some_iff] at hm
        exact hm ▸ ha
      rwa [if_congr halong rfl rfl, run, run, hstep, hlineStep, Option.bind_some, Option.bind_some]

/-- From the boot on, every access to the buffer is inside of it exactly if no line that fills the
buffer comes to its end. -/
theorem command_buffer_inside_iff (groups : List (AtcmdGroup ε)) (cs : Bytes) :
    (∃ r, run (AtcmdBuf.step groups) .boot cs = some r) ↔
      Along (lineStep groups) (fun r c => ¬ FullLine r c) .boot cs := by
  have hboot : AtcmdBuf.boot.Good := ⟨List.length_replicate, Nat.zero_le _, KeptLine.nil⟩
  have h := run_line groups cs hboot
  change if Along (lineStep groups) (fun r c => ¬ FullLine r c) .boot cs then _ else _ at h
  split_ifs at h with ha
  · obtain ⟨r, hr, -⟩ := h
    exact ⟨fun _ => ha, fun _ => ⟨r, hr⟩⟩
  · rw [h]
    simp [ha]

/-- A command of 128 characters makes the terminator be written behind the buffer. -/
theorem command_buffer_outside : run (AtcmdBuf.step (ε := Unit) []) .boot
    (bytes "AT+" ++ List.replicate 125 65 ++ [10]) = none := by
  decide +kernel

end NrcAtcmd
