import NrcAtcmd.CommandReceiver

/-!
# What a command line is parsed to

`atcmd_parse` keeps a character in the running argument, or overwrites it with a terminator. Which
of the two depends on the type so far and on how many arguments are complete (`Kept`), so a `?` or
a `=` ends an argument in one place and is part of it in another.

A `?` anywhere in the first parameter of `NAME=` makes the line one that asks for help. The others
go through, wherever they stand.
-/

namespace NrcAtcmd

/-- The name of a command: letters, digits and `_`. -/
def IsName (name : Bytes) : Prop :=
  ∀ b ∈ name, 48 ≤ b ∧ b ≤ 57 ∨ 65 ≤ b ∧ b ≤ 90 ∨ 97 ≤ b ∧ b ≤ 122 ∨ b = 95

/-- A parameter: printable characters, and no comma. -/
def IsParam (p : Bytes) : Prop := p ≠ [] ∧ ∀ b ∈ p, 0x20 ≤ b ∧ b ≤ 0x7E ∧ b ≠ 44

/-- The parameters of a line, with commas between them. -/
def paramLine (q : Bytes) (qs : List Bytes) : Bytes := q ++ qs.flatMap (44 :: ·)

/-- A character is kept in the running argument, where `n` are complete. -/
def Kept (type : Option AtcmdType) (n : ℕ) (b : UInt8) : Prop :=
  (b = 61 → n ≠ 0 ∧ ¬ (n = 1 ∧ type = some .get)) ∧
    (b = 63 → n ≠ 0 ∧ ¬ (n = 1 ∧ type = some .set)) ∧ (b = 44 → type ≠ some .set) ∧ b ≠ 10

variable {type : Option AtcmdType} {argv : List Bytes} {arg eol q name : Bytes} {qs : List Bytes}

theorem parse_kept : ∀ (l rest arg : Bytes), (∀ b ∈ l, Kept type argv.length b) →
    atcmdParseFrom type argv arg (l ++ rest) = atcmdParseFrom type argv (arg ++ l) rest
  | [], _, _, _ => by simp
  | b :: l, rest, arg, h => by
    obtain ⟨⟨heq, hq, hcomma, hlf⟩, hl⟩ := List.forall_mem_cons.1 h
    have ih := parse_kept l rest (arg ++ [b]) hl
    rw [List.append_assoc, List.singleton_append] at ih
    rw [List.cons_append, atcmdParseFrom, ← ih]
    simp only
    by_cases h61 : b = 61
    · rw [if_pos h61, if_neg (heq h61).1, if_neg (heq h61).2]
    rw [if_neg h61]
    by_cases h63 : b = 63
    · rw [if_pos h63, if_neg (hq h63).1, if_neg (hq h63).2]
    rw [if_neg h63]
    by_cases h44 : b = 44
    · rw [if_pos h44, if_neg (hcomma h44)]
    rw [if_neg h44, if_neg hlf]

/-- Both ends of a line complete the running argument. -/
theorem parse_eol (heol : eol = [10] ∨ eol = [13, 10]) (h : 13 ∉ arg) :
    atcmdParseFrom type argv arg eol = atcmdParseEnd type (argv ++ [arg]) := by
  have hlast : arg.getLast? ≠ some 13 := fun hl => h (List.mem_of_getLast? hl)
  rcases heol with rfl | rfl
  · rw [atcmdParseFrom]
    simp [hlast]
  · rw [atcmdParseFrom, atcmdParseFrom]
    simp

theorem IsParam.notMem (h : IsParam q) : 10 ∉ q ∧ 13 ∉ q ∧ 44 ∉ q := by
  refine ⟨fun hm => ?_, fun hm => ?_, fun hm => (h.2 44 hm).2.2 rfl⟩
  · exact absurd (h.2 10 hm).1 (by decide)
  · exact absurd (h.2 13 hm).1 (by decide)

theorem IsName.notMem (h : IsName name) :
    10 ∉ name ∧ 13 ∉ name ∧ 44 ∉ name ∧ 61 ∉ name ∧ 63 ∉ name := by
  refine ⟨?_, ?_, ?_, ?_, ?_⟩ <;> intro hm <;> have hb := h _ hm <;> revert hb <;> decide

/-- The name of a command is the first argument, whatever comes after it. -/
theorem parse_name (h : IsName name) (rest : Bytes) :
    atcmdParse (name ++ rest) = atcmdParseFrom none [] name rest := by
  obtain ⟨h10, -, h44, h61, h63⟩ := h.notMem
  refine parse_kept name rest [] fun b hb => ⟨?_, ?_, ?_, ?_⟩ <;> rintro rfl
  · exact absurd hb h61
  · exact absurd hb h63
  · exact absurd hb h44
  · exact h10 hb

theorem paramLine_cons (q q' : Bytes) (qs : List Bytes) :
    paramLine q (q' :: qs) = q ++ 44 :: paramLine q' qs := rfl

theorem paramLine_notMem : ∀ {qs : List Bytes} {q : Bytes}, (∀ p ∈ q :: qs, IsParam p) →
    10 ∉ paramLine q qs ∧ 13 ∉ paramLine q qs
  | [], q, h => by
    obtain ⟨h10, h13, -⟩ := (h q List.mem_cons_self).notMem
    simpa [paramLine] using ⟨h10, h13⟩
  | q' :: qs, q, h => by
    obtain ⟨hq, hqs⟩ := List.forall_mem_cons.1 h
    obtain ⟨h10, h13, -⟩ := hq.notMem
    obtain ⟨ih10, ih13⟩ := paramLine_notMem hqs
    rw [paramLine_cons]
    simp [h10, h13, ih10, ih13]

/-- The parameter of a `SET` is an argument, unless it is the first one and asks for help. -/
theorem parse_param (hpos : argv ≠ []) (h : IsParam q) (hfirst : argv.length = 1 → 63 ∉ q)
    (rest : Bytes) : atcmdParseFrom (some .set) argv [] (q ++ rest) =
      atcmdParseFrom (some .set) argv q rest := by
  have hlen : argv.length ≠ 0 := mt List.length_eq_zero_iff.1 hpos
  obtain ⟨h10, -, h44⟩ := h.notMem
  refine parse_kept q rest [] fun b hb => ⟨fun _ => ⟨hlen, by simp⟩, ?_, ?_, ?_⟩
  · rintro rfl
    exact ⟨hlen, fun hone => hfirst hone.1 hb⟩
  · rintro rfl
    exact absurd hb h44
  · rintro rfl
    exact h10 hb

/-- The parameters of a `SET` are the arguments if there is room for them, and none is else. -/
theorem parse_params (heol : eol = [10] ∨ eol = [13, 10]) : ∀ (qs : List Bytes) {q : Bytes}
    {argv : List Bytes}, argv ≠ [] → argv.length ≤ 10 → (∀ p ∈ q :: qs, IsParam p) →
    (argv.length = 1 → 63 ∉ q) → atcmdParseFrom (some .set) argv [] (paramLine q qs ++ eol) =
      if argv.length + qs.length ≤ 10 then atcmdParseEnd (some .set) (argv ++ q :: qs) else none
  | [], q, argv, hpos, hlen, h, hfirst => by
    have hq := h q List.mem_cons_self
    have hline : paramLine q [] = q := by simp [paramLine]
    rw [hline, parse_param hpos hq hfirst, parse_eol heol hq.notMem.2.1, if_pos (by simpa)]
  | q' :: qs, q, argv, hpos, hlen, h, hfirst => by
    obtain ⟨hq, hqs⟩ := List.forall_mem_cons.1 h
    have hstep : atcmdParseFrom (some .set) argv q (44 :: (paramLine q' qs ++ eol)) =
        if (argv ++ [q]).length < 11 then
          atcmdParseFrom (some .set) (argv ++ [q]) [] (paramLine q' qs ++ eol) else none := by
      rw [atcmdParseFrom]
      rfl
    rw [paramLine_cons, List.append_assoc, List.cons_append, parse_param hpos hq hfirst, hstep,
      List.length_append, List.length_singleton, List.length_cons]
    by_cases hroom : argv.length + 1 < 11
    · have hone : (argv ++ [q]).length = 1 → 63 ∉ q' := by
        rw [List.length_append, List.length_singleton]
        exact fun hone => absurd (List.length_eq_zero_iff.1 (by omega)) hpos
      rw [if_pos hroom, parse_params heol qs (by simp) (by simp; omega) hqs hone,
        List.length_append, List.length_singleton, List.append_assoc, List.singleton_append]
      congr 1
      exact propext ⟨by omega, by omega⟩
    · rw [if_neg hroom, if_neg (by omega)]

/-- A `?` in the first parameter asks for help, and what is around it is not read. -/
theorem parse_help (heol : eol = [10] ∨ eol = [13, 10]) (h : ∀ p ∈ q :: qs, IsParam p)
    (hm : 63 ∈ q) : atcmdParseFrom (some .set) [name] [] (paramLine q qs ++ eol) =
      some (.set, [strupr name]) := by
  obtain ⟨q₁, q₂, rfl, hno⟩ := List.eq_append_cons_of_mem hm
  obtain ⟨h10, h13⟩ := paramLine_notMem h
  obtain ⟨hq10, -, hq44⟩ := (h _ List.mem_cons_self).notMem
  have hline : paramLine (q₁ ++ 63 :: q₂) qs = q₁ ++ 63 :: paramLine q₂ qs := by simp [paramLine]
  rw [hline] at h10 h13 ⊢
  simp only [List.mem_append, List.mem_cons, not_or] at h10 h13 hq10 hq44
  -- up to the `?`
  have hfirst : atcmdParseFrom (some .set) [name] [] (q₁ ++ 63 :: (paramLine q₂ qs ++ eol)) =
      atcmdParseFrom (some .set) [name] q₁ (63 :: (paramLine q₂ qs ++ eol)) := by
    refine parse_kept q₁ _ [] fun b hb => ⟨fun _ => by simp, ?_, ?_, ?_⟩ <;> rintro rfl
    · exact absurd hb hno
    · exact absurd hb hq44.1
    · exact hq10.1 hb
  have hstep : atcmdParseFrom (some .set) [name] q₁ (63 :: (paramLine q₂ qs ++ eol)) =
      atcmdParseFrom (some .setHelp) [name] [] (paramLine q₂ qs ++ eol) := by
    rw [atcmdParseFrom]
    rfl
  -- and past it
  have hrest : atcmdParseFrom (some .setHelp) [name] [] (paramLine q₂ qs ++ eol) =
      atcmdParseFrom (some .setHelp) [name] (paramLine q₂ qs) eol := by
    refine parse_kept _ _ [] fun b hb => ⟨fun _ => by simp, fun _ => by simp, by simp, ?_⟩
    rintro rfl
    exact h10.2.2 hb
  rw [List.append_assoc, List.cons_append, hfirst, hstep, hrest, parse_eol heol h13.2.2]
  rfl

theorem parseEnd_set (hq : q ≠ []) : atcmdParseEnd (some .set) ([name] ++ q :: qs) =
    some (.set, strupr name :: q :: qs) := by
  have htake : (name :: q :: qs).take (1 + (qs.length + 1)) = name :: q :: qs :=
    List.take_of_length_le (by rw [List.length_cons, List.length_cons]; omega)
  simp [atcmdParseEnd, hq, htake]

/-- The line of a `SET`. -/
theorem parse_set (heol : eol = [10] ∨ eol = [13, 10]) (hname : IsName name)
    (h : ∀ p ∈ q :: qs, IsParam p) : atcmdParse (name ++ 61 :: (paramLine q qs ++ eol)) =
      if 63 ∈ q then some (.set, [strupr name])
      else if (q :: qs).length ≤ 10 then some (.set, strupr name :: q :: qs) else none := by
  have hstep : atcmdParseFrom none [] name (61 :: (paramLine q qs ++ eol)) =
      atcmdParseFrom (some .set) [name] [] (paramLine q qs ++ eol) := by
    rw [atcmdParseFrom]
    rfl
  rw [parse_name hname, hstep]
  split_ifs with hm hten
  · exact parse_help heol h hm
  · rw [List.length_cons] at hten
    rw [parse_params heol qs (by simp) (by simp) h fun _ => hm, if_pos (by simp; omega),
      parseEnd_set (h q List.mem_cons_self).1]
  · rw [List.length_cons] at hten
    rw [parse_params heol qs (by simp) (by simp) h fun _ => hm, if_neg (by simp; omega)]

/-! ## The other forms -/

theorem parse_run (heol : eol = [10] ∨ eol = [13, 10]) (hname : IsName name) :
    atcmdParse (name ++ eol) = some (.run, [strupr name]) := by
  rw [parse_name hname, parse_eol heol hname.notMem.2.1]
  rfl

theorem parse_get (heol : eol = [10] ∨ eol = [13, 10]) (hname : IsName name) :
    atcmdParse (name ++ 63 :: eol) = some (.get, [strupr name]) := by
  have hstep : atcmdParseFrom none [] name (63 :: eol) =
      atcmdParseFrom (some .get) [name] [] eol := by
    rw [atcmdParseFrom]
    rfl
  rw [parse_name hname, hstep, parse_eol heol (by simp)]
  rfl

/-- A `GET` with a parameter keeps all of it. -/
theorem parse_getParam (heol : eol = [10] ∨ eol = [13, 10]) (hname : IsName name)
    (hq : IsParam q) : atcmdParse (name ++ 63 :: 61 :: (q ++ eol)) =
      some (.get, [strupr name, q]) := by
  obtain ⟨h10, h13, -⟩ := hq.notMem
  have hstep : atcmdParseFrom none [] name (63 :: 61 :: (q ++ eol)) =
      atcmdParseFrom (some .getParam) [name] [] (q ++ eol) := by
    rw [atcmdParseFrom, atcmdParseFrom]
    rfl
  have hparam : atcmdParseFrom (some .getParam) [name] [] (q ++ eol) =
      atcmdParseFrom (some .getParam) [name] q eol := by
    refine parse_kept q eol [] fun b hb => ⟨fun _ => by simp, fun _ => by simp, by simp, ?_⟩
    rintro rfl
    exact h10 hb
  rw [parse_name hname, hstep, hparam, parse_eol heol h13]
  simp [atcmdParseEnd, hq.1]

theorem parse_setHelp (heol : eol = [10] ∨ eol = [13, 10]) (hname : IsName name) :
    atcmdParse (name ++ 61 :: 63 :: eol) = some (.set, [strupr name]) := by
  have hstep : atcmdParseFrom none [] name (61 :: 63 :: eol) =
      atcmdParseFrom (some .setHelp) [name] [] eol := by
    rw [atcmdParseFrom, atcmdParseFrom]
    rfl
  rw [parse_name hname, hstep, parse_eol heol (by simp)]
  rfl

/-- Every form of a line is parsed to what was written, up to ten parameters and none past that,
exactly when its first parameter has no `?`. -/
theorem atcmd_parse_iff (heol : eol = [10] ∨ eol = [13, 10]) (hname : IsName name)
    (h : ∀ p ∈ q :: qs, IsParam p) :
    (atcmdParse (name ++ 61 :: (paramLine q qs ++ eol)) =
        (if (q :: qs).length ≤ 10 then some (.set, strupr name :: q :: qs) else none)
      ∧ atcmdParse (name ++ eol) = some (.run, [strupr name])
      ∧ atcmdParse (name ++ 63 :: eol) = some (.get, [strupr name])
      ∧ atcmdParse (name ++ 63 :: 61 :: (q ++ eol)) = some (.get, [strupr name, q])
      ∧ atcmdParse (name ++ 61 :: 63 :: eol) = some (.set, [strupr name])) ↔ 63 ∉ q := by
  rw [parse_set heol hname h, and_iff_left ⟨parse_run heol hname, parse_get heol hname,
    parse_getParam heol hname (h q List.mem_cons_self), parse_setHelp heol hname⟩]
  constructor
  · intro heq hm
    rw [if_pos hm] at heq
    split_ifs at heq
    simp at heq
  · exact fun hm => if_neg hm

theorem atcmd_parse_iff_wconn :
    let name := bytes "wconn"
    let ssid := bytes "\"ap\""
    let security := bytes "\"a?b=c\""
    let eol : Bytes := [13, 10]
    (atcmdParse (name ++ 61 :: (paramLine ssid [security] ++ eol)) =
        (if [ssid, security].length ≤ 10 then some (.set, [strupr name, ssid, security]) else none)
      ∧ atcmdParse (name ++ eol) = some (.run, [strupr name])
      ∧ atcmdParse (name ++ 63 :: eol) = some (.get, [strupr name])
      ∧ atcmdParse (name ++ 63 :: 61 :: (ssid ++ eol)) = some (.get, [strupr name, ssid])
      ∧ atcmdParse (name ++ 61 :: 63 :: eol) = some (.set, [strupr name])) ↔ 63 ∉ ssid := by
  intro name ssid security eol
  have hname : IsName name := by unfold IsName; decide +kernel
  have hparams : ∀ p ∈ [ssid, security], IsParam p := by unfold IsParam; decide +kernel
  exact atcmd_parse_iff (Or.inr rfl) hname hparams

/-- The network `a?b` cannot be joined: the line asks for help. -/
theorem atcmd_parse_fails_question :
    atcmdParse (bytes "WCONN=\"a?b\"\n") ≠ some (.set, [bytes "WCONN", bytes "\"a?b\""]) := by
  decide +kernel

end NrcAtcmd
