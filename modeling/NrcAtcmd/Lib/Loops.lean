import Mathlib.Data.List.Basic
import Mathlib.Tactic.Common

/-!
# Counted loops in one register

A program is a list of lines, and some of them say that the next `m` lines are a body to be read `n`
times. Such loops do not nest: there is one register for the loop that runs, a line that begins a
loop writes over it, and the jump back to the body is taken when its last line has been read and
before that line is obeyed.

`unroll` is the list of the lines a program reads, from one pass over the program, or that there is
no such list (`readsAll_unroll`). A program never ends exactly when it has a loop that is read more
than once, whose last line begins a loop over the same number of lines that is read more than once
(`exists_reads_iff`).
-/

namespace Loops

variable {α : Type*} (loop : α → Option (ℕ × ℕ))

/-- The loop that runs, if `maxLine` and `maxCnt` are not zero: the lines and the passes it has read,
and where its body begins. -/
structure Register (α : Type*) where
  maxLine : ℕ
  maxCnt : ℕ
  curLine : ℕ
  curCnt : ℕ
  body : List α
  deriving DecidableEq

/-- The lines that are left, and the loop that runs. -/
structure Control (α : Type*) where
  rest : List α
  reg : Register α
  deriving DecidableEq

/-- A line was read. -/
def Control.tick (c : Control α) : Control α :=
  if 0 < c.reg.maxCnt ∧ 0 < c.reg.maxLine then
    if c.reg.maxLine ≤ c.reg.curLine + 1 then
      if c.reg.maxCnt ≤ c.reg.curCnt + 1 then
        { c with reg := { c.reg with
            maxLine := 0, maxCnt := 0, curLine := 0, curCnt := c.reg.curCnt + 1 } }
      else
        { rest := c.reg.body
          reg := { c.reg with curLine := 0, curCnt := c.reg.curCnt + 1 } }
    else { c with reg := { c.reg with curLine := c.reg.curLine + 1 } }
  else c

/-- A loop begins. -/
def Control.enter (c : Control α) (m n : ℕ) : Control α :=
  { c with reg := { maxLine := m, maxCnt := n, curLine := 0, curCnt := 0, body := c.rest } }

/-- What a line that is obeyed does to the loops. -/
def Control.obey (c : Control α) (l : α) : Control α :=
  match loop l with
  | some (m, n) => c.enter m n
  | none => c

/-- The next line, and what is left once it is obeyed. -/
def Control.fetch (c : Control α) : Option (α × Control α) :=
  match c.rest with
  | [] => none
  | l :: rest => some (l, ({ c with rest := rest }.tick).obey loop l)

/-- The program reads these lines, and comes to its end. -/
def Reads : Control α → List α → Prop
  | c, [] => c.rest = []
  | c, l :: ls => ∃ c', c.fetch loop = some (l, c') ∧ Reads c' ls

/-- The lines of a body, `n` times. -/
def again (n : ℕ) (body : List α) : List α := (List.replicate n body).flatten

/-- What is read from the body `ls` of a loop, where `next k` is what is read after `k` of its
lines. -/
def body (m n : ℕ) (ls : List α) (next : ℕ → Option (List α)) : Option (List α) :=
  if ls.length < m ∨ n < 2 then next 0
  else match (ls.take m).findIdx? (fun l => (loop l).isSome) with
    | none => (next m).map (again n (ls.take m) ++ ·)
    | some k =>
      if k + 1 < m then next 0
      else match (ls[k]?).bind loop with
        | none => none
        | some (m', n') =>
          (if m' < m then (next m').map (again n' (ls.take m') ++ ·)
            else if m < m' ∨ n' < 2 then next 0
            else none).map (ls.take m ++ ·)

/-- The lines a program reads after its first `k`. -/
def unroll : ℕ → List α → Option (List α)
  | _, [] => some []
  | k + 1, _ :: ls => unroll k ls
  | 0, l :: ls => (match loop l with
    | none => unroll 0 ls
    | some (m, n) => body loop m n ls fun k => unroll k ls).map (l :: ·)

/-- The program reads these lines, and the control is then `c'`. -/
def Steps : Control α → List α → Control α → Prop
  | c, [], c' => c' = c
  | c, l :: ls, c' => ∃ c₁, c.fetch loop = some (l, c₁) ∧ Steps c₁ ls c'

/-- What the program reads is `x`, if there is such a list. -/
def ReadsAll (c : Control α) (x : Option (List α)) : Prop := ∀ out, Reads loop c out ↔ x = some out

variable {loop} {c c' c'' : Control α} {l : α} {ls ls' out : List α} {x : Option (List α)}

namespace Steps

theorem single (h : c.fetch loop = some (l, c')) : Steps loop c [l] c' := ⟨c', h, rfl⟩

theorem append (h : Steps loop c ls c') (h' : Steps loop c' ls' c'') :
    Steps loop c (ls ++ ls') c'' := by
  induction ls generalizing c with
  | nil =>
    obtain rfl : c' = c := h
    exact h'
  | cons l ls ih =>
    obtain ⟨c₁, hf, h⟩ := h
    exact ⟨c₁, hf, ih h⟩

theorem reads_iff (h : Steps loop c ls c') :
    Reads loop c out ↔ ∃ out', out = ls ++ out' ∧ Reads loop c' out' := by
  induction ls generalizing c out with
  | nil =>
    obtain rfl : c' = c := h
    simp
  | cons l ls ih =>
    obtain ⟨c₁, hf, h⟩ := h
    have hrest : c.rest ≠ [] := fun hn => by simp [Control.fetch, hn] at hf
    cases out with
    | nil => simp [Reads, hrest]
    | cons l' out =>
      simp only [Reads, hf, Option.some.injEq, Prod.mk.injEq, List.cons_append, List.cons.injEq]
      constructor
      · rintro ⟨c₂, ⟨rfl, rfl⟩, hr⟩
        obtain ⟨out', rfl, hr'⟩ := (ih h).1 hr
        exact ⟨out', ⟨rfl, rfl⟩, hr'⟩
      · rintro ⟨out', ⟨rfl, rfl⟩, hr⟩
        exact ⟨c₁, ⟨rfl, rfl⟩, (ih h).2 ⟨out', rfl, hr⟩⟩

theorem readsAll (h : Steps loop c ls c') (hx : ReadsAll loop c' x) :
    ReadsAll loop c (x.map (ls ++ ·)) := by
  intro out
  rw [h.reads_iff, Option.map_eq_some_iff]
  constructor
  · rintro ⟨out', rfl, hr⟩
    exact ⟨out', (hx out').1 hr, rfl⟩
  · rintro ⟨out', hx', rfl⟩
    exact ⟨out', rfl, (hx out').2 hx'⟩

/-- A program that comes back to where it was never ends. -/
theorem not_reads (h : Steps loop c ls c) (hls : ls ≠ []) : ¬ Reads loop c out := by
  induction hn : out.length using Nat.strongRecOn generalizing out with
  | ind n ih =>
    intro hr
    obtain ⟨out', rfl, hr'⟩ := h.reads_iff.1 hr
    refine ih out'.length ?_ rfl hr'
    rw [← hn, List.length_append]
    exact Nat.lt_add_of_pos_left (List.length_pos_of_ne_nil hls)

end Steps

theorem readsAll_nil (h : c.rest = []) : ReadsAll loop c (some []) := by
  intro out
  cases out with
  | nil => simpa [Reads] using h
  | cons l out => simp [Reads, Control.fetch, h]

theorem unroll_eq (loop : α → Option (ℕ × ℕ)) (k : ℕ) (ls : List α) :
    unroll loop k ls = unroll loop 0 (ls.drop k) := by
  induction ls generalizing k with
  | nil => simp [unroll]
  | cons l ls ih =>
    cases k with
    | zero => rfl
    | succ k => exact ih k

theorem mem_of_mem_again {n : ℕ} {b : List α} (h : l ∈ again n b) : l ∈ b := by
  obtain ⟨b', hb', hl⟩ := List.mem_flatten.1 h
  rw [List.eq_of_mem_replicate hb'] at hl
  exact hl

theorem mem_of_mem_body {m n : ℕ} {next : ℕ → Option (List α)}
    (hnext : ∀ k out, next k = some out → ∀ l ∈ out, l ∈ ls)
    (h : body loop m n ls next = some out) (hl : l ∈ out) : l ∈ ls := by
  have hagain : ∀ {m n k : ℕ} {out : List α},
      (next k).map (again n (ls.take m) ++ ·) = some out → ∀ l ∈ out, l ∈ ls := by
    intro m n k out h l hl
    obtain ⟨out', hout', rfl⟩ := Option.map_eq_some_iff.1 h
    rcases List.mem_append.1 hl with hl | hl
    · exact List.mem_of_mem_take (mem_of_mem_again hl)
    · exact hnext k out' hout' l hl
  unfold body at h
  split_ifs at h with hshort
  · exact hnext 0 out h l hl
  split at h
  · exact hagain h l hl
  split_ifs at h
  · exact hnext 0 out h l hl
  split at h
  · cases h
  obtain ⟨out', hout', rfl⟩ := Option.map_eq_some_iff.1 h
  rcases List.mem_append.1 hl with hl | hl
  · exact List.mem_of_mem_take hl
  split_ifs at hout'
  · exact hagain hout' l hl
  · exact hnext 0 out' hout' l hl

/-- A program reads its own lines only. -/
theorem mem_of_mem_unroll {k : ℕ} (h : unroll loop k ls = some out) (hl : l ∈ out) : l ∈ ls := by
  induction ls generalizing k out l with
  | nil =>
    simp only [unroll, Option.some.injEq] at h
    rw [← h] at hl
    exact hl
  | cons l' ls ih =>
    cases k with
    | succ k => exact List.mem_cons_of_mem _ (ih h hl)
    | zero =>
      rw [unroll] at h
      obtain ⟨out', hout', rfl⟩ := Option.map_eq_some_iff.1 h
      rcases List.mem_cons.1 hl with rfl | hl
      · exact List.mem_cons_self ..
      refine List.mem_cons_of_mem _ ?_
      split at hout'
      · exact ih hout' hl
      · exact mem_of_mem_body (fun k out h l hl => ih h hl) hout' hl

/-- What holds of the lines that are left and of the body holds of the next line, and still does. -/
theorem fetch_mem {P : α → Prop} (h : c.fetch loop = some (l, c')) (hr : ∀ x ∈ c.rest, P x)
    (hb : ∀ x ∈ c.reg.body, P x) :
    P l ∧ (∀ x ∈ c'.rest, P x) ∧ ∀ x ∈ c'.reg.body, P x := by
  unfold Control.fetch at h
  rcases hrest : c.rest with _ | ⟨l', rest⟩ <;> rw [hrest] at h
  · cases h
  obtain ⟨rfl, rfl⟩ := Prod.mk.inj (Option.some.inj h)
  rw [hrest] at hr
  refine ⟨hr _ (List.mem_cons_self ..), ?_⟩
  have htick : (∀ x ∈ ({ c with rest := rest }.tick).rest, P x) ∧
      ∀ x ∈ ({ c with rest := rest }.tick).reg.body, P x := by
    unfold Control.tick
    split_ifs
    · exact ⟨fun x hx => hr x (List.mem_cons_of_mem _ hx), hb⟩
    · exact ⟨hb, hb⟩
    · exact ⟨fun x hx => hr x (List.mem_cons_of_mem _ hx), hb⟩
    · exact ⟨fun x hx => hr x (List.mem_cons_of_mem _ hx), hb⟩
  unfold Control.obey
  split
  · exact ⟨htick.1, htick.1⟩
  · exact htick

/-! ## Where the loop that runs takes no jump -/

/-- The loop that runs, if any, is in its last pass, or the program ends or begins another loop
before the last line of the body. -/
def Control.Straight (loop : α → Option (ℕ × ℕ)) (c : Control α) : Prop :=
  c.reg.maxCnt = 0 ∨ c.reg.maxLine = 0 ∨ c.reg.maxCnt ≤ c.reg.curCnt + 1 ∨
    c.rest.length + c.reg.curLine < c.reg.maxLine ∨
      ∃ l ∈ c.rest.take (c.reg.maxLine - c.reg.curLine - 1), (loop l).isSome = true

/-- A line of a straight control is followed by the next. -/
theorem Control.Straight.tick {rest : List α} (h : c.Straight loop) (hr : c.rest = l :: rest) :
    ({ c with rest := rest }.tick).rest = rest ∧
      (loop l = none → ({ c with rest := rest }.tick).Straight loop) := by
  unfold Control.tick
  split_ifs with hrun hline hcnt
  · exact ⟨rfl, fun _ => .inl rfl⟩
  · exfalso
    rcases h with h | h | h | h | ⟨l', hl', -⟩
    · exact absurd h (Nat.ne_of_gt hrun.1)
    · exact absurd h (Nat.ne_of_gt hrun.2)
    · exact hcnt h
    · rw [hr, List.length_cons] at h
      dsimp only at hline
      omega
    · rw [show c.reg.maxLine - c.reg.curLine - 1 = 0 by dsimp only at hline; omega] at hl'
      simp at hl'
  · refine ⟨rfl, fun hl => ?_⟩
    rcases h with h | h | h | h | ⟨l', hl', hs⟩
    · exact .inl h
    · exact .inr (.inl h)
    · exact .inr (.inr (.inl h))
    · rw [hr, List.length_cons] at h
      refine .inr (.inr (.inr (.inl ?_)))
      dsimp only
      omega
    · refine .inr (.inr (.inr (.inr ⟨l', ?_, hs⟩)))
      dsimp only at hline ⊢
      rw [hr, show c.reg.maxLine - c.reg.curLine - 1 =
        (c.reg.maxLine - (c.reg.curLine + 1) - 1) + 1 by omega, List.take_succ_cons] at hl'
      rcases List.mem_cons.1 hl' with rfl | hl'
      · rw [hl] at hs
        cases hs
      · exact hl'
  · refine ⟨rfl, fun _ => ?_⟩
    rcases Nat.eq_zero_or_pos c.reg.maxCnt with hz | hz
    · exact .inl hz
    · exact .inr (.inl (Nat.eq_zero_of_not_pos fun hp => hrun ⟨hz, hp⟩))

theorem Control.Straight.fetch_plain {rest : List α} (h : c.Straight loop)
    (hr : c.rest = l :: rest) (hl : loop l = none) :
    ∃ c', c.fetch loop = some (l, c') ∧ c'.rest = rest ∧ c'.Straight loop := by
  obtain ⟨hrest, hs⟩ := h.tick hr
  refine ⟨{ c with rest := rest }.tick, ?_, hrest, hs hl⟩
  simp [Control.fetch, hr, Control.obey, hl]

theorem Control.Straight.fetch_loop {rest : List α} {m n : ℕ} (h : c.Straight loop)
    (hr : c.rest = l :: rest) (hl : loop l = some (m, n)) :
    c.fetch loop = some (l, ⟨rest, m, n, 0, 0, rest⟩) := by
  obtain ⟨hrest, -⟩ := h.tick hr
  simp [Control.fetch, hr, Control.obey, hl, Control.enter, hrest]

/-! ## One pass -/

/-- What is read of a body before its last line. -/
theorem steps_take {m n j k i : ℕ} {b : List α} (hn : 0 < n) (hk : k ≤ ls.length)
    (hm : i + k < m) (hl : ∀ l ∈ ls.take k, loop l = none) :
    Steps loop ⟨ls, m, n, i, j, b⟩ (ls.take k) ⟨ls.drop k, m, n, i + k, j, b⟩ := by
  induction k generalizing i ls with
  | zero => rfl
  | succ k ih =>
    cases ls with
    | nil => simp at hk
    | cons l ls =>
      have hf : Control.fetch loop ⟨l :: ls, m, n, i, j, b⟩ =
          some (l, ⟨ls, m, n, i + 1, j, b⟩) := by
        have hnone : loop l = none := hl l (by simp)
        simp [Control.fetch, Control.tick, Control.obey, hnone, hn, show 0 < m by omega,
          show ¬ m ≤ i + 1 by omega]
      have hrest := ih (by simpa using hk) (by omega : i + 1 + k < m)
        fun l' hl' => hl l' (by simp [hl'])
      rw [show i + 1 + k = i + (k + 1) by omega] at hrest
      exact ⟨_, hf, hrest⟩

/-- The control at the end of a pass: the body again, or what follows it. -/
def passed (m n j : ℕ) (ls b : List α) : Control α :=
  if n ≤ j + 1 then ⟨ls, 0, 0, 0, j + 1, b⟩ else ⟨b, m, n, 0, j + 1, b⟩

/-- A pass over a body, whose last line is obeyed when it is over. -/
theorem steps_pass {m n j : ℕ} {ls b : List α} (hm : 0 < m) (hn : 0 < n) (hlen : m ≤ ls.length)
    (hl : ∀ l ∈ ls.take (m - 1), loop l = none) {l : α} (hlast : ls[m - 1]? = some l) :
    Steps loop ⟨ls, m, n, 0, j, b⟩ (ls.take m) ((passed m n j (ls.drop m) b).obey loop l) := by
  have hdrop : ls.drop (m - 1) = l :: ls.drop m := by
    obtain ⟨h, rfl⟩ := List.getElem?_eq_some_iff.1 hlast
    rw [List.drop_eq_getElem_cons h, show m - 1 + 1 = m by omega]
  have htake : ls.take m = ls.take (m - 1) ++ [l] := by
    obtain ⟨h, rfl⟩ := List.getElem?_eq_some_iff.1 hlast
    rw [← List.take_succ_eq_append_getElem h, show m - 1 + 1 = m by omega]
  rw [htake]
  refine (steps_take (i := 0) hn (by omega) (by omega) hl).append (.single ?_)
  rw [hdrop, Nat.zero_add]
  simp only [Control.fetch, Control.tick, passed, hn, hm, and_self, if_true]
  rw [if_pos (show m ≤ m - 1 + 1 by omega)]

/-! ## Whole programs -/

/-- A body that begins no loop is read as often as its loop says. -/
theorem readsAll_again {m n : ℕ} (hm : 0 < m) (hlen : m ≤ ls.length)
    (hl : ∀ l ∈ ls.take m, loop l = none)
    (hnext : ∀ c : Control α, c.Straight loop → c.rest = ls.drop m → ReadsAll loop c x)
    {p j : ℕ} (hp : 0 < p) (hn : n = j + p) :
    ReadsAll loop ⟨ls, m, n, 0, j, ls⟩ (x.map (again p (ls.take m) ++ ·)) := by
  obtain ⟨l, hlast⟩ : ∃ l, ls[m - 1]? = some l := ⟨_, List.getElem?_eq_getElem (by omega)⟩
  have hnone : loop l = none := by
    refine hl l ?_
    rw [List.mem_take_iff_getElem]
    obtain ⟨h, rfl⟩ := List.getElem?_eq_some_iff.1 hlast
    exact ⟨m - 1, by omega, rfl⟩
  induction p generalizing j with
  | zero => exact absurd hp (by omega)
  | succ p ih =>
    have hpass := steps_pass (j := j) (b := ls) hm (by omega) hlen (n := n)
      (fun l hl' => hl l (List.take_subset_take_left ls (by omega) hl')) hlast
    rw [Control.obey, hnone, passed] at hpass
    rcases Nat.eq_zero_or_pos p with rfl | hp'
    · rw [if_pos (by omega)] at hpass
      simpa [again] using hpass.readsAll (hnext _ (.inl rfl) rfl)
    · rw [if_neg (by omega)] at hpass
      have := hpass.readsAll (ih (j := j + 1) hp' (by omega))
      simpa [again, List.replicate_succ, Function.comp_def] using this

theorem straight_enter {m n k : ℕ} (hk : k + 1 < m) (hl : ls[k]? = some l)
    (hs : (loop l).isSome = true) : Control.Straight loop ⟨ls, m, n, 0, 0, ls⟩ := by
  refine .inr (.inr (.inr (.inr ⟨l, ?_, hs⟩)))
  obtain ⟨h, rfl⟩ := List.getElem?_eq_some_iff.1 hl
  rw [List.mem_take_iff_getElem]
  exact ⟨k, by dsimp only; omega, rfl⟩

/-- Where the last line of a body begins another loop, the body is read again from its beginning
under the new loop. -/
theorem readsAll_last {m n m' n' : ℕ} (hm : 0 < m) (hm' : 0 < m') (hn' : 0 < n') (hn : 2 ≤ n)
    (hlen : m ≤ ls.length) (hl : ∀ l ∈ ls.take (m - 1), loop l = none)
    (hlast : ls[m - 1]? = some l) (hll : loop l = some (m', n')) {next : ℕ → Option (List α)}
    (hnext : ∀ k (c : Control α), c.Straight loop → c.rest = ls.drop k →
      ReadsAll loop c (next k)) :
    ReadsAll loop ⟨ls, m, n, 0, 0, ls⟩
      ((if m' < m then (next m').map (again n' (ls.take m') ++ ·)
        else if m < m' ∨ n' < 2 then next 0 else none).map (ls.take m ++ ·)) := by
  have hpass : ∀ n'' : ℕ, 2 ≤ n'' →
      Steps loop ⟨ls, m, n'', 0, 0, ls⟩ (ls.take m) ⟨ls, m', n', 0, 0, ls⟩ := by
    intro n'' hn''
    have := steps_pass (j := 0) (b := ls) hm (by omega) hlen (n := n'') hl hlast
    rw [Control.obey, hll, passed, if_neg (by omega)] at this
    exact this
  refine (hpass n hn).readsAll ?_
  by_cases hlt : m' < m
  · rw [if_pos hlt]
    exact readsAll_again hm' (by omega)
      (fun l hl' => hl l (List.take_subset_take_left ls (by omega) hl')) (hnext m') hn' (by omega)
  rw [if_neg hlt]
  by_cases hs : m < m' ∨ n' < 2
  · rw [if_pos hs]
    refine hnext 0 _ ?_ rfl
    rcases hs with hs | hs
    · exact straight_enter (k := m - 1) (by omega) hlast (by simp [hll])
    · exact .inr (.inr (.inl (by dsimp only; omega)))
  rw [if_neg hs]
  obtain rfl : m' = m := by omega
  refine fun out => iff_of_false ?_ (by simp)
  refine (hpass n' (by omega)).not_reads fun hnil => ?_
  rw [List.take_eq_nil_iff] at hnil
  rcases hnil with h | rfl
  · omega
  · simp at hlen
    omega

/-- What is read from the body of a loop that has just begun. -/
theorem readsAll_body (hloop : ∀ l m n, loop l = some (m, n) → 0 < m ∧ 0 < n) {m n : ℕ}
    (hm : 0 < m) (hn : 0 < n) {next : ℕ → Option (List α)}
    (hnext : ∀ k (c : Control α), c.Straight loop → c.rest = ls.drop k →
      ReadsAll loop c (next k)) :
    ReadsAll loop ⟨ls, m, n, 0, 0, ls⟩ (body loop m n ls next) := by
  unfold body
  by_cases hshort : ls.length < m ∨ n < 2
  · rw [if_pos hshort]
    refine hnext 0 _ ?_ rfl
    rcases hshort with h | h
    · exact .inr (.inr (.inr (.inl h)))
    · exact .inr (.inr (.inl (by dsimp only; omega)))
  rw [if_neg hshort]
  simp only [not_or, Nat.not_lt] at hshort
  rcases hk : (ls.take m).findIdx? (fun l => (loop l).isSome) with _ | k
  · rw [List.findIdx?_eq_none_iff] at hk
    exact readsAll_again hm hshort.1 (fun l hl => by simpa using hk l hl) (hnext m) hn (by omega)
  obtain ⟨hlt, hsome, hbefore⟩ := List.findIdx?_eq_some_iff_getElem.1 hk
  rw [List.length_take] at hlt
  rw [List.getElem_take] at hsome
  have hlast : ls[k]? = some ls[k] := List.getElem?_eq_getElem _
  dsimp only
  by_cases hin : k + 1 < m
  · rw [if_pos hin]
    exact hnext 0 _ (straight_enter hin hlast hsome) rfl
  rw [if_neg hin]
  obtain rfl : k = m - 1 := by omega
  obtain ⟨⟨m', n'⟩, hll⟩ := Option.isSome_iff_exists.1 hsome
  rw [hlast, Option.bind_some, hll]
  obtain ⟨hm', hn'⟩ := hloop _ _ _ hll
  refine readsAll_last hm hm' hn' hshort.2 hshort.1 (fun l hl => ?_) hlast hll hnext
  obtain ⟨i, hi, rfl⟩ := List.mem_take_iff_getElem.1 hl
  have := hbefore i (by omega)
  simpa [List.getElem_take] using this

/-- **What a program reads**, from a control that takes no jump. -/
theorem readsAll_unroll (hloop : ∀ l m n, loop l = some (m, n) → 0 < m ∧ 0 < n)
    (h : c.Straight loop) : ReadsAll loop c (unroll loop 0 c.rest) := by
  induction hlen : c.rest.length using Nat.strongRecOn generalizing c with
  | ind n ih =>
    rcases hr : c.rest with _ | ⟨l, rest⟩
    · exact readsAll_nil hr
    rw [hr, List.length_cons] at hlen
    have hnext : ∀ k (c : Control α), c.Straight loop → c.rest = rest.drop k →
        ReadsAll loop c (unroll loop k rest) := by
      intro k c hc hrest
      rw [unroll_eq, ← hrest]
      refine ih _ ?_ hc rfl
      rw [hrest, List.length_drop]
      omega
    rw [unroll]
    rcases hl : loop l with _ | ⟨m, n⟩
    · obtain ⟨c', hf, hrest, hs⟩ := h.fetch_plain hr hl
      exact (Steps.single hf).readsAll (hnext 0 c' hs hrest)
    · obtain ⟨hm, hn⟩ := hloop l m n hl
      exact (Steps.single (h.fetch_loop hr hl)).readsAll (readsAll_body hloop hm hn hnext)

/-! ## Programs that never end -/

variable (loop) in
/-- A loop that is read more than once ends in a line that begins a loop over the same lines that is
read more than once. -/
def Knotted (ls : List α) : Prop :=
  ∃ pre l body l' post n n', ls = pre ++ l :: (body ++ l' :: post) ∧
    loop l = some (body.length + 1, n) ∧ 2 ≤ n ∧ loop l' = some (body.length + 1, n') ∧ 2 ≤ n' ∧
      ∀ x ∈ body, loop x = none

theorem Knotted.append (pre : List α) (h : Knotted loop ls) : Knotted loop (pre ++ ls) := by
  obtain ⟨pre', l, body, l', post, n, n', rfl, h⟩ := h
  exact ⟨pre ++ pre', l, body, l', post, n, n', by rw [List.append_assoc], h⟩

theorem Knotted.of_cons (h : Knotted loop (l :: ls)) (hl : loop l = none) : Knotted loop ls := by
  obtain ⟨pre, l₁, body, l', post, n, n', he, hl₁, h⟩ := h
  cases pre with
  | nil =>
    obtain ⟨rfl, -⟩ := List.cons.inj he
    rw [hl] at hl₁
    cases hl₁
  | cons p pre =>
    obtain ⟨rfl, rfl⟩ := List.cons.inj he
    exact ⟨pre, l₁, body, l', post, n, n', rfl, hl₁, h⟩

/-- Lines that begin no loop are in no knot's beginning. -/
theorem knotted_drop_iff (k : ℕ) (hl : ∀ l ∈ ls.take k, loop l = none) :
    Knotted loop (ls.drop k) ↔ Knotted loop ls := by
  refine ⟨fun h => ?_, fun h => ?_⟩
  · rw [← List.take_append_drop k ls]
    exact h.append _
  · induction k generalizing ls with
    | zero => exact h
    | succ k ih =>
      cases ls with
      | nil => exact h
      | cons l ls =>
        exact ih (fun l' hl' => hl l' (by simp [hl'])) (h.of_cons (hl l (by simp)))

/-- A knot begins at this line or later. -/
theorem knotted_cons_iff {m n : ℕ} (hl : loop l = some (m, n)) (hm : 0 < m) :
    Knotted loop (l :: ls) ↔ Knotted loop ls ∨
      2 ≤ n ∧ ∃ l' n', ls[m - 1]? = some l' ∧ loop l' = some (m, n') ∧ 2 ≤ n' ∧
        ∀ x ∈ ls.take (m - 1), loop x = none := by
  constructor
  · rintro ⟨pre, l₁, body, l', post, n₁, n', he, hl₁, hn, hl', hn', hb⟩
    cases pre with
    | cons p pre =>
      obtain ⟨rfl, rfl⟩ := List.cons.inj he
      exact .inl ⟨pre, l₁, body, l', post, n₁, n', rfl, hl₁, hn, hl', hn', hb⟩
    | nil =>
      obtain ⟨rfl, rfl⟩ := List.cons.inj he
      obtain ⟨rfl, rfl⟩ := Prod.mk.inj (Option.some.inj (hl.symm.trans hl₁))
      exact .inr ⟨hn, l', n', by simp, hl', hn', by simpa using hb⟩
  · rintro (h | ⟨hn, l', n', hlast, hl', hn', hb⟩)
    · exact h.append [l]
    · obtain ⟨hlt, rfl⟩ := List.getElem?_eq_some_iff.1 hlast
      have hlen : (ls.take (m - 1)).length + 1 = m := by
        rw [List.length_take]
        omega
      refine ⟨[], l, ls.take (m - 1), ls[m - 1], ls.drop m, n, n', ?_, by rw [hlen, hl], hn,
        by rw [hlen, hl'], hn', hb⟩
      rw [List.nil_append, List.cons.injEq]
      refine ⟨rfl, ?_⟩
      conv_lhs => rw [← List.take_append_drop (m - 1) ls]
      rw [List.drop_eq_getElem_cons hlt, show m - 1 + 1 = m by omega]

theorem body_eq_none_iff {m n : ℕ} (hm : 0 < m) {next : ℕ → Option (List α)}
    (hnext : ∀ k, next k = none ↔ Knotted loop (ls.drop k)) :
    body loop m n ls next = none ↔ Knotted loop ls ∨
      2 ≤ n ∧ ∃ l' n', ls[m - 1]? = some l' ∧ loop l' = some (m, n') ∧ 2 ≤ n' ∧
        ∀ x ∈ ls.take (m - 1), loop x = none := by
  have hfree : ∀ k, (∀ x ∈ ls.take k, loop x = none) → (next k = none ↔ Knotted loop ls) :=
    fun k hk => (hnext k).trans (knotted_drop_iff k hk)
  have hzero := hfree 0 (by simp)
  unfold body
  by_cases hshort : ls.length < m ∨ n < 2
  · rw [if_pos hshort, hzero, or_iff_left]
    rintro ⟨hn, l', n', hlast, -⟩
    obtain ⟨hlt, -⟩ := List.getElem?_eq_some_iff.1 hlast
    omega
  rw [if_neg hshort]
  simp only [not_or, Nat.not_lt] at hshort
  rcases hk : (ls.take m).findIdx? (fun l => (loop l).isSome) with _ | k
  · rw [List.findIdx?_eq_none_iff] at hk
    dsimp only
    rw [Option.map_eq_none_iff, hfree m fun l hl => by simpa using hk l hl, or_iff_left]
    rintro ⟨-, l', n', hlast, hl', -⟩
    obtain ⟨hlt, rfl⟩ := List.getElem?_eq_some_iff.1 hlast
    have := hk ls[m - 1] (List.mem_take_iff_getElem.2 ⟨m - 1, by omega, rfl⟩)
    simp [hl'] at this
  obtain ⟨hlt, hsome, hbefore⟩ := List.findIdx?_eq_some_iff_getElem.1 hk
  rw [List.length_take] at hlt
  rw [List.getElem_take] at hsome
  have hlast : ls[k]? = some ls[k] := List.getElem?_eq_getElem _
  dsimp only
  by_cases hin : k + 1 < m
  · rw [if_pos hin, hzero, or_iff_left]
    rintro ⟨-, l', n', -, -, -, hb⟩
    have := hb ls[k] (List.mem_take_iff_getElem.2 ⟨k, by omega, rfl⟩)
    simp [this] at hsome
  rw [if_neg hin]
  obtain rfl : k = m - 1 := by omega
  obtain ⟨⟨m', n'⟩, hll⟩ := Option.isSome_iff_exists.1 hsome
  have hb : ∀ x ∈ ls.take (m - 1), loop x = none := fun x hx => by
    obtain ⟨i, hi, rfl⟩ := List.mem_take_iff_getElem.1 hx
    simpa [List.getElem_take] using hbefore i (by omega)
  rw [hlast, Option.bind_some, hll]
  dsimp only
  rw [Option.map_eq_none_iff]
  have hhead : (2 ≤ n ∧ ∃ l' n'', some ls[m - 1] = some l' ∧ loop l' = some (m, n'') ∧ 2 ≤ n'' ∧
      ∀ x ∈ ls.take (m - 1), loop x = none) ↔ m' = m ∧ 2 ≤ n' := by
    constructor
    · rintro ⟨-, l', n'', he, hl', hn', -⟩
      obtain rfl := Option.some.inj he
      obtain ⟨rfl, rfl⟩ := Prod.mk.inj (Option.some.inj (hll.symm.trans hl'))
      exact ⟨rfl, hn'⟩
    · rintro ⟨rfl, hn'⟩
      exact ⟨hshort.2, _, n', rfl, hll, hn', hb⟩
  rw [hhead]
  by_cases hlt' : m' < m
  · rw [if_pos hlt', Option.map_eq_none_iff, hfree m' fun x hx =>
      hb x (List.take_subset_take_left ls (by omega) hx), or_iff_left (by omega)]
  rw [if_neg hlt']
  by_cases hs : m < m' ∨ n' < 2
  · rw [if_pos hs, hzero, or_iff_left (by omega)]
  · rw [if_neg hs]
    exact iff_of_true rfl (.inr (by omega))

/-- The lines of a program cannot be listed exactly when it has a knot. -/
theorem unroll_eq_none_iff (hloop : ∀ l m n, loop l = some (m, n) → 0 < m ∧ 0 < n) (k : ℕ) :
    unroll loop k ls = none ↔ Knotted loop (ls.drop k) := by
  induction ls generalizing k with
  | nil =>
    simp [unroll, Knotted]
  | cons l ls ih =>
    cases k with
    | succ k => exact ih k
    | zero =>
      rw [unroll, Option.map_eq_none_iff, List.drop_zero]
      rcases hl : loop l with _ | ⟨m, n⟩
      · rw [ih 0]
        exact ⟨fun h => h.append [l], fun h => h.of_cons hl⟩
      obtain ⟨hm, hn⟩ := hloop l m n hl
      rw [knotted_cons_iff hl hm]
      exact body_eq_none_iff hm ih

/-- A program comes to its end exactly when it has no knot. -/
theorem exists_reads_iff (hloop : ∀ l m n, loop l = some (m, n) → 0 < m ∧ 0 < n)
    (h : c.Straight loop) : (∃ out, Reads loop c out) ↔ ¬ Knotted loop c.rest := by
  rw [← List.drop_zero (l := c.rest), ← unroll_eq_none_iff hloop 0,
    ← ne_eq, Option.ne_none_iff_exists']
  exact exists_congr fun out => readsAll_unroll hloop h out

end Loops
