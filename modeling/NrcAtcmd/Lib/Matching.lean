import Mathlib.Data.List.Basic
import Mathlib.Tactic.Common

/-!
# Rows matched with entries that are used up

Each row takes the first entry that matches it, and uses it up: what is left of an entry matches no
row. Where an entry matches one row only, it does not matter which rows came before, and a row finds
an entry exactly if there was one for it at the start (`pair_eq`).
-/

namespace Matching

variable {ρ ε : Type*}

/-- The entries after the first that matches was used up, if one does. -/
def use (m : ε → Bool) (kill : ε → ε) : List ε → Option (List ε)
  | [] => none
  | e :: es => if m e then some (kill e :: es) else (use m kill es).map (e :: ·)

/-- The rows, each with whether it found an entry. -/
def pair (m : ρ → ε → Bool) (kill : ε → ε) : List ρ → List ε → List (ρ × Bool)
  | [], _ => []
  | r :: rs, es =>
    match use (m r) kill es with
    | some es => (r, true) :: pair m kill rs es
    | none => (r, false) :: pair m kill rs es

variable {m : ε → Bool} {kill : ε → ε}

theorem use_eq_none {es : List ε} : use m kill es = none ↔ es.any m = false := by
  induction es with
  | nil => simp [use]
  | cons e es ih =>
    rw [use, List.any_cons]
    rcases he : m e with _ | _
    · simpa using ih
    · simp

/-- The entry that was used up, between the ones that stay. -/
theorem use_eq_some {es es' : List ε} (h : use m kill es = some es') :
    ∃ u e v, es = u ++ e :: v ∧ es' = u ++ kill e :: v ∧ m e = true := by
  induction es generalizing es' with
  | nil => cases h
  | cons e es ih =>
    rw [use] at h
    split_ifs at h with he
    · cases h
      exact ⟨[], e, es, rfl, rfl, he⟩
    · obtain ⟨es₁, h₁, rfl⟩ := Option.map_eq_some_iff.1 h
      obtain ⟨u, e', v, rfl, rfl, hm⟩ := ih h₁
      exact ⟨e :: u, e', v, rfl, rfl, hm⟩

theorem pair_eq {m : ρ → ε → Bool} {rows : List ρ} {es : List ε} (hrows : rows.Nodup)
    (hkill : ∀ r ∈ rows, ∀ e, m r (kill e) = false)
    (hone : ∀ e ∈ es, ∀ r ∈ rows, ∀ r' ∈ rows, m r e = true → m r' e = true → r = r') :
    pair m kill rows es = rows.map fun r => (r, es.any (m r)) := by
  induction rows generalizing es with
  | nil => rfl
  | cons r rs ih =>
    obtain ⟨hr, hrs⟩ := List.nodup_cons.1 hrows
    have hkill' : ∀ r ∈ rs, ∀ e, m r (kill e) = false :=
      fun r hr => hkill r (List.mem_cons_of_mem _ hr)
    have hmem : ∀ {r'}, r' ∈ rs → r' ∈ r :: rs := List.mem_cons_of_mem _
    rw [pair, List.map_cons]
    rcases huse : use (m r) kill es with _ | es'
    · dsimp only
      rw [use_eq_none.1 huse, ih hrs hkill'
        fun e he a ha b hb => hone e he a (hmem ha) b (hmem hb)]
    · obtain ⟨u, e, v, rfl, rfl, he⟩ := use_eq_some huse
      -- the entry that was used up matches none of the rows that follow
      have hother : ∀ r' ∈ rs, m r' e = false := by
        intro r' hr'
        by_contra hne
        have := hone e (by simp) r (by simp) r' (hmem hr') he (by simpa using hne)
        exact hr (this ▸ hr')
      have hany : ∀ r' ∈ rs, (u ++ kill e :: v).any (m r') = (u ++ e :: v).any (m r') := by
        intro r' hr'
        simp only [List.any_append, List.any_cons, hother r' hr', hkill' r' hr']
      dsimp only
      rw [ih hrs hkill' ?_]
      · refine List.cons_eq_cons.2 ⟨by simp [he], List.map_congr_left fun r' hr' => ?_⟩
        rw [hany r' hr']
      · intro e' he' a ha b hb hma hmb
        simp only [List.mem_append, List.mem_cons] at he'
        rcases he' with he' | rfl | he'
        · exact hone e' (by simp [he']) a (hmem ha) b (hmem hb) hma hmb
        · rw [hkill' a ha] at hma
          cases hma
        · exact hone e' (by simp [he']) a (hmem ha) b (hmem hb) hma hmb

end Matching
