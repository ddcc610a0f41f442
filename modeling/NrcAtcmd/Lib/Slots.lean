import Mathlib.Data.Multiset.AddSub
import Mathlib.Data.Multiset.MapFold

/-!
# Tables with free slots

A table is a list of slots, each free or taken. What it holds is a multiset: which slot an entry is
in does not matter, so taking a free slot adds an entry and clearing a slot removes its entry.

Where the entries have keys that are pairwise distinct, removing an entry is removing its key.
-/

namespace Slots

variable {α κ : Type*}

/-- What a table holds. -/
def contents (t : List (Option α)) : Multiset α := ↑(t.filterMap id)

@[simp] theorem contents_none_cons (t : List (Option α)) :
    contents (none :: t) = contents t := rfl

@[simp] theorem contents_some_cons (a : α) (t : List (Option α)) :
    contents (some a :: t) = a ::ₘ contents t := rfl

@[simp] theorem mem_contents {t : List (Option α)} {a : α} : a ∈ contents t ↔ some a ∈ t := by
  simp [contents]

@[simp] theorem contents_replicate (n : ℕ) :
    contents (List.replicate n (none : Option α)) = 0 := by
  simp [contents]

/-- A free slot is taken. -/
theorem contents_set_some : ∀ {t : List (Option α)} {i : ℕ}, t[i]? = some none → ∀ a,
    contents (t.set i (some a)) = a ::ₘ contents t
  | [], _, h, _ => by simp at h
  | b :: t, 0, h, a => by
    obtain rfl : b = none := by simpa using h
    rfl
  | b :: t, i + 1, h, a => by
    have ih := contents_set_some (t := t) (i := i) (by simpa using h) a
    rcases b with _ | b
    · exact ih
    · rw [List.set_cons_succ, contents_some_cons, contents_some_cons, ih, Multiset.cons_swap]

theorem cons_contents_set_none : ∀ {t : List (Option α)} {i : ℕ} {a : α}, t[i]? = some (some a) →
    a ::ₘ contents (t.set i none) = contents t
  | [], _, _, h => by simp at h
  | b :: t, 0, a, h => by
    obtain rfl : b = some a := by simpa using h
    rfl
  | b :: t, i + 1, a, h => by
    have ih := cons_contents_set_none (t := t) (i := i) (by simpa using h)
    rcases b with _ | b
    · exact ih
    · rw [List.set_cons_succ, contents_some_cons, contents_some_cons, Multiset.cons_swap, ih]

variable [DecidableEq α] {key : α → κ} {m : Multiset α} {a b : α}

/-- A slot is cleared. -/
theorem contents_set_none {t : List (Option α)} {i : ℕ} (h : t[i]? = some (some a)) :
    contents (t.set i none) = (contents t).erase a := by
  rw [← cons_contents_set_none h, Multiset.erase_cons_head]

theorem mem_erase_of_nodup (hm : (m.map key).Nodup) (ha : a ∈ m) :
    b ∈ m.erase a ↔ b ∈ m ∧ key b ≠ key a := by
  obtain ⟨m, rfl⟩ := Multiset.exists_cons_of_mem ha
  rw [Multiset.map_cons, Multiset.nodup_cons] at hm
  rw [Multiset.erase_cons_head, Multiset.mem_cons]
  constructor
  · intro hb
    refine ⟨.inr hb, fun h => hm.1 ?_⟩
    exact h ▸ Multiset.mem_map_of_mem key hb
  · rintro ⟨rfl | hb, h⟩
    · exact absurd rfl h
    · exact hb

theorem nodup_map_erase (hm : (m.map key).Nodup) : ((m.erase a).map key).Nodup :=
  Multiset.nodup_of_le (Multiset.map_le_map (Multiset.erase_le a m)) hm

end Slots
