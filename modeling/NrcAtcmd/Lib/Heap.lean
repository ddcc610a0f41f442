import Mathlib.Data.List.Basic
import Mathlib.Tactic.Common

/-!
# A heap with checked accesses

A heap is the blocks ever allocated in order, each live or freed. An address is the place of its
block in that order, so no block is given the address of another one. A freed block can be neither
read nor freed: such an access has no result, so a program over these has one exactly if it uses no
block after it was freed and frees none twice.
-/

namespace Heap

variable {α : Type*}

/-- The heap after an allocation. The address of the new block is the length of the old heap. -/
def alloc (h : List (Option α)) (a : α) : List (Option α) := h ++ [some a]

def get (h : List (Option α)) (p : ℕ) : Option α := h[p]?.join

def put (h : List (Option α)) (p : ℕ) (a : α) : Option (List (Option α)) :=
  (get h p).map fun _ => h.set p (some a)

def free (h : List (Option α)) (p : ℕ) : Option (List (Option α)) :=
  (get h p).map fun _ => h.set p none

def Live (h : List (Option α)) (p : ℕ) : Prop := (get h p).isSome

variable {h h' : List (Option α)} {p q : ℕ} {a b : α}

instance : Decidable (Live h p) := inferInstanceAs (Decidable (_ = _))

theorem get_eq_some : get h p = some a ↔ h[p]? = some (some a) := by
  simp [get, Option.join_eq_some_iff]

theorem Live.lt (hp : Live h p) : p < h.length := by
  obtain ⟨a, ha⟩ := Option.isSome_iff_exists.1 hp
  exact (List.getElem?_eq_some_iff.1 (get_eq_some.1 ha)).1

theorem live_of_get (hp : get h p = some a) : Live h p := by simp [Live, hp]

theorem Live.exists (hp : Live h p) : ∃ a, get h p = some a := Option.isSome_iff_exists.1 hp

@[simp] theorem not_live_nil : ¬ Live ([] : List (Option α)) p := by simp [Live, get]

theorem get_alloc_self : get (alloc h a) h.length = some a := by simp [get, alloc]

theorem live_alloc_iff : Live (alloc h a) p ↔ Live h p ∨ p = h.length := by
  rcases Nat.lt_trichotomy p h.length with hp | rfl | hp
  · have hne : p ≠ h.length := by omega
    simp only [Live, get, alloc, List.getElem?_append_left hp, hne, or_false]
  · simp [Live, get_alloc_self]
  · have hnl : ¬ Live h p := fun hl => by have := hl.lt; omega
    have hna : ¬ Live (alloc h a) p := fun hl => by
      have := hl.lt
      simp only [alloc, List.length_append, List.length_singleton] at this
      omega
    simp only [hnl, hna, false_or, false_iff]
    omega

theorem get_set {x : Option α} (hp : Live h p) :
    get (h.set p x) q = if q = p then x else get h q := by
  unfold get
  split_ifs with hq
  · subst hq
    rw [List.getElem?_set_self hp.lt]
    rfl
  · rw [List.getElem?_set_ne (Ne.symm hq)]

theorem put_of_live (hp : Live h p) : put h p a = some (h.set p (some a)) := by
  obtain ⟨b, hb⟩ := hp.exists
  rw [put, hb, Option.map_some]

theorem free_of_live (hp : Live h p) : free h p = some (h.set p none) := by
  obtain ⟨b, hb⟩ := hp.exists
  rw [free, hb, Option.map_some]

theorem get_of_not_live (hp : ¬ Live h p) : get h p = none := by
  rwa [Live, Option.not_isSome_iff_eq_none] at hp

theorem live_set_some_iff (hp : Live h p) : Live (h.set p (some a)) q ↔ Live h q := by
  rw [Live, get_set hp]
  split_ifs with hq
  · subst hq
    simpa using hp
  · rfl

theorem live_set_none_iff (hp : Live h p) : Live (h.set p none) q ↔ Live h q ∧ q ≠ p := by
  rw [Live, get_set hp]
  split_ifs with hq
  · simp [hq]
  · simp [hq, Live]

/-- A block that is freed as soon as it was allocated leaves nothing live. -/
theorem free_alloc : free (alloc h a) h.length = some (h ++ [none]) := by
  rw [free_of_live (live_of_get get_alloc_self), alloc, List.set_append_right _ _ (Nat.le_refl _),
    Nat.sub_self, List.set_cons_zero]

theorem get_append_none : get (h ++ [none]) p = get h p := by
  unfold get
  rcases Nat.lt_trichotomy p h.length with hp | rfl | hp
  · rw [List.getElem?_append_left hp]
  · simp
  · rw [List.getElem?_eq_none (by simp; omega), List.getElem?_eq_none (by omega)]

end Heap
