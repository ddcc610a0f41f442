import Mathlib.Data.List.Nodup
import Mathlib.Logic.Function.Basic
import Mathlib.Tactic.Common

/-!
# Lists of linked nodes

The nodes of a list are linked both ways, and the list has a head. One way the links go from the
head over the newest node to the oldest and end in a null link; the other way they lead back to the
head. So the oldest node has no node before it, and the head of an empty list none at all, and what
adding and deleting store into the node before is stored through a null link there (`null` counts
it). It goes to a cell that no link leads to.

A walk that takes more steps than nodes were ever added comes back to a node, so it has no end.
-/

/-- The links of all nodes. -/
structure Links (ν : Type*) where
  next : ν → Option ν
  prev : ν → Option ν
  null : ℕ
  adds : ℕ

namespace Links

variable {ν : Type*}

/-- Nothing is linked. -/
def empty : Links ν := ⟨fun _ => none, fun _ => none, 0, 0⟩

/-- The first node of a walk with a property, of at most `fuel` nodes. -/
def find (m : Links ν) (p : ν → Bool) : ℕ → Option ν → Option (Option ν)
  | _, none => some none
  | 0, some _ => none
  | fuel + 1, some n => if p n then some (some n) else m.find p fuel (m.prev n)

/-- The nodes of a walk, of at most `fuel` nodes. -/
def walk (m : Links ν) : ℕ → Option ν → Option (List ν)
  | _, none => some []
  | 0, some _ => none
  | fuel + 1, some n => (m.walk fuel (m.prev n)).map (n :: ·)

/-- The nodes after `up` are these, and their links lead back to it. -/
def Linked (m : Links ν) (up : ν) : List ν → Prop
  | [] => m.prev up = none
  | n :: l => m.prev up = some n ∧ m.next n = some up ∧ m.Linked n l

variable {m m' : Links ν} {up head node : ν} {l l' : List ν}

theorem Linked.prev_eq (h : m.Linked up l) : m.prev up = l.head? := by
  cases l with
  | nil => exact h
  | cons n l => exact h.1

/-- A list depends on the links of its own nodes only. -/
theorem Linked.congr : ∀ {l : List ν} {up : ν}, m.Linked up l →
    (∀ n ∈ up :: l, m'.prev n = m.prev n) → (∀ n ∈ l, m'.next n = m.next n) → m'.Linked up l
  | [], up, h, hp, _ => (hp up List.mem_cons_self).trans h
  | n :: l, up, h, hp, hn => by
    obtain ⟨hprev, hnext, hl⟩ := h
    refine ⟨(hp up List.mem_cons_self).trans hprev, (hn n List.mem_cons_self).trans hnext, ?_⟩
    exact hl.congr (fun k hk => hp k (List.mem_cons_of_mem up hk))
      fun k hk => hn k (List.mem_cons_of_mem n hk)

/-- The node before a node of a list is the one after it in the list, or null. -/
theorem Linked.links : ∀ {l₁ : List ν} {up : ν}, m.Linked up (l₁ ++ node :: l') →
    m.prev node = l'.head? ∧ ∃ q ∈ up :: l₁, m.next node = some q
  | [], up, h => ⟨h.2.2.prev_eq, up, List.mem_singleton_self up, h.2.1⟩
  | a :: l₁, up, h => by
    obtain ⟨hprev, q, hq, hnext⟩ := h.2.2.links
    exact ⟨hprev, q, List.mem_cons_of_mem up hq, hnext⟩

/-- The other way there is another node, or the head. -/
theorem Linked.back {l₁ : List ν} (h : m.Linked up (l₁ ++ node :: l'))
    (hnodup : (up :: (l₁ ++ node :: l')).Nodup) :
    ∃ q ∈ up :: l₁, m.next node = some q ∧ q ≠ node := by
  obtain ⟨-, q, hq, hnext⟩ := h.links
  rw [← List.cons_append, List.nodup_append] at hnodup
  exact ⟨q, hq, hnext, hnodup.2.2 q hq node List.mem_cons_self⟩

/-! ## Walks -/

theorem Linked.walk_eq : ∀ {l : List ν} {up : ν} {fuel : ℕ}, m.Linked up l → l.length ≤ fuel →
    m.walk fuel (m.prev up) = some l
  | [], _, fuel, h, _ => by
    rw [Linked] at h
    rw [h]
    cases fuel <;> rfl
  | n :: l, _, 0, _, hlen => by simp at hlen
  | n :: l, up, fuel + 1, h, hlen => by
    have ih : m.walk fuel (m.prev n) = some l := h.2.2.walk_eq (by simpa using hlen)
    rw [h.1, walk, ih]
    rfl

theorem Linked.find_eq (p : ν → Bool) : ∀ {l : List ν} {up : ν} {fuel : ℕ}, m.Linked up l →
    l.length ≤ fuel → m.find p fuel (m.prev up) = some (l.find? p)
  | [], _, fuel, h, _ => by
    rw [Linked] at h
    rw [h]
    cases fuel <;> rfl
  | n :: l, _, 0, _, hlen => by simp at hlen
  | n :: l, up, fuel + 1, h, hlen => by
    have ih : m.find p fuel (m.prev n) = some (l.find? p) :=
      h.2.2.find_eq p (by simpa using hlen)
    rw [h.1, find, List.find?_cons]
    cases p n with
    | true => rfl
    | false => exact ih

/-! ## Adding and deleting -/

section Update

variable [DecidableEq ν]

/-- `p->next = x`. -/
def setNext (p x : Option ν) (m : Links ν) : Links ν :=
  match p with
  | some n => { m with next := Function.update m.next n x }
  | none => { m with null := m.null + 1 }

/-- `p->prev = x`. -/
def setPrev (p x : Option ν) (m : Links ν) : Links ν :=
  match p with
  | some n => { m with prev := Function.update m.prev n x }
  | none => { m with null := m.null + 1 }

/-- A node is added at the head. -/
def add (head node : ν) (m : Links ν) : Links ν :=
  let m := m.setNext (some node) (some head)
  let m := m.setPrev (some node) (m.prev head)
  let m := m.setNext (m.prev head) (some node)
  { m.setPrev (some head) (some node) with adds := m.adds + 1 }

/-- A node is deleted. -/
def del (node : ν) (m : Links ν) : Links ν :=
  let m := m.setPrev (m.next node) (m.prev node)
  let m := m.setNext (m.prev node) (m.next node)
  let m := m.setNext (some node) none
  m.setPrev (some node) none

/-- A node is added to a list that has one. -/
theorem add_some (h : node ≠ head) {k : ν} (hk : m.prev head = some k) : m.add head node =
    { next := Function.update (Function.update m.next node (some head)) k (some node)
      prev := Function.update (Function.update m.prev node (some k)) head (some node)
      null := m.null, adds := m.adds + 1 } := by
  simp [add, setNext, setPrev, hk, Function.update_of_ne h.symm]

/-- A node is added to an empty list. -/
theorem add_none (h : node ≠ head) (hk : m.prev head = none) : m.add head node =
    { next := Function.update m.next node (some head)
      prev := Function.update (Function.update m.prev node none) head (some node)
      null := m.null + 1, adds := m.adds + 1 } := by
  simp [add, setNext, setPrev, hk, Function.update_of_ne h.symm]

/-- A node is deleted that is not the oldest one. -/
theorem del_some (h : up ≠ node) (hup : m.next node = some up) {k : ν}
    (hk : m.prev node = some k) : m.del node =
    { next := Function.update (Function.update m.next k (some up)) node none
      prev := Function.update (Function.update m.prev up (some k)) node none
      null := m.null, adds := m.adds } := by
  simp [del, setNext, setPrev, hk, hup, Function.update_of_ne h.symm]

/-- The oldest node is deleted. -/
theorem del_none (h : up ≠ node) (hup : m.next node = some up) (hk : m.prev node = none) :
    m.del node =
    { next := Function.update m.next node none
      prev := Function.update (Function.update m.prev up none) node none
      null := m.null + 1, adds := m.adds } := by
  simp [del, setNext, setPrev, hk, hup, Function.update_of_ne h.symm]

/-- A node is added to a list as its newest. -/
theorem Linked.add (h : m.Linked head l) (hnodup : (head :: l).Nodup) (hnew : node ∉ head :: l) :
    (m.add head node).Linked head (node :: l) := by
  obtain ⟨hne, hl⟩ := not_or.1 (List.mem_cons.not.1 hnew)
  cases l with
  | nil =>
    rw [add_none hne h]
    refine ⟨by simp, by simp, ?_⟩
    simp [Linked, Function.update_of_ne hne]
  | cons n l =>
    obtain ⟨hprev, hnext, hrest⟩ := h
    obtain ⟨hnn, hnl⟩ := not_or.1 (List.mem_cons.not.1 hl)
    simp only [List.nodup_cons, List.mem_cons, not_or] at hnodup
    obtain ⟨⟨hhn, hhl⟩, hn, -⟩ := hnodup
    rw [add_some hne hprev]
    refine ⟨by simp, by simp [Function.update_of_ne hnn], ?_, by simp, hrest.congr ?_ ?_⟩
    · simp [Function.update_of_ne hne]
    · intro k hk
      have hk₁ : k ≠ head := by
        rintro rfl
        exact (List.mem_cons.1 hk).elim hhn hhl
      have hk₂ : k ≠ node := by
        rintro rfl
        exact hl hk
      simp [Function.update_of_ne hk₁, Function.update_of_ne hk₂]
    · intro k hk
      have hk₁ : k ≠ n := fun he => hn (he ▸ hk)
      have hk₂ : k ≠ node := fun he => hnl (he ▸ hk)
      simp [Function.update_of_ne hk₁, Function.update_of_ne hk₂]

/-- A node is added to another list. -/
theorem Linked.add_other (h : m.Linked up l) (hne : node ≠ head) (hhead : head ∉ up :: l)
    (hnode : node ∉ up :: l) (hk : ∀ k, m.prev head = some k → k ∉ l) :
    (m.add head node).Linked up l := by
  have hprev : ∀ n ∈ up :: l, (m.add head node).prev n = m.prev n := by
    intro n hn
    have h₁ : n ≠ head := fun he => hhead (he ▸ hn)
    have h₂ : n ≠ node := fun he => hnode (he ▸ hn)
    rcases hp : m.prev head with _ | k
    · rw [add_none hne hp]
      simp [Function.update_of_ne h₁, Function.update_of_ne h₂]
    · rw [add_some hne hp]
      simp [Function.update_of_ne h₁, Function.update_of_ne h₂]
  refine h.congr hprev fun n hn => ?_
  have h₂ : n ≠ node := fun he => hnode (he ▸ List.mem_cons_of_mem up hn)
  rcases hp : m.prev head with _ | k
  · rw [add_none hne hp]
    simp [Function.update_of_ne h₂]
  · have h₃ : n ≠ k := fun he => hk k hp (he ▸ hn)
    rw [add_some hne hp]
    simp [Function.update_of_ne h₂, Function.update_of_ne h₃]

/-- What deleting a node leaves alone. -/
theorem del_frame {q n : ν} (hq : m.next node = some q) (hne : q ≠ node) (hn : n ≠ node) :
    (n ≠ q → (m.del node).prev n = m.prev n)
      ∧ (m.prev node ≠ some n → (m.del node).next n = m.next n) := by
  rcases hp : m.prev node with _ | k
  · rw [del_none hne hq hp]
    refine ⟨fun hnq => ?_, fun _ => ?_⟩
    · simp [Function.update_of_ne hn, Function.update_of_ne hnq]
    · simp [Function.update_of_ne hn]
  · rw [del_some hne hq hp]
    refine ⟨fun hnq => ?_, fun hnk => ?_⟩
    · simp [Function.update_of_ne hn, Function.update_of_ne hnq]
    · have : n ≠ k := fun he => hnk (by rw [he])
      simp [Function.update_of_ne hn, Function.update_of_ne this]

/-- A node is deleted from its list. -/
theorem Linked.del : ∀ {l₁ : List ν} {up : ν}, m.Linked up (l₁ ++ node :: l') →
    (up :: (l₁ ++ node :: l')).Nodup → (m.del node).Linked up (l₁ ++ l')
  | [], up, h, hnodup => by
    obtain ⟨-, hnext, hrest⟩ := h
    simp only [List.nil_append, List.nodup_cons, List.mem_cons, not_or] at hnodup
    obtain ⟨⟨hne, hup⟩, hnode, hnl⟩ := hnodup
    cases l' with
    | nil =>
      rw [del_none hne hnext hrest]
      simp [Linked, Function.update_of_ne hne]
    | cons k l =>
      obtain ⟨hk, hnk, hl⟩ := hrest
      rw [List.nodup_cons] at hnl
      have hkn : k ≠ node := fun he => hnode (he ▸ List.mem_cons_self)
      refine ⟨?_, ?_, hl.congr (fun n hn => ?_) fun n hn => ?_⟩
      · rw [del_some hne hnext hk]
        simp [Function.update_of_ne hne]
      · rw [del_some hne hnext hk]
        simp [Function.update_of_ne hkn]
      · refine (del_frame hnext hne fun he => hnode (he ▸ hn)).1 fun he => hup (he ▸ hn)
      · have hnn : n ≠ node := fun he => hnode (he ▸ List.mem_cons_of_mem k hn)
        refine (del_frame hnext hne hnn).2 ?_
        rw [hk]
        rintro ⟨⟩
        exact hnl.1 hn
  | a :: l₁, up, h, hnodup => by
    obtain ⟨hprev, hnext, hrest⟩ := h
    obtain ⟨hup, htail⟩ := List.nodup_cons.1 hnodup
    have holder := hrest.links.1
    obtain ⟨q, hq, hnode, hqne⟩ := hrest.back htail
    have hupq : up ≠ q := by
      rintro rfl
      exact hup (List.mem_append_left _ hq)
    have hupn : up ≠ node := by
      rintro rfl
      exact hup (by simp)
    have han : a ≠ node := by
      rintro rfl
      simp at htail
    refine ⟨?_, ?_, hrest.del htail⟩
    · rw [(del_frame hnode hqne hupn).1 hupq, hprev]
    · rw [(del_frame hnode hqne han).2 ?_, hnext]
      rw [holder]
      intro he
      have : a ∈ l' := List.mem_of_mem_head? he
      simp [this] at htail

/-- A node is deleted from another list. -/
theorem Linked.del_other {q : ν} (h : m.Linked up l) (hq : m.next node = some q) (hne : q ≠ node)
    (hnode : node ∉ up :: l) (hql : q ∉ up :: l) (hk : ∀ k, m.prev node = some k → k ∉ l) :
    (m.del node).Linked up l := by
  refine h.congr (fun n hn => ?_) fun n hn => ?_
  · refine (del_frame hq hne fun he => hnode (he ▸ hn)).1 fun he => hql (he ▸ hn)
  · have hnn : n ≠ node := fun he => hnode (he ▸ List.mem_cons_of_mem up hn)
    exact (del_frame hq hne hnn).2 fun hp => hk n hp hn

/-! What is stored through a null link, and which nodes are linked. -/

theorem add_null (h : node ≠ head) :
    (m.add head node).null = m.null + if m.prev head = none then 1 else 0 := by
  rcases hp : m.prev head with _ | k
  · rw [add_none h hp, if_pos rfl]
  · rw [add_some h hp, if_neg (by simp)]
    rfl

theorem add_adds (h : node ≠ head) : (m.add head node).adds = m.adds + 1 := by
  rcases hp : m.prev head with _ | k
  · rw [add_none h hp]
  · rw [add_some h hp]

theorem add_isSome (h : node ≠ head) (hk : ∀ k, m.prev head = some k → (m.next k).isSome = true)
    (n : ν) : ((m.add head node).next n).isSome = true ↔ n = node ∨ (m.next n).isSome = true := by
  rcases hp : m.prev head with _ | k
  · rw [add_none h hp]
    by_cases hn : n = node <;> simp [hn]
  · rw [add_some h hp]
    by_cases hnk : n = k
    · subst hnk
      simp [hk n hp]
    · simp only [Function.update_of_ne hnk]
      by_cases hn : n = node <;> simp [hn]

section Del

variable {q : ν} (h : q ≠ node) (hq : m.next node = some q)
include h hq

theorem del_null : (m.del node).null = m.null + if m.prev node = none then 1 else 0 := by
  rcases hp : m.prev node with _ | k
  · rw [del_none h hq hp, if_pos rfl]
  · rw [del_some h hq hp, if_neg (by simp)]
    rfl

theorem del_adds : (m.del node).adds = m.adds := by
  rcases hp : m.prev node with _ | k
  · rw [del_none h hq hp]
  · rw [del_some h hq hp]

theorem del_isSome (hk : ∀ k, m.prev node = some k → (m.next k).isSome = true) (n : ν) :
    ((m.del node).next n).isSome = true ↔ n ≠ node ∧ (m.next n).isSome = true := by
  rcases hp : m.prev node with _ | k
  · rw [del_none h hq hp]
    by_cases hn : n = node <;> simp [hn]
  · rw [del_some h hq hp]
    by_cases hnk : n = k
    · subst hnk
      by_cases hn : n = node <;> simp [hn, hk n hp]
    · by_cases hn : n = node <;> simp [hnk, hn]

end Del

end Update

end Links
