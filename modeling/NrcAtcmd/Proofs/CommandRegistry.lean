import Mathlib.Data.Option.Basic
import Mathlib.Data.Sum.Basic
import NrcAtcmd.CommandRegistry

/-!
# The lists hold what is registered

`Represents` is kept by every operation, whatever is stored through a null link, as long as no
command is registered while it is linked: the walk from a head is over the entries of its list, the
newest first. But the first entry of a list and its oldest one are added and deleted through a null
link (`step_nulls`), so that the first group that is registered already is.
-/

set_option linter.style.nameCheck false

namespace NrcAtcmd.CommandRegistry

open Links Machine

variable {γ ι ε : Type*} {S : Structs γ ι ε}
variable {r : Registry γ ι} {a : Registered γ ι}

/-- The groups are linked. -/
structure GroupsLinked (m : Links (Option γ)) (l : List γ) : Prop where
  list : m.Linked none (l.map some)
  nodup : l.Nodup
  len : l.length ≤ m.adds

/-- The commands of each group are linked, and no others; none of them twice. -/
structure CmdsLinked (m : Links (γ ⊕ ι)) (c : γ → List ι) : Prop where
  list : ∀ g, m.Linked (.inl g) ((c g).map .inr)
  nodup : ∀ g, (c g).Nodup
  len : ∀ g, (c g).length ≤ m.adds
  only : ∀ {g g' i}, i ∈ c g → i ∈ c g' → g = g'
  next : ∀ i, (m.next (.inr i)).isSome = true ↔ ∃ g, i ∈ c g

/-- The links are those of what is registered. -/
structure Represents (r : Registry γ ι) (a : Registered γ ι) : Prop where
  groups : GroupsLinked r.groups a.groups
  cmds : CmdsLinked r.cmds a.cmds

theorem represents_boot : Represents (.boot : Registry γ ι) .empty where
  groups := ⟨rfl, List.nodup_nil, Nat.le_refl _⟩
  cmds := ⟨fun _ => rfl, fun _ => List.nodup_nil, fun _ => Nat.le_refl _, nofun, fun i => by
    simp [Registry.boot, Registered.empty, Links.empty]⟩

/-! ## What the walks find -/

theorem find?_map_some (p : γ → Bool) (l : List γ) :
    (l.map some).find? (·.any p) = (l.find? p).map some := by
  rw [List.find?_map]
  rfl

theorem Represents.groupSearch (h : Represents r a) (id : ℕ) :
    r.atcmdGroupSearch S id = some (a.group S id) := by
  have := h.groups.list.find_eq (·.any fun g => S.groupId g == id)
    (by simpa using h.groups.len)
  rw [Registry.atcmdGroupSearch, this, find?_map_some, Registered.group]
  rcases a.groups.find? _ <;> rfl

theorem Represents.findInfo (h : Represents r a) (p : ι → Bool) (g : γ) :
    r.findInfo p g = some ((a.cmds g).find? p) := by
  have := (h.cmds.list g).find_eq (Sum.elim (fun _ => false) p)
    (by simpa using h.cmds.len g)
  rw [Registry.findInfo, this, List.find?_map]
  rcases hf : (a.cmds g).find? (Sum.elim (fun _ => false) p ∘ Sum.inr) with _ | i
  · have : (a.cmds g).find? p = none := hf
    rw [this]
    rfl
  · have : (a.cmds g).find? p = some i := hf
    rw [this]
    rfl

/-- The loops of `atcmd_handler` are `atcmdSearch`. -/
theorem Represents.handlerFrom (h : Represents r a) (name : Bytes) :
    ∀ {l : List γ} {up : Option γ} {fuel : ℕ}, r.groups.Linked up (l.map some) → l.length ≤ fuel →
      ∃ found, r.handlerFrom S name fuel (r.groups.prev up) = some found
        ∧ found.map S.info = atcmdSearch (l.map fun g =>
            ⟨S.cmdPrefix g, (a.cmds g).map S.info⟩) name
        ∧ (∀ i ∈ found, ∃ g ∈ l, i ∈ a.cmds g ∧ name = S.cmdPrefix g ++ (S.info i).cmd)
        ∧ (found = none → ∀ g ∈ l, ∀ i ∈ a.cmds g, name ≠ S.cmdPrefix g ++ (S.info i).cmd)
  | [], up, fuel, hl, _ => by
    rw [hl.prev_eq]
    exact ⟨none, by cases fuel <;> rfl, rfl, nofun, nofun⟩
  | g :: l, up, 0, _, hlen => by simp at hlen
  | g :: l, up, fuel + 1, hl, hlen => by
    obtain ⟨hprev, -, hrest⟩ := hl
    obtain ⟨found, hfound, hsearch, hin, hout⟩ := h.handlerFrom name hrest
      (Nat.le_of_succ_le_succ hlen)
    rw [hprev, Registry.handlerFrom, hfound]
    simp only [List.map_cons, atcmdSearch, List.findSome?_cons]
    by_cases hp : (S.cmdPrefix g).isPrefixOf name = true
    · obtain ⟨cmd, rfl⟩ := List.isPrefixOf_iff_prefix.1 hp
      rw [if_pos hp, if_pos hp, h.findInfo, List.drop_left, List.find?_map]
      have hcomp : ((fun i : AtcmdInfo ε => i.cmd == cmd) ∘ S.info) =
          fun i => (S.info i).cmd == cmd := rfl
      rw [hcomp]
      rcases hf : (a.cmds g).find? (fun i => (S.info i).cmd == cmd) with _ | i
      · refine ⟨found, rfl, hsearch, fun i hi => ?_, fun hnone g' hg' i hi => ?_⟩
        · obtain ⟨g', hg', h'⟩ := hin i hi
          exact ⟨g', List.mem_cons_of_mem g hg', h'⟩
        · rcases List.mem_cons.1 hg' with rfl | hg'
          · have := List.find?_eq_none.1 hf i hi
            intro he
            exact this (beq_iff_eq.2 (List.append_cancel_left he).symm)
          · exact hout hnone g' hg' i hi
      · refine ⟨some i, rfl, rfl, fun i' hi' => ?_, nofun⟩
        obtain rfl := Option.some.inj hi'
        have hcmd : (S.info i).cmd = cmd := by simpa using List.find?_some hf
        exact ⟨g, List.mem_cons_self, List.mem_of_find?_eq_some hf, by rw [hcmd]⟩
    · rw [if_neg hp, if_neg hp]
      refine ⟨found, rfl, hsearch, fun i hi => ?_, fun hnone g' hg' i hi => ?_⟩
      · obtain ⟨g', hg', h'⟩ := hin i hi
        exact ⟨g', List.mem_cons_of_mem g hg', h'⟩
      · rcases List.mem_cons.1 hg' with rfl | hg'
        · rintro rfl
          exact hp (List.isPrefixOf_iff_prefix.2 (List.prefix_append _ _))
        · exact hout hnone g' hg' i hi

theorem Represents.visits (h : Represents r a) : Visits S r a where
  groups := h.groups.list.walk_eq (by simpa using h.groups.len)
  cmds g := (h.cmds.list g).walk_eq (by simpa using h.cmds.len g)
  handler name := by
    obtain ⟨found, hfound, -, hin, hout⟩ := h.handlerFrom name h.groups.list h.groups.len
    refine ⟨found, hfound, hin, fun hnone i => ?_⟩
    rintro ⟨g, hg, hi, he⟩
    exact hout hnone g hg i hi he
  search name := by
    obtain ⟨found, hfound, hsearch, -⟩ := h.handlerFrom name h.groups.list h.groups.len
    rw [Registry.atcmdHandler, hfound]
    exact congrArg some hsearch

/-! ## Operations -/

theorem find?_split {α : Type*} {p : α → Bool} {l : List α} {x : α} (h : l.find? p = some x) :
    ∃ l₁ l₂, l = l₁ ++ x :: l₂ ∧ l.eraseP p = l₁ ++ l₂ := by
  obtain ⟨hx, l₁, l₂, rfl, hl₁⟩ := List.find?_eq_some_iff_append.1 h
  refine ⟨l₁, l₂, rfl, ?_⟩
  rw [List.eraseP_append_right _ (by simpa using hl₁), List.eraseP_cons_of_pos hx]

theorem nodup_groups {l : List γ} (h : l.Nodup) : (none :: l.map some).Nodup :=
  List.nodup_cons.2 ⟨by simp, h.map (Option.some_injective γ)⟩

theorem nodup_cmds {l : List ι} (h : l.Nodup) (g : γ) :
    (.inl g :: l.map .inr : List (γ ⊕ ι)).Nodup :=
  List.nodup_cons.2 ⟨by simp, h.map Sum.inr_injective⟩

section Groups

variable [DecidableEq γ] {m : Links (Option γ)} {l : List γ}

theorem GroupsLinked.add (h : GroupsLinked m l) {g : γ} (hg : g ∉ l) :
    GroupsLinked (m.add none (some g)) (g :: l) where
  list := h.list.add (nodup_groups h.nodup) (by simpa using hg)
  nodup := List.nodup_cons.2 ⟨hg, h.nodup⟩
  len := by
    rw [add_adds (Option.some_ne_none g)]
    exact Nat.succ_le_succ h.len

theorem GroupsLinked.del {g : γ} {l₁ l₂ : List γ} (h : GroupsLinked m (l₁ ++ g :: l₂)) :
    GroupsLinked (m.del (some g)) (l₁ ++ l₂)
      ∧ (m.del (some g)).null = m.null + if m.prev (some g) = none then 1 else 0 := by
  obtain ⟨hlist, hnodup, hlen⟩ := h
  rw [List.map_append, List.map_cons] at hlist
  have hall : (none :: (l₁.map some ++ some g :: l₂.map some)).Nodup := by
    simpa using nodup_groups hnodup
  obtain ⟨q, -, hnext, hne⟩ := hlist.back hall
  refine ⟨⟨?_, hnodup.sublist (by simp), ?_⟩, del_null hne hnext⟩
  · rw [List.map_append]
    exact hlist.del hall
  · rw [del_adds hne hnext]
    simp only [List.length_append, List.length_cons] at hlen ⊢
    omega

end Groups

section Infos

variable {m : Links (γ ⊕ ι)} {c : γ → List ι} {g : γ}

/-- The entry before one of a group is in the list of no other group. -/
theorem CmdsLinked.prev_notMem (h : CmdsLinked m c) {g' : γ} (hg : g' ≠ g) (l₁ : List ι)
    {l₂ : List ι} {n : γ ⊕ ι} (hl : c g = l₁ ++ l₂) (hn : m.prev n = (l₂.map Sum.inr).head?) :
    ∀ k, m.prev n = some k → k ∉ (c g').map Sum.inr := by
  intro k hk hmem
  obtain ⟨i, hi, rfl⟩ := List.mem_map.1 hmem
  have hhead : (Sum.inr i : γ ⊕ ι) ∈ l₂.map Sum.inr := List.mem_of_mem_head? (hn ▸ hk)
  obtain ⟨i', hi', he⟩ := List.mem_map.1 hhead
  obtain rfl := Sum.inr_injective he
  exact hg (h.only hi (hl ▸ List.mem_append_right l₁ hi'))

theorem CmdsLinked.prev_isSome (h : CmdsLinked m c) (l₁ : List ι) {l₂ : List ι} {n : γ ⊕ ι}
    (hl : c g = l₁ ++ l₂) (hn : m.prev n = (l₂.map Sum.inr).head?) :
    ∀ k, m.prev n = some k → (m.next k).isSome = true := by
  intro k hk
  obtain ⟨i, hi, rfl⟩ := List.mem_map.1 (List.mem_of_mem_head? (hn ▸ hk))
  exact (h.next i).2 ⟨g, hl ▸ List.mem_append_right l₁ hi⟩

variable [DecidableEq γ]

theorem mem_update (l : List ι) (g' : γ) (i : ι) :
    i ∈ Function.update c g l g' ↔ (g' = g ∧ i ∈ l) ∨ (g' ≠ g ∧ i ∈ c g') := by
  by_cases hg : g' = g
  · subst hg
    simp
  · simp [hg]

variable [DecidableEq ι]

theorem CmdsLinked.add (h : CmdsLinked m c) {i : ι} (hi : ∀ g, i ∉ c g) :
    CmdsLinked (m.add (.inl g) (.inr i)) (Function.update c g (i :: c g)) := by
  have hne : (Sum.inr i : γ ⊕ ι) ≠ .inl g := Sum.inr_ne_inl
  have hprev := (h.list g).prev_eq
  have hmem : ∀ g' i', i' ∈ Function.update c g (i :: c g) g' ↔ (g' = g ∧ i' = i) ∨ i' ∈ c g' := by
    intro g' i'
    rw [mem_update, List.mem_cons]
    by_cases hg : g' = g <;> simp [hg]
  refine ⟨?_, ?_, ?_, ?_, fun i' => ?_⟩
  · refine (Function.forall_update_iff c fun g l => Linked _ (Sum.inl g) (l.map Sum.inr)).2
      ⟨(h.list g).add (nodup_cmds (h.nodup g) g) (by simpa using hi g), fun g' hg => ?_⟩
    exact (h.list g').add_other hne (by simpa using hg.symm) (by simpa using hi g')
      (h.prev_notMem hg [] rfl hprev)
  · exact (Function.forall_update_iff c fun _ l => l.Nodup).2
      ⟨List.nodup_cons.2 ⟨hi g, h.nodup g⟩, fun g' _ => h.nodup g'⟩
  · rw [add_adds hne]
    exact (Function.forall_update_iff c fun _ l => l.length ≤ _).2
      ⟨Nat.succ_le_succ (h.len g), fun g' _ => Nat.le_succ_of_le (h.len g')⟩
  · intro g₁ g₂ i' h₁ h₂
    rcases (hmem g₁ i').1 h₁ with ⟨rfl, rfl⟩ | hc₁
    · exact ((hmem g₂ i').1 h₂).elim (·.1.symm) fun hc₂ => absurd hc₂ (hi g₂)
    · rcases (hmem g₂ i').1 h₂ with ⟨-, rfl⟩ | hc₂
      · exact absurd hc₁ (hi g₁)
      · exact h.only hc₁ hc₂
  · rw [add_isSome hne (h.prev_isSome [] rfl hprev), h.next, Sum.inr.injEq]
    constructor
    · rintro (rfl | ⟨g', hg'⟩)
      · exact ⟨g, (hmem g i').2 (.inl ⟨rfl, rfl⟩)⟩
      · exact ⟨g', (hmem g' i').2 (.inr hg')⟩
    · rintro ⟨g', hg'⟩
      exact ((hmem g' i').1 hg').imp (·.2) fun h => ⟨g', h⟩

theorem CmdsLinked.del (h : CmdsLinked m c) {i : ι} {l₁ l₂ : List ι} (hl : c g = l₁ ++ i :: l₂) :
    CmdsLinked (m.del (.inr i)) (Function.update c g (l₁ ++ l₂))
      ∧ (m.del (.inr i)).null = m.null + if m.prev (.inr i) = none then 1 else 0 := by
  have hlist := h.list g
  have hnodup := h.nodup g
  rw [hl] at hlist hnodup
  rw [List.map_append, List.map_cons] at hlist
  have hall : (Sum.inl g :: (l₁.map Sum.inr ++ Sum.inr i :: l₂.map Sum.inr)).Nodup := by
    simpa using nodup_cmds hnodup g
  have hi : i ∈ c g := by simp [hl]
  have hprev := hlist.links.1
  obtain ⟨q, hq, hnext, hne⟩ := hlist.back hall
  have hmem : ∀ g' i', i' ∈ Function.update c g (l₁ ++ l₂) g' ↔ i' ≠ i ∧ i' ∈ c g' := by
    intro g' i'
    rw [mem_update]
    by_cases hg : g' = g
    · obtain ⟨hi₁, hi₂⟩ : i ∉ l₁ ∧ i ∉ l₂ := by
        have := List.nodup_middle.1 hnodup
        simpa using (List.nodup_cons.1 this).1
      subst hg
      simp only [hl, List.mem_append, List.mem_cons, true_and, ne_eq, not_true_eq_false,
        false_and, or_false]
      constructor
      · rintro (hl' | hl')
        · exact ⟨fun he => hi₁ (he ▸ hl'), .inl hl'⟩
        · exact ⟨fun he => hi₂ (he ▸ hl'), .inr (.inr hl')⟩
      · rintro ⟨hne', hl' | rfl | hl'⟩
        · exact .inl hl'
        · exact absurd rfl hne'
        · exact .inr hl'
    · simp only [hg, ne_eq, false_and, not_false_eq_true, true_and, false_or, iff_and_self]
      rintro hi' rfl
      exact hg (h.only hi' hi)
  refine ⟨⟨?_, ?_, ?_, ?_, fun i' => ?_⟩, del_null hne hnext⟩
  · refine (Function.forall_update_iff c fun g l => Linked _ (Sum.inl g) (l.map Sum.inr)).2
      ⟨?_, fun g' hg => ?_⟩
    · rw [List.map_append]
      exact hlist.del hall
    · have hig : i ∉ c g' := fun h' => hg (h.only h' hi)
      refine (h.list g').del_other hnext hne (by simpa using hig) ?_
        (h.prev_notMem hg (l₁ ++ [i]) (by simp [hl]) hprev)
      rcases List.mem_cons.1 hq with rfl | hq
      · simpa using Ne.symm hg
      · obtain ⟨i', hi', rfl⟩ := List.mem_map.1 hq
        have : i' ∉ c g' := fun h' => hg (h.only h' (by simp [hl, hi']))
        simpa using this
  · refine (Function.forall_update_iff c fun _ l => l.Nodup).2 ⟨?_, fun g' _ => h.nodup g'⟩
    exact hnodup.sublist (by simp)
  · rw [del_adds hne hnext]
    refine (Function.forall_update_iff c fun _ l => l.length ≤ _).2 ⟨?_, fun g' _ => h.len g'⟩
    have := h.len g
    simp only [hl, List.length_append, List.length_cons] at this ⊢
    omega
  · intro g₁ g₂ i' h₁ h₂
    exact h.only ((hmem g₁ i').1 h₁).2 ((hmem g₂ i').1 h₂).2
  · rw [del_isSome hne hnext (h.prev_isSome (g := g) (l₁ ++ [i]) (by simp [hl]) hprev),
      h.next]
    simp only [hmem, ne_eq, Sum.inr.injEq, exists_and_left]

end Infos

section Step

variable [DecidableEq γ] [DecidableEq ι]

/-- An operation comes to an end, keeps the links, and stores through a null link at an end of a
list. -/
theorem represents_step (h : Represents r a) {op : RegistryOp γ ι} (honce : r.OnceLinked op) :
    ∃ r', r.step S op = some r' ∧ Represents r' (a.step S op)
      ∧ r'.nulls = r.nulls + if r.atEnd S op then 1 else 0 := by
  have hsame : Represents r a ∧ r.nulls = r.nulls + if false = true then 1 else 0 := ⟨h, rfl⟩
  cases op with
  | groupRegister group =>
    cases group with
    | none => exact ⟨r, rfl, hsame⟩
    | some g =>
      simp only [Registry.step, Registry.atcmdGroupRegister, Registered.step, Registry.atEnd,
        h.groupSearch, Option.map_some]
      rcases hg : a.group S (S.groupId g) with _ | g'
      · have hnew : g ∉ a.groups := fun hmem => by
          simpa using List.find?_eq_none.1 hg g hmem
        refine ⟨_, rfl, ⟨h.groups.add hnew, h.cmds⟩, ?_⟩
        simp only [Registry.nulls, add_null (Option.some_ne_none g), Option.isNone_iff_eq_none]
        omega
      · exact ⟨r, rfl, hsame⟩
  | groupUnregister id =>
    simp only [Registry.step, Registry.atcmdGroupUnregister, Registered.step, Registry.atEnd,
      h.groupSearch, Option.map_some]
    rcases hg : a.group S id with _ | g
    · rw [List.eraseP_of_forall_not (by simpa [Registered.group] using hg)]
      exact ⟨r, rfl, hsame⟩
    · obtain ⟨l₁, l₂, hl, he⟩ := find?_split hg
      have hgroups := h.groups
      rw [hl] at hgroups
      rw [he]
      obtain ⟨hdel, hnull⟩ := hgroups.del
      refine ⟨_, rfl, ⟨hdel, h.cmds⟩, ?_⟩
      simp only [Registry.nulls, hnull, Option.isNone_iff_eq_none]
      omega
  | infoRegister gid info =>
    simp only [Registry.step, Registry.atcmdInfoRegister, h.groupSearch, Option.map_some]
    cases info with
    | none =>
      refine ⟨r, ?_, hsame⟩
      rcases a.group S gid <;> rfl
    | some i =>
      simp only [Registered.step, Registry.atEnd, h.groupSearch]
      rcases hg : a.group S gid with _ | g
      · exact ⟨r, rfl, hsame⟩
      · have hi : ∀ g, i ∉ a.cmds g := fun g hmem => by
          have := (h.cmds.next i).2 ⟨g, hmem⟩
          rw [show r.cmds.next (.inr i) = none from honce] at this
          cases this
        refine ⟨_, rfl, ⟨h.groups, h.cmds.add hi⟩, ?_⟩
        simp only [Registry.nulls, add_null (Sum.inr_ne_inl : Sum.inr i ≠ Sum.inl g),
          Option.isNone_iff_eq_none]
        omega
  | infoUnregister gid id =>
    simp only [Registry.step, Registry.atcmdInfoUnregister, Registered.step, Registry.atEnd,
      h.groupSearch, Option.bind_some, Option.join_some]
    rcases hg : a.group S gid with _ | g
    · exact ⟨r, rfl, hsame⟩
    · simp only [Registry.atcmdInfoSearch, h.findInfo, Option.map_some, Option.bind_some,
        Option.join_some]
      rcases hi : (a.cmds g).find? (fun i => S.infoId i == id) with _ | i
      · rw [List.eraseP_of_forall_not (by simpa using hi), Function.update_eq_self]
        exact ⟨r, rfl, hsame⟩
      · obtain ⟨l₁, l₂, hl, he⟩ := find?_split hi
        rw [he]
        obtain ⟨hdel, hnull⟩ := h.cmds.del hl
        refine ⟨_, rfl, ⟨h.groups, hdel⟩, ?_⟩
        simp only [Registry.nulls, hnull, Option.isNone_iff_eq_none]
        omega

/-- The walks are over what is registered in every run that registers no command while it is linked,
and every operation at an end of a list stores through a null link. -/
theorem registry_run : ∀ (ops : List (RegistryOp γ ι)) {x : Registry γ ι × Registered γ ι},
    Represents x.1 x.2 → Along (registryStep S) (fun x op => x.1.OnceLinked op) x ops →
      ∃ x', run (registryStep S) x ops = some x' ∧ Represents x'.1 x'.2
        ∧ x'.1.nulls = x.1.nulls
          + count (registryStep S) (fun x op => if x.1.atEnd S op then 1 else 0) x ops
  | [], x, h, _ => ⟨x, rfl, h, rfl⟩
  | op :: ops, x, h, hC => by
    obtain ⟨r, hr, hrep, hnull⟩ := represents_step (S := S) h hC.1
    have hstep : registryStep S x op = some (r, x.2.step S op) := by
      rw [registryStep, hr]
      rfl
    obtain ⟨x', hx', hrep', hnull'⟩ := registry_run ops hrep (hC.2 _ hstep)
    refine ⟨x', run_cons_eq_some.2 ⟨_, hstep, hx'⟩, hrep', ?_⟩
    rw [hnull', hnull, count, hstep]
    exact Nat.add_assoc ..

/-- From the heads as they are initialised, nothing can be registered but a group. -/
theorem step_boot {op : RegistryOp γ ι}
    (h : (.boot : Registry γ ι).atEnd S op = false) :
    registryStep S registryBoot op = some registryBoot := by
  cases op with
  | groupRegister group =>
    cases group with
    | none => rfl
    | some g => cases h
  | groupUnregister id => rfl
  | infoRegister gid info => cases info <;> rfl
  | infoUnregister gid id => rfl

theorem step_boot_null {op : RegistryOp γ ι} (h : (.boot : Registry γ ι).atEnd S op = true) :
    ∃ x, registryStep S registryBoot op = some x ∧ x.1.nulls = 1 := by
  have honce : (.boot : Registry γ ι).OnceLinked op := by
    unfold Registry.OnceLinked
    split
    · rfl
    · trivial
  obtain ⟨r, hr, -, hnull⟩ := represents_step (S := S) represents_boot honce
  refine ⟨(r, _), by rw [registryStep, registryBoot, hr]; rfl, ?_⟩
  rw [hnull, h]
  rfl

/-- Over all sequences of operations: no null link is stored through, and the walks and
`atcmd_handler` find what is registered, exactly if nothing is added to an empty list and no oldest
entry is deleted. Whatever a null link leads to, the walks and `atcmd_handler` find what is
registered if no command is registered while it is linked; and those operations are all that store
through a null link. -/
theorem registry_iff (S : Structs γ ι ε) (ops : List (RegistryOp γ ι)) :
    ((∀ js, js <+: ops →
        ∃ x, run (registryStep S) registryBoot js = some x ∧ RegistrySound S x) ↔
      Along (registryStep S) (fun x op => x.1.atEnd S op = false) registryBoot ops)
    ∧ (Along (registryStep S) (fun x op => x.1.OnceLinked op) registryBoot ops →
      ∃ x, run (registryStep S) registryBoot ops = some x ∧ Visits S x.1 x.2
        ∧ x.1.nulls
          = count (registryStep S) (fun x op => if x.1.atEnd S op then 1 else 0) registryBoot
            ops) := by
  have hsound : RegistrySound S (registryBoot : Registry γ ι × Registered γ ι) :=
    ⟨rfl, represents_boot.visits⟩
  refine ⟨⟨fun h => ?_, fun h js hjs => ?_⟩, fun h => ?_⟩
  · refine (along_iff (I := (· = registryBoot)) (fun s hs => hs ▸ hsound) ?_ ?_ ops _ rfl).1 ?_
    · rintro _ op s' rfl hop hs'
      exact Option.some.inj (hs'.symm.trans (step_boot hop))
    · rintro _ op rfl hop
      obtain ⟨x, hx, hnull⟩ := step_boot_null (Bool.not_eq_false _ ▸ hop)
      exact ⟨x, hx, fun hs => absurd (hnull.symm.trans hs.1) (by decide)⟩
    · intro js s' hjs hr
      obtain ⟨x, hx, hP⟩ := h js hjs
      exact Option.some.inj (hx.symm.trans hr) ▸ hP
  · have hboot : ∀ x op, x = registryBoot → x.1.atEnd S op = false →
        ∃ x', registryStep S x op = some x' ∧ x' = registryBoot := by
      rintro _ op rfl hop
      exact ⟨_, step_boot hop, rfl⟩
    obtain ⟨x, hx, rfl⟩ := run_total hboot js _ rfl (along_initial hjs h)
    exact ⟨_, hx, hsound⟩
  · obtain ⟨x, hx, hrep, hnull⟩ := registry_run ops represents_boot h
    exact ⟨x, hx, hrep.visits, hnull.trans (Nat.zero_add _)⟩

end Step

/-- A group with the prefix `S`, whose two commands are `A` and `B`. -/
def twoInfos : Structs Unit Bool Unit where
  groupId _ := 2
  cmdPrefix _ := bytes "S"
  infoId i := if i then 1 else 0
  info i := ⟨if i then bytes "B" else bytes "A", fun _ => none⟩

/-- The group and its commands are registered, and then the first command is unregistered. -/
theorem registry_iff_two :
    ∃ x, run (registryStep twoInfos) registryBoot [.groupRegister (some ()),
        .infoRegister 2 (some false), .infoRegister 2 (some true), .infoUnregister 2 0] = some x
      ∧ Visits twoInfos x.1 x.2 ∧ x.1.nulls = 3 := by
  refine (registry_iff twoInfos _).2 ?_
  refine ⟨trivial, fun x₁ h₁ => ⟨?_, fun x₂ h₂ => ⟨?_, fun x₃ h₃ => ⟨trivial, fun _ _ => trivial⟩⟩⟩⟩
  · obtain rfl := Option.some.inj h₁
    rfl
  · obtain rfl := Option.some.inj h₁
    obtain rfl := Option.some.inj h₂
    rfl

/-- The first group is registered through a null link. -/
theorem registry_null : ¬ ∀ js, js <+: [.groupRegister (some ())] →
    ∃ x, run (registryStep twoInfos) registryBoot js = some x ∧ RegistrySound twoInfos x := by
  intro h
  obtain ⟨x, hx, hnull, -⟩ := h _ List.prefix_rfl
  obtain rfl := Option.some.inj hx
  exact absurd hnull (by decide)

end NrcAtcmd.CommandRegistry
