import NrcAtcmd.Proofs.SocketCommand
import NrcAtcmd.SocketRegistry

/-!
# The registry agrees, and every socket is heard

First the registry itself: its ids stay distinct whatever changes (`Distinct.step`), it agrees as
long as the changes are orderly (`Agrees.step`), and its sockets are heard as long as the changes
are hearing ones (`Hears.step`). Then the code: each of its functions makes changes of the registry
(`open_changes`, `recv_changes`, `taskRead_changes`), orderly ones where no descriptor goes astray
and hearing ones where no socket goes deaf. `step_changes` puts them together, and the run rule does
the rest.
-/

namespace NrcAtcmd

open Slots

/-! ## The registry -/

namespace Registry

variable {x y : Registry} {c : Change}

theorem Distinct.step (h : x.Distinct) (hs : x.step c = some y) : y.Distinct := by
  rcases c with ⟨k, d, listens, reads⟩ | ⟨fd, d⟩ | k | id | id | passive <;>
    simp only [Registry.step, Option.ite_none_right_eq_some, Option.some.injEq] at hs
  case register =>
    obtain ⟨hk, rfl⟩ := hs
    have hne : ∀ k' ∈ x.sockets, k'.id ≠ k.id := fun k' hk' he => by
      simpa [he, hk] using h.isSome k' hk'
    refine ⟨?_, ?_, h.ready_lt⟩
    · rw [Multiset.map_cons, Multiset.nodup_cons]
      exact ⟨fun hm => let ⟨k', hk', he⟩ := Multiset.mem_map.1 hm; hne k' hk' he, h.nodup⟩
    · intro k' hk'
      rcases Multiset.mem_cons.1 hk' with rfl | hk'
      · simp
      · simpa [Function.update_of_ne (hne k' hk')] using h.isSome k' hk'
  case hold =>
    obtain ⟨hfd, rfl⟩ := hs
    refine ⟨h.nodup, fun k hk => ?_, h.ready_lt⟩
    have hne : k.id ≠ fd := fun he => by simpa [he, hfd] using h.isSome k hk
    simpa [Function.update_of_ne hne] using h.isSome k hk
  case close =>
    obtain ⟨hk, rfl⟩ := hs
    refine ⟨nodup_map_erase h.nodup, fun k' hk' => ?_, fun id hid => ?_⟩
    · obtain ⟨hk', hne⟩ := (mem_erase_of_nodup h.nodup hk).1 hk'
      simpa [Function.update_of_ne hne] using h.isSome k' hk'
    · dsimp only at hid
      split_ifs at hid
      · exact h.ready_lt id (Finset.mem_of_mem_erase hid)
      · exact h.ready_lt id hid
  case announce =>
    obtain ⟨⟨-, hid⟩, rfl⟩ := hs
    refine ⟨h.nodup, h.isSome, fun id' hid' => ?_⟩
    rcases Finset.mem_insert.1 hid' with rfl | hid'
    · exact hid
    · exact h.ready_lt id' hid'
  case fetch =>
    subst hs
    exact ⟨h.nodup, h.isSome, fun id' hid' => h.ready_lt id' (Finset.mem_of_mem_erase hid')⟩
  case mode =>
    subst hs
    exact ⟨h.nodup, h.isSome, fun id' hid' => absurd hid' (Finset.notMem_empty id')⟩

theorem Agrees.step (h : x.Agrees) (hc : Orderly c) (hs : x.step c = some y) : y.Agrees := by
  rcases c with ⟨k, d, listens, reads⟩ | ⟨fd, d⟩ | k | id | id | passive <;>
    simp only [Registry.step, Option.ite_none_right_eq_some, Option.some.injEq] at hs
  case register =>
    obtain ⟨hk, rfl⟩ := hs
    obtain ⟨hd, rfl⟩ := hc
    have hne : ∀ k' ∈ x.sockets, k'.id ≠ k.id := fun k' hk' he => by
      simpa [hk] using (h.opened k.id).2 ⟨k', hk', he⟩
    refine ⟨?_, fun fd => ?_, fun k' hk' => ?_, fun fd => ?_⟩
    · rw [Multiset.map_cons, Multiset.nodup_cons]
      exact ⟨fun hm => let ⟨k', hk', he⟩ := Multiset.mem_map.1 hm; hne k' hk' he, h.nodup⟩
    · by_cases hfd : fd = k.id
      · subst hfd
        exact iff_of_true (by simp) ⟨k, Multiset.mem_cons_self k _, rfl⟩
      · simp only [Function.update_of_ne hfd, h.opened fd, Multiset.mem_cons]
        exact ⟨fun ⟨k', hk', he⟩ => ⟨k', .inr hk', he⟩, fun ⟨k', hk', he⟩ =>
          ⟨k', hk'.resolve_left fun hkk => hfd (he ▸ hkk ▸ rfl), he⟩⟩
    · rcases Multiset.mem_cons.1 hk' with rfl | hk'
      · exact ⟨d, by simp, hd⟩
      · obtain ⟨d', hd', ha⟩ := h.asked k' hk'
        exact ⟨d', by simpa [Function.update_of_ne (hne k' hk')] using hd', ha⟩
    · have hl := h.listens fd
      by_cases hsv : k.isServer = true <;>
        simp only [hsv, if_true, Bool.false_eq_true, if_false, Finset.mem_insert, hl,
          Multiset.mem_cons] <;> grind
  case hold => exact hc.elim
  case close =>
    obtain ⟨hk, rfl⟩ := hs
    have hm (k' : AtcmdSocket) : k' ∈ x.sockets.erase k ↔ k' ∈ x.sockets ∧ k'.id ≠ k.id :=
      mem_erase_of_nodup h.nodup hk
    refine ⟨nodup_map_erase h.nodup, fun fd => ?_, fun k' hk' => ?_, fun fd => ?_⟩
    · have ho := h.opened fd
      by_cases hfd : fd = k.id
      · subst hfd
        simp only [Function.update_self, hm]
        exact iff_of_false (by simp) fun ⟨k', hk', he⟩ => hk'.2 he
      · simp only [Function.update_of_ne hfd, ho, hm]
        exact ⟨fun ⟨k', hk', he⟩ => ⟨k', ⟨hk', he ▸ hfd⟩, he⟩, fun ⟨k', hk', he⟩ =>
          ⟨k', hk'.1, he⟩⟩
    · obtain ⟨hk', hne⟩ := (hm k').1 hk'
      obtain ⟨d', hd', ha⟩ := h.asked k' hk'
      exact ⟨d', by simpa [Function.update_of_ne hne] using hd', ha⟩
    · simp only [Finset.mem_erase, h.listens fd, hm]
      grind
  case announce =>
    obtain ⟨-, rfl⟩ := hs
    exact ⟨h.nodup, h.opened, h.asked, h.listens⟩
  case fetch =>
    subst hs
    exact ⟨h.nodup, h.opened, h.asked, h.listens⟩
  case mode =>
    subst hs
    exact ⟨h.nodup, h.opened, h.asked, h.listens⟩

theorem Hears.step (hd : x.Distinct) (h : x.Hears) (hc : Hearing x c) (hs : x.step c = some y) :
    y.Hears := by
  rcases c with ⟨k, d, listens, reads⟩ | ⟨fd, d⟩ | k | id | id | passive <;>
    simp only [Registry.step, Option.ite_none_right_eq_some, Option.some.injEq] at hs
  case register =>
    obtain ⟨-, rfl⟩ := hs
    obtain rfl : reads = true := hc
    intro k' hk'
    rcases Multiset.mem_cons.1 hk' with rfl | hk'
    · exact .inl (Finset.mem_insert_self _ _)
    · exact (h k' hk').imp_left Finset.mem_insert_of_mem
  case hold =>
    obtain ⟨-, rfl⟩ := hs
    exact fun k hk => (h k hk).imp_left Finset.mem_insert_of_mem
  case close =>
    obtain ⟨hk, rfl⟩ := hs
    intro k' hk'
    obtain ⟨hk', hne⟩ := (mem_erase_of_nodup hd.nodup hk).1 hk'
    refine (h k' hk').imp (Finset.mem_erase_of_ne_of_mem hne) ?_
    rintro ⟨hp, hr⟩
    exact ⟨hp, by simpa only [hp, if_true] using Finset.mem_erase_of_ne_of_mem hne hr⟩
  case announce =>
    obtain ⟨⟨hp, -⟩, rfl⟩ := hs
    intro k hk
    by_cases hid : k.id = id
    · exact .inr ⟨hp, Finset.mem_insert.2 (.inl hid)⟩
    · exact (h k hk).imp (Finset.mem_erase_of_ne_of_mem hid) (.imp_right Finset.mem_insert_of_mem)
  case fetch =>
    subst hs
    intro k hk
    by_cases hid : k.id = id
    · exact .inl (Finset.mem_insert.2 (.inl hid))
    · exact (h k hk).imp Finset.mem_insert_of_mem
        (.imp_right (Finset.mem_erase_of_ne_of_mem hid))
  case mode =>
    subst hs
    exact fun k hk => .inl (hc k hk)

variable {p q : Prop}

theorem Changes.single (hp : p → Orderly c) (hq : q → Hearing x c) (hs : x.step c = some y) :
    Changes p q x y := Relation.ReflTransGen.single ⟨c, hp, hq, hs⟩

theorem Changes.agrees (h : Changes p q x y) (hp : p) (hx : x.Agrees) : y.Agrees := by
  induction h with
  | refl => exact hx
  | tail _ hs ih =>
    obtain ⟨c, hc, -, hs⟩ := hs
    exact ih.step (hc hp) hs

theorem Changes.hears (h : Changes p q x y) (hq : q) (hd : x.Distinct) (hx : x.Hears) :
    y.Distinct ∧ y.Hears := by
  induction h with
  | refl => exact ⟨hd, hx⟩
  | tail _ hs ih =>
    obtain ⟨c, -, hc, hs⟩ := hs
    exact ⟨ih.1.step hs, ih.2.step ih.1 (hc hq) hs⟩

theorem distinct_empty (slots : ℕ) : (empty slots).Distinct :=
  ⟨by simp [empty], by simp [empty], by simp [empty]⟩

theorem agrees_empty (slots : ℕ) : (empty slots).Agrees :=
  ⟨by simp [empty], by simp [empty], by simp [empty], by simp [empty]⟩

theorem hears_empty (slots : ℕ) : (empty slots).Hears := by simp [Hears, empty]

end Registry

/-! ## Descriptors -/

variable {ν : Type*} {L : Lwip ν}

namespace Net

@[simp] theorem descriptor_check {α : Type*} (f : Call ν α) (n : Net ν) :
    (n.check f).2.descriptor = n.descriptor := by
  unfold check
  split <;> rename_i h <;> obtain ⟨-, rfl⟩ := Prod.mk.injEq .. ▸ h <;> rfl

theorem descriptor_call {α : Type*} {f : Call ν α} {n n' : Net ν} {r : Except Errno α}
    (h : n.call f = (r, n')) : n'.descriptor = n.descriptor := by
  obtain ⟨-, rfl⟩ := Prod.mk.injEq .. ▸ h
  rfl

theorem callOn_fst (f : Call ν Unit) (fd : ℕ) (g : Descriptor → Descriptor) (n : Net ν) :
    (n.callOn f fd g).1 = (n.check f).1 := by
  unfold callOn check
  split <;> simp_all

variable {m : ℕ → Option Descriptor} {fd : ℕ} {d : Descriptor} {n : Net ν}

theorem descriptor_update (h : n.descriptor = Function.update m fd (some d))
    (g : Descriptor → Descriptor) :
    (n.update fd g).descriptor = Function.update m fd (some (g d)) := by
  simp [update, h]

/-- A call has its effect on the descriptor exactly if it succeeds. -/
theorem callOn_cases (h : n.descriptor = Function.update m fd (some d)) (f : Call ν Unit)
    (g : Descriptor → Descriptor) :
    (n.callOn f fd g).1 = none
        ∧ (n.callOn f fd g).2.descriptor = Function.update m fd (some (g d))
      ∨ ∃ e, (n.callOn f fd g).1 = some e
        ∧ (n.callOn f fd g).2.descriptor = Function.update m fd (some d) := by
  unfold callOn
  split <;> rename_i hc <;> rw [← descriptor_call hc] at h
  · exact .inl ⟨rfl, descriptor_update h g⟩
  · exact .inr ⟨_, rfl, h⟩

end Net

theorem andThen_eq {α : Type*} {a : Option Errno × α} {e : Errno} (h : a.1 = some e)
    (f : α → Option Errno × α) : andThen a f = a := by
  rcases a with ⟨_ | e', a⟩
  · cases h
  · rfl

theorem andThen_none {α : Type*} {a : Option Errno × α} (h : a.1 = none)
    (f : α → Option Errno × α) : andThen a f = f a.2 := by
  rcases a with ⟨_ | e', a⟩
  · rfl
  · cases h

/-- What follows leaves the descriptors as they are. -/
theorem descriptor_andThen {a : Option Errno × Net ν} {f : Net ν → Option Errno × Net ν}
    (h : ∀ n, (f n).2.descriptor = n.descriptor) :
    (andThen a f).2.descriptor = a.2.descriptor := by
  rcases a with ⟨_ | e, n⟩
  · exact h n
  · rfl

section Setup

variable {m : ℕ → Option Descriptor} {fd : ℕ} {d : Descriptor} {n : Net ν}

/-- A UDP socket is bound unless `bind` fails, and what fails after it leaves it bound. -/
theorem openUdp_cases (h : n.descriptor = Function.update m fd (some d)) (port ttl : ℕ) :
    let r := lwipSocketOpenUdp L fd port ttl n
    (∃ e, (n.check (L.bind fd port)).1 = some e ∧ r.1 = some e
        ∧ r.2.descriptor = Function.update m fd (some d))
      ∨ r.2.descriptor = Function.update m fd (some { d with bound := some port }) := by
  unfold lwipSocketOpenUdp
  rcases Net.callOn_cases h (L.bind fd port) (fun d => { d with bound := some port }) with
    ⟨-, hd⟩ | ⟨e, he, hd⟩
  · refine .inr ((descriptor_andThen fun n => ?_).trans hd)
    refine (descriptor_andThen fun n => ?_).trans (by simp)
    refine (descriptor_andThen fun n => ?_).trans (by split_ifs <;> simp)
    refine (descriptor_andThen fun n => ?_).trans (by simp)
    exact (descriptor_andThen fun n => by simp).trans (by simp)
  · rw [andThen_eq he]
    exact .inl ⟨e, Net.callOn_fst .. ▸ he, he, hd⟩

/-- A server that fails nowhere is bound and listens. -/
theorem openServer_cases (h : n.descriptor = Function.update m fd (some d)) (port : ℕ) :
    let r := lwipSocketOpenServer L fd port n
    ∃ d', r.2.descriptor = Function.update m fd (some d')
      ∧ (r.1 = none → d' = { d with bound := some port, listening := true }) := by
  unfold lwipSocketOpenServer
  rcases Net.callOn_cases h (L.bind fd port) (fun d => { d with bound := some port }) with
    ⟨hr, hd⟩ | ⟨e, he, hd⟩
  · rw [andThen_none hr]
    rcases Net.callOn_cases hd (L.listen fd) (fun d => { d with listening := true }) with
      ⟨-, hd⟩ | ⟨e, he, hd⟩
    · exact ⟨_, hd, fun _ => rfl⟩
    · exact ⟨_, hd, fun h => by simp [he] at h⟩
  · rw [andThen_eq he]
    exact ⟨d, hd, fun h => by simp [he] at h⟩

/-- A connection is there at once, goes on, or fails. -/
theorem connect_cases (h : n.descriptor = Function.update m fd (some d)) (addr : Addr)
    (port : ℕ) :
    let r := n.connect L fd addr port
    r.1 = none
        ∧ r.2.descriptor = Function.update m fd (some { d with connected := some (addr, port) })
      ∨ r.1 = some .einprogress
        ∧ r.2.descriptor = Function.update m fd (some { d with connecting := some (addr, port) })
      ∨ ∃ e, e ≠ .einprogress ∧ r.1 = some e
        ∧ r.2.descriptor = Function.update m fd (some d) := by
  unfold Net.connect
  have hc := Net.callOn_cases h (L.connect fd addr port)
    (fun d => { d with connected := some (addr, port) })
  generalize n.callOn (L.connect fd addr port) fd _ = r at hc
  rcases r with ⟨_ | e, n'⟩
  · exact .inl ⟨rfl, by simpa using hc⟩
  · have hd : n'.descriptor = Function.update m fd (some d) := by simpa using hc
    by_cases he : e = .einprogress
    · subst he
      exact .inr (.inl ⟨rfl, Net.descriptor_update hd _⟩)
    · refine .inr (.inr ⟨e, he, ?_⟩)
      split
      · simp_all
      · exact ⟨rfl, hd⟩

/-- `SO_ERROR` says that a connection that went on is there, or that it failed. -/
theorem getError_cases (h : n.descriptor = Function.update m fd (some d)) :
    (n.getError L fd).1 = none
        ∧ (n.getError L fd).2.descriptor
          = Function.update m fd (some { d with connected := d.connecting })
      ∨ (n.getError L fd).1 ≠ none
        ∧ (n.getError L fd).2.descriptor = Function.update m fd (some d) := by
  unfold Net.getError
  split <;> rename_i hc <;> rw [← Net.descriptor_call hc] at h
  · exact .inl ⟨rfl, Net.descriptor_update h _⟩
  · exact .inr ⟨nofun, h⟩
  · exact .inr ⟨nofun, h⟩

/-- A client that fails nowhere is connected. -/
theorem connect_spec (h : n.descriptor = Function.update m fd (some d)) (addr : Addr)
    (port timeout : ℕ) :
    let r := lwipSocketConnect_ L fd addr port timeout n
    ∃ d', r.2.descriptor = Function.update m fd (some d')
      ∧ (r.1 = none → d'.type = d.type ∧ d'.connected = some (addr, port)) := by
  unfold lwipSocketConnect_
  rcases h1 : (n.check (L.setNonblock fd true)).1 with _ | e
  swap
  · rw [andThen_eq h1]
    exact ⟨d, by simpa using h, fun h0 => by simp [h1] at h0⟩
  rw [andThen_none h1]
  rw [← Net.descriptor_check (L.setNonblock fd true)] at h
  have hc := connect_cases (L := L) h addr port
  generalize (n.check (L.setNonblock fd true)).2.connect L fd addr port = r at hc
  rcases r with ⟨_ | e, n'⟩
  · exact ⟨{ d with connected := some (addr, port) }, by simpa using hc, fun _ => ⟨rfl, rfl⟩⟩
  obtain ⟨d', hd, hp⟩ : ∃ d', n'.descriptor = Function.update m fd (some d')
      ∧ (e = .einprogress → d' = { d with connecting := some (addr, port) }) := by
    rcases hc with ⟨h0, -⟩ | ⟨-, hd⟩ | ⟨e', hne, he, hd⟩
    · cases h0
    · exact ⟨_, hd, fun _ => rfl⟩
    · exact ⟨d, hd, fun h0 => absurd (Option.some.inj he ▸ h0) hne⟩
  dsimp only
  rcases h2 : (n'.check (L.setNonblock fd false)).1 with _ | e'
  swap
  · rw [andThen_eq h2]
    exact ⟨d', by simpa using hd, fun h0 => by simp [h2] at h0⟩
  rw [andThen_none h2]
  rw [← Net.descriptor_check (L.setNonblock fd false)] at hd
  generalize (if timeout = 0 then 10000 else timeout) = t
  by_cases he : e = .einprogress
  swap
  · rw [if_pos he]
    exact ⟨d', hd, nofun⟩
  rw [if_neg (not_not.2 he)]
  have hp := hp he
  split <;> rename_i hs <;> rw [← Net.descriptor_call hs] at hd
  · exact ⟨d', hd, nofun⟩
  · exact ⟨d', hd, nofun⟩
  · rcases getError_cases (L := L) hd with ⟨-, hd⟩ | ⟨h0, hd⟩
    · exact ⟨_, hd, fun _ => by simp [hp]⟩
    · exact ⟨d', hd, fun h => absurd h h0⟩

end Setup

/-! ## Open -/

/-- A descriptor was opened, and put into the listen set or not, into the read set or not. -/
structure OpensFd (w w' : LwipSocket ν) (fd : ℕ) (d : Descriptor) (listens reads : Bool) : Prop where
  fresh : w.net.descriptor fd = none
  descriptor : w'.net.descriptor = Function.update w.net.descriptor fd (some d)
  read : w'.read = if reads then insert fd w.read else w.read
  listen : w'.listen = if listens then insert fd w.listen else w.listen

/-- No descriptor was opened or closed, and no set of them is another. -/
structure SameFds (w w' : LwipSocket ν) : Prop where
  descriptor : w'.net.descriptor = w.net.descriptor
  read : w'.read = w.read
  listen : w'.listen = w.listen

/-- What an open comes to. It fails, or leaves a descriptor, which is read unless `unset`, and `P`
and listens or not unless `unset` or `late`. -/
def Opens (t : SocketProto) (w : LwipSocket ν) (unset late : ℕ × Net ν → Prop)
    (P : Descriptor → Prop) (listens : Bool) (o : Option Errno × Option ℕ × LwipSocket ν) : Prop :=
  (o.1 ≠ none ∧ o.2.1 = none ∧ SameFds w o.2.2)
    ∨ ∃ fd n d listens' reads, w.net.socket L t = (.ok fd, n) ∧ o.2.1 = some fd
      ∧ OpensFd w o.2.2 fd d listens' reads ∧ (¬ unset (fd, n) → reads = true)
      ∧ (¬ unset (fd, n) → ¬ late (fd, n) → P d ∧ listens' = listens)

theorem socket_cases (t : SocketProto) (w : LwipSocket ν) :
    (∃ e n, w.net.socket L t = (.error e, n) ∧ n.descriptor = w.net.descriptor)
      ∨ ∃ fd n, w.net.socket L t = (.ok fd, n) ∧ w.net.descriptor fd = none
        ∧ n.descriptor
          = Function.update w.net.descriptor fd (some ⟨t, none, false, none, none⟩) := by
  unfold Net.socket
  rcases hc : w.net.call (L.socket w.net.opened t) with ⟨e | fd, n⟩
  · exact .inl ⟨e, n, rfl, Net.descriptor_call hc⟩
  · refine .inr ⟨fd, _, rfl, ?_, by simp [Net.insert, Net.descriptor_call hc]⟩
    have hf : (L.socket w.net.opened t w.net.stack).1 = .ok fd := congrArg Prod.fst hc
    simpa [Net.opened] using L.socket_fresh hf

/-- The end of an open closes the descriptor again unless nothing failed, or `EINPROGRESS` did. -/
theorem opened_cases {w : LwipSocket ν} {fd : ℕ} {d : Descriptor} {n : Net ν}
    (hfd : w.net.descriptor fd = none)
    (h : n.descriptor = Function.update w.net.descriptor fd (some d)) (listen : Bool)
    (r : Option Errno) :
    let o := lwipSocketOpened L fd listen w (r, n)
    (o.1 ≠ none ∧ o.2.1 = none ∧ SameFds w o.2.2)
      ∨ o.2.1 = some fd ∧ (r = none ∧ OpensFd w o.2.2 fd d listen true
        ∨ r = some .einprogress ∧ OpensFd w o.2.2 fd d false true) := by
  unfold lwipSocketOpened
  split <;> rename_i hr <;> obtain ⟨rfl, rfl⟩ := Prod.mk.injEq .. ▸ hr
  · exact .inr ⟨rfl, .inl ⟨rfl, hfd, h, rfl, rfl⟩⟩
  · exact .inr ⟨rfl, .inr ⟨rfl, hfd, h, rfl, rfl⟩⟩
  · refine .inl ⟨nofun, rfl, ?_, rfl, rfl⟩
    simp only [Net.close, h, Function.update_idem]
    rw [← hfd, Function.update_eq_self]

/-- A descriptor that was set up with nothing failing is as asked; with `EINPROGRESS` it is too, or
`late` holds of it. -/
theorem Opens.of_setup {t : SocketProto} {w : LwipSocket ν} {unset late : ℕ × Net ν → Prop}
    {P : Descriptor → Prop} {listens : Bool} {fd : ℕ} {n : Net ν} {d : Descriptor}
    (hs : w.net.socket L t = (.ok fd, n)) (hfd : w.net.descriptor fd = none)
    {r : Option Errno × Net ν} (hd : r.2.descriptor = Function.update w.net.descriptor fd (some d))
    (h0 : r.1 = none → P d)
    (h1 : r.1 = some .einprogress → late (fd, n) ∨ P d ∧ listens = false) :
    Opens (L := L) t w unset late P listens (lwipSocketOpened L fd listens w r) := by
  rcases opened_cases (L := L) hfd hd listens r.1 with h | ⟨ho, ⟨hr, h⟩ | ⟨hr, h⟩⟩
  · exact .inl h
  · exact .inr ⟨fd, n, d, listens, true, hs, ho, h, fun _ => rfl, fun _ _ => ⟨h0 hr, rfl⟩⟩
  · refine .inr ⟨fd, n, d, false, true, hs, ho, h, fun _ => rfl, fun _ hl => ?_⟩
    obtain ⟨hP, rfl⟩ := (h1 hr).resolve_left hl
    exact ⟨hP, rfl⟩

theorem opens_udp (port ttl : ℕ) (w : LwipSocket ν) :
    Opens (L := L) .udp w (fun p => (p.2.check (L.setsockopt p.1 .reuseAddr 1)).1.isSome = true)
      (fun p => ((p.2.check (L.setsockopt p.1 .reuseAddr 1)).2.check (L.bind p.1 port)).1
        = some .einprogress)
      (fun d => d.type = .udp ∧ d.bound = some port) false
      (lwipSocketOpen_ L .udp none port ttl 0 w) := by
  unfold lwipSocketOpen_
  split_ifs
  · exact .inl ⟨nofun, rfl, rfl, rfl, rfl⟩
  rcases socket_cases (L := L) .udp w with ⟨e, n, hs, hd⟩ | ⟨fd, n, hs, hfd, hd⟩ <;> rw [hs]
  · exact .inl ⟨nofun, rfl, hd, rfl, rfl⟩
  dsimp only
  rw [← Net.descriptor_check (L.setsockopt fd .reuseAddr 1)] at hd
  rcases hr : n.check (L.setsockopt fd .reuseAddr 1) with ⟨_ | e, n'⟩ <;> rw [hr] at hd
  swap
  · refine .inr ⟨fd, n, _, false, false, hs, rfl, ⟨hfd, hd, rfl, rfl⟩, ?_, ?_⟩ <;>
      simp [hr]
  rcases openUdp_cases (L := L) hd port ttl with ⟨e, he, hr', hd⟩ | hd
  · refine .of_setup hs hfd hd (fun h => by simp [hr'] at h) fun h => .inl ?_
    simpa [hr, he] using hr'.symm.trans h
  · exact .of_setup hs hfd hd (fun _ => ⟨rfl, rfl⟩) fun _ => .inr ⟨⟨rfl, rfl⟩, rfl⟩

theorem opens_server (port : ℕ) (w : LwipSocket ν) :
    Opens (L := L) .tcp w (fun p => (p.2.check (L.setsockopt p.1 .reuseAddr 1)).1.isSome = true)
      (fun p => (lwipSocketOpenServer L p.1 port
        (p.2.check (L.setsockopt p.1 .reuseAddr 1)).2).1 = some .einprogress)
      (fun d => d.type = .tcp ∧ d.bound = some port ∧ d.listening = true) true
      (lwipSocketOpen_ L .tcp none port 0 0 w) := by
  unfold lwipSocketOpen_
  split_ifs
  · exact .inl ⟨nofun, rfl, rfl, rfl, rfl⟩
  rcases socket_cases (L := L) .tcp w with ⟨e, n, hs, hd⟩ | ⟨fd, n, hs, hfd, hd⟩ <;> rw [hs]
  · exact .inl ⟨nofun, rfl, hd, rfl, rfl⟩
  dsimp only
  rw [← Net.descriptor_check (L.setsockopt fd .reuseAddr 1)] at hd
  rcases hr : n.check (L.setsockopt fd .reuseAddr 1) with ⟨_ | e, n'⟩ <;> rw [hr] at hd
  swap
  · refine .inr ⟨fd, n, _, false, false, hs, rfl, ⟨hfd, hd, rfl, rfl⟩, ?_, ?_⟩ <;>
      simp [hr]
  obtain ⟨d, hd, h0⟩ := openServer_cases (L := L) hd port
  refine .of_setup hs hfd hd (fun h => ?_) fun h => .inl (by simpa [hr] using h)
  rw [h0 h]
  exact ⟨rfl, rfl, rfl⟩

theorem opens_client (addr : Addr) (port timeout : ℕ) (w : LwipSocket ν) :
    Opens (L := L) .tcp w (fun _ => False)
      (fun p => (lwipSocketConnect_ L p.1 addr port timeout p.2).1 = some .einprogress)
      (fun d => d.type = .tcp ∧ d.connected = some (addr, port)) false
      (lwipSocketOpen_ L .tcp (some (addr, port)) 0 0 timeout w) := by
  unfold lwipSocketOpen_
  split_ifs
  · exact .inl ⟨nofun, rfl, rfl, rfl, rfl⟩
  rcases socket_cases (L := L) .tcp w with ⟨e, n, hs, hd⟩ | ⟨fd, n, hs, hfd, hd⟩ <;> rw [hs]
  · exact .inl ⟨nofun, rfl, hd, rfl, rfl⟩
  obtain ⟨d, hd, h0⟩ := connect_spec (L := L) hd addr port timeout
  exact .of_setup hs hfd hd h0 fun h => .inl h

theorem sameFds_getLocal (fd : ℕ) (w : LwipSocket ν) :
    SameFds w (lwipSocketGetLocal_ L fd w).2 := by
  unfold lwipSocketGetLocal_
  split <;> rename_i h <;> obtain ⟨-, rfl⟩ := Prod.mk.injEq .. ▸ h <;> exact ⟨rfl, rfl, rfl⟩

theorem OpensFd.trans {w w' w'' : LwipSocket ν} {fd : ℕ} {d : Descriptor} {listens reads : Bool}
    (h : OpensFd w w' fd d listens reads) (h' : SameFds w' w'') :
    OpensFd w w'' fd d listens reads :=
  ⟨h.fresh, h'.descriptor.trans h.descriptor, h'.read.trans h.read, h'.listen.trans h.listen⟩

/-- The open of a socket, told by what `reuseFails` and `staysInProgress` say of its descriptor. -/
theorem openLwip_cases (k : AtcmdSocket) (s : Sockets ν) :
    let o := atcmdSocketOpenLwip L k (s.timeoutValue (bytes "SOPEN")) s.lwip
    (o.1 ≠ none ∧ o.2.1 = none ∧ SameFds s.lwip o.2.2.2)
      ∨ ∃ fd n d listens reads, s.lwip.net.socket L k.protocol = (.ok fd, n) ∧ o.2.1 = some fd
        ∧ OpensFd s.lwip o.2.2.2 fd d listens reads ∧ (k.isClient = false → o.2.2.1 = k.localPort)
        ∧ (reuseFails L k (fd, n) = false → reads = true)
        ∧ (reuseFails L k (fd, n) = false → staysInProgress L k s (fd, n) = false →
          AtcmdSocket.Asked { k with id := fd, localPort := o.2.2.1 } d
            ∧ listens = k.isServer) := by
  rcases k with ⟨i, _ | _, localPort, remotePort, remoteAddr, mc⟩ <;>
    unfold atcmdSocketOpenLwip <;> dsimp only
  case udp =>
    refine (opens_udp (L := L) localPort mc.ttl s.lwip).imp (fun h => h) ?_
    rintro ⟨fd, n, d, listens, reads, hs, ho, hw, hr, hP⟩
    refine ⟨fd, n, d, listens, reads, hs, ho, hw, fun _ => rfl, fun hu => hr ?_, fun hu hl => ?_⟩
    · simpa [reuseFails, AtcmdSocket.isClient] using hu
    · obtain ⟨⟨ht, hb⟩, rfl⟩ := hP (by simpa [reuseFails, AtcmdSocket.isClient] using hu)
        (by simpa [staysInProgress, AtcmdSocket.isClient] using hl)
      exact ⟨⟨ht, hb⟩, rfl⟩
  case tcp =>
    by_cases hsv : 0 < localPort ∧ remotePort = 0
    · rw [if_pos hsv]
      obtain ⟨-, rfl⟩ := hsv
      refine (opens_server (L := L) localPort s.lwip).imp (fun h => h) ?_
      rintro ⟨fd, n, d, listens, reads, hs, ho, hw, hr, hP⟩
      refine ⟨fd, n, d, listens, reads, hs, ho, hw, fun _ => rfl, fun hu => hr ?_,
        fun hu hl => ?_⟩
      · simpa [reuseFails, AtcmdSocket.isClient] using hu
      · obtain ⟨⟨ht, hb⟩, rfl⟩ := hP (by simpa [reuseFails, AtcmdSocket.isClient] using hu)
          (by simpa [staysInProgress, AtcmdSocket.isClient] using hl)
        exact ⟨⟨ht, hb⟩, rfl⟩
    rw [if_neg hsv]
    by_cases hcl : localPort = 0 ∧ 0 < remotePort
    swap
    · rw [if_neg hcl]
      exact .inl ⟨nofun, rfl, rfl, rfl, rfl⟩
    rw [if_pos hcl]
    have hne : remotePort ≠ 0 := hcl.2.ne'
    have hsv : (remotePort == 0) = false := beq_eq_false_iff_ne.2 hne
    generalize ht : (if s.timeoutValue (bytes "SOPEN") = 0 then 30 * 1000
      else s.timeoutValue (bytes "SOPEN")) = timeout
    rcases opens_client (L := L) remoteAddr remotePort timeout s.lwip with
      ⟨h0, h1, hw⟩ | ⟨fd, n, d, listens, reads, hs, ho, hw, hr, hP⟩
    · refine .inl ?_
      split <;> rename_i hc <;> rw [hc] at h0 h1 hw
      · exact absurd rfl h0
      · exact ⟨h0, h1, hw⟩
    · have hP (hl : staysInProgress L ⟨i, .tcp, localPort, remotePort, remoteAddr, mc⟩ s (fd, n)
          = false) := hP not_false (by
        simpa [staysInProgress, AtcmdSocket.isClient, hne, ht] using hl)
      refine .inr ⟨fd, n, d, listens, reads, hs, ?_⟩
      split <;> rename_i hc <;> rw [hc] at ho hw
      · obtain rfl := Option.some.inj ho
        refine ⟨rfl, hw.trans (sameFds_getLocal _ _), ?_, fun _ => hr not_false, fun _ hl => ?_⟩
        · simp [AtcmdSocket.isClient, hne]
        · simpa [AtcmdSocket.Asked, AtcmdSocket.isServer, hne, hsv] using hP hl
      · refine ⟨ho, hw, fun _ => rfl, fun _ => hr not_false, fun _ hl => ?_⟩
        simpa [AtcmdSocket.Asked, AtcmdSocket.isServer, hne, hsv] using hP hl

theorem free_of_findIdx {t : List (Option AtcmdSocket)} {i : ℕ}
    (h : t.findIdx? (·.isNone) = some i) : t[i]? = some none := by
  obtain ⟨hi, hn, -⟩ := List.findIdx?_eq_some_iff_getElem.1 h
  rw [List.getElem?_eq_getElem hi, Option.isNone_iff_eq_none.1 hn]

/-- A socket is put into a free slot with its descriptor. -/
theorem OpensFd.register {s : Sockets ν} {w : LwipSocket ν} {i : ℕ} {k : AtcmdSocket}
    {d : Descriptor} {listens reads : Bool} (h : OpensFd s.lwip w k.id d listens reads)
    (hi : s.table[i]? = some none) :
    s.registry.step (.register k d listens reads)
      = some ({ s with lwip := w, table := s.table.set i (some k) } : Sockets ν).registry := by
  simp only [Registry.step, Sockets.registry, h.fresh, if_true, List.length_set,
    contents_set_some hi, h.descriptor, h.read, h.listen]

/-- `_atcmd_socket_open` fails and registers nothing, or registers the socket. -/
theorem open_cases (k : AtcmdSocket) (s : Sockets ν) :
    let r := atcmdSocketOpen_ L k s
    (r.1 ≠ none ∧ r.2.registry = s.registry)
      ∨ ∃ p k' d listens reads, lwipSocketOpenFd L k s = some p ∧ r.1 = none
        ∧ s.registry.step (.register k' d listens reads) = some r.2.registry
        ∧ k' = { k with id := k'.id, localPort := k'.localPort }
        ∧ (k.isClient = false → k'.localPort = k.localPort)
        ∧ (reuseFails L k p = false → reads = true)
        ∧ (reuseFails L k p = false → staysInProgress L k s p = false →
          k'.Asked d ∧ listens = k'.isServer) := by
  unfold atcmdSocketOpen_
  rcases hi : atcmdSocketOpenSlot k s with e | i <;> dsimp only
  · exact .inl ⟨nofun, rfl⟩
  have hfree : s.table[i]? = some none := by
    unfold atcmdSocketOpenSlot at hi
    split_ifs at hi
    rcases hf : s.table.findIdx? (·.isNone) with _ | j <;>
      simp only [hf, Option.elim_none, Option.elim_some, reduceCtorEq, Except.ok.injEq] at hi
    exact hi ▸ free_of_findIdx hf
  have hc := openLwip_cases (L := L) k s
  generalize atcmdSocketOpenLwip L k (s.timeoutValue (bytes "SOPEN")) s.lwip = o at hc
  rcases hc with ⟨h0, h1, hw⟩ | ⟨fd, n, d, listens, reads, hs, ho, hw, hl, hr, hP⟩
  · obtain ⟨ret, _, port, w⟩ := o
    obtain rfl := h1
    dsimp only at hw
    refine .inl ⟨h0, ?_⟩
    simp only [Sockets.registry, hw.descriptor, hw.read, hw.listen]
  · obtain ⟨ret, _, port, w⟩ := o
    obtain rfl := ho
    dsimp only at hw
    refine .inr ⟨(fd, n), { k with id := fd, localPort := port }, d, listens, reads, ?_, rfl,
      OpensFd.register (s := s) hw hfree, rfl, hl, hr, hP⟩
    simp [lwipSocketOpenFd, hi, hs]

/-! ## What leaves the registry as it is -/

@[simp] theorem registry_emit (m : Msg) (s : Sockets ν) : (s.emit m).registry = s.registry := rfl

theorem registry_call {α : Type*} {f : Call ν α} {s s' : Sockets ν} {r : Except Errno α}
    (h : s.call f = (r, s')) : s'.registry = s.registry := by
  obtain ⟨-, rfl⟩ := Prod.mk.injEq .. ▸ h
  rfl

theorem registry_lwip {s : Sockets ν} {w : LwipSocket ν} (h : SameFds s.lwip w) :
    ({ s with lwip := w } : Sockets ν).registry = s.registry := by
  simp only [Sockets.registry, h.descriptor, h.read, h.listen]

theorem sameFds_call {α : Type*} {f : Call ν α} {w w' : LwipSocket ν} {r : Except Errno α}
    (h : w.call f = (r, w')) : SameFds w w' := by
  obtain ⟨-, rfl⟩ := Prod.mk.injEq .. ▸ h
  exact ⟨rfl, rfl, rfl⟩

@[simp] theorem registry_transmitReturn (now : UInt32) (cmd : Option Bytes) (ret : AtcmdError)
    (s : Sockets ν) : (atcmdTransmitReturn now cmd ret s).registry = s.registry := by
  unfold atcmdTransmitReturn
  split_ifs
  · rfl
  · split <;> rfl

@[simp] theorem registry_handlerReturn (now : UInt32) (name : Bytes) (r : AtcmdError × Sockets ν) :
    (atcmdHandlerReturn now name r).registry = r.2.registry := by
  unfold atcmdHandlerReturn
  split <;> simp

theorem sameFds_addrInfo2 {host port : Bytes} {w w' : LwipSocket ν} {r : Except Errno Bytes}
    (h : lwipSocketAddrInfo2_ L host port w = (r, w')) : SameFds w w' := by
  unfold lwipSocketAddrInfo2_ at h
  split_ifs at h
  · obtain ⟨-, rfl⟩ := Prod.mk.injEq .. ▸ h
    exact ⟨rfl, rfl, rfl⟩
  · exact sameFds_call h

theorem registry_openAddr {addr port : Bytes} {s s' : Sockets ν} {r : Except Errno Addr}
    (h : atcmdSocketOpenAddr L addr port s = (r, s')) : s'.registry = s.registry := by
  unfold atcmdSocketOpenAddr at h
  split at h
  · obtain ⟨-, rfl⟩ := Prod.mk.injEq .. ▸ h
    rfl
  split at h
  · obtain ⟨-, rfl⟩ := Prod.mk.injEq .. ▸ h
    rfl
  split at h <;> rename_i hw <;> obtain ⟨-, rfl⟩ := Prod.mk.injEq .. ▸ h <;>
    exact registry_lwip (sameFds_addrInfo2 hw)

theorem registry_openParams {proto : SocketProto} {argv : List Bytes} {s s' : Sockets ν}
    {r : Except Errno AtcmdSocket} (h : atcmdSocketOpenParams L proto argv s = (r, s')) :
    s'.registry = s.registry := by
  unfold atcmdSocketOpenParams at h
  split at h
  · split_ifs at h
    all_goals
      cases h
      rfl
  · split_ifs at h
    · cases h
      rfl
    · split at h
      all_goals
        cases h
        exact registry_openAddr ‹_›
  · dsimp only at h
    split_ifs at h
    all_goals
      cases h
      rfl
  · cases h
    rfl

/-! ## The commands -/

theorem openError_eq_success {r : Option Errno} :
    atcmdSocketOpenError r = .success ↔ r = none := by
  unfold atcmdSocketOpenError
  split <;> simp

/-- `AT+SOPEN` asks for no socket, or opens the one it asks for. -/
theorem openSet_cases (a : Args) (s : Sockets ν) :
    let r := atcmdSocketOpenSet_ L a s
    (atcmdSocketOpenAsked L a s = none ∧ (a.argv ≠ [] → r.1 ≠ .success)
        ∧ r.2.registry = s.registry)
      ∨ ∃ k s₁, atcmdSocketOpenAsked L a s = some (k, s₁) ∧ s₁.registry = s.registry
        ∧ r.2 = (atcmdSocketOpen_ L k s₁).2
        ∧ (r.1 = .success ↔ (atcmdSocketOpen_ L k s₁).1 = none) := by
  obtain ⟨_ | ⟨proto, argv⟩, stale, now⟩ := a <;>
    unfold atcmdSocketOpenSet_ atcmdSocketOpenAsked <;> dsimp only
  · exact .inl ⟨rfl, fun h => absurd rfl h, rfl⟩
  · split_ifs with hlen
    · exact .inl ⟨rfl, fun _ => nofun, rfl⟩
    rcases atcmdSocketProto proto with _ | proto
    · exact .inl ⟨rfl, fun _ => nofun, rfl⟩
    dsimp only [Option.map_some]
    unfold atcmdSocketOpenSet__
    rcases hp : atcmdSocketOpenParams L proto argv s with ⟨e | k, s₁⟩
    · refine .inl ⟨rfl, fun _ => ?_, registry_openParams hp⟩
      simp [openError_eq_success]
    · exact .inr ⟨k, s₁, rfl, registry_openParams hp, rfl, openError_eq_success⟩

section Commands

variable {p q : Prop} {s : Sockets ν}

open Registry

theorem openSet_changes (a : Args) (hp : p → ¬ Strays L s (.openSet a))
    (hq : q → ¬ Deafens L s (.openSet a)) :
    Changes p q s.registry (atcmdSocketOpenSet_ L a s).2.registry := by
  rcases openSet_cases (L := L) a s with ⟨-, -, hr⟩ | ⟨k, s₁, ha, hs, hr, -⟩
  · rw [hr]
    exact .refl
  rw [hr, ← hs]
  rcases open_cases (L := L) k s₁ with ⟨-, hr⟩ | ⟨fp, k', d, l, rd, hf, -, hs', -, -, hrd, hP⟩
  · rw [hr]
    exact .refl
  refine .single (c := .register k' d l rd) (fun h => ?_) (fun h => hrd ?_) hs'
  · have hn : ¬ (reuseFails L k fp = true ∨ staysInProgress L k s₁ fp = true) := fun hx =>
      hp h ⟨_, ha, fp, hf, hx⟩
    simp only [not_or, Bool.not_eq_true] at hn
    exact hP hn.1 hn.2
  · by_contra hx
    exact hq h ⟨_, ha, fp, hf, by simpa using hx⟩

/-- A pass of the loop of a close leaves its slot alone, or closes the socket in it. -/
theorem closeAt_cases (id : ℤ) (err : Option Errno) (s : Sockets ν) (i : ℕ) :
    let s' := atcmdSocketCloseAt L id err s i
    (s' = s ∧ ∀ k, s.table[i]? = some (some k) → ¬ (id < 0 ∨ id = k.id))
      ∨ ∃ k, s.table[i]? = some (some k) ∧ s' = atcmdSocketCloseSlot L err i k s := by
  unfold atcmdSocketCloseAt
  rw [List.getD_eq_getElem?_getD]
  rcases hk : s.table[i]? with _ | _ | k <;> dsimp only [Option.getD_none, Option.getD_some]
  · exact .inl ⟨rfl, nofun⟩
  · exact .inl ⟨rfl, nofun⟩
  · split_ifs with hid
    · exact .inr ⟨k, rfl, rfl⟩
    · exact .inl ⟨rfl, fun k' hk' => by simp_all⟩

theorem closeSlot_step {i : ℕ} {k : AtcmdSocket} (h : s.table[i]? = some (some k))
    (err : Option Errno) :
    s.registry.step (.close k) = some (atcmdSocketCloseSlot L err i k s).registry := by
  have hk : k ∈ contents s.table := mem_contents.2 (List.mem_of_getElem? h)
  simp only [Registry.step, Sockets.registry, hk, if_true, atcmdSocketCloseSlot, Sockets.emit,
    List.length_set, contents_set_none h]
  rfl

theorem closeAts_changes (id : ℤ) (err : Option Errno) : ∀ (is : List ℕ) (s : Sockets ν),
    Changes p q s.registry (is.foldl (atcmdSocketCloseAt L id err) s).registry
  | [], _ => .refl
  | i :: is, s => by
    have ih : Changes p q _ _ := closeAts_changes id err is (atcmdSocketCloseAt L id err s i)
    rw [List.foldl_cons]
    rcases closeAt_cases (L := L) id err s i with ⟨hs, -⟩ | ⟨k, hk, hs⟩
    · rw [hs] at ih ⊢
      exact ih
    · rw [hs] at ih ⊢
      refine (Changes.single (c := .close k) (fun _ => trivial) (fun _ => trivial) ?_).trans ih
      exact closeSlot_step hk err

theorem close_changes (id : ℤ) (err : Option Errno) (s : Sockets ν) :
    Changes p q s.registry (atcmdSocketClose_ L id err s).registry :=
  closeAts_changes id err _ s

theorem closeAts_table {id : ℤ} {err : Option Errno} : ∀ {is : List ℕ} {s : Sockets ν} {j : ℕ}
    {k : AtcmdSocket}, (is.foldl (atcmdSocketCloseAt L id err) s).table[j]? = some (some k) →
      s.table[j]? = some (some k) ∧ (j ∈ is → ¬ (id < 0 ∨ id = k.id))
  | [], _, _, _, h => ⟨h, nofun⟩
  | i :: is, s, j, k, h => by
    rw [List.foldl_cons] at h
    obtain ⟨ht, hn⟩ := closeAts_table h
    have hs : s.table[j]? = some (some k) ∧ (j = i → ¬ (id < 0 ∨ id = k.id)) := by
      rcases closeAt_cases (L := L) id err s i with ⟨hs, hne⟩ | ⟨k', hk', hs⟩ <;> rw [hs] at ht
      · exact ⟨ht, fun hj => hne k (hj ▸ ht)⟩
      · simp only [atcmdSocketCloseSlot, Sockets.emit, List.getElem?_set] at ht
        split_ifs at ht with hij
        · cases ht
        · exact ⟨ht, fun hj => absurd hj.symm hij⟩
    exact ⟨hs.1, fun hj => (List.mem_cons.1 hj).elim hs.2 hn⟩

/-- No socket with the id is left. -/
theorem close_sockets {id : ℕ} {err : Option Errno} {k : AtcmdSocket}
    (hk : k ∈ (atcmdSocketClose_ L id err s).sockets) : k.id ≠ id := by
  obtain ⟨o, ho, rfl⟩ := List.mem_filterMap.1 hk
  obtain ⟨j, hj, ho⟩ := List.mem_iff_getElem.1 ho
  obtain ⟨ht, hn⟩ := closeAts_table (List.getElem?_eq_some_iff.2 ⟨hj, ho⟩)
  have hlt : j < s.table.length := (List.getElem?_eq_some_iff.1 ht).1
  exact fun he => hn (List.mem_range.2 hlt) (.inr (by rw [he]))

theorem sameFds_recv {fd len : ℕ} {w w' : LwipSocket ν}
    {r : Except Errno (Bytes × Option (Addr × ℕ))} (h : lwipSocketRecv__ L fd len w = (r, w')) :
    SameFds w w' := by
  unfold lwipSocketRecv__ at h
  split at h <;> rename_i h1
  · cases h
    exact sameFds_call h1
  · cases h
    exact sameFds_call h1
  · have h1 := sameFds_call h1
    split at h <;> rename_i h2 <;> cases h <;> have h2 := sameFds_call h2 <;>
      exact ⟨h2.1.trans h1.1, h2.2.trans h1.2, h2.3.trans h1.3⟩

/-- A receive changes nothing of the registry, or closes the socket. -/
theorem recv_cases (now : UInt32) (id : ℕ) (len : ℤ) (passive : Bool) (s : Sockets ν) :
    let r := atcmdSocketRecvHandler__ L now id len passive s
    r.2.registry = s.registry
      ∨ ∃ err s₁, s₁.registry = s.registry ∧ r.2 = atcmdSocketClose_ L id err s₁ := by
  unfold atcmdSocketRecvHandler__
  split
  · exact .inl rfl
  split_ifs
  · exact .inl rfl
  rcases hw : lwipSocketRecv__ L id _ s.lwip with ⟨e | ⟨data, remote⟩, w⟩ <;>
    have hw := registry_lwip (sameFds_recv hw) <;> dsimp only
  · unfold atcmdSocketRecvError
    split_ifs
    · exact .inl hw
    · exact .inr ⟨_, _, hw, rfl⟩
    · exact .inl hw
  · split_ifs
    · exact .inl hw
    · refine .inl (Eq.trans ?_ hw)
      unfold atcmdSocketRecvSome
      split_ifs <;> simp

theorem recv_changes (now : UInt32) (id : ℕ) (len : ℤ) (passive : Bool) (s : Sockets ν) :
    Changes p q s.registry (atcmdSocketRecvHandler__ L now id len passive s).2.registry := by
  rcases recv_cases (L := L) now id len passive s with h | ⟨err, s₁, hs, h⟩
  · rw [h]
    exact .refl
  · rw [h, ← hs]
    exact close_changes id err s₁

theorem recvHandler_changes (now : UInt32) (id : ℕ) (s : Sockets ν) :
    Changes p q s.registry (atcmdSocketRecvHandler_ L now id s).registry := by
  unfold atcmdSocketRecvHandler_
  split_ifs with hid
  · exact .refl
  rcases hc : s.call (L.fionread id) with ⟨_ | _ | len, s₁⟩ <;> rw [← registry_call hc]
  · exact .refl
  · exact recv_changes now id 0 false s₁
  show Changes p q s₁.registry (if s₁.recv.passive then atcmdSocketRecvReady id (len + 1) s₁
    else { s₁ with reading := some (id, len + 1) }).registry
  split_ifs with hp
  · have hlen : id < s₁.registry.slots := by
      rw [registry_call hc]
      exact not_le.1 hid
    have hstep : s₁.registry.step (.announce id)
        = some (atcmdSocketRecvReady id (len + 1) s₁).registry := by
      rw [Registry.step, if_pos ⟨hp, hlen⟩]
      unfold atcmdSocketRecvReady
      dsimp only
      split_ifs with hr
      · exact congrArg _ (by simp [Sockets.registry, lwipSocketRecvDone_, Finset.insert_eq_of_mem hr])
      · rfl
      · rfl
    exact .single (c := .announce id) (fun _ => trivial) (fun _ => trivial) hstep
  · exact .refl

theorem recvLoop_changes (now : UInt32) (s : Sockets ν) :
    Changes p q s.registry (atcmdSocketRecvLoop L now s).registry := by
  unfold atcmdSocketRecvLoop
  split
  · exact .refl
  · rename_i id left _
    have h : Changes p q _ _ :=
      recv_changes (L := L) now id (min left atcmdDataLenMax : ℕ) false s
    split <;> rename_i hr <;> rw [hr] at h <;> exact h

/-- `AT+SRECV` receives, and has the socket read again if its data was announced. -/
theorem recvFetch_changes (now : UInt32) (id : ℕ) (len : ℤ) (s : Sockets ν) :
    Changes p q s.registry (atcmdSocketRecvFetch L now id len s).2.registry := by
  unfold atcmdSocketRecvFetch
  have h : Changes p q _ _ := recv_changes (L := L) now id len true s
  rcases hr : atcmdSocketRecvHandler__ L now id len true s with ⟨ret, s₁⟩
  rw [hr] at h
  have h' : Changes p q s.registry (if id ∈ s₁.recv.ready then
      { s₁ with
        recv := { s₁.recv with ready := s₁.recv.ready.erase id }
        lwip := lwipSocketRecvRequest_ id s₁.lwip }
      else s₁).registry := by
    split_ifs
    · exact h.trans (Changes.single (c := .fetch id) (fun _ => trivial) (fun _ => trivial) rfl)
    · exact h
  cases ret <;> exact h'

theorem registry_recvWait {id : ℕ} : ∀ {t : ℕ} {s s' : Sockets ν} {r : Option AtcmdError},
    atcmdSocketRecvWait L id t s = (r, s') → s'.registry = s.registry
  | 0, s, s', r, h => by
    cases h
    rfl
  | t + 1, s, s', r, h => by
    unfold atcmdSocketRecvWait at h
    split at h <;> rename_i hc
    · cases h
      exact registry_call hc
    · exact (registry_recvWait h).trans (registry_call hc)
    · cases h
      exact registry_call hc

theorem registry_recvAwait {argc id : ℕ} {s s' : Sockets ν} {r : Option AtcmdError}
    (h : atcmdSocketRecvAwait L argc id s = (r, s')) : s'.registry = s.registry := by
  unfold atcmdSocketRecvAwait at h
  split at h <;> rename_i hc
  · cases h
    exact registry_call hc
  · split_ifs at h
    · cases h
      exact registry_call hc
    all_goals exact (registry_recvWait h).trans (registry_call hc)
  · cases h
    exact registry_call hc

theorem recvSet_changes (a : Args) (s : Sockets ν) :
    Changes p q s.registry (atcmdSocketRecvSet_ L a s).2.registry := by
  unfold atcmdSocketRecvSet_
  split_ifs
  · exact .refl
  split
  · exact .refl
  · exact .refl
  · split <;> rename_i hw <;> rw [← registry_recvAwait hw]
    · exact .refl
    · exact recvFetch_changes ..

theorem recvModeSet_changes (a : Args) (s : Sockets ν)
    (hq : q → ¬ Deafens L s (.recvModeSet a)) :
    Changes p q s.registry (atcmdSocketRecvModeSet_ a s).2.registry := by
  have hmode (mode event : ℤ) (hok : (mode = 0 ∨ mode = 1) ∧ (event = 0 ∨ event = 1) →
      recvModeArgs a.argv = true) :
      Changes p q s.registry (atcmdSocketRecvMode mode event s).2.registry := by
    unfold atcmdSocketRecvMode
    split_ifs with h
    · refine .single (c := .mode (mode = 1)) (fun _ => trivial) (fun hx k hk => ?_) rfl
      by_contra hn
      exact hq hx ⟨hok h, k, hk, hn⟩
    · exact .refl
  unfold atcmdSocketRecvModeSet_
  split <;> rename_i ha
  · exact .refl
  · exact hmode _ _ fun h => by simpa [recvModeArgs, ha] using h.1
  · exact hmode _ _ fun h => by simpa [recvModeArgs, ha] using h
  · exact .refl

theorem accept_cases (fd : ℕ) (w : LwipSocket ν) :
    let r := lwipSocketAccept_ L fd w
    (∃ e, r.1 = .error e ∧ SameFds w r.2)
      ∨ ∃ id addr port, r.1 = .ok (id, addr, port)
        ∧ OpensFd w (lwipSocketFdsSet_ id false r.2) id
          ⟨.tcp, none, false, none, some (addr, port)⟩ false true := by
  unfold lwipSocketAccept_
  rcases hc : w.call (L.soType fd) with ⟨e | type, w'⟩ <;> have hc := sameFds_call hc <;> dsimp only
  · exact .inl ⟨e, rfl, hc⟩
  split_ifs
  · exact .inl ⟨_, rfl, hc⟩
  unfold Net.accept
  rcases ha : w'.net.call (L.accept w'.net.opened fd) with ⟨e | ⟨id, addr, port⟩, n⟩
  · exact .inl ⟨e, rfl, (Net.descriptor_call ha).trans hc.1, hc.2, hc.3⟩
  · have hf : (L.accept w'.net.opened fd w'.net.stack).1 = .ok (id, addr, port) :=
      congrArg Prod.fst ha
    have hid : w'.net.descriptor id = none := by simpa [Net.opened] using L.accept_fresh hf
    refine .inr ⟨id, addr, port, rfl, hc.1 ▸ hid, ?_, ?_, hc.3⟩
    · simp [lwipSocketFdsSet_, Net.insert, Net.descriptor_call ha, hc.1]
    · simp [lwipSocketFdsSet_, hc.2]

theorem OpensFd.hold {w : LwipSocket ν} {fd : ℕ} {d : Descriptor}
    (h : OpensFd s.lwip w fd d false true) :
    s.registry.step (.hold fd d) = some ({ s with lwip := w } : Sockets ν).registry := by
  simp only [Registry.step, Sockets.registry, h.fresh, if_true, h.descriptor, h.read, h.listen,
    Bool.false_eq_true, if_false]

/-- A connection that is accepted is registered, or held by nobody. -/
theorem taskRead_changes (now : UInt32) (fd : ℕ) (s : Sockets ν)
    (hp : p → ¬ Strays L s (.readable now fd)) :
    Changes p q s.registry (lwipSocketTaskRead L now fd s).registry := by
  unfold lwipSocketTaskRead
  split_ifs with hl
  swap
  · exact recvHandler_changes now fd s
  have hp (hx : p) : holdsAccepted L fd s = false := by
    by_contra hn
    exact hp hx ⟨hl, by simpa using hn⟩
  unfold holdsAccepted at hp
  have hc := accept_cases (L := L) fd s.lwip
  rcases hr : lwipSocketAccept_ L fd s.lwip with ⟨_ | ⟨id, addr, port⟩, w⟩ <;>
    rw [hr] at hc hp
  · obtain ⟨-, -, hw⟩ | ⟨_, _, _, h, -⟩ := hc
    · show Changes p q s.registry ({ s with lwip := w } : Sockets ν).registry
      rw [registry_lwip hw]
      exact .refl
    · cases h
  obtain ⟨_, h, -⟩ | ⟨_, _, _, h, ho⟩ := hc
  · cases h
  cases h
  dsimp only at hp ⊢
  unfold atcmdSocketTcpConnectHandler_
  split_ifs with h0
  · refine .single (c := .hold id _) (fun hx => ?_) (fun _ => trivial) ho.hold
    simp [h0] at hp
    exact hp hx
  have ho' := ho.trans (sameFds_getLocal (L := L) id _)
  dsimp only
  split <;> rename_i hf
  · refine .single (c := .hold id _) (fun hx => ?_) (fun _ => trivial) ho'.hold
    have hall : s.table.all (·.isSome) = true := by
      rw [List.findIdx?_eq_none_iff] at hf
      simpa using hf
    simp [hall] at hp
    exact hp hx
  · rename_i i
    refine .single (c := .register ⟨id, .tcp, _, port, addr, .zero⟩
      ⟨.tcp, none, false, none, some (addr, port)⟩ false true) (fun _ => ?_) (fun _ => rfl)
      (OpensFd.register (s := s) ho' (free_of_findIdx hf))
    simp [Orderly, AtcmdSocket.Asked, AtcmdSocket.isServer, h0]

/-- Every step makes changes of the registry, orderly ones unless it strays, hearing ones unless it
deafens. -/
theorem step_changes {i : SocketInput ν} {s' : Sockets ν} (hs : socketStep L s i = some s') :
    Changes (¬ Strays L s i) (¬ Deafens L s i) s.registry s'.registry := by
  unfold socketStep at hs
  split at hs
  case h_1 a =>
    cases hs
    rw [registry_handlerReturn]
    exact openSet_changes a (fun h => h) fun h => h
  case h_2 a =>
    cases hs
    rw [registry_handlerReturn]
    exact close_changes _ _ s
  case h_3 a =>
    cases hs
    rw [registry_handlerReturn]
    unfold atcmdSocketCloseSet_
    split
    · exact .refl
    · split_ifs
      · exact close_changes _ _ s
      · exact .refl
    · exact .refl
  case h_4 a =>
    cases hs
    rw [registry_handlerReturn]
    exact recvModeSet_changes a s fun h => h
  case h_5 a =>
    cases hs
    rw [registry_handlerReturn]
    exact recvSet_changes a s
  case h_6 now fd =>
    split_ifs at hs
    cases hs
    exact taskRead_changes now fd s fun h => h
  case h_7 now =>
    split_ifs at hs
    cases hs
    exact recvLoop_changes now s
  case h_8 id len rets =>
    split_ifs at hs
    cases hs
    unfold atcmdSocketSendClose
    split
    · exact close_changes _ _ s
    · exact .refl
  case h_9 x =>
    cases hs
    exact .refl

end Commands

theorem registry_boot (numMax : ℕ) (passthrough : Bool) (x : ν) :
    (Sockets.boot numMax passthrough x).registry = .empty numMax := by
  simp [Sockets.boot, Sockets.registry, Registry.empty]

/-! ## What an open reports -/

/-- A command that was answered was answered `OK` exactly if its handler succeeded. -/
theorem handlerReturn_ok {now : UInt32} {name : Bytes} {r : AtcmdError × Sockets ν}
    (h : r.1 ≠ .noReturn) :
    (atcmdHandlerReturn now name r).out.getLast? = some .ok ↔ r.1 = .success := by
  obtain ⟨ret, s⟩ := r
  cases ret <;>
    simp_all [atcmdHandlerReturn, atcmdTransmitReturn, Sockets.emit]

/-- Where nothing goes astray, an open reports success exactly if it registered its socket. -/
theorem open_reports {a : Args} {s s' : Sockets ν} (ha : a.argv ≠ [])
    (h : s.registry.Agrees) (hst : ¬ Strays L s (.openSet a))
    (hs : socketStep L s (.openSet a) = some s') :
    s'.out.getLast? = some .ok ↔ Registers L a s s' := by
  obtain rfl := Option.some.inj hs
  rw [handlerReturn_ok (plain_openSet a s).1]
  have hreg := registry_handlerReturn a.now (bytes "SOPEN") (atcmdSocketOpenSet_ L a s)
  generalize atcmdHandlerReturn a.now (bytes "SOPEN") (atcmdSocketOpenSet_ L a s) = s' at hreg
  rcases openSet_cases (L := L) a s with ⟨hn, hr, -⟩ | ⟨k, s₁, hk, hs₁, hr, hok⟩
  · exact iff_of_false (hr ha) fun ⟨p, hp, _⟩ => by simp [hn] at hp
  rw [hok]
  rw [hr] at hreg
  rcases open_cases (L := L) k s₁ with ⟨h0, hsame⟩ | ⟨fp, k', d, l, rd, hf, h0, hstep, hk', hl, -, hP⟩
  · refine iff_of_false h0 fun ⟨p, _, k', hk', hne, _⟩ => hne k' ?_ rfl
    have : k' ∈ s'.registry.sockets := hk'
    rwa [hreg, hsame, hs₁] at this
  · refine iff_of_true h0 ?_
    have hn : ¬ (reuseFails L k fp = true ∨ staysInProgress L k s₁ fp = true) := fun hx =>
      hst ⟨_, hk, fp, hf, hx⟩
    simp only [not_or, Bool.not_eq_true] at hn
    rw [hs₁, ← hreg, Registry.step, Option.ite_none_right_eq_some, Option.some.injEq] at hstep
    obtain ⟨hfree, hstep⟩ := hstep
    have hmem : k' ∈ s'.registry.sockets := by
      rw [← hstep]
      exact Multiset.mem_cons_self k' s.registry.sockets
    have hdesc : s'.registry.descriptor k'.id = some d := by simp [← hstep]
    have hcl : k'.isClient = k.isClient := by rw [hk']; rfl
    refine ⟨(k, s₁), hk, k', hmem, fun k₀ hk₀ he => ?_, hk', fun hc => hl (hcl ▸ hc), d, hdesc,
      (hP hn.1 hn.2).1⟩
    have := (h.opened k'.id).2 ⟨k₀, hk₀, he⟩
    simp [hfree] at this

/-! ## What is not read -/

/-- A socket that is not read, with its data announced, can be read again. -/
theorem revives {s : Sockets ν} {k : AtcmdSocket} (hd : s.registry.Distinct)
    (hp : s.recv.passive = true) (hr : k.id ∈ s.recv.ready) : Revives L s k := by
  refine ⟨hd.ready_lt k.id hr, fun a len ha hw => ?_⟩
  rcases hs : atcmdSocketRecvAwait L a.argv.length k.id s with ⟨e, s₁⟩
  obtain rfl : e = none := by simpa [hs] using hw
  have hs₁ : s₁.registry = s.registry := registry_recvAwait hs
  have hset : atcmdSocketRecvSet_ L a s = atcmdSocketRecvFetch L a.now k.id len s₁ := by
    unfold atcmdSocketRecvSet_
    rw [if_neg (by simp [hp])]
    split
    · simp_all [recvArgs]
    · simp_all
    · rename_i id' len' h' _
      obtain ⟨rfl, rfl⟩ : k.id = id' ∧ len = len' := by simpa [ha] using h'
      rw [hs]
  rw [hset]
  unfold atcmdSocketRecvFetch
  have hc := recv_cases (L := L) a.now k.id len true s₁
  rcases hr' : atcmdSocketRecvHandler__ L a.now k.id len true s₁ with ⟨ret, s₂⟩
  rw [hr'] at hc
  have h : let s' := if k.id ∈ s₂.recv.ready then
      { s₂ with
        recv := { s₂.recv with ready := s₂.recv.ready.erase k.id }
        lwip := lwipSocketRecvRequest_ k.id s₂.lwip }
      else s₂
      k.id ∈ s'.lwip.read ∨ ∀ k' ∈ s'.sockets, k'.id ≠ k.id := by
    rcases hc with hc | ⟨err, s₃, -, hc⟩
    · have hr₂ : k.id ∈ s₂.recv.ready := by
        have : s₂.registry.ready = s.registry.ready := congrArg _ (hc.trans hs₁)
        exact this.symm.subset hr
      rw [if_pos hr₂]
      exact .inl (Finset.mem_insert_self _ _)
    · obtain rfl : s₂ = _ := hc
      refine .inr fun k' hk' => ?_
      have hk' : k' ∈ (atcmdSocketClose_ L k.id err s₃).sockets := by
        split_ifs at hk' <;> exact hk'
      exact close_sockets hk'
  cases ret <;> exact h

/-! ## The results -/

/-- As long as no descriptor goes astray, the registered sockets are what is open, each as asked,
the servers are what listens, and the next open reports success exactly if it registers its
socket. -/
theorem registry_agrees {numMax : ℕ} {passthrough : Bool} {x : ν} {is : List (SocketInput ν)}
    {s : Sockets ν}
    (hC : Machine.Along (socketStep L) (fun s i => ¬ Strays L s i)
      (.boot numMax passthrough x) is)
    (hr : Machine.run (socketStep L) (.boot numMax passthrough x) is = some s) :
    s.registry.Agrees ∧ ∀ a s', a.argv ≠ [] → ¬ Strays L s (.openSet a) →
      socketStep L s (.openSet a) = some s' → (s'.out.getLast? = some .ok ↔ Registers L a s s') := by
  have h : s.registry.Agrees := by
    refine Machine.run_along (P := fun s => s.registry.Agrees) (fun s i s' hs hc hi => ?_) ?_ hC hr
    · exact (step_changes hi).agrees hc hs
    · rw [registry_boot]
      exact Registry.agrees_empty numMax
  exact ⟨h, fun a s' ha hst hs => open_reports ha h hst hs⟩

/-- `AT+SOPEN="UDP",5000`. -/
def openUdp : SocketInput QueueStack := .openSet (argsOf [bytes "\"UDP\"", bytes "5000"])

/-- `AT+SOPEN="TCP",80`, a connection that is taken, and `AT+SCLOSE=0`. -/
def serveOne : List (SocketInput QueueStack) :=
  [.openSet (argsOf [bytes "\"TCP\"", bytes "80"]), .stack ⟨[], [(7, 1024)], true⟩,
    .readable 0 0, .closeSet (argsOf [bytes "0"])]

theorem registry_agrees_serveOne :
    ∃ s, Machine.run (socketStep queueLwip) (.boot 8 true ⟨[], [], true⟩) serveOne = some s
      ∧ s.sockets.map (·.id) = [1] ∧ s.registry.Agrees := by
  have hr : (Machine.run (socketStep queueLwip) (.boot 8 true ⟨[], [], true⟩) serveOne).map
      (fun s => s.sockets.map (·.id)) = some [1] := by decide +kernel
  obtain ⟨s, hs, hid⟩ := Option.map_eq_some_iff.1 hr
  exact ⟨s, hs, hid, (registry_agrees (by decide +kernel) hs).1⟩

/-- `SO_REUSEADDR` cannot be set: the host is told `OK`, but the socket is not bound. -/
theorem registry_fails_reuse :
    ∃ s, Machine.run (socketStep queueLwip) (.boot 8 true ⟨[], [], false⟩) [openUdp] = some s
      ∧ s.out.getLast? = some .ok ∧ ¬ s.registry.Agrees := by
  have hr : (Machine.run (socketStep queueLwip) (.boot 8 true ⟨[], [], false⟩) [openUdp]).map
      (fun s => (s.out.getLast?, s.sockets.head?.map (·.protocol),
        (s.sockets.head?.map fun k => (s.lwip.net.descriptor k.id).map (·.bound))))
      = some (some .ok, some .udp, some (some none)) := by decide +kernel
  obtain ⟨s, hs, h⟩ := Option.map_eq_some_iff.1 hr
  simp only [Prod.mk.injEq, Option.map_eq_some_iff, List.head?_eq_some_iff] at h
  obtain ⟨hok, ⟨k, ⟨t, hk⟩, hudp⟩, k', ⟨t', hk'⟩, d, hd, hb⟩ := h
  obtain rfl : k = k' := by simp_all
  refine ⟨s, hs, hok, fun ha => ?_⟩
  have hmem : k ∈ s.sockets := by simp [hk]
  obtain ⟨d', hd', -, hask⟩ := ha.asked k hmem
  have hdd : d' = d := Option.some.inj (hd'.symm.trans hd)
  simp [hudp, hdd, hb] at hask

/-- As long as no step deafens one, every registered socket is read, or its data was announced and
can be fetched, after which it is read again. -/
theorem sockets_heard {numMax : ℕ} {passthrough : Bool} {x : ν} {is : List (SocketInput ν)}
    {s : Sockets ν}
    (hC : Machine.Along (socketStep L) (fun s i => ¬ Deafens L s i)
      (.boot numMax passthrough x) is)
    (hr : Machine.run (socketStep L) (.boot numMax passthrough x) is = some s) :
    ∀ k ∈ s.sockets, k.id ∈ s.lwip.read
      ∨ s.recv.passive = true ∧ k.id ∈ s.recv.ready ∧ Revives L s k := by
  have h : s.registry.Distinct ∧ s.registry.Hears := by
    refine Machine.run_along (P := fun s => s.registry.Distinct ∧ s.registry.Hears)
      (fun s i s' hs hc hi => ?_) ?_ hC hr
    · exact (step_changes hi).hears hc hs.1 hs.2
    · rw [registry_boot]
      exact ⟨Registry.distinct_empty numMax, Registry.hears_empty numMax⟩
  intro k hk
  exact (h.2 k hk).imp_right fun ⟨hp, hr⟩ => ⟨hp, hr, revives h.1 hp hr⟩

/-- `AT+SRECVMODE=1`, and a datagram that is announced. -/
def announceOne : List (SocketInput QueueStack) :=
  [openUdp, .recvModeSet (argsOf [bytes "1"]), .stack ⟨[(0, bytes "abc", 0, 7)], [], true⟩,
    .readable 0 0]

theorem sockets_heard_announceOne :
    ∃ s, Machine.run (socketStep queueLwip) (.boot 8 true ⟨[], [], true⟩) announceOne = some s
      ∧ ∃ k ∈ s.sockets, k.id ∉ s.lwip.read ∧ Revives queueLwip s k := by
  have hr : (Machine.run (socketStep queueLwip) (.boot 8 true ⟨[], [], true⟩) announceOne).map
      (fun s => decide (∃ k ∈ s.sockets, k.id ∉ s.lwip.read)) = some true := by decide +kernel
  obtain ⟨s, hs, h⟩ := Option.map_eq_some_iff.1 hr
  obtain ⟨k, hk, hn⟩ := of_decide_eq_true h
  have := sockets_heard (by decide +kernel) hs k hk
  exact ⟨s, hs, k, hk, hn, (this.resolve_left hn).2.2⟩

/-- `AT+SRECVMODE=0` while the datagram is announced: the socket is not read any more. -/
theorem sockets_heard_fails_mode :
    ∃ s, Machine.run (socketStep queueLwip) (.boot 8 true ⟨[], [], true⟩)
        (announceOne ++ [.recvModeSet (argsOf [bytes "0"])]) = some s
      ∧ ∃ k ∈ s.sockets, k.id ∉ s.lwip.read
        ∧ ¬ (s.recv.passive = true ∧ k.id ∈ s.recv.ready) := by
  have hr : (Machine.run (socketStep queueLwip) (.boot 8 true ⟨[], [], true⟩)
      (announceOne ++ [.recvModeSet (argsOf [bytes "0"])])).map
      (fun s => decide (∃ k ∈ s.sockets, k.id ∉ s.lwip.read
        ∧ ¬ (s.recv.passive = true ∧ k.id ∈ s.recv.ready))) = some true := by decide +kernel
  obtain ⟨s, hs, h⟩ := Option.map_eq_some_iff.1 hr
  exact ⟨s, hs, of_decide_eq_true h⟩

end NrcAtcmd
