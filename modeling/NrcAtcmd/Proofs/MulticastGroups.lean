import NrcAtcmd.MulticastGroups
import NrcAtcmd.Proofs.SocketCommand

/-!
# The groups are in step with the stack

A group is joined into a free place and dropped out of its own, each only if the stack does so
(`inStep_add`, `inStep_drop`). All groups are dropped without asking what the stack answered, and
one that it refused to drop is joined from then on without being in the table (`joined_dropGroups`).
-/

set_option linter.style.nameCheck false

namespace NrcAtcmd

open Machine Slots

variable {ν : Type*} {L : Lwip ν}

/-! ## Calls -/

section Calls

variable {α : Type*} (f : Call ν α) (s : Sockets ν)

@[simp] theorem check_table : (s.check f).2.table = s.table := by
  unfold Sockets.check Net.check Net.call
  rcases h : f s.lwip.net.stack with ⟨_ | _, x⟩ <;> simp

@[simp] theorem check_stack : (s.check f).2.lwip.net.stack = (f s.lwip.net.stack).2 := by
  unfold Sockets.check Net.check Net.call
  rcases h : f s.lwip.net.stack with ⟨_ | _, x⟩ <;> simp

theorem check_error : (s.check f).1 =
    match (f s.lwip.net.stack).1 with
    | .ok _ => none
    | .error e => some e := by
  unfold Sockets.check Net.check Net.call
  rcases h : f s.lwip.net.stack with ⟨_ | _, x⟩ <;> simp

end Calls

/-! ## The table -/

namespace Multicast

variable {m : Multicast} {joined : Finset Addr} {addr : Addr}

theorem groups_eq (m : Multicast) : m.groups = ↑(m.groupAddr.filter (· ≠ 0)) := by
  rw [groups, contents, List.filterMap_map, ← List.filterMap_eq_filter]
  congr 2
  funext addr
  by_cases h : addr = 0 <;> simp [Option.guard, h]

theorem mem_groups : addr ∈ m.groups ↔ addr ∈ m.groupAddr ∧ addr ≠ 0 := by
  simp [groups_eq]

theorem card_groups_le : m.groups.card ≤ m.groupAddr.length := by
  rw [groups_eq]
  exact List.length_filter_le ..

/-- A group is added. -/
theorem groups_set {j : ℕ} (h : m.groupAddr[j]? = some 0) (h0 : addr ≠ 0) (group : UInt8) :
    { m with groupAddr := m.groupAddr.set j addr, group := group }.groups = addr ::ₘ m.groups := by
  unfold groups
  rw [List.map_set, if_neg h0]
  exact contents_set_some (by simp [h]) addr

/-- A group is dropped. -/
theorem groups_clear {j : ℕ} (h : m.groupAddr[j]? = some addr) (h0 : addr ≠ 0) (group : UInt8) :
    addr ::ₘ { m with groupAddr := m.groupAddr.set j 0, group := group }.groups = m.groups := by
  unfold groups
  rw [List.map_set, if_pos rfl]
  exact cons_contents_set_none (by simp [h, h0])

theorem groups_zero (group : UInt8) :
    { m with groupAddr := m.groupAddr.map fun _ => 0, group := group }.groups = 0 := by
  simp [groups]

/-- The stack joins a group that is then added. -/
theorem inStep_add (h : m.InStep joined) (hlen : m.groupAddr.length < 256) {j : ℕ}
    (hj : m.groupAddr[j]? = some 0) (h0 : addr ≠ 0) (hnew : addr ∉ m.groupAddr) :
    { m with groupAddr := m.groupAddr.set j addr, group := m.group + 1 }.InStep
      (insert addr joined) := by
  have hadd := groups_set hj h0 (m.group + 1)
  have hnot : addr ∉ m.groups := fun hm => hnew (mem_groups.1 hm).1
  refine ⟨?_, ?_, ?_⟩
  · rw [hadd, Multiset.nodup_cons]
    exact ⟨hnot, h.nodup⟩
  · have hlt : (addr ::ₘ m.groups).card ≤ m.groupAddr.length := by
      rw [← hadd]
      exact card_groups_le.trans_eq List.length_set
    rw [Multiset.card_cons] at hlt
    rw [hadd, Multiset.card_cons, ← h.count, UInt8.toNat_add]
    have := h.count
    exact Nat.mod_eq_of_lt (by simp; omega)
  · rw [hadd, Multiset.toFinset_cons, h.joined]

/-- The stack drops a group that is then cleared. -/
theorem inStep_drop (h : m.InStep joined) {j : ℕ} (hj : m.groupAddr[j]? = some addr)
    (h0 : addr ≠ 0) :
    { m with groupAddr := m.groupAddr.set j 0, group := m.group - 1 }.InStep
      (joined.erase addr) := by
  have hdrop := groups_clear hj h0 (m.group - 1)
  obtain ⟨hnot, hnodup⟩ := Multiset.nodup_cons.1 (hdrop ▸ h.nodup)
  refine ⟨hnodup, ?_, ?_⟩
  · have hcount := h.count
    rw [← hdrop, Multiset.card_cons] at hcount
    have hone : (1 : UInt8) ≤ m.group := by
      rw [UInt8.le_iff_toNat_le, hcount]
      simp
    rw [UInt8.toNat_sub_of_le _ _ hone, hcount]
    simp
  · rw [← h.joined, ← hdrop, Multiset.toFinset_cons, Finset.erase_insert]
    rwa [Multiset.mem_toFinset]

end Multicast

/-! ## All groups -/

section DropGroups

variable {fd : ℕ}

@[simp] theorem tracked_setsockopt (fd : ℕ) (opt : SockOpt) (v : ℤ) (p : ν × Joined) :
    L.tracked.setsockopt fd opt v p = ((L.setsockopt fd opt v p.1).1,
      (L.setsockopt fd opt v p.1).2, p.2.after fd opt (L.setsockopt fd opt v p.1).1) := rfl

theorem after_error (opt : SockOpt) (e : Errno) (j : Joined) :
    j.after fd opt (.error e) = j := rfl

theorem after_add (group : Addr) (u : Unit) (j : Joined) :
    j.after fd (.addMembership group) (.ok u) fd = insert group (j fd) :=
  Function.update_self ..

theorem after_drop (group : Addr) (u : Unit) (j : Joined) :
    j.after fd (.dropMembership group) (.ok u) fd = (j fd).erase group :=
  Function.update_self ..

@[simp] theorem dropGroups_table (fd : ℕ) : ∀ (addrs : List Addr) (s : Sockets ν),
    (dropGroups L fd addrs s).table = s.table
  | [], _ => rfl
  | addr :: addrs, s => by
    rw [dropGroups, dropGroups_table fd addrs]
    split_ifs
    · rfl
    · exact check_table ..

/-- What is joined for the descriptor. -/
def joinedFor (fd : ℕ) (s : Sockets (ν × Joined)) : Finset Addr := s.lwip.net.stack.2 fd

theorem joinedFor_check (fd : ℕ) (opt : SockOpt) (v : ℤ) (s : Sockets (ν × Joined)) :
    joinedFor fd (s.check (L.tracked.setsockopt fd opt v)).2 =
      s.lwip.net.stack.2.after fd opt (L.setsockopt fd opt v s.lwip.net.stack.1).1 fd := by
  rw [joinedFor, check_stack, tracked_setsockopt]

/-- What the stack answers, and what is joined then. -/
theorem tracked_check (fd : ℕ) (opt : SockOpt) (v : ℤ) (s : Sockets (ν × Joined)) :
    ∃ r s', s.check (L.tracked.setsockopt fd opt v) = (r, s') ∧ s'.table = s.table
      ∧ (r = none ∧ joinedFor fd s' = s.lwip.net.stack.2.after fd opt (.ok ()) fd
        ∨ ∃ e, r = some e ∧ joinedFor fd s' = joinedFor fd s) := by
  have herror := check_error (L.tracked.setsockopt fd opt v) s
  have hjoined := joinedFor_check (L := L) fd opt v s
  rw [tracked_setsockopt] at herror
  refine ⟨_, _, rfl, check_table _ _, ?_⟩
  rcases hr : (L.setsockopt fd opt v s.lwip.net.stack.1).1 with e | u
  · rw [hr] at herror hjoined
    exact .inr ⟨e, herror, hjoined⟩
  · rw [hr] at herror hjoined
    exact .inl ⟨herror, hjoined⟩

/-- Dropping joins nothing, and leaves other groups alone. -/
theorem joined_dropGroups_of_notMem {addr : Addr} : ∀ {addrs : List Addr} (s : Sockets (ν × Joined)),
    addr ∉ addrs →
      (addr ∈ joinedFor fd (dropGroups L.tracked fd addrs s) ↔ addr ∈ joinedFor fd s)
  | [], _, _ => Iff.rfl
  | a :: addrs, s, h => by
    obtain ⟨hne, htail⟩ := List.ne_and_not_mem_of_not_mem_cons h
    rw [dropGroups, joined_dropGroups_of_notMem _ htail]
    split_ifs
    · rfl
    · rw [joinedFor_check]
      rcases (L.setsockopt fd (.dropMembership a) 0 s.lwip.net.stack.1).1 with e | u
      · rfl
      · rw [after_drop, Finset.mem_erase, and_iff_right hne]
        rfl

theorem joined_dropGroups_subset : ∀ (addrs : List Addr) (s : Sockets (ν × Joined)),
    joinedFor fd (dropGroups L.tracked fd addrs s) ⊆ joinedFor fd s
  | [], _ => subset_rfl
  | a :: addrs, s => by
    refine (joined_dropGroups_subset addrs _).trans ?_
    split_ifs
    · exact subset_rfl
    · rw [joinedFor_check]
      rcases (L.setsockopt fd (.dropMembership a) 0 s.lwip.net.stack.1).1 with e | u
      · exact subset_rfl
      · rw [after_drop]
        exact Finset.erase_subset ..

/-- All groups of a table are dropped, unless the stack refuses one, which stays joined. -/
theorem joined_dropGroups : ∀ (addrs : List Addr) {s : Sockets (ν × Joined)},
    (addrs.filter (· ≠ 0)).Nodup → (∀ addr ∈ addrs, addr ≠ 0 → addr ∈ joinedFor fd s) →
      ((∀ addr ∈ addrs, addr ≠ 0 → addr ∉ joinedFor fd (dropGroups L.tracked fd addrs s)) ↔
        refuses L fd addrs s.lwip.net.stack.1 = false)
  | [], _, _, _ => by simp [refuses]
  | a :: addrs, s, hn, hj => by
    by_cases h0 : a = 0
    · have ih := joined_dropGroups addrs (s := s) (by simpa [h0] using hn)
        fun addr h => hj addr (List.mem_cons_of_mem a h)
      simpa [dropGroups, refuses, h0] using ih
    · have hn' : a ∉ addrs ∧ (addrs.filter (· ≠ 0)).Nodup := by simpa [h0] using hn
      set s' := (s.check (L.tracked.setsockopt fd (.dropMembership a) 0)).2 with hs'
      have hstack : s'.lwip.net.stack.1 =
          (L.setsockopt fd (.dropMembership a) 0 s.lwip.net.stack.1).2 := by
        rw [hs', check_stack, tracked_setsockopt]
      have hjoined : joinedFor fd s' = _ := joinedFor_check ..
      rw [dropGroups, if_neg h0, ← hs', refuses, if_neg h0]
      rcases hr : L.setsockopt fd (.dropMembership a) 0 s.lwip.net.stack.1 with ⟨e | u, x⟩
      · -- the group is refused and stays
        rw [hr, after_error] at hjoined
        have ha : a ∈ joinedFor fd s' := hjoined ▸ hj a List.mem_cons_self h0
        refine iff_of_false (fun h => ?_) (by simp)
        exact h a List.mem_cons_self h0 ((joined_dropGroups_of_notMem s' hn'.1).2 ha)
      · rw [hr] at hstack
        rw [hr, after_drop] at hjoined
        have ih := joined_dropGroups addrs (s := s') hn'.2 fun addr h h0' => by
          rw [hjoined, Finset.mem_erase]
          exact ⟨fun he => hn'.1 (he ▸ h), hj addr (List.mem_cons_of_mem a h) h0'⟩
        rw [hstack] at ih
        simp only
        rw [← ih, List.forall_mem_cons, and_iff_right]
        intro _ hmem
        have := joined_dropGroups_subset (L := L) addrs s' hmem
        rw [hjoined] at this
        exact absurd rfl (Finset.mem_erase.1 this).1

end DropGroups

/-! ## Operations -/

/-- The groups of the socket in slot `i` are in step, and few enough to be counted. -/
def Counted (i : ℕ) (s : Sockets (ν × Joined)) : Prop :=
  ∃ k, s.table[i]? = some (some k) ∧ k.multicast.InStep (joinedFor k.id s)
    ∧ k.multicast.groupAddr.length < 256

theorem Counted.inStep {i : ℕ} {s : Sockets (ν × Joined)} : Counted i s → GroupsInStep i s
  | ⟨k, hk, h, _⟩ => ⟨k, hk, h⟩

theorem NoGroups.counted {i : ℕ} {s : Sockets (ν × Joined)} : NoGroups i s → Counted i s
  | ⟨k, hk, hg, ha, hj⟩ => by
    have hz : k.multicast.groups = 0 := by
      rw [Multicast.groups, ha]
      rfl
    refine ⟨k, hk, ⟨?_, ?_, ?_⟩, ?_⟩
    · rw [hz]
      exact Multiset.nodup_zero
    · rw [hz, hg]
      rfl
    · rw [hz, joinedFor, hj]
      rfl
    · rw [ha]
      decide

section Operations

variable {i : ℕ} {k : AtcmdSocket} {s : Sockets (ν × Joined)} {group : Addr}

/-- The socket is stored in its slot. -/
theorem set_slot {s' : Sockets (ν × Joined)} (ht : s'.table = s.table)
    (hk : s.table[i]? = some (some k)) (k' : AtcmdSocket) :
    (s'.set i k').table[i]? = some (some k') := by
  have hi : i < s'.table.length := by
    rw [ht]
    exact (List.getElem?_eq_some_iff.1 hk).1
  exact List.getElem?_set_self hi

theorem ismulticast_ne_zero (h : ipAddrIsmulticast group = true) : group ≠ 0 := by
  rintro rfl
  exact absurd h (by decide)

/-- A group is joined and added, or neither. -/
theorem counted_add (hk : s.table[i]? = some (some k)) (h : k.multicast.InStep (joinedFor k.id s))
    (hlen : k.multicast.groupAddr.length < 256) :
    Counted i (atcmdSocketUdpMulticastAddGroupAddr_ L.tracked i k group s).2 := by
  have hsame : Counted i s := ⟨k, hk, h, hlen⟩
  unfold atcmdSocketUdpMulticastAddGroupAddr_
  split_ifs with hm hmem
  · exact hsame
  · exact hsame
  rcases hfind : k.multicast.groupAddr.findIdx? (· == 0) with _ | j
  · exact hsame
  obtain ⟨hj, hz, -⟩ := List.findIdx?_eq_some_iff_getElem.1 hfind
  have hfree : k.multicast.groupAddr[j]? = some 0 := by
    rw [List.getElem?_eq_getElem hj, beq_iff_eq.1 hz]
  obtain ⟨r, s', hc, htable, ⟨rfl, hjoined⟩ | ⟨e, rfl, hjoined⟩⟩ :=
    tracked_check (L := L) k.id (.addMembership group) 0 s
  · rw [after_add] at hjoined
    simp only [hc]
    refine ⟨_, set_slot htable hk _, ?_, by simpa using hlen⟩
    have h0 := ismulticast_ne_zero (by simpa using hm)
    exact hjoined ▸ Multicast.inStep_add h hlen hfree h0 hmem
  · simp only [hc]
    exact ⟨k, htable ▸ hk, hjoined ▸ h, hlen⟩

/-- A group is dropped and cleared, or neither. -/
theorem counted_drop (hk : s.table[i]? = some (some k)) (h : k.multicast.InStep (joinedFor k.id s))
    (hlen : k.multicast.groupAddr.length < 256) (h0 : group ≠ 0) :
    Counted i (atcmdSocketUdpMulticastDropGroupAddr_ L.tracked i k group s).2 := by
  have hsame : Counted i s := ⟨k, hk, h, hlen⟩
  unfold atcmdSocketUdpMulticastDropGroupAddr_
  rw [if_neg h0]
  split_ifs with hm
  · exact hsame
  rcases hfind : k.multicast.groupAddr.findIdx? (· == group) with _ | j
  · exact hsame
  obtain ⟨hj, hz, -⟩ := List.findIdx?_eq_some_iff_getElem.1 hfind
  have hplace : k.multicast.groupAddr[j]? = some group := by
    rw [List.getElem?_eq_getElem hj, beq_iff_eq.1 hz]
  obtain ⟨r, s', hc, htable, ⟨rfl, hjoined⟩ | ⟨e, rfl, hjoined⟩⟩ :=
    tracked_check (L := L) k.id (.dropMembership group) 0 s
  · rw [after_drop] at hjoined
    simp only [hc]
    refine ⟨_, set_slot htable hk _, ?_, by simpa using hlen⟩
    exact hjoined ▸ Multicast.inStep_drop h hplace h0
  · simp only [hc]
    exact ⟨k, htable ▸ hk, hjoined ▸ h, hlen⟩

/-- After all groups are dropped none is joined, unless the stack refused one. -/
theorem joined_dropAll (h : k.multicast.InStep (joinedFor k.id s)) :
    joinedFor k.id (dropGroups L.tracked k.id k.multicast.groupAddr s) = ∅ ↔
      refuses L k.id k.multicast.groupAddr s.lwip.net.stack.1 = false := by
  have hmem : ∀ addr, addr ∈ joinedFor k.id s ↔ addr ∈ k.multicast.groupAddr ∧ addr ≠ 0 := by
    intro addr
    rw [← h.joined, Multiset.mem_toFinset, Multicast.mem_groups]
  have hnodup : (k.multicast.groupAddr.filter (· ≠ 0)).Nodup := by
    have := h.nodup
    rwa [Multicast.groups_eq, Multiset.coe_nodup] at this
  rw [← joined_dropGroups _ hnodup fun addr ha h0 => (hmem addr).2 ⟨ha, h0⟩]
  constructor
  · intro he addr _ _
    rw [he]
    exact Finset.notMem_empty addr
  · intro hno
    refine Finset.eq_empty_of_forall_notMem fun addr ha => ?_
    obtain ⟨htable, h0⟩ := (hmem addr).1 (joined_dropGroups_subset _ _ ha)
    exact hno addr htable h0 ha

/-- All groups are cleared, and in step then unless the stack refused to drop one. -/
theorem dropAll_inStep (hk : s.table[i]? = some (some k))
    (h : k.multicast.InStep (joinedFor k.id s)) (hlen : k.multicast.groupAddr.length < 256) :
    let s' := (atcmdSocketUdpMulticastDropGroupAddr_ L.tracked i k 0 s).2
    (refuses L k.id k.multicast.groupAddr s.lwip.net.stack.1 = false → Counted i s')
      ∧ (GroupsInStep i s' → refuses L k.id k.multicast.groupAddr s.lwip.net.stack.1 = false) := by
  have hz := Multicast.groups_zero (m := k.multicast) 0
  unfold atcmdSocketUdpMulticastDropGroupAddr_
  rw [if_pos rfl, ← joined_dropAll h]
  have hslot := set_slot (dropGroups_table (L := L.tracked) k.id k.multicast.groupAddr s) hk
    { k with multicast := { k.multicast with
        groupAddr := k.multicast.groupAddr.map fun _ => 0, group := 0 } }
  refine ⟨fun he => ⟨_, hslot, ⟨?_, ?_, ?_⟩, ?_⟩, ?_⟩
  · rw [hz]
    exact Multiset.nodup_zero
  · rw [hz]
    rfl
  · rw [hz]
    exact he.symm
  · simpa using hlen
  · rintro ⟨k', hk', hin⟩
    obtain rfl := Option.some.inj (Option.some.inj (hslot.symm.trans hk'))
    have := hin.joined
    rw [hz] at this
    exact this.symm

end Operations

/-- `AT+SMCAST` joins and drops as here, or sends help or nothing. -/
theorem multicastSet_step {ν : Type*} (L : Lwip ν) (a : Args) (s : Sockets ν) :
    (∃ ms, (atcmdSocketUdpMulticastSet_ L a s).2 = s.emits ms)
      ∨ ∃ i op, multicastStep L i s op = some (atcmdSocketUdpMulticastSet_ L a s).2 := by
  have hnone : ∃ ms, s = s.emits ms := ⟨[], by simp [Sockets.emits]⟩
  unfold atcmdSocketUdpMulticastSet_
  split
  · exact .inl ⟨_, rfl⟩
  · split_ifs with hid
    · exact .inl hnone
    split
    · rename_i i k add hk hmode
      by_cases hp : k.protocol = .tcp
      · rw [if_pos hp]
        exact .inl hnone
      rw [if_neg hp]
      rcases multicastGroup L add _ with _ | addr
      · exact .inl hnone
      · refine .inr ⟨i, if add then .add addr else .drop addr, ?_⟩
        rw [multicastStep, searchId_getElem hk]
        cases add <;> rfl
    · exact .inl hnone
  · exact .inl hnone

/-! ## Runs -/

/-- An operation whose stack refuses no group that all groups are dropped with keeps them in step,
and another one does not. -/
theorem groupsStep_counted {i : ℕ} {s : Sockets (ν × Joined)} (m : MulticastOp × ν)
    (h : Counted i s) :
    ∃ s', groupsStep L i s m = some s'
      ∧ (GroupsLeft L i s m → Counted i s') ∧ (GroupsInStep i s' → GroupsLeft L i s m) := by
  obtain ⟨k, hk, hin, hlen⟩ := h
  obtain ⟨op, x⟩ := m
  have hk' : (s.moved x).table[i]? = some (some k) := hk
  have hin' : k.multicast.InStep (joinedFor k.id (s.moved x)) := hin
  have hleft : GroupsLeft L i s (op, x) ↔
      (op = .drop 0 → refuses L k.id k.multicast.groupAddr x = false) := by
    constructor
    · intro h
      exact h k hk
    · intro h k₂ hk₂
      obtain rfl := Option.some.inj (Option.some.inj (hk.symm.trans hk₂))
      exact h
  rw [hleft]
  unfold groupsStep multicastStep
  simp only [hk']
  rcases op with group | group
  · refine ⟨_, rfl, fun _ => counted_add hk' hin' hlen, fun _ => ?_⟩
    nofun
  · by_cases h0 : group = 0
    · subst h0
      obtain ⟨hkeep, hleave⟩ := dropAll_inStep (L := L) hk' hin' hlen
      exact ⟨_, rfl, fun h => hkeep (h rfl), fun h _ => hleave h⟩
    · refine ⟨_, rfl, fun _ => counted_drop hk' hin' hlen h0, fun _ h => ?_⟩
      exact absurd (MulticastOp.drop.inj h) h0

/-- In every state that joins and drops lead to, the groups of the socket are in step with the
stack, exactly if they are never all dropped while the stack refuses to drop one of them. -/
theorem multicast_groups_iff (L : Lwip ν) {i : ℕ} {s : Sockets (ν × Joined)} (h : NoGroups i s)
    (ms : List (MulticastOp × ν)) :
    (∀ js s', js <+: ms → run (groupsStep L i) s js = some s' → GroupsInStep i s') ↔
      Along (groupsStep L i) (GroupsLeft L i) s ms := by
  refine along_iff (I := Counted i) (fun s => Counted.inStep) ?_ ?_ ms s h.counted
  · intro s m s' hI hC hs
    obtain ⟨s₂, hs₂, hkeep, -⟩ := groupsStep_counted m hI
    obtain rfl := Option.some.inj (hs.symm.trans hs₂)
    exact hkeep hC
  · intro s m hI hC
    obtain ⟨s', hs', -, hleave⟩ := groupsStep_counted m hI
    exact ⟨s', hs', fun hP => hC (hleave hP)⟩

/-- A stack that drops no group. -/
def keepGroups : Lwip QueueStack :=
  { queueLwip with
    setsockopt := fun _ o _ x =>
      match o with
      | .dropMembership _ => (.error .enobufs, x)
      | _ => (.ok (), x) }

/-- `AT+SOPEN="UDP",5000` on a stack. -/
def udpSocket (L : Lwip QueueStack) : Sockets (QueueStack × Joined) :=
  (atcmdSocketOpenSet_ L.tracked (argsOf [bytes "\"UDP\"", bytes "5000"])
    (.boot 8 true (⟨[], [], true⟩, fun _ => ∅))).2

/-- A group is joined and dropped. -/
theorem multicast_groups_iff_udp : ∃ s', run (groupsStep queueLwip 0) (udpSocket queueLwip)
    [(.add 0xef010203, ⟨[], [], true⟩), (.drop 0, ⟨[], [], true⟩)] = some s'
      ∧ GroupsInStep 0 s' := by
  have hall := (multicast_groups_iff queueLwip (i := 0) (s := udpSocket queueLwip)
    ⟨_, rfl, rfl, rfl, rfl⟩ [(.add 0xef010203, ⟨[], [], true⟩), (.drop 0, ⟨[], [], true⟩)]).2 ?_
  · obtain ⟨s', hs'⟩ : ∃ s', run (groupsStep queueLwip 0) (udpSocket queueLwip)
      [(.add 0xef010203, ⟨[], [], true⟩), (.drop 0, ⟨[], [], true⟩)] = some s' := ⟨_, rfl⟩
    exact ⟨s', hs', hall _ s' List.prefix_rfl hs'⟩
  · refine ⟨nofun, fun s₁ h₁ => ⟨fun k hk _ => ?_, fun _ _ => trivial⟩⟩
    obtain rfl := Option.some.inj h₁
    obtain rfl := Option.some.inj (Option.some.inj hk)
    rfl

/-- A group is joined, and then all are dropped from the table but not from the stack. -/
theorem multicast_groups_kept : ¬ ∀ js s',
    js <+: [(.add 0xef010203, ⟨[], [], true⟩), (.drop 0, ⟨[], [], true⟩)] →
      run (groupsStep keepGroups 0) (udpSocket keepGroups) js = some s' → GroupsInStep 0 s' := by
  intro h
  obtain ⟨k, hk, hin⟩ := h _ _ List.prefix_rfl rfl
  obtain rfl := Option.some.inj (Option.some.inj hk)
  exact absurd hin.joined (by decide)

end NrcAtcmd
