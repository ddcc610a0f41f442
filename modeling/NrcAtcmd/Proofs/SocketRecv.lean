import NrcAtcmd.Proofs.SocketCommand
import NrcAtcmd.SocketRecv

/-!
# Receiving comes to an end

A pass of the loop of `_atcmd_socket_recv_handler` goes on with what its receive did not return.
`__atcmd_socket_recv_handler` returns zero both for no data and for `EWOULDBLOCK`, and the loop
leaves only for an error, so a pass without data is tried again with nothing changed. And a receive
that cuts a datagram looks like one that does not.
-/

namespace NrcAtcmd

open Machine

variable {ν : Type*} {L : Lwip ν}

theorem searchId_id {id : ℕ} {i : ℕ} {k : AtcmdSocket} :
    ∀ {t : List (Option AtcmdSocket)}, atcmdSocketSearchId_ id t = some (i, k) → k.id = id
  | some k' :: t, h => by
    unfold atcmdSocketSearchId_ at h
    split_ifs at h with hid
    · cases h
      omega
    · obtain ⟨⟨j, k''⟩, hj, heq⟩ := Option.map_eq_some_iff.1 h
      cases heq
      exact searchId_id hj
  | none :: t, h => by
    unfold atcmdSocketSearchId_ at h
    obtain ⟨⟨j, k''⟩, hj, heq⟩ := Option.map_eq_some_iff.1 h
    cases heq
    exact searchId_id hj

theorem recvAsked_le (left : ℕ) : recvAsked left ≤ left ∧ recvAsked left ≤ atcmdDataLenMax :=
  ⟨Nat.min_le_left _ _, Nat.min_le_right _ _⟩

theorem recvsNothing_iff {id len : ℕ} {s : Sockets ν} (hlen : len ≤ atcmdDataLenMax) :
    RecvsNothing L id (len : ℕ) s ↔ (atcmdSocketSearchId_ id s.table).isSome = true
      ∧ isNothing (lwipSocketRecv__ L id len s.lwip).1 = true := by
  unfold RecvsNothing
  rw [Int.toNat_natCast, Nat.min_eq_left hlen]

/-- A socket that is not there is an error. -/
theorem recvHandler_none {now : UInt32} {id : ℕ} {len : ℤ} {s : Sockets ν}
    (h : atcmdSocketSearchId_ id s.table = none) :
    atcmdSocketRecvHandler__ L now id len false s = (.error .einval, s) := by
  unfold atcmdSocketRecvHandler__
  rw [h]

/-- What the handler does of a socket that is there. -/
theorem recvHandler_some (now : UInt32) {id i len : ℕ} {k : AtcmdSocket} {s : Sockets ν}
    (h : atcmdSocketSearchId_ id s.table = some (i, k)) (hlen : len ≤ atcmdDataLenMax) :
    isNothing (lwipSocketRecv__ L id len s.lwip).1 = true
      ∧ (atcmdSocketRecvHandler__ L now id len false s).1 = .ok 0
      ∧ (atcmdSocketRecvHandler__ L now id len false s).2.out = s.out
    ∨ (∃ e, e ≠ .eagain ∧ (lwipSocketRecv__ L id len s.lwip).1 = .error e
      ∧ (atcmdSocketRecvHandler__ L now id len false s).1 = .error e)
    ∨ ∃ data remote, data ≠ [] ∧ (lwipSocketRecv__ L id len s.lwip).1 = .ok (data, remote)
      ∧ (atcmdSocketRecvHandler__ L now id len false s).1 = .ok data.length
      ∧ ∃ sender, (atcmdSocketRecvHandler__ L now id len false s).2.out
        = s.out ++ [.rxd id sender data] := by
  unfold atcmdSocketRecvHandler__
  rw [h]
  simp only
  rw [if_neg (by omega), Int.toNat_natCast, Nat.min_eq_left hlen]
  rcases hr : (lwipSocketRecv__ L id len s.lwip) with ⟨e | ⟨data, remote⟩, w⟩
  · by_cases he : e = .eagain
    · left
      subst he
      exact ⟨rfl, rfl, rfl⟩
    · right
      left
      refine ⟨e, he, rfl, ?_⟩
      simp only
      unfold atcmdSocketRecvError
      rw [if_neg he]
      split_ifs <;> rfl
  · by_cases hdata : data = []
    · left
      subst hdata
      exact ⟨rfl, rfl, rfl⟩
    · right
      right
      refine ⟨data, remote, hdata, rfl, ?_, ?_⟩
      · simp only [if_neg hdata]
      · simp only [if_neg hdata]
        unfold atcmdSocketRecvSome
        rw [searchId_id h]
        exact ⟨_, rfl⟩

/-- A datagram that is taken is what the receive returns, up to what was asked for. -/
theorem takenDatagram_some {D : Datagrams L} {id len : ℕ} {s : Sockets ν} {d : Bytes}
    (h : takenDatagram L D id len s = some d) :
    (∃ p, atcmdSocketSearchId_ id s.table = some p)
      ∧ ∃ remote, (lwipSocketRecv__ L id len s.lwip).1 = .ok (d.take len, remote) := by
  unfold takenDatagram at h
  split at h
  · rename_i p type w hp htype
    refine ⟨⟨p, hp⟩, ?_⟩
    unfold lwipSocketRecv__
    rw [htype]
    simp only
    rcases hr : w.call (L.recvfrom id len) with ⟨e | ⟨data, remote⟩, w'⟩
    · rw [hr] at h
      cases h
    · rw [hr] at h
      simp only at h ⊢
      refine ⟨if type = .udp then some remote else none, ?_⟩
      have hdata : (L.recvfrom id len w.net.stack).1 = .ok (data, remote) := by
        have := congrArg Prod.fst hr
        exact this
      rw [D.recvfrom_take h hdata]
  · cases h

/-- What a pass is to do, and when it does. -/
theorem pass_iff (D : Datagrams L) (now : UInt32) (id left : ℕ) (s : Sockets ν) :
    ((∀ left' ∈ recvLeft left
        (atcmdSocketRecvHandler__ L now id (recvAsked left : ℕ) false s).1, left' < left)
      ∧ ∀ d ∈ takenDatagram L D id (recvAsked left) s, ∃ remote,
        (atcmdSocketRecvHandler__ L now id (recvAsked left : ℕ) false s).2.out
          = s.out ++ [.rxd id remote d])
    ↔ (0 < left → ¬ RecvsNothing L id (recvAsked left : ℕ) s)
      ∧ ∀ d ∈ takenDatagram L D id (recvAsked left) s, d ≠ [] ∧ d.length ≤ recvAsked left := by
  obtain ⟨hleft, hmax⟩ := recvAsked_le left
  rw [recvsNothing_iff hmax]
  rcases hk : atcmdSocketSearchId_ id s.table with _ | ⟨i, k⟩
  · have htaken : takenDatagram L D id (recvAsked left) s = none := by
      rcases ht : takenDatagram L D id (recvAsked left) s with _ | d
      · rfl
      · obtain ⟨⟨p, hp⟩, -⟩ := takenDatagram_some ht
        rw [hk] at hp
        cases hp
    rw [recvHandler_none hk, htaken]
    simp [recvLeft]
  rcases recvHandler_some now hk hmax with ⟨hnothing, hret, hout⟩ | ⟨e, he, hr, hret⟩
    | ⟨data, remote, hdata, hr, hret, sender, hout⟩
  · -- nothing: the pass goes on where it was, and a datagram is lost
    rw [hret, hout]
    constructor
    · rintro ⟨hless, hall⟩
      refine ⟨fun hpos => ?_, fun d hd => ?_⟩
      · have := hless left (by simp [recvLeft, hpos])
        omega
      · obtain ⟨remote, h⟩ := hall d hd
        simp at h
    · rintro ⟨hnot, hall⟩
      refine ⟨fun left' h => ?_, fun d hd => ?_⟩
      · rcases Nat.eq_zero_or_pos left with rfl | hpos
        · simp [recvLeft] at h
        · exact absurd ⟨rfl, hnothing⟩ (hnot hpos)
      · obtain ⟨hne, hfit⟩ := hall d hd
        obtain ⟨-, remote, hr⟩ := takenDatagram_some hd
        rw [List.take_of_length_le hfit] at hr
        rw [hr] at hnothing
        exact absurd (List.isEmpty_iff.1 hnothing) hne
  · -- an error: the loop is left, and no datagram was taken
    have htaken : takenDatagram L D id (recvAsked left) s = none := by
      rcases ht : takenDatagram L D id (recvAsked left) s with _ | d
      · rfl
      · obtain ⟨-, remote, hr'⟩ := takenDatagram_some ht
        rw [hr] at hr'
        cases hr'
    rw [hret, htaken]
    refine iff_of_true ⟨by simp [recvLeft], by simp⟩ ⟨fun _ h => he ?_, by simp⟩
    rw [hr] at h
    exact of_decide_eq_true h.2
  · -- data: the pass has less left, and the datagram is whole if it was not cut
    have hpos : 0 < data.length := List.length_pos_iff.2 hdata
    rw [hret, hout]
    have hless : ∀ left' ∈ recvLeft left (.ok data.length), left' < left := by
      intro left' h
      unfold recvLeft at h
      simp only at h
      split_ifs at h with hlt
      · cases h
        omega
      · cases h
    have hnot : ¬ ((some (i, k)).isSome = true
        ∧ isNothing (lwipSocketRecv__ L id (recvAsked left) s.lwip).1 = true) := by
      rintro ⟨-, h⟩
      rw [hr] at h
      exact hdata (List.isEmpty_iff.1 h)
    constructor
    · rintro ⟨-, hall⟩
      refine ⟨fun _ => hnot, fun d hd => ?_⟩
      obtain ⟨-, remote', hr'⟩ := takenDatagram_some hd
      rw [hr] at hr'
      cases hr'
      obtain ⟨_, h⟩ := hall d hd
      simp only [List.append_cancel_left_eq, List.cons.injEq, Msg.rxd.injEq, and_true,
        true_and] at h
      refine ⟨fun hnil => hdata (by rw [hnil, List.take_nil]), ?_⟩
      have hlen := congrArg List.length h.2
      rw [List.length_take] at hlen
      omega
    · rintro ⟨-, hall⟩
      refine ⟨hless, fun d hd => ?_⟩
      obtain ⟨-, hfit⟩ := hall d hd
      obtain ⟨-, remote', hr'⟩ := takenDatagram_some hd
      rw [hr, List.take_of_length_le hfit] at hr'
      cases hr'
      exact ⟨sender, rfl⟩

theorem delivers_iff (D : Datagrams L) (now : UInt32) (id : ℕ) (t : RecvTask ν) (x : ν) :
    RecvDelivers L D now id t x ↔ RecvFits L D id t x := by
  obtain ⟨s, _ | left⟩ := t
  · exact iff_of_true (fun _ h => by cases h) (fun _ h => by cases h)
  · have hpass := pass_iff D now id left (s.withStack x)
    constructor
    · intro h left' hleft
      cases hleft
      exact hpass.1 (h left rfl _ rfl)
    · intro h left' hleft t' ht'
      cases hleft
      cases ht'
      exact hpass.2 (h left rfl)

/-- How many passes a handler makes that each leave less to receive. -/
def RecvTask.work (t : RecvTask ν) : ℕ := t.left.elim 0 (max 1)

theorem recvLeft_pos {left left' : ℕ} {ret : Except Errno ℕ}
    (h : recvLeft left ret = some left') : 0 < left' := by
  unfold recvLeft at h
  split at h
  · split_ifs at h
    cases h
    omega
  · cases h

theorem RecvDelivers.work {D : Datagrams L} {now : UInt32} {id : ℕ} {t t' : RecvTask ν} {x : ν}
    (h : RecvDelivers L D now id t x) (hs : recvPass L now id t x = some t') :
    t'.work < t.work := by
  obtain ⟨left, hleft, hpass⟩ := Option.map_eq_some_iff.1 hs
  obtain ⟨hless, -⟩ := h left hleft t' hs
  unfold RecvTask.work
  rw [hleft]
  rcases hleft' : t'.left with _ | left'
  · exact Nat.lt_of_lt_of_le Nat.zero_lt_one (Nat.le_max_left _ _)
  · have hlt := hless left' hleft'
    have hpos : 0 < left' := by
      rw [← hpass] at hleft'
      exact recvLeft_pos hleft'
    simp only [Option.elim_some]
    omega

/-- The handler ends within as many passes as bytes were announced, each of which leaves less to
receive, and tells the host of every datagram whole, exactly if no pass of its loop receives
nothing, and every datagram has data and fits. -/
theorem recv_iff (D : Datagrams L) {now : UInt32} {id len : ℕ} {s : Sockets ν} {xs : List ν}
    {t : RecvTask ν} (hr : run (recvPass L now id) ⟨s, some len⟩ xs = some t) :
    (xs.length ≤ max 1 len
      ∧ Along (recvPass L now id) (RecvDelivers L D now id) ⟨s, some len⟩ xs)
    ↔ Along (recvPass L now id) (RecvFits L D id) ⟨s, some len⟩ xs := by
  rw [← along_congr fun t x => delivers_iff D now id t x]
  refine ⟨fun h => h.2, fun h => ⟨?_, h⟩⟩
  have hlen := run_length_le (P := fun _ => True)
    (fun _ _ _ _ h hs => ⟨trivial, RecvDelivers.work h hs⟩) trivial h hr
  exact (Nat.le_add_right _ _).trans hlen

/-- The datagrams of `queueLwip`. -/
def queueDatagrams : Datagrams queueLwip where
  next fd x := (x.datagrams.find? (·.1 = fd)).map (·.2.1)
  recvfrom_take {fd len x data a d} hd h := by
    simp only [queueLwip] at h
    split at h
    · rename_i hfind
      rw [hfind] at hd
      cases hd
      cases h
      rfl
    · cases h

/-- `AT+SOPEN="UDP",5000`. -/
def activeUdp : Sockets QueueStack :=
  (atcmdSocketOpenSet_ queueLwip (argsOf [bytes "\"UDP\"", bytes "5000"])
    (.boot 8 true ⟨[], [], true⟩)).2

theorem recv_iff_three : ∃ t,
    run (recvPass queueLwip 0 0) ⟨activeUdp, some 3⟩ [⟨[(0, bytes "abc", 0, 7)], [], true⟩] = some t
      ∧ t.left = none ∧ Along (recvPass queueLwip 0 0) (RecvDelivers queueLwip queueDatagrams 0 0)
        ⟨activeUdp, some 3⟩ [⟨[(0, bytes "abc", 0, 7)], [], true⟩] := by
  obtain ⟨t, hr, hleft⟩ := Option.map_eq_some_iff.1 (show
    (run (recvPass queueLwip 0 0) ⟨activeUdp, some 3⟩ [⟨[(0, bytes "abc", 0, 7)], [], true⟩]).map
      (·.left) = some none by decide +kernel)
  refine ⟨t, hr, hleft, ((recv_iff queueDatagrams hr).2 ⟨fun left h => ?_, fun _ _ => trivial⟩).2⟩
  cases h
  exact ⟨fun _ => by decide +kernel, by decide +kernel⟩

/-- `EWOULDBLOCK` for ever: the loop never ends. -/
theorem recv_for_ever : ∃ t : RecvTask QueueStack, t.left = some 5
    ∧ (∀ n, run (recvPass queueLwip 0 0) t (List.replicate n ⟨[], [], true⟩) = some t)
    ∧ ¬ RecvDelivers queueLwip queueDatagrams 0 0 t ⟨[], [], true⟩ := by
  have hstep : recvPass queueLwip 0 0 ⟨activeUdp, some 5⟩ ⟨[], [], true⟩
      = some ⟨activeUdp, some 5⟩ := rfl
  refine ⟨⟨activeUdp, some 5⟩, rfl, fun n => ?_, fun h => ?_⟩
  · induction n with
    | zero => rfl
    | succ n ih =>
      rw [List.replicate_succ, run_cons_eq_some]
      exact ⟨_, hstep, ih⟩
  · exact absurd ((h 5 rfl _ hstep).1 5 rfl) (Nat.lt_irrefl 5)

/-- Of a datagram of five bytes, when three were announced, the host is told three. -/
example : (run (recvPass queueLwip 0 0) ⟨activeUdp, some 3⟩
    [⟨[(0, bytes "abcde", 0, 7)], [], true⟩]).map (·.s.out)
      = some (activeUdp.out ++ [.rxd 0 none (bytes "abc")]) := by decide +kernel

/-! ## The loop of the handler -/

/-- A pass of the loop is a pass of the handler on the stack as it is. -/
theorem recvLoop_pass (now : UInt32) {id left : ℕ} {s : Sockets ν}
    (h : s.reading = some (id, left)) : ∃ t, recvPass L now id ⟨s, some left⟩ s.lwip.net.stack
        = some t
      ∧ atcmdSocketRecvLoop L now s = { t.s with reading := t.left.map (id, ·) } := by
  refine ⟨_, rfl, ?_⟩
  have hs : s.withStack s.lwip.net.stack = s := rfl
  simp only [atcmdSocketRecvLoop, h, hs, recvAsked]
  rcases atcmdSocketRecvHandler__ L now id (min left atcmdDataLenMax : ℕ) false s with ⟨e | n, s'⟩
  · rfl
  · simp only [recvLeft]
    split_ifs <;> rfl

/-- The handler begins its loop with what lwIP announced, and without it receives once. -/
theorem recvHandler_pass (now : UInt32) {id : ℕ} {s : Sockets ν} (hid : id < s.table.length)
    (hactive : s.recv.passive = false) :
    ∀ len, (s.call (L.fionread id)).1 = .ok len → atcmdSocketRecvHandler_ L now id s =
      if len = 0 then (atcmdSocketRecvHandler__ L now id 0 false (s.call (L.fionread id)).2).2
      else { (s.call (L.fionread id)).2 with reading := some (id, len) } := by
  intro len hlen
  unfold atcmdSocketRecvHandler_
  rw [if_neg (by omega)]
  have hpassive : (s.call (L.fionread id)).2.recv.passive = false := hactive
  rcases hcall : s.call (L.fionread id) with ⟨r, s'⟩
  rw [hcall] at hlen hpassive
  cases hlen
  change s'.recv.passive = false at hpassive
  rcases len with _ | len
  · rfl
  · simp only [hpassive, Bool.false_eq_true, if_false, Nat.succ_ne_zero]

end NrcAtcmd
