import Mathlib.Tactic.Ring
import NrcAtcmd.SocketSend

/-!
# The bytes of a block

What lwIP took and where the two loops are agree until a datagram fails after an earlier one of the
same call of `__lwip_socket_send` was sent: the call returns the failure, the bytes before are not
counted, and they are sent again or not reported. From then on lwIP has taken more than is counted.
-/

namespace NrcAtcmd

open Machine

variable {b : SendBlock}

/-- `i` of the loop of `__atcmd_socket_send_data`. -/
def SendLoop.count : SendLoop → ℕ
  | .more i _ | .close _ i | .done _ i => i

/-- The next byte to send. -/
def BlockSend.pos (s : BlockSend) : ℕ := s.loop.count + s.i

/-- How much is left to do. -/
def BlockSend.work (len : ℕ) (s : BlockSend) : ℕ :=
  match s.loop with
  | .more n retry => ((len - n) + (sendRetryMax - retry)) * (len + 1) + (len - s.pos) + 1
  | _ => 0

/-- Where the two loops may be. -/
structure BlockSend.Bounds (b : SendBlock) (s : BlockSend) : Prop where
  more : ∀ n retry, s.loop = .more n retry → s.pos < b.data.length ∧ retry < sendRetryMax
  ended : (∀ n retry, s.loop ≠ .more n retry) → s.i = 0 ∧ s.pos ≤ b.data.length
  stream : b.socket.protocol = .tcp → s.i = 0
  addressed : 0 < s.i → b.Addressed

theorem next_spec {len n retry : ℕ} {ret : Except Errno ℕ} (hn : n < len)
    (hretry : retry < sendRetryMax) (hle : n + sentCount ret ≤ len) :
    ((SendLoop.more n retry).next len ret).count = n + sentCount ret
      ∧ ∀ n' retry', (SendLoop.more n retry).next len ret = .more n' retry' →
        n' < len ∧ retry' < sendRetryMax
          ∧ (len - n') + (sendRetryMax - retry') < (len - n) + (sendRetryMax - retry) := by
  rcases ret with e | m
  · simp only [SendLoop.next, sentCount]
    split_ifs with hcloses hretries
    · exact ⟨rfl, by simp⟩
    · refine ⟨rfl, ?_⟩
      simp only [Bool.and_eq_true, decide_eq_true_eq] at hretries
      rintro n' retry' h
      cases h
      omega
    · exact ⟨rfl, by simp⟩
  · rcases m with _ | m
    · exact ⟨rfl, by simp [SendLoop.next]⟩
    · simp only [SendLoop.next, sentCount]
      split_ifs with hlt
      · refine ⟨rfl, ?_⟩
        rintro n' retry' h
        cases h
        omega
      · exact ⟨rfl, by simp⟩

/-- A call of `__lwip_socket_send` has returned. -/
theorem BlockSend.Bounds.returned {n retry : ℕ} (i : ℕ) (taken taken' : Bytes)
    (ret : Except Errno ℕ) (hn : n < b.data.length) (hretry : retry < sendRetryMax)
    (hle : n + sentCount ret ≤ b.data.length) :
    let s' : BlockSend := ⟨(SendLoop.more n retry).next b.data.length ret, 0, taken'⟩
    s'.Bounds b ∧ s'.pos = n + sentCount ret
      ∧ s'.work b.data.length < BlockSend.work b.data.length ⟨.more n retry, i, taken⟩ := by
  intro s'
  obtain ⟨hcount, hmore⟩ := next_spec hn hretry hle
  refine ⟨⟨fun n' retry' h => ?_, fun _ => ⟨rfl, ?_⟩, fun _ => rfl, fun h => absurd h (by simp [s'])⟩,
    hcount, ?_⟩
  · obtain ⟨hlt, hretry', -⟩ := hmore n' retry' h
    refine ⟨?_, hretry'⟩
    unfold BlockSend.pos
    rw [h]
    exact hlt
  · unfold BlockSend.pos
    simp only [s', hcount]
    omega
  · unfold BlockSend.work
    rcases hloop : s'.loop with ⟨n', retry'⟩ | _ | _
    · obtain ⟨-, -, hwork⟩ := hmore n' retry' hloop
      simp only
      have hmul := Nat.mul_le_mul_right (b.data.length + 1) (Nat.succ_le_of_lt hwork)
      rw [Nat.succ_mul] at hmul
      omega
    · simp
    · simp

theorem take_offered {pos m : ℕ} (hm : m ≤ (b.offered pos).length) :
    (b.offered pos).take m = (b.data.drop pos).take m ∧ m ≤ b.data.length - pos := by
  unfold SendBlock.offered at *
  generalize b.socket.protocol = type at hm ⊢
  cases type
  · simp only [List.length_take, List.length_drop] at hm ⊢
    rw [List.take_take, Nat.min_eq_left (by omega)]
    exact ⟨rfl, by omega⟩
  · rw [List.length_drop] at hm
    exact ⟨rfl, hm⟩

/-- A send goes on to the next datagram, or ends the call with what all its sends took, or with an
error. -/
theorem lwipSocketSend_spec (len i : ℕ) (type : SocketProto) (ret : Except Errno ℕ)
    (htcp : type = .tcp → i = 0) (hle : i + sentCount ret ≤ len) :
    (type = .udp ∧ 0 < sentCount ret ∧ i + sentCount ret < len
        ∧ lwipSocketSend__ len i type ret = .more (i + sentCount ret))
      ∨ (∃ e, ret = .error e ∧ lwipSocketSend__ len i type ret = .done (.error e))
      ∨ ∃ m, ret = .ok m ∧ lwipSocketSend__ len i type ret = .done (.ok (i + m)) := by
  rcases ret with e | _ | m
  · right
    left
    cases type <;> exact ⟨e, rfl, rfl⟩
  · right
    right
    refine ⟨0, rfl, ?_⟩
    cases type
    · rfl
    · rw [htcp rfl]
      rfl
  · simp only [sentCount] at hle ⊢
    cases type
    · simp only [lwipSocketSend__]
      by_cases hlt : i + (m + 1) < len
      · left
        rw [if_pos hlt]
        exact ⟨trivial, Nat.succ_pos m, hlt, rfl⟩
      · right
        right
        rw [if_neg hlt]
        refine ⟨m + 1, rfl, ?_⟩
        congr 2
        omega
    · right
      right
      refine ⟨m + 1, rfl, ?_⟩
      rw [htcp rfl, Nat.zero_add]
      rfl

/-- A call of lwIP brings the loops nearer to their end. It moves them by what was taken, or back to
where the call of `__lwip_socket_send` began. -/
theorem BlockSend.Bounds.step {s s' : BlockSend} {a : LwipAnswer} (h : s.Bounds b)
    (hs : blockStep b s a = some s') :
    s'.Bounds b ∧ s'.work b.data.length < s.work b.data.length
      ∧ (Uncounted s a → s'.taken = s.taken ∧ s'.pos < s.pos)
      ∧ (¬ Uncounted s a → ∃ m, s'.pos = s.pos + m
        ∧ s'.taken = s.taken ++ (b.data.drop s.pos).take m) := by
  obtain ⟨loop, i, taken⟩ := s
  unfold blockStep at hs
  rcases loop with ⟨n, retry⟩ | _ | _
  rotate_left
  · cases hs
  · cases hs
  obtain ⟨hpos, hretry⟩ := h.more n retry rfl
  change n + i < b.data.length at hpos
  cases a with
  | refused e =>
    simp only [Option.ite_none_right_eq_some, Option.some.injEq] at hs
    obtain ⟨rfl, rfl⟩ := hs
    obtain ⟨hb, hpos', hwork⟩ := BlockSend.Bounds.returned (b := b) 0 taken taken (.error e) hpos
      hretry (Nat.le_of_lt hpos)
    refine ⟨hb, hwork, fun hu => absurd hu id, fun _ => ⟨0, hpos', by simp⟩⟩
  | sent ret =>
    simp only [Option.ite_none_right_eq_some, Option.some.injEq] at hs
    obtain ⟨⟨haddr, hle⟩, rfl⟩ := hs
    obtain ⟨htake, hroom⟩ := take_offered hle
    rw [htake]
    rcases lwipSocketSend_spec (b.data.length - n) i b.socket.protocol ret h.stream (by omega)
      with ⟨htype, hm, hlt, hsend⟩ | ⟨e, rfl, hsend⟩ | ⟨m, rfl, hsend⟩
    · rw [hsend]
      refine ⟨⟨?_, by simp, ?_, fun _ => haddr⟩, ?_, ?_, fun _ => ⟨sentCount ret, ?_, rfl⟩⟩
      · rintro n' retry' hloop
        cases hloop
        refine ⟨?_, hretry⟩
        simp only [BlockSend.pos, SendLoop.count]
        omega
      · intro htcp
        rw [htype] at htcp
        cases htcp
      · simp only [BlockSend.work, BlockSend.pos, SendLoop.count]
        omega
      · intro hu
        cases ret with
        | ok m => exact absurd hu id
        | error e => exact absurd hm (Nat.lt_irrefl 0)
      · simp only [BlockSend.pos, SendLoop.count]
        omega
    · rw [hsend]
      obtain ⟨hb, hpos', hwork⟩ := BlockSend.Bounds.returned (b := b) (n := n) i taken
        (taken ++ (b.data.drop (n + i)).take 0) (.error e) (by omega) hretry
        (by simp only [sentCount]; omega)
      refine ⟨hb, hwork, fun hu => ⟨by simp [sentCount], ?_⟩, fun hu => ⟨0, ?_, rfl⟩⟩
      · exact hpos'.trans_lt (Nat.lt_add_of_pos_right hu)
      · have hi : i = 0 := Nat.eq_zero_of_not_pos hu
        rw [hi]
        exact hpos'
    · rw [hsend]
      simp only [sentCount] at hroom
      obtain ⟨hb, hpos', hwork⟩ := BlockSend.Bounds.returned (b := b) (n := n) i taken
        (taken ++ (b.data.drop (n + i)).take m) (.ok (i + m)) (by omega) hretry
        (by simp only [sentCount]; omega)
      refine ⟨hb, hwork, fun hu => absurd hu id, fun _ => ⟨m, ?_, rfl⟩⟩
      exact hpos'.trans (Nat.add_assoc n i m).symm

theorem start_bounds : (blockStart b).Bounds b ∧ (blockStart b).pos = 0
    ∧ (blockStart b).work b.data.length ≤ b.callsMax := by
  unfold blockStart SendLoop.start
  split_ifs with h0
  · refine ⟨⟨by simp, by simp [BlockSend.pos, SendLoop.count], by simp, by simp⟩, rfl, ?_⟩
    exact Nat.zero_le _
  · refine ⟨⟨?_, by simp, by simp, by simp⟩, rfl, ?_⟩
    · rintro n retry h
      cases h
      exact ⟨Nat.pos_of_ne_zero h0, by decide⟩
    · exact Nat.le_refl _

/-! ## A run -/

/-- lwIP took what is counted. -/
def BlockSend.Exact (b : SendBlock) (s : BlockSend) : Prop :=
  s.Bounds b ∧ s.taken = b.data.take s.pos

/-- lwIP took more than is counted. -/
def BlockSend.Excess (b : SendBlock) (s : BlockSend) : Prop :=
  s.Bounds b ∧ s.pos < s.taken.length

theorem BlockSend.Bounds.pos_le {s : BlockSend} (h : s.Bounds b) : s.pos ≤ b.data.length := by
  rcases hloop : s.loop with ⟨n, retry⟩ | _ | _
  · exact Nat.le_of_lt (h.more n retry hloop).1
  · exact (h.ended (by simp [hloop])).2
  · exact (h.ended (by simp [hloop])).2

theorem BlockSend.Exact.step {s s' : BlockSend} {a : LwipAnswer} (h : s.Exact b)
    (hu : ¬ Uncounted s a) (hs : blockStep b s a = some s') : s'.Exact b := by
  obtain ⟨hb, htaken⟩ := h
  obtain ⟨hb', -, -, hmoves⟩ := hb.step hs
  obtain ⟨m, hpos, htaken'⟩ := hmoves hu
  refine ⟨hb', ?_⟩
  rw [htaken', htaken, hpos, List.take_add]

theorem BlockSend.Exact.uncounted {s s' : BlockSend} {a : LwipAnswer} (h : s.Exact b)
    (hu : ¬ ¬ Uncounted s a) (hs : blockStep b s a = some s') : s'.Excess b := by
  obtain ⟨hb, htaken⟩ := h
  obtain ⟨hb', -, hback, -⟩ := hb.step hs
  obtain ⟨htaken', hpos⟩ := hback (not_not.1 hu)
  refine ⟨hb', ?_⟩
  rw [htaken', htaken, List.length_take, Nat.min_eq_left hb.pos_le]
  exact hpos

theorem BlockSend.Excess.step {s s' : BlockSend} {a : LwipAnswer} (h : s.Excess b)
    (hs : blockStep b s a = some s') : s'.Excess b := by
  obtain ⟨hb, htaken⟩ := h
  obtain ⟨hb', -, hback, hmoves⟩ := hb.step hs
  refine ⟨hb', ?_⟩
  have hle := hb'.pos_le
  by_cases hu : Uncounted s a
  · obtain ⟨htaken', hpos⟩ := hback hu
    rw [htaken']
    omega
  · obtain ⟨m, hpos, htaken'⟩ := hmoves hu
    rw [htaken', List.length_append, List.length_take, List.length_drop]
    omega

/-- While the loop has not returned there is a next call. -/
theorem BlockSend.Bounds.goesOn {s : BlockSend} (h : s.Bounds b) (hs : s.loop.result = none) :
    ∃ a, (blockStep b s a).isSome = true := by
  obtain ⟨loop, i, taken⟩ := s
  rcases loop with ⟨n, retry⟩ | _ | _
  · rcases Nat.eq_zero_or_pos i with rfl | hi
    · exact ⟨.refused .einval, rfl⟩
    · refine ⟨.sent (.error .einval), ?_⟩
      unfold blockStep
      simp only
      rw [if_pos ⟨h.addressed hi, Nat.zero_le _⟩]
      rfl
  · cases hs
  · cases hs

theorem BlockSend.Bounds.result {s : BlockSend} {ret : Option Errno} {done : ℕ} (h : s.Bounds b)
    (hs : s.loop.result = some (ret, done)) : s.pos = done := by
  have hmore : ∀ n retry, s.loop ≠ .more n retry := by
    intro n retry hloop
    rw [hloop] at hs
    cases hs
  unfold BlockSend.pos
  rw [(h.ended hmore).1]
  rcases hloop : s.loop with _ | _ | _
  · exact absurd hloop (hmore _ _)
  · rw [hloop] at hs
    cases hs
    rfl
  · rw [hloop] at hs
    cases hs
    rfl

theorem blockStart_exact : (blockStart b).Exact b := by
  refine ⟨start_bounds.1, ?_⟩
  rw [start_bounds.2.1, List.take_zero]
  rfl

/-- A send of a block ends, whatever lwIP answers, and reports what lwIP took exactly if no datagram
fails after an earlier one of its call of `__lwip_socket_send` was sent. -/
theorem block_send_iff {as : List LwipAnswer} {s : BlockSend}
    (hr : run (blockStep b) (blockStart b) as = some s) :
    as.length ≤ b.callsMax
      ∧ (s.loop.result = none → ∃ a, (blockStep b s a).isSome = true)
      ∧ ∀ ret done, s.loop.result = some (ret, done) → done ≤ b.data.length
        ∧ (s.taken = b.data.take done
          ↔ Along (blockStep b) (fun s a => ¬ Uncounted s a) (blockStart b) as) := by
  obtain ⟨hstart, -, hwork⟩ := start_bounds (b := b)
  have hlen := run_length_le (C := fun _ _ => True) (fun _ _ _ (h : BlockSend.Bounds b _) _ hs =>
    ⟨(h.step hs).1, (h.step hs).2.1⟩) hstart (along_true (fun _ _ => trivial) _ _) hr
  have hend := run_good_or_bad (fun _ _ _ h hu hs => BlockSend.Exact.step h hu hs)
    (fun _ _ _ h hu hs => BlockSend.Exact.uncounted h hu hs)
    (fun _ _ _ h hs => BlockSend.Excess.step h hs) blockStart_exact hr
  have hbounds : s.Bounds b := by
    rcases hend with ⟨-, h, -⟩ | ⟨-, h, -⟩
    · exact h
    · exact h
  refine ⟨by omega, hbounds.goesOn, fun ret done hres => ?_⟩
  have hpos := hbounds.result hres
  refine ⟨hpos ▸ hbounds.pos_le, ?_⟩
  rcases hend with ⟨halong, -, htaken⟩ | ⟨halong, -, htaken⟩
  · rw [hpos] at htaken
    exact ⟨fun _ => halong, fun _ => htaken⟩
  · refine ⟨fun h => ?_, fun h => absurd h halong⟩
    rw [h, List.length_take, hpos] at htaken
    omega

/-- A block of socket `0`. -/
def blockOf (type : SocketProto) (len : ℕ) : SendBlock :=
  ⟨⟨0, type, 5000, 6000, 1, .zero⟩, List.replicate len 0⟩

theorem block_send_iff_five : ∃ s,
    run (blockStep (blockOf .tcp 5)) (blockStart (blockOf .tcp 5))
        [.sent (.ok 2), .sent (.error .enobufs), .sent (.ok 3)] = some s
      ∧ s.loop.result = some (none, 5) ∧ s.taken = (blockOf .tcp 5).data.take 5 := by
  obtain ⟨s, hr, hres⟩ : ∃ s, run (blockStep (blockOf .tcp 5)) (blockStart (blockOf .tcp 5))
        [.sent (.ok 2), .sent (.error .enobufs), .sent (.ok 3)] = some s
      ∧ s.loop.result = some (none, 5) := ⟨_, rfl, rfl⟩
  exact ⟨s, hr, hres, ((block_send_iff hr).2.2 _ _ hres).2.2 (by decide)⟩

/-- The second datagram of a block fails once, and the first is sent again. -/
theorem block_send_twice : ∃ s,
    run (blockStep (blockOf .udp 2000)) (blockStart (blockOf .udp 2000))
        [.sent (.ok 1470), .sent (.error .enobufs), .sent (.ok 1470), .sent (.ok 530)] = some s
      ∧ s.loop.result = some (none, 2000) ∧ s.taken.length = 3470
      ∧ s.taken ≠ (blockOf .udp 2000).data.take 2000 := by
  have hrun : (run (blockStep (blockOf .udp 2000)) (blockStart (blockOf .udp 2000))
      [.sent (.ok 1470), .sent (.error .enobufs), .sent (.ok 1470), .sent (.ok 530)]).map
        (fun s => (s.loop.result, s.taken.length)) = some (some (none, 2000), 3470) := by
    decide +kernel
  obtain ⟨s, hr, hs⟩ := Option.map_eq_some_iff.1 hrun
  obtain ⟨hres, hlen⟩ := Prod.mk.inj hs
  refine ⟨s, hr, hres, hlen, fun h => ?_⟩
  rw [h, List.length_take] at hlen
  omega

end NrcAtcmd
