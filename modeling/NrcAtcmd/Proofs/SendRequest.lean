import Mathlib.Tactic.Attr.Core
import NrcAtcmd.SendRequest

/-!
# A request is answered with its own result

The invariant follows the request from its record to its answer. Until the socket task takes it
up, `Posted` says that the record holds it and none of its data went out. While the socket task
is at work on it, `Active` says where it is, what the sends so far came to, and where the
descriptor is: in the write set, or its bit set, or on the way from the one to the other. After
that `Answers` says what the record holds. In all other phases the socket task is `Calm`: it
polls, or calls `_lwip_socket_send_done` for a descriptor that is not in the write set.
-/

namespace NrcAtcmd

open Machine

theorem Requester.mem_waits {q : Requester} {r : Request} : r ∈ q.waits ↔ q = .wait r := by
  cases q <;> simp [waits, eq_comm]

/-! ## The log -/

/-- The request an event is about. -/
def SendEvent.serial : SendEvent → ℕ
  | .request r => r.serial
  | .send k _ _ => k
  | .answer k _ _ => k

theorem returned_eq_nil {k : ℕ} : ∀ {l : List SendEvent}, (∀ e ∈ l, e.serial < k) →
    returned k l = []
  | [], _ => rfl
  | .request _ :: l, h => by
    have := returned_eq_nil (List.forall_mem_cons.1 h).2
    simpa only [returned] using this
  | .answer _ _ _ :: l, h => by
    have := returned_eq_nil (List.forall_mem_cons.1 h).2
    simpa only [returned] using this
  | .send serial _ _ :: l, h => by
    obtain ⟨hk, hl⟩ := List.forall_mem_cons.1 h
    have hne : serial ≠ k := Nat.ne_of_lt hk
    simp only [returned, if_neg hne, returned_eq_nil hl]

theorem wentOut_eq_nil {k : ℕ} : ∀ {l : List SendEvent}, returned k l = [] → wentOut k l = []
  | [], _ => rfl
  | .request _ :: l, h => by
    have := wentOut_eq_nil (l := l) h
    simpa only [wentOut] using this
  | .answer _ _ _ :: l, h => by
    have := wentOut_eq_nil (l := l) h
    simpa only [wentOut] using this
  | .send serial _ ret :: l, h => by
    by_cases hk : serial = k
    · simp [returned, hk] at h
    · simp only [returned, if_neg hk] at h
      cases ret <;> simp only [wentOut, if_neg hk, wentOut_eq_nil h]

/-- The request is on record as made, and not answered. -/
structure Current (l : List SendEvent) (r : Request) : Prop where
  made : SendEvent.request r ∈ l
  open_ : ∀ ret done, SendEvent.answer r.serial ret done ∉ l

theorem Current.send {l : List SendEvent} {r : Request} (h : Current l r) (bs : Bytes)
    (ret : Except Errno ℕ) : Current (.send r.serial bs ret :: l) r where
  made := List.mem_cons_of_mem _ h.made
  open_ ret done := by simpa using h.open_ ret done

/-- A new request is on record, and none of its data went out. -/
theorem current_request {n : ℕ} {l : List SendEvent} (hl : ∀ e ∈ l, e.serial < n) (id : ℕ)
    (data : Bytes) : Current (.request ⟨n, id, data⟩ :: l) ⟨n, id, data⟩ where
  made := List.mem_cons_self
  open_ ret done h := by
    rcases List.mem_cons.1 h with h | h
    · cases h
    · exact Nat.lt_irrefl _ (hl _ h)

/-! ## The loop of a send -/

/-- How far a loop is, and that the bytes up to there went out. -/
structure Reached (l : List SendEvent) (r : Request) (t : SendLoop) : Prop where
  loop : atcmdSocketSendData__ r.data.length (returned r.serial l) = t
  out : ∀ i, (t.result.map (·.2) = some i ∨ ∃ retry, t = .more i retry) →
    wentOut r.serial l = r.data.take i

theorem Reached.answers {l : List SendEvent} {r : Request} {t : SendLoop} (h : Reached l r t)
    {ret : Option Errno} {i : ℕ} (ht : t.result = some (ret, i)) : Answers r l ret i :=
  ⟨h.out i (Or.inl (by rw [ht]; rfl)), Or.inl (by rw [h.loop]; exact ht)⟩

theorem reached_start {l : List SendEvent} {r : Request} (h : returned r.serial l = []) :
    Reached l r (.start r.data.length) where
  loop := by rw [h]; rfl
  out i hi := by
    rw [wentOut_eq_nil h]
    unfold SendLoop.start at hi
    split_ifs at hi with h0
    · simp [List.length_eq_zero_iff.1 h0]
    · rcases hi with hi | ⟨_, hi⟩
      · cases hi
      · cases hi
        rfl

/-- A pass of the loop. -/
theorem Reached.next {l : List SendEvent} {r : Request} {i retry : ℕ}
    (h : Reached l r (.more i retry)) (ret : Except Errno ℕ) :
    Reached (.send r.serial (r.data.drop i) ret :: l) r
      (SendLoop.next r.data.length (.more i retry) ret) where
  loop := by
    rw [← h.loop]
    simp [returned, atcmdSocketSendData__]
  out j hj := by
    have hout := h.out i (Or.inr ⟨retry, rfl⟩)
    rcases ret with e | n
    · simp only [wentOut, hout]
      congr 1
      simp only [SendLoop.next] at hj
      split_ifs at hj <;> simpa [SendLoop.result] using hj
    · simp only [wentOut, hout]
      cases n with
      | zero =>
        simp only [SendLoop.next, SendLoop.result, Option.map_some, Option.some.injEq,
          reduceCtorEq, exists_false, or_false] at hj
        simp [hj]
      | succ n =>
        have hj' : j = i + (n + 1) := by
          simp only [SendLoop.next] at hj
          split_ifs at hj <;> simp [SendLoop.result] at hj <;> exact hj.symm
        rw [hj', if_true]
        exact List.take_add.symm

/-! ## The invariant -/

/-- The socket task is not at work on a request, though it may still have to say that it is
through with one made before the `n`-th. -/
def SocketTask.Calm (n : ℕ) : SocketTask → Prop
  | .poll | .loop | .isset .mismatch _ | .isset .recv _ | .close .recv _ => True
  | .isset (.handler r) _ => r.serial < n
  | _ => False

/-- The record holds the request, and none of its data went out. -/
structure Posted (s : SendTasks) (r : Request) : Prop where
  held : s.eventSend.request = some r
  current : Current s.log r
  fresh : returned r.serial s.log = []
  bits : s.bits = ∅

/-- The record holds what came of the request. -/
structure Stored (s : SendTasks) (r : Request) : Prop where
  taken : s.eventSend.request = none
  current : Current s.log r
  answers : Answers r s.log s.eventSend.ret s.eventSend.done

/-- Where the AT task is while the socket task is calm up to the `n`-th request. -/
inductive Still (s : SendTasks) : ℕ → Prop
  | idle (hq : s.requester = .idle) (hr : s.eventSend.request = none) (hw : s.write = ∅)
      (hb : s.bits = ∅) : Still s s.count
  | posted {r : Request} (hq : s.requester = .isset r ∨ s.requester = .set r) (h : Posted s r)
      (hw : s.write = ∅) : Still s r.serial
  | waiting {r : Request} (hq : s.requester = .wait r ∨ s.requester = .clr r) (h : Posted s r)
      (hw : s.write ⊆ {r.id}) : Still s r.serial
  | told {r : Request} (hq : s.requester = .wait r) (h : Stored s r) (hw : s.write = ∅)
      (hb : s.bits = {r.id}) : Still s s.count
  | woken {r : Request} (hq : s.requester = .take r) (h : Stored s r) (hw : s.write = ∅)
      (hb : s.bits = ∅) : Still s s.count
  | leaving {r : Request} {ret : Option Errno} {done : ℕ}
      (hq : s.requester = .reset r ret done) (h : Current s.log r)
      (ha : Answers r s.log ret done) (hw : s.write = ∅) (hb : s.bits = ∅) : Still s s.count

/-- The socket task is at work on the request the AT task waits for. -/
inductive Active (s : SendTasks) (r : Request) : Prop
  | send {i retry : ℕ} (ht : s.task = .send r i retry) (hl : Reached s.log r (.more i retry))
      (hw : s.write = {r.id}) (hb : s.bits = ∅)
  | failed {e : Errno} {i : ℕ}
      (ht : s.task = .isset (.send r e i) r.id ∨ s.task = .clr (.send r e i) r.id)
      (hl : Reached s.log r (.close e i)) (hw : s.write = {r.id}) (hb : s.bits = ∅)
  | failing {e : Errno} {i : ℕ} (ht : s.task = .set (.send r e i) r.id)
      (hl : Reached s.log r (.close e i)) (hw : s.write = ∅) (hb : s.bits = ∅)
  | closing {e : Errno} {i : ℕ} (ht : s.task = .close (.send r e i) r.id)
      (hl : Reached s.log r (.close e i)) (hw : s.write = ∅) (hb : s.bits = {r.id})
  | store {t : SendLoop} {ret : Option Errno} {i : ℕ} (ht : s.task = .store r ret i)
      (hl : Reached s.log r t) (hr : t.result = some (ret, i))
      (hw : s.write = {r.id} ∧ s.bits = ∅ ∨ s.write = ∅ ∧ s.bits = {r.id})
  | reply (ht : s.task = .isset (.handler r) r.id ∨ s.task = .clr (.handler r) r.id)
      (h : Stored s r) (hw : s.write = {r.id}) (hb : s.bits = ∅)
  | replying (ht : s.task = .set (.handler r) r.id) (h : Stored s r) (hw : s.write = ∅)
      (hb : s.bits = ∅)

/-- The invariant of both tasks. -/
structure SendInv (s : SendTasks) : Prop where
  fits : AllFit s.log
  serial : ∀ e ∈ s.log, e.serial < s.count
  phase : (∃ n, Still s n ∧ s.task.Calm n)
    ∨ ∃ r, s.requester = .wait r ∧ Current s.log r ∧ Active s r

/-! ## Steps of a calm socket task -/

/-- The socket task changed nothing but where it is, and took nothing into the write set. -/
structure Same (s s' : SendTasks) : Prop where
  requester : s'.requester = s.requester
  eventSend : s'.eventSend = s.eventSend
  write : s'.write ⊆ s.write
  bits : s'.bits = s.bits
  count : s'.count = s.count
  log : s'.log = s.log

theorem Same.posted {s s' : SendTasks} {r : Request} (h : Same s s') (hp : Posted s r) :
    Posted s' r where
  held := by rw [h.eventSend]; exact hp.held
  current := by rw [h.log]; exact hp.current
  fresh := by rw [h.log]; exact hp.fresh
  bits := by rw [h.bits]; exact hp.bits

theorem Same.stored {s s' : SendTasks} {r : Request} (h : Same s s') (hs : Stored s r) :
    Stored s' r where
  taken := by rw [h.eventSend]; exact hs.taken
  current := by rw [h.log]; exact hs.current
  answers := by rw [h.log, h.eventSend]; exact hs.answers

theorem Same.write_eq {s s' : SendTasks} (h : Same s s') (hw : s.write = ∅) : s'.write = ∅ :=
  Finset.subset_empty.1 (hw ▸ h.write)

theorem Still.same {s s' : SendTasks} {n : ℕ} (hn : Still s n) (h : Same s s') : Still s' n := by
  cases hn with
  | idle hq hr hw hb =>
    rw [← h.count]
    exact .idle (h.requester.trans hq) (by rw [h.eventSend]; exact hr) (h.write_eq hw)
      (h.bits.trans hb)
  | posted hq hp hw => exact .posted (by rw [h.requester]; exact hq) (h.posted hp) (h.write_eq hw)
  | waiting hq hp hw =>
    exact .waiting (by rw [h.requester]; exact hq) (h.posted hp) (h.write.trans hw)
  | told hq hs hw hb =>
    rw [← h.count]
    exact .told (h.requester.trans hq) (h.stored hs) (h.write_eq hw) (h.bits.trans hb)
  | woken hq hs hw hb =>
    rw [← h.count]
    exact .woken (h.requester.trans hq) (h.stored hs) (h.write_eq hw) (h.bits.trans hb)
  | leaving hq hc ha hw hb =>
    rw [← h.count]
    exact .leaving (h.requester.trans hq) (by rw [h.log]; exact hc) (by rw [h.log]; exact ha)
      (h.write_eq hw) (h.bits.trans hb)

/-- A calm socket task does not say done for a request that waits for it. -/
theorem Still.not_mem {s : SendTasks} {n : ℕ} (hn : Still s n) {r : Request}
    (hr : r.serial < n) (hq : s.requester = .wait r) (fd : ℕ) : fd ∉ s.write := by
  cases hn with
  | waiting hq' =>
    rcases hq' with h | h
    · rw [h] at hq
      cases hq
      exact absurd hr (Nat.lt_irrefl _)
    · rw [h] at hq
      cases hq
  | idle _ _ hw => simp [hw]
  | posted _ _ hw => simp [hw]
  | told _ _ hw => simp [hw]
  | woken _ _ hw => simp [hw]
  | leaving _ _ _ hw => simp [hw]

/-- A step of a calm socket task leaves it calm, or takes up the request that waits for it. -/
theorem Still.task_step {s s' : SendTasks} {n : ℕ} (hn : Still s n) (hc : s.task.Calm n)
    (hC : ¬ Crosses s .task) (hs : taskStep s = some s') :
    Same s s' ∧ s'.task.Calm n
      ∨ ∃ r ready, s.eventSend.request = some r ∧ s.requester = .wait r ∧ r.id ∈ s.write
        ∧ s' = { s with ready := ready, task := sendLoopNext s.ids r (.start r.data.length) } := by
  have hsame : ∀ (ready : List ℕ) (t : SocketTask), Same s { s with ready := ready, task := t } :=
    fun ready t => ⟨rfl, rfl, Finset.Subset.rfl, rfl, rfl, rfl⟩
  unfold taskStep at hs
  unfold Crosses TaskCrosses at hC
  cases ht : s.task with
  | poll => simp [ht] at hs
  | send r i retry => simp [ht, SocketTask.Calm] at hc
  | clr c fd => simp [ht, SocketTask.Calm] at hc
  | set c fd => simp [ht, SocketTask.Calm] at hc
  | store r ret i => simp [ht, SocketTask.Calm] at hc
  | loop =>
    simp only [ht] at hs hC
    cases hready : s.ready with
    | nil =>
      simp only [hready, Option.some.injEq] at hs
      subst hs
      exact Or.inl ⟨hsame _ _, trivial⟩
    | cons fd ready =>
      simp only [hready, Option.some.injEq] at hs
      subst hs
      unfold atcmdSocketSendHandler_
      cases hreq : s.eventSend.request with
      | none => exact Or.inl ⟨hsame _ _, trivial⟩
      | some r =>
        by_cases hfd : fd = r.id
        · by_contra hno
          refine hC ⟨fd, by simp [hready], r, hreq, hfd.symm, ?_⟩
          rintro ⟨hq, hw⟩
          exact hno (Or.inr ⟨r, ready, rfl, hq, hfd ▸ hw, by simp [hfd]⟩)
        · simp only [if_neg hfd]
          exact Or.inl ⟨hsame _ _, trivial⟩
  | isset c fd =>
    simp only [ht, Option.some.injEq] at hs hC
    have hfd : fd ∉ s.write := by
      intro hmem
      obtain ⟨r, hq, hh⟩ := not_not.1 fun h => hC ⟨hmem, h⟩
      cases c with
      | handler r' =>
        simp only [SocketTask.handles, decide_eq_true_eq] at hh
        subst hh
        rw [ht] at hc
        exact hn.not_mem hc (Requester.mem_waits.1 hq) fd hmem
      | mismatch => simp [SocketTask.handles] at hh
      | recv => simp [SocketTask.handles] at hh
      | send r e i => simp [ht, SocketTask.Calm] at hc
    rw [if_neg hfd] at hs
    subst hs
    refine Or.inl ⟨hsame _ _, ?_⟩
    cases c with
    | send r e i => simp [ht, SocketTask.Calm] at hc
    | _ => trivial
  | close c fd =>
    cases c with
    | recv =>
      simp only [ht, Option.some.injEq] at hs
      subst hs
      exact Or.inl ⟨⟨rfl, rfl, Finset.erase_subset _ _, rfl, rfl, rfl⟩, trivial⟩
    | _ => simp [ht, SocketTask.Calm] at hc

/-! ## Steps of a socket task at work -/

/-- What follows a pass of the loop that sends the data of the request. -/
theorem Reached.active {s : SendTasks} {r : Request} {t : SendLoop} (h : Reached s.log r t)
    (ht : s.task = sendLoopNext s.ids r t) (hw : s.write = {r.id}) (hb : s.bits = ∅) :
    Active s r := by
  cases t with
  | more i retry => exact .send ht h hw hb
  | done ret i => exact .store ht h rfl (Or.inl ⟨hw, hb⟩)
  | close e i =>
    unfold sendLoopNext at ht
    dsimp only at ht
    split_ifs at ht
    · exact .failed (Or.inl ht) h hw hb
    · exact .store ht h rfl (Or.inl ⟨hw, hb⟩)

theorem Active.task_step {s s' : SendTasks} {r : Request} (h : Active s r)
    (hq : s.requester = .wait r) (hcur : Current s.log r) (hn : r.serial < s.count)
    (hs : taskStep s = some s') :
    s'.requester = s.requester ∧ s'.log = s.log ∧ s'.count = s.count
      ∧ (Active s' r ∨ Still s' s'.count ∧ s'.task.Calm s'.count) := by
  unfold taskStep at hs
  cases h with
  | send ht hl hw hb => simp [ht] at hs
  | @failed e i ht hl hw hb =>
    rcases ht with ht | ht
    · simp only [ht, hw, Finset.mem_singleton, if_true, Option.some.injEq] at hs
      subst hs
      exact ⟨rfl, rfl, rfl, Or.inl (.failed (Or.inr rfl) hl rfl hb)⟩
    · simp only [ht, hw, Option.some.injEq] at hs
      subst hs
      exact ⟨rfl, rfl, rfl, Or.inl (.failing rfl hl (by simp) hb)⟩
  | failing ht hl hw hb =>
    simp only [ht, hb, Option.some.injEq] at hs
    subst hs
    exact ⟨rfl, rfl, rfl, Or.inl (.closing rfl hl hw (by simp))⟩
  | closing ht hl hw hb =>
    simp only [ht, hw, Option.some.injEq] at hs
    subst hs
    exact ⟨rfl, rfl, rfl, Or.inl (.store rfl hl rfl (Or.inr ⟨by simp, hb⟩))⟩
  | store ht hl hr hw =>
    simp only [ht, Option.some.injEq] at hs
    subst hs
    refine ⟨rfl, rfl, rfl, ?_⟩
    rcases hw with ⟨hw, hb⟩ | ⟨hw, hb⟩
    · exact Or.inl (.reply (Or.inl rfl) ⟨rfl, hcur, hl.answers hr⟩ hw hb)
    · exact Or.inr ⟨.told hq ⟨rfl, hcur, hl.answers hr⟩ hw hb, hn⟩
  | reply ht h hw hb =>
    rcases ht with ht | ht
    · simp only [ht, hw, Finset.mem_singleton, if_true, Option.some.injEq] at hs
      subst hs
      exact ⟨rfl, rfl, rfl, Or.inl (.reply (Or.inr rfl) ⟨h.taken, h.current, h.answers⟩ rfl hb)⟩
    · simp only [ht, hw, Option.some.injEq] at hs
      subst hs
      exact ⟨rfl, rfl, rfl,
        Or.inl (.replying rfl ⟨h.taken, h.current, h.answers⟩ (by simp) hb)⟩
  | replying ht h hw hb =>
    simp only [ht, hb, Option.some.injEq] at hs
    subst hs
    exact ⟨rfl, rfl, rfl, Or.inr ⟨.told hq ⟨h.taken, h.current, h.answers⟩ hw (by simp), trivial⟩⟩

theorem Active.sent_step {s s' : SendTasks} {r : Request} (h : Active s r) {ret : Except Errno ℕ}
    (hs : taskSent ret s = some s') :
    ∃ bs, s'.log = .send r.serial bs ret :: s.log ∧ s'.requester = s.requester
      ∧ s'.count = s.count ∧ Active s' r := by
  unfold taskSent at hs
  cases h with
  | send ht hl hw hb =>
    simp only [ht] at hs
    split_ifs at hs
    simp only [Option.some.injEq] at hs
    subst hs
    exact ⟨_, rfl, rfl, rfl, (hl.next ret).active rfl hw hb⟩
  | failed ht => rcases ht with ht | ht <;> simp [ht] at hs
  | failing ht => simp [ht] at hs
  | closing ht => simp [ht] at hs
  | store ht => simp [ht] at hs
  | reply ht => rcases ht with ht | ht <;> simp [ht] at hs
  | replying ht => simp [ht] at hs

/-- At work on a request, the socket task does not start on anything else. -/
theorem Active.task_ne {s : SendTasks} {r : Request} (h : Active s r) :
    s.task ≠ .poll ∧ s.task ≠ .loop ∧ s.task.handles r = true := by
  cases h with
  | failed ht => rcases ht with ht | ht <;> simp [ht, SocketTask.handles]
  | reply ht => rcases ht with ht | ht <;> simp [ht, SocketTask.handles]
  | send ht => simp [ht, SocketTask.handles]
  | failing ht => simp [ht, SocketTask.handles]
  | closing ht => simp [ht, SocketTask.handles]
  | store ht => simp [ht, SocketTask.handles]
  | replying ht => simp [ht, SocketTask.handles]

/-- The bit is not set before the result is stored, except on the way to close the socket. -/
theorem Active.bits {s : SendTasks} {r : Request} (h : Active s r) (hb : r.id ∈ s.bits) :
    s.task.owes r = true := by
  cases h with
  | closing ht => simp [ht, SocketTask.owes]
  | store ht => simp [ht, SocketTask.owes]
  | send _ _ _ hb' => simp [hb'] at hb
  | failed _ _ _ hb' => simp [hb'] at hb
  | failing _ _ _ hb' => simp [hb'] at hb
  | reply _ _ _ hb' => simp [hb'] at hb
  | replying _ _ _ hb' => simp [hb'] at hb

/-! ## Steps -/

theorem SocketTask.Calm.mono {n m : ℕ} {t : SocketTask} (h : t.Calm n) (hnm : n ≤ m) :
    t.Calm m := by
  cases t with
  | isset c fd =>
    cases c with
    | handler r => exact Nat.lt_of_lt_of_le h hnm
    | _ => exact h
  | close c fd => cases c <;> exact h
  | _ => exact h

theorem SendInv.request {s : SendTasks} (h : SendInv s) (hq : s.requester = .idle) (id : ℕ)
    (data : Bytes) : SendInv (atcmdSocketSendRequest_ id data s) := by
  rcases h.phase with ⟨n, hn, hc⟩ | ⟨r, hq', -⟩
  swap
  · rw [hq] at hq'
    cases hq'
  obtain ⟨hr, hw, hb, rfl⟩ : s.eventSend.request = none ∧ s.write = ∅ ∧ s.bits = ∅ ∧ n = s.count := by
    cases hn with
    | idle _ hr hw hb => exact ⟨hr, hw, hb, rfl⟩
    | posted hq' => rcases hq' with hq' | hq' <;> simp [hq] at hq'
    | waiting hq' => rcases hq' with hq' | hq' <;> simp [hq] at hq'
    | told hq' => simp [hq] at hq'
    | woken hq' => simp [hq] at hq'
    | leaving hq' => simp [hq] at hq'
  have hnew : returned s.count s.log = [] := returned_eq_nil h.serial
  simp only [atcmdSocketSendRequest_, hr, Option.isSome_none, Bool.false_eq_true, if_false]
  refine ⟨⟨trivial, h.fits⟩, ?_, Or.inl ⟨s.count, ?_, hc⟩⟩
  · intro e he
    rcases List.mem_cons.1 he with rfl | he
    · exact Nat.lt_succ_self _
    · exact Nat.lt_succ_of_lt (h.serial e he)
  · refine .posted (r := ⟨s.count, id, data⟩) (Or.inl rfl) ⟨rfl, ?_, ?_, hb⟩ hw
    · exact current_request h.serial id data
    · simpa only [returned] using hnew

/-- An answer. -/
theorem AllFit.answer {l : List SendEvent} (h : AllFit l) {r : Request} (hr : Current l r)
    {ret : Option Errno} {done : ℕ} (ha : Answers r l ret done) :
    AllFit (.answer r.serial ret done :: l) :=
  ⟨⟨r, hr.made, rfl, ha⟩, h⟩

theorem Current.serial_lt {s : SendTasks} {r : Request} (h : Current s.log r)
    (hs : ∀ e ∈ s.log, e.serial < s.count) : r.serial < s.count := hs _ h.made

/-- A request nobody took up is answered with `EBUSY`. -/
theorem Posted.answers {s : SendTasks} {r : Request} (h : Posted s r) :
    Answers r s.log (some .ebusy) 0 :=
  ⟨by rw [wentOut_eq_nil h.fresh, List.take_zero], Or.inr ⟨h.fresh, rfl, rfl⟩⟩

theorem SendInv.requester_step {s s' : SendTasks} (h : SendInv s) (hC : ¬ Crosses s .requester)
    (hs : requesterStep s = some s') : SendInv s' := by
  unfold requesterStep at hs
  rcases h.phase with ⟨n, hn, hc⟩ | ⟨r, hq, hcur, ha⟩
  swap
  · -- a bit set before the result is there is the crossing
    simp only [hq] at hs
    split_ifs at hs with hbit
    exact absurd ⟨r, Requester.mem_waits.2 hq, ha.bits hbit⟩ hC
  cases hn with
  | idle hq => simp [hq] at hs
  | @posted r hq hp hw =>
    rcases hq with hq | hq
    · simp only [hq, hw, Finset.notMem_empty, if_false, Option.some.injEq] at hs
      subst hs
      exact ⟨h.fits, h.serial, Or.inl ⟨_, .posted (Or.inr rfl)
        ⟨hp.held, hp.current, hp.fresh, hp.bits⟩ rfl, hc⟩⟩
    · simp only [hq, hw, Option.some.injEq] at hs
      subst hs
      exact ⟨h.fits, h.serial, Or.inl ⟨_, .waiting (Or.inl rfl)
        ⟨hp.held, hp.current, hp.fresh, hp.bits⟩ (by simp), hc⟩⟩
  | @waiting r hq hp hw =>
    rcases hq with hq | hq
    · simp [hq, hp.bits] at hs
    · simp only [hq, Option.some.injEq] at hs
      subst hs
      refine ⟨h.fits, h.serial, Or.inl ⟨_, .leaving rfl hp.current hp.answers ?_ hp.bits,
        hc.mono (hp.current.serial_lt h.serial).le⟩⟩
      exact Finset.eq_empty_of_forall_notMem fun x hx =>
        (Finset.mem_erase.1 hx).1 (Finset.mem_singleton.1 (hw (Finset.mem_erase.1 hx).2))
  | told hq hst hw hb =>
    simp only [hq, hb, Finset.mem_singleton, if_true, Option.some.injEq] at hs
    subst hs
    exact ⟨h.fits, h.serial, Or.inl ⟨_, .woken rfl ⟨hst.taken, hst.current, hst.answers⟩ hw
      (by simp), hc⟩⟩
  | woken hq hst hw hb =>
    simp only [hq, Option.some.injEq] at hs
    subst hs
    exact ⟨h.fits, h.serial, Or.inl ⟨_, .leaving rfl hst.current hst.answers hw hb, hc⟩⟩
  | leaving hq hcur ha hw hb =>
    simp only [hq, Option.some.injEq] at hs
    subst hs
    refine ⟨h.fits.answer hcur ha, ?_, Or.inl ⟨_, .idle rfl rfl hw hb, hc⟩⟩
    intro e he
    rcases List.mem_cons.1 he with rfl | he
    · exact hcur.serial_lt h.serial
    · exact h.serial e he

theorem SendInv.timeout {s s' : SendTasks} (h : SendInv s) (hC : ¬ Crosses s .timeout)
    (hs : requesterTimeout s = some s') : SendInv s' := by
  unfold requesterTimeout at hs
  rcases h.phase with ⟨n, hn, hc⟩ | ⟨r, hq, hcur, ha⟩
  swap
  · exact absurd ⟨r, Requester.mem_waits.2 hq, ha.task_ne.2.2⟩ hC
  cases hn with
  | idle hq => simp [hq] at hs
  | posted hq => rcases hq with hq | hq <;> simp [hq] at hs
  | @waiting r hq hp hw =>
    rcases hq with hq | hq
    · simp only [hq, hp.bits, Finset.notMem_empty, if_false, Option.some.injEq] at hs
      subst hs
      exact ⟨h.fits, h.serial, Or.inl ⟨_, .waiting (Or.inr rfl)
        ⟨hp.held, hp.current, hp.fresh, rfl⟩ hw, hc⟩⟩
    · simp [hq] at hs
  | told hq hst hw hb => simp [hq, hb] at hs
  | woken hq => simp [hq] at hs
  | leaving hq => simp [hq] at hs

theorem SendInv.task_step {s s' : SendTasks} (h : SendInv s) (hC : ¬ Crosses s .task)
    (hs : taskStep s = some s') : SendInv s' := by
  rcases h.phase with ⟨n, hn, hc⟩ | ⟨r, hq, hcur, ha⟩
  · rcases hn.task_step hc hC hs with ⟨hsame, hc'⟩ | ⟨r, ready, hreq, hq, hw, rfl⟩
    · refine ⟨by rw [hsame.log]; exact h.fits, ?_, Or.inl ⟨n, hn.same hsame, hc'⟩⟩
      rw [hsame.log, hsame.count]
      exact h.serial
    · -- the request is taken up
      obtain ⟨hp, hw'⟩ : Posted s r ∧ s.write ⊆ {r.id} := by
        cases hn with
        | waiting hq' hp hw' =>
          rcases hq' with hq' | hq' <;> rw [hq] at hq' <;> cases hq'
          exact ⟨hp, hw'⟩
        | idle hq' => simp [hq] at hq'
        | posted hq' => rcases hq' with hq' | hq' <;> simp [hq] at hq'
        | told _ hst => simp [hst.taken] at hreq
        | woken _ hst => simp [hst.taken] at hreq
        | leaving hq' => simp [hq] at hq'
      have hw : s.write = {r.id} :=
        Finset.Subset.antisymm hw' (Finset.singleton_subset_iff.2 hw)
      refine ⟨h.fits, h.serial, Or.inr ⟨r, hq, hp.current, ?_⟩⟩
      exact Reached.active (reached_start hp.fresh) rfl hw hp.bits
  · obtain ⟨hq', hlog, hcount, ha'⟩ := ha.task_step hq hcur (hcur.serial_lt h.serial) hs
    refine ⟨by rw [hlog]; exact h.fits, by rw [hlog, hcount]; exact h.serial, ?_⟩
    rcases ha' with ha' | ⟨hn, hc⟩
    · exact Or.inr ⟨r, hq'.trans hq, by rw [hlog]; exact hcur, ha'⟩
    · exact Or.inl ⟨_, hn, hc⟩

theorem SendInv.sent {s s' : SendTasks} (h : SendInv s) {ret : Except Errno ℕ}
    (hs : taskSent ret s = some s') : SendInv s' := by
  rcases h.phase with ⟨n, hn, hc⟩ | ⟨r, hq, hcur, ha⟩
  · unfold taskSent at hs
    cases ht : s.task <;> simp [ht, SocketTask.Calm] at hc hs
  · obtain ⟨bs, hlog, hq', hcount, ha'⟩ := ha.sent_step hs
    refine ⟨?_, ?_, Or.inr ⟨r, hq'.trans hq, by rw [hlog]; exact hcur.send bs ret, ha'⟩⟩
    · rw [hlog]
      exact ⟨hcur.open_, h.fits⟩
    · rw [hlog, hcount]
      intro e he
      rcases List.mem_cons.1 he with rfl | he
      · exact hcur.serial_lt h.serial
      · exact h.serial e he

/-- A step of the socket task that starts from where it polls, or between two descriptors. -/
theorem SendInv.same {s s' : SendTasks} (h : SendInv s) (ht : s.task = .poll ∨ s.task = .loop)
    (hs : Same s s') (hc : ∀ n, s'.task.Calm n) : SendInv s' := by
  rcases h.phase with ⟨n, hn, -⟩ | ⟨r, -, -, ha⟩
  · refine ⟨by rw [hs.log]; exact h.fits, ?_, Or.inl ⟨n, hn.same hs, hc n⟩⟩
    rw [hs.log, hs.count]
    exact h.serial
  · rcases ht with ht | ht
    · exact absurd ht ha.task_ne.1
    · exact absurd ht ha.task_ne.2.1

/-- The AT task opens or closes a socket between two requests. -/
theorem SendInv.between {s s' : SendTasks} (h : SendInv s) (hq : s.requester = .idle)
    (hs : s.write = ∅ → Same s s') (ht : s'.task = s.task) : SendInv s' := by
  rcases h.phase with ⟨n, hn, hc⟩ | ⟨r, hq', -⟩
  swap
  · rw [hq] at hq'
    cases hq'
  have hw : s.write = ∅ := by
    cases hn with
    | waiting hq' => rcases hq' with hq' | hq' <;> simp [hq] at hq'
    | idle _ _ hw => exact hw
    | posted _ _ hw => exact hw
    | told _ _ hw => exact hw
    | woken _ _ hw => exact hw
    | leaving _ _ _ hw => exact hw
  have hs := hs hw
  refine ⟨by rw [hs.log]; exact h.fits, ?_, Or.inl ⟨n, hn.same hs, by rw [ht]; exact hc⟩⟩
  rw [hs.log, hs.count]
  exact h.serial

theorem SendInv.step {s s' : SendTasks} {i : SendInput} (h : SendInv s) (hC : ¬ Crosses s i)
    (hs : sendStep s i = some s') : SendInv s' := by
  cases i with
  | requester => exact h.requester_step hC hs
  | timeout => exact h.timeout hC hs
  | task => exact h.task_step hC hs
  | sent ret => exact h.sent hs
  | request id data =>
    simp only [sendStep] at hs
    split_ifs at hs with hq
    simp only [Option.some.injEq] at hs
    subst hs
    exact h.request hq id data
  | opens id =>
    simp only [sendStep] at hs
    split_ifs at hs with hq
    simp only [Option.some.injEq] at hs
    subst hs
    exact h.between hq.1 (fun _ => ⟨rfl, rfl, Finset.erase_subset _ _, rfl, rfl, rfl⟩) rfl
  | closes id =>
    simp only [sendStep] at hs
    split_ifs at hs with hq
    simp only [Option.some.injEq] at hs
    subst hs
    refine h.between hq.1 (fun hw => ⟨rfl, rfl, Finset.erase_subset _ _, ?_, rfl, rfl⟩) rfl
    simp [commandClose, hw]
  | poll ready =>
    simp only [sendStep] at hs
    split_ifs at hs with ht
    simp only [Option.some.injEq] at hs
    subst hs
    exact h.same (Or.inl ht.1) ⟨rfl, rfl, Finset.Subset.rfl, rfl, rfl, rfl⟩ fun _ => trivial
  | accept id =>
    simp only [sendStep] at hs
    split_ifs at hs with ht
    simp only [Option.some.injEq] at hs
    subst hs
    exact h.same (Or.inr ht.1) ⟨rfl, rfl, Finset.erase_subset _ _, rfl, rfl, rfl⟩ fun n => by
      simp [ht.1, SocketTask.Calm]
  | recvClose id =>
    simp only [sendStep] at hs
    split_ifs at hs with ht
    simp only [Option.some.injEq] at hs
    subst hs
    exact h.same (Or.inr ht.1) ⟨rfl, rfl, Finset.Subset.rfl, rfl, rfl, rfl⟩ fun _ => trivial

theorem SendInv.boot : SendInv .boot :=
  ⟨trivial, fun e he => by simp [SendTasks.boot] at he, Or.inl ⟨0, .idle rfl rfl rfl rfl, trivial⟩⟩

theorem SendInv.served {s : SendTasks} (h : SendInv s) : Served s := by
  refine ⟨h.fits, fun hq => ?_⟩
  rcases h.phase with ⟨n, hn, -⟩ | ⟨r, hq', -⟩
  · cases hn with
    | idle _ hr hw => exact ⟨hw, hr⟩
    | posted hq' => rcases hq' with hq' | hq' <;> simp [hq] at hq'
    | waiting hq' => rcases hq' with hq' | hq' <;> simp [hq] at hq'
    | told hq' => simp [hq] at hq'
    | woken hq' => simp [hq] at hq'
    | leaving hq' => simp [hq] at hq'
  · rw [hq] at hq'
    cases hq'

/-- In every run in which the tasks do not cross, each request is answered with its own result. -/
theorem send_requests_served {is : List SendInput} {s : SendTasks}
    (hC : Along sendStep (fun s i => ¬ Crosses s i) .boot is)
    (hr : run sendStep .boot is = some s) : Served s :=
  (run_along (fun _ _ _ h hC hs => SendInv.step h hC hs) SendInv.boot hC hr).served

/-- Two sockets are open. A send on the first takes two passes, the second nobody can write to in
time, and the connection of the first is lost during the last send. -/
def sendRun : List SendInput :=
  [.opens 0, .opens 1, .request 0 [1, 2, 3], .requester, .requester, .poll [0], .task,
    .sent (.ok 2), .sent (.error .eagain), .sent (.ok 1), .task, .task, .task, .task, .requester,
    .requester, .requester, .request 1 [4], .requester, .requester, .timeout, .requester,
    .requester, .request 0 [5, 6], .requester, .requester, .task, .poll [0], .task, .sent (.ok 1),
    .sent (.error .econnreset), .task, .task, .task, .task, .task, .task, .requester, .requester,
    .requester]

theorem send_requests_served_run : ∃ s, run sendStep .boot sendRun = some s ∧ s.count = 3
    ∧ s.requester = .idle ∧ Served s := by
  have h : ((run sendStep .boot sendRun).map fun s => (s.count, s.requester))
      = some (3, .idle) := by decide +kernel
  obtain ⟨s, hr, h⟩ := Option.map_eq_some_iff.1 h
  obtain ⟨hcount, hq⟩ := Prod.mk.injEq .. ▸ h
  exact ⟨s, hr, hcount, hq, send_requests_served (by decide +kernel) hr⟩

/-- The connection is lost during a send, and `_atcmd_socket_close` wakes the requester before the
result is stored: the send has failed, and the requester is told that it sent nothing, without an
error. -/
theorem send_requests_served_fails_close : ∃ s, run sendStep .boot
    [.opens 0, .request 0 [1], .requester, .requester, .poll [0], .task,
      .sent (.error .econnreset), .task, .task, .task, .requester, .requester, .requester]
      = some s ∧ ¬ Served s := by
  have h : ((run sendStep .boot
    [.opens 0, .request 0 [1], .requester, .requester, .poll [0], .task,
      .sent (.error .econnreset), .task, .task, .task, .requester, .requester, .requester]).map
      fun s => s.log) = some [.answer 0 none 0, .send 0 [1] (.error .econnreset),
        .request ⟨0, 0, [1]⟩] := rfl
  obtain ⟨s, hr, h⟩ := Option.map_eq_some_iff.1 h
  refine ⟨s, hr, fun hs => ?_⟩
  have hfit := hs.1
  rw [h] at hfit
  obtain ⟨⟨r, hmem, -, -, ha⟩, -⟩ := hfit
  have hr : r = ⟨0, 0, [1]⟩ := by simpa using hmem
  subst hr
  revert ha
  decide

end NrcAtcmd
