import Mathlib.Data.List.Basic
import Mathlib.Tactic.Common

/-!
# A pipe that hands its input on in blocks

A pipe takes letters off a stream. A letter it took is in a block it already sent, in its queue,
in the hand it holds back while it cannot tell yet what the letter is, or lost. `Of` says that a
pipe accounts for the letters taken so far: their number always adds up, and while nothing is
lost they are the sent blocks, the queue and the hand, in order.
-/

/-- What became of the letters taken off a stream. -/
structure Pipe (α : Type*) where
  sent : List (List α)
  queue : List α
  hand : List α
  lost : ℕ

namespace Pipe

variable {α : Type*}

/-- Nothing taken yet. -/
def empty : Pipe α := ⟨[], [], [], 0⟩

/-- Letters held back. -/
def hold (p : Pipe α) (l : List α) : Pipe α := { p with hand := p.hand ++ l }

/-- The hand thrown away. -/
def spill (p : Pipe α) : Pipe α := { p with hand := [], lost := p.lost + p.hand.length }

/-- Letters queued. -/
def push (p : Pipe α) (l : List α) : Pipe α := { p with queue := p.queue ++ l }

/-- The queue sent as one block. -/
def flush (p : Pipe α) : Pipe α := { p with sent := p.sent ++ [p.queue], queue := [] }

/-- The pipe accounts for the letters taken. -/
structure Of (taken : List α) (p : Pipe α) : Prop where
  count : taken.length = p.sent.flatten.length + p.queue.length + p.hand.length + p.lost
  exact_of : p.lost = 0 → taken = p.sent.flatten ++ p.queue ++ p.hand
  hand_suffix : p.hand <:+ taken

theorem of_empty : Of ([] : List α) empty :=
  ⟨rfl, fun _ => rfl, List.suffix_rfl⟩

namespace Of

variable {taken : List α} {p : Pipe α}

theorem hold (h : Of taken p) (l : List α) : Of (taken ++ l) (p.hold l) where
  count := by
    have := h.count
    simp only [Pipe.hold, List.length_append]
    omega
  exact_of h0 := by
    rw [h.exact_of h0]
    simp [Pipe.hold]
  hand_suffix := by
    obtain ⟨t, ht⟩ := h.hand_suffix
    exact ⟨t, by rw [← ht]; simp [Pipe.hold]⟩

theorem spill (h : Of taken p) : Of taken p.spill where
  count := by
    have := h.count
    simp only [Pipe.spill, List.length_nil]
    omega
  exact_of h0 := by
    simp only [Pipe.spill, Nat.add_eq_zero_iff, List.length_eq_zero_iff] at h0
    rw [h.exact_of h0.1]
    simp [Pipe.spill, h0.2]
  hand_suffix := List.nil_suffix

theorem push (h : Of taken p) (hh : p.hand = []) (l : List α) : Of (taken ++ l) (p.push l) where
  count := by
    have := h.count
    simp only [Pipe.push, List.length_append]
    omega
  exact_of h0 := by
    rw [h.exact_of h0]
    simp [Pipe.push, hh]
  hand_suffix := by
    simp only [Pipe.push, hh]
    exact List.nil_suffix

theorem flush (h : Of taken p) : Of taken p.flush where
  count := by
    have := h.count
    simp only [Pipe.flush, List.flatten_append, List.flatten_singleton, List.length_append,
      List.length_nil]
    omega
  exact_of h0 := by
    rw [h.exact_of h0]
    simp [Pipe.flush]
  hand_suffix := h.hand_suffix

/-- Where the queue is cut into blocks makes no difference. -/
theorem congr {p' : Pipe α} (h : Of taken p)
    (hs : p.sent.flatten ++ p.queue = p'.sent.flatten ++ p'.queue) (hh : p.hand = p'.hand)
    (hl : p.lost = p'.lost) : Of taken p' where
  count := by
    have := h.count
    have hlen := congrArg List.length hs
    simp only [List.length_append] at hlen
    rw [← hh, ← hl]
    omega
  exact_of h0 := by rw [h.exact_of (hl.trans h0), hs, hh]
  hand_suffix := hh ▸ h.hand_suffix

/-- With an empty queue and the hand `l` taken back, the sent blocks are all that was taken
before it exactly when nothing is lost. -/
theorem sent_iff (h : Of (taken ++ p.hand) p) (hq : p.queue = []) :
    p.sent.flatten = taken ↔ p.lost = 0 := by
  have hc := h.count
  simp only [List.length_append, hq, List.length_nil] at hc
  constructor
  · intro he
    rw [he] at hc
    omega
  · intro h0
    have := h.exact_of h0
    rw [hq, List.append_nil] at this
    exact (List.append_cancel_right this).symm

end Of

end Pipe
