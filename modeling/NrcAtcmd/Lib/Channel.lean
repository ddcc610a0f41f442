import Mathlib.Data.List.Basic
import Mathlib.Tactic.Common

/-!
# A listener at the end of an ordered channel

A sender puts messages into a channel that neither loses nor reorders them, and a listener takes
them out one by one, each changing its state by `f`. `Heard` says what the listener's state and the
channel are after the messages of `trace`: the state is that after a first part of them, and the
rest is in the channel.
-/

namespace Channel

variable {α β : Type*}

/-- The listener, at `b` now and at `b₀` before `trace` was sent, has heard all but `queue`. -/
def Heard (f : β → α → β) (b₀ : β) (trace : List α) (b : β) (queue : List α) : Prop :=
  ∃ seen, b = seen.foldl f b₀ ∧ seen ++ queue = trace

namespace Heard

variable {f : β → α → β} {b₀ b : β} {trace queue : List α}

theorem start (f : β → α → β) (b₀ : β) : Heard f b₀ [] b₀ [] := ⟨[], rfl, rfl⟩

theorem send (h : Heard f b₀ trace b queue) (l : List α) :
    Heard f b₀ (trace ++ l) b (queue ++ l) := by
  obtain ⟨seen, hb, ht⟩ := h
  exact ⟨seen, hb, by rw [← ht, List.append_assoc]⟩

theorem deliver {m : α} (h : Heard f b₀ trace b (m :: queue)) :
    Heard f b₀ trace (f b m) queue := by
  obtain ⟨seen, hb, ht⟩ := h
  refine ⟨seen ++ [m], ?_, by rw [← ht, List.append_assoc, List.singleton_append]⟩
  rw [List.foldl_append, ← hb]
  rfl

/-- With an empty channel the listener has heard everything. -/
theorem all (h : Heard f b₀ trace b []) : b = trace.foldl f b₀ := by
  obtain ⟨seen, hb, ht⟩ := h
  rw [List.append_nil] at ht
  rw [hb, ht]

/-- What the listener only learns from the last message of `trace`, it knows once it has heard
everything. -/
theorem eq_nil_of_last {l : List α} {m : α} (h : Heard f b₀ (l ++ [m]) b queue) {P : β → Prop}
    (hP : P b) (hl : ∀ k, ¬ P ((l.take k).foldl f b₀)) : queue = [] := by
  obtain ⟨seen, hb, ht⟩ := h
  rcases List.eq_nil_or_concat queue with hq | ⟨q, x, rfl⟩
  · exact hq
  · rw [List.concat_eq_append, ← List.append_assoc] at ht
    have hl' := List.append_inj_left' ht rfl
    refine absurd hP ?_
    rw [hb]
    have := hl seen.length
    rwa [← hl', List.take_left] at this

end Heard

end Channel
