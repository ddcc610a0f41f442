import Mathlib.Data.List.Basic
import Mathlib.Tactic.Common

/-!
# Frames in a stream

A sender writes frames one after the other, and a reader takes the letters one by one and says what
it read. `delivered` is what the reader should have said by the `n`-th letter: every frame that is
complete by then.

A frame is read (`Reads`) if an idle reader says it at its last letter, nothing before, and is idle
again. Then a stream of frames is said as it comes (`said_iff`), and only then, if a frame that is
not read goes wrong somewhere.
-/

namespace Frames

variable {σ α ω μ : Type*} (step : σ → α → σ) (out : σ → List ω) (wire : μ → List α)
  (meaning : μ → List ω) (Idle : σ → Prop)

/-- The frames one after the other. -/
def stream (ms : List μ) : List α := (ms.map wire).flatten

/-- What the frames say that are complete after `n` letters. -/
def delivered : List μ → ℕ → List ω
  | [], _ => []
  | m :: ms, n =>
    if (wire m).length ≤ n then meaning m ++ delivered ms (n - (wire m).length) else []

/-- An idle reader says the frame at its last letter. -/
structure Reads (m : μ) : Prop where
  quiet : ∀ s p, Idle s → p <+: wire m → p ≠ wire m → out (p.foldl step s) = out s
  idle : ∀ s, Idle s → Idle ((wire m).foldl step s)
  said : ∀ s, Idle s → out ((wire m).foldl step s) = out s ++ meaning m

/-- After some letters of the frame, an idle reader has not said what it should. -/
def Misreads (m : μ) : Prop :=
  ∀ s, Idle s → ∃ p, p <+: wire m ∧
    (p ≠ wire m ∧ out (p.foldl step s) ≠ out s
      ∨ p = wire m ∧ out (p.foldl step s) ≠ out s ++ meaning m)

variable {step out wire meaning Idle}

theorem length_lt_of_prefix_ne {p q : List α} (h : p <+: q) (hne : p ≠ q) :
    p.length < q.length := by
  rcases Nat.lt_or_eq_of_le h.length_le with hlt | heq
  · exact hlt
  · exact absurd (h.eq_of_length heq) hne

theorem delivered_of_lt {m : μ} {ms : List μ} {n : ℕ} (h : n < (wire m).length) :
    delivered wire meaning (m :: ms) n = [] := by
  rw [delivered, if_neg (by omega)]

theorem delivered_append {m : μ} {ms : List μ} (n : ℕ) :
    delivered wire meaning (m :: ms) ((wire m).length + n) =
      meaning m ++ delivered wire meaning ms n := by
  rw [delivered, if_pos (by omega), Nat.add_sub_cancel_left]

theorem delivered_zero (hne : ∀ m, wire m ≠ []) (ms : List μ) :
    delivered wire meaning ms 0 = [] := by
  cases ms with
  | nil => rfl
  | cons m ms => exact delivered_of_lt (List.length_pos_iff.2 (hne m))

/-- An idle reader has said what it should by every letter of the stream exactly when each of its
frames is clear, if those are the frames it reads. -/
theorem said_iff {Clear : μ → Prop} (hne : ∀ m, wire m ≠ []) :
    ∀ (ms : List μ), (∀ m ∈ ms, Clear m → Reads step out wire meaning Idle m) →
      (∀ m ∈ ms, ¬ Clear m → Misreads step out wire meaning Idle m) → ∀ s, Idle s →
      ((∀ p, p <+: stream wire ms →
          out (p.foldl step s) = out s ++ delivered wire meaning ms p.length) ↔
        ∀ m ∈ ms, Clear m)
  | [], _, _, s, _ => by simp [stream, delivered]
  | m :: ms, hgood, hbad, s, hs => by
    have hrest := said_iff hne ms (fun m hm => hgood m (List.mem_cons_of_mem _ hm))
      (fun m hm => hbad m (List.mem_cons_of_mem _ hm))
    have hstream : stream wire (m :: ms) = wire m ++ stream wire ms := rfl
    have happend : Clear m → ∀ q, out ((wire m ++ q).foldl step s) =
          out s ++ delivered wire meaning (m :: ms) (wire m ++ q).length ↔
        out (q.foldl step ((wire m).foldl step s)) =
          out ((wire m).foldl step s) ++ delivered wire meaning ms q.length := by
      intro hm q
      rw [List.foldl_append, List.length_append, delivered_append,
        (hgood m List.mem_cons_self hm).said s hs, List.append_assoc]
    constructor
    · intro h
      have hm : Clear m := by
        by_contra hm
        obtain ⟨p, hp, hwrong⟩ := hbad m List.mem_cons_self hm s hs
        have hsaid := h p (hstream ▸ hp.trans (List.prefix_append _ _))
        rcases hwrong with ⟨hpne, hwrong⟩ | ⟨rfl, hwrong⟩
        · rw [delivered_of_lt (length_lt_of_prefix_ne hp hpne), List.append_nil] at hsaid
          exact hwrong hsaid
        · have hd : delivered wire meaning (m :: ms) ((wire m).length + 0) = meaning m := by
            rw [delivered_append, delivered_zero hne, List.append_nil]
          rw [Nat.add_zero] at hd
          rw [hd] at hsaid
          exact hwrong hsaid
      refine List.forall_mem_cons.2 ⟨hm, ?_⟩
      refine (hrest _ ((hgood m List.mem_cons_self hm).idle s hs)).1 fun q hq => ?_
      exact (happend hm q).1 (h _ (hstream ▸ (List.prefix_append_right_inj _).2 hq))
    · intro h p hp
      obtain ⟨hm, hms⟩ := List.forall_mem_cons.1 h
      have hread := hgood m List.mem_cons_self hm
      rw [hstream] at hp
      by_cases hlen : p.length < (wire m).length
      · have hpm : p <+: wire m :=
          List.prefix_of_prefix_length_le hp (List.prefix_append _ _) (Nat.le_of_lt hlen)
        rw [delivered_of_lt hlen, List.append_nil]
        exact hread.quiet s p hs hpm fun heq => by simp [heq] at hlen
      · obtain ⟨q, rfl⟩ := List.prefix_of_prefix_length_le (List.prefix_append _ _) hp
          (by omega : (wire m).length ≤ p.length)
        exact (happend hm q).2 ((hrest _ (hread.idle s hs)).2 hms q
          ((List.prefix_append_right_inj _).1 hp))

end Frames
