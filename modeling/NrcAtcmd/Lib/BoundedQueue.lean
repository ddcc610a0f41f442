import Mathlib.Data.Int.Notation
import Mathlib.Data.List.Basic
import Mathlib.Tactic.Common

/-!
# A bounded queue

A queue for `n` letters takes what fits of a block and gives its oldest letters, in order. `Step`
says what each operation answers and leaves. What `advance` adds is not said, only how much. An
implementation whose every step is one of the queue has only runs that are runs of the queue
(`Run.of_step`).
-/

namespace BoundedQueue

/-- Blocks come with the length asked for, which may be negative. -/
inductive Op (α : Type*)
  | write (block : List α) (len : ℤ)
  | advance (len : ℤ)
  | read (len : ℤ)
  | skip (len : ℤ)
  | push (a : α)
  | pop
  | clear

/-- The number an operation returns, and the letters it gives. -/
structure Answer (α : Type*) where
  ret : ℕ
  given : List α
  deriving DecidableEq

variable {α : Type*}

/-- What a caller may ask of a queue for `n` letters that holds `q`. -/
def Allowed (n : ℕ) (q : List α) : Op α → Prop
  | .write block len => len ≤ block.length
  | .push _ => q.length < n
  | .pop => q ≠ []
  | _ => True

inductive Step (n : ℕ) : List α → Op α → Answer α → List α → Prop
  | write {q block : List α} {len : ℤ} {k : ℕ} (hlen : len ≤ block.length)
    (hk : k = min len.toNat (n - q.length)) :
    Step n q (.write block len) ⟨k, []⟩ (q ++ block.take k)
  | advance {q w : List α} {len : ℤ} (hk : w.length = min len.toNat (n - q.length)) :
    Step n q (.advance len) ⟨w.length, []⟩ (q ++ w)
  | read {q : List α} {len : ℤ} {k : ℕ} (hk : k = min len.toNat q.length) :
    Step n q (.read len) ⟨k, q.take k⟩ (q.drop k)
  | skip {q : List α} {len : ℤ} {k : ℕ} (hk : k = min len.toNat q.length) :
    Step n q (.skip len) ⟨k, []⟩ (q.drop k)
  | push {q : List α} {a : α} (h : q.length < n) : Step n q (.push a) ⟨0, []⟩ (q ++ [a])
  | pop {q : List α} {a : α} : Step n (a :: q) .pop ⟨0, [a]⟩ q
  | clear {q : List α} : Step n q .clear ⟨0, []⟩ []

inductive Run (n : ℕ) : List α → List (Op α) → List (Answer α) → List α → Prop
  | nil (q : List α) : Run n q [] [] q
  | cons {q q' q'' : List α} {op : Op α} {a : Answer α} {ops : List (Op α)}
    {as : List (Answer α)} (h : Step n q op a q') (hr : Run n q' ops as q'') :
    Run n q (op :: ops) (a :: as) q''

variable {σ : Type*}

/-- The answers of an implementation, and its state after them. -/
def run (step : σ → Op α → Option (Answer α × σ)) : σ → List (Op α) → Option (List (Answer α) × σ)
  | s, [] => some ([], s)
  | s, op :: ops => (step s op).bind fun r => (run step r.2 ops).map fun r' => (r.1 :: r'.1, r'.2)

theorem Run.of_step {step : σ → Op α → Option (Answer α × σ)} {contents : σ → List α}
    {I : σ → Prop} {n : ℕ}
    (hs : ∀ s op a s', I s → step s op = some (a, s') →
      I s' ∧ Step n (contents s) op a (contents s')) :
    ∀ {ops : List (Op α)} {s s' : σ} {as : List (Answer α)}, I s → run step s ops = some (as, s') →
      I s' ∧ Run n (contents s) ops as (contents s')
  | [], s, s', as, hI, hr => by
    obtain ⟨rfl, rfl⟩ := Prod.mk.inj (Option.some.inj hr)
    exact ⟨hI, .nil _⟩
  | op :: ops, s, s', as, hI, hr => by
    obtain ⟨⟨a, m⟩, hm, hr⟩ := Option.bind_eq_some_iff.1 hr
    obtain ⟨⟨as', m'⟩, hm', hr⟩ := Option.map_eq_some_iff.1 hr
    obtain ⟨rfl, rfl⟩ := Prod.mk.inj hr
    obtain ⟨hIm, hstep⟩ := hs s op a m hI hm
    obtain ⟨hI', hrun⟩ := Run.of_step hs hIm hm'
    exact ⟨hI', .cons hstep hrun⟩

end BoundedQueue
