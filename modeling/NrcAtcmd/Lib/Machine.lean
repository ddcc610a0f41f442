import Mathlib.Data.List.Basic
import Mathlib.Tactic.Common

/-!
# Runs of a machine

A machine is a partial step function: a state and an input give the next state, or the input is
not a step there. Whoever moves next, and whatever the outside answers, is part of the input, so
the runs of a machine are the lists of inputs.

An invariant that also reads the inputs so far is carried to the end of a run by `run_hist`, and
one that counts what happened along the way by `run_count`. `Along` says that every step of a run
meets a condition, which reads the state before the step and the input only.
-/

namespace Machine

variable {σ ι : Type*} (step : σ → ι → Option σ)

/-- The state after the inputs, if each of them is a step. -/
def run : σ → List ι → Option σ
  | s, [] => some s
  | s, i :: is => (step s i).bind fun s' => run s' is

/-- Every step the inputs take meets the condition. -/
def Along (C : σ → ι → Prop) : σ → List ι → Prop
  | _, [] => True
  | s, i :: is => C s i ∧ ∀ s' ∈ step s i, Along C s' is

/-- The machine with what `f` makes of its inputs beside the state. -/
def track {τ : Type*} (f : τ → ι → τ) (x : σ × τ) (i : ι) : Option (σ × τ) :=
  (step x.1 i).map fun s => (s, f x.2 i)

/-- What `f` counts at each step the inputs take, added up. -/
def count (f : σ → ι → ℕ) : σ → List ι → ℕ
  | _, [] => 0
  | s, i :: is => f s i + ((step s i).map fun s' => count f s' is).getD 0

variable {step}

instance decidableAlong {C : σ → ι → Prop} [∀ s, DecidablePred (C s)] :
    ∀ (s : σ) (is : List ι), Decidable (Along step C s is)
  | _, [] => isTrue trivial
  | s, i :: is =>
    have : Decidable (∀ s' ∈ step s i, Along step C s' is) :=
      match step s i with
      | none => isTrue (by simp)
      | some m =>
        have : Decidable (Along step C m is) := decidableAlong m is
        decidable_of_iff (Along step C m is) (by simp)
    inferInstanceAs (Decidable (_ ∧ _))

@[simp] theorem run_nil (s : σ) : run step s [] = some s := rfl

theorem run_cons_eq_some {s s' : σ} {i : ι} {is : List ι} :
    run step s (i :: is) = some s' ↔ ∃ m, step s i = some m ∧ run step m is = some s' := by
  simp [run, Option.bind_eq_some_iff]

theorem run_track {τ : Type*} (f : τ → ι → τ) : ∀ (is : List ι) (s : σ) (t : τ),
    run (track step f) (s, t) is = (run step s is).map fun s' => (s', is.foldl f t)
  | [], s, t => rfl
  | i :: is, s, t => by
    rcases hs : step s i with _ | m
    · simp [run, track, hs]
    · simp [run, track, hs, run_track f is m (f t i)]

theorem exists_run_track {τ : Type*} (f : τ → ι → τ) {P : σ → Prop} {is : List ι} {s : σ} {t : τ} :
    (∃ x, run (track step f) (s, t) is = some x ∧ P x.1) ↔ ∃ s', run step s is = some s' ∧ P s' := by
  rw [run_track]
  rcases run step s is with _ | s' <;> simp

theorem run_append {s s' : σ} {is js : List ι} :
    run step s (is ++ js) = some s' ↔ ∃ m, run step s is = some m ∧ run step m js = some s' := by
  induction is generalizing s with
  | nil => simp
  | cons i is ih =>
    simp only [List.cons_append, run_cons_eq_some, ih]
    constructor
    · rintro ⟨m, hm, n, hn, h⟩
      exact ⟨n, ⟨m, hm, hn⟩, h⟩
    · rintro ⟨n, ⟨m, hm, hn⟩, h⟩
      exact ⟨m, hm, n, hn, h⟩

/-- An invariant that reads the inputs so far and the count so far holds at the end of a run. -/
theorem run_count {f : σ → ι → ℕ} {P : List ι → ℕ → σ → Prop}
    (hs : ∀ h n s i s', P h n s → step s i = some s' → P (h ++ [i]) (n + f s i) s') :
    ∀ (is h : List ι) (n : ℕ) (s s' : σ), P h n s → run step s is = some s' →
      P (h ++ is) (n + count step f s is) s'
  | [], h, n, s, s', hP, hr => by
    simp only [run_nil, Option.some.injEq] at hr
    subst hr
    simpa [count] using hP
  | i :: is, h, n, s, s', hP, hr => by
    obtain ⟨m, hm, hr⟩ := run_cons_eq_some.1 hr
    have := run_count hs is (h ++ [i]) (n + f s i) m s' (hs h n s i m hP hm) hr
    simpa [count, hm, Nat.add_assoc] using this

/-- An invariant that reads the inputs so far holds at the end of a run whose steps all meet the
condition. -/
theorem run_hist_along {C : σ → ι → Prop} {P : List ι → σ → Prop}
    (hs : ∀ h s i s', P h s → C s i → step s i = some s' → P (h ++ [i]) s') :
    ∀ (is h : List ι) (s s' : σ), P h s → Along step C s is → run step s is = some s' →
      P (h ++ is) s'
  | [], h, s, s', hP, _, hr => by
    simp only [run_nil, Option.some.injEq] at hr
    subst hr
    simpa using hP
  | i :: is, h, s, s', hP, hC, hr => by
    obtain ⟨m, hm, hr⟩ := run_cons_eq_some.1 hr
    have := run_hist_along hs is (h ++ [i]) m s' (hs h s i m hP hC.1 hm) (hC.2 m hm) hr
    simpa using this

/-- Where every step that meets the condition can be taken and keeps the invariant, so can the run. -/
theorem run_total {C : σ → ι → Prop} {P : σ → Prop}
    (hs : ∀ s i, P s → C s i → ∃ s', step s i = some s' ∧ P s') :
    ∀ (is : List ι) (s : σ), P s → Along step C s is → ∃ s', run step s is = some s' ∧ P s'
  | [], s, hP, _ => ⟨s, rfl, hP⟩
  | i :: is, s, hP, hC => by
    obtain ⟨m, hm, hPm⟩ := hs s i hP hC.1
    obtain ⟨s', hr, hP'⟩ := run_total hs is m hPm (hC.2 m hm)
    exact ⟨s', run_cons_eq_some.2 ⟨m, hm, hr⟩, hP'⟩

theorem along_initial {C : σ → ι → Prop} : ∀ {js is : List ι} {s : σ}, js <+: is →
    Along step C s is → Along step C s js
  | [], _, _, _, _ => trivial
  | j :: js, is, s, hpre, h => by
    obtain ⟨is', rfl⟩ := hpre
    exact ⟨h.1, fun s' hs' => along_initial (List.prefix_append js is') (h.2 s' hs')⟩

/-- An invariant holds at the end of a run whose steps all meet the condition. -/
theorem run_along {C : σ → ι → Prop} {P : σ → Prop}
    (hs : ∀ s i s', P s → C s i → step s i = some s' → P s') {is : List ι} {s s' : σ}
    (h : P s) (hC : Along step C s is) (hr : run step s is = some s') : P s' :=
  run_hist_along (P := fun _ => P) (fun _ => hs) is [] s s' h hC hr

theorem along_true {C : σ → ι → Prop} (h : ∀ s i, C s i) :
    ∀ (is : List ι) (s : σ), Along step C s is
  | [], _ => trivial
  | i :: is, s => ⟨h s i, fun s' _ => along_true h is s'⟩

/-- An invariant holds at the end of every run. -/
theorem run_inv {P : σ → Prop} (hs : ∀ s i s', P s → step s i = some s' → P s') {is : List ι}
    {s s' : σ} (h : P s) (hr : run step s is = some s') : P s' :=
  run_along (C := fun _ _ => True) (fun s i s' hP _ => hs s i s' hP) h
    (along_true (fun _ _ => trivial) is s) hr

/-- Nothing is counted along a run exactly when nothing is counted at any of its steps. -/
theorem count_eq_zero {f : σ → ι → ℕ} : ∀ (is : List ι) (s : σ),
    count step f s is = 0 ↔ Along step (fun s i => f s i = 0) s is
  | [], _ => by simp [count, Along]
  | i :: is, s => by
    simp only [count, Along, Nat.add_eq_zero_iff]
    rcases hm : step s i with _ | m
    · simp
    · simp [count_eq_zero is m]

/-- Where a step that misses the condition leads to a state without `P`, the condition holds along a
run exactly when `P` holds in every state it reaches. -/
theorem along_iff {C : σ → ι → Prop} {I P : σ → Prop} (hP : ∀ s, I s → P s)
    (hs : ∀ s i s', I s → C s i → step s i = some s' → I s')
    (hbad : ∀ s i, I s → ¬ C s i → ∃ s', step s i = some s' ∧ ¬ P s') :
    ∀ (is : List ι) (s : σ), I s →
      ((∀ js s', js <+: is → run step s js = some s' → P s') ↔ Along step C s is)
  | [], s, hI => by
    simp only [List.prefix_nil, Along, iff_true]
    rintro js s' rfl hr
    simp only [run_nil, Option.some.injEq] at hr
    exact hr ▸ hP s hI
  | i :: is, s, hI => by
    constructor
    · intro h
      have hC : C s i := by
        by_contra hC
        obtain ⟨m, hm, hnP⟩ := hbad s i hI hC
        exact hnP (h [i] m (by simp) (by simp [run, hm]))
      refine ⟨hC, fun m hm => ?_⟩
      refine (along_iff hP hs hbad is m (hs s i m hI hC hm)).1 fun js s' hjs hr => ?_
      refine h (i :: js) s' ((List.prefix_cons_inj i).2 hjs) ?_
      rw [run_cons_eq_some]
      exact ⟨m, hm, hr⟩
    · rintro ⟨hC, h⟩ js s' hjs hr
      cases js with
      | nil =>
        simp only [run_nil, Option.some.injEq] at hr
        exact hr ▸ hP s hI
      | cons j js =>
        obtain ⟨rfl, hpre⟩ := List.cons_prefix_cons.1 hjs
        obtain ⟨m, hm, hr⟩ := run_cons_eq_some.1 hr
        exact (along_iff hP hs hbad is m (hs s j m hI hC hm)).2 (h m hm) js s' hpre hr

/-- Along the inputs of a run the condition holds exactly when `P` does in every state reached, where
a step that misses the condition leads to a state without `P`. -/
theorem along_iff_run {C : σ → ι → Prop} {I P : σ → Prop} (hP : ∀ s, I s → P s)
    (hs : ∀ s i s', I s → C s i → step s i = some s' → I s')
    (hbad : ∀ s i s', I s → ¬ C s i → step s i = some s' → ¬ P s') :
    ∀ {is : List ι} {s t : σ}, I s → run step s is = some t →
      ((∀ js s', js <+: is → run step s js = some s' → P s') ↔ Along step C s is)
  | [], s, t, hI, _ => by
    simp only [List.prefix_nil, Along, iff_true]
    rintro js s' rfl hr
    simp only [run_nil, Option.some.injEq] at hr
    exact hr ▸ hP s hI
  | i :: is, s, t, hI, ht => by
    obtain ⟨m, hm, hrest⟩ := run_cons_eq_some.1 ht
    constructor
    · intro h
      have hC : C s i := by
        by_contra hC
        exact hbad s i m hI hC hm (h [i] m (by simp) (by simp [run, hm]))
      refine ⟨hC, fun m' hm' => ?_⟩
      obtain rfl := Option.some.inj (hm.symm.trans hm')
      refine (along_iff_run hP hs hbad (hs s i m hI hC hm) hrest).1 fun js s' hjs hr => ?_
      exact h (i :: js) s' ((List.prefix_cons_inj i).2 hjs) (run_cons_eq_some.2 ⟨m, hm, hr⟩)
    · rintro ⟨hC, h⟩ js s' hjs hr
      cases js with
      | nil =>
        simp only [run_nil, Option.some.injEq] at hr
        exact hr ▸ hP s hI
      | cons j js =>
        obtain ⟨rfl, hpre⟩ := List.cons_prefix_cons.1 hjs
        obtain ⟨m', hm', hr⟩ := run_cons_eq_some.1 hr
        obtain rfl := Option.some.inj (hm.symm.trans hm')
        exact (along_iff_run hP hs hbad (hs s j m hI hC hm) hrest).2 (h m hm) js s' hpre hr

/-- Where a step that meets the condition can be taken, and one that misses it cannot or leads to a
state without `P`, the condition holds along the inputs exactly when all of them are steps and `P`
holds in every state they reach. -/
theorem along_iff_total {C : σ → ι → Prop} {I P : σ → Prop} (hP : ∀ s, I s → P s)
    (hs : ∀ s i, I s → C s i → ∃ s', step s i = some s' ∧ I s')
    (hbad : ∀ s i s', I s → ¬ C s i → step s i = some s' → ¬ P s') :
    ∀ (is : List ι) (s : σ), I s →
      ((∀ js, js <+: is → ∃ s', run step s js = some s' ∧ P s') ↔ Along step C s is)
  | [], s, hI => by
    simp only [List.prefix_nil, Along, iff_true]
    rintro js rfl
    exact ⟨s, rfl, hP s hI⟩
  | i :: is, s, hI => by
    constructor
    · intro h
      have hC : C s i := by
        by_contra hC
        obtain ⟨s', hr, hs'⟩ := h [i] (by simp)
        obtain ⟨m, hm, hr⟩ := run_cons_eq_some.1 hr
        obtain rfl := Option.some.inj hr
        exact hbad s i m hI hC hm hs'
      obtain ⟨m, hm, hIm⟩ := hs s i hI hC
      refine ⟨hC, fun m' hm' => ?_⟩
      obtain rfl := Option.some.inj (hm.symm.trans hm')
      refine (along_iff_total hP hs hbad is m hIm).1 fun js hjs => ?_
      obtain ⟨s', hr, hs'⟩ := h (i :: js) ((List.prefix_cons_inj i).2 hjs)
      obtain ⟨m', hm', hr⟩ := run_cons_eq_some.1 hr
      obtain rfl := Option.some.inj (hm.symm.trans hm')
      exact ⟨s', hr, hs'⟩
    · rintro ⟨hC, h⟩ js hjs
      cases js with
      | nil => exact ⟨s, rfl, hP s hI⟩
      | cons j js =>
        obtain ⟨rfl, hpre⟩ := List.cons_prefix_cons.1 hjs
        obtain ⟨m, hm, hIm⟩ := hs s j hI hC
        obtain ⟨s', hr, hs'⟩ := (along_iff_total hP hs hbad is m hIm).2 (h m hm) js hpre
        exact ⟨s', run_cons_eq_some.2 ⟨m, hm, hr⟩, hs'⟩

/-- Where a step that misses the condition leads out of the good states for good, a run ends in a
good state exactly when the condition holds along it, and in a bad one otherwise. -/
theorem run_good_or_bad {C : σ → ι → Prop} {G B : σ → Prop}
    (hgood : ∀ s i s', G s → C s i → step s i = some s' → G s')
    (hmiss : ∀ s i s', G s → ¬ C s i → step s i = some s' → B s')
    (hbad : ∀ s i s', B s → step s i = some s' → B s') :
    ∀ {is : List ι} {s s' : σ}, G s → run step s is = some s' →
      (Along step C s is ∧ G s') ∨ (¬ Along step C s is ∧ B s')
  | [], s, s', hG, hr => by
    simp only [run_nil, Option.some.injEq] at hr
    exact .inl ⟨trivial, hr ▸ hG⟩
  | i :: is, s, s', hG, hr => by
    obtain ⟨m, hm, hr⟩ := run_cons_eq_some.1 hr
    have hiff : Along step C s (i :: is) ↔ C s i ∧ Along step C m is := by
      simp [Along, hm]
    rw [hiff]
    by_cases hC : C s i
    · rcases run_good_or_bad hgood hmiss hbad (hgood s i m hG hC hm) hr with ⟨h, hs'⟩ | ⟨h, hs'⟩
      · exact .inl ⟨⟨hC, h⟩, hs'⟩
      · exact .inr ⟨fun h' => h h'.2, hs'⟩
    · exact .inr ⟨fun h' => hC h'.1, run_inv hbad (hmiss s i m hG hC hm) hr⟩

/-- A run whose every step leaves less to do has no more steps than there was to do. -/
theorem run_length_le {C : σ → ι → Prop} {P : σ → Prop} {work : σ → ℕ}
    (hs : ∀ s i s', P s → C s i → step s i = some s' → P s' ∧ work s' < work s) :
    ∀ {is : List ι} {s s' : σ}, P s → Along step C s is → run step s is = some s' →
      is.length + work s' ≤ work s
  | [], s, s', _, _, hr => by
    simp only [run_nil, Option.some.injEq] at hr
    simp [hr]
  | i :: is, s, s', hP, hC, hr => by
    obtain ⟨m, hm, hr⟩ := run_cons_eq_some.1 hr
    obtain ⟨hPm, hlt⟩ := hs s i m hP hC.1 hm
    have := run_length_le hs hPm (hC.2 m hm) hr
    rw [List.length_cons]
    omega

/-- What an invariant implies of every step is met along every run. -/
theorem along_of_inv {C : σ → ι → Prop} {P : σ → Prop}
    (hs : ∀ s i s', P s → step s i = some s' → P s') (hC : ∀ s i, P s → C s i) :
    ∀ (is : List ι) {s : σ}, P s → Along step C s is
  | [], _, _ => trivial
  | i :: is, s, hP => ⟨hC s i hP, fun m hm => along_of_inv hs hC is (hs s i m hP hm)⟩

theorem along_and {C D : σ → ι → Prop} : ∀ {is : List ι} {s : σ},
    Along step (fun s i => C s i ∧ D s i) s is ↔ Along step C s is ∧ Along step D s is
  | [], _ => by simp [Along]
  | i :: is, s => by
    have ih : ∀ m, Along step (fun s i => C s i ∧ D s i) m is ↔
        Along step C m is ∧ Along step D m is := fun _ => along_and
    simp only [Along, ih]
    exact ⟨fun ⟨⟨hc, hd⟩, h⟩ => ⟨⟨hc, fun m hm => (h m hm).1⟩, hd, fun m hm => (h m hm).2⟩,
      fun ⟨⟨hc, h⟩, hd, h'⟩ => ⟨⟨hc, hd⟩, fun m hm => ⟨h m hm, h' m hm⟩⟩⟩

/-- Conditions that are the same at every step are the same along a run. -/
theorem along_congr {C D : σ → ι → Prop} (h : ∀ s i, C s i ↔ D s i) :
    ∀ (is : List ι) (s : σ), Along step C s is ↔ Along step D s is
  | [], _ => Iff.rfl
  | i :: is, s => and_congr (h s i) (forall_congr' fun s' => imp_congr_right fun _ =>
      along_congr h is s')

end Machine
