import NrcAtcmd.Lib.Machine

/-!
# One step made of many

A machine whose steps are runs of a finer one: each coarse step is matched by a run of fine steps
between related states (`run_reaches`).
-/

namespace Machine

variable {σ τ ι κ : Type*} {step : σ → ι → Option σ} {coarse : τ → κ → Option τ}

/-- Some inputs take `s` to `t`. -/
def Reaches (step : σ → ι → Option σ) (s t : σ) : Prop := ∃ is, run step s is = some t

namespace Reaches

variable {s t u : σ}

theorem refl (s : σ) : Reaches step s s := ⟨[], rfl⟩

theorem single {i : ι} (h : step s i = some t) : Reaches step s t :=
  ⟨[i], by simp [run_cons_eq_some, h]⟩

theorem trans (hst : Reaches step s t) (htu : Reaches step t u) : Reaches step s u := by
  obtain ⟨is, his⟩ := hst
  obtain ⟨js, hjs⟩ := htu
  exact ⟨is ++ js, run_append.2 ⟨t, his, hjs⟩⟩

theorem head {i : ι} (h : step s i = some t) (htu : Reaches step t u) : Reaches step s u :=
  (single h).trans htu

end Reaches

/-- A run of the coarse machine is matched by one of the fine machine. -/
theorem run_reaches {R : τ → σ → Prop}
    (hs : ∀ a k a' s, coarse a k = some a' → R a s → ∃ s', Reaches step s s' ∧ R a' s')
    {ks : List κ} {a a' : τ} {s : σ} (hr : run coarse a ks = some a') (hR : R a s) :
    ∃ s', Reaches step s s' ∧ R a' s' := by
  induction ks generalizing a s with
  | nil =>
    obtain rfl := Option.some.inj hr
    exact ⟨s, .refl s, hR⟩
  | cons k ks ih =>
    obtain ⟨b, hb, hr⟩ := run_cons_eq_some.1 hr
    obtain ⟨t, hst, ht⟩ := hs a k b s hb hR
    obtain ⟨u, htu, hu⟩ := ih hr ht
    exact ⟨u, hst.trans htu, hu⟩

end Machine
