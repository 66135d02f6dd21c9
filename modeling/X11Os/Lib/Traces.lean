import Mathlib.Data.List.Basic

/-!
# Runs with labels

A system with labelled steps, and its runs with the labels of their steps, oldest first.  When every step of a system
can be answered by a step of another one with the same label, so can every run (`Trace.simulates`).
-/

namespace X11Os

variable {σ τ ℓ : Type}

/-- From the first state, steps with these labels lead to the last state. -/
inductive Trace (step : σ → ℓ → σ → Prop) (first : σ) : List ℓ → σ → Prop
  | nil : Trace step first [] first
  | snoc {labels : List ℓ} {label : ℓ} {s s' : σ} (run : Trace step first labels s) (last : step s label s') :
    Trace step first (labels ++ [label]) s'

namespace Trace

variable {step : σ → ℓ → σ → Prop} {step' : τ → ℓ → τ → Prop} {first s : σ} {labels : List ℓ}

theorem single {label : ℓ} (h : step first label s) : Trace step first [label] s := .snoc .nil h

/-- A step-by-step simulation follows whole runs. -/
theorem simulates {R : τ → σ → Prop}
    (hstep : ∀ t s label s', R t s → step s label s' → ∃ t', step' t label t' ∧ R t' s') {first' : τ}
    (hfirst : R first' first) (h : Trace step first labels s) : ∃ t, Trace step' first' labels t ∧ R t s := by
  induction h with
  | nil => exact ⟨first', .nil, hfirst⟩
  | snoc _ hlast ih =>
    obtain ⟨t, hrun, hrelated⟩ := ih
    obtain ⟨t', hstep', hrelated'⟩ := hstep _ _ _ _ hrelated hlast
    exact ⟨t', hrun.snoc hstep', hrelated'⟩

end Trace

end X11Os
