import Mathlib.Data.List.Basic

/-!
# Purging a run

An observer of a run sees `obs` of its states. If the ignored events change nothing he sees, and
what he sees after an event depends on what he saw before it, then the run without the ignored
events looks the same in the end (`obs_run_purge`).
-/

namespace Interference

variable {σ ε τ : Type*} (step : σ → ε → σ) (ignored : σ → ε → Bool)

/-- The state after the events. -/
def run (s : σ) (es : List ε) : σ := es.foldl step s

@[simp] theorem run_nil (s : σ) : run step s [] = s := rfl

@[simp] theorem run_cons (s : σ) (e : ε) (es : List ε) :
    run step s (e :: es) = run step (step s e) es := rfl

/-- The events without those that are ignored in the state in which they happen. -/
def purge : σ → List ε → List ε
  | _, [] => []
  | s, e :: es => if ignored s e then purge (step s e) es else e :: purge (step s e) es

variable {step ignored}

/-- What holds in the first state and is kept by every event holds in the last. -/
theorem run_invariant {I : σ → Prop} (hstep : ∀ s e, I s → I (step s e)) {s : σ} (hs : I s)
    (es : List ε) : I (run step s es) := by
  induction es generalizing s with
  | nil => exact hs
  | cons e es ih => exact ih (hstep s e hs)

variable {obs : σ → τ}

/-- **The ignored events leave no trace.** -/
theorem obs_run_purge (hignored : ∀ s e, ignored s e = true → obs (step s e) = obs s)
    (hcongr : ∀ s t e, obs s = obs t → obs (step s e) = obs (step t e)) {s t : σ}
    (hst : obs s = obs t) (es : List ε) :
    obs (run step t (purge step ignored s es)) = obs (run step s es) := by
  induction es generalizing s t with
  | nil => exact hst.symm
  | cons e es ih =>
    rw [purge, run_cons]
    split
    · next he => exact ih ((hignored s e he).trans hst)
    · exact ih (hcongr s t e hst)

end Interference
