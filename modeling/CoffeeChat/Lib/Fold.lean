import Mathlib.Data.List.Basic

/-!
# Folds compared through an abstraction

Two left folds over the same inputs, a concrete one over `σ` and an abstract one over `τ`, with an
abstraction `abs : σ → τ` that a step keeps only where a side condition on its state and input
holds. `Along` says that the condition holds at every step of a run and `outputs` lists what the
steps of a run show. The condition is sufficient for the final states to correspond
(`foldl_abs`), and where it is also necessary for one step to show the right thing, it is
necessary for the run to do so (`outputs_iff`).
-/

namespace Lib.Fold

variable {σ τ α ω ω' : Type}

/-- The condition holds of the state and the input of every step of a run. -/
def Along (good : σ → α → Prop) (step : σ → α → σ) : σ → List α → Prop
  | _, [] => True
  | s, x :: xs => good s x ∧ Along good step (step s x) xs

/-- What each step of a run shows. -/
def outputs (step : σ → α → σ) (out : σ → α → ω) : σ → List α → List ω
  | _, [] => []
  | s, x :: xs => out s x :: outputs step out (step s x) xs

variable {good : σ → α → Prop} {step : σ → α → σ} {step' : τ → α → τ} {abs : σ → τ}

/-- A condition that always holds holds along every run. -/
theorem Along.of_forall (h : ∀ s x, good s x) (s : σ) (xs : List α) : Along good step s xs := by
  induction xs generalizing s with
  | nil => trivial
  | cons x xs ih => exact ⟨h s x, ih (step s x)⟩

/-- Where every step meets the condition, the final states correspond. -/
theorem foldl_abs {s : σ} {xs : List α}
    (hstep : ∀ s, ∀ x ∈ xs, good s x → abs (step s x) = step' (abs s) x)
    (h : Along good step s xs) : abs (xs.foldl step s) = xs.foldl step' (abs s) := by
  induction xs generalizing s with
  | nil => rfl
  | cons x xs ih =>
      obtain ⟨hgood, hrest⟩ := h
      have htail := ih (fun s y hy ↦ hstep s y (List.mem_cons_of_mem x hy)) hrest
      rw [List.foldl_cons, List.foldl_cons, htail, hstep s x List.mem_cons_self hgood]

/-- If a step shows what the abstract one shows exactly when it meets the condition, and then
keeps the abstraction, a run shows what the abstract one shows exactly when all its steps meet
the condition. -/
theorem outputs_iff {out : σ → α → ω} {out' : τ → α → ω'} {view : ω → ω'} (s : σ) {xs : List α}
    (hstep : ∀ s, ∀ x ∈ xs, good s x → abs (step s x) = step' (abs s) x)
    (hout : ∀ s, ∀ x ∈ xs, (view (out s x) = out' (abs s) x ↔ good s x)) :
    (outputs step out s xs).map view = outputs step' out' (abs s) xs ↔ Along good step s xs := by
  induction xs generalizing s with
  | nil => exact iff_of_true rfl trivial
  | cons x xs ih =>
      have htail := ih (step s x) (fun s y hy ↦ hstep s y (List.mem_cons_of_mem x hy))
        (fun s y hy ↦ hout s y (List.mem_cons_of_mem x hy))
      simp only [outputs, List.map_cons, List.cons.injEq, Along, hout s x List.mem_cons_self]
      refine and_congr_right fun hgood ↦ ?_
      rw [← hstep s x List.mem_cons_self hgood]
      exact htail

end Lib.Fold
