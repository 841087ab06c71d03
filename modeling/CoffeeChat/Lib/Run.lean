import Mathlib.Data.List.Basic

/-!
# Runs of a step that may fail

A system takes one input after another; a step either returns the next state or fails, which ends
the run. `exec` plays a list of inputs, `Along good` says that every step that returns was taken
from a state and with an input that `good` allows, and `Always p` that every state reached
satisfies `p`.

An invariant that every good step keeps always holds along good steps (`always_of_along`). Where a
step keeps the property exactly when it is good, a run always has the property exactly when its
steps are good (`always_iff_along`).
-/

namespace Lib.Run

variable {σ α ε : Type}

/-- Play the inputs in order; the first step that fails ends the run. -/
def exec (step : σ → α → Except ε σ) : σ → List α → Except ε σ
  | s, [] => .ok s
  | s, x :: xs => step s x >>= fun s' => exec step s' xs

/-- Every step that returns was taken from a state and with an input that `good` allows. -/
def Along (good : σ → α → Prop) (step : σ → α → Except ε σ) : σ → List α → Prop
  | _, [] => True
  | s, x :: xs => ∀ s', step s x = .ok s' → good s x ∧ Along good step s' xs

/-- Every state the run reaches, the first included, satisfies `p`. -/
def Always (p : σ → Prop) (step : σ → α → Except ε σ) : σ → List α → Prop
  | s, [] => p s
  | s, x :: xs => p s ∧ ∀ s', step s x = .ok s' → Always p step s' xs

variable {step : σ → α → Except ε σ} {good good' : σ → α → Prop} {inv p q : σ → Prop}

/-- A run that returns is a first step that returns followed by a run that returns. -/
theorem exec_cons_eq_ok {s final : σ} {x : α} {xs : List α} :
    exec step s (x :: xs) = .ok final ↔ ∃ s', step s x = .ok s' ∧ exec step s' xs = .ok final := by
  cases h : step s x with
  | error fault => simp [exec, h, bind, Except.bind]
  | ok s' => simp [exec, h, bind, Except.bind]

/-- One input more is one step from the last state. -/
theorem exec_concat_eq_ok {s last final : σ} {xs : List α} {x : α}
    (h : exec step s xs = .ok last) :
    exec step s (xs ++ [x]) = .ok final ↔ step last x = .ok final := by
  induction xs generalizing s with
  | nil =>
      cases h
      rw [List.nil_append, exec_cons_eq_ok]
      constructor
      · rintro ⟨s', hs', hnil⟩
        cases hnil
        exact hs'
      · intro hs'
        exact ⟨final, hs', rfl⟩
  | cons y ys ih =>
      obtain ⟨s', hs', hrest⟩ := exec_cons_eq_ok.mp h
      rw [List.cons_append, exec_cons_eq_ok, ← ih hrest]
      constructor
      · rintro ⟨s'', hs'', hrun⟩
        cases hs'.symm.trans hs''
        exact hrun
      · intro hrun
        exact ⟨s', hs', hrun⟩

/-- A run that goes on where another has ended. -/
theorem exec_append {s mid final : σ} {xs ys : List α} (h : exec step s xs = .ok mid)
    (h' : exec step mid ys = .ok final) : exec step s (xs ++ ys) = .ok final := by
  induction xs generalizing s with
  | nil =>
      cases h
      exact h'
  | cons x xs ih =>
      obtain ⟨s', hs', hrest⟩ := exec_cons_eq_ok.mp h
      exact exec_cons_eq_ok.mpr ⟨s', hs', ih hrest⟩

/-- A run that is known to return something has a last state. -/
theorem exec_of_view {τ : Type} (step : σ → α → Except ε σ) (view : σ → τ) {v : τ} (s : σ)
    (xs : List α)
    (h : (exec step s xs).toOption.map view = some v) :
    ∃ final, exec step s xs = .ok final ∧ view final = v := by
  cases hrun : exec step s xs with
  | error fault =>
      rw [hrun] at h
      cases h
  | ok final =>
      rw [hrun] at h
      exact ⟨final, rfl, Option.some.inj h⟩

/-- What always holds holds of the first state. -/
theorem Always.head {s : σ} {xs : List α} (h : Always p step s xs) : p s := by
  cases xs with
  | nil => exact h
  | cons x xs => exact h.1

/-- What always holds holds of the last state. -/
theorem Always.last {s final : σ} {xs : List α} (h : Always p step s xs)
    (hrun : exec step s xs = .ok final) : p final := by
  induction xs generalizing s with
  | nil =>
      cases hrun
      exact h
  | cons x xs ih =>
      obtain ⟨s', hs', hrest⟩ := exec_cons_eq_ok.mp hrun
      exact ih (h.2 s' hs') hrest

/-- What always holds may be weakened. -/
theorem Always.mono {s : σ} {xs : List α} (h : Always p step s xs) (himp : ∀ s, p s → q s) :
    Always q step s xs := by
  induction xs generalizing s with
  | nil => exact himp s h
  | cons x xs ih => exact ⟨himp s h.1, fun s' hs' ↦ ih (h.2 s' hs')⟩

/-- Two properties that always hold hold together. -/
theorem Always.and {s : σ} {xs : List α} (hp : Always p step s xs) (hq : Always q step s xs) :
    Always (fun s ↦ p s ∧ q s) step s xs := by
  induction xs generalizing s with
  | nil => exact ⟨hp, hq⟩
  | cons x xs ih => exact ⟨⟨hp.1, hq.1⟩, fun s' hs' ↦ ih (hp.2 s' hs') (hq.2 s' hs')⟩

/-- An invariant that every good step keeps holds in every state of a run of good steps. -/
theorem always_of_along (inv : σ → Prop) {s : σ} {xs : List α} (hinit : inv s)
    (hstep : ∀ s x s', inv s → good s x → step s x = .ok s' → inv s')
    (h : Along good step s xs) : Always inv step s xs := by
  induction xs generalizing s with
  | nil => exact hinit
  | cons x xs ih =>
      refine ⟨hinit, fun s' hs' ↦ ?_⟩
      obtain ⟨hgood, hrest⟩ := h s' hs'
      exact ih (hstep s x s' hinit hgood hs') hrest

/-- A condition that always holds holds along every run. -/
theorem Along.of_forall (h : ∀ s x, good s x) (s : σ) (xs : List α) : Along good step s xs := by
  induction xs generalizing s with
  | nil => trivial
  | cons x xs ih => exact fun s' _ ↦ ⟨h s x, ih s'⟩

/-- Two conditions that hold along a run, and what they allow together. -/
theorem Along.imp₂ {good'' : σ → α → Prop} {s : σ} {xs : List α} (h : Along good step s xs)
    (h' : Along good' step s xs) (himp : ∀ s x, good s x → good' s x → good'' s x) :
    Along good'' step s xs := by
  induction xs generalizing s with
  | nil => trivial
  | cons x xs ih =>
      intro s' hs'
      obtain ⟨hgood, hrest⟩ := h s' hs'
      obtain ⟨hgood', hrest'⟩ := h' s' hs'
      exact ⟨himp s x hgood hgood', ih hrest hrest'⟩

/-- One good step more. -/
theorem Along.concat {s last : σ} {xs : List α} {x : α} (hrun : exec step s xs = .ok last)
    (h : Along good step s xs) (hx : good last x) : Along good step s (xs ++ [x]) := by
  induction xs generalizing s with
  | nil =>
      cases hrun
      exact fun s' _ ↦ ⟨hx, trivial⟩
  | cons y ys ih =>
      obtain ⟨s1, hs1, hrest⟩ := exec_cons_eq_ok.mp hrun
      intro s' hs'
      cases hs1.symm.trans hs'
      exact ⟨(h s1 hs1).1, ih hrest (h s1 hs1).2⟩

/-- Under an invariant of all steps, what is good may be weakened. -/
theorem Along.mono (inv : σ → Prop) {s : σ} {xs : List α} (hinv : inv s)
    (hkeep : ∀ s x s', inv s → step s x = .ok s' → inv s')
    (himp : ∀ s x, inv s → good s x → good' s x) (h : Along good step s xs) :
    Along good' step s xs := by
  induction xs generalizing s with
  | nil => trivial
  | cons x xs ih =>
      intro s' hs'
      obtain ⟨hgood, hrest⟩ := h s' hs'
      exact ⟨himp s x hinv hgood, ih (hkeep s x s' hinv hs') hrest⟩

/-- An invariant that every step keeps holds in every state of every run. -/
theorem always_of_invariant (step : σ → α → Except ε σ) (inv : σ → Prop) {s : σ} (hinit : inv s)
    (hstep : ∀ s x s', inv s → step s x = .ok s' → inv s') (xs : List α) :
    Always inv step s xs :=
  have halong : Along (fun _ _ ↦ True) step s xs := Along.of_forall (fun _ _ ↦ trivial) s xs
  always_of_along inv hinit (fun s x s' hs _ ↦ hstep s x s' hs) halong

/-- Under an invariant of all steps, if a step from a state with the property keeps it exactly
when the step is good, a run from a state with the property always has it exactly when all its
steps are good. -/
theorem always_iff_along (inv : σ → Prop) {s : σ} {xs : List α} (hinv : inv s) (hinit : p s)
    (hkeep : ∀ s x s', inv s → step s x = .ok s' → inv s')
    (hstep : ∀ s x s', inv s → p s → step s x = .ok s' → (p s' ↔ good s x)) :
    Always p step s xs ↔ Along good step s xs := by
  induction xs generalizing s with
  | nil => exact iff_of_true hinit trivial
  | cons x xs ih =>
      have hnext (s' : σ) (hs' : step s x = .ok s') :
          Always p step s' xs ↔ good s x ∧ Along good step s' xs := by
        have hp := hstep s x s' hinv hinit hs'
        constructor
        · intro h
          have hhead : p s' := h.head
          exact ⟨hp.mp hhead, (ih (hkeep s x s' hinv hs') hhead).mp h⟩
        · rintro ⟨hgood, hrest⟩
          have hhead : p s' := hp.mpr hgood
          exact (ih (hkeep s x s' hinv hs') hhead).mpr hrest
      constructor
      · intro h s' hs'
        exact (hnext s' hs').mp (h.2 s' hs')
      · intro h
        exact ⟨hinit, fun s' hs' ↦ (hnext s' hs').mpr (h s' hs')⟩

end Lib.Run
