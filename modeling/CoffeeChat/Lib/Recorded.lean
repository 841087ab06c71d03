import CoffeeChat.Lib.Run

/-!
# Runs with a log

A state says what has become of a system, not which inputs have brought it there. `Recorded` adds
a log to the state; `step` writes down what `note` makes of every step that returns. The log is a
spectator: the runs of the recorded system are those of the system (`exec_iff`), and what always
holds of its states always holds of the states of the system (`always_state_iff`).
-/

namespace Lib

/-- A state, and what has been written down on the way to it. -/
structure Recorded (σ ω : Type) where
  state : σ
  log : List ω

namespace Recorded

variable {σ ω α ε : Type}

/-- Take the step and write it down. -/
def step (next : σ → α → Except ε σ) (note : σ → α → σ → List ω) (r : Recorded σ ω) (x : α) :
    Except ε (Recorded σ ω) := do
  let s ← next r.state x
  return ⟨s, r.log ++ note r.state x s⟩

variable {next : σ → α → Except ε σ} {note : σ → α → σ → List ω} {r r' : Recorded σ ω}

theorem step_eq_ok {x : α} : step next note r x = .ok r' ↔
    next r.state x = .ok r'.state ∧ r'.log = r.log ++ note r.state x r'.state := by
  unfold step
  cases hnext : next r.state x with
  | error e => exact iff_of_false (fun h ↦ by cases h) (fun h ↦ by cases h.1)
  | ok s =>
      constructor
      · intro h
        cases h
        exact ⟨rfl, rfl⟩
      · rintro ⟨hs, hlog⟩
        cases Except.ok.inj hs
        exact congrArg (Except.ok ∘ Recorded.mk r'.state) hlog.symm

/-- Every step of the system can be recorded. -/
theorem step_of_next {x : α} {s : σ} (h : next r.state x = .ok s) :
    step next note r x = .ok ⟨s, r.log ++ note r.state x s⟩ :=
  step_eq_ok.mpr ⟨h, rfl⟩

/-- The runs with a log are the runs without. -/
theorem exec_iff {s' : σ} {xs : List α} : Run.exec next r.state xs = .ok s' ↔
    ∃ log, Run.exec (step next note) r xs = .ok ⟨s', log⟩ := by
  induction xs generalizing r with
  | nil =>
      constructor
      · intro h
        cases h
        exact ⟨r.log, rfl⟩
      · rintro ⟨log, h⟩
        cases h
        rfl
  | cons x xs ih =>
      rw [Run.exec_cons_eq_ok]
      constructor
      · rintro ⟨s, hs, hrest⟩
        obtain ⟨log, hlog⟩ := (ih (r := ⟨s, r.log ++ note r.state x s⟩)).mp hrest
        exact ⟨log, Run.exec_cons_eq_ok.mpr ⟨_, step_of_next hs, hlog⟩⟩
      · rintro ⟨log, h⟩
        obtain ⟨r', hr', hrest⟩ := Run.exec_cons_eq_ok.mp h
        exact ⟨r'.state, (step_eq_ok.mp hr').1, ih.mpr ⟨log, hrest⟩⟩

/-- What speaks of the states only is not changed by the log. -/
theorem always_state_iff {p : σ → Prop} {xs : List α} :
    Run.Always (fun r ↦ p r.state) (step next note) r xs ↔ Run.Always p next r.state xs := by
  induction xs generalizing r with
  | nil => exact Iff.rfl
  | cons x xs ih =>
      constructor
      · rintro ⟨hp, hrest⟩
        exact ⟨hp, fun s hs ↦ ih.mp (hrest _ (step_of_next hs))⟩
      · rintro ⟨hp, hrest⟩
        exact ⟨hp, fun r' hr' ↦ ih.mpr (hrest r'.state (step_eq_ok.mp hr').1)⟩

/-- A condition on the steps of the system is one on the recorded steps. -/
theorem along_state {good : σ → α → Prop} {xs : List α} (h : Run.Along good next r.state xs) :
    Run.Along (fun r x ↦ good r.state x) (step next note) r xs := by
  induction xs generalizing r with
  | nil => trivial
  | cons x xs ih =>
      intro r' hr'
      obtain ⟨hgood, hrest⟩ := h r'.state (step_eq_ok.mp hr').1
      exact ⟨hgood, ih hrest⟩

end Recorded

end Lib
