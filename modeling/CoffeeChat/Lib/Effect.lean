import Mathlib.Data.List.Basic

/-!
# Programs that throw

A C++ function over a state that lives on when an exception is thrown: `Program σ` is the type of
such programs, `attempt` is `try { … } catch (const std::exception&) { … }` and `noexcept` the
specifier that ends the process instead. `Ends x s post fail` says what holds when `x`, started in
`s`, has returned and what holds when it has thrown; its rules follow the shape of the program.
`Yields` is the case of a program that returns.
-/

namespace Lib.Effect

/-- How a program ends other than by returning. -/
inductive Escape where
  /-- An exception that derives from `std::exception`. -/
  | exception
  /-- `std::terminate`; nothing catches it. -/
  | terminate
  deriving DecidableEq, Repr

/-- A program over the state `σ`, which survives an exception. -/
abbrev Program (σ : Type) := EStateM Escape σ

variable {σ α β : Type}

/-- `try x catch (const std::exception&) handler`. -/
def attempt (x handler : Program σ α) : Program σ α :=
  tryCatch x fun
    | .exception => handler
    | .terminate => throw .terminate

/-- A function declared `noexcept`. -/
def noexcept (x : Program σ α) : Program σ α :=
  tryCatch x fun _ ↦ throw .terminate

/-- Started in `s`, the program returns with `post`, or it throws with `fail`. -/
def Ends (x : Program σ α) (s : σ) (post : α → σ → Prop) (fail : Escape → σ → Prop) : Prop :=
  match x s with
  | .ok a s' => post a s'
  | .error e s' => fail e s'

/-- Started in `s`, the program returns, with `post`. -/
def Yields (x : Program σ α) (s : σ) (post : α → σ → Prop) : Prop :=
  Ends x s post fun _ _ ↦ False

variable {x handler : Program σ α} {f : α → Program σ β} {s s' : σ} {a : α} {e : Escape}
  {post post' : α → σ → Prop} {mid : α → σ → Prop} {fail fail' : Escape → σ → Prop}

/-! ## Running -/

/-- A sequence runs its second part where the first has returned. -/
theorem bind_of_ok (h : x s = .ok a s') : (x >>= f) s = f a s' := by
  show EStateM.bind x f s = _
  rw [EStateM.bind, h]

/-- A sequence ends where its first part throws. -/
theorem bind_of_error (h : x s = .error e s') : (x >>= f) s = .error e s' := by
  show EStateM.bind x f s = _
  rw [EStateM.bind, h]

/-- A program that returns is not handled. -/
theorem attempt_of_ok (h : x s = .ok a s') : attempt x handler s = .ok a s' := by
  show EStateM.tryCatch x _ s = _
  rw [EStateM.tryCatch, h]

/-- The handler of an exception starts in the state the exception was thrown in. -/
theorem attempt_of_exception (h : x s = .error .exception s') :
    attempt x handler s = handler s' := by
  show EStateM.tryCatch x _ s = _
  rw [EStateM.tryCatch, h]
  rfl

/-- What ends the process is not handled. -/
theorem attempt_of_terminate (h : x s = .error .terminate s') :
    attempt x handler s = .error .terminate s' := by
  show EStateM.tryCatch x _ s = _
  rw [EStateM.tryCatch, h]
  rfl

/-- A `noexcept` function that returns is the function. -/
theorem noexcept_of_ok (h : x s = .ok a s') : noexcept x s = .ok a s' := by
  show EStateM.tryCatch x _ s = _
  rw [EStateM.tryCatch, h]

/-- What a `noexcept` function throws ends the process. -/
theorem noexcept_of_error (h : x s = .error e s') : noexcept x s = .error .terminate s' := by
  show EStateM.tryCatch x _ s = _
  rw [EStateM.tryCatch, h]
  rfl

/-! ## Rules -/

namespace Ends

/-- How a known run ends. -/
theorem of_ok (h : x s = .ok a s') (hpost : post a s') : Ends x s post fail := by
  rw [Ends, h]
  exact hpost

/-- How a known throw ends. -/
theorem of_error (h : x s = .error e s') (hfail : fail e s') : Ends x s post fail := by
  rw [Ends, h]
  exact hfail

/-- A value on its own is returned. -/
theorem pure (h : post a s) : Ends (pure a) s post fail := h

/-- Reading the state returns it and changes nothing. -/
theorem get : Ends get s (fun a s' ↦ a = s ∧ s' = s) fail := ⟨rfl, rfl⟩

/-- The sequence rule: what the first part establishes is what the second may assume. -/
theorem bind {post : β → σ → Prop} (hx : Ends x s mid fail)
    (hf : ∀ a s', mid a s' → Ends (f a) s' post fail) : Ends (x >>= f) s post fail := by
  cases hrun : x s with
  | ok a s' =>
      rw [Ends, bind_of_ok hrun]
      rw [Ends, hrun] at hx
      exact hf a s' hx
  | error e s' =>
      rw [Ends, hrun] at hx
      exact of_error (bind_of_error hrun) hx

/-- Both conclusions may be weakened. -/
theorem mono (h : Ends x s post fail) (hpost : ∀ a s', post a s' → post' a s')
    (hfail : ∀ e s', fail e s' → fail' e s') : Ends x s post' fail' := by
  cases hrun : x s with
  | ok a s' =>
      rw [Ends, hrun] at h
      exact of_ok hrun (hpost a s' h)
  | error e s' =>
      rw [Ends, hrun] at h
      exact of_error hrun (hfail e s' h)

/-- The handler starts from what holds when an exception is thrown. -/
theorem attempt (mid : Escape → σ → Prop) (hx : Ends x s post mid)
    (hhandler : ∀ s', mid .exception s' → Ends handler s' post fail)
    (hterminate : ∀ s', mid .terminate s' → fail .terminate s') :
    Ends (attempt x handler) s post fail := by
  cases hrun : x s with
  | ok a s' =>
      rw [Ends, hrun] at hx
      exact of_ok (attempt_of_ok hrun) hx
  | error e s' =>
      rw [Ends, hrun] at hx
      cases e with
      | exception =>
          rw [Ends, attempt_of_exception hrun]
          exact hhandler s' hx
      | terminate => exact of_error (attempt_of_terminate hrun) (hterminate s' hx)

end Ends

namespace Yields

/-- A program that yields something returns it. -/
theorem exists_ok (h : Yields x s post) : ∃ a s', x s = .ok a s' ∧ post a s' := by
  cases hrun : x s with
  | ok a s' =>
      rw [Yields, Ends, hrun] at h
      exact ⟨a, s', rfl, h⟩
  | error e s' =>
      rw [Yields, Ends, hrun] at h
      exact h.elim

/-- A program that returns may be declared `noexcept`. -/
theorem noexcept (h : Yields x s post) : Yields (noexcept x) s post := by
  obtain ⟨a, s', hrun, hpost⟩ := h.exists_ok
  exact Ends.of_ok (noexcept_of_ok hrun) hpost

end Yields

end Lib.Effect
