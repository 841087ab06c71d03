import Mathlib.Data.List.Basic

/-!
# Refinement of objects with operations

An object takes calls one after another; each answers and changes the state, or fails. A
specification of it answers every call. `Simulates` relates the two for one call that is allowed
where it is made, and `Simulates.play` for any sequence of allowed calls: none of them fails, the
answers are those of the specification and the states stay related. Where a call is also subject to
a condition on the state of the specification, `play_of_legal` says the same.
-/

namespace Lib.Refinement

variable {σ τ α β ε : Type}

/-- The answers to the calls, in order, and the state behind them. -/
def play (run : σ → α → Except ε (β × σ)) : σ → List α → Except ε (List β × σ)
  | s, [] => .ok ([], s)
  | s, x :: xs =>
      run s x >>= fun r => play run r.2 xs >>= fun rest => .ok (r.1 :: rest.1, rest.2)

/-- The answers a specification gives, and its state behind them. -/
def playSpec (spec : τ → α → β × τ) : τ → List α → List β × τ
  | t, [] => ([], t)
  | t, x :: xs =>
      let rest := playSpec spec (spec t x).2 xs
      ((spec t x).1 :: rest.1, rest.2)

/-- Every call of the sequence is allowed in the state it is made in. -/
def Allowed (pre : σ → α → Prop) (run : σ → α → Except ε (β × σ)) : σ → List α → Prop
  | _, [] => True
  | s, x :: xs => pre s x ∧ ∀ r, run s x = .ok r → Allowed pre run r.2 xs

/-- A call that is allowed does not fail, and answers and acts as the specification does. -/
def Simulates (rel : σ → τ → Prop) (pre : σ → α → Prop) (run : σ → α → Except ε (β × σ))
    (spec : τ → α → β × τ) : Prop :=
  ∀ s t x, rel s t → pre s x → ∃ s', run s x = .ok ((spec t x).1, s') ∧ rel s' (spec t x).2

/-- Every call of the sequence is legal in the state the specification is in. -/
def Legal (legal : τ → α → Prop) (spec : τ → α → β × τ) : τ → List α → Prop
  | _, [] => True
  | t, x :: xs => legal t x ∧ Legal legal spec (spec t x).2 xs

variable {rel : σ → τ → Prop} {pre : σ → α → Prop} {run : σ → α → Except ε (β × σ)}
  {spec : τ → α → β × τ} {legal : τ → α → Prop}

/-- Allowed calls behind one that is known to return. -/
theorem Allowed.cons {s : σ} {x : α} {xs : List α} {r : β × σ} (hpre : pre s x)
    (hrun : run s x = .ok r) (hrest : Allowed pre run r.2 xs) : Allowed pre run s (x :: xs) := by
  refine ⟨hpre, fun r' hr' ↦ ?_⟩
  cases hrun.symm.trans hr'
  exact hrest

/-- What is legal everywhere is legal all along. -/
theorem Legal.of_forall (h : ∀ t x, legal t x) (t : τ) (xs : List α) : Legal legal spec t xs := by
  induction xs generalizing t with
  | nil => trivial
  | cons x xs ih => exact ⟨h t x, ih (spec t x).2⟩

/-- If a call that is legal and allowed answers and acts as the specification does, so does a
sequence of them. -/
theorem play_of_legal
    (h : ∀ s t x, rel s t → legal t x → pre s x →
      ∃ s', run s x = .ok ((spec t x).1, s') ∧ rel s' (spec t x).2)
    {s : σ} {t : τ} (hrel : rel s t) {xs : List α} (hlegal : Legal legal spec t xs)
    (hallowed : Allowed pre run s xs) :
    ∃ s', play run s xs = .ok ((playSpec spec t xs).1, s') ∧ rel s' (playSpec spec t xs).2 := by
  induction xs generalizing s t with
  | nil => exact ⟨s, rfl, hrel⟩
  | cons x xs ih =>
      obtain ⟨hpre, hrest⟩ := hallowed
      obtain ⟨s', hs', hrel'⟩ := h s t x hrel hlegal.1 hpre
      obtain ⟨s'', hs'', hrel''⟩ := ih hrel' hlegal.2 (hrest _ hs')
      refine ⟨s'', ?_, hrel''⟩
      rw [Refinement.play, hs']
      show Refinement.play run s' xs >>= _ = _
      rw [hs'']
      rfl

/-- A sequence of allowed calls does not fail, and answers and acts as the specification does. -/
theorem Simulates.play (h : Simulates rel pre run spec) {s : σ} {t : τ} (hrel : rel s t)
    {xs : List α} (hallowed : Allowed pre run s xs) :
    ∃ s', play run s xs = .ok ((playSpec spec t xs).1, s') ∧ rel s' (playSpec spec t xs).2 :=
  play_of_legal (fun s t x hrel _ ↦ h s t x hrel) hrel
    (Legal.of_forall (fun _ _ ↦ trivial) t xs) hallowed

end Lib.Refinement
