import Mathlib.Data.List.Basic

/-!
# Loops that leave a record of every turn

A `while (true)` loop over a state `σ`: one turn leaves a record `τ` and then goes round
again, leaves the loop, or stops the process with a fault `ε`. `run body fuel s` plays at most
`fuel` turns from `s` and returns the records in order with the way the loop ended.

The rules are those of any loop: an invariant of one turn holds of all of them (`run_records`,
`run_left`), a measure that every turn decreases bounds their number and makes the fuel
irrelevant (`run_measure`, `run_fuel`), and a simulation between two bodies is one between the
two loops (`run_simulation`).
-/

namespace Lib.Loop

variable {σ τ ε : Type}

/-- How one turn of a loop ends. -/
inductive Turn (σ ε : Type) where
  /-- Control goes back to the top of the loop. -/
  | again (state : σ)
  /-- `break`. -/
  | leave (state : σ)
  /-- The process stops. -/
  | fail (fault : ε)

/-- How a loop ends. -/
inductive End (σ ε : Type) where
  /-- The loop was left by `break`. -/
  | left (state : σ)
  /-- The process stopped in one of the turns. -/
  | failed (fault : ε)
  /-- The fuel ran out at the top of the loop. -/
  | running (state : σ)

/-- Play at most the given number of turns, collecting the record of each. -/
def run (body : σ → τ × Turn σ ε) : Nat → σ → List τ × End σ ε
  | 0, state => ([], .running state)
  | fuel + 1, state =>
    match body state with
    | (record, .again next) => (record :: (run body fuel next).1, (run body fuel next).2)
    | (record, .leave next) => ([record], .left next)
    | (record, .fail fault) => ([record], .failed fault)

variable {body : σ → τ × Turn σ ε}

/-- The records of a loop begin with that of its first turn. -/
theorem run_head (fuel : Nat) (state : σ) :
    (run body (fuel + 1) state).1.head? = some (body state).1 := by
  simp only [run]
  split <;> simp_all

/-- A loop whose first turn goes round again. -/
theorem run_again {state next : σ} {record : τ} (h : body state = (record, .again next))
    (fuel : Nat) :
    run body (fuel + 1) state = (record :: (run body fuel next).1, (run body fuel next).2) := by
  simp only [run, h]

/-- A loop whose first turn leaves it. -/
theorem run_leave {state next : σ} {record : τ} (h : body state = (record, .leave next))
    (fuel : Nat) : run body (fuel + 1) state = ([record], .left next) := by
  simp only [run, h]

/-- What holds of the record of every turn played from the invariant holds of all records. -/
theorem run_records (inv : σ → Prop) {good : τ → Prop}
    (hgood : ∀ s, inv s → good (body s).1)
    (hagain : ∀ s next, inv s → (body s).2 = .again next → inv next)
    (fuel : Nat) (state : σ) (hinv : inv state) :
    ∀ record ∈ (run body fuel state).1, good record := by
  induction fuel generalizing state with
  | zero => simp [run]
  | succ fuel ih =>
      have hfirst := hgood state hinv
      have hnext := hagain state
      cases hb : body state with
      | mk record turn =>
          rw [hb] at hfirst hnext
          cases turn with
          | again next =>
              simp only [run, hb, List.mem_cons, forall_eq_or_imp]
              exact ⟨hfirst, ih next (hnext next hinv rfl)⟩
          | leave next => simpa [run, hb] using hfirst
          | fail fault => simpa [run, hb] using hfirst

/-- A loop left by `break` ends in a state that the breaking turn establishes, and a loop whose
turns never fail does not fail. -/
theorem run_left (inv : σ → Prop) {post : σ → Prop}
    (hagain : ∀ s next, inv s → (body s).2 = .again next → inv next)
    (hleave : ∀ s next, inv s → (body s).2 = .leave next → post next)
    (hsafe : ∀ s fault, inv s → (body s).2 ≠ .fail fault)
    (fuel : Nat) (state : σ) (hinv : inv state) :
    (∃ final, (run body fuel state).2 = .left final ∧ post final) ∨
      ∃ s, (run body fuel state).2 = .running s ∧ inv s := by
  induction fuel generalizing state with
  | zero => exact Or.inr ⟨state, rfl, hinv⟩
  | succ fuel ih =>
      cases hb : body state with
      | mk record turn =>
          cases turn with
          | again next =>
              simp only [run, hb]
              exact ih next (hagain state next hinv (by rw [hb]))
          | leave next =>
              refine Or.inl ⟨next, ?_, hleave state next hinv (by rw [hb])⟩
              simp [run, hb]
          | fail fault => exact absurd (by rw [hb]) (hsafe state fault hinv)

/-- A loop that was left by `break` is in a state that the breaking turn establishes. -/
theorem run_left_post (inv : σ → Prop) {post : σ → Prop}
    (hagain : ∀ s next, inv s → (body s).2 = .again next → inv next)
    (hleave : ∀ s next, inv s → (body s).2 = .leave next → post next)
    {fuel : Nat} {state final : σ} (hinv : inv state)
    (h : (run body fuel state).2 = .left final) : post final := by
  induction fuel generalizing state with
  | zero => cases h
  | succ fuel ih =>
      cases hb : body state with
      | mk record turn =>
          cases turn with
          | again next =>
              rw [run_again hb] at h
              exact ih (hagain state next hinv (by rw [hb])) h
          | leave next =>
              rw [run_leave hb] at h
              cases h
              exact hleave state final hinv (by rw [hb])
          | fail fault => simp [run, hb] at h

/-- A loop whose records are the states at the top of its turns fails exactly when one of these
turns does. -/
theorem run_failed_iff {body : σ → σ × Turn σ ε} (hrecord : ∀ s, (body s).1 = s) (fuel : Nat)
    (state : σ) {fault : ε} :
    (run body fuel state).2 = .failed fault ↔
      ∃ s ∈ (run body fuel state).1, (body s).2 = .fail fault := by
  induction fuel generalizing state with
  | zero => simp [run]
  | succ fuel ih =>
      have hfirst := hrecord state
      cases hb : body state with
      | mk record turn =>
          rw [hb] at hfirst
          cases hfirst
          cases turn with
          | again next => simp [run, hb, ih next]
          | leave next => simp [run, hb]
          | fail fault' => simp [run, hb]

/-- If every turn that goes round again uses up `cost` of the measure, and a turn is only played
while `cost` of it is left, the number of turns is at most the measure over `cost`. -/
theorem run_measure (inv : σ → Prop) (measure : σ → Nat) {cost : Nat}
    (hagain : ∀ s next, inv s → (body s).2 = .again next →
      inv next ∧ measure next + cost ≤ measure s)
    (hcost : ∀ s, inv s → cost ≤ measure s)
    (fuel : Nat) (state : σ) (hinv : inv state) :
    cost * (run body fuel state).1.length ≤ measure state := by
  induction fuel generalizing state with
  | zero => simp [run]
  | succ fuel ih =>
      have hnow := hcost state hinv
      cases hb : body state with
      | mk record turn =>
          cases turn with
          | again next =>
              obtain ⟨hnext, hless⟩ := hagain state next hinv (by rw [hb])
              have := ih next hnext
              simp only [run, hb, List.length_cons, Nat.mul_succ]
              omega
          | leave next => simpa [run, hb] using hnow
          | fail fault => simpa [run, hb] using hnow

/-- More fuel than the measure allows turns is never used up: the loop ends, and in the same way
for every such amount of fuel. -/
theorem run_fuel (inv : σ → Prop) (measure : σ → Nat) {cost : Nat}
    (hagain : ∀ s next, inv s → (body s).2 = .again next →
      inv next ∧ measure next + cost ≤ measure s)
    (fuel more : Nat) (state : σ) (hinv : inv state) (hfuel : measure state < cost * fuel) :
    run body (fuel + more) state = run body fuel state ∧
      ∀ s, (run body fuel state).2 ≠ .running s := by
  induction fuel generalizing state with
  | zero => simp at hfuel
  | succ fuel ih =>
      rw [Nat.add_right_comm]
      cases hb : body state with
      | mk record turn =>
          cases turn with
          | again next =>
              obtain ⟨hnext, hless⟩ := hagain state next hinv (by rw [hb])
              obtain ⟨hsame, hends⟩ := ih next hnext (by rw [Nat.mul_succ] at hfuel; omega)
              simp only [run, hb, hsame]
              exact ⟨trivial, hends⟩
          | leave next => simp [run, hb]
          | fail fault => simp [run, hb]

/-- Two turns that end alike: both go round again in states that `rel` relates, both leave in
states that `post` relates, or both fail in the same way. -/
inductive Turn.Alike {σ' : Type} (rel post : σ → σ' → Prop) : Turn σ ε → Turn σ' ε → Prop where
  | again {s s'} : rel s s' → Turn.Alike rel post (.again s) (.again s')
  | leave {s s'} : post s s' → Turn.Alike rel post (.leave s) (.leave s')
  | fail {f} : Turn.Alike rel post (.fail f) (.fail f)

/-- Two loops that end alike. -/
inductive End.Alike {σ' : Type} (rel post : σ → σ' → Prop) : End σ ε → End σ' ε → Prop where
  | left {s s'} : post s s' → End.Alike rel post (.left s) (.left s')
  | failed {f} : End.Alike rel post (.failed f) (.failed f)
  | running {s s'} : rel s s' → End.Alike rel post (.running s) (.running s')

/-- If every turn from related states ends alike and leaves records that the views identify,
the two loops leave the same records and end alike. -/
theorem run_simulation {σ' τ' ρ : Type} {body' : σ' → τ' × Turn σ' ε}
    {rel post : σ → σ' → Prop} (view : τ → ρ) (view' : τ' → ρ)
    (hstep : ∀ s s', rel s s' → view (body s).1 = view' (body' s').1 ∧
      Turn.Alike rel post (body s).2 (body' s').2)
    (fuel : Nat) (s : σ) (s' : σ') (h : rel s s') :
    (run body fuel s).1.map view = (run body' fuel s').1.map view' ∧
      End.Alike rel post (run body fuel s).2 (run body' fuel s').2 := by
  induction fuel generalizing s s' with
  | zero => exact ⟨rfl, .running h⟩
  | succ fuel ih =>
      obtain ⟨hview, halike⟩ := hstep s s' h
      cases hb : body s with
      | mk record turn =>
          cases hb' : body' s' with
          | mk record' turn' =>
              rw [hb, hb'] at hview halike
              cases halike with
              | again hrel =>
                  obtain ⟨hrecords, hend⟩ := ih _ _ hrel
                  simp only [run, hb, hb', List.map_cons, hview, hrecords]
                  exact ⟨trivial, hend⟩
              | leave hpost =>
                  simp only [run, hb, hb', List.map_cons, List.map_nil, hview]
                  exact ⟨trivial, .left hpost⟩
              | fail =>
                  simp only [run, hb, hb', List.map_cons, List.map_nil, hview]
                  exact ⟨trivial, .failed⟩

end Lib.Loop
