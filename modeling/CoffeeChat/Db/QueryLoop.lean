import CoffeeChat.Db.ConfigDao

/-!
# The loop of a query

The loop of `ConfigDao::query` makes three calls into SQLite for each row and one that finds no
further row. `queryLoop_ends` is all it does, whichever of these calls throws: the row whose calls
have all returned is written into the object of the caller, and the one that throws is the last
call.
-/

namespace CoffeeChat

open Lib Lib.Effect

/-- The number of the first call into SQLite that throws, counted from 0. -/
def Process.firstThrow (p : Process) : Option Nat := p.faults.findIdx? id

namespace ConfigDao

/-- What the rows do to the object that `query` fills. -/
def assignAll (rows : List Row) (out : ServerInfoConfig) : ServerInfoConfig :=
  rows.foldl (fun out row ↦ assign out row.key row.value) out

variable {p p' p'' : Process} {e : Escape} {m n : Nat}

/-! ## Calls that may throw -/

/-- From `p` to `p'` so many calls into SQLite have been made, none of which has thrown. -/
structure Moved (n : Nat) (p p' : Process) : Prop where
  eq : p' = { p with faults := p.faults.drop n }
  firstThrow : p.firstThrow = p'.firstThrow.map (· + n)

/-- Behind so many calls that have not thrown, one has, and has left all else alone. -/
structure Thrown (n : Nat) (p : Process) (e : Escape) (p' : Process) : Prop where
  exception : e = .exception
  eq : p' = { p with faults := p.faults.drop (n + 1) }
  firstThrow : p.firstThrow = some n

theorem Moved.trans (h : Moved m p p') (h' : Moved n p' p'') : Moved (m + n) p p'' where
  eq := by
    rw [h'.eq, h.eq, List.drop_drop]
  firstThrow := by
    rw [h.firstThrow, h'.firstThrow, Option.map_map]
    refine congrFun (congrArg _ (funext fun k ↦ ?_)) _
    show k + n + m = k + (m + n)
    omega

theorem Moved.thrown (h : Moved m p p') (h' : Thrown n p' e p'') : Thrown (m + n) p e p'' where
  exception := h'.exception
  eq := by
    rw [h'.eq, h.eq, List.drop_drop, Nat.add_assoc]
  firstThrow := by
    rw [h.firstThrow, h'.firstThrow, Option.map_some, Nat.add_comm]

theorem firstThrow_eq (p : Process) :
    p.firstThrow = if p.throws then some 0 else p.next.firstThrow.map (· + 1) := by
  rw [Process.firstThrow, Process.firstThrow, Process.throws, Process.next]
  cases p.faults with
  | nil => rfl
  | cons b faults => exact List.findIdx?_cons

theorem next_eq (p : Process) : p.next = { p with faults := p.faults.drop 1 } := by
  rw [Process.next, List.drop_one]

theorem sqlite_ends (p : Process) : Ends sqlite p (fun _ p' ↦ Moved 1 p p') (Thrown 0 p) := by
  cases hthrows : p.throws with
  | true =>
      refine Ends.of_error (sqlite_error hthrows) ⟨rfl, next_eq p, ?_⟩
      rw [firstThrow_eq, if_pos hthrows]
  | false =>
      refine Ends.of_ok (sqlite_ok hthrows) ⟨next_eq p, ?_⟩
      rw [firstThrow_eq, if_neg (by simp [hthrows])]

theorem getColumn_ends (value : Bytes) (p : Process) :
    Ends (Statement.getColumn value) p (fun v p' ↦ v = value ∧ Moved 1 p p') (Thrown 0 p) :=
  Ends.bind (sqlite_ends p) fun _ _ hp' ↦ Ends.pure ⟨rfl, hp'⟩

/-! ## The loop -/

/-- The loop has returned: no call has thrown, and every row is written. -/
structure LoopReturned (rows : List Row) (p p' : Process) : Prop where
  eq : p' = { p with
    faults := p.faults.drop (3 * rows.length + 1)
    out := assignAll rows p.out }
  firstThrow : ∀ k, p.firstThrow = some k → 3 * rows.length + 1 ≤ k

/-- Call `k` of the loop has thrown: the rows whose three calls have returned are written. -/
structure LoopThrown (rows : List Row) (p : Process) (e : Escape) (p' : Process) (k : Nat) :
    Prop where
  exception : e = .exception
  lt : k < 3 * rows.length + 1
  eq : p' = { p with
    faults := p.faults.drop (k + 1)
    out := assignAll (rows.take (k / 3)) p.out }
  firstThrow : p.firstThrow = some k

/-- A call of the first row throws, and nothing is written. -/
theorem Thrown.loopThrown {row : Row} {rows : List Row} (h : Thrown n p e p') (hn : n < 3) :
    LoopThrown (row :: rows) p e p' n where
  exception := h.exception
  lt := by
    rw [List.length_cons]
    omega
  eq := by
    rw [Nat.div_eq_of_lt hn]
    exact h.eq
  firstThrow := h.firstThrow

/-- All that the loop does, whichever call throws. -/
theorem queryLoop_ends (rows : List Row) (p : Process) :
    Ends (queryLoop rows) p (fun _ p' ↦ LoopReturned rows p p')
      fun e p' ↦ ∃ k, LoopThrown rows p e p' k := by
  induction rows generalizing p with
  | nil =>
      refine (sqlite_ends p).mono ?_ ?_
      · intro _ p' hp'
        refine ⟨hp'.eq, fun k hk ↦ ?_⟩
        rw [hp'.firstThrow] at hk
        obtain ⟨j, -, rfl⟩ := Option.map_eq_some_iff.mp hk
        exact Nat.le_add_left 1 j
      · intro e p' he
        exact ⟨0, he.exception, Nat.zero_lt_one, he.eq, he.firstThrow⟩
  | cons row rows ih =>
      rw [queryLoop]
      refine Ends.bind ((sqlite_ends p).mono (fun _ _ hp ↦ hp) fun e p' he ↦
        ⟨0, he.loopThrown (by omega)⟩) fun _ p₁ hp₁ ↦ ?_
      refine Ends.bind ((getColumn_ends row.key p₁).mono (fun _ _ hp ↦ hp) fun e p' he ↦
        ⟨1, (hp₁.thrown he).loopThrown (by omega)⟩) ?_
      rintro _ p₂ ⟨rfl, hp₂⟩
      have htwo := hp₁.trans hp₂
      refine Ends.bind ((getColumn_ends row.value p₂).mono (fun _ _ hp ↦ hp) fun e p' he ↦
        ⟨2, (htwo.thrown he).loopThrown (by omega)⟩) ?_
      rintro _ p₃ ⟨rfl, hp₃⟩
      have hthree := htwo.trans hp₃
      have hrest : p₃ = { p with faults := p.faults.drop 3 } := hthree.eq
      -- the row is written, and the loop goes on with the rows behind it
      refine (ih { p₃ with out := assign p₃.out row.key row.value }).mono ?_ ?_
      · intro _ p' hreturned
        refine ⟨?_, fun k hk ↦ ?_⟩
        · rw [hreturned.eq, hrest, List.drop_drop, List.length_cons, Nat.mul_succ,
            Nat.add_right_comm, Nat.add_comm 3]
          rfl
        · rw [hthree.firstThrow] at hk
          obtain ⟨j, hj, rfl⟩ := Option.map_eq_some_iff.mp hk
          have hle := hreturned.firstThrow j hj
          rw [List.length_cons]
          omega
      · rintro e p' ⟨j, hthrown⟩
        have hdiv : (j + 3) / 3 = j / 3 + 1 := by omega
        refine ⟨j + 3, hthrown.exception, ?_, ?_, ?_⟩
        · have hlt := hthrown.lt
          rw [List.length_cons]
          omega
        · rw [hthrown.eq, hrest, List.drop_drop, hdiv, Nat.add_right_comm, Nat.add_comm 3]
          rfl
        · rw [hthree.firstThrow, show p₃.firstThrow = some j from hthrown.firstThrow]
          rfl

end ConfigDao

end CoffeeChat
