import CoffeeChat.Db.ConfigStore

/-!
# A query that fails

`ConfigDao::query` writes the members of the caller's object while it reads the rows, and reports a
failure from a handler around the whole loop. The calls into SQLite are one for the statement, three
for each row and one that finds no further row; `query_table` says, of the first of them that
throws, how many rows have been written into the object by then. `query_keeps_iff` says when a query
that returns false has left the object as it was.
-/

namespace CoffeeChat

open Lib Lib.Effect

namespace ConfigDao

/-- The last of the rows with the key `k`. -/
def lastRow (rows : List Row) (k : Bytes) : Option Row :=
  (rows.filter fun row ↦ row.key = k).getLast?

/-- Each member of the object has already what the rows say of it last, if they say anything. -/
def Restates (rows : List Row) (out : ServerInfoConfig) : Prop :=
  (∀ row ∈ lastRow rows keyServerIp, row.value = out.ip) ∧
    (∀ row ∈ lastRow rows keyGatePort, atoi16 row.value = out.gatePort) ∧
    (∀ row ∈ lastRow rows keyHttpPort, atoi16 row.value = out.httpPort)

/-! ## What the rows leave -/

/-- Rows leave a member alone exactly when the last row with its key says what it has. -/
theorem member_eq_iff {τ : Type} (view : ServerInfoConfig → τ) {k : Bytes} (g : Bytes → τ)
    (hhit : ∀ {key}, key = k → ∀ out value, view (assign out key value) = g value)
    (hmiss : ∀ out key value, key ≠ k → view (assign out key value) = view out)
    (rows : List Row) (out : ServerInfoConfig) :
    view (assignAll rows out) = view out ↔ ∀ row ∈ lastRow rows k, g row.value = view out := by
  have hlast : view (assignAll rows out) =
      ((lastRow rows k).map fun row ↦ g row.value).getD (view out) := by
    rw [assignAll, lastRow]
    refine Keyed.view_foldl view _ (fun row ↦ g row.value) ?_ ?_ out rows
    · intro out row hkey
      exact hhit (of_decide_eq_true hkey) out row.value
    · intro out row hkey
      exact hmiss out row.key row.value (of_decide_eq_false hkey)
  rw [hlast]
  cases lastRow rows k with
  | none => simp
  | some row => simp

/-- Rows leave the object alone exactly when they restate it. -/
theorem assignAll_eq_iff (rows : List Row) (out : ServerInfoConfig) :
    assignAll rows out = out ↔ Restates rows out := by
  have hmembers : assignAll rows out = out ↔ (assignAll rows out).ip = out.ip ∧
      (assignAll rows out).gatePort = out.gatePort ∧
      (assignAll rows out).httpPort = out.httpPort := by
    cases assignAll rows out
    cases out
    exact Iff.of_eq (ServerInfoConfig.mk.injEq ..)
  have hip := member_eq_iff ServerInfoConfig.ip id assign_ip
    (fun out key value ↦ (assign_other out key value).1) rows out
  have hgatePort := member_eq_iff ServerInfoConfig.gatePort atoi16 assign_gatePort
    (fun out key value ↦ (assign_other out key value).2.1) rows out
  have hhttpPort := member_eq_iff ServerInfoConfig.httpPort atoi16 assign_httpPort
    (fun out key value ↦ (assign_other out key value).2.2) rows out
  rw [hmembers]
  exact and_congr hip (and_congr hgatePort hhttpPort)

/-! ## The query -/

/-- The statement is not prepared if the table is missing or the call throws. -/
theorem prepare_ends (p : Process) :
    Ends Statement.prepare p
      (fun rows p' ↦ Moved 1 p p' ∧ ∃ t, p.database = some t ∧ rows = t.rows)
      (fun e p' ↦ e = .exception ∧ p'.out = p.out ∧
        (p.database = none ∨ p.firstThrow = some 0)) := by
  refine Ends.bind ((sqlite_ends p).mono (fun _ _ hp ↦ hp) fun _ p' he ↦
    ⟨he.exception, by rw [he.eq], Or.inr he.firstThrow⟩) ?_
  intro _ p₁ hp₁
  have hsame : p₁.database = p.database ∧ p₁.out = p.out := by
    rw [hp₁.eq]
    exact ⟨rfl, rfl⟩
  refine Ends.bind Ends.get ?_
  intro p₂ p₃ hget
  obtain ⟨rfl, rfl⟩ := hget
  split
  · rename_i hnone
    exact ⟨rfl, hsame.2, Or.inl (hsame.1.symm.trans hnone)⟩
  · rename_i t ht
    exact ⟨hp₁, t, hsame.1.symm.trans ht, rfl⟩

/-- Without the table `query` returns false and leaves the object alone. -/
theorem query_missing {p : Process} (h : p.database = none) :
    Yields query p fun b p' ↦ b = false ∧ p'.out = p.out := by
  refine Yields.noexcept (Ends.attempt (fun e p' ↦ e = .exception ∧ p'.out = p.out) ?_
    (fun p' hp' ↦ Ends.pure ⟨rfl, hp'.2⟩) fun _ hterminate ↦ by cases hterminate.1)
  refine Ends.bind ((prepare_ends p).mono (fun _ _ hp ↦ hp) fun _ _ he ↦ ⟨he.1, he.2.1⟩) ?_
  intro rows p₁ hrows
  obtain ⟨-, t, ht, -⟩ := hrows
  rw [h] at ht
  cases ht

/-- On a table `query` returns false exactly when one of its calls throws; the object then has
what the rows before that call have written. -/
theorem query_table {p : Process} {t : Table} (h : p.database = some t) :
    Yields query p fun b p' ↦
      if b then ∀ k, p.firstThrow = some k → 3 * t.rows.length + 2 ≤ k
      else ∃ k, p.firstThrow = some k ∧ k < 3 * t.rows.length + 2 ∧
        p'.out = assignAll (t.rows.take ((k - 1) / 3)) p.out := by
  refine Yields.noexcept (Ends.attempt (fun e p' ↦ e = .exception ∧
    ∃ k, p.firstThrow = some k ∧ k < 3 * t.rows.length + 2 ∧
      p'.out = assignAll (t.rows.take ((k - 1) / 3)) p.out) ?_
    (fun p' hp' ↦ Ends.pure hp'.2) fun _ hterminate ↦ by cases hterminate.1)
  refine Ends.bind ((prepare_ends p).mono (fun _ _ hp ↦ hp) ?_) ?_
  · intro e p' hthrown
    obtain ⟨he, hout, hnone | hfirst⟩ := hthrown
    · cases hnone.symm.trans h
    · exact ⟨he, 0, hfirst, Nat.succ_pos _, hout⟩
  · intro rows p₁ hrows
    obtain ⟨hp₁, t', ht, rfl⟩ := hrows
    cases ht.symm.trans h
    show Ends (queryLoop t.rows >>= fun _ ↦ pure true) p₁ _ _
    refine Ends.bind ((queryLoop_ends t.rows p₁).mono (fun _ _ hp ↦ hp) ?_) ?_
    · rintro e p' ⟨k, hthrown⟩
      have hlt := hthrown.lt
      refine ⟨hthrown.exception, k + 1, ?_, by omega, ?_⟩
      · rw [hp₁.firstThrow, hthrown.firstThrow]
        rfl
      · rw [Nat.add_sub_cancel, hthrown.eq, hp₁.eq]
    · intro _ p₂ hreturned
      refine Ends.pure ?_
      intro k hk
      rw [hp₁.firstThrow] at hk
      obtain ⟨j, hj, rfl⟩ := Option.map_eq_some_iff.mp hk
      exact Nat.succ_le_succ (hreturned.firstThrow j hj)

/-- For every database, every choice of the calls that throw and every object: a query that returns
false leaves the object as it was exactly when the rows it has written by the first call that
throws restate the object. -/
theorem query_keeps_iff (p : Process) :
    (∀ p', query p = .ok false p' → p'.out = p.out) ↔
      ∀ t k, p.database = some t → p.firstThrow = some k → k < 3 * t.rows.length + 2 →
        Restates (t.rows.take ((k - 1) / 3)) p.out := by
  cases hdatabase : p.database with
  | none =>
      refine iff_of_true ?_ fun t k ht ↦ by cases ht
      intro p' hrun
      obtain ⟨b, p₁, hrun₁, hout⟩ := (query_missing hdatabase).exists_ok
      cases hrun₁.symm.trans hrun
      exact hout.2
  | some t =>
      obtain ⟨b, p₁, hrun, hpost⟩ := (query_table hdatabase).exists_ok
      cases b with
      | true =>
          refine iff_of_true ?_ ?_
          · intro p' hrun'
            cases hrun.symm.trans hrun'
          · intro t' k ht hk hlt
            cases ht
            exact absurd (hpost k hk) (Nat.not_le_of_lt hlt)
      | false =>
          obtain ⟨k, hk, hlt, hout⟩ := hpost
          have hkeeps : (∀ p', query p = .ok false p' → p'.out = p.out) ↔ p₁.out = p.out := by
            constructor
            · intro h
              exact h p₁ hrun
            · intro h p' hrun'
              cases hrun.symm.trans hrun'
              exact h
          rw [hkeeps, hout, assignAll_eq_iff]
          constructor
          · intro h t' k' ht hk' _
            cases ht
            cases hk.symm.trans hk'
            exact h
          · intro h
            exact h t k rfl hk hlt

/-- The second `executeStep` throws, after the row of the server's address has been written. -/
theorem not_query_keeps :
    ¬ ∀ p p', query p = .ok false p' → p'.out = p.out := by
  intro h
  let table : Table := ⟨[⟨1, keyServerIp, []⟩], 1, false, fun hunique ↦ by cases hunique⟩
  let p : Process := ⟨some table, [false, false, false, false, true], {}⟩
  have hrun : query p = .ok false ⟨some table, [], { ip := [] }⟩ := rfl
  have hip : ([] : Bytes) = kDefaultServerIp := congrArg ServerInfoConfig.ip (h p _ hrun)
  cases hip

end ConfigDao

end CoffeeChat
