import CoffeeChat.Db.CompleteStore

/-!
# The store over the life of an installation

A program is started on the same files again and again, and in between the configuration is
written and read while any call into SQLite may throw. The file holds the table with its index:
without the index, which a first start may fail to make, the rows are no map. A write is made as a
whole or not at all: `queryKey` may take a key for missing when a call has thrown, and the insert it
then leads to is refused by the unique index. So the store is always the map that some of the writes
have made, in their order, and all those among them in which no call has thrown
(`Usage.always_atomic`).
-/

namespace CoffeeChat

open Lib Lib.Effect ConfigDao

/-! ## Calls that may throw -/

/-- Calls into SQLite have been made that have not thrown and have changed nothing. -/
def Calm (p p' : Process) : Prop :=
  p'.database = p.database ∧ (true ∉ p.faults → true ∉ p'.faults)

/-- A call has thrown and changed nothing. -/
def Broken (p : Process) (e : Escape) (p' : Process) : Prop :=
  e = .exception ∧ p'.database = p.database ∧ true ∈ p.faults

variable {p p' p'' : Process} {m : Store}

theorem Calm.trans (h : Calm p p') (h' : Calm p' p'') : Calm p p'' :=
  ⟨h'.1.trans h.1, fun hp ↦ h'.2 (h.2 hp)⟩

theorem Calm.broken {e : Escape} (h : Calm p p') (h' : Broken p' e p'') : Broken p e p'' := by
  refine ⟨h'.1, h'.2.1.trans h.1, ?_⟩
  by_contra hp
  exact h.2 hp h'.2.2

theorem sqlite_calm (p : Process) : Ends sqlite p (fun _ p' ↦ Calm p p') (Broken p) := by
  cases hthrows : p.throws with
  | true =>
      refine Ends.of_error (sqlite_error hthrows) ⟨rfl, rfl, ?_⟩
      rw [Process.throws] at hthrows
      cases hfaults : p.faults with
      | nil => simp [hfaults] at hthrows
      | cons b faults =>
          rw [hfaults, List.headD_cons] at hthrows
          rw [hthrows]
          exact List.mem_cons_self
  | false =>
      refine Ends.of_ok (sqlite_ok hthrows) ⟨rfl, fun hp hmem ↦ hp ?_⟩
      exact List.mem_of_mem_tail hmem

theorem prepare_calm {t : Table} (ht : p.database = some t) :
    Ends Statement.prepare p (fun rows p' ↦ Calm p p' ∧ rows = t.rows) (Broken p) := by
  refine Ends.bind (sqlite_calm p) fun _ p₁ hp₁ ↦ ?_
  refine Ends.bind Ends.get fun p₂ p₃ hget ↦ ?_
  obtain ⟨rfl, rfl⟩ := hget
  rw [hp₁.1, ht]
  exact Ends.pure ⟨hp₁, rfl⟩

theorem getColumn_calm (value : Bytes) (p : Process) :
    Ends (Statement.getColumn value) p (fun _ p' ↦ Calm p p') (Broken p) :=
  Ends.bind (sqlite_calm p) fun _ _ hp' ↦ Ends.pure hp'

/-- A statement that SQLite carries out. -/
theorem exec_calm {sql : Sql} {database : Database} (hsql : sql.apply p.database = some database) :
    Ends (Database.exec sql) p (fun _ p' ↦ p'.database = database) (Broken p) := by
  refine Ends.bind (sqlite_calm p) fun _ p₁ hp₁ ↦ ?_
  refine Ends.bind Ends.get fun p₂ p₃ hget ↦ ?_
  obtain ⟨rfl, rfl⟩ := hget
  rw [hp₁.1, hsql]
  exact rfl

/-- A statement that SQLite refuses. -/
theorem exec_refused {sql : Sql} (hsql : sql.apply p.database = none) :
    Ends (Database.exec sql) p (fun _ _ ↦ False)
      (fun e p' ↦ e = .exception ∧ p'.database = p.database) := by
  refine Ends.bind ((sqlite_calm p).mono (fun _ _ hp ↦ hp) fun _ _ he ↦ ⟨he.1, he.2.1⟩)
    fun _ p₁ hp₁ ↦ ?_
  refine Ends.bind Ends.get fun p₂ p₃ hget ↦ ?_
  obtain ⟨rfl, rfl⟩ := hget
  rw [hp₁.1, hsql]
  exact ⟨rfl, hp₁.1⟩

/-- An insert of a key that is there. -/
theorem Stands.insert_refused {database : Database} (h : Stands m database) {k : Bytes}
    (hk : (m k).isSome = true) {v : Bytes} : (Sql.insert k v).apply database = none := by
  obtain ⟨t, rfl, hunique, rfl⟩ := h
  have hmem : k ∈ t.rows.map Row.key := by
    by_contra hmissing
    rw [Table.store_eq_none.mpr hmissing] at hk
    cases hk
  show (t.insert k v).map some = none
  rw [Table.insert, dif_pos ⟨hunique, hmem⟩]
  rfl

namespace ConfigDao

/-- What `queryKey` finds is there; where no call throws it finds what is there. -/
theorem queryKey_calm (h : Stands m p.database) (k outValue : Bytes) :
    Yields (queryKey k outValue) p fun r p' ↦
      p'.database = p.database ∧ (r.1 = true → (m k).isSome) ∧
        (true ∉ p.faults → r.1 = (m k).isSome ∧ true ∉ p'.faults) := by
  obtain ⟨t, ht, -, rfl⟩ := h
  refine Yields.noexcept (Ends.attempt (Broken p) ?_ (fun p' hp' ↦ ?_) fun _ hp' ↦ ?_)
  · refine Ends.bind (prepare_calm ht) fun rows p₁ hp₁ ↦ ?_
    obtain ⟨hp₁, rfl⟩ := hp₁
    refine Ends.bind ((sqlite_calm p₁).mono (fun _ _ hp ↦ hp₁.trans hp) fun _ _ ↦ hp₁.broken)
      fun _ p₂ hp₂ ↦ ?_
    refine Ends.bind ((sqlite_calm p₂).mono (fun _ _ hp ↦ hp₂.trans hp) fun _ _ ↦ hp₂.broken)
      fun _ p₃ hp₃ ↦ ?_
    rw [Table.store]
    cases Keyed.find Row.key t.rows k with
    | none => exact Ends.pure ⟨hp₃.1, Bool.false_ne_true.elim, fun hp ↦ ⟨rfl, hp₃.2 hp⟩⟩
    | some row =>
        refine Ends.bind ((getColumn_calm row.value p₃).mono (fun _ _ hp ↦ hp₃.trans hp)
          fun _ _ ↦ hp₃.broken) fun _ p₄ hp₄ ↦ ?_
        exact Ends.pure ⟨hp₄.1, fun _ ↦ rfl, fun hp ↦ ⟨rfl, hp₄.2 hp⟩⟩
  · exact Ends.pure ⟨hp'.2.1, Bool.false_ne_true.elim, fun hp ↦ absurd hp'.2.2 hp⟩
  · cases hp'.1

/-- A statement that SQLite carries out, unless a call throws. -/
theorem execBound_calm (h : Stands m p.database) {sql : Sql} {database : Database}
    (hsql : sql.apply p.database = some database) :
    Yields (execBound sql) p fun _ p' ↦
      p'.database = database ∨ (p'.database = p.database ∧ true ∈ p.faults) := by
  obtain ⟨t, ht, -, -⟩ := h
  refine Ends.attempt (Broken p) ?_ (fun p' hp' ↦ Ends.pure (.inr hp'.2)) fun _ hp' ↦ ?_
  · refine Ends.bind (prepare_calm ht) fun rows p₁ hp₁ ↦ ?_
    refine Ends.bind ((sqlite_calm p₁).mono (fun _ _ hp ↦ hp₁.1.trans hp)
      fun _ _ ↦ hp₁.1.broken) fun _ p₂ hp₂ ↦ ?_
    refine Ends.bind ((sqlite_calm p₂).mono (fun _ _ hp ↦ hp₂.trans hp) fun _ _ ↦ hp₂.broken)
      fun _ p₃ hp₃ ↦ ?_
    rw [← hp₃.1] at hsql
    exact (exec_calm hsql).mono (fun _ _ hp ↦ .inl hp) fun _ _ ↦ hp₃.broken
  · cases hp'.1

/-- A statement that SQLite refuses. -/
theorem execBound_refused (h : Stands m p.database) {sql : Sql}
    (hsql : sql.apply p.database = none) :
    Yields (execBound sql) p fun _ p' ↦ p'.database = p.database := by
  obtain ⟨t, ht, -, -⟩ := h
  refine Ends.attempt (fun e p' ↦ e = .exception ∧ p'.database = p.database) ?_
    (fun p' hp' ↦ Ends.pure hp'.2) fun _ hp' ↦ ?_
  · have hweaken : ∀ {p₀ : Process}, Calm p p₀ → ∀ e p', Broken p₀ e p' →
        e = .exception ∧ p'.database = p.database :=
      fun hp₀ _ _ he ↦ ⟨he.1, he.2.1.trans hp₀.1⟩
    refine Ends.bind ((prepare_calm ht).mono (fun _ _ hp ↦ hp.1) fun _ _ he ↦ ⟨he.1, he.2.1⟩)
      fun rows p₁ hp₁ ↦ ?_
    refine Ends.bind ((sqlite_calm p₁).mono (fun _ _ hp ↦ hp₁.trans hp) (hweaken hp₁))
      fun _ p₂ hp₂ ↦ ?_
    refine Ends.bind ((sqlite_calm p₂).mono (fun _ _ hp ↦ hp₂.trans hp) (hweaken hp₂))
      fun _ p₃ hp₃ ↦ ?_
    rw [← hp₃.1] at hsql
    exact (exec_refused hsql).mono (fun _ _ hp ↦ hp.elim) fun _ _ he ↦ ⟨he.1, he.2.trans hp₃.1⟩
  · cases hp'.1

/-- A write is made as a whole or not at all, and it is made unless a call throws. -/
theorem updateKey_calm (h : Stands m p.database) (k v : Bytes) :
    Yields (updateKey k v) p fun _ p' ↦
      Stands (Function.update m k (some v)) p'.database ∨
        (Stands m p'.database ∧ true ∈ p.faults) := by
  refine Yields.noexcept (Ends.bind (queryKey_calm h k []) fun r p₁ hp₁ ↦ ?_)
  obtain ⟨hdatabase, hfound, hquiet⟩ := hp₁
  have h₁ : Stands m p₁.database := hdatabase ▸ h
  have hfaults : true ∈ p₁.faults → true ∈ p.faults := by
    intro hmem
    by_contra hp
    exact (hquiet hp).2 hmem
  -- what a statement that is carried out makes of the store
  have hwritten : ∀ {sql : Sql}, (∃ database, sql.apply p₁.database = some database ∧
      Stands (Function.update m k (some v)) database) →
      Yields (execBound sql) p₁ fun _ p' ↦ Stands (Function.update m k (some v)) p'.database ∨
        (Stands m p'.database ∧ true ∈ p.faults) := by
    intro sql hsql
    obtain ⟨database, happly, hstands⟩ := hsql
    refine (execBound_calm h₁ happly).mono (fun _ p' hp' ↦ ?_) fun _ _ hf ↦ hf
    rcases hp' with hnew | ⟨hold, hmem⟩
    · exact .inl (hnew ▸ hstands)
    · exact .inr ⟨hold ▸ h₁, hfaults hmem⟩
  cases hr : r.1 with
  | true => exact hwritten (h₁.update (hfound hr) v)
  | false =>
      cases hm : m k with
      | none => exact hwritten (h₁.insert hm v)
      | some old =>
          -- the key is there, but a call has thrown: the index refuses the insert
          have hmem : true ∈ p.faults := by
            by_contra hp
            have hsome := (hquiet hp).1
            rw [hr, hm] at hsome
            cases hsome
          refine (execBound_refused h₁ (h₁.insert_refused (by rw [hm]; rfl))).mono
            (fun _ p' hp' ↦ .inr ⟨hp' ▸ h₁, hmem⟩) fun _ _ hf ↦ hf

theorem queryLoop_calm (rows : List Row) (p : Process) :
    Ends (queryLoop rows) p (fun _ p' ↦ p'.database = p.database)
      fun e p' ↦ e = .exception ∧ p'.database = p.database := by
  refine (queryLoop_ends rows p).mono (fun _ _ hp ↦ by rw [hp.eq]) ?_
  rintro e p' ⟨k, hthrown⟩
  exact ⟨hthrown.exception, by rw [hthrown.eq]⟩

/-- Reading changes nothing. -/
theorem query_calm (h : Stands m p.database) :
    Yields query p fun _ p' ↦ p'.database = p.database := by
  obtain ⟨t, ht, -, -⟩ := h
  refine Yields.noexcept (Ends.attempt (fun e p' ↦ e = .exception ∧ p'.database = p.database) ?_
    (fun p' hp' ↦ Ends.pure hp'.2) fun _ hp' ↦ ?_)
  · refine Ends.bind ((prepare_calm ht).mono (fun _ _ hp ↦ hp.1) fun _ _ he ↦ ⟨he.1, he.2.1⟩)
      fun rows p₁ hp₁ ↦ ?_
    rw [← hp₁.1]
    exact Ends.bind (queryLoop_calm rows p₁) fun _ p₂ hp₂ ↦ Ends.pure hp₂
  · cases hp'.1

/-- Where the table is there, `createTable` changes nothing, whether it returns or not. -/
theorem createTable_calm (h : Stands m p.database) :
    Ends createTable p (fun _ p' ↦ p'.database = p.database)
      fun _ p' ↦ p'.database = p.database := by
  obtain ⟨t, ht, -, -⟩ := h
  cases hthrows : p.throws with
  | true => exact Ends.of_error (createTable_throws hthrows) rfl
  | false => exact Ends.of_ok (createTable_exists (by rw [ht]; rfl) hthrows) rfl

end ConfigDao

/-! ## A start on a store that is there -/

/-- The file holds the store `m`. -/
def Disk.Holds (disk : Disk) (filename : Bytes) (m : Store) : Prop :=
  Stands m (disk filename).join

/-- What the disk holds once a function of `ConfigDao` has run on the connection. -/
theorem onConnection_ends {α : Type} {x : Program Process α} {s : Startup} {filename : Bytes}
    (h : Ends x (s.connection filename) (fun _ p' ↦ Stands m p'.database)
      fun _ p' ↦ Stands m p'.database) :
    Ends (onConnection filename x) s (fun _ s' ↦ s'.disk.Holds filename m)
      fun _ s' ↦ s'.disk.Holds filename m := by
  have hclosed : ∀ p' : Process, Stands m p'.database →
      (s.closed filename p').disk.Holds filename m := by
    intro p' hp'
    show Stands m (Function.update s.disk filename (some p'.database) filename).join
    rw [Function.update_self]
    exact hp'
  cases hrun : x (s.connection filename) with
  | ok a p' =>
      rw [Ends, hrun] at h
      have hok : onConnection filename x s = .ok a (s.closed filename p') := by
        rw [onConnection, hrun]
      exact Ends.of_ok hok (hclosed p' h)
  | error e p' =>
      rw [Ends, hrun] at h
      have herror : onConnection filename x s = .error e (s.closed filename p') := by
        rw [onConnection, hrun]
      exact Ends.of_error herror (hclosed p' h)

theorem init_ends {s : Startup} (h : s.disk.Holds s.config.filename m) :
    Ends SqliteHelper.init s (fun _ s' ↦ s'.disk.Holds s.config.filename m)
      fun _ s' ↦ s'.disk.Holds s.config.filename m := by
  cases hopens : s.opens with
  | false => exact Ends.of_ok (init_closed hopens) h
  | true =>
      have hcreate : Ends (onConnection s.config.filename createTable) (s.opened s.config.filename)
          (fun _ s' ↦ s'.disk.Holds s.config.filename m)
          fun _ s' ↦ s'.disk.Holds s.config.filename m := by
        have hconn : Stands m (s.connection s.config.filename).database := h
        refine onConnection_ends ?_
        rw [connection_opened]
        exact (createTable_calm hconn).mono (fun _ _ hp ↦ hp ▸ hconn) fun _ _ hp ↦ hp ▸ hconn
      rw [Ends, init_open hopens]
      refine Ends.bind hcreate fun created s' hs' ↦ ?_
      cases created with
      | true | false => exact hs'

/-- A start leaves the store in the file as it is. -/
theorem initChatKit_ends {config : ChatKitConfig} {s : Startup}
    (h : s.disk.Holds config.filename m) :
    Ends (initChatKit config) s (fun _ s' ↦ s'.disk.Holds config.filename m)
      fun _ s' ↦ s'.disk.Holds config.filename m := by
  have hinit := init_ends (s := { s with config := config }) h
  have hdefault : Ends initChatKitDefault { s with config := config }
      (fun _ s' ↦ s'.disk.Holds config.filename m) fun _ s' ↦ s'.disk.Holds config.filename m := by
    refine Ends.bind hinit fun opened s' hs' ↦ ?_
    cases opened with
    | true | false => exact hs'
  show Ends (initChatKitDefault >>= fun _ ↦ pure kSuccess) { s with config := config } _ _
  exact Ends.bind hdefault fun _ s' hs' ↦ hs'

/-! ## The life of an installation -/

/-- What is done on an installation: the program is started anew, or the program that runs writes
or reads its configuration. The outside decides whether the file can be opened and which calls into
SQLite throw. -/
inductive Use where
  | start (opens : Bool) (faults : List Bool)
  | write (call : WriteCall) (faults : List Bool)
  | query (faults : List Bool)

/-- An installation in use. -/
structure Usage where
  disk : Disk
  /-- A program runs, with `db_` set. -/
  connected : Bool
  /-- The writes made so far, each with the calls into SQLite that threw. -/
  writes : List (WriteCall × List Bool)

namespace Usage

/-- A function of `ConfigDao` on the open connection; if it does not return, the program is gone. -/
def call (filename : Bytes) (x : Program Process Unit) (faults : List Bool) (s : Usage) : Usage :=
  match x ⟨(s.disk filename).join, faults, {}⟩ with
  | .ok _ p => { s with disk := Function.update s.disk filename (some p.database) }
  | .error _ p =>
    { s with disk := Function.update s.disk filename (some p.database), connected := false }

/-- One use with the given configuration. -/
def step (config : ChatKitConfig) (s : Usage) : Use → Result Usage
  | .start opens faults =>
    match initChatKit config ⟨{}, s.disk, false, opens, faults⟩ with
    | .ok _ after => .ok { s with disk := after.disk, connected := opens }
    | .error _ after => .ok { s with disk := after.disk, connected := false }
  | .write call faults => do
    -- `getConn()` asserts that there is a connection
    check (s.connected = true)
    let s := s.call config.filename call.run faults
    return { s with writes := s.writes ++ [(call, faults)] }
  | .query faults => do
    check (s.connected = true)
    return s.call config.filename (do let _ ← query; return ()) faults

/-- No call into SQLite has thrown during the write. -/
def quiet (w : WriteCall × List Bool) : Bool := !w.2.contains true

/-- The store is what some of the writes have made of `m`, among them all quiet ones. -/
def Atomic (m : Store) (filename : Bytes) (s : Usage) : Prop :=
  ∃ made : List WriteCall, made.Sublist (s.writes.map Prod.fst) ∧
    ((s.writes.filter quiet).map Prod.fst).Sublist made ∧
      s.disk.Holds filename (made.foldl WriteCall.write m)

variable {s s' : Usage} {filename : Bytes}

/-- What is on the disk once a function has run on the connection. -/
theorem call_yields (post : Database → Prop) {x : Program Process Unit} {faults : List Bool}
    (h : Yields x ⟨(s.disk filename).join, faults, {}⟩ fun _ p' ↦ post p'.database) :
    post ((s.call filename x faults).disk filename).join ∧
      (s.call filename x faults).writes = s.writes := by
  obtain ⟨a, p', hrun, hpost⟩ := h.exists_ok
  have hcall : s.call filename x faults =
      { s with disk := Function.update s.disk filename (some p'.database) } := by
    rw [call, hrun]
  rw [hcall]
  refine ⟨?_, rfl⟩
  show post (Function.update s.disk filename (some p'.database) filename).join
  rw [Function.update_self]
  exact hpost

/-- A write is one of those made, or a call has thrown during it. -/
theorem Atomic.write (h : Atomic m filename s) (c : WriteCall) (faults : List Bool) :
    Atomic m filename { s.call filename c.run faults with
      writes := (s.call filename c.run faults).writes ++ [(c, faults)] } := by
  obtain ⟨made, hsome, hall, hdisk⟩ := h
  have hrun : c.run = updateKey c.entry.1 c.entry.2 := by cases c <;> rfl
  let p : Process := ⟨(s.disk filename).join, faults, {}⟩
  have hconn : Stands (made.foldl WriteCall.write m) p.database := hdisk
  obtain ⟨hstands, hwrites⟩ := call_yields (s := s)
    (fun database ↦ Stands (WriteCall.write (made.foldl WriteCall.write m) c) database ∨
      (Stands (made.foldl WriteCall.write m) database ∧ true ∈ faults))
    (hrun ▸ updateKey_calm hconn c.entry.1 c.entry.2)
  rw [hwrites]
  rcases hstands with hnew | ⟨hold, hthrown⟩
  · refine ⟨made ++ [c], ?_, ?_, ?_⟩
    · rw [List.map_append]
      exact hsome.append (List.Sublist.refl _)
    · rw [List.filter_append, List.map_append]
      exact hall.append (List.filter_sublist.map Prod.fst)
    · rw [List.foldl_append]
      exact hnew
  · refine ⟨made, ?_, ?_, hold⟩
    · rw [List.map_append]
      exact hsome.trans (List.sublist_append_left ..)
    · have hquiet : quiet (c, faults) = false := by
        simp [quiet, show true ∈ faults from hthrown]
      rw [List.filter_append, List.filter_cons_of_neg (by rw [hquiet]; exact Bool.false_ne_true),
        List.filter_nil, List.append_nil]
      exact hall

theorem Atomic.step {config : ChatKitConfig} {x : Use} (h : Atomic m config.filename s)
    (hstep : s.step config x = .ok s') : Atomic m config.filename s' := by
  cases x with
  | start opens faults =>
      obtain ⟨made, hsome, hall, hdisk⟩ := h
      let started : Startup := ⟨{}, s.disk, false, opens, faults⟩
      have hends : Ends (initChatKit config) started
          (fun _ after ↦ after.disk.Holds config.filename (made.foldl WriteCall.write m))
          fun _ after ↦ after.disk.Holds config.filename (made.foldl WriteCall.write m) :=
        initChatKit_ends hdisk
      cases hrun : initChatKit config started with
      | ok r after =>
          rw [Ends, hrun] at hends
          simp only [Usage.step, show initChatKit config ⟨{}, s.disk, false, opens, faults⟩ =
            .ok r after from hrun, Except.ok.injEq] at hstep
          exact hstep ▸ ⟨made, hsome, hall, hends⟩
      | error e after =>
          rw [Ends, hrun] at hends
          simp only [Usage.step, show initChatKit config ⟨{}, s.disk, false, opens, faults⟩ =
            .error e after from hrun, Except.ok.injEq] at hstep
          exact hstep ▸ ⟨made, hsome, hall, hends⟩
  | write c faults =>
      obtain ⟨_, -, hstep⟩ := bind_eq_ok.mp hstep
      cases hstep
      exact h.write c faults
  | query faults =>
      obtain ⟨_, -, hstep⟩ := bind_eq_ok.mp hstep
      cases hstep
      obtain ⟨made, hsome, hall, hdisk⟩ := h
      have hyields : Yields (do let _ ← query; return ())
          ⟨(s.disk config.filename).join, faults, {}⟩
          fun _ p' ↦ Stands (made.foldl WriteCall.write m) p'.database :=
        Ends.bind (query_calm hdisk) fun _ p' hp' ↦ Ends.pure (hp' ▸ hdisk)
      obtain ⟨hstands, hwrites⟩ := call_yields (s := s) (Stands (made.foldl WriteCall.write m))
        hyields
      refine ⟨made, ?_, ?_, hstands⟩
      · rw [hwrites]
        exact hsome
      · rw [hwrites]
        exact hall

/-- On a file that holds the table with its index: however often the program is started, written to
and read from, whichever calls into SQLite throw and whichever starts fail or end the process, the
store is always what some of the writes have made of it, in their order and each as a whole, among
them every write during which no call has thrown. -/
theorem always_atomic (config : ChatKitConfig) {disk : Disk} (h : disk.Holds config.filename m)
    (uses : List Use) :
    Run.Always (Atomic m config.filename) (step config) ⟨disk, false, []⟩ uses :=
  Run.always_of_along _ ⟨[], List.Sublist.refl _, List.Sublist.refl _, h⟩
    (fun _ _ _ hs _ hstep ↦ hs.step hstep) (Run.Along.of_forall (fun _ _ ↦ trivial) _ _)

/-- A table with its index and no rows. -/
def indexed : Table := ⟨[], 0, true, fun _ ↦ List.nodup_nil⟩

/-- A start, a write, a write whose first call throws, a start that ends the process, and one
more. -/
theorem always_atomic_indexed :
    Run.Always (Atomic (fun _ ↦ none) (ChatKitConfig.filename {})) (step {})
      ⟨fun _ ↦ some (some indexed), false, []⟩
      [.start true [], .write (.updateMsgPort 9000) [], .write (.updateMsgPort 9001) [true],
        .start true [true], .start true []] :=
  always_atomic {} ⟨indexed, rfl, rfl, rfl⟩ _

end Usage

end CoffeeChat
