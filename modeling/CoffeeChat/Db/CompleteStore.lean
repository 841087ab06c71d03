import CoffeeChat.Db.ConfigStore
import CoffeeChat.Db.Startup
import CoffeeChat.Lib.Run

/-!
# Complete stores

`createTable` makes the table in five statements outside a transaction and makes nothing of a table
it finds, and `initChatKit(config)` reports success whatever has become of them. `start_complete`
says when a start that reports success has left a complete store, and `always_complete_iff` that
over all sequences of starts.
-/

namespace CoffeeChat

open Lib Lib.Effect

/-- The table exists with its unique index and with a row for each of the three keys. -/
def Complete : Option Database → Prop
  | some (some t) => t.uniqueKey = true ∧
      ∀ k ∈ [keyServerIp, keyGatePort, keyHttpPort], ∃ row ∈ t.rows, row.key = k
  | some none | none => False

/-- A start that has reported success has left a complete store. -/
def Installation.Sound (s : Installation) : Prop :=
  ∀ filename, s.last = some (filename, kSuccess) → Complete (s.disk filename)

/-- The start is sure to leave a complete store or to end the process: the file can be opened and
the first call, `tableExists`, throws; or the store is complete already; or there is no table yet,
the file can be opened, and neither that call nor one of the five statements throws. -/
def Start.Good (s : Installation) (x : Start) : Prop :=
  x.opens = true ∧ x.faults.headD false = true ∨ Complete (s.disk x.config.filename) ∨
    (s.disk x.config.filename).join = none ∧ x.opens = true ∧ true ∉ x.faults.take 6

/-! ## Creating the table while statements may fail -/

namespace ConfigDao

/-- None of the next `n` calls into SQLite throws. -/
def Quiet (n : Nat) (p : Process) : Prop := true ∉ p.faults.take n

theorem quiet_zero (p : Process) : Quiet 0 p := List.not_mem_nil

theorem quiet_succ {n : Nat} {p : Process} :
    Quiet (n + 1) p ↔ p.throws = false ∧ Quiet n p.next := by
  rw [Quiet, Quiet, Process.throws, Process.next]
  cases p.faults with
  | nil => simp
  | cons b faults =>
      rw [List.take_succ_cons, List.mem_cons]
      cases b with
      | false => simp
      | true => simp

theorem complete_of_stands {m : Store} {database : Database} (h : Stands m database) :
    Complete (some database) ↔
      ∀ k ∈ [keyServerIp, keyGatePort, keyHttpPort], (m k).isSome = true := by
  obtain ⟨t, rfl, hunique, rfl⟩ := h
  have hkey (k : Bytes) : (∃ row ∈ t.rows, row.key = k) ↔ (t.store k).isSome = true := by
    rw [← List.mem_map, ← not_iff_not, ← Table.store_eq_none]
    simp
  rw [Complete]
  simp only [hkey, hunique, true_and]

/-- A statement that applies to a database that is not complete. -/
theorem exec_ends {p : Process} {sql : Sql} {database : Database} (n : Nat)
    (hsql : sql.apply p.database = some database) (hincomplete : ¬ Complete (some p.database)) :
    Ends (Database.exec sql) p
      (fun _ p' ↦ p'.database = database ∧ (Quiet (n + 1) p ↔ Quiet n p'))
      (fun e p' ↦ e = .exception ∧ ¬ Complete (some p'.database) ∧ ¬ Quiet (n + 1) p) := by
  cases hthrows : p.throws with
  | true =>
      refine Ends.of_error (exec_error hthrows) ⟨rfl, hincomplete, fun hquiet ↦ ?_⟩
      exact absurd (quiet_succ.mp hquiet).1 (by simp [hthrows])
  | false =>
      refine Ends.of_ok (exec_ok hthrows hsql) ⟨rfl, ?_⟩
      rw [quiet_succ]
      exact and_iff_right hthrows

/-- The insert of a key that is not there, while another key is not there either. -/
theorem insert_ends {m : Store} {p : Process} (n : Nat) (h : Stands m p.database) {k : Bytes}
    (hk : m k = none) (v : Bytes) (hkey : k ∈ [keyServerIp, keyGatePort, keyHttpPort]) :
    Ends (Database.exec (.insert k v)) p
      (fun _ p' ↦ Stands (Function.update m k (some v)) p'.database ∧
        (Quiet (n + 1) p ↔ Quiet n p'))
      (fun e p' ↦ e = .exception ∧ ¬ Complete (some p'.database) ∧ ¬ Quiet (n + 1) p) := by
  have hincomplete : ¬ Complete (some p.database) := fun hcomplete ↦ by
    have hsome := (complete_of_stands h).mp hcomplete k hkey
    rw [hk] at hsome
    cases hsome
  obtain ⟨database, hsql, hstands⟩ := h.insert hk v
  refine (exec_ends n hsql hincomplete).mono (fun _ p' hp' ↦ ⟨?_, hp'.2⟩) fun _ _ he ↦ he
  rw [hp'.1]
  exact hstands

/-- The default rows are complete exactly when none of the three statements throws. -/
theorem insertDefaultData_ends {p : Process} (h : Stands (fun _ ↦ none) p.database) :
    Yields insertDefaultData p fun _ p' ↦ Complete (some p'.database) ↔ Quiet 3 p := by
  have hfail (p' : Process) (hp' : ¬ Complete (some p'.database) ∧ ¬ Quiet 3 p) :
      Ends (pure () : Program Process Unit) p'
        (fun _ p' ↦ Complete (some p'.database) ↔ Quiet 3 p) fun _ _ ↦ False :=
    Ends.pure (iff_of_false hp'.1 hp'.2)
  refine Ends.attempt (fun e p' ↦ e = .exception ∧ ¬ Complete (some p'.database) ∧
    ¬ Quiet 3 p) ?_ (fun p' hp' ↦ hfail p' hp'.2) fun _ hterminate ↦ by cases hterminate.1
  refine Ends.bind (insert_ends 2 h rfl _ (by decide)) ?_
  intro _ p₁ hp₁
  rw [hp₁.2]
  refine Ends.bind (insert_ends 1 hp₁.1 (missing_gatePort _) _ (by decide)) ?_
  intro _ p₂ hp₂
  rw [hp₂.2]
  have hlast := insert_ends 0 hp₂.1 (missing_httpPort _ _) (toString16 kDefaultHttpSrvPort)
    (by decide)
  refine hlast.mono (fun _ p₃ hp₃ ↦ ?_) fun _ _ he ↦ he
  rw [hp₃.2]
  have hstands : Stands defaults p₃.database := by
    rw [← update_defaults]
    exact hp₃.1
  exact iff_of_true ((complete_of_stands hstands).mpr (by decide)) (quiet_zero p₃)

/-- The `try` block of `createTable` on a database without the table. -/
theorem createTableAndIndex_ends {p : Process} (hnone : p.database = none) :
    Yields createTableAndIndex p fun created p' ↦
      if created then Stands (fun _ ↦ none) p'.database ∧ (Quiet 5 p ↔ Quiet 3 p')
      else ¬ Complete (some p'.database) ∧ ¬ Quiet 5 p := by
  refine Ends.attempt (fun e p' ↦ e = .exception ∧ ¬ Complete (some p'.database) ∧
    ¬ Quiet 5 p) ?_ (fun p' hp' ↦ Ends.pure hp'.2) fun _ hterminate ↦ by cases hterminate.1
  have hcreate : (Sql.createTable).apply p.database = some (some .new) := by
    rw [hnone]
    rfl
  have hmissing : ¬ Complete (some p.database) := by
    rw [hnone]
    exact id
  refine Ends.bind (exec_ends 4 hcreate hmissing) ?_
  intro _ p₁ hp₁
  rw [hp₁.2]
  obtain ⟨database, hindex, hstands⟩ := stands_createIndex
  rw [← hp₁.1] at hindex
  have hnotIndexed : ¬ Complete (some p₁.database) := by
    rw [hp₁.1]
    intro hcomplete
    cases hcomplete.1
  refine Ends.bind (exec_ends 3 hindex hnotIndexed) fun _ p₂ hp₂ ↦ Ends.pure ?_
  rw [← hp₂.1] at hstands
  exact ⟨hstands, hp₂.2⟩

/-- `createTable` on a database without the table, unless its first call throws: whatever it
returns, the store is complete exactly when none of the five statements has thrown. -/
theorem createTable_ends {p : Process} (hnone : p.database = none) (hthrows : p.throws = false) :
    Yields createTable p fun _ p' ↦ Complete (some p'.database) ↔ Quiet 6 p := by
  have hexists : Database.tableExists p = .ok false p.next := by
    rw [tableExists_ok hthrows, hnone]
    rfl
  have hquiet : Quiet 6 p ↔ Quiet 5 p.next := by
    rw [quiet_succ]
    exact and_iff_right hthrows
  refine Yields.noexcept ?_
  rw [Yields, Ends, bind_of_ok hexists, hquiet]
  show Ends (createTableAndIndex >>= _) p.next _ _
  refine Ends.bind (createTableAndIndex_ends (p := p.next) hnone) ?_
  intro created p₁ hp₁
  cases created with
  | true =>
      have hp₁ : Stands (fun _ ↦ none) p₁.database ∧ (Quiet 5 p.next ↔ Quiet 3 p₁) := hp₁
      rw [hp₁.2]
      show Ends (insertDefaultData >>= _) p₁ _ _
      exact Ends.bind (insertDefaultData_ends hp₁.1) fun _ p₂ hp₂ ↦ Ends.pure hp₂
  | false => exact Ends.pure (iff_of_false hp₁.1 hp₁.2)

/-- `createTable` does nothing where the table exists. -/
theorem createTable_exists {p : Process} (hsome : p.database.isSome = true)
    (hthrows : p.throws = false) : createTable p = .ok true p.next := by
  refine noexcept_of_ok ?_
  rw [bind_of_ok (tableExists_ok hthrows), hsome]
  rfl

/-- What `tableExists` throws ends the process. -/
theorem createTable_throws {p : Process} (hthrows : p.throws = true) :
    createTable p = .error .terminate p.next :=
  noexcept_of_error (bind_of_error (tableExists_error hthrows))

end ConfigDao

/-! ## One start -/

/-- A file that cannot be opened. -/
theorem openFile_closed {s : Startup} (filename : Bytes) (h : s.opens = false) :
    SqliteHelper.openFile filename s = .ok false s := by
  refine attempt_of_exception ?_
  show (openDatabase filename _ >>= _) s = _
  refine bind_of_error ?_
  show (if s.opens = false ∨ _ then throw .exception else _ : Program Startup Unit) s = _
  rw [if_pos (.inl h)]
  rfl

/-- A file that can be opened. -/
theorem openFile_open {s : Startup} (filename : Bytes) (h : s.opens = true) :
    SqliteHelper.openFile filename s = .ok true (s.opened filename) := by
  refine attempt_of_ok ?_
  let mode : OpenMode := if (s.disk filename).isSome then .readWrite else .readWriteCreate
  show (openDatabase filename mode >>= fun _ ↦ pure true) s = _
  have hmode : ¬ (s.opens = false ∨ mode = .readWrite ∧ s.disk filename = none) := by
    rintro (hclosed | hmissing)
    · rw [h] at hclosed
      cases hclosed
    · have hcreate : mode = .readWriteCreate := by
        show (if (s.disk filename).isSome then _ else _) = _
        rw [hmissing.2]
        rfl
      cases hcreate.symm.trans hmissing.1
  have hopen : openDatabase filename mode s = .ok () (s.opened filename) := by
    show (if s.opens = false ∨ mode = .readWrite ∧ s.disk filename = none then
      throw .exception else _ : Program Startup Unit) s = _
    rw [if_neg hmode]
    rfl
  rw [bind_of_ok hopen]
  rfl

/-- Where the file cannot be opened, `init` fails. -/
theorem init_closed {s : Startup} (h : s.opens = false) : SqliteHelper.init s = .ok false s := by
  show (SqliteHelper.openFile s.config.filename >>= _ : Program Startup Bool) s = _
  rw [bind_of_ok (openFile_closed s.config.filename h)]
  rfl

/-- Where it can be opened, `init` goes on with `createTable`. -/
theorem init_open {s : Startup} (h : s.opens = true) :
    SqliteHelper.init s = (onConnection s.config.filename ConfigDao.createTable >>= fun created ↦
      if created = true then
        modify (fun s : Startup ↦ { s with dbIsOpen := true }) >>= fun _ ↦ pure true
      else pure false) (s.opened s.config.filename) := by
  show (SqliteHelper.openFile s.config.filename >>= _ : Program Startup Bool) s = _
  rw [bind_of_ok (openFile_open s.config.filename h)]
  rfl

/-- What is in a file is what was in it when it was opened. -/
theorem connection_opened (s : Startup) (filename : Bytes) :
    (s.opened filename).connection filename = s.connection filename := by
  show (⟨(Function.update s.disk filename _ filename).join, s.faults, {}⟩ : Process) = _
  rw [Function.update_self]
  rfl

/-- `init` where `createTable` returns. -/
theorem init_of_ok {s : Startup} (h : s.opens = true) {b : Bool} {p : Process}
    (hcreate : ConfigDao.createTable (s.connection s.config.filename) = .ok b p) :
    ∃ s', SqliteHelper.init s = .ok b s' ∧ s'.disk s.config.filename = some p.database := by
  rw [← connection_opened] at hcreate
  have hconn : onConnection s.config.filename ConfigDao.createTable (s.opened s.config.filename) =
      .ok b ((s.opened s.config.filename).closed s.config.filename p) := by
    rw [onConnection, hcreate]
  rw [init_open h, bind_of_ok hconn]
  cases b with
  | true | false => exact ⟨_, rfl, Function.update_self ..⟩

/-- `init` where `createTable` ends the process. -/
theorem init_of_error {s : Startup} (h : s.opens = true) {e : Escape} {p : Process}
    (hcreate : ConfigDao.createTable (s.connection s.config.filename) = .error e p) :
    ∃ s', SqliteHelper.init s = .error e s' := by
  rw [← connection_opened] at hcreate
  have hconn : onConnection s.config.filename ConfigDao.createTable (s.opened s.config.filename) =
      .error e ((s.opened s.config.filename).closed s.config.filename p) := by
    rw [onConnection, hcreate]
  rw [init_open h, bind_of_error hconn]
  exact ⟨_, rfl⟩

/-- `initChatKit(config)` reports success whenever it returns. -/
theorem initChatKit_of_ok {config : ChatKitConfig} {s s' : Startup} {b : Bool}
    (h : SqliteHelper.init { s with config } = .ok b s') :
    initChatKit config s = .ok kSuccess s' := by
  obtain ⟨v, hdefault⟩ : ∃ v, initChatKitDefault { s with config } = .ok v s' := by
    rw [initChatKitDefault, bind_of_ok h]
    cases b with
    | true | false => exact ⟨_, rfl⟩
  show (initChatKitDefault >>= fun _ ↦ pure kSuccess) { s with config } = _
  rw [bind_of_ok hdefault]
  rfl

theorem initChatKit_of_error {config : ChatKitConfig} {s s' : Startup} {e : Escape}
    (h : SqliteHelper.init { s with config } = .error e s') :
    initChatKit config s = .error e s' := by
  have hdefault : initChatKitDefault { s with config } = .error e s' := bind_of_error h
  show (initChatKitDefault >>= fun _ ↦ pure kSuccess) { s with config } = _
  rw [bind_of_error hdefault]

theorem exists_of_complete {file : Option Database} (h : Complete file) :
    ∃ t, file = some (some t) := by
  match file, h with
  | some (some t), _ => exact ⟨t, rfl⟩

theorem sound_success {disk : Disk} {filename : Bytes} :
    Installation.Sound ⟨disk, some (filename, kSuccess)⟩ ↔ Complete (disk filename) := by
  constructor
  · intro h
    exact h filename rfl
  · intro h filename' hlast
    cases hlast
    exact h

theorem sound_none (disk : Disk) : Installation.Sound ⟨disk, none⟩ :=
  fun _ hlast ↦ by cases hlast

namespace Start

variable {s : Installation} {x : Start}

/-- The program as a start finds it, with the configuration it is given. -/
def first (s : Installation) (x : Start) : Startup := ⟨x.config, s.disk, false, x.opens, x.faults⟩

/-- A start in which `init` returns reports success. -/
theorem run_of_ok {b : Bool} {s' : Startup} (h : SqliteHelper.init (first s x) = .ok b s') :
    run s x = .ok ⟨s'.disk, some (x.config.filename, kSuccess)⟩ := by
  have hkit : initChatKit x.config ⟨{}, s.disk, false, x.opens, x.faults⟩ = .ok kSuccess s' :=
    initChatKit_of_ok h
  rw [run, hkit]

/-- A start in which `init` does not return reports nothing. -/
theorem run_of_error {e : Escape} {s' : Startup} (h : SqliteHelper.init (first s x) = .error e s') :
    run s x = .ok ⟨s'.disk, none⟩ := by
  have hkit : initChatKit x.config ⟨{}, s.disk, false, x.opens, x.faults⟩ = .error e s' :=
    initChatKit_of_error h
  rw [run, hkit]

/-- The file cannot be opened. -/
theorem run_closed (h : x.opens = false) :
    run s x = .ok ⟨s.disk, some (x.config.filename, kSuccess)⟩ :=
  run_of_ok (init_closed (s := first s x) h)

/-- The file is opened and `createTable` returns. -/
theorem run_created (h : x.opens = true) {b : Bool} {p : Process}
    (hcreate : ConfigDao.createTable ((first s x).connection x.config.filename) = .ok b p) :
    ∃ disk, run s x = .ok ⟨disk, some (x.config.filename, kSuccess)⟩ ∧
      disk x.config.filename = some p.database := by
  obtain ⟨s', hinit, hdisk⟩ := init_of_ok (s := first s x) h hcreate
  exact ⟨s'.disk, run_of_ok hinit, hdisk⟩

/-- A start that makes the table leaves a complete store when nothing throws. -/
theorem sound_of_missing {s' : Installation} (h : run s x = .ok s') (hopens : x.opens = true)
    (hthrows : x.faults.headD false = false) (hmissing : (s.disk x.config.filename).join = none) :
    s'.Sound ↔ true ∉ x.faults.take 6 := by
  have hdatabase : ((first s x).connection x.config.filename).database = none := hmissing
  obtain ⟨b, p, hcreate, hcomplete⟩ := (ConfigDao.createTable_ends hdatabase hthrows).exists_ok
  obtain ⟨disk, hrun, hdisk⟩ := run_created hopens hcreate
  cases h.symm.trans hrun
  rw [sound_success, hdisk]
  exact hcomplete

/-- A start that finds the table leaves it as it is. -/
theorem sound_of_existing {s' : Installation} (h : run s x = .ok s') (hopens : x.opens = true)
    (hthrows : x.faults.headD false = false) {t : Table}
    (hfile : s.disk x.config.filename = some (some t)) :
    s'.Sound ↔ Complete (s.disk x.config.filename) := by
  have hdatabase : ((first s x).connection x.config.filename).database = some t := by
    show (s.disk x.config.filename).join = _
    rw [hfile]
    rfl
  have hcreate := ConfigDao.createTable_exists (Option.isSome_of_eq_some hdatabase) hthrows
  obtain ⟨disk, hrun, hdisk⟩ := run_created hopens hcreate
  cases h.symm.trans hrun
  have hkept : ((first s x).connection x.config.filename).next.database = some t := hdatabase
  rw [sound_success, hdisk, hkept, hfile]

/-- A start leaves what it says exactly when it is good. -/
theorem start_complete {s' : Installation} (h : run s x = .ok s') : s'.Sound ↔ Good s x := by
  cases hopens : x.opens with
  | false =>
      cases h.symm.trans (run_closed hopens)
      rw [sound_success, Good, hopens]
      simp
  | true =>
      cases hthrows : x.faults.headD false with
      | true =>
          obtain ⟨s₁, hinit⟩ := init_of_error (s := first s x) hopens
            (ConfigDao.createTable_throws hthrows)
          cases h.symm.trans (run_of_error hinit)
          exact iff_of_true (sound_none _) (.inl ⟨hopens, hthrows⟩)
      | false =>
          rw [Good, hopens, hthrows]
          cases htable : (s.disk x.config.filename).join with
          | none =>
              have hmissing : ¬ Complete (s.disk x.config.filename) := by
                intro hcomplete
                obtain ⟨t, ht⟩ := exists_of_complete hcomplete
                rw [ht] at htable
                cases htable
              rw [sound_of_missing h hopens hthrows htable]
              simp [hmissing]
          | some t =>
              have hfile : s.disk x.config.filename = some (some t) :=
                Option.join_eq_some_iff.mp htable
              rw [sound_of_existing h hopens hthrows hfile]
              simp

end Start

/-! ## Sequences -/

/-- Over any sequence of starts on any files: every start that reports success has left a complete
store exactly when every start was good. -/
theorem always_complete_iff (disk : Disk) (starts : List Start) :
    Run.Always Installation.Sound Start.run ⟨disk, none⟩ starts ↔
      Run.Along Start.Good Start.run ⟨disk, none⟩ starts :=
  Run.always_iff_along (fun _ ↦ True) trivial (sound_none disk) (fun _ _ _ _ _ ↦ trivial)
    fun _ _ _ _ _ hrun ↦ Start.start_complete hrun

/-- A first start whose `CREATE UNIQUE INDEX` throws: it leaves a table without index and rows, and
reports success. -/
theorem not_always_complete :
    ¬ Run.Always Installation.Sound Start.run ⟨fun _ ↦ none, none⟩
      [⟨{}, true, [false, false, true]⟩] := by
  intro h
  have hrun : Start.run ⟨fun _ ↦ none, none⟩ ⟨{}, true, [false, false, true]⟩ = .ok _ := rfl
  have hsound := (h.2 _ hrun).head
  have hcomplete := hsound ({} : ChatKitConfig).filename rfl
  obtain ⟨t, ht⟩ := exists_of_complete hcomplete
  cases ht
  cases hcomplete.1

end CoffeeChat
