import CoffeeChat.Base.Buffer
import CoffeeChat.Lib.Effect
import CoffeeChat.Lib.Keyed

/-!
# The database under the configuration

SQLite and its C++ interface as `ConfigDao` uses them. The database holds at most one table,
`im_user_config`; a `Table` carries the guarantee of its unique index, so that no statement can
break it. A statement either does what it says or reports an error and changes nothing.

A call into SQLite may also fail for reasons of its own, a full disk or a lock. `faults` says of the
calls to come, in order, which ones throw; the calls behind its end do not.
-/

namespace CoffeeChat

open Lib Lib.Effect

/-! ## Tables -/

/-- A row of `im_user_config`, without the two reserved columns, which nothing writes. -/
structure Row where
  id : Nat
  key : Bytes
  value : Bytes
  deriving DecidableEq, Repr

/-- The table `im_user_config`. -/
structure Table where
  /-- The rows in the order of their ids. -/
  rows : List Row
  /-- The largest id given so far. -/
  sequence : Nat
  /-- The unique index `im_index_key` exists. -/
  uniqueKey : Bool
  /-- What the index guarantees. -/
  nodup : uniqueKey = true → (rows.map Row.key).Nodup
  deriving DecidableEq, Repr

/-- The tables of the database: `im_user_config`, if it exists. -/
abbrev Database := Option Table

namespace Table

/-- A table that was just created. -/
def new : Table := ⟨[], 0, false, fun _ ↦ List.nodup_nil⟩

/-- `CREATE UNIQUE INDEX [im_index_key] ON [im_user_config] ([key])`. -/
def createIndex (t : Table) : Option Table :=
  if h : t.uniqueKey = false ∧ (t.rows.map Row.key).Nodup then
    some { t with uniqueKey := true, nodup := fun _ ↦ h.2 }
  else none

/-- `INSERT INTO im_user_config (key, value) VALUES (k, v)`; the index refuses a key it has. -/
def insert (k v : Bytes) (t : Table) : Option Table :=
  if h : t.uniqueKey = true ∧ k ∈ t.rows.map Row.key then none
  else some {
    rows := t.rows ++ [⟨t.sequence + 1, k, v⟩]
    sequence := t.sequence + 1
    uniqueKey := t.uniqueKey
    nodup := fun hunique ↦ Keyed.nodup_append (t.nodup hunique) fun hk ↦ h ⟨hunique, hk⟩ }

/-- `UPDATE im_user_config SET value = v WHERE key = k`. -/
def update (v k : Bytes) (t : Table) : Table where
  rows := Keyed.modify Row.key k (fun r ↦ { r with value := v }) t.rows
  sequence := t.sequence
  uniqueKey := t.uniqueKey
  nodup hunique := by
    rw [Keyed.map_key_modify (fun r : Row ↦ { r with value := v }) fun _ ↦ rfl]
    exact t.nodup hunique

end Table

/-- The statements that `ConfigDao` executes, with the values bound to their parameters. -/
inductive Sql where
  | createTable
  | createIndex
  | insert (key value : Bytes)
  | update (value key : Bytes)
  deriving DecidableEq, Repr

/-- What a statement makes of the database; nothing if SQLite reports an error. -/
def Sql.apply : Sql → Database → Option Database
  | .createTable, none => some (some .new)
  | .createTable, some _ => none
  | .createIndex, some t => t.createIndex.map some
  | .insert key value, some t => (t.insert key value).map some
  | .update value key, some t => some (some (t.update value key))
  | .createIndex, none | .insert _ _, none | .update _ _, none => none

/-! ## Calls -/

/-- `kDefaultServerIp`. -/
def kDefaultServerIp : Bytes := asciiBytes ['1', '2', '7', '.', '0', '.', '0', '.', '1']

/-- `kDefaultGateSrvPort`. -/
def kDefaultGateSrvPort : UInt16 := 8000

/-- `kDefaultHttpSrvPort`. -/
def kDefaultHttpSrvPort : UInt16 := 18080

/-- `ServerInfoConfig` of `cim_def.h`. -/
structure ServerInfoConfig where
  ip : Bytes := kDefaultServerIp
  gatePort : UInt16 := kDefaultGateSrvPort
  httpPort : UInt16 := kDefaultHttpSrvPort
  deriving DecidableEq, Repr

/-- What the functions of `ConfigDao` work on. -/
structure Process where
  /-- The database behind the connection. -/
  database : Database
  /-- Which of the next calls into SQLite throw. -/
  faults : List Bool
  /-- The object the caller has passed to `query`. -/
  out : ServerInfoConfig
  deriving DecidableEq, Repr

/-- The next call into SQLite throws. -/
def Process.throws (p : Process) : Bool := p.faults.headD false

/-- The process once a call into SQLite has been made. -/
def Process.next (p : Process) : Process := { p with faults := p.faults.tail }

/-- A call into SQLite. -/
def sqlite : Program Process Unit := fun p ↦
  if p.throws then .error .exception p.next else .ok () p.next

/-- `SQLite::Database::exec` and `SQLite::Statement::exec`. -/
def Database.exec (sql : Sql) : Program Process Unit := do
  sqlite
  match sql.apply (← get).database with
  | none => throw .exception
  | some database => modify ({ · with database })

/-- `SQLite::Database::tableExists("im_user_config")`. -/
def Database.tableExists : Program Process Bool := do
  sqlite
  return (← get).database.isSome

namespace Statement

/-- The constructor `SQLite::Statement(db, sql)`, for a statement on `im_user_config`; returned are
the rows the statement is about to see. -/
def prepare : Program Process (List Row) := do
  sqlite
  match (← get).database with
  | none => throw .exception
  | some t => return t.rows

/-- `bind(index, value)`. -/
def bind : Program Process Unit := sqlite

/-- `executeStep()`; whether there is a row is known from the rows that are left. -/
def executeStep : Program Process Unit := sqlite

/-- `getColumn(index)`, read as a string. -/
def getColumn (value : Bytes) : Program Process Bytes := do
  sqlite
  return value

/-- `exec()`. -/
def exec (sql : Sql) : Program Process Unit := Database.exec sql

end Statement

/-! ## What a call does -/

section

variable {p : Process} {sql : Sql} {database : Database}

theorem sqlite_ok (h : p.throws = false) : sqlite p = .ok () p.next := by
  rw [sqlite, h]
  rfl

theorem sqlite_error (h : p.throws = true) :
    sqlite p = .error .exception p.next := by
  rw [sqlite, h]
  rfl

/-- A statement that does not fail. -/
theorem exec_ok (h : p.throws = false) (hsql : sql.apply p.database = some database) :
    Database.exec sql p = .ok () { p.next with database } := by
  rw [Database.exec, bind_of_ok (sqlite_ok h)]
  show (match sql.apply p.database with
    | none => throw .exception
    | some database => modify ({ · with database }) : Program Process Unit) p.next = _
  rw [hsql]
  rfl

/-- A statement that fails changes nothing. -/
theorem exec_error (h : p.throws = true) :
    Database.exec sql p = .error .exception p.next := by
  rw [Database.exec, bind_of_error (sqlite_error h)]

theorem tableExists_ok (h : p.throws = false) :
    Database.tableExists p = .ok p.database.isSome p.next := by
  rw [Database.tableExists, bind_of_ok (sqlite_ok h)]
  rfl

theorem tableExists_error (h : p.throws = true) :
    Database.tableExists p = .error .exception p.next := by
  rw [Database.tableExists, bind_of_error (sqlite_error h)]

theorem prepare_ok (h : p.throws = false) {t : Table} (ht : p.database = some t) :
    Statement.prepare p = .ok t.rows p.next := by
  rw [Statement.prepare, bind_of_ok (sqlite_ok h)]
  show (match p.database with
    | none => throw .exception
    | some t => return t.rows : Program Process (List Row)) p.next = _
  rw [ht]
  rfl

theorem getColumn_ok (h : p.throws = false) (value : Bytes) :
    Statement.getColumn value p = .ok value p.next := by
  rw [Statement.getColumn, bind_of_ok (sqlite_ok h)]
  rfl

end

end CoffeeChat
