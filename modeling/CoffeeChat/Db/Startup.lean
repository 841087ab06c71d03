import CoffeeChat.Core.Messages
import CoffeeChat.Db.ConfigDao

/-!
# Starting the program

`SqliteHelper::init` of `db/sqlite3_helper.cpp` and `initChatKit` of `cim_helper.cpp`, as far as the
database goes. A program is started again and again on the same files; each time the outside decides
whether the database file can be opened, with what became of its directory, and which calls into
SQLite throw.
-/

namespace CoffeeChat

open Lib Lib.Effect

/-! ## The files -/

/-- The files, each a database, by their names. -/
abbrev Disk := Bytes → Option Database

/-- `kDefaultAppDataDir`. -/
def kDefaultAppDataDir : Bytes := asciiBytes ['d', 'a', 't', 'a']

/-- `kDefaultAppDataFilename`. -/
def kDefaultAppDataFilename : Bytes := asciiBytes ['m', 's', 'g', '.', 'd', 'b']

/-- `ChatKitConfig`, of which the start reads `appConfig.app_data_dir`. -/
structure ChatKitConfig where
  appDataDir : Bytes := kDefaultAppDataDir
  deriving DecidableEq, Repr

/-- The name of the database file. -/
def ChatKitConfig.filename (config : ChatKitConfig) : Bytes :=
  if config.appDataDir = [] then kDefaultAppDataFilename
  else config.appDataDir ++ asciiBytes ['/'] ++ kDefaultAppDataFilename

/-- `OPEN_READWRITE`, with or without `OPEN_CREATE`. -/
inductive OpenMode where
  | readWrite
  | readWriteCreate
  deriving DecidableEq, Repr

/-- The program while it starts. -/
structure Startup where
  /-- `g_config`. -/
  config : ChatKitConfig
  disk : Disk
  /-- `db_is_open_`. -/
  dbIsOpen : Bool
  /-- The file system lets the database file be opened. -/
  opens : Bool
  /-- Which of the next calls into SQLite throw. -/
  faults : List Bool

/-- `FilePathIsExist(filename, false)`. -/
def filePathIsExist (filename : Bytes) : Program Startup Bool :=
  return ((← get).disk filename).isSome

/-- The start once the file has been opened: it is there, with what was in it. -/
def Startup.opened (s : Startup) (filename : Bytes) : Startup :=
  { s with disk := Function.update s.disk filename (some (s.disk filename).join) }

/-- The constructor `SQLite::Database(filename, flags)`. -/
def openDatabase (filename : Bytes) (mode : OpenMode) : Program Startup Unit := do
  let s ← get
  if s.opens = false ∨ mode = .readWrite ∧ s.disk filename = none then
    throw .exception
  else
    set (s.opened filename)

/-- The connection to a file that was opened. -/
def Startup.connection (s : Startup) (filename : Bytes) : Process :=
  ⟨(s.disk filename).join, s.faults, {}⟩

/-- The start once the connection has been used. -/
def Startup.closed (s : Startup) (filename : Bytes) (p : Process) : Startup :=
  { s with disk := Function.update s.disk filename (some p.database), faults := p.faults }

/-- A function of `ConfigDao` on the open connection. -/
def onConnection {α : Type} (filename : Bytes) (x : Program Process α) : Program Startup α :=
  fun s ↦
    match x (s.connection filename) with
    | .ok a p => .ok a (s.closed filename p)
    | .error e p => .error e (s.closed filename p)

namespace SqliteHelper

/-- The `try` block of `init`. -/
def openFile (filename : Bytes) : Program Startup Bool :=
  attempt
    (do
      let found ← filePathIsExist filename
      openDatabase filename (if found then .readWrite else .readWriteCreate)
      return true)
    (pure false)

/-- `SqliteHelper::init()`. -/
def init : Program Startup Bool := do
  let filename := (← get).config.filename
  if ← openFile filename then
    if ← onConnection filename ConfigDao.createTable then
      modify ({ · with dbIsOpen := true })
      return true
    else
      return false
  else
    return false

end SqliteHelper

/-- `cim::Result::kSuccess`. -/
def kSuccess : Int32 := 1

/-- `initChatKit()`; where the database is open it ends without a `return`, with no value. -/
def initChatKitDefault : Program Startup (Option Int32) := do
  if ← SqliteHelper.init then
    return none
  else
    return some kError

/-- `initChatKit(config)`. -/
def initChatKit (config : ChatKitConfig) : Program Startup Int32 := do
  modify ({ · with config })
  -- what `initChatKit()` returns is not looked at
  let _ ← initChatKitDefault
  return kSuccess

/-! ## Sequences of starts -/

/-- What the outside decides about a start. -/
structure Start where
  config : ChatKitConfig
  opens : Bool
  faults : List Bool

/-- The files between two starts, and what the last start has reported for which file; nothing
where it has ended the process. -/
structure Installation where
  disk : Disk
  last : Option (Bytes × Int32)

/-- One start of the program. -/
def Start.run (s : Installation) (x : Start) : Result Installation :=
  match initChatKit x.config ⟨{}, s.disk, false, x.opens, x.faults⟩ with
  | .ok r after => .ok ⟨after.disk, some (x.config.filename, r)⟩
  | .error _ after => .ok ⟨after.disk, none⟩

end CoffeeChat
