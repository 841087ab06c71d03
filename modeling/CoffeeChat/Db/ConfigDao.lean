import CoffeeChat.Db.Sqlite
import CoffeeChat.Lib.Decimal

/-!
# The configuration table

`cim::db::ConfigDao` of `db/config_dao.cpp`. The functions run on a `Process`, so that what they
have done to the database and to the caller's object is there also when SQLite throws. Results and
exceptions are logged by the source and have no other effect; the logging is left out.
-/

namespace CoffeeChat

open Lib Lib.Effect Lib.Decimal

/-- The key `"serverIp"`. -/
def keyServerIp : Bytes := asciiBytes ['s', 'e', 'r', 'v', 'e', 'r', 'I', 'p']

/-- The key `"gatePort"`. -/
def keyGatePort : Bytes := asciiBytes ['g', 'a', 't', 'e', 'P', 'o', 'r', 't']

/-- The key `"httpPort"`. -/
def keyHttpPort : Bytes := asciiBytes ['h', 't', 't', 'p', 'P', 'o', 'r', 't']

theorem keyServerIp_ne_keyGatePort : keyServerIp ≠ keyGatePort := by decide

theorem keyServerIp_ne_keyHttpPort : keyServerIp ≠ keyHttpPort := by decide

theorem keyGatePort_ne_keyHttpPort : keyGatePort ≠ keyHttpPort := by decide

/-- `INSERT_DATA_USER_CONFIG_IP`. -/
def insertDataUserConfigIp : Sql :=
  .insert keyServerIp (asciiBytes ['1', '2', '7', '.', '0', '.', '0', '.', '1'])

/-- `INSERT_DATA_USER_CONFIG_MSG_PORT`. -/
def insertDataUserConfigMsgPort : Sql :=
  .insert keyGatePort (asciiBytes ['8', '0', '0', '0'])

/-- `INSERT_DATA_USER_CONFIG_HTTP_PORT`. -/
def insertDataUserConfigHttpPort : Sql :=
  .insert keyHttpPort (asciiBytes ['1', '8', '0', '8', '0'])

/-- `std::to_string` of a `uint16_t`. -/
def toString16 (port : UInt16) : Bytes := decimal port.toNat

/-- The conversion of what `std::atoi` returns to `uint16_t`. -/
def atoi16 (value : Bytes) : UInt16 := UInt16.ofInt (atoi value).toInt

namespace ConfigDao

/-! ## Creating -/

/-- `ConfigDao::insertDefaultData()`. -/
def insertDefaultData : Program Process Unit :=
  attempt
    (do
      Database.exec insertDataUserConfigIp
      Database.exec insertDataUserConfigMsgPort
      Database.exec insertDataUserConfigHttpPort)
    (pure ())

/-- The `try` block of `createTable`; its value says whether the function goes on. -/
def createTableAndIndex : Program Process Bool :=
  attempt
    (do
      Database.exec .createTable
      Database.exec .createIndex
      return true)
    (pure false)

/-- `ConfigDao::createTable()`. -/
def createTable : Program Process Bool :=
  noexcept do
    if ← Database.tableExists then
      return true
    else if ← createTableAndIndex then
      insertDefaultData
      return true
    else
      return false

/-! ## Reading -/

/-- `ConfigDao::queryKey(key, outValue)`: its result and what `outValue` is then. -/
def queryKey (key outValue : Bytes) : Program Process (Bool × Bytes) :=
  noexcept <| attempt
    (do
      let rows ← Statement.prepare
      Statement.bind
      Statement.executeStep
      match Keyed.find Row.key rows key with
      | some row =>
          let value ← Statement.getColumn row.value
          return (true, value)
      | none => return (false, outValue))
    (pure (false, outValue))

/-- What a row does to the object that `query` fills. -/
def assign (out : ServerInfoConfig) (key value : Bytes) : ServerInfoConfig :=
  if key = keyServerIp then { out with ip := value }
  else if key = keyGatePort then { out with gatePort := atoi16 value }
  else if key = keyHttpPort then { out with httpPort := atoi16 value }
  else out

/-- The loop of `query` over the rows that are left. -/
def queryLoop : List Row → Program Process Unit
  | [] => Statement.executeStep
  | row :: rows => do
      Statement.executeStep
      let key ← Statement.getColumn row.key
      let value ← Statement.getColumn row.value
      modify fun p ↦ { p with out := assign p.out key value }
      queryLoop rows

/-- `query.getColumnCount()`: `SELECT_USER_CONFIG_SQL` selects id, key and value. -/
def getColumnCount : Nat := 3

/-- `ConfigDao::query(out)`. -/
def query : Program Process Bool :=
  noexcept <| attempt
    (do
      let rows ← Statement.prepare
      if getColumnCount ≠ 3 then
        return false
      else
        queryLoop rows
        return true)
    (pure false)

/-! ## Writing -/

/-- The `try` blocks of `updateKey`: a statement with two parameters. -/
def execBound (sql : Sql) : Program Process Unit :=
  attempt
    (do
      let _ ← Statement.prepare
      Statement.bind
      Statement.bind
      Statement.exec sql)
    (pure ())

/-- `ConfigDao::updateKey(key, newValue)`. -/
def updateKey (key newValue : Bytes) : Program Process Unit :=
  noexcept do
    let found ← queryKey key []
    if found.1 then
      execBound (.update newValue key)
    else
      execBound (.insert key newValue)

/-- `ConfigDao::updateServerIp(ip)`. -/
def updateServerIp (ip : Bytes) : Program Process Unit := updateKey keyServerIp ip

/-- `ConfigDao::updateMsgPort(msgPort)`. -/
def updateMsgPort (msgPort : UInt16) : Program Process Unit :=
  updateKey keyGatePort (toString16 msgPort)

/-- `ConfigDao::updateHttpPort(httpPort)`. -/
def updateHttpPort (httpPort : UInt16) : Program Process Unit :=
  updateKey keyHttpPort (toString16 httpPort)

end ConfigDao

end CoffeeChat
