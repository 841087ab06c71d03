import CoffeeChat.Db.QueryLoop

/-!
# The configuration is a map

While SQLite does not fail, the table with its unique index is a partial map from keys to values.
`Serves m p` says that the database of `p` is the map `m`; a call that writes is then
`Function.update` on it, and `queryKey` and `query` read it. `store_is_map` follows for any sequence
of writes behind `createTable`.
-/

namespace CoffeeChat

open Lib Lib.Effect Lib.Decimal

/-- What the table is for: the value of each key. -/
abbrev Store := Bytes → Option Bytes

namespace Table

/-- The map a table stands for. -/
def store (t : Table) : Store := fun k ↦ (Keyed.find Row.key t.rows k).map Row.value

theorem store_eq_none {t : Table} {k : Bytes} : t.store k = none ↔ k ∉ t.rows.map Row.key := by
  rw [store, Option.map_eq_none_iff, Keyed.find_eq_none]

/-- The map of a table whose rows differ under one key. -/
theorem store_of_find {t t' : Table} {k : Bytes} (row : Row)
    (h : Keyed.find Row.key t'.rows =
      Function.update (Keyed.find Row.key t.rows) k (some row)) :
    t'.store = Function.update t.store k (some row.value) := by
  funext k'
  rw [store, h]
  by_cases hk : k' = k
  · subst hk
    rw [Function.update_self, Function.update_self]
    rfl
  · rw [Function.update_of_ne hk, Function.update_of_ne hk]
    rfl

/-- Updating a key that is there. -/
theorem store_update {t : Table} {k : Bytes} (h : (t.store k).isSome) (v : Bytes) :
    (t.update v k).store = Function.update t.store k (some v) := by
  obtain ⟨old, hold⟩ := Option.isSome_iff_exists.mp h
  obtain ⟨row, hrow, -⟩ := Option.map_eq_some_iff.mp hold
  have hfind : Keyed.find Row.key (t.update v k).rows =
      Function.update (Keyed.find Row.key t.rows) k
      ((Keyed.find Row.key t.rows k).map fun r ↦ { r with value := v }) :=
    Keyed.find_modify (fun r ↦ { r with value := v }) (fun _ ↦ rfl) t.rows k
  rw [hrow] at hfind
  exact store_of_find { row with value := v } hfind

/-- Inserting a key that is not there. -/
theorem insert_eq {t : Table} {k : Bytes} (h : t.store k = none) (v : Bytes) :
    ∃ t', t.insert k v = some t' ∧ t'.uniqueKey = t.uniqueKey ∧
      t'.store = Function.update t.store k (some v) := by
  have hkey := store_eq_none.mp h
  refine ⟨_, dif_neg fun hmem ↦ hkey hmem.2, rfl, ?_⟩
  exact store_of_find ⟨t.sequence + 1, k, v⟩ (Keyed.find_append hkey)

end Table

/-- The table and its index exist, and the table stands for `m`. -/
def Stands (m : Store) (database : Database) : Prop :=
  ∃ t, database = some t ∧ t.uniqueKey = true ∧ t.store = m

/-- An insert of a key that is not there. -/
theorem Stands.insert {m : Store} {database : Database} (h : Stands m database) {k : Bytes}
    (hk : m k = none) (v : Bytes) :
    ∃ database', (Sql.insert k v).apply database = some database' ∧
      Stands (Function.update m k (some v)) database' := by
  obtain ⟨t, rfl, hunique, rfl⟩ := h
  obtain ⟨t', hinsert, hunique', hstore⟩ := Table.insert_eq hk v
  refine ⟨some t', ?_, t', rfl, hunique'.trans hunique, hstore⟩
  show (t.insert k v).map some = _
  rw [hinsert]
  rfl

/-- An update of a key that is there. -/
theorem Stands.update {m : Store} {database : Database} (h : Stands m database) {k : Bytes}
    (hk : (m k).isSome = true) (v : Bytes) :
    ∃ database', (Sql.update v k).apply database = some database' ∧
      Stands (Function.update m k (some v)) database' := by
  obtain ⟨t, rfl, hunique, rfl⟩ := h
  exact ⟨some (t.update v k), rfl, t.update v k, rfl, hunique, Table.store_update hk v⟩

/-- SQLite does not fail, and the database stands for `m`. -/
def Serves (m : Store) (p : Process) : Prop :=
  p.faults = [] ∧ Stands m p.database

/-! ## Calls that do not fail -/

section

variable {p : Process} (h : p.faults = [])

include h

theorem next_quiet : p.next = p := by
  rw [Process.next, h]
  cases p
  cases h
  rfl

theorem throws_quiet : p.throws = false := by
  rw [Process.throws, h]
  rfl

theorem sqlite_quiet : sqlite p = .ok () p := by
  rw [sqlite_ok (throws_quiet h), next_quiet h]

theorem exec_quiet {sql : Sql} {database : Database}
    (hsql : sql.apply p.database = some database) :
    Database.exec sql p = .ok () { p with database } := by
  rw [exec_ok (throws_quiet h) hsql, next_quiet h]

theorem prepare_quiet {t : Table} (ht : p.database = some t) :
    Statement.prepare p = .ok t.rows p := by
  rw [prepare_ok (throws_quiet h) ht, next_quiet h]

theorem getColumn_quiet (value : Bytes) : Statement.getColumn value p = .ok value p := by
  rw [getColumn_ok (throws_quiet h), next_quiet h]

end

namespace ConfigDao

/-! ## Reading and writing -/

/-- What `queryKey` answers where the store has `found` under the key. -/
def answer (found : Option Bytes) (outValue : Bytes) : Bool × Bytes :=
  (found.isSome, found.getD outValue)

/-- `queryKey` reads the store and changes nothing. -/
theorem queryKey_eq {m : Store} {p : Process} (h : Serves m p) (k outValue : Bytes) :
    queryKey k outValue p = .ok (answer (m k) outValue) p := by
  obtain ⟨hfaults, t, ht, -, rfl⟩ := h
  refine noexcept_of_ok (attempt_of_ok ?_)
  rw [bind_of_ok (prepare_quiet hfaults ht)]
  rw [bind_of_ok (show Statement.bind p = .ok () p from sqlite_quiet hfaults)]
  rw [bind_of_ok (show Statement.executeStep p = .ok () p from sqlite_quiet hfaults)]
  rw [Table.store]
  cases Keyed.find Row.key t.rows k with
  | none => rfl
  | some row =>
      show (Statement.getColumn row.value >>= fun value ↦ pure (true, value)) p = _
      rw [bind_of_ok (getColumn_quiet hfaults row.value)]
      rfl

/-- A statement that turns the store into another one. -/
theorem exec_serves {m m' : Store} {p : Process} {sql : Sql} (h : Serves m p)
    (hsql : ∃ database, sql.apply p.database = some database ∧ Stands m' database) :
    ∃ p', Database.exec sql p = .ok () p' ∧ Serves m' p' ∧ p'.out = p.out := by
  obtain ⟨database, hsql, hstands⟩ := hsql
  exact ⟨_, exec_quiet h.1 hsql, ⟨h.1, hstands⟩, rfl⟩

/-- A statement with two parameters does what it does to the database. -/
theorem execBound_eq {m : Store} {p p' : Process} (h : Serves m p) {sql : Sql}
    (hexec : Database.exec sql p = .ok () p') : execBound sql p = .ok () p' := by
  obtain ⟨hfaults, t, ht, -, -⟩ := h
  refine attempt_of_ok ?_
  rw [bind_of_ok (prepare_quiet hfaults ht)]
  rw [bind_of_ok (show Statement.bind p = .ok () p from sqlite_quiet hfaults)]
  rw [bind_of_ok (show Statement.bind p = .ok () p from sqlite_quiet hfaults)]
  exact hexec

/-- `updateKey` is one entry of the map, by an update or by an insert. -/
theorem updateKey_serves {m : Store} {p : Process} (h : Serves m p) (k v : Bytes) :
    ∃ p', updateKey k v p = .ok () p' ∧ Serves (Function.update m k (some v)) p' ∧
      p'.out = p.out := by
  cases hfound : m k with
  | some old =>
      have hsome : (m k).isSome = true := by rw [hfound]; rfl
      obtain ⟨p', hexec, hp'⟩ := exec_serves h (h.2.update hsome v)
      refine ⟨p', noexcept_of_ok ?_, hp'⟩
      rw [bind_of_ok (queryKey_eq h k []), hfound]
      exact execBound_eq h hexec
  | none =>
      obtain ⟨p', hexec, hp'⟩ := exec_serves h (h.2.insert hfound v)
      refine ⟨p', noexcept_of_ok ?_, hp'⟩
      rw [bind_of_ok (queryKey_eq h k []), hfound]
      exact execBound_eq h hexec

/-! ## Sequences of writes -/

/-- A call that writes. -/
inductive WriteCall where
  | updateKey (key newValue : Bytes)
  | updateServerIp (ip : Bytes)
  | updateMsgPort (msgPort : UInt16)
  | updateHttpPort (httpPort : UInt16)
  deriving DecidableEq, Repr

namespace WriteCall

/-- The call. -/
def run : WriteCall → Program Process Unit
  | .updateKey key newValue => ConfigDao.updateKey key newValue
  | .updateServerIp ip => ConfigDao.updateServerIp ip
  | .updateMsgPort msgPort => ConfigDao.updateMsgPort msgPort
  | .updateHttpPort httpPort => ConfigDao.updateHttpPort httpPort

/-- The key it writes and the value it writes there. -/
def entry : WriteCall → Bytes × Bytes
  | .updateKey key newValue => (key, newValue)
  | .updateServerIp ip => (keyServerIp, ip)
  | .updateMsgPort msgPort => (keyGatePort, toString16 msgPort)
  | .updateHttpPort httpPort => (keyHttpPort, toString16 httpPort)

/-- The store once the call is made. -/
def write (m : Store) (c : WriteCall) : Store := Function.update m c.entry.1 (some c.entry.2)

/-- The port that is given to `updateMsgPort`. -/
def msgPort : WriteCall → Option UInt16
  | .updateMsgPort port => some port
  | .updateKey _ _ | .updateServerIp _ | .updateHttpPort _ => none

/-- The port that is given to `updateHttpPort`. -/
def httpPort : WriteCall → Option UInt16
  | .updateHttpPort port => some port
  | .updateKey _ _ | .updateServerIp _ | .updateMsgPort _ => none

/-- The call does not write a port as a text of its own. -/
def PortsTyped : WriteCall → Prop
  | .updateKey key _ => key ≠ keyGatePort ∧ key ≠ keyHttpPort
  | .updateServerIp _ | .updateMsgPort _ | .updateHttpPort _ => True

end WriteCall

/-- The calls, in order. -/
def playWrites : List WriteCall → Program Process Unit
  | [] => pure ()
  | c :: cs => c.run >>= fun _ ↦ playWrites cs

/-- What `createTable` puts into the table. -/
def defaults : Store
  | k =>
    if k = keyServerIp then some kDefaultServerIp
    else if k = keyGatePort then some (toString16 kDefaultGateSrvPort)
    else if k = keyHttpPort then some (toString16 kDefaultHttpSrvPort)
    else none

/-- The value last written to the key, or its default. -/
def lastWritten (calls : List WriteCall) (k : Bytes) : Option Bytes :=
  (((calls.filter fun c ↦ c.entry.1 = k).getLast?).map fun c ↦ c.entry.2).or (defaults k)

/-- The port last given to one of the functions for ports. -/
def lastPort (port : WriteCall → Option UInt16) (default : UInt16) (calls : List WriteCall) :
    UInt16 :=
  ((calls.filterMap port).getLast?).getD default

/-! ## Creating -/

/-- The index goes onto a table that is empty. -/
theorem stands_createIndex : ∃ database, (Sql.createIndex).apply (some .new) = some database ∧
    Stands (fun _ ↦ none) database :=
  ⟨_, rfl, _, rfl, rfl, rfl⟩

/-- After the first default row, the second key is still missing. -/
theorem missing_gatePort (ip : Option Bytes) :
    Function.update (fun _ ↦ none) keyServerIp ip keyGatePort = none :=
  Function.update_of_ne keyServerIp_ne_keyGatePort.symm ..

/-- After the first two default rows, the third key is still missing. -/
theorem missing_httpPort (ip gatePort : Option Bytes) :
    Function.update (Function.update (fun _ ↦ none) keyServerIp ip) keyGatePort gatePort
      keyHttpPort = none := by
  rw [Function.update_of_ne keyGatePort_ne_keyHttpPort.symm]
  exact Function.update_of_ne keyServerIp_ne_keyHttpPort.symm ..

/-- The three default rows, in the order in which they are inserted. -/
theorem update_defaults :
    Function.update (Function.update (Function.update (fun _ ↦ none) keyServerIp
      (some kDefaultServerIp)) keyGatePort (some (toString16 kDefaultGateSrvPort))) keyHttpPort
      (some (toString16 kDefaultHttpSrvPort)) = defaults := by
  funext k
  rw [Function.update_apply, Function.update_apply, Function.update_apply, defaults]
  by_cases hip : k = keyServerIp
  · rw [if_pos hip, if_pos hip, if_neg (hip ▸ keyServerIp_ne_keyHttpPort),
      if_neg (hip ▸ keyServerIp_ne_keyGatePort)]
  · rw [if_neg hip, if_neg hip]
    by_cases hgate : k = keyGatePort
    · rw [if_pos hgate, if_pos hgate, if_neg (hgate ▸ keyGatePort_ne_keyHttpPort)]
    · rw [if_neg hgate, if_neg hgate]

/-- The default rows go into a table that is empty. -/
theorem insertDefaultData_serves {p : Process} (h : Serves (fun _ ↦ none) p) :
    ∃ p', insertDefaultData p = .ok () p' ∧ Serves defaults p' ∧ p'.out = p.out := by
  obtain ⟨p₁, hexec₁, h₁, hout₁⟩ := exec_serves h (h.2.insert rfl kDefaultServerIp)
  obtain ⟨p₂, hexec₂, h₂, hout₂⟩ := exec_serves h₁
    (h₁.2.insert (missing_gatePort _) (toString16 kDefaultGateSrvPort))
  obtain ⟨p₃, hexec₃, h₃, hout₃⟩ := exec_serves h₂
    (h₂.2.insert (missing_httpPort _ _) (toString16 kDefaultHttpSrvPort))
  rw [update_defaults] at h₃
  refine ⟨p₃, attempt_of_ok ?_, h₃, hout₃.trans (hout₂.trans hout₁)⟩
  rw [bind_of_ok (show Database.exec insertDataUserConfigIp p = _ from hexec₁)]
  rw [bind_of_ok (show Database.exec insertDataUserConfigMsgPort p₁ = _ from hexec₂)]
  exact hexec₃

/-- `createTable` on a database without the table. -/
theorem createTable_serves {p : Process} (hfaults : p.faults = []) (hnone : p.database = none) :
    ∃ p', createTable p = .ok true p' ∧ Serves defaults p' ∧ p'.out = p.out := by
  have hexists : Database.tableExists p = .ok false p := by
    rw [tableExists_ok (throws_quiet hfaults), next_quiet hfaults, hnone]
    rfl
  have htable : Database.exec .createTable p = .ok () { p with database := some .new } := by
    refine exec_quiet hfaults ?_
    rw [hnone]
    rfl
  obtain ⟨database, hindex, hstands⟩ := stands_createIndex
  have hcreateIndex : Database.exec .createIndex { p with database := some .new } =
      .ok () { p with database } :=
    exec_quiet (p := { p with database := some .new }) hfaults hindex
  have hcreated : createTableAndIndex p = .ok true { p with database } := by
    refine attempt_of_ok ?_
    rw [bind_of_ok htable, bind_of_ok hcreateIndex]
    rfl
  obtain ⟨p', hinsert, hserves, hout⟩ :=
    insertDefaultData_serves (p := { p with database }) ⟨hfaults, hstands⟩
  refine ⟨p', noexcept_of_ok ?_, hserves, hout⟩
  rw [bind_of_ok hexists]
  show (createTableAndIndex >>= _) p = _
  rw [bind_of_ok hcreated]
  show (insertDefaultData >>= _) _ = _
  rw [bind_of_ok hinsert]
  rfl

/-- A sequence of writes. -/
theorem playWrites_serves {m : Store} {p : Process} (h : Serves m p) (calls : List WriteCall) :
    ∃ p', playWrites calls p = .ok () p' ∧
      Serves (calls.foldl WriteCall.write m) p' ∧
      p'.out = p.out := by
  induction calls generalizing m p with
  | nil => exact ⟨p, rfl, h, rfl⟩
  | cons c cs ih =>
      have hrun : c.run = updateKey c.entry.1 c.entry.2 := by
        cases c with
        | updateKey _ _ | updateServerIp _ | updateMsgPort _ | updateHttpPort _ => rfl
      obtain ⟨p₁, hkey, h₁, hout₁⟩ := updateKey_serves h c.entry.1 c.entry.2
      obtain ⟨p₂, hrest, h₂, hout₂⟩ := ih h₁
      refine ⟨p₂, ?_, h₂, hout₂.trans hout₁⟩
      rw [playWrites, hrun, bind_of_ok hkey]
      exact hrest

/-! ## The scan -/

/-- The loop of `query` folds the rows into the object of the caller. -/
theorem queryLoop_quiet (rows : List Row) {p : Process} (h : p.faults = []) :
    queryLoop rows p = .ok () { p with out := assignAll rows p.out } := by
  have hends := queryLoop_ends rows p
  cases hrun : queryLoop rows p with
  | error e p' =>
      rw [Ends, hrun] at hends
      obtain ⟨k, hthrown⟩ := hends
      have hfirst := hthrown.firstThrow
      rw [Process.firstThrow, h] at hfirst
      cases hfirst
  | ok _ p' =>
      rw [Ends, hrun] at hends
      rw [hends.eq, h, List.drop_nil]

theorem assign_ip {key : Bytes} (h : key = keyServerIp) (out : ServerInfoConfig) (value : Bytes) :
    (assign out key value).ip = value := by
  rw [assign, if_pos h]

theorem assign_gatePort {key : Bytes} (h : key = keyGatePort) (out : ServerInfoConfig)
    (value : Bytes) : (assign out key value).gatePort = atoi16 value := by
  subst h
  rw [assign, if_neg keyServerIp_ne_keyGatePort.symm, if_pos rfl]

theorem assign_httpPort {key : Bytes} (h : key = keyHttpPort) (out : ServerInfoConfig)
    (value : Bytes) : (assign out key value).httpPort = atoi16 value := by
  subst h
  rw [assign, if_neg keyServerIp_ne_keyHttpPort.symm, if_neg keyGatePort_ne_keyHttpPort.symm,
    if_pos rfl]

/-- A row with another key leaves a member alone. -/
theorem assign_other (out : ServerInfoConfig) (key value : Bytes) :
    (key ≠ keyServerIp → (assign out key value).ip = out.ip) ∧
      (key ≠ keyGatePort → (assign out key value).gatePort = out.gatePort) ∧
      (key ≠ keyHttpPort → (assign out key value).httpPort = out.httpPort) := by
  rw [assign]
  split
  · exact ⟨fun hne ↦ absurd ‹_› hne, fun _ ↦ rfl, fun _ ↦ rfl⟩
  · split
    · exact ⟨fun _ ↦ rfl, fun hne ↦ absurd ‹_› hne, fun _ ↦ rfl⟩
    · split
      · exact ⟨fun _ ↦ rfl, fun _ ↦ rfl, fun hne ↦ absurd ‹_› hne⟩
      · exact ⟨fun _ ↦ rfl, fun _ ↦ rfl, fun _ ↦ rfl⟩

/-- `query` reads the three keys of the store, and keeps the members whose key is not there. -/
theorem query_eq {m : Store} {p : Process} (h : Serves m p) :
    query p = .ok true { p with out := {
      ip := (m keyServerIp).getD p.out.ip
      gatePort := ((m keyGatePort).map atoi16).getD p.out.gatePort
      httpPort := ((m keyHttpPort).map atoi16).getD p.out.httpPort } } := by
  obtain ⟨hfaults, t, ht, hunique, rfl⟩ := h
  have hnodup := t.nodup hunique
  let fold := t.rows.foldl (fun out row ↦ assign out row.key row.value) p.out
  have hip : fold.ip = (t.store keyServerIp).getD p.out.ip :=
    Keyed.view_foldl_rows ServerInfoConfig.ip Row.value
      (fun out row hkey ↦ assign_ip hkey out row.value)
      (fun out row hkey ↦ (assign_other out row.key row.value).1 hkey) hnodup p.out
  have hgatePort : fold.gatePort = ((t.store keyGatePort).map atoi16).getD p.out.gatePort := by
    rw [Table.store, Option.map_map]
    exact Keyed.view_foldl_rows ServerInfoConfig.gatePort (atoi16 ∘ Row.value)
      (fun out row hkey ↦ assign_gatePort hkey out row.value)
      (fun out row hkey ↦ (assign_other out row.key row.value).2.1 hkey) hnodup p.out
  have hhttpPort : fold.httpPort = ((t.store keyHttpPort).map atoi16).getD p.out.httpPort := by
    rw [Table.store, Option.map_map]
    exact Keyed.view_foldl_rows ServerInfoConfig.httpPort (atoi16 ∘ Row.value)
      (fun out row hkey ↦ assign_httpPort hkey out row.value)
      (fun out row hkey ↦ (assign_other out row.key row.value).2.2 hkey) hnodup p.out
  rw [← hip, ← hgatePort, ← hhttpPort]
  refine noexcept_of_ok (attempt_of_ok ?_)
  rw [bind_of_ok (prepare_quiet hfaults ht)]
  show (queryLoop t.rows >>= fun _ ↦ pure true) p = _
  rw [bind_of_ok (queryLoop_quiet t.rows hfaults)]
  rfl

/-! ## Ports -/

/-- A port is printed and read back. -/
theorem atoi16_toString16 (port : UInt16) : atoi16 (toString16 port) = port := by
  have hlt := port.toNat_lt
  have hatoi : (atoi (decimal port.toNat)).toInt = port.toNat := atoi_decimal (by omega)
  have hmod : ((port.toNat : Int) % 2 ^ 16).toNat = port.toNat := by omega
  rw [atoi16, toString16, hatoi, UInt16.ofInt, hmod, UInt16.ofNat_toNat]

/-- Where a key is only written through a function for ports, the value last written to it is the
port last given to that function. -/
theorem lastWritten_port {k : Bytes} {port : WriteCall → Option UInt16} {default : UInt16}
    (hdefault : defaults k = some (toString16 default)) {calls : List WriteCall}
    (hnone : ∀ c ∈ calls, port c = none → c.entry.1 ≠ k)
    (hsome : ∀ c x, port c = some x → c.entry = (k, toString16 x)) :
    lastWritten calls k = some (toString16 (lastPort port default calls)) := by
  have hfilter : (calls.filter fun c ↦ c.entry.1 = k).map (fun c ↦ c.entry.2) =
      (calls.filterMap port).map toString16 := by
    induction calls with
    | nil => rfl
    | cons c cs ih =>
        have hrest := ih fun c' hc' ↦ hnone c' (List.mem_cons_of_mem _ hc')
        cases hport : port c with
        | none =>
            have hkey : c.entry.1 ≠ k := hnone c List.mem_cons_self hport
            rw [List.filter_cons_of_neg (by simpa using hkey), List.filterMap_cons_none hport,
              hrest]
        | some x =>
            have hentry : c.entry = (k, toString16 x) := hsome c x hport
            rw [List.filter_cons_of_pos (by simp [hentry]), List.filterMap_cons_some hport,
              List.map_cons, List.map_cons, hrest, hentry]
  rw [lastWritten, ← List.getLast?_map, hfilter, List.getLast?_map, hdefault, lastPort]
  cases (calls.filterMap port).getLast? with
  | none => rfl
  | some x => rfl

theorem lastWritten_msgPort {calls : List WriteCall} (htyped : ∀ c ∈ calls, c.PortsTyped) :
    lastWritten calls keyGatePort =
      some (toString16 (lastPort WriteCall.msgPort kDefaultGateSrvPort calls)) := by
  refine lastWritten_port rfl (fun c hc hport ↦ ?_) fun c x hport ↦ ?_
  · cases c with
    | updateKey key _ => exact (htyped _ hc).1
    | updateServerIp _ => exact keyServerIp_ne_keyGatePort
    | updateMsgPort _ => cases hport
    | updateHttpPort _ => exact keyGatePort_ne_keyHttpPort.symm
  · cases c with
    | updateMsgPort _ =>
        cases hport
        rfl
    | updateKey _ _ | updateServerIp _ | updateHttpPort _ => cases hport

theorem lastWritten_httpPort {calls : List WriteCall} (htyped : ∀ c ∈ calls, c.PortsTyped) :
    lastWritten calls keyHttpPort =
      some (toString16 (lastPort WriteCall.httpPort kDefaultHttpSrvPort calls)) := by
  refine lastWritten_port rfl (fun c hc hport ↦ ?_) fun c x hport ↦ ?_
  · cases c with
    | updateKey key _ => exact (htyped _ hc).2
    | updateServerIp _ => exact keyServerIp_ne_keyHttpPort
    | updateMsgPort _ => exact keyGatePort_ne_keyHttpPort
    | updateHttpPort _ => cases hport
  · cases c with
    | updateHttpPort _ =>
        cases hport
        rfl
    | updateKey _ _ | updateServerIp _ | updateMsgPort _ => cases hport

/-- The address is always there, since it has a default. -/
theorem lastWritten_serverIp (calls : List WriteCall) :
    ∃ ip, lastWritten calls keyServerIp = some ip := by
  rw [lastWritten]
  cases (calls.filter fun c ↦ c.entry.1 = keyServerIp).getLast? with
  | none => exact ⟨_, rfl⟩
  | some c => exact ⟨_, rfl⟩

/-! ## The store over whole runs -/

/-- A program that has opened a new database and made the calls. -/
def Written (out : ServerInfoConfig) (calls : List WriteCall) (p : Process) : Prop :=
  (createTable >>= fun created ↦ playWrites calls >>= fun _ ↦ pure created) ⟨none, [], out⟩ =
    .ok true p

/-- A program that has made the calls stands for what they have written. -/
theorem written_serves (out : ServerInfoConfig) (calls : List WriteCall) :
    ∃ p, Written out calls p ∧ Serves (lastWritten calls) p ∧ p.out = out := by
  obtain ⟨p₁, hcreate, h₁, hout₁⟩ := createTable_serves (p := ⟨none, [], out⟩) rfl rfl
  obtain ⟨p₂, hplay, h₂, hout₂⟩ := playWrites_serves h₁ calls
  refine ⟨p₂, ?_, ?_, hout₂.trans hout₁⟩
  · rw [Written, bind_of_ok hcreate, bind_of_ok hplay]
    rfl
  · have hmap : lastWritten calls =
        calls.foldl WriteCall.write defaults :=
      funext fun k ↦ (Keyed.foldl_update_apply WriteCall.entry defaults calls k).symm
    rw [hmap]
    exact h₂

/-- The table is a map, whatever is written to it: there is one row a key, `queryKey` answers with
the value last written to the key or its default, whatever was written to other keys, and `query`
reads the address and, where ports are only written as ports, the two ports. -/
theorem store_is_map (out : ServerInfoConfig) (calls : List WriteCall) :
    ∃ p, Written out calls p ∧
      (∃ t, p.database = some t ∧ (t.rows.map Row.key).Nodup) ∧
      (∀ k outValue, queryKey k outValue p = .ok (answer (lastWritten calls k) outValue) p) ∧
      (∀ k calls' p',
        calls'.filter (fun c ↦ c.entry.1 = k) = calls.filter (fun c ↦ c.entry.1 = k) →
        Written out calls' p' →
        ∀ outValue, ∃ r, queryKey k outValue p = .ok r p ∧ queryKey k outValue p' = .ok r p') ∧
      ((∀ c ∈ calls, c.PortsTyped) →
        ∃ ip, lastWritten calls keyServerIp = some ip ∧
          query p = .ok true { p with out := {
            ip := ip
            gatePort := lastPort WriteCall.msgPort kDefaultGateSrvPort calls
            httpPort := lastPort WriteCall.httpPort kDefaultHttpSrvPort calls } }) := by
  obtain ⟨p, hwritten, hserves, hout⟩ := written_serves out calls
  refine ⟨p, hwritten, ?_, queryKey_eq hserves, ?_, ?_⟩
  · obtain ⟨-, t, ht, hunique, -⟩ := hserves
    exact ⟨t, ht, t.nodup hunique⟩
  · intro k calls' p' hfilter hwritten' outValue
    obtain ⟨p'', hwritten'', hserves', -⟩ := written_serves out calls'
    cases hwritten''.symm.trans hwritten'
    have hlast : lastWritten calls' k = lastWritten calls k := by
      rw [lastWritten, lastWritten, hfilter]
    refine ⟨_, queryKey_eq hserves k outValue, ?_⟩
    rw [← hlast]
    exact queryKey_eq hserves' k outValue
  · intro htyped
    obtain ⟨ip, hip⟩ := lastWritten_serverIp calls
    refine ⟨ip, hip, ?_⟩
    rw [query_eq hserves, hip, lastWritten_msgPort htyped, lastWritten_httpPort htyped]
    simp only [Option.map_some, Option.getD_some, atoi16_toString16]

theorem store_is_map_two :
    ∃ p p', Written {} [.updateMsgPort 9000, .updateKey keyServerIp []] p ∧
      query p = .ok true p' ∧ p'.out = ⟨[], 9000, 18080⟩ := by
  obtain ⟨p, hwritten, -, -, -, hquery⟩ :=
    store_is_map {} [.updateMsgPort 9000, .updateKey keyServerIp []]
  obtain ⟨ip, hip, hquery⟩ := hquery (by
    intro c hc
    cases hc with
    | head => trivial
    | tail _ hc =>
        cases hc with
        | head => exact ⟨keyServerIp_ne_keyGatePort, keyServerIp_ne_keyHttpPort⟩
        | tail _ hc => cases hc)
  cases hip
  exact ⟨p, _, hwritten, hquery, rfl⟩

end ConfigDao

end CoffeeChat
