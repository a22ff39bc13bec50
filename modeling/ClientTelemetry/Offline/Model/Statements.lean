import ClientTelemetry.Offline.Model.SQLite
/-!
# Prepared statements

`OfflineStorage_SQLite` once more, seen from its handle. `m_db` wraps a
handle that may be closed, and the storage keeps, for each of its
queries, the id of a statement that was prepared on some handle. What the
database holds is left to the engine, which answers every call with rows,
counts and failures of its own choosing (`Answers`); what a statement is
bound to is left out. The ids handed to the engine are kept in order as a
log (`uses`).
-/

namespace ClientTelemetry

open SQLite

/-- The statements the storage keeps an id of, in the order they are
prepared in. -/
inductive StmtName where
  | beginTransaction
  | commitTransaction
  | rollbackTransaction
  | getPageCount
  | getRecordCount
  | getRecordCountBylatency
  | perTenantTrimCount
  | trimEventsPercent
  | deleteEventsTenants
  | deleteEventsIds
  | releaseExpiredEvents
  | selectEvents
  | selectEventAtShutdown
  | selectEventsMinlatency
  | reserveEvents
  | releaseEventsIdsRetryCountDelta
  | selectEventsRetriedMaxRetryCount
  | deleteEventsRetriedMaxRetryCount
  | insertEvent
  | insertSetting
  | deleteSetting
  | selectSetting
  deriving DecidableEq, Repr

/-- All of them. -/
def StmtName.all : List StmtName :=
  [beginTransaction, commitTransaction, rollbackTransaction, getPageCount, getRecordCount,
    getRecordCountBylatency, perTenantTrimCount, trimEventsPercent, deleteEventsTenants,
    deleteEventsIds, releaseExpiredEvents, selectEvents, selectEventAtShutdown,
    selectEventsMinlatency, reserveEvents, releaseEventsIdsRetryCountDelta,
    selectEventsRetriedMaxRetryCount, deleteEventsRetriedMaxRetryCount, insertEvent, insertSetting,
    deleteSetting, selectSetting]

/-! ## The engine's answers -/

/-- The answers to one `ResizeDb`. A select that fails has no answer. -/
structure ResizeAnswers where
  pagesBefore : Option ℕ
  begins : Bool
  countBefore : Option ℕ
  trims : Bool
  countAfter : Option ℕ
  pagesAfter : Option ℕ

/-- The answers to one opening of the file and the preparations that
follow it. -/
structure OpenAnswers where
  /-- `sqlite3_initialize` succeeds, or is skipped by configuration. -/
  initializes : Bool
  /-- The previous file is deleted, or there is none. -/
  deletesPrevious : Bool
  /-- `sqlite3_open_v2`. -/
  opens : Bool
  /-- The function `tokenize` is registered. -/
  registers : Bool
  /-- `PRAGMA user_version`. -/
  userVersion : Option ℤ
  /-- The new version is written. -/
  setsVersion : Bool
  createsEvents : Bool
  createsIndex : Bool
  createsSettings : Bool
  /-- `PRAGMA page_size`. -/
  pageSize : Option ℕ
  /-- The statement `sqlite3_prepare_v2` delivers. -/
  prepares : StmtName → Option ℕ
  resize : ResizeAnswers

/-- **The answers to one call on the storage.** -/
structure Answers where
  /-- The first opening of an `Initialize`. -/
  opening : OpenAnswers
  /-- The opening of a `recreate`. -/
  reopening : OpenAnswers
  /-- `BEGIN EXCLUSIVE`. -/
  begins : Bool
  stores : Bool
  pages : Option ℕ
  resize : ResizeAnswers
  count : Option ℕ
  releasesExpired : Bool
  /-- The rows a select of events delivers. -/
  selects : Option (List StorageRecord)
  /-- Stepping on from the last of them fails. -/
  breaks : Bool
  /-- The block of that number is reserved. -/
  reserves : ℕ → Bool
  deletes : ℕ → Bool
  releases : ℕ → Bool
  /-- The tenants of the rows over the retry limit. -/
  retried : Option (List String)
  /-- The number of rows over the retry limit that are deleted. -/
  deletesRetried : Option ℕ
  storesSetting : Bool
  deletesSetting : Bool
  /-- The value of a setting, if it has one. -/
  setting : Option (Option String)

/-! ## The state -/

/-- `SqliteDB`: whether its handle is open, and `m_statements`, each with
what it was prepared for. -/
structure SqliteDB where
  handleOpen : Bool
  statements : List (StmtName × ℕ)
  deriving DecidableEq, Repr

namespace SqliteDB

/-- `SqliteDB::shutdown`. -/
def shutdown (db : SqliteDB) : SqliteDB :=
  if db.handleOpen then ⟨false, []⟩ else db

/-- `SqliteDB::initialize`. -/
def initializeDb (db : SqliteDB) (a : OpenAnswers) (deletePrevious : Bool) : Bool × SqliteDB :=
  if !a.initializes then (false, db)
  else if deletePrevious && !a.deletesPrevious then (false, db)
  else if !a.opens then (false, { db with handleOpen := false })
  else if !a.registers then (false, { db with handleOpen := true }.shutdown)
  else (true, { db with handleOpen := true })

end SqliteDB

/-- **The storage with its statement ids.** -/
structure PreparedStorage where
  /-- `m_db`. -/
  db : Option SqliteDB
  /-- The ids `m_stmt…`; the id 0 is no statement. -/
  ids : StmtName → Option ℕ
  /-- `m_isOpened`. -/
  isOpened : Bool
  /-- `m_pageSize`. -/
  pageSize : ℕ
  /-- `m_DbSizeLimit`. -/
  dbSizeLimit : ℕ
  /-- `m_DbSizeNotificationLimit`. -/
  dbSizeNotificationLimit : ℕ
  /-- `m_DbSizeNotificationInterval`. -/
  dbSizeNotificationInterval : ℕ
  /-- `CFG_BOOL_ENABLE_DB_DROP_IF_FULL`. -/
  dropIfFull : Bool
  /-- `m_DbSizeEstimate`. -/
  dbSizeEstimate : ℕ
  /-- `m_isStorageFullNotificationSendTime`. -/
  notificationSendTime : ℕ
  /-- `m_resizing`. -/
  resizing : Bool
  /-- `m_lastReadCount`. -/
  lastReadCount : ℕ
  /-- What the observer and the client are told. -/
  notices : List Notice
  /-- The statements handed to the engine. -/
  uses : List (StmtName × ℕ)

/-- The storage as it is constructed. -/
def PreparedStorage.fresh (dbSizeLimit dbSizeNotificationLimit dbSizeNotificationInterval : ℕ)
    (dropIfFull : Bool) : PreparedStorage where
  db := none
  ids _ := none
  isOpened := false
  pageSize := 0
  dbSizeLimit := dbSizeLimit
  dbSizeNotificationLimit := dbSizeNotificationLimit
  dbSizeNotificationInterval := dbSizeNotificationInterval
  dropIfFull := dropIfFull
  dbSizeEstimate := 0
  notificationSendTime := 0
  resizing := false
  lastReadCount := 0
  notices := []
  uses := []

namespace PreparedStorage

variable {α : Type} (s : PreparedStorage)

/-- One more notice. -/
def notify (n : Notice) : PreparedStorage :=
  { s with notices := s.notices ++ [n] }

/-- `OfflineStorage_SQLite::isOpen`. -/
def isOpen : Bool × PreparedStorage :=
  if s.db.isNone || !s.isOpened then (false, s.notify (.storageFailed "Database is not open"))
  else (true, s)

/-! ## Using a statement -/

/-- A `DbTransaction` on `m_db`. Without a handle nothing is executed. -/
def begins (answer : Bool) : Bool :=
  s.db.any SqliteDB.handleOpen && answer

/-- A `SqliteStatement` over a stored id: a statement is reset, bound and
stepped; the id 0 is not looked at. -/
def use (n : StmtName) : PreparedStorage :=
  match s.ids n with
  | some stmt => { s with uses := s.uses ++ [(n, stmt)] }
  | none => s

/-- `SqliteStatement::execute`. -/
def execute (n : StmtName) (answer : Bool) : Bool × PreparedStorage :=
  ((s.ids n).isSome && answer, s.use n)

/-- `SqliteStatement::select`, with the rows it can be asked for. -/
def select (n : StmtName) (answer : Option α) : Option α × PreparedStorage :=
  (if (s.ids n).isSome then answer else none, s.use n)

/-- A statement executed for the blocks of an id list, until it fails. -/
def executeBlocks (s : PreparedStorage) (n : StmtName) (answer : ℕ → Bool) :
    List (List StorageRecordId) → Bool × PreparedStorage
  | [] => (true, s)
  | _ :: rest =>
    let done := s.execute n (answer 0)
    if done.1 then done.2.executeBlocks n (fun i => answer (i + 1)) rest else (false, done.2)

/-! ## The size -/

/-- `OfflineStorage_SQLite::GetSize`. -/
def getSize (pages : Option ℕ) : ℕ × PreparedStorage :=
  if s.db.isNone then (0, s)
  else
    let pageCount := s.select .getPageCount pages
    (pageCount.1.getD 0 * s.pageSize, pageCount.2)

/-- `OfflineStorage_SQLite::GetRecordCountUnsafe`. -/
def getRecordCountUnsafe (latency : EventLatency) (count : Option ℕ) : ℕ × PreparedStorage :=
  let n := if latency = .unspecified then StmtName.getRecordCount else .getRecordCountBylatency
  let recordCount := s.select n count
  (recordCount.1.getD 0, recordCount.2)

/-- `OfflineStorage_SQLite::GetRecordCount`. -/
def getRecordCount (latency : EventLatency) (count : Option ℕ) : ℕ × PreparedStorage :=
  if s.db.isNone then (0, s) else s.getRecordCountUnsafe latency count

/-- The estimate read anew. -/
def estimateSize (pages : Option ℕ) : PreparedStorage :=
  { (s.getSize pages).2 with dbSizeEstimate := (s.getSize pages).1 }

/-- `OfflineStorage_SQLite::ResizeDb`. The number of dropped events is a
difference of two `size_t`. -/
def resizeDb (a : ResizeAnswers) : Bool × PreparedStorage :=
  if s.db.isNone then (false, s)
  else
    let s := s.estimateSize a.pagesBefore
    if s.dbSizeEstimate ≤ s.dbSizeLimit then (false, s)
    else if !s.begins a.begins then (false, s)
    else
      let count := s.getRecordCountUnsafe .unspecified a.countBefore
      -- the delete of the whole table is executed as a text, and not reported
      if 2 * s.dbSizeLimit < s.dbSizeEstimate then (true, count.2)
      else
        let trim := count.2.execute .trimEventsPercent a.trims
        let after := trim.2.getRecordCountUnsafe .unspecified a.countAfter
        let s := after.2.estimateSize a.pagesAfter
        (true, s.notify (.eventsDropped (((count.1 : ℤ) - after.1) % 2 ^ 64).toNat))

/-! ## Opening and closing -/

/-- `PREPARE_SQL`. The id is stored whatever it is: a failed preparation
has the id 0, and the test that would end the initialisation asks for an
unsigned number below 0. -/
def prepare (n : StmtName) (answer : Option ℕ) : PreparedStorage :=
  match answer with
  | some stmt => { s with
      ids := Function.update s.ids n (some stmt)
      db := s.db.map fun db => { db with statements := db.statements ++ [(n, stmt)] } }
  | none => { s with ids := Function.update s.ids n none }

/-- `CURRENT_SCHEMA_VERSION`. -/
def currentSchemaVersion : ℤ := 1

/-- The statements that `initializeDatabase` prepares and executes on the
spot all go through. -/
def setsUp (a : OpenAnswers) : Bool :=
  match a.userVersion with
  | none => false
  | some version =>
    (version = currentSchemaVersion || (version < currentSchemaVersion && a.setsVersion)) &&
      a.createsEvents && a.createsIndex && a.createsSettings && a.pageSize.isSome

/-- `OfflineStorage_SQLite::initializeDatabase`. -/
def initializeDatabase (a : OpenAnswers) : Bool × PreparedStorage :=
  if !setsUp a then (false, s)
  else
    let s := { s with pageSize := a.pageSize.getD 0 }
    let s := StmtName.all.foldl (fun s n => s.prepare n (a.prepares n)) s
    (true, (s.resizeDb a.resize).2)

/-- `OfflineStorage_SQLite::recreate`. -/
def recreate (a : OpenAnswers) (failureCode : ℕ) : Bool × PreparedStorage :=
  let s := s.notify (.storageFailed (toString failureCode))
  -- `m_db` stays, and so do the ids of the statements that were finalised
  let failed (s : PreparedStorage) : Bool × PreparedStorage :=
    (false, { s with isOpened := false }.notify (.storageOpened "SQLite/None"))
  match s.db with
  | none => failed s
  | some db =>
    match db.shutdown.initializeDb a true with
    | (false, db) => failed { s with db := some db }
    | (true, db) =>
      match { s with db := some db }.initializeDatabase a with
      | (true, s) => (true, { s.notify (.storageOpened "SQLite/Clean") with isOpened := true })
      | (false, s) => failed { s with db := s.db.map SqliteDB.shutdown }

/-- `OfflineStorage_SQLite::Initialize`. -/
def initializeStorage (a : Answers) : PreparedStorage :=
  let recreated (s : PreparedStorage) : PreparedStorage :=
    match s.recreate a.reopening 1 with
    | (true, s) => s
    | (false, s) => { s with db := none, isOpened := false }
  -- a database that is still there is replaced: the check is an `assert`
  match (⟨false, []⟩ : SqliteDB).initializeDb a.opening false with
  | (false, db) => recreated { s with db := some db }
  | (true, db) =>
    match { s with db := some db }.initializeDatabase a.opening with
    | (true, s) => { s.notify (.storageOpened "SQLite/Default") with isOpened := true }
    | (false, s) => recreated s

/-- `OfflineStorage_SQLite::Shutdown`. -/
def shutdown : PreparedStorage :=
  if s.db.isSome then
    -- what a failed recreate left behind is not let go of
    if s.isOpened then { s with db := none, isOpened := false } else { s with isOpened := false }
  else s

/-! ## Events -/

/-- The notification that the database is getting full. -/
def notifyFull (now : ℕ) (pages : Option ℕ) : PreparedStorage :=
  if s.dbSizeNotificationLimit ≠ 0 ∧ s.dbSizeNotificationLimit < s.dbSizeEstimate ∧
      s.dbSizeNotificationInterval < now - s.notificationSendTime then
    let s := { s with notificationSendTime := now }.estimateSize pages
    s.notify (.storageFull (100 * s.dbSizeEstimate / s.dbSizeLimit))
  else s

/-- The trim that follows a store over the limit. -/
def trimFull (a : ResizeAnswers) : PreparedStorage :=
  if s.dbSizeLimit ≠ 0 ∧ s.dbSizeLimit < s.dbSizeEstimate ∧ s.dropIfFull ∧ ¬ s.resizing then
    { ({ s with resizing := true }.resizeDb a).2 with resizing := false }
  else s

/-- `OfflineStorage_SQLite::StoreRecord`. -/
def storeRecord (r : StorageRecord) (now : ℕ) (a : Answers) : Bool × PreparedStorage :=
  if InvalidParameters r then (false, s.notify (.storageFailed "Invalid parameters"))
  else if s.db.isNone then (false, s.notify (.storageOpenFailed "Database is not open"))
  else if !s.begins a.begins then (false, s.notify (.storageFailed "Database error"))
  else
    let s := (s.execute .insertEvent a.stores).2
    let s := { s with dbSizeEstimate := s.dbSizeEstimate + recordSize r }
    (true, (s.notifyFull now a.pages).trimFull a.resize)

/-- `OfflineStorage_SQLite::StoreRecords`, with the answers to each
store. -/
def storeRecords (s : PreparedStorage) (now : ℕ) (answers : ℕ → Answers) :
    List StorageRecord → ℕ × PreparedStorage
  | [] => (0, s)
  | r :: rs =>
    let stored := s.storeRecord r now (answers 0)
    let rest := stored.2.storeRecords now (fun i => answers (i + 1)) rs
    (if stored.1 then rest.1 + 1 else rest.1, rest.2)

/-- `OfflineStorage_SQLite::GetAndReserveRecords`. -/
def getAndReserveRecords (c : Consumer StorageRecord) (a : Answers) : Bool × PreparedStorage :=
  let s := { s with lastReadCount := 0 }
  if s.db.isNone then (false, s)
  else if !s.begins a.begins then (false, s)
  else
    let s := (s.execute .releaseExpiredEvents a.releasesExpired).2
    match s.select .selectEvents a.selects with
    | (none, s) => (false, (s.recreate a.reopening 204).2)
    | (some rows, s) =>
      -- the walk meets the failure only if the consumer takes every row
      let consumed := (offer c.accept c.start rows).1
      if a.breaks ∧ rows ≠ [] ∧ consumed = rows then (false, (s.recreate a.reopening 205).2)
      else if consumed = [] then (false, s)
      else
        match s.executeBlocks .reserveEvents a.reserves (idBlocks (consumed.map (·.id))) with
        | (false, s) => (false, (s.recreate a.reopening 207).2)
        | (true, s) => (true, { s with lastReadCount := consumed.length % 2 ^ 32 })

/-- `OfflineStorage_SQLite::GetRecords`. -/
def getRecords (shutdown : Bool) (a : Answers) : List StorageRecord × PreparedStorage :=
  match s.isOpen with
  | (false, s) => ([], s)
  | (true, s) =>
    let n := if shutdown then StmtName.selectEventAtShutdown else .selectEventsMinlatency
    let rows := s.select n a.selects
    (rows.1.getD [], rows.2)

/-- `OfflineStorage_SQLite::DeleteRecords` by a filter. The delete is
executed as a text. -/
def deleteRecordsWhere : PreparedStorage := s.isOpen.2

/-- `OfflineStorage_SQLite::DeleteRecords` by ids. -/
def deleteRecords (ids : List StorageRecordId) (a : Answers) : PreparedStorage :=
  if ids = [] then s
  else if s.db.isNone then s
  else if !s.begins a.begins then s
  else
    match s.executeBlocks .deleteEventsIds a.deletes (idBlocks ids) with
    | (false, s) => (s.recreate a.reopening 302).2
    | (true, s) => s

/-- The number of rows of each tenant. -/
def deletedData (tenantTokens : List String) : OrdMap String ℕ :=
  tenantTokens.foldl (fun m tenantToken =>
    m.insert tenantToken ((m.find? tenantToken).getD 0 + 1)) OrdMap.empty

/-- `OfflineStorage_SQLite::ReleaseRecords`. -/
def releaseRecords (ids : List StorageRecordId) (incrementRetryCount : Bool)
    (a : Answers) : PreparedStorage :=
  if ids = [] then s
  else if s.db.isNone then s
  else if !s.begins a.begins then s
  else
    match s.executeBlocks .releaseEventsIdsRetryCountDelta a.releases (idBlocks ids) with
    | (false, s) => (s.recreate a.reopening 403).2
    | (true, s) =>
      if !incrementRetryCount then s
      else
        match s.select .selectEventsRetriedMaxRetryCount a.retried with
        | (none, s) => (s.recreate a.reopening 404).2
        | (some tenantTokens, s) =>
          match s.select .deleteEventsRetriedMaxRetryCount a.deletesRetried with
          | (none, s) => (s.recreate a.reopening 404).2
          | (some droppedCount, s) =>
            if 0 < droppedCount then s.notify (.recordsDropped (deletedData tenantTokens)) else s

/-! ## Settings -/

/-- `OfflineStorage_SQLite::StoreSetting`. -/
def storeSetting (name value : String) (a : Answers) : Bool × PreparedStorage :=
  if name = "" then (false, s)
  else if s.db.isNone then (false, s)
  else if value ≠ "" then
    match s.execute .insertSetting a.storesSetting with
    | (false, s) => (false, (s.recreate a.reopening 502).2)
    | (true, s) => (true, s)
  else
    match s.execute .deleteSetting a.deletesSetting with
    | (false, s) => (false, (s.recreate a.reopening 503).2)
    | (true, s) => (true, s)

/-- `OfflineStorage_SQLite::GetSetting`. -/
def getSetting (name : String) (a : Answers) : String × PreparedStorage :=
  if name = "" then ("", s)
  else
    match s.isOpen with
    | (false, s) => ("", s)
    | (true, s) =>
      if !s.begins a.begins then ("", s)
      else
        let value := s.select .selectSetting a.setting
        ((value.1.getD none).getD "", value.2)

/-- `OfflineStorage_SQLite::DeleteSetting`. A delete that fails does not
recreate the database. -/
def deleteSetting (name : String) (a : Answers) : Bool × PreparedStorage :=
  if name = "" then (false, s)
  else
    match s.isOpen with
    | (false, s) => (false, s)
    | (true, s) =>
      if !s.begins a.begins then (false, s) else s.execute .deleteSetting a.deletesSetting

end PreparedStorage

/-! ## Calls -/

/-- The calls on the storage. -/
inductive PreparedOp where
  | initializeStorage
  | shutdown
  | execute
  | storeRecord (record : StorageRecord)
  | storeRecords (records : List StorageRecord)
  | getAndReserveRecords (consumer : Consumer StorageRecord)
  | getRecords (shutdown : Bool)
  | deleteRecordsWhere
  | deleteAllRecords
  | deleteRecords (ids : List StorageRecordId)
  | releaseRecords (ids : List StorageRecordId) (incrementRetryCount : Bool)
  | storeSetting (name value : String)
  | getSetting (name : String)
  | deleteSetting (name : String)
  | getSize
  | getRecordCount (latency : EventLatency)
  | resizeDb

/-- A call at a time, with the answers it meets. Only `StoreRecords` has
answers after the first. -/
structure PreparedCall where
  op : PreparedOp
  now : ℕ
  answers : ℕ → Answers

/-- What a call returns. -/
inductive PreparedResult where
  | done
  | flag (value : Bool)
  | count (value : ℕ)
  | text (value : String)
  | records (value : List StorageRecord)
  deriving DecidableEq

/-- The default or error value. -/
def PreparedResult.IsDefault : PreparedResult → Prop
  | done => True
  | flag value => value = false
  | count value => value = 0
  | text value => value = ""
  | records value => value = []

namespace PreparedStorage

/-- What a call returns, and the storage after it. `Execute` and the
calls built on it alone do not touch a stored statement. -/
def call (s : PreparedStorage) (c : PreparedCall) : PreparedResult × PreparedStorage :=
  match c.op with
  | .initializeStorage => (.done, s.initializeStorage (c.answers 0))
  | .shutdown => (.done, s.shutdown)
  | .execute => (.done, s)
  | .storeRecord record => (s.storeRecord record c.now (c.answers 0)).map .flag id
  | .storeRecords records => (s.storeRecords c.now c.answers records).map .count id
  | .getAndReserveRecords consumer =>
    (s.getAndReserveRecords consumer (c.answers 0)).map .flag id
  | .getRecords shutdown => (s.getRecords shutdown (c.answers 0)).map .records id
  | .deleteRecordsWhere => (.done, s.deleteRecordsWhere)
  | .deleteAllRecords => (.done, s)
  | .deleteRecords ids => (.done, s.deleteRecords ids (c.answers 0))
  | .releaseRecords ids inc => (.done, s.releaseRecords ids inc (c.answers 0))
  | .storeSetting name value => (s.storeSetting name value (c.answers 0)).map .flag id
  | .getSetting name => (s.getSetting name (c.answers 0)).map .text id
  | .deleteSetting name => (s.deleteSetting name (c.answers 0)).map .flag id
  | .getSize => (s.getSize (c.answers 0).pages).map .count id
  | .getRecordCount latency => (s.getRecordCount latency (c.answers 0).count).map .count id
  | .resizeDb => (s.resizeDb (c.answers 0).resize).map .flag id

/-- The storage after a call. -/
def step (s : PreparedStorage) (c : PreparedCall) : PreparedStorage := (s.call c).2

end PreparedStorage

end ClientTelemetry
