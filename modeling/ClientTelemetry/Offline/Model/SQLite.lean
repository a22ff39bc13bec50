import ClientTelemetry.Common.Blocks
import ClientTelemetry.Common.Consume
import ClientTelemetry.Offline.Model.Sql
/-!
# The on-disk store

`OfflineStorage_SQLite` over an engine that may fail: the engine answers
for each transaction and each statement whether it went through
(`Engine`), and a statement that went through does what
`Offline/Model/Sql.lean` says. A transaction that began is committed at
its end. The observer calls and debug events are kept in order as a log
(`Notice`).
-/

namespace ClientTelemetry

namespace SQLite

open Sql

/-- The transactions, by the operation that opens them. -/
inductive Txn where
  | store (record : StorageRecord)
  | trim
  | retrieve
  | deleteIds
  | deleteWhere
  | release
  deriving DecidableEq

/-- The statements whose outcome the code looks at or depends on. -/
inductive Stmt where
  | insertEvent (record : StorageRecord)
  | pageCount
  | trimEvents
  | deleteAll
  | deletePersistence
  | releaseExpired
  | selectEvents
  | reserveEvents (ids : List StorageRecordId)
  | deleteEvents (ids : List StorageRecordId)
  | deleteWhere (sql : String)
  | releaseEvents (ids : List StorageRecordId)
  | selectRetried
  | deleteRetried
  deriving DecidableEq

/-- **The engine's answers.** What they depend on besides the call is the
moment, so an operation is given the engine it meets. -/
structure Engine where
  /-- `BEGIN EXCLUSIVE` succeeds. -/
  begins : Txn → Bool
  /-- The statement steps to its end. -/
  executes : Stmt → Bool
  /-- The number of rows, less one, after which stepping a select fails. -/
  breaksAfter : Option ℕ
  /-- `PRAGMA page_count` over a table. -/
  pageCount : List EventRow → ℕ
  /-- The rows that the text of a delete removes where the text is not
  the comparison it was meant to be. -/
  foreign : String → EventRow → Bool
  /-- The file opens and its schema is set up. -/
  opens : Bool
  /-- The file is deleted. -/
  deletesFile : Bool
  /-- The file opens anew and its schema is set up. -/
  reopens : Bool

/-- **An engine that executes what it is given.** -/
structure Engine.Faithful (e : Engine) : Prop where
  begins : ∀ t, e.begins t = true
  executes : ∀ t, e.executes t = true
  breaksAfter : e.breaksAfter = none

/-- A faithful engine, with a page for each row. -/
def Engine.sound : Engine where
  begins _ := true
  executes _ := true
  breaksAfter := none
  pageCount := List.length
  foreign _ _ := false
  opens := true
  deletesFile := true
  reopens := true

theorem Engine.sound_faithful : Engine.sound.Faithful := ⟨fun _ => rfl, fun _ => rfl, rfl⟩

/-- What the observer and the client are told. -/
inductive Notice where
  | storageOpened (type : String)
  | storageFailed (reason : String)
  | storageOpenFailed (reason : String)
  | recordsDropped (numRecords : OrdMap String ℕ)
  | storageFull (percent : ℕ)
  | eventsDropped (count : ℕ)
  deriving DecidableEq

end SQLite

open Sql SQLite

/-- **The state of the on-disk store.** -/
structure SQLite where
  /-- The table `events` in the file. -/
  rows : List EventRow
  /-- `m_db` is set. -/
  hasDb : Bool
  /-- The handle inside `m_db` is open. -/
  handleOpen : Bool
  /-- `m_isOpened`. -/
  isOpened : Bool
  /-- `m_DbSizeLimit`. -/
  dbSizeLimit : ℕ
  /-- `m_DbSizeNotificationLimit`. -/
  dbSizeNotificationLimit : ℕ
  /-- `m_DbSizeNotificationInterval`. -/
  dbSizeNotificationInterval : ℕ
  /-- `CFG_BOOL_ENABLE_DB_DROP_IF_FULL`. -/
  dropIfFull : Bool
  /-- `GetMaximumRetryCount()`. -/
  maxRetryCount : ℕ
  /-- `m_pageSize`. -/
  pageSize : ℕ
  /-- `m_DbSizeEstimate`. -/
  dbSizeEstimate : ℕ
  /-- `m_isStorageFullNotificationSendTime`. -/
  notificationSendTime : ℕ
  /-- `m_resizing`. -/
  resizing : Bool
  /-- `m_lastReadCount`. -/
  lastReadCount : ℕ
  engine : Engine
  notices : List Notice

namespace SQLite

variable {κ : Type} (s : SQLite)

/-- The database is open. -/
def Opened : Prop := s.hasDb = true ∧ s.handleOpen = true ∧ s.isOpened = true

instance (s : SQLite) : Decidable s.Opened := inferInstanceAs (Decidable (_ ∧ _))

/-- An open database over the given rows, without a size limit. -/
def openOn (engine : Engine) (rows : List EventRow) : SQLite where
  rows := rows
  hasDb := true
  handleOpen := true
  isOpened := true
  dbSizeLimit := 0
  dbSizeNotificationLimit := 0
  dbSizeNotificationInterval := 0
  dropIfFull := false
  maxRetryCount := 5
  pageSize := 4096
  dbSizeEstimate := 0
  notificationSendTime := 0
  resizing := false
  lastReadCount := 0
  engine := engine
  notices := []

/-- One more notice. -/
def notify (n : Notice) : SQLite := { s with notices := s.notices ++ [n] }

/-- A transaction begins: `m_db` has an open handle and the engine locks
the file. -/
def begins (s : SQLite) (t : Txn) : Bool := s.handleOpen && s.engine.begins t

/-- A statement goes through. -/
def executes (s : SQLite) (t : Stmt) : Bool := s.handleOpen && s.engine.executes t

/-- `OfflineStorage_SQLite::isOpen`. -/
def isOpen : Bool × SQLite :=
  if !s.hasDb || !s.isOpened then (false, s.notify (.storageFailed "Database is not open"))
  else (true, s)

/-- `OfflineStorage_SQLite::GetSize`. -/
def getSize : ℕ :=
  if !s.hasDb then 0
  else if !s.executes .pageCount then 0
  else s.engine.pageCount s.rows * s.pageSize

/-- `OfflineStorage_SQLite::ResizeDb`. -/
def resizeDb : Bool × SQLite :=
  if !s.hasDb then (false, s)
  else
    let s := { s with dbSizeEstimate := s.getSize }
    if s.dbSizeEstimate ≤ s.dbSizeLimit then (false, s)
    else if !s.begins .trim then (false, s)
    else if 2 * s.dbSizeLimit < s.dbSizeEstimate then
      (true, { s with rows := if s.executes .deleteAll then [] else s.rows })
    else
      let count := s.rows.length
      let rows :=
        if s.executes .trimEvents then trimEvents 25 s.rows
        else if s.executes .deletePersistence then s.rows.filter fun row => row.persistence ≠ 1
        else s.rows
      let s := { s with rows := rows }
      let s := { s with dbSizeEstimate := s.getSize }
      (true, s.notify (.eventsDropped (count - s.rows.length)))

/-- The storing of the schema ends with a resize, whatever the
configuration says of dropping. -/
def initializeDatabase : SQLite := s.resizeDb.2

/-- `OfflineStorage_SQLite::recreate`: the file is deleted and opened
again. Closing the handle rolls back an open transaction, so a caller in
one passes the rows it began with. -/
def recreate (failureCode : ℕ) : Bool × SQLite :=
  let s := s.notify (.storageFailed (toString failureCode))
  if s.hasDb && s.engine.deletesFile && s.engine.reopens then
    let s := { s with rows := [], handleOpen := true }.initializeDatabase
    (true, { s.notify (.storageOpened "SQLite/Clean") with isOpened := true })
  else
    let rows := if s.hasDb && s.engine.deletesFile then [] else s.rows
    let s := { s with rows := rows, handleOpen := s.handleOpen && !s.hasDb, isOpened := false }
    (false, s.notify (.storageOpened "SQLite/None"))

/-- `OfflineStorage_SQLite::Initialize`. -/
def initializeStorage : SQLite :=
  let s := { s with hasDb := true }
  if s.engine.opens then
    let s := { s with handleOpen := true }.initializeDatabase
    { s.notify (.storageOpened "SQLite/Default") with isOpened := true }
  else
    match s.recreate 1 with
    | (true, s) => s
    | (false, s) => { s with hasDb := false, isOpened := false }

/-- `OfflineStorage_SQLite::Shutdown`. -/
def shutdown : SQLite :=
  if s.hasDb then
    if s.isOpened then { s with hasDb := false, handleOpen := false, isOpened := false }
    else { s with isOpened := false }
  else s

/-! ## Storing -/

/-- The parameters `StoreRecord` refuses. -/
def InvalidParameters (r : StorageRecord) : Prop :=
  r.id = "" ∨ r.tenantToken = "" ∨ r.latency.toInt < 0 ∨ r.timestamp ≤ 0

instance (r : StorageRecord) : Decidable (InvalidParameters r) := inferInstanceAs (Decidable (_ ∨ _))

/-- What a record adds to the size estimate. -/
def recordSize (r : StorageRecord) : ℕ :=
  r.id.utf8ByteSize + r.tenantToken.utf8ByteSize + r.blob.length

/-- The insert. Its outcome is not looked at: the estimate grows by a
record that was not written too. The table has no unique key, so that a
`REPLACE` only adds. -/
def insertEvent (s : SQLite) (r : StorageRecord) : SQLite :=
  { s with
    rows := if s.executes (.insertEvent r) then s.rows ++ [EventRow.ofRecord r] else s.rows
    dbSizeEstimate := s.dbSizeEstimate + recordSize r }

/-- The notification that the database is getting full, once in an
interval. -/
def notifyFull (now : ℕ) : SQLite :=
  if s.dbSizeNotificationLimit ≠ 0 ∧ s.dbSizeNotificationLimit < s.dbSizeEstimate ∧
      s.dbSizeNotificationInterval < now - s.notificationSendTime then
    let s := { s with notificationSendTime := now, dbSizeEstimate := s.getSize }
    s.notify (.storageFull (100 * s.dbSizeEstimate / s.dbSizeLimit))
  else s

/-- The trim that follows a store over the limit. -/
def trimFull : SQLite :=
  if s.dbSizeLimit ≠ 0 ∧ s.dbSizeLimit < s.dbSizeEstimate ∧ s.dropIfFull ∧ ¬ s.resizing then
    { ({ s with resizing := true }.resizeDb).2 with resizing := false }
  else s

/-- `OfflineStorage_SQLite::StoreRecord`. -/
def storeRecord (r : StorageRecord) (now : ℕ) : Bool × SQLite :=
  if InvalidParameters r then (false, s.notify (.storageFailed "Invalid parameters"))
  else if !s.hasDb then (false, s.notify (.storageOpenFailed "Database is not open"))
  else if !s.begins (.store r) then (false, s.notify (.storageFailed "Database error"))
  else (true, ((s.insertEvent r).notifyFull now).trimFull)

/-- `OfflineStorage_SQLite::StoreRecords`. -/
def storeRecords (rs : List StorageRecord) (now : ℕ) : ℕ × SQLite :=
  rs.foldl (fun acc r =>
    let (stored, s') := acc.2.storeRecord r now
    (if stored then acc.1 + 1 else acc.1, s')) (0, s)

/-! ## Reading -/

/-- The `LIMIT` a count stands for: `-1` bound as an `unsigned`. -/
def limit (maxCount : ℕ) : ℕ := if maxCount = 0 then uintMax else maxCount

/-- `kBlockSize`. -/
def kBlockSize : ℕ := 8192

/-- The blocks an id list is handed to the engine in. -/
def idBlocks (ids : List StorageRecordId) : List (List StorageRecordId) :=
  blocksOf kBlockSize ids.length ids

/-- A statement run over the blocks of an id list, until one fails. The
first component says whether all went through. -/
def overBlocks (s : SQLite) (stmt : List StorageRecordId → Stmt)
    (effect : List (Option String) → List EventRow → List EventRow) :
    List (List StorageRecordId) → List EventRow → Bool × List EventRow
  | [], rows => (true, rows)
  | block :: rest, rows =>
    if s.executes (stmt block) then
      s.overBlocks stmt effect rest (effect (idsTable (packageIdList block)) rows)
    else (false, rows)

/-- The rows that stepping the select delivers before it breaks. -/
def delivered (selected : List EventRow) : List EventRow :=
  match s.engine.breaksAfter with
  | none => selected
  | some n => selected.take (n + 1)

/-- The body of `GetAndReserveRecords`, with the consumer and its
state. -/
def retrieve (s : SQLite) (c : κ → StorageRecord → Bool × κ) (k : κ)
    (leaseTimeMs : ℕ) (minLatency : EventLatency) (maxCount now : ℕ) : Bool × κ × SQLite :=
  if !s.hasDb then (false, k, s)
  else if !s.begins .retrieve then (false, k, s)
  else
    let rows := if s.executes .releaseExpired then releaseExpired now s.rows else s.rows
    if !s.executes .selectEvents then (false, k, (s.recreate 204).2)
    else
      let selected := selectEvents minLatency.toInt (limit maxCount) rows
      let (consumed, k) := offer (fun k row => c k row.toRecord) k (s.delivered selected)
      -- the select broke if the loop ran to the end of what it delivers
      if s.engine.breaksAfter.isSome ∧ selected ≠ [] ∧ consumed = s.delivered selected then
        (false, k, (s.recreate 205).2)
      else if consumed = [] then (false, k, { s with rows := rows })
      else
        let ids := consumed.map EventRow.recordId
        match s.overBlocks .reserveEvents (fun ids => reserveEvents ids (now + leaseTimeMs))
            (idBlocks ids) rows with
        | (false, _) => (false, k, (s.recreate 207).2)
        | (true, rows) => (true, k, { s with rows := rows, lastReadCount := ids.length % 2 ^ 32 })

/-- `OfflineStorage_SQLite::GetAndReserveRecords`. -/
def getAndReserveRecords (c : κ → StorageRecord → Bool × κ) (k : κ)
    (leaseTimeMs : ℕ) (minLatency : EventLatency) (maxCount now : ℕ) : Bool × κ × SQLite :=
  { s with lastReadCount := 0 }.retrieve c k leaseTimeMs minLatency maxCount now

/-! ## Deleting and releasing -/

/-- `OfflineStorage_SQLite::DeleteAllRecords`. -/
def deleteAllRecords : SQLite :=
  if s.hasDb && s.executes .deleteAll then { s with rows := [] } else s

/-- The text of a filtered delete. -/
def deleteSql (whereFilter : OrdMap String String) : String :=
  "DELETE FROM events WHERE " ++ whereClause whereFilter

/-- The rows a filtered delete removes. A clause with no condition is no
statement. -/
def deletes (whereFilter : OrdMap String String) (row : EventRow) : Bool :=
  match readFilter whereFilter.entries with
  | some p => whereFilter.entries ≠ [] && p row
  | none => s.engine.foreign (deleteSql whereFilter) row

/-- `OfflineStorage_SQLite::DeleteRecords` by a filter. -/
def deleteRecordsWhere (whereFilter : OrdMap String String) : SQLite :=
  match s.isOpen with
  | (false, s) => s
  | (true, s) =>
    if !s.begins .deleteWhere then s
    else if !s.executes (.deleteWhere (deleteSql whereFilter)) then s
    else { s with rows := s.rows.filter fun row => !s.deletes whereFilter row }

/-- `OfflineStorage_SQLite::DeleteRecords` by ids. -/
def deleteRecords (ids : List StorageRecordId) : SQLite :=
  if ids = [] then s
  else if !s.hasDb then s
  else if !s.begins .deleteIds then s
  else
    match s.overBlocks .deleteEvents deleteEventsIds (idBlocks ids) s.rows with
    | (true, rows) => { s with rows := rows }
    | (false, _) => (s.recreate 302).2

/-- The number of rows of each tenant. -/
def perTenant (rows : List EventRow) : OrdMap String ℕ :=
  rows.foldl (fun m row => m.insert row.tenantToken ((m.find? row.tenantToken).getD 0 + 1))
    OrdMap.empty

/-- `OfflineStorage_SQLite::ReleaseRecords`. A release that counts a
retry also drops the rows over the retry limit. -/
def releaseRecords (ids : List StorageRecordId) (incrementRetryCount : Bool) : SQLite :=
  if ids = [] then s
  else if !s.hasDb then s
  else if !s.begins .release then s
  else
    let delta := if incrementRetryCount then 1 else 0
    match s.overBlocks .releaseEvents (fun ids => releaseEvents ids delta) (idBlocks ids) s.rows with
    | (false, _) => (s.recreate 403).2
    | (true, rows) =>
      if !incrementRetryCount then { s with rows := rows }
      else if !s.executes .selectRetried then (s.recreate 404).2
      else if !s.executes .deleteRetried then (s.recreate 404).2
      else
        let dropped := retried s.maxRetryCount rows
        let s := { s with rows := rows.filter fun row => row.retryCount ≤ s.maxRetryCount }
        if dropped ≠ [] then s.notify (.recordsDropped (perTenant dropped)) else s

/-- `OfflineStorage_SQLite::GetRecordCount`. -/
def getRecordCount (latency : EventLatency := .unspecified) : ℕ :=
  if !s.hasDb then 0
  else if latency = .unspecified then s.rows.length
  else (s.rows.filter fun row => row.latency = latency.toInt).length

end SQLite

end ClientTelemetry
