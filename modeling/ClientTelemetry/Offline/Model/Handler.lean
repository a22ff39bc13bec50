import ClientTelemetry.Offline.Model.KillSwitch
import ClientTelemetry.Offline.Model.MemoryStorage
import ClientTelemetry.Offline.Model.SQLite
/-!
# The storage handler

`OfflineStorageHandler` puts the RAM queue in front of a persistent
store and reads the response headers for both. The persistent store is
whatever the factory made: `DiskStorage` is the interface the handler
calls it through, and `sqliteStorage` the store of
`Offline/Model/SQLite.lean` behind it. One call runs at a time. Clocks
are read in milliseconds; a flush that was scheduled runs when
`runScheduledFlush` is called, or while a shutdown waits for it.
-/

namespace ClientTelemetry

/-- **The persistent store as the handler sees it** (`IOfflineStorage`). -/
structure DiskStorage (δ : Type) where
  /-- `OfflineStorageFactory::Create`, given the store of an earlier
  initialisation. A build without storage makes none. -/
  create : Option δ → Option δ
  initializeStorage : δ → δ
  shutdown : δ → δ
  storeRecord : δ → StorageRecord → ℕ → Bool × δ
  storeRecords : δ → List StorageRecord → ℕ → ℕ × δ
  getAndReserveRecords : {κ : Type} → δ → (κ → StorageRecord → Bool × κ) → κ → ℕ → EventLatency →
    ℕ → ℕ → Bool × κ × δ
  lastReadRecordCount : δ → ℕ
  deleteAllRecords : δ → δ
  deleteRecords : δ → List StorageRecordId → δ
  deleteRecordsWhere : δ → OrdMap String String → δ
  releaseRecords : δ → List StorageRecordId → Bool → δ
  getSize : δ → ℕ
  getRecordCount : δ → EventLatency → ℕ

/-- The on-disk database behind the interface. A new object starts over a
file with nothing open. -/
def sqliteStorage (fresh : SQLite) : DiskStorage SQLite where
  create
    | none => some fresh
    | some s => some { fresh with rows := s.rows, engine := s.engine, notices := s.notices }
  initializeStorage := SQLite.initializeStorage
  shutdown := SQLite.shutdown
  storeRecord := SQLite.storeRecord
  storeRecords := SQLite.storeRecords
  getAndReserveRecords := SQLite.getAndReserveRecords
  lastReadRecordCount s := s.lastReadCount
  deleteAllRecords := SQLite.deleteAllRecords
  deleteRecords := SQLite.deleteRecords
  deleteRecordsWhere := SQLite.deleteRecordsWhere
  releaseRecords := SQLite.releaseRecords
  getSize := SQLite.getSize
  getRecordCount s latency := s.getRecordCount latency

/-- **The state of the handler.** -/
structure Handler (δ : Type) where
  /-- `CFG_INT_RAM_QUEUE_SIZE`. -/
  ramQueueSize : ℕ
  /-- `IsClockSkewEnabled()`. -/
  clockSkewEnabled : Bool
  /-- `m_offlineStorageMemory`. -/
  memory : Option MemoryStorage
  /-- `m_offlineStorageDisk`. -/
  disk : Option δ
  killSwitchManager : KillSwitchManager
  clockSkewManager : ClockSkewManager
  flushPending : Bool
  readFromMemory : Bool
  lastReadCount : ℕ
  shutdownStarted : Bool
  /-- The `static` limit of `StoreRecord`, once some handler of the
  process has set it. -/
  cacheMemorySizeLimit : Option ℕ
  /-- The counts passed to `OnStorageRecordsSaved`, in order. -/
  recordsSaved : List ℕ

namespace Handler

variable {δ κ : Type} (D : DiskStorage δ) (h : Handler δ)

/-- A handler before `Initialize`. -/
def new (ramQueueSize : ℕ) (clockSkewEnabled : Bool) (cacheMemorySizeLimit : Option ℕ) :
    Handler δ where
  ramQueueSize := ramQueueSize
  clockSkewEnabled := clockSkewEnabled
  memory := none
  disk := none
  killSwitchManager := KillSwitchManager.empty
  clockSkewManager := ClockSkewManager.empty
  flushPending := false
  readFromMemory := false
  lastReadCount := 0
  shutdownStarted := false
  cacheMemorySizeLimit := cacheMemorySizeLimit
  recordsSaved := []

/-- The configured size as `cacheMemorySizeLimitInBytes`, a `uint32_t`,
holds it. -/
def ramLimit : ℕ := h.ramQueueSize % 2 ^ 32

/-- `OfflineStorageHandler::Initialize`. The factory's result is used
without a look at whether there is one. -/
def initializeStorage : Except Fault Unit × Handler δ :=
  match D.create h.disk with
  | none => (.error .nullDereference, { h with disk := none })
  | some d =>
    (.ok (), { h with
      disk := some (D.initializeStorage d)
      memory := if 0 < h.ramLimit then some MemoryStorage.empty else h.memory
      shutdownStarted := false })

/-! ## Storing and flushing -/

/-- The end of a flush. -/
def flushDone : Handler δ := { h with flushPending := false }

/-- `OfflineStorageHandler::Flush`. The size of the RAM queue is read
before the check that there is one. -/
def flush (now : ℕ) : Except Fault Unit × Handler δ :=
  match h.memory with
  | none => (.error .nullDereference, h)
  | some m =>
    if 0 < m.size then
      match h.disk with
      | none => (.ok (), h.flushDone)
      | some d =>
        let (records, m) := m.getRecords
        let (totalSaved, d) := D.storeRecords d records now
        let m := m.deleteRecords []
        (.ok (), { h with
          memory := some m
          disk := some d
          recordsSaved := h.recordsSaved ++ [totalSaved] }.flushDone)
    else (.ok (), h.flushDone)

/-- The task a store over the limit has scheduled. -/
def runScheduledFlush (now : ℕ) : Handler δ :=
  if h.flushPending then (h.flush D now).2 else h

/-- `OfflineStorageHandler::Shutdown`. A pending flush is waited for. -/
def shutdown (now : ℕ) : Handler δ :=
  let h := { h with shutdownStarted := true }.runScheduledFlush D now
  let h :=
    match h.memory with
    | none => h
    | some m => ({ h with memory := some m.releaseAllRecords }.flush D now).2
  { h with disk := h.disk.map D.shutdown }

/-- `OfflineStorageHandler::isKilled`. -/
def isKilled (record : StorageRecord) (now : ℕ) : Bool × Handler δ :=
  if h.killSwitchManager.isActive then
    let (blocked, k) := h.killSwitchManager.isTokenBlocked (utcSeconds now) record.tenantToken
    (blocked, { h with killSwitchManager := k })
  else (false, h)

/-- The part of `StoreRecord` behind the kill switch. Neither store's
answer is looked at. -/
def keepRecord (record : StorageRecord) (now : ℕ) : Handler δ :=
  -- the limit is read once in a process
  let limit := h.cacheMemorySizeLimit.getD h.ramLimit
  let h := { h with cacheMemorySizeLimit := some limit }
  match h.memory, h.shutdownStarted with
  | some m, false =>
    { h with
      memory := some (m.storeRecord record).2
      flushPending := h.flushPending || decide (limit < m.size) }
  | _, _ =>
    match h.disk with
    | none => h
    | some d =>
      if record.persistence ≠ .doNotStoreOnDisk then
        { h with disk := some (D.storeRecord d record now).2 }
      else h

/-- `OfflineStorageHandler::StoreRecord`. -/
def storeRecord (record : StorageRecord) (now : ℕ) : Bool × Handler δ :=
  let (killed, h) := if h.shutdownStarted then (false, h) else h.isKilled record now
  if killed then (false, h) else (true, h.keepRecord D record now)

/-- `OfflineStorageHandler::StoreRecords`. -/
def storeRecords (records : List StorageRecord) (now : ℕ) : ℕ × Handler δ :=
  records.foldl (fun acc r =>
    let (stored, h') := acc.2.storeRecord D r now
    (if stored then acc.1 + 1 else acc.1, h')) (0, h)

/-! ## Reading -/

/-- The clock-skew ping at the end of a read. -/
def pingClock (now : ℕ) : Handler δ :=
  if h.clockSkewEnabled && !h.clockSkewManager.resumeTransmissionAfterClockSkew then
    { h with clockSkewManager := (h.clockSkewManager.getDelta (utcSeconds now)).2 }
  else h

/-- The disk half of `GetAndReserveRecords`. -/
def readDisk (returnValue : Bool) (c : κ → StorageRecord → Bool × κ) (k : κ)
    (leaseTimeMs : ℕ) (minLatency : EventLatency) (maxCount now : ℕ) : Bool × κ × Handler δ :=
  match h.disk with
  | none => (returnValue, k, h.pingClock now)
  | some d =>
    let (found, k, d) := D.getAndReserveRecords d c k leaseTimeMs minLatency maxCount now
    let count := D.lastReadRecordCount d
    let h := { h with disk := some d }
    let h := if count ≠ 0
      then { h with lastReadCount := h.lastReadCount + count, readFromMemory := false } else h
    (returnValue || found, k, h.pingClock now)

/-- `OfflineStorageHandler::GetAndReserveRecords`: the disk is read when
the RAM queue gave nothing. -/
def getAndReserveRecords (c : κ → StorageRecord → Bool × κ) (k : κ)
    (leaseTimeMs : ℕ) (minLatency : EventLatency) (maxCount now : ℕ) : Bool × κ × Handler δ :=
  let h := { h with lastReadCount := 0, readFromMemory := false }
  match h.memory with
  | none => h.readDisk D false c k leaseTimeMs minLatency maxCount now
  | some m =>
    let (found, k, m) := m.getAndReserveRecords c k leaseTimeMs minLatency maxCount now
    let count := m.lastReadRecordCount
    let h := { h with memory := some m, lastReadCount := count, readFromMemory := true }
    let maxCount := if count ≤ maxCount then maxCount - count else maxCount
    if count ≠ 0 then (found, k, h)
    else h.readDisk D found c k leaseTimeMs minLatency maxCount now

/-! ## Deleting and releasing -/

/-- `OfflineStorageHandler::DeleteRecords` by a filter: both stores. -/
def deleteRecordsWhere (whereFilter : OrdMap String String) : Handler δ :=
  { h with
    memory := h.memory.map (·.deleteRecordsWhere whereFilter)
    disk := h.disk.map (D.deleteRecordsWhere · whereFilter) }

/-- `OfflineStorageHandler::DeleteRecordsByKeys`. -/
def deleteRecordsByKeys (keys : List String) : Handler δ :=
  keys.foldl (fun h key => h.deleteRecordsWhere D (OrdMap.singleton "tenant_token" key)) h

/-- `OfflineStorageHandler::DeleteAllRecords`. -/
def deleteAllRecords : Handler δ :=
  { h with
    memory := h.memory.map MemoryStorage.deleteAllRecords
    disk := h.disk.map D.deleteAllRecords }

/-- What `DeleteRecords` and `ReleaseRecords` do with the headers of a
response before they turn to the ids. -/
def handleHeaders (headers : HttpHeaders) (now : ℕ) : Except Fault Unit × Handler δ :=
  let (waiting, skew) := h.clockSkewManager.isWaitingForClockSkew (utcSeconds now)
  let h := { h with clockSkewManager := if waiting then skew.handleResponse headers else skew }
  if headers = [] then (.ok (), h)
  else
    match h.killSwitchManager.handleResponse (utcSeconds now) headers with
    | (.error e, k) => (.error e, { h with killSwitchManager := k })
    | (.ok newTokenKilled, k) =>
      let h := { h with killSwitchManager := k }
      (.ok (), if newTokenKilled then h.deleteRecordsByKeys D k.getTokensList else h)

/-- The ids are deleted in the store named. -/
def deleteNamed (ids : List StorageRecordId) (fromMemory : Bool) : Handler δ :=
  match fromMemory, h.memory with
  | true, some m => { h with memory := some (m.deleteRecords ids) }
  | _, _ => { h with disk := h.disk.map (D.deleteRecords · ids) }

/-- `OfflineStorageHandler::DeleteRecords` by ids. An exception out of the
headers leaves the ids alone. -/
def deleteRecords (ids : List StorageRecordId) (headers : HttpHeaders)
    (fromMemory : Bool) (now : ℕ) : Except Fault Unit × Handler δ :=
  match h.handleHeaders D headers now with
  | (.error e, h) => (.error e, h)
  | (.ok (), h) => (.ok (), h.deleteNamed D ids fromMemory)

/-- The ids are released in the store named. -/
def releaseNamed (ids : List StorageRecordId) (incrementRetryCount fromMemory : Bool) : Handler δ :=
  match fromMemory, h.memory with
  | true, some m => { h with memory := some (m.releaseRecords ids incrementRetryCount) }
  | _, _ => { h with disk := h.disk.map (D.releaseRecords · ids incrementRetryCount) }

/-- `OfflineStorageHandler::ReleaseRecords`. -/
def releaseRecords (ids : List StorageRecordId) (incrementRetryCount : Bool)
    (headers : HttpHeaders) (fromMemory : Bool) (now : ℕ) : Except Fault Unit × Handler δ :=
  match h.handleHeaders D headers now with
  | (.error e, h) => (.error e, h)
  | (.ok (), h) => (.ok (), h.releaseNamed D ids incrementRetryCount fromMemory)

/-- `OfflineStorageHandler::GetSize`. -/
def getSize : ℕ :=
  (h.memory.map MemoryStorage.size).getD 0 + (h.disk.map D.getSize).getD 0

/-- `OfflineStorageHandler::GetRecordCount`. -/
def getRecordCount (latency : EventLatency) : ℕ :=
  (h.memory.map (·.getRecordCount latency)).getD 0 +
    (h.disk.map (D.getRecordCount · latency)).getD 0

end Handler

/-- The calls a handler receives. -/
inductive HandlerOp where
  | initializeStorage
  | storeRecord (record : StorageRecord)
  | storeRecords (records : List StorageRecord)
  | getAndReserveRecords (consumer : Consumer StorageRecord) (leaseTimeMs : ℕ)
      (minLatency : EventLatency) (maxCount : ℕ)
  | deleteRecords (ids : List StorageRecordId) (headers : HttpHeaders) (fromMemory : Bool)
  | releaseRecords (ids : List StorageRecordId) (incrementRetryCount : Bool)
      (headers : HttpHeaders) (fromMemory : Bool)
  | deleteRecordsWhere (whereFilter : OrdMap String String)
  | deleteAllRecords
  | flush
  | runScheduledFlush
  | shutdown

/-- The handler after a call made at a time. -/
def Handler.step {δ : Type} (D : DiskStorage δ) (h : Handler δ) (a : ℕ × HandlerOp) : Handler δ :=
  match a.2 with
  | .initializeStorage => (h.initializeStorage D).2
  | .storeRecord record => (h.storeRecord D record a.1).2
  | .storeRecords records => (h.storeRecords D records a.1).2
  | .getAndReserveRecords c leaseTimeMs minLatency maxCount =>
    (h.getAndReserveRecords D c.accept c.start leaseTimeMs minLatency maxCount a.1).2.2
  | .deleteRecords ids headers fromMemory => (h.deleteRecords D ids headers fromMemory a.1).2
  | .releaseRecords ids inc headers fromMemory =>
    (h.releaseRecords D ids inc headers fromMemory a.1).2
  | .deleteRecordsWhere whereFilter => h.deleteRecordsWhere D whereFilter
  | .deleteAllRecords => h.deleteAllRecords D
  | .flush => (h.flush D a.1).2
  | .runScheduledFlush => h.runScheduledFlush D a.1
  | .shutdown => h.shutdown D a.1

/-! ## The handlers of a process -/

/-- **The handlers of a process**, and the `static` limit of `StoreRecord`
they share. -/
structure Handlers (ι δ : Type) where
  /-- The handlers; the limits here are not used. -/
  handlers : ι → Handler δ
  cacheMemorySizeLimit : Option ℕ

namespace Handlers

variable {ι δ : Type} [DecidableEq ι]

/-- The handlers before `Initialize`, and before any record is stored in
the process. -/
def new (ramQueueSize : ι → ℕ) (clockSkewEnabled : ι → Bool) : Handlers ι δ where
  handlers i := Handler.new (ramQueueSize i) (clockSkewEnabled i) none
  cacheMemorySizeLimit := none

/-- A handler with the common limit. -/
def view (s : Handlers ι δ) (i : ι) : Handler δ :=
  { s.handlers i with cacheMemorySizeLimit := s.cacheMemorySizeLimit }

/-- A handler receives a call at a time. -/
def step (D : DiskStorage δ) (s : Handlers ι δ) (a : ι × ℕ × HandlerOp) : Handlers ι δ where
  handlers := Function.update s.handlers a.1 ((s.view a.1).step D a.2)
  cacheMemorySizeLimit := ((s.view a.1).step D a.2).cacheMemorySizeLimit

end Handlers

end ClientTelemetry
