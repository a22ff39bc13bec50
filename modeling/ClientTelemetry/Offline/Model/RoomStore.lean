import ClientTelemetry.Offline.Model.KillSwitch
import ClientTelemetry.Offline.Model.Room
import ClientTelemetry.Offline.Model.SQLite
/-!
# Storing, deleting and releasing in the Android store

The calls of `OfflineStorage_Room` besides its read, with the Java calls
behind them. A record is stored under an id of the table's own, which
SQLite makes larger than any before it; ids come back as text and are
parsed with `std::stoll`. A release that counts a retry goes block by
block: it deletes the rows of the block that have had their retries, and
counts one for the others.

The calls through JNI are taken to work. The check of the size after an
insert is not modelled: without trimming it changes nothing.
-/

namespace ClientTelemetry

open List

/-! ## The table -/

namespace RoomTable

variable (t : RoomTable)

/-- The rows a test keeps. -/
def keep (p : RoomRecord → Bool) : RoomTable where
  rows := t.rows.filter p
  unique := t.unique.sublist (filter_sublist.map _)

/-- The largest id in the table. -/
def largestId : ℤ := t.rows.foldl (fun m row => max m row.id) 0

theorem le_largestId {t : RoomTable} {row : RoomRecord} (h : row ∈ t.rows) :
    row.id ≤ t.largestId := by
  have hfold : ∀ (rows : List RoomRecord) (m : ℤ), m ≤ rows.foldl (fun m row => max m row.id) m ∧
      ∀ row ∈ rows, row.id ≤ rows.foldl (fun m row => max m row.id) m := by
    intro rows
    induction rows with
    | nil => exact fun m => ⟨le_refl m, fun _ h => nomatch h⟩
    | cons r rows ih =>
      intro m
      obtain ⟨hm, hrows⟩ := ih (max m r.id)
      refine ⟨le_trans (le_max_left _ _) hm, fun row hrow => ?_⟩
      obtain rfl | hrow := mem_cons.1 hrow
      · exact le_trans (le_max_right _ _) hm
      · exact hrows row hrow
  exact (hfold t.rows 0).2 row h

/-- One row of `insertRecords`, under an id above all that are there. -/
def insertRecord (row : RoomRecord) (hid : t.largestId < row.id) : RoomTable where
  rows := t.rows ++ [row]
  unique := by
    rw [map_append, map_singleton, nodup_append]
    refine ⟨t.unique, nodup_singleton _, fun i hi j hj heq => ?_⟩
    obtain ⟨row', hrow', rfl⟩ := mem_map.1 hi
    have := le_largestId hrow'
    rw [mem_singleton.1 hj] at heq
    omega

/-- `deleteByIdBlock`. -/
def deleteByIdBlock (ids : List ℤ) : RoomTable := t.keep fun row => row.id ∉ ids

/-- `deleteById`: block after block. -/
def deleteById (ids : List ℤ) : RoomTable :=
  (blocksOf idCount ids.length ids).foldl deleteByIdBlock t

/-- `getRetryExpired`. -/
def getRetryExpired (ids : List ℤ) (maximumRetries : ℤ) : List RoomRecord :=
  t.rows.filter fun row => row.id ∈ ids ∧ maximumRetries ≤ row.retryCount

/-- `deleteRecordInner`, which goes by the primary key. -/
def deleteRecordInner (records : List RoomRecord) : RoomTable :=
  t.keep fun row => row.id ∉ records.map RoomRecord.id

/-- `releaseAndIncrementRetryCounts`. -/
def releaseAndIncrementRetryCounts (ids : List ℤ) : RoomTable :=
  t.update (fun row => if row.id ∈ ids
    then { row with reservedUntil := 0, retryCount := row.retryCount + 1 } else row)
    fun row => by split_ifs <;> rfl

/-- The counting loop of `releaseRecords` over the rows of one block. -/
def countByTenant (byTenant : OrdMap String ℕ) (records : List RoomRecord) : OrdMap String ℕ :=
  records.foldl (fun m row => m.insert row.tenantToken ((m.find? row.tenantToken).getD 0 + 1))
    byTenant

/-- One block of a release that counts a retry. -/
def releaseBlock (maximumRetries : ℤ) (acc : RoomTable × OrdMap String ℕ) (block : List ℤ) :
    RoomTable × OrdMap String ℕ :=
  let expired := acc.1.getRetryExpired block maximumRetries
  ((acc.1.deleteRecordInner expired).releaseAndIncrementRetryCounts block,
    countByTenant acc.2 expired)

/-- `releaseRecords`, with the map it fills. -/
def releaseRecords (ids : List ℤ) (incrementRetry : Bool) (maximumRetries : ℤ) :
    RoomTable × OrdMap String ℕ :=
  if incrementRetry then
    (blocksOf idCount ids.length ids).foldl (releaseBlock maximumRetries) (t, OrdMap.empty)
  else (t.setReserved ids 0, OrdMap.empty)

end RoomTable

/-! ## The store -/

/-- `std::stoll`: white space, a sign, and the digits up to the first
other character. -/
def stoll (text : String) : Except Fault ℤ :=
  let body := text.toList.dropWhile isSpace
  let (sign, body) : ℤ × List Char :=
    match body with
    | '-' :: rest => (-1, rest)
    | '+' :: rest => (1, rest)
    | rest => (1, rest)
  let digits := body.takeWhile Char.isDigit
  if digits = [] then .error .invalidArgument
  else
    let n := sign * digitsValue digits
    if n < -2 ^ 63 ∨ 2 ^ 63 - 1 < n then .error .outOfRange else .ok n

/-- **The state of the store**, with the sequence behind its ids. -/
structure RoomStore where
  room : Room
  /-- The largest id the table has ever given. -/
  sequence : ℤ
  /-- `GetMaximumRetryCount()`. -/
  maxRetryCount : ℕ
  notices : List SQLite.Notice

namespace RoomStore

variable (s : RoomStore)

/-- An empty store. -/
def new (maxRetryCount : ℕ) : RoomStore where
  room := { table := ⟨[], nodup_nil⟩ }
  sequence := 0
  maxRetryCount := maxRetryCount
  notices := []

/-- The id the next record is stored under. -/
def nextId : ℤ := max s.sequence s.room.table.largestId + 1

/-- The row of a record. -/
def rowOf (id : ℤ) (r : StorageRecord) : RoomRecord where
  id := id
  tenantToken := r.tenantToken
  latency := r.latency.toInt
  persistence := r.persistence.toInt
  timestamp := r.timestamp
  retryCount := r.retryCount
  reservedUntil := r.reservedUntil
  blob := r.blob

/-- `OfflineStorage_Room::StoreRecord`. The id of the record is not looked
at. -/
def storeRecord (r : StorageRecord) : RoomStore :=
  { s with
    room := { s.room with
      table := s.room.table.insertRecord (rowOf s.nextId r)
        (lt_of_le_of_lt (le_max_right _ _) (lt_add_one _)) }
    sequence := s.nextId }

/-- The ids as numbers: what is not a positive number is passed over. -/
def roomIds (ids : List StorageRecordId) : List ℤ :=
  ids.filterMap fun id =>
    match stoll id with
    | .ok n => if 0 < n then some n else none
    | .error _ => none

/-- The failures the observer is told of on the way, with the texts of the
call. -/
def idFailures (outOfRange empty : String) (ids : List StorageRecordId) : List SQLite.Notice :=
  ids.filterMap fun id =>
    match stoll id with
    | .ok _ => none
    | .error .outOfRange => some (.storageFailed outOfRange)
    | .error _ => some (.storageFailed empty)

/-- `OfflineStorage_Room::GetAndReserveRecords`. -/
def getAndReserveRecords {κ : Type} (s : RoomStore) (c : κ → StorageRecord → Bool × κ) (k : κ)
    (leaseTimeMs : ℕ) (minLatency : EventLatency) (maxCount now : ℕ) : Bool × κ × RoomStore :=
  let res := s.room.getAndReserveRecords c k leaseTimeMs minLatency maxCount now
  (res.1, res.2.1, { s with room := res.2.2 })

/-- `OfflineStorage_Room::DeleteRecords`. -/
def deleteRecords (ids : List StorageRecordId) : RoomStore :=
  if ids = [] then s
  else
    let s := { s with notices := s.notices ++ idFailures "ID out of range" "Empty ID" ids }
    if roomIds ids = [] then s
    else { s with room := { s.room with table := s.room.table.deleteById (roomIds ids) } }

/-- `OfflineStorage_Room::ReleaseRecords`. -/
def releaseRecords (ids : List StorageRecordId) (incrementRetryCount : Bool) : RoomStore :=
  if ids = [] then s
  else
    let maximumRetries : ℤ := if incrementRetryCount then s.maxRetryCount else 0
    let s := { s with notices := s.notices ++ idFailures "id out of range" "id empty" ids }
    if roomIds ids = [] then s
    else
      let (table, byTenant) :=
        s.room.table.releaseRecords (roomIds ids) incrementRetryCount maximumRetries
      let s := { s with room := { s.room with table := table } }
      if byTenant.entries ≠ [] then
        { s with notices := s.notices ++ [.recordsDropped byTenant] }
      else s

end RoomStore

end ClientTelemetry
