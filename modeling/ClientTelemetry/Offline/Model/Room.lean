import ClientTelemetry.Common.Blocks
import ClientTelemetry.Common.Consume
import ClientTelemetry.Model.Record
/-!
# The store of the Android build

`OfflineStorage_Room` reads from a table that a Java object owns. A read
goes in chunks of 1024: the Java side selects a chunk and reserves all of
it (`StorageRecordDao.getAndReserve`), the C++ side offers the chunk to
the consumer, and when the consumer has had enough it hands the chunk back
with the number of records taken (`releaseUnconsumed`). Java updates the
table in blocks of 64 ids.

The calls through JNI and the statements of the table are taken to work.
-/

namespace ClientTelemetry

/-! ## The table -/

/-- One row of the table `StorageRecord`. -/
structure RoomRecord where
  id : ℤ
  tenantToken : String
  latency : ℤ
  persistence : ℤ
  timestamp : ℤ
  retryCount : ℤ := 0
  reservedUntil : ℤ := 0
  blob : StorageBlob := []
  deriving DecidableEq, Repr

/-- The latency a record is given: a column outside `Off..Max` is moved to
the nearer end. -/
def clampedLatency (latency : ℤ) : EventLatency :=
  if latency ≤ 0 then .off
  else if latency = 1 then .normal
  else if latency = 2 then .costDeferred
  else if latency = 3 then .realTime
  else .max

/-- The persistence a record is given. The column holds the value of an
enumerator; the bounds it is moved to are those of the latencies, which
leave these values alone. -/
def persistenceOfColumn (persistence : ℤ) : EventPersistence :=
  if persistence = 2 then .critical
  else if persistence = 3 then .doNotStoreOnDisk
  else .normal

/-- The record the consumer is shown. -/
def RoomRecord.toRecord (row : RoomRecord) : StorageRecord where
  id := toString row.id
  tenantToken := row.tenantToken
  latency := clampedLatency row.latency
  persistence := persistenceOfColumn row.persistence
  timestamp := row.timestamp
  blob := row.blob
  retryCount := row.retryCount
  reservedUntil := row.reservedUntil

/-- **The table**, in the order of its ids, which are its primary key. -/
@[ext] structure RoomTable where
  rows : List RoomRecord
  unique : (rows.map RoomRecord.id).Nodup

namespace RoomTable

variable (t : RoomTable)

/-- An update of the rows that keeps their ids. -/
def update (f : RoomRecord → RoomRecord) (hf : ∀ row, (f row).id = row.id) : RoomTable where
  rows := t.rows.map f
  unique := by
    have hids : (t.rows.map f).map RoomRecord.id = t.rows.map RoomRecord.id := by
      rw [List.map_map]
      exact List.map_congr_left fun row _ => hf row
    rw [hids]
    exact t.unique

/-- `releaseExpired`. -/
def releaseExpired (now : ℤ) : RoomTable :=
  t.update (fun row => if 0 < row.reservedUntil ∧ row.reservedUntil < now
    then { row with reservedUntil := 0 } else row) fun row => by split_ifs <;> rfl

/-- `setReservedBlock`. -/
def setReservedBlock (ids : List ℤ) (reservedUntil : ℤ) : RoomTable :=
  t.update (fun row => if row.id ∈ ids then { row with reservedUntil := reservedUntil } else row)
    fun row => by split_ifs <;> rfl

/-- The order of `getUnreservedRecords`: latency and persistence falling,
timestamp rising. -/
def Before (a b : RoomRecord) : Prop :=
  b.latency < a.latency ∨ (b.latency = a.latency ∧
    (b.persistence < a.persistence ∨ (b.persistence = a.persistence ∧ a.timestamp ≤ b.timestamp)))

instance : DecidableRel Before := fun _ _ => inferInstanceAs (Decidable (_ ∨ _))

/-- `getUnreservedRecords`. Rows that tie come in the order of their ids. -/
def getUnreservedRecords (minLatency : ℤ) (limit : ℕ) : List RoomRecord :=
  ((t.rows.filter fun row => minLatency ≤ row.latency ∧ row.reservedUntil = 0).insertionSort
    Before).take limit

/-! ## The calls of the Java object -/

/-- `idCount`. -/
def idCount : ℕ := 64

/-- `setReserved`: block after block. -/
def setReserved (ids : List ℤ) (reservedUntil : ℤ) : RoomTable :=
  (blocksOf idCount ids.length ids).foldl (fun t block => t.setReservedBlock block reservedUntil) t

/-- `getAndReserve`. -/
def getAndReserve (minLatency : ℤ) (limit : ℕ) (now reservedUntil : ℤ) :
    List RoomRecord × RoomTable :=
  let t := t.releaseExpired now
  let selected := t.getUnreservedRecords minLatency limit
  if selected = [] then (selected, t)
  else (selected, t.setReserved (selected.map RoomRecord.id) reservedUntil)

/-- `releaseUnconsumed`. The ids are read from the start of the
selection. -/
def releaseUnconsumed (selected : List RoomRecord) (index : ℕ) : RoomTable :=
  let unconsumed := selected.length - index
  t.setReserved ((selected.take unconsumed).map RoomRecord.id) 0

end RoomTable

/-! ## The read -/

/-- The state of the store. -/
structure Room where
  table : RoomTable
  /-- `m_lastReadCount`. -/
  lastReadCount : ℕ := 0

/-- The variables of the loop. -/
structure Collecting (κ : Type) where
  table : RoomTable
  consumer : κ
  collected : ℕ

namespace Room

variable {κ : Type}

/-- `chunkSize`. -/
def chunkSize : ℕ := 1024

/-- The number of records a read asks for; zero asks for no bound. -/
def requestedCount (maxCount : ℕ) : ℕ := if maxCount ≠ 0 then maxCount else 2 ^ 63 - 1

/-- The loop of `GetAndReserveRecords`, for at most as many chunks as the
first number. A chunk that is taken whole leads to the next. -/
def collect (c : κ → RoomRecord → Bool × κ) (minLatency : ℤ) (requested : ℕ)
    (now reservedUntil : ℤ) : ℕ → Collecting κ → Collecting κ
  | 0, st => st
  | fuel + 1, st =>
    if st.collected < requested then
      let loopChunk := min chunkSize (requested - st.collected)
      let (selected, table) := st.table.getAndReserve minLatency loopChunk now reservedUntil
      if selected = [] then { st with table := table }
      else
        let (accepted, consumer) := offer c st.consumer selected
        let index := accepted.length
        let collected := st.collected + index
        if index < selected.length then
          ⟨table.releaseUnconsumed selected index, consumer, collected⟩
        else collect c minLatency requested now reservedUntil fuel ⟨table, consumer, collected⟩
    else st

/-- `OfflineStorage_Room::GetAndReserveRecords`, for a consumer of rows. A
chunk has a row in it, so that there are no more chunks than rows. -/
def retrieve (r : Room) (c : κ → RoomRecord → Bool × κ) (k : κ) (leaseTimeMs : ℕ)
    (minLatency : EventLatency) (maxCount now : ℕ) : Bool × κ × Room :=
  let st := collect c minLatency.toInt (requestedCount maxCount) now (now + leaseTimeMs)
    (r.table.rows.length + 1) ⟨r.table, k, 0⟩
  (decide (0 < st.collected), st.consumer, ⟨st.table, min st.collected (2 ^ 31 - 1)⟩)

/-- `OfflineStorage_Room::GetAndReserveRecords`. -/
def getAndReserveRecords (r : Room) (c : κ → StorageRecord → Bool × κ) (k : κ) (leaseTimeMs : ℕ)
    (minLatency : EventLatency) (maxCount now : ℕ) : Bool × κ × Room :=
  r.retrieve (fun k row => c k row.toRecord) k leaseTimeMs minLatency maxCount now

end Room

end ClientTelemetry
