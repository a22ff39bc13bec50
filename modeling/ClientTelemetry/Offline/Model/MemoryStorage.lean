import ClientTelemetry.Common.Consume
import ClientTelemetry.Model.Record
/-!
# The RAM queue

`MemoryStorage` keeps one vector of records for each latency from `Off`
to `Max`, a map of the records handed out under a lease, and a running
size of what is queued. The operations are those of `MemoryStorage.cpp`;
a vector is a list whose last element is its `back()`.
-/

namespace ClientTelemetry

/-- **The state of the RAM store.** -/
structure MemoryStorage where
  /-- `m_records`, one queue for each latency. -/
  records : Fin 5 → List StorageRecord
  /-- `m_reserved_records`, the records in flight. -/
  reservedRecords : OrdMap StorageRecordId StorageRecord
  /-- `m_size`. -/
  size : ℕ
  /-- `m_lastReadCount`. -/
  lastReadCount : ℕ

namespace MemoryStorage

variable (m : MemoryStorage)

/-- A store with nothing in it. -/
def empty : MemoryStorage := ⟨fun _ => [], OrdMap.empty, 0, 0⟩

/-- Append to the queue of the record's latency. A record of unspecified
latency has no queue: the source indexes its array with `-1`, and the
write lands outside the five vectors. -/
def pushBack (records : Fin 5 → List StorageRecord) (r : StorageRecord) :
    Fin 5 → List StorageRecord :=
  match r.latency.index? with
  | some l => Function.update records l (records l ++ [r])
  | none => records

/-- `MemoryStorage::StoreRecord`. -/
def storeRecord (r : StorageRecord) : Bool × MemoryStorage :=
  -- events with latency set to off are not stored
  if r.latency = .off then (false, m)
  else (true, { m with size := m.size + r.queueSize, records := pushBack m.records r })

/-- `MemoryStorage::StoreRecords`. -/
def storeRecords (rs : List StorageRecord) : ℕ × MemoryStorage :=
  rs.foldl (fun acc r =>
    let (stored, m') := acc.2.storeRecord r
    (if stored then acc.1 + 1 else acc.1, m')) (0, m)

/-! ## Reading -/

/-- The copy of a record a consumer is shown: under a lease it carries
the time the lease ends. -/
def forConsumer (leaseTimeMs now : ℕ) (r : StorageRecord) : StorageRecord :=
  if leaseTimeMs ≠ 0 then { r with reservedUntil := now + leaseTimeMs } else r

/-- The variables of the reading loops. -/
structure Reading (κ : Type) where
  consumer : κ
  reserved : OrdMap StorageRecordId StorageRecord
  size : ℕ
  maxCount : ℕ
  lastReadCount : ℕ

variable {κ : Type}

/-- What one accepted record does to the loop variables: it moves to the
reserved map under a lease, and its size leaves the queue's. -/
def Reading.take (leaseTimeMs : ℕ) (st : Reading κ) (k : κ) (r : StorageRecord) : Reading κ where
  consumer := k
  reserved := if leaseTimeMs ≠ 0 then st.reserved.insert r.id r else st.reserved
  size := st.size - min st.size r.queueSize
  maxCount := st.maxCount - 1
  lastReadCount := st.lastReadCount + 1

/-- The inner loop of `GetAndReserveRecords`, over one queue from its
back. The first component says whether the outer loop goes on: it does
not once the consumer wants no more. -/
def readQueue (c : κ → StorageRecord → Bool × κ) (leaseTimeMs now : ℕ) :
    List StorageRecord → Reading κ → Bool × List StorageRecord × Reading κ
  | [], st => (true, [], st)
  | r :: rest, st =>
    if st.maxCount = 0 then (true, r :: rest, st)
    else
      match c st.consumer (forConsumer leaseTimeMs now r) with
      | (false, k) => (false, r :: rest, { st with consumer := k })
      | (true, k) => readQueue c leaseTimeMs now rest (st.take leaseTimeMs k r)

/-- The outer loop, over the latencies still to be read. -/
def readLatencies (c : κ → StorageRecord → Bool × κ) (leaseTimeMs now : ℕ) :
    List (Fin 5) → (Fin 5 → List StorageRecord) → Reading κ →
      (Fin 5 → List StorageRecord) × Reading κ
  | [], records, st => (records, st)
  | l :: ls, records, st =>
    if st.maxCount = 0 then (records, st)
    else
      let (more, rest, st') := readQueue c leaseTimeMs now (records l).reverse st
      let records' := Function.update records l rest.reverse
      if more then readLatencies c leaseTimeMs now ls records' st' else (records', st')

/-- The latencies a read visits: from `Max` down to the one asked for,
with an unspecified minimum read as `Off`. -/
def latenciesFrom (minLatency : EventLatency) : List (Fin 5) :=
  ([4, 3, 2, 1, 0] : List (Fin 5)).filter fun l =>
    (if minLatency = .unspecified then EventLatency.off.toInt else minLatency.toInt) ≤ (l.val : ℤ)

/-- The count a read is bounded by: zero asks for no bound. -/
def countBound (maxCount : ℕ) : ℕ := if maxCount = 0 then uintMax else maxCount

/-- `MemoryStorage::GetAndReserveRecords`, with the consumer and its
state. It always returns true. -/
def getAndReserveRecords (m : MemoryStorage) (c : κ → StorageRecord → Bool × κ) (k : κ)
    (leaseTimeMs : ℕ) (minLatency : EventLatency) (maxCount now : ℕ) : Bool × κ × MemoryStorage :=
  let (records, st) := readLatencies c leaseTimeMs now (latenciesFrom minLatency) m.records
    { consumer := k, reserved := m.reservedRecords, size := m.size,
      maxCount := countBound maxCount, lastReadCount := 0 }
  (true, st.consumer, ⟨records, st.reserved, st.size, st.lastReadCount⟩)

/-- `MemoryStorage::LastReadRecordCount`, narrowed to `unsigned`. -/
def lastReadRecordCount : ℕ := m.lastReadCount % 2 ^ 32

/-- The consumer of `GetRecords`: it keeps every record. -/
def collect (records : List StorageRecord) (r : StorageRecord) : Bool × List StorageRecord :=
  (true, records ++ [r])

/-- `MemoryStorage::GetRecords`: a read with no lease, which removes what
it returns. -/
def getRecords (minLatency : EventLatency := .unspecified)
    (maxCount : ℕ := 0) : List StorageRecord × MemoryStorage :=
  (m.getAndReserveRecords collect [] 0 minLatency maxCount 0).2

/-! ## Deleting and releasing -/

/-- `MemoryStorage::DeleteAllRecords`. -/
def deleteAllRecords (m : MemoryStorage) : MemoryStorage :=
  { m with reservedRecords := OrdMap.empty, records := fun _ => [], size := 0, lastReadCount := 0 }

/-- The removal loop over one queue: an id found is taken out of the set,
so that it removes one record only. -/
def eraseIds : List StorageRecord → Finset StorageRecordId → ℕ →
    List StorageRecord × Finset StorageRecordId × ℕ
  | [], ids, size => ([], ids, size)
  | r :: rs, ids, size =>
    if r.id ∈ ids then eraseIds rs (ids.erase r.id) (size - min size r.queueSize)
    else
      let (kept, ids', size') := eraseIds rs ids size
      (r :: kept, ids', size')

/-- The removal by ids over the queues, from `Off` up. -/
def eraseQueued : List (Fin 5) → MemoryStorage → Finset StorageRecordId → MemoryStorage
  | [], m, _ => m
  | l :: ls, m, ids =>
    let (kept, ids', size') := eraseIds (m.records l) ids m.size
    eraseQueued ls { m with records := Function.update m.records l kept, size := size' } ids'

/-- `MemoryStorage::DeleteRecords` by ids: the reserved records first, and
the queues only if some id was not among those. -/
def deleteRecords (ids : List StorageRecordId) : MemoryStorage :=
  let kept := { m with reservedRecords := m.reservedRecords.filter fun e => e.1 ∉ ids.toFinset }
  if m.reservedRecords.entries ≠ [] ∧ ids.toFinset ⊆ m.reservedRecords.keys.toFinset then kept
  else eraseQueued [0, 1, 2, 3, 4] kept ids.toFinset

/-- One condition of a filter, on the column it names. -/
def matchesColumn (r : StorageRecord) (column value : String) : Bool :=
  if column = "record_id" then r.id == value
  else if column = "tenant_token" then r.tenantToken == value
  else if column = "latency" then toString r.latency.toInt == value
  else if column = "persistence" then toString r.persistence.toInt == value
  else if column = "retry_count" then toString r.retryCount == value
  else false

/-- The matcher of `DeleteRecords(whereFilter)`. -/
def matcher (whereFilter : OrdMap String String) (r : StorageRecord) : Bool :=
  whereFilter.entries.all fun kv => matchesColumn r kv.1 kv.2

/-- The removal loop of a filter over one queue. -/
def eraseMatching (whereFilter : OrdMap String String) :
    List StorageRecord → ℕ → List StorageRecord × ℕ
  | [], size => ([], size)
  | r :: rs, size =>
    if matcher whereFilter r then eraseMatching whereFilter rs (size - min size r.queueSize)
    else
      let (kept, size') := eraseMatching whereFilter rs size
      (r :: kept, size')

/-- The removal by a filter over the queues, from `Off` up. -/
def eraseMatchingQueued (whereFilter : OrdMap String String) :
    List (Fin 5) → MemoryStorage → MemoryStorage
  | [], m => m
  | l :: ls, m =>
    let (kept, size') := eraseMatching whereFilter (m.records l) m.size
    eraseMatchingQueued whereFilter ls
      { m with records := Function.update m.records l kept, size := size' }

/-- `MemoryStorage::DeleteRecords` by a filter. The reserved records that
match are deleted by their ids, the queued ones in place. -/
def deleteRecordsWhere (whereFilter : OrdMap String String) : MemoryStorage :=
  let reservedIds :=
    (m.reservedRecords.entries.filter fun kv => matcher whereFilter kv.2).map Prod.fst
  let m' := if reservedIds ≠ [] then m.deleteRecords reservedIds else m
  eraseMatchingQueued whereFilter [0, 1, 2, 3, 4] m'

/-- The record a release puts back. -/
def released (incrementRetryCount : Bool) (r : StorageRecord) : StorageRecord :=
  if incrementRetryCount then { r with retryCount := r.retryCount + 1 } else r

/-- Put records back in their queues, one after the other. -/
def restore (incrementRetryCount : Bool) (rs : List StorageRecord) : MemoryStorage :=
  rs.foldl (fun m r => (m.storeRecord (released incrementRetryCount r)).2) m

/-- `MemoryStorage::ReleaseRecords`: the reserved records among the ids go
back to their queues, in key order. -/
def releaseRecords (ids : List StorageRecordId) (incrementRetryCount : Bool) : MemoryStorage :=
  restore { m with reservedRecords := m.reservedRecords.filter fun e => e.1 ∉ ids.toFinset }
    incrementRetryCount (m.reservedRecords.filter fun e => e.1 ∈ ids.toFinset).values

/-- `MemoryStorage::ReleaseAllRecords`. -/
def releaseAllRecords : MemoryStorage :=
  restore { m with reservedRecords := OrdMap.empty } false m.reservedRecords.values

/-- `MemoryStorage::GetRecordCount`. -/
def getRecordCount (latency : EventLatency := .unspecified) : ℕ :=
  match latency.index? with
  | some l => (m.records l).length
  | none => (([0, 1, 2, 3, 4] : List (Fin 5)).map fun l => (m.records l).length).sum

end MemoryStorage

end ClientTelemetry
