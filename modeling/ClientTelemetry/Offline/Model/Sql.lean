import ClientTelemetry.Model.Record
/-!
# The events table and its statements

The table `events` of the on-disk database as the list of its rows in
rowid order, and what each statement of `OfflineStorage_SQLite.cpp` does
to it when the engine executes it. Id lists reach the engine as one
NUL-separated blob that a registered function takes apart again
(`packageIdList`, `idsTable`); the filter of a delete reaches it as text
(`whereClause`).
-/

namespace ClientTelemetry

namespace Sql

variable (ids : List (Option String))

/-- A row of `events`. Every column but the three texts and the payload
is an integer. -/
structure EventRow where
  recordId : String
  tenantToken : String
  latency : ℤ
  persistence : ℤ
  timestamp : ℤ
  retryCount : ℤ := 0
  reservedUntil : ℤ := 0
  payload : StorageBlob
  deriving DecidableEq, Repr

/-- The row `m_stmtInsertEvent_id_tenant_prio_ts_data` writes. The retry
count and the reservation take the column defaults. -/
def EventRow.ofRecord (r : StorageRecord) : EventRow where
  recordId := r.id
  tenantToken := r.tenantToken
  latency := r.latency.toInt
  persistence := r.persistence.toInt
  timestamp := r.timestamp
  payload := r.blob

/-- The latency a fetched record is given: a value outside `Off..Max` is
read as `Normal`. -/
def latencyOfColumn (latency : ℤ) : EventLatency :=
  if latency = 0 then .off
  else if latency = 1 then .normal
  else if latency = 2 then .costDeferred
  else if latency = 3 then .realTime
  else if latency = 4 then .max
  else .normal

/-- The record a fetched row is turned into. The persistence is not
selected and keeps the record's default. -/
def EventRow.toRecord (row : EventRow) : StorageRecord where
  id := row.recordId
  tenantToken := row.tenantToken
  latency := latencyOfColumn row.latency
  timestamp := row.timestamp
  blob := row.payload
  retryCount := row.retryCount
  reservedUntil := row.reservedUntil

/-! ## Id lists -/

/-- `OfflineStorage_SQLite::packageIdList`: each id with a NUL behind it.
Characters stand for bytes, as NUL is the one character whose encoding
has a zero byte. -/
def packageIdList (ids : List StorageRecordId) : List Char :=
  ids.flatMap fun id => id.toList ++ ['\x00']

/-- One call of the SQL function `tokenize` on what is left of the blob:
the next token and the rest behind its separator, or NULL at the end. -/
def tokenize (data : List Char) : Option (String × List Char) :=
  if data = [] then none
  else
    let token := data.takeWhile (· ≠ '\x00')
    some (String.ofList token, data.drop (token.length + 1))

/-- The rows of the recursive query `ids`, up to its limit. The NULL that
ends the recursion is a row of its own. -/
def idsRows : ℕ → List Char → List (Option String)
  | 0, _ => []
  | n + 1, data =>
    match tokenize data with
    | none => [none]
    | some (token, rest) => some token :: idsRows n rest

/-- The table `ids` of `SQL_SUPPLY_PACKAGED_IDS`, with its `LIMIT 10000`. -/
def idsTable (data : List Char) : List (Option String) := idsRows 10000 data

/-- `record_id IN ids`. A comparison with NULL selects nothing. -/
def EventRow.In (row : EventRow) (ids : List (Option String)) : Prop := some row.recordId ∈ ids

instance (row : EventRow) (ids : List (Option String)) : Decidable (row.In ids) :=
  inferInstanceAs (Decidable (_ ∈ _))

/-! ## Statements -/

/-- `m_stmtReleaseExpiredEvents`. -/
def releaseExpired (now : ℤ) (rows : List EventRow) : List EventRow :=
  rows.map fun row =>
    if row.reservedUntil ≠ 0 ∧ row.reservedUntil ≤ now
    then { row with reservedUntil := 0, retryCount := row.retryCount + 1 } else row

/-- The order of `m_stmtSelectEvents`: latency and persistence falling,
timestamp rising. -/
def Before (a b : EventRow) : Prop :=
  b.latency < a.latency ∨ (b.latency = a.latency ∧
    (b.persistence < a.persistence ∨ (b.persistence = a.persistence ∧ a.timestamp ≤ b.timestamp)))

instance : DecidableRel Before := fun _ _ => inferInstanceAs (Decidable (_ ∨ _))

/-- `m_stmtSelectEvents`. Rows that tie come in rowid order, as the index
on the three columns delivers them. -/
def selectEvents (minLatency : ℤ) (limit : ℕ) (rows : List EventRow) : List EventRow :=
  ((rows.filter fun row => minLatency ≤ row.latency ∧ row.reservedUntil = 0).insertionSort
    Before).take limit

/-- `m_stmtReserveEvents`. -/
def reserveEvents (reservedUntil : ℤ) (rows : List EventRow) : List EventRow :=
  rows.map fun row => if row.In ids then { row with reservedUntil := reservedUntil } else row

/-- `m_stmtDeleteEvents_ids`. -/
def deleteEventsIds (rows : List EventRow) : List EventRow :=
  rows.filter fun row => ¬ row.In ids

/-- `m_stmtReleaseEvents_ids_retryCountDelta`. -/
def releaseEvents (retryCountDelta : ℤ) (rows : List EventRow) : List EventRow :=
  rows.map fun row =>
    if row.In ids ∧ 0 < row.reservedUntil
    then { row with reservedUntil := 0, retryCount := row.retryCount + retryCountDelta } else row

/-- The rows over a retry count, which `m_stmtSelectEventsRetried_maxRetryCount`
selects and `m_stmtDeleteEventsRetried_maxRetryCount` deletes. -/
def retried (maxRetryCount : ℤ) (rows : List EventRow) : List EventRow :=
  rows.filter fun row => maxRetryCount < row.retryCount

/-- The order in which rows are trimmed: persistence and timestamp
rising. -/
def TrimmedBefore (a b : EventRow) : Prop :=
  a.persistence < b.persistence ∨ (a.persistence = b.persistence ∧ a.timestamp ≤ b.timestamp)

instance : DecidableRel TrimmedBefore := fun _ _ => inferInstanceAs (Decidable (_ ∨ _))

/-- The ids `m_stmtTrimEvents_percent` selects. -/
def trimIds (percent : ℕ) (rows : List EventRow) : List StorageRecordId :=
  ((rows.insertionSort TrimmedBefore).take (max 1 (rows.length * percent / 100))).map
    EventRow.recordId

/-- `m_stmtTrimEvents_percent`. -/
def trimEvents (percent : ℕ) (rows : List EventRow) : List EventRow :=
  rows.filter fun row => row.recordId ∉ trimIds percent rows

/-! ## The filter of a delete -/

/-- The columns whose values the formatter puts in double quotes. -/
def quotedColumn (column : String) : Bool := column == "record_id" || column == "tenant_token"

/-- One condition as the formatter writes it. -/
def conditionText (column value : String) : String :=
  column ++ "=" ++ (if quotedColumn column then "\"" ++ value ++ "\"" else value)

/-- The formatter of `OfflineStorage_SQLite::DeleteRecords(whereFilter)`. -/
def whereClause (whereFilter : OrdMap String String) : String :=
  " AND ".intercalate (whereFilter.entries.map fun kv => conditionText kv.1 kv.2)

/-- The names a quoted word of an expression is looked up among before
it is taken for a string. -/
def columnNames : List String :=
  ["record_id", "tenant_token", "latency", "persistence", "timestamp", "retry_count",
    "reserved_until", "payload", "rowid", "oid", "_rowid_"]

/-- **A value that a quoted condition compares with as it stands**: no
quote ends it early, no NUL cuts the statement, and it names no column. -/
def PlainValue (value : String) : Prop :=
  '\x22' ∉ value.toList ∧ '\x00' ∉ value.toList ∧
    String.ofList (value.toList.map Char.toLower) ∉ columnNames

instance (value : String) : Decidable (PlainValue value) := inferInstanceAs (Decidable (_ ∧ _))

/-- What the engine reads one condition of the clause as, where it can be
read off its two halves. -/
def readCondition (column value : String) : Option (EventRow → Bool) :=
  if column = "record_id" then
    if PlainValue value then some fun row => row.recordId == value else none
  else if column = "tenant_token" then
    if PlainValue value then some fun row => row.tenantToken == value else none
  else if column = "latency" then value.toInt?.map fun n row => row.latency == n
  else if column = "persistence" then value.toInt?.map fun n row => row.persistence == n
  else if column = "retry_count" then value.toInt?.map fun n row => row.retryCount == n
  else none

/-- The conditions of a filter, all of them or none. -/
def readFilter : List (String × String) → Option (EventRow → Bool)
  | [] => some fun _ => true
  | (column, value) :: rest =>
    match readCondition column value, readFilter rest with
    | some p, some q => some fun row => p row && q row
    | _, _ => none

end Sql

end ClientTelemetry
