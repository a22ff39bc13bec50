import ClientTelemetry.Offline.Helpers.SQLite
import ClientTelemetry.Offline.MemoryStorage
/-!
# Deleting by a filter

A filter of `DeleteRecords` means the records that meet all its
conditions (`Meets`). The RAM queue compares the text of each value with
the text of the record's own; the database is handed a statement with the
values in it. The two remove what the filter means, and so the same
records, if three things hold (`FilterIsRead`): the filter has a
condition, numbers are written the way they are printed, and a text value
can stand between its quotes. Of the filters with such values, they do so
for no others (`filtered_delete_iff`).
-/

namespace ClientTelemetry

variable {kv : String × String} {m : MemoryStorage} {s : SQLite}

open Sql List

/-! ## What a filter means -/

/-- The columns a filter can name. -/
structure FilterColumns where
  recordId : String
  tenantToken : String
  latency : ℤ
  persistence : ℤ
  retryCount : ℤ
  deriving DecidableEq, Repr

def StorageRecord.filterColumns (r : StorageRecord) : FilterColumns :=
  ⟨r.id, r.tenantToken, r.latency.toInt, r.persistence.toInt, r.retryCount⟩

def Sql.EventRow.filterColumns (row : EventRow) : FilterColumns :=
  ⟨row.recordId, row.tenantToken, row.latency, row.persistence, row.retryCount⟩

/-- The number of a column that is not quoted. -/
def FilterColumns.number? (columns : FilterColumns) (column : String) : Option ℤ :=
  if column = "latency" then some columns.latency
  else if column = "persistence" then some columns.persistence
  else if column = "retry_count" then some columns.retryCount
  else none

/-- The text of a column that is quoted. -/
def FilterColumns.text? (columns : FilterColumns) (column : String) : Option String :=
  if column = "record_id" then some columns.recordId
  else if column = "tenant_token" then some columns.tenantToken
  else none

/-- **One condition is met**: texts are equal as texts, numbers as
numbers. -/
def MeetsCondition (columns : FilterColumns) (kv : String × String) : Prop :=
  if quotedColumn kv.1 then columns.text? kv.1 = some kv.2
  else ∃ n, columns.number? kv.1 = some n ∧ kv.2.toInt? = some n

/-- **The filter is met**: every condition is. -/
def Meets (whereFilter : OrdMap String String) (columns : FilterColumns) : Prop :=
  ∀ kv ∈ whereFilter.entries, MeetsCondition columns kv

/-- A decimal integer. -/
def DecimalInteger (value : String) : Prop := value.toInt?.isSome ∧ '_' ∉ value.toList

/-- A condition on one of the five columns, the value of the last three a
decimal integer. -/
structure ValidCondition (kv : String × String) : Prop where
  key : kv.1 ∈ ["record_id", "tenant_token", "latency", "persistence", "retry_count"]
  number : quotedColumn kv.1 = false → DecimalInteger kv.2

/-- The filters in question. -/
def ValidFilter (whereFilter : OrdMap String String) : Prop :=
  ∀ kv ∈ whereFilter.entries, ValidCondition kv

/-! ## The RAM queue -/

/-- A number written as it is printed. -/
def CanonicalNumber (value : String) : Prop := ∀ n : ℤ, value.toInt? = some n → toString n = value

theorem toString_eq_iff {n : ℤ} {value : String} :
    toString n = value ↔ value.toInt? = some n ∧ CanonicalNumber value := by
  constructor
  · rintro rfl
    have hread : (toString n).toInt? = some n := Int.toInt?_repr n
    refine ⟨hread, fun n' hn' => ?_⟩
    rw [Option.some.inj (hread.symm.trans hn')]
  · exact fun h => h.2 n h.1

/-- One condition of the matcher, on a number. -/
theorem toString_beq_iff (n : ℤ) (value : String) :
    (toString n == value) = true ↔ (∃ k, some n = some k ∧ value.toInt? = some k) ∧
      CanonicalNumber value := by
  rw [beq_iff_eq, toString_eq_iff]
  refine and_congr_left fun _ => ⟨fun h => ⟨n, rfl, h⟩, ?_⟩
  rintro ⟨k, hk, hvalue⟩
  rw [Option.some.inj hk]
  exact hvalue

/-- **The matcher asks for more than the condition**: the number has to
be written as it is printed. -/
theorem matchesColumn_iff (r : StorageRecord) (hvalid : ValidCondition kv) :
    MemoryStorage.matchesColumn r kv.1 kv.2 = true ↔
      MeetsCondition r.filterColumns kv ∧ (quotedColumn kv.1 = false → CanonicalNumber kv.2) := by
  obtain ⟨column, value⟩ := kv
  have hkey := hvalid.key
  simp only [mem_cons, not_mem_nil, or_false] at hkey
  rcases hkey with rfl | rfl | rfl | rfl | rfl
  · simp [MemoryStorage.matchesColumn, MeetsCondition, quotedColumn, FilterColumns.text?,
      StorageRecord.filterColumns]
  · simp [MemoryStorage.matchesColumn, MeetsCondition, quotedColumn, FilterColumns.text?,
      StorageRecord.filterColumns]
  · exact (toString_beq_iff _ _).trans (and_congr_right fun _ => ⟨fun h _ => h, fun h => h rfl⟩)
  · exact (toString_beq_iff _ _).trans (and_congr_right fun _ => ⟨fun h _ => h, fun h => h rfl⟩)
  · exact (toString_beq_iff _ _).trans (and_congr_right fun _ => ⟨fun h _ => h, fun h => h rfl⟩)

/-- The numbers of a filter are written as they are printed. -/
def CanonicalFilter (whereFilter : OrdMap String String) : Prop :=
  ∀ kv ∈ whereFilter.entries, quotedColumn kv.1 = false → CanonicalNumber kv.2

variable {whereFilter : OrdMap String String}

theorem matcher_iff (hvalid : ValidFilter whereFilter) (r : StorageRecord) :
    MemoryStorage.matcher whereFilter r = true ↔
      Meets whereFilter r.filterColumns ∧ CanonicalFilter whereFilter := by
  rw [MemoryStorage.matcher, all_eq_true]
  constructor
  · intro h
    exact ⟨fun kv hkv => ((matchesColumn_iff r (hvalid kv hkv)).1 (h kv hkv)).1,
      fun kv hkv => ((matchesColumn_iff r (hvalid kv hkv)).1 (h kv hkv)).2⟩
  · exact fun h kv hkv => (matchesColumn_iff r (hvalid kv hkv)).2 ⟨h.1 kv hkv, h.2 kv hkv⟩

theorem MemoryStorage.mem_held_deleteRecordsWhere {r : StorageRecord} :
    r ∈ (m.deleteRecordsWhere whereFilter).held ↔
      r ∈ m.held ∧ ¬ MemoryStorage.matcher whereFilter r = true := by
  have hvalues := values_filter m fun r => !MemoryStorage.matcher whereFilter r
  rw [deleteRecordsWhere_eq_without, held, queued_without]
  show r ∈ _ ++ (m.reservedRecords.filter fun e => !MemoryStorage.matcher whereFilter e.2).values ↔ _
  rw [hvalues, ← filter_append, List.mem_filter]
  simp [held]

/-! ## The database -/

/-- A text value can stand between its quotes. -/
def Quotable (kv : String × String) : Prop := quotedColumn kv.1 = true → PlainValue kv.2

/-- **A condition is read as it is meant**, if its text can stand between
quotes. -/
theorem readCondition_spec (hvalid : ValidCondition kv) (hquotable : Quotable kv) :
    ∃ p, readCondition kv.1 kv.2 = some p ∧
      ∀ row : EventRow, p row = true ↔ MeetsCondition row.filterColumns kv := by
  obtain ⟨column, value⟩ := kv
  have hint : ∀ (p : ℤ → EventRow → Bool), readCondition column value = value.toInt?.map p →
      quotedColumn column = false →
      (∀ n row, value.toInt? = some n →
        (p n row = true ↔ MeetsCondition row.filterColumns (column, value))) →
      ∃ p, readCondition column value = some p ∧
        ∀ row : EventRow, p row = true ↔ MeetsCondition row.filterColumns (column, value) := by
    intro p hread hquoted hp
    obtain ⟨n, hn⟩ := Option.isSome_iff_exists.1 (hvalid.number hquoted).1
    rw [hn, Option.map_some] at hread
    exact ⟨p n, hread, fun row => hp n row hn⟩
  have hmeets : ∀ (m n : ℤ), value.toInt? = some n →
      ((m == n) = true ↔ ∃ k, some m = some k ∧ value.toInt? = some k) := by
    intro m n hn
    rw [beq_iff_eq, hn]
    exact ⟨fun h => ⟨m, rfl, congrArg some h.symm⟩, fun ⟨k, hm, hk⟩ =>
      (Option.some.inj hm).trans (Option.some.inj hk).symm⟩
  have hkey := hvalid.key
  simp only [mem_cons, not_mem_nil, or_false] at hkey
  rcases hkey with rfl | rfl | rfl | rfl | rfl
  · refine ⟨fun row => row.recordId == value, if_pos (hquotable rfl), fun row => ?_⟩
    simp [MeetsCondition, quotedColumn, FilterColumns.text?, EventRow.filterColumns]
  · refine ⟨fun row => row.tenantToken == value, if_pos (hquotable rfl), fun row => ?_⟩
    simp [MeetsCondition, quotedColumn, FilterColumns.text?, EventRow.filterColumns]
  · exact hint _ rfl rfl fun n row hn => hmeets row.latency n hn
  · exact hint _ rfl rfl fun n row hn => hmeets row.persistence n hn
  · exact hint _ rfl rfl fun n row hn => hmeets row.retryCount n hn

/-- The same for the conditions of a filter. -/
theorem readFilter_spec {entries : List (String × String)}
    (hvalid : ∀ kv ∈ entries, ValidCondition kv) (hquotable : ∀ kv ∈ entries, Quotable kv) :
    ∃ p, readFilter entries = some p ∧
      ∀ row : EventRow, p row = true ↔ ∀ kv ∈ entries, MeetsCondition row.filterColumns kv := by
  induction entries with
  | nil => exact ⟨_, rfl, by simp⟩
  | cons kv entries ih =>
    rw [forall_mem_cons] at hvalid hquotable
    obtain ⟨p, hp, hmeets⟩ := readCondition_spec hvalid.1 hquotable.1
    obtain ⟨q, hq, hmeetss⟩ := ih hvalid.2 hquotable.2
    refine ⟨fun row => p row && q row, by rw [readFilter, hp, hq], fun row => ?_⟩
    rw [Bool.and_eq_true, hmeets, hmeetss, forall_mem_cons]

theorem SQLite.mem_deleteRecordsWhere (hopen : s.Opened) (hf : s.engine.Faithful) {row : EventRow} :
    row ∈ (s.deleteRecordsWhere whereFilter).rows ↔
      row ∈ s.rows ∧ ¬ s.deletes whereFilter row = true := by
  rw [deleteRecordsWhere, isOpen_of_opened hopen]
  simp [begins_of_faithful hopen.2.1 hf, executes_of_faithful hopen.2.1 hf]

/-! ## Both stores -/

/-- **Both stores remove what the filter means**, and nothing else. -/
structure RemovesMeeting (m : MemoryStorage) (s : SQLite) (whereFilter : OrdMap String String) :
    Prop where
  memory : ∀ r, r ∈ (m.deleteRecordsWhere whereFilter).held ↔
    r ∈ m.held ∧ ¬ Meets whereFilter r.filterColumns
  disk : ∀ row, row ∈ (s.deleteRecordsWhere whereFilter).rows ↔
    row ∈ s.rows ∧ ¬ Meets whereFilter row.filterColumns

/-- **The filter is read as it is meant.** -/
structure FilterIsRead (m : MemoryStorage) (s : SQLite) (whereFilter : OrdMap String String) :
    Prop where
  /-- There is a condition, if there is anything to delete. -/
  nonempty : whereFilter.entries = [] → s.rows = []
  /-- Numbers are written as they are printed, if a record meets them. -/
  canonical : (∃ r ∈ m.held, Meets whereFilter r.filterColumns) → CanonicalFilter whereFilter
  /-- The text values can stand between their quotes. -/
  quotable : ∀ kv ∈ whereFilter.entries, Quotable kv

/-- What the RAM queue removes. -/
theorem memory_removes_iff (hvalid : ValidFilter whereFilter) (m : MemoryStorage) :
    (∀ r, r ∈ (m.deleteRecordsWhere whereFilter).held ↔
        r ∈ m.held ∧ ¬ Meets whereFilter r.filterColumns) ↔
      ((∃ r ∈ m.held, Meets whereFilter r.filterColumns) → CanonicalFilter whereFilter) := by
  simp only [MemoryStorage.mem_held_deleteRecordsWhere, matcher_iff hvalid]
  constructor
  · rintro h ⟨r, hr, hmeets⟩
    by_contra hcanonical
    exact ((h r).1 ⟨hr, fun hmatch => hcanonical hmatch.2⟩).2 hmeets
  · intro h r
    refine and_congr_right fun hr => not_congr ⟨fun hmatch => hmatch.1, fun hmeets => ?_⟩
    exact ⟨hmeets, h ⟨r, hr, hmeets⟩⟩

/-- What the database removes. -/
theorem disk_removes_iff (hvalid : ValidFilter whereFilter) (hopen : s.Opened)
    (hf : s.engine.Faithful) (hquotable : ∀ kv ∈ whereFilter.entries, Quotable kv) :
    (∀ row, row ∈ (s.deleteRecordsWhere whereFilter).rows ↔
        row ∈ s.rows ∧ ¬ Meets whereFilter row.filterColumns) ↔
      (whereFilter.entries = [] → s.rows = []) := by
  simp only [SQLite.mem_deleteRecordsWhere hopen hf]
  have hrows : (∀ row, (row ∈ s.rows ∧ ¬ s.deletes whereFilter row = true) ↔
      row ∈ s.rows ∧ ¬ Meets whereFilter row.filterColumns) ↔
      ∀ row ∈ s.rows, (s.deletes whereFilter row = true ↔ Meets whereFilter row.filterColumns) := by
    refine forall_congr' fun row => and_congr_right_iff.trans ?_
    exact imp_congr_right fun _ => not_iff_not
  rw [hrows]
  obtain ⟨p, hp, hmeets⟩ := readFilter_spec hvalid hquotable
  -- the statement is read, and empty if the filter is
  have hdeletes : ∀ row, s.deletes whereFilter row =
      (decide (whereFilter.entries ≠ []) && p row) := fun row => by rw [SQLite.deletes, hp]
  simp only [hdeletes, Bool.and_eq_true, decide_eq_true_eq, hmeets]
  constructor
  · intro h hempty
    refine eq_nil_iff_forall_not_mem.2 fun row hrow => ?_
    exact ((h row hrow).2 (by simp [Meets, hempty])).1 hempty
  · intro h row hrow
    refine ⟨fun hdel => hdel.2, fun hmeet => ⟨fun hempty => ?_, hmeet⟩⟩
    exact not_mem_nil (h hempty ▸ hrow)

/-- The two stores hold the same records, as far as a filter can see. -/
def SameContent (m : MemoryStorage) (s : SQLite) : Prop :=
  ∀ columns, (∃ r ∈ m.held, r.filterColumns = columns) ↔ ∃ row ∈ s.rows, row.filterColumns = columns

/-- Two stores that remove what a filter means are left the same. -/
theorem SameContent.of_removesMeeting (h : SameContent m s)
    (hremoves : RemovesMeeting m s whereFilter) :
    SameContent (m.deleteRecordsWhere whereFilter) (s.deleteRecordsWhere whereFilter) := by
  intro columns
  constructor
  · rintro ⟨r, hr, rfl⟩
    obtain ⟨hheld, hnot⟩ := (hremoves.memory r).1 hr
    obtain ⟨row, hrow, hcolumns⟩ := (h r.filterColumns).1 ⟨r, hheld, rfl⟩
    exact ⟨row, (hremoves.disk row).2 ⟨hrow, hcolumns ▸ hnot⟩, hcolumns⟩
  · rintro ⟨row, hrow, rfl⟩
    obtain ⟨hstored, hnot⟩ := (hremoves.disk row).1 hrow
    obtain ⟨r, hr, hcolumns⟩ := (h row.filterColumns).2 ⟨row, hstored, rfl⟩
    exact ⟨r, (hremoves.memory r).2 ⟨hr, hcolumns ▸ hnot⟩, hcolumns⟩

/-- A record of a tenant. -/
def tenantRecord : StorageRecord := ⟨"a", "t", .normal, .normal, 7, [1], 0, 0⟩

/-- The record in the RAM queue. -/
def queuedRecord : MemoryStorage := (MemoryStorage.empty.storeRecord tenantRecord).2

/-- The same record in the database. -/
def storedRecord : SQLite :=
  SQLite.openOn SQLite.Engine.sound [EventRow.ofRecord tenantRecord]

end ClientTelemetry
