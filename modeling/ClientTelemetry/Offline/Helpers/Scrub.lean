import ClientTelemetry.Offline.Helpers.Handler
import ClientTelemetry.Offline.Helpers.SQLite
import ClientTelemetry.Offline.MemoryStorage
/-!
# Scrubbing both stores

The delete of killed tenants as one filter on each store. In RAM the
filter is exact whatever is held (`scrub_records`); on disk it goes
through the text of a statement, and is exact for the tokens whose text
reads as what was meant (`scrub_eq`). What `handleHeaders` does to the
two stores is that scrub, over the keys `scrubKeys` (`handleHeaders_memory`,
`handleHeaders_disk`).
-/

namespace ClientTelemetry

open List

/-- The filter of a scrub. -/
def byTenant (token : String) : OrdMap String String := OrdMap.singleton "tenant_token" token

/-! ## In RAM -/

namespace MemoryStorage

variable {m : MemoryStorage} {tokens : List String} {r : StorageRecord} {ids : List StorageRecordId}
  {tenant : String}

theorem matcher_byTenant (token : String) (r : StorageRecord) :
    matcher (byTenant token) r = (r.tenantToken == token) := by
  simp [matcher, byTenant, OrdMap.singleton, matchesColumn]

/-- The RAM store after the scrub of several tenants. -/
def scrub (m : MemoryStorage) (tokens : List String) : MemoryStorage :=
  tokens.foldl (fun m token => m.deleteRecordsWhere (byTenant token)) m

@[simp] theorem scrub_nil : m.scrub [] = m := rfl

@[simp] theorem scrub_cons (token : String) (tokens : List String) :
    m.scrub (token :: tokens) = (m.deleteRecordsWhere (byTenant token)).scrub tokens := rfl

/-- **A scrub filters every queue.** -/
theorem scrub_records (m : MemoryStorage) (tokens : List String) (l : Fin 5) :
    (m.scrub tokens).records l = (m.records l).filter (·.tenantToken ∉ tokens) := by
  induction tokens generalizing m with
  | nil => simp
  | cons token tokens ih =>
    rw [scrub_cons, ih, deleteRecordsWhere_eq, filter_filter]
    refine filter_congr fun r _ => ?_
    rw [matcher_byTenant]
    by_cases h : r.tenantToken = token <;> simp [h]

/-- **And the reserved map.** -/
theorem scrub_reserved (m : MemoryStorage) (tokens : List String) :
    (m.scrub tokens).reservedRecords =
      m.reservedRecords.filter fun e => e.2.tenantToken ∉ tokens := by
  induction tokens generalizing m with
  | nil => exact OrdMap.ext (by simp [OrdMap.filter])
  | cons token tokens ih =>
    rw [scrub_cons, ih, deleteRecordsWhere_eq]
    refine OrdMap.ext ?_
    simp only [OrdMap.filter, filter_filter]
    refine filter_congr fun e _ => ?_
    rw [matcher_byTenant]
    by_cases h : e.2.tenantToken = token <;> simp [h]

theorem mem_scrub_queued :
    r ∈ (m.scrub tokens).queued ↔ r ∈ m.queued ∧ r.tenantToken ∉ tokens := by
  simp only [mem_queued, scrub_records, List.mem_filter, decide_eq_true_eq]
  exact ⟨fun ⟨l, h, ht⟩ => ⟨⟨l, h⟩, ht⟩, fun ⟨⟨l, h⟩, ht⟩ => ⟨l, h, ht⟩⟩

theorem mem_scrub_reserved : r ∈ (m.scrub tokens).reservedRecords.values ↔
      r ∈ m.reservedRecords.values ∧ r.tenantToken ∉ tokens := by
  rw [scrub_reserved, values_filter m fun r => r.tenantToken ∉ tokens, List.mem_filter,
    decide_eq_true_eq]

/-- A scrub keeps the books. -/
theorem Accounted.scrub (h : m.Accounted) (tokens : List String) : (m.scrub tokens).Accounted := by
  induction tokens generalizing m with
  | nil => exact h
  | cons token tokens ih =>
    rw [scrub_cons, deleteRecordsWhere_eq_without]
    exact ih (h.without _)

/-! ### Tenants held -/

/-- The tenants of the records held. -/
def Holds (m : MemoryStorage) (tenant : String) : Prop := ∃ r ∈ m.held, r.tenantToken = tenant

/-- A removal by ids brings no tenant in. -/
theorem Holds.of_deleteRecords
    (h : (m.deleteRecords ids).Holds tenant) : m.Holds tenant := by
  obtain ⟨r, hr, ht⟩ := h
  exact ⟨r, held_deleteRecords_subset ids hr, ht⟩

theorem released_tenantToken (inc : Bool) (r : StorageRecord) :
    (released inc r).tenantToken = r.tenantToken := by
  unfold released
  split_ifs <;> rfl

/-- A release brings no tenant in. -/
theorem Holds.of_releaseRecords {inc : Bool}
    (h : (m.releaseRecords ids inc).Holds tenant) : m.Holds tenant := by
  obtain ⟨r, hr, ht⟩ := h
  rcases mem_held_releaseRecords hr with hr | ⟨r₀, hr₀, rfl⟩
  · exact ⟨r, hr, ht⟩
  · exact ⟨r₀, hr₀, released_tenantToken inc r₀ ▸ ht⟩

end MemoryStorage

/-! ## On disk -/

namespace SQLite

open Sql

variable {s : SQLite} {token tenant : String} {ids : List StorageRecordId}

/-- The database after the scrub of several tenants. -/
def scrub (s : SQLite) (tokens : List String) : SQLite :=
  tokens.foldl (fun s token => s.deleteRecordsWhere (byTenant token)) s

@[simp] theorem scrub_nil : s.scrub [] = s := rfl

@[simp] theorem scrub_cons (token : String) (tokens : List String) :
    s.scrub (token :: tokens) = (s.deleteRecordsWhere (byTenant token)).scrub tokens := rfl

/-- A plain token's delete compares the tenant with it. -/
theorem deletes_byTenant (h : PlainValue token) (row : EventRow) :
    s.deletes (byTenant token) row = (row.tenantToken == token) := by
  simp [deletes, byTenant, OrdMap.singleton, readFilter, readCondition, h]

theorem deleteRecordsWhere_byTenant (hopen : s.Opened) (hf : s.engine.Faithful)
    (h : PlainValue token) : s.deleteRecordsWhere (byTenant token) =
      { s with rows := s.rows.filter fun row => row.tenantToken != token } := by
  rw [deleteRecordsWhere, isOpen_of_opened hopen]
  simp only [begins_of_faithful hopen.2.1 hf, executes_of_faithful hopen.2.1 hf,
    deletes_byTenant h]
  rfl

/-- **A scrub of plain tokens filters the table.** -/
theorem scrub_eq (hopen : s.Opened) (hf : s.engine.Faithful) {tokens : List String}
    (h : ∀ token ∈ tokens, PlainValue token) :
    s.scrub tokens = { s with rows := s.rows.filter fun row => row.tenantToken ∉ tokens } := by
  induction tokens generalizing s with
  | nil => simp
  | cons token tokens ih =>
    have hrest := ih (s := { s with rows := s.rows.filter fun row => row.tenantToken != token })
      hopen hf fun t ht => h t (mem_cons_of_mem _ ht)
    rw [scrub_cons, deleteRecordsWhere_byTenant hopen hf (h token mem_cons_self), hrest]
    simp only [filter_filter, SQLite.mk.injEq, and_true]
    refine filter_congr fun row _ => ?_
    by_cases ht : row.tenantToken = token <;> simp [ht]

/-- The tenants of the rows. -/
def Holds (s : SQLite) (tenant : String) : Prop := ∃ row ∈ s.rows, row.tenantToken = tenant

/-- Blocks handled one after the other, none of which brings a tenant in. -/
theorem tenants_foldl {effect : List EventRow → List StorageRecordId → List EventRow}
    (heffect : ∀ rows block, ∀ row ∈ effect rows block,
      ∃ row₀ ∈ rows, row₀.tenantToken = row.tenantToken)
    (bs : List (List StorageRecordId)) (rows : List EventRow) :
    ∀ row ∈ bs.foldl effect rows, ∃ row₀ ∈ rows, row₀.tenantToken = row.tenantToken := by
  induction bs generalizing rows with
  | nil => exact fun row hrow => ⟨row, hrow, rfl⟩
  | cons block bs ih =>
    intro row hrow
    obtain ⟨row₁, hrow₁, h₁⟩ := ih _ row hrow
    obtain ⟨row₀, hrow₀, h₀⟩ := heffect _ _ row₁ hrow₁
    exact ⟨row₀, hrow₀, h₀.trans h₁⟩

theorem handleOpen_of_begins {t : Txn} (h : s.begins t = true) : s.handleOpen = true :=
  (Bool.and_eq_true_iff.1 h).1

/-- A removal by ids brings no tenant in. -/
theorem Holds.of_deleteRecords (hf : s.engine.Faithful)
    (h : (s.deleteRecords ids).Holds tenant) : s.Holds tenant := by
  obtain ⟨row, hrow, ht⟩ := h
  unfold deleteRecords at hrow
  split_ifs at hrow with hnil hdb hbegin
  · exact ⟨row, hrow, ht⟩
  · exact ⟨row, hrow, ht⟩
  · exact ⟨row, hrow, ht⟩
  · have hopen := handleOpen_of_begins (by simpa using hbegin)
    rw [overBlocks_faithful hopen hf] at hrow
    obtain ⟨row₀, hrow₀, h₀⟩ := tenants_foldl
      (fun rows block row hrow => ⟨row, mem_of_mem_filter hrow, rfl⟩) _ _ row hrow
    exact ⟨row₀, hrow₀, h₀.trans ht⟩

theorem releaseEvents_tenants (ids : List (Option String)) (delta : ℤ) (rows : List EventRow) :
    ∀ row ∈ releaseEvents ids delta rows,
      ∃ row₀ ∈ rows, row₀.tenantToken = row.tenantToken := by
  intro row hrow
  obtain ⟨row₀, hrow₀, rfl⟩ := mem_map.1 hrow
  refine ⟨row₀, hrow₀, ?_⟩
  split_ifs <;> rfl

/-- The rows of a release whose statements run: the blocks one after the
other, then the rows retried too often go, when attempts are counted. -/
theorem releaseRecords_rows (hopen : s.handleOpen = true) (hf : s.engine.Faithful)
    (hdb : s.hasDb = true) (hids : ids ≠ []) (inc : Bool) : (s.releaseRecords ids inc).rows =
      ((idBlocks ids).foldl (fun rows block =>
        releaseEvents (idsTable (packageIdList block)) (if inc then 1 else 0) rows)
        s.rows).filter fun row => !inc || decide (row.retryCount ≤ (s.maxRetryCount : ℤ)) := by
  unfold releaseRecords
  rw [if_neg hids]
  simp only [hdb, begins_of_faithful hopen hf, overBlocks_faithful hopen hf,
    executes_of_faithful hopen hf]
  rcases inc with _ | _
  · simp
  · simp only [Bool.not_true, Bool.false_eq_true, if_false, if_true, Bool.false_or]
    split_ifs <;> rfl

/-- A release brings no tenant in. -/
theorem Holds.of_releaseRecords (hf : s.engine.Faithful) {inc : Bool}
    (h : (s.releaseRecords ids inc).Holds tenant) : s.Holds tenant := by
  obtain ⟨row, hrow, ht⟩ := h
  by_cases hrun : ids ≠ [] ∧ s.hasDb = true ∧ s.begins .release = true
  · obtain ⟨hids, hdb, hbegin⟩ := hrun
    rw [releaseRecords_rows (handleOpen_of_begins hbegin) hf hdb hids] at hrow
    obtain ⟨row₀, hrow₀, h₀⟩ := tenants_foldl
      (fun rows block => releaseEvents_tenants (idsTable (packageIdList block)) _ rows) _ _ row
      (mem_of_mem_filter hrow)
    exact ⟨row₀, hrow₀, h₀.trans ht⟩
  · -- a release that does not get to its statements leaves the table
    have hsame : s.releaseRecords ids inc = s := by
      unfold releaseRecords
      split_ifs with hids hdb hbegin <;> simp_all
    exact ⟨row, hsame ▸ hrow, ht⟩

end SQLite

/-! ## The headers of a response -/

namespace Handler

variable {δ : Type} {D : DiskStorage δ} {h : Handler δ} {headers : HttpHeaders} {now : ℕ}

/-- The tenants a response makes the handler scrub. -/
def scrubKeys (h : Handler δ) (headers : HttpHeaders) (now : ℕ) : List String :=
  if headers = [] then []
  else
    match h.killSwitchManager.handleResponse (utcSeconds now) headers with
    | (.ok true, k) => k.getTokensList
    | _ => []

/-- The persistent store after the scrub of several tenants. -/
def scrubDisk (D : DiskStorage δ) (d : δ) (tokens : List String) : δ :=
  tokens.foldl (fun d token => D.deleteRecordsWhere d (byTenant token)) d

theorem deleteRecordsByKeys_memory (keys : List String) :
    (h.deleteRecordsByKeys D keys).memory = h.memory.map (·.scrub keys) := by
  unfold deleteRecordsByKeys
  induction keys generalizing h with
  | nil => simp
  | cons key keys ih =>
    rw [foldl_cons, ih]
    rcases hm : h.memory with _ | m <;> simp [deleteRecordsWhere, hm, byTenant]

theorem deleteRecordsByKeys_disk (keys : List String) :
    (h.deleteRecordsByKeys D keys).disk = h.disk.map (scrubDisk D · keys) := by
  unfold deleteRecordsByKeys
  induction keys generalizing h with
  | nil => simp [scrubDisk]
  | cons key keys ih =>
    rw [foldl_cons, ih]
    rcases hd : h.disk with _ | d <;> simp [deleteRecordsWhere, hd, byTenant, scrubDisk]

/-- **The headers scrub the RAM store** of the keys they leave in the
table, if they kill. -/
theorem handleHeaders_memory : (h.handleHeaders D headers now).2.memory =
    h.memory.map (·.scrub (h.scrubKeys headers now)) := by
  unfold handleHeaders scrubKeys
  dsimp only
  by_cases hnil : headers = []
  · simp [hnil]
  · rw [if_neg hnil, if_neg hnil]
    rcases h.killSwitchManager.handleResponse (utcSeconds now) headers with ⟨_ | killed, k⟩
    · simp
    · rcases killed with _ | _
      · simp
      · exact deleteRecordsByKeys_memory _

/-- **And the persistent store.** -/
theorem handleHeaders_disk : (h.handleHeaders D headers now).2.disk =
    h.disk.map (scrubDisk D · (h.scrubKeys headers now)) := by
  unfold handleHeaders scrubKeys
  dsimp only
  by_cases hnil : headers = []
  · simp [hnil, scrubDisk]
  · rw [if_neg hnil, if_neg hnil]
    rcases h.killSwitchManager.handleResponse (utcSeconds now) headers with ⟨_ | killed, k⟩
    · simp [scrubDisk]
    · rcases killed with _ | _
      · simp [scrubDisk]
      · exact deleteRecordsByKeys_disk _

end Handler

end ClientTelemetry
