import ClientTelemetry.Offline.Helpers.DiskCalls
/-!
# The size limit on disk

`OfflineStorage_SQLite::ResizeDb` has two ways of making room. Over the
limit it trims a quarter of the table, the least valuable records first,
and dispatches their number. Over twice the limit it deletes the whole
table and tells nobody; and as the limit 0, which `StoreRecord` takes for
no limit, is exceeded twice over by any file, the resize that ends every
initialisation empties a database without a limit. So the size takes only
what it should, and says so, exactly where the table is empty or the file
within twice the limit (`size_trimming_iff`).
-/

namespace ClientTelemetry

open Sql SQLite List

/-! ## The calls -/

/-- The calls on the on-disk store that can change the table. -/
inductive StorageOp where
  | initializeStorage
  | shutdown
  | storeRecord (record : StorageRecord)
  | storeRecords (records : List StorageRecord)
  | getAndReserveRecords (consumer : Consumer StorageRecord) (leaseTimeMs : ℕ)
      (minLatency : EventLatency) (maxCount : ℕ)
  | deleteRecordsWhere (whereFilter : OrdMap String String)
  | deleteAllRecords
  | deleteRecords (ids : List StorageRecordId)
  | releaseRecords (ids : List StorageRecordId) (incrementRetryCount : Bool)
  | resizeDb

/-- The store after a call at a time. -/
def StorageOp.step (s : SQLite) (now : ℕ) : StorageOp → SQLite
  | initializeStorage => s.initializeStorage
  | shutdown => s.shutdown
  | storeRecord record => (s.storeRecord record now).2
  | storeRecords records => (s.storeRecords records now).2
  | getAndReserveRecords c leaseTimeMs minLatency maxCount =>
    (s.getAndReserveRecords c.accept c.start leaseTimeMs minLatency maxCount now).2.2
  | deleteRecordsWhere whereFilter => s.deleteRecordsWhere whereFilter
  | deleteAllRecords => s.deleteAllRecords
  | deleteRecords ids => s.deleteRecords ids
  | releaseRecords ids inc => s.releaseRecords ids inc
  | resizeDb => s.resizeDb.2

namespace SQLite

variable {s t : SQLite} {rows : List EventRow}

/-! ## What the size limit promises -/

/-- The size of the file. -/
def fileSize (s : SQLite) : ℕ := s.engine.pageCount s.rows * s.pageSize

/-- The records a change of the table takes away. -/
def removed (rows rows' : List EventRow) : List EventRow := rows.filter fun row => row ∉ rows'

/-- **A trim takes the least valuable records.** Over a limit, but not
over twice the limit, a resize takes a record if there is one, and none
that comes after one it leaves. -/
def TrimsLeastValuable (s : SQLite) : Prop :=
  s.dbSizeLimit ≠ 0 → s.dbSizeLimit < s.fileSize → s.fileSize ≤ 2 * s.dbSizeLimit →
    (s.rows ≠ [] → removed s.rows s.resizeDb.2.rows ≠ []) ∧
      ∀ row ∈ removed s.rows s.resizeDb.2.rows, ∀ kept ∈ s.resizeDb.2.rows,
        TrimmedBefore row kept

/-- The same store over a file that takes no page: what a call leaves
there is what it leaves where nothing goes for the size. -/
def pageless (s : SQLite) : SQLite :=
  { s with engine := { s.engine with pageCount := fun _ => 0 } }

/-- **Without a limit nothing goes for the size**, whether the call finds
the store open or shut down. -/
def KeepsUnlimited (s : SQLite) : Prop :=
  s.dbSizeLimit = 0 → ∀ t, t = s ∨ t = s.shutdown → ∀ now op,
    (StorageOp.step t now op).rows = (StorageOp.step t.pageless now op).rows

/-- **What a resize takes is reported**, by one event with the number of
records. -/
def ReportsRemoved (s : SQLite) : Prop :=
  removed s.rows s.resizeDb.2.rows ≠ [] →
    s.resizeDb.2.notices =
      s.notices ++ [.eventsDropped (removed s.rows s.resizeDb.2.rows).length]

/-- The table is empty or the file within twice the limit. -/
def WithinTwice (s : SQLite) : Prop := s.rows = [] ∨ s.fileSize ≤ 2 * s.dbSizeLimit

instance (s : SQLite) : Decidable s.WithinTwice := inferInstanceAs (Decidable (_ ∨ _))

/-! ## The trim -/

instance : Std.Total TrimmedBefore where
  total a b := by
    unfold TrimmedBefore
    omega

instance : IsTrans EventRow TrimmedBefore where
  trans a b c hab hbc := by
    unfold TrimmedBefore at *
    omega

theorem removed_filter (rows : List EventRow) (p : EventRow → Bool) :
    removed rows (rows.filter p) = rows.filter fun row => !p row := by
  refine filter_congr fun row hrow => ?_
  simp [hrow]

theorem length_removed_filter (rows : List EventRow) (p : EventRow → Bool) :
    (removed rows (rows.filter p)).length = rows.length - (rows.filter p).length := by
  have hsplit := rows.length_eq_length_filter_add p
  rw [removed_filter]
  omega

/-- **What a trim takes comes before what it leaves**, where the ids are
distinct. -/
theorem trimmedBefore_of_trimEvents
    (hids : (rows.map EventRow.recordId).Nodup) (percent : ℕ) {row kept : EventRow}
    (hrow : row ∈ removed rows (trimEvents percent rows)) (hkept : kept ∈ trimEvents percent rows) :
    TrimmedBefore row kept := by
  set sorted := rows.insertionSort TrimmedBefore with hsorted
  set n := max 1 (rows.length * percent / 100) with hn
  rw [trimEvents, removed_filter, List.mem_filter] at hrow
  obtain ⟨hmem, hid⟩ := hrow
  obtain ⟨hkeptmem, hkeptid⟩ := List.mem_filter.1 hkept
  have hid' : row.recordId ∈ (sorted.take n).map EventRow.recordId := by simpa [trimIds] using hid
  have hkeptid' : kept.recordId ∉ (sorted.take n).map EventRow.recordId := by
    simpa [trimIds] using hkeptid
  -- the id names one row, so the row itself is among those selected
  have htaken : row ∈ sorted.take n := by
    obtain ⟨row', hrow', heq⟩ := mem_map.1 hid'
    have hmem' : row' ∈ rows := (mem_insertionSort _).1 (mem_of_mem_take hrow')
    rwa [← inj_on_of_nodup_map hids hmem' hmem heq]
  have hleft : kept ∈ sorted.drop n := by
    have hall : kept ∈ sorted.take n ++ sorted.drop n := by
      rw [take_append_drop]
      exact (mem_insertionSort _).2 hkeptmem
    refine (mem_append.1 hall).resolve_left fun htake => hkeptid' ?_
    exact mem_map_of_mem htake
  have hpair : (sorted.take n ++ sorted.drop n).Pairwise TrimmedBefore := by
    rw [take_append_drop]
    exact pairwise_insertionSort _ rows
  exact (pairwise_append.1 hpair).2.2 row htaken kept hleft

/-- A trim takes at least one record. -/
theorem removed_trimEvents_ne_nil (h : rows ≠ []) (percent : ℕ) :
    removed rows (trimEvents percent rows) ≠ [] := by
  obtain ⟨first, rest, hsorted⟩ : ∃ first rest,
      rows.insertionSort TrimmedBefore = first :: rest := by
    refine exists_cons_of_ne_nil fun hnil => h ?_
    have hlen := congrArg List.length hnil
    rwa [length_insertionSort, length_nil, length_eq_zero_iff] at hlen
  have hmem : first ∈ rows := by
    rw [← mem_insertionSort TrimmedBefore, hsorted]
    exact mem_cons_self
  have hid : first.recordId ∈ trimIds percent rows := by
    obtain ⟨n, hn⟩ : ∃ n, max 1 (rows.length * percent / 100) = n + 1 :=
      Nat.exists_eq_succ_of_ne_zero (by omega)
    rw [trimIds, hsorted, hn, take_succ_cons, map_cons]
    exact mem_cons_self
  refine ne_nil_of_mem (List.mem_filter.2 ⟨hmem, ?_⟩ : first ∈ _)
  simp [trimEvents, hid]

/-! ## A resize -/

theorem Live.getSize_eq (h : s.Live) : s.getSize = s.fileSize := by
  simp [getSize, h.opened.1, h.executes, fileSize]

/-- **A resize in one equation.** -/
theorem Live.resizeDb_eq (h : s.Live) : (s.resizeDb.2.rows, s.resizeDb.2.notices) =
      if s.fileSize ≤ s.dbSizeLimit then (s.rows, s.notices)
      else if 2 * s.dbSizeLimit < s.fileSize then ([], s.notices)
      else (trimEvents 25 s.rows,
        s.notices ++ [.eventsDropped (s.rows.length - (trimEvents 25 s.rows).length)]) := by
  have hlive : ({ s with dbSizeEstimate := s.fileSize } : SQLite).Live := ⟨h.opened, h.faithful⟩
  unfold resizeDb
  rw [if_neg (by simp [h.opened.1]), h.getSize_eq]
  simp only [hlive.begins, hlive.executes, Bool.not_true, Bool.false_eq_true, if_false, if_true]
  split_ifs <;> rfl

/-- An empty table stays empty. -/
theorem rows_resizeDb_nil (h : s.rows = []) : s.resizeDb.2.rows = [] :=
  sublist_nil.1 (h ▸ rows_resizeDb_sublist s)

/-- A file of no size is not resized. -/
theorem rows_resizeDb_of_size_zero (h : s.fileSize = 0) : s.resizeDb.2.rows = s.rows := by
  have hsize : s.getSize = 0 := by
    unfold getSize
    split_ifs
    · rfl
    · rfl
    · exact h
  unfold resizeDb
  split_ifs with hdb
  · rfl
  · simp [hsize]

/-- Without a limit, a file within twice the limit is not resized. -/
theorem WithinTwice.rows_resizeDb (h : s.WithinTwice) (hlimit : s.dbSizeLimit = 0) :
    s.resizeDb.2.rows = s.rows := by
  rcases h with hnil | hsize
  · rw [rows_resizeDb_nil hnil, hnil]
  · exact rows_resizeDb_of_size_zero (by omega)

section

variable (s : SQLite)

theorem pageless_resizeDb : s.pageless.resizeDb.2.rows = s.rows :=
  rows_resizeDb_of_size_zero (Nat.zero_mul _)

/-! ## The other calls -/

theorem pageless_rows : s.pageless.rows = s.rows := rfl

theorem pageless_maxRetryCount : s.pageless.maxRetryCount = s.maxRetryCount := rfl

theorem walk_pageless {κ : Type} (c : κ → StorageRecord → Bool × κ) (k : κ)
    (minLatency : EventLatency) (maxCount now : ℕ) :
    s.pageless.walk c k minLatency maxCount now = s.walk c k minLatency maxCount now := rfl

end

theorem Live.pageless (h : s.Live) : s.pageless.Live where
  opened := h.opened
  faithful := ⟨h.faithful.begins, h.faithful.executes, h.faithful.breaksAfter⟩

theorem Plain.pageless (h : s.Plain) : s.pageless.Plain where
  toLive := h.toLive.pageless
  unlimited := h.unlimited

/-- A store without a limit does not look at the size. -/
theorem Plain.rows_storeRecord_congr (hs : s.Plain) (ht : t.Plain) (h : s.rows = t.rows)
    (r : StorageRecord) (now : ℕ) :
    (s.storeRecord r now).2.rows = (t.storeRecord r now).2.rows := by
  by_cases hr : InvalidParameters r
  · rw [storeRecord, if_pos hr, storeRecord, if_pos hr]
    exact h
  · rw [hs.rows_storeRecord hr, ht.rows_storeRecord hr, h]

/-- Nor does the store of a batch. -/
theorem Plain.rows_storeRecords_congr (hs : s.Plain) (ht : t.Plain) (h : s.rows = t.rows)
    (records : List StorageRecord) (now : ℕ) :
    (s.storeRecords records now).2.rows = (t.storeRecords records now).2.rows := by
  rw [storeRecords_snd, storeRecords_snd]
  induction records generalizing s t with
  | nil => exact h
  | cons r records ih =>
    refine ih ?_ ?_ ?_
    · exact hs.of_sameStore (storeRecord_frame s r now).1
    · exact ht.of_sameStore (storeRecord_frame t r now).1
    · exact hs.rows_storeRecord_congr ht h r now

/-- A file that is created anew is empty. -/
theorem rows_recreate (s : SQLite) (failureCode : ℕ) :
    (s.recreate failureCode).2.rows = if s.hasDb && s.engine.deletesFile then [] else s.rows := by
  unfold recreate
  dsimp only
  split
  case isTrue hnew =>
    have hfile : (s.hasDb && s.engine.deletesFile) = true := (Bool.and_eq_true_iff.1 hnew).1
    rw [if_pos hfile]
    exact rows_resizeDb_nil rfl
  case isFalse => rfl

/-- **What an initialisation leaves in the table**: what the resize that
ends it leaves, or a new table. -/
theorem rows_initializeStorage (s : SQLite) : s.initializeStorage.rows =
      if s.engine.opens then
        ({ s with hasDb := true, handleOpen := true } : SQLite).resizeDb.2.rows
      else if s.engine.deletesFile then [] else s.rows := by
  have hrecreate := rows_recreate { s with hasDb := true } 1
  unfold initializeStorage
  dsimp only
  split_ifs with hopens hfile
  · rfl
  · rw [hfile] at hrecreate
    split <;> simp_all
  · split <;> simp_all

/-- An initialisation without a limit takes nothing for the size, where
the file is within twice the limit. -/
theorem WithinTwice.rows_initializeStorage (h : s.WithinTwice) (hlimit : s.dbSizeLimit = 0) :
    s.initializeStorage.rows = s.pageless.initializeStorage.rows := by
  have hopened : ({ s with hasDb := true, handleOpen := true } : SQLite).resizeDb.2.rows = s.rows :=
    WithinTwice.rows_resizeDb h hlimit
  have hpageless : ({ s.pageless with hasDb := true, handleOpen := true } : SQLite).resizeDb.2.rows =
      s.rows := rows_resizeDb_of_size_zero (Nat.zero_mul _)
  rw [SQLite.rows_initializeStorage, SQLite.rows_initializeStorage, hopened, hpageless]
  rfl

theorem rows_shutdown (s : SQLite) : s.shutdown.rows = s.rows := by
  unfold shutdown
  split_ifs <;> rfl

/-- **No call on an open store without a limit looks at the size**, but
the initialisation and the resize. -/
theorem Plain.rows_step (h : s.Plain) (hwithin : s.WithinTwice) (now : ℕ) (op : StorageOp) :
    (StorageOp.step s now op).rows = (StorageOp.step s.pageless now op).rows := by
  -- the reads and deletes come to one equation over a faithful engine, in which no size occurs
  cases op with
  | initializeStorage => exact hwithin.rows_initializeStorage h.unlimited
  | shutdown => exact (rows_shutdown s).trans (rows_shutdown s.pageless).symm
  | storeRecord record => exact h.rows_storeRecord_congr h.pageless rfl record now
  | storeRecords records => exact h.rows_storeRecords_congr h.pageless rfl records now
  | getAndReserveRecords c leaseTimeMs minLatency maxCount =>
    simp only [StorageOp.step]
    rw [getAndReserveRecords_blocks h.opened.1 h.opened.2.1 h.faithful,
      getAndReserveRecords_blocks h.pageless.opened.1 h.pageless.opened.2.1 h.pageless.faithful]
    rw [walk_pageless, pageless_rows]
    split_ifs <;> rfl
  | deleteRecordsWhere whereFilter =>
    simp only [StorageOp.step, deleteRecordsWhere, isOpen_of_opened h.opened, h.begins, h.executes,
      isOpen_of_opened h.pageless.opened, h.pageless.begins, h.pageless.executes, Bool.not_true,
      Bool.false_eq_true, if_false]
    rfl
  | deleteAllRecords =>
    simp only [StorageOp.step, deleteAllRecords, h.opened.1, h.executes, h.pageless.opened.1,
      h.pageless.executes, Bool.and_true, if_true]
  | deleteRecords ids =>
    simp only [StorageOp.step]
    rw [h.deleteRecords_eq, h.pageless.deleteRecords_eq]
    split_ifs <;> rfl
  | releaseRecords ids inc =>
    simp only [StorageOp.step]
    rw [h.releaseRecords_eq, h.pageless.releaseRecords_eq, pageless_rows, pageless_maxRetryCount]
    dsimp only
    split_ifs <;> rfl
  | resizeDb => exact (hwithin.rows_resizeDb h.unlimited).trans (pageless_resizeDb s).symm

/-! ## A store that is shut down -/

section

variable (hdb : s.hasDb = false)
include hdb

/-- A store that is shut down refuses a record. -/
theorem storeRecord_closed (r : StorageRecord) (now : ℕ) :
    ∃ n, (s.storeRecord r now).2 = s.notify n := by
  have hrefuses : ¬ s.Accepts r := fun h => Bool.false_ne_true (hdb.symm.trans h.2.1)
  obtain ⟨n, heq⟩ := storeRecord_of_not_accepts now hrefuses
  exact ⟨n, congrArg Prod.snd heq⟩

theorem rows_storeRecords_closed (records : List StorageRecord) (now : ℕ) :
    (s.storeRecords records now).2.rows = s.rows := by
  rw [storeRecords_snd]
  induction records generalizing s with
  | nil => rfl
  | cons r records ih =>
    obtain ⟨n, heq⟩ := storeRecord_closed hdb r now
    rw [foldl_cons, heq]
    exact ih hdb

/-- **A call on a store that is shut down leaves the table alone**, but
an initialisation. -/
theorem rows_step_closed (now : ℕ) {op : StorageOp}
    (hop : op ≠ .initializeStorage) : (StorageOp.step s now op).rows = s.rows := by
  cases op with
  | initializeStorage => exact absurd rfl hop
  | shutdown => exact rows_shutdown s
  | storeRecord record =>
    obtain ⟨n, heq⟩ := storeRecord_closed hdb record now
    exact (congrArg rows heq : _ = (s.notify n).rows)
  | storeRecords records => exact rows_storeRecords_closed hdb records now
  | getAndReserveRecords c leaseTimeMs minLatency maxCount =>
    simp [StorageOp.step, getAndReserveRecords, retrieve, hdb]
  | deleteRecordsWhere whereFilter =>
    simp [StorageOp.step, deleteRecordsWhere, isOpen, hdb, notify]
  | deleteAllRecords => simp [StorageOp.step, deleteAllRecords, hdb]
  | deleteRecords ids => simp [StorageOp.step, deleteRecords, hdb]
  | releaseRecords ids inc => simp [StorageOp.step, releaseRecords, hdb]
  | resizeDb => simp [StorageOp.step, resizeDb, hdb]

end

theorem Live.hasDb_shutdown (h : s.Live) : s.shutdown.hasDb = false := by
  simp [shutdown, h.opened.1, h.opened.2.2]

/-! ## The three promises -/

/-- The trim between the limit and twice the limit. -/
theorem Live.trimsLeastValuable (h : s.Live) (hids : (s.rows.map EventRow.recordId).Nodup) :
    s.TrimsLeastValuable := by
  intro _ hover htwice
  have heq := h.resizeDb_eq
  rw [if_neg hover.not_ge, if_neg htwice.not_gt] at heq
  have hrows : s.resizeDb.2.rows = trimEvents 25 s.rows := congrArg Prod.fst heq
  rw [hrows]
  exact ⟨fun hne => removed_trimEvents_ne_nil hne 25,
    fun row hrow kept hkept => trimmedBefore_of_trimEvents hids 25 hrow hkept⟩

/-- **What the calls keep without a limit**, within twice the limit. -/
theorem Live.keepsUnlimited (h : s.Live) (hwithin : s.WithinTwice) : s.KeepsUnlimited := by
  rintro hlimit t (rfl | rfl) now op
  · exact Plain.rows_step ⟨h, hlimit⟩ hwithin now op
  · have hrows : s.shutdown.rows = s.rows := rows_shutdown s
    by_cases hop : op = .initializeStorage
    · subst hop
      have hclosed : s.shutdown.WithinTwice := by
        unfold WithinTwice fileSize at *
        simpa [shutdown, h.opened.1, h.opened.2.2] using hwithin
      refine hclosed.rows_initializeStorage ?_
      simpa [shutdown, h.opened.1, h.opened.2.2] using hlimit
    · rw [rows_step_closed h.hasDb_shutdown now hop]
      exact (rows_step_closed (s := s.shutdown.pageless) h.hasDb_shutdown now hop).symm

theorem removed_self (rows : List EventRow) : removed rows rows = [] :=
  filter_eq_nil_iff.2 fun row hrow => by simpa using hrow

/-- **What a resize reports.** A file within twice the limit is left alone
or trimmed, and a trim counts what it takes. -/
theorem Live.reportsRemoved_iff (h : s.Live) : s.ReportsRemoved ↔ s.WithinTwice := by
  have heq := h.resizeDb_eq
  unfold ReportsRemoved WithinTwice
  split_ifs at heq with hfits htwice
  · obtain ⟨hrows, -⟩ := Prod.mk.inj heq
    rw [hrows, removed_self]
    exact iff_of_true (fun hne => absurd rfl hne) (Or.inr (by omega))
  · -- the table is deleted, and nothing said
    obtain ⟨hrows, hnotices⟩ := Prod.mk.inj heq
    have hall : removed s.rows [] = s.rows := filter_eq_self.2 fun row _ => by simp
    rw [hrows, hnotices, hall, or_iff_left htwice.not_ge, ← not_iff_not]
    constructor
    · exact fun hnot hnil => hnot fun hne => absurd hnil hne
    · intro hne hreports
      exact absurd (self_eq_append_right.1 (hreports hne)) (cons_ne_nil _ _)
  · obtain ⟨hrows, hnotices⟩ := Prod.mk.inj heq
    have hcount := length_removed_filter s.rows fun row => row.recordId ∉ trimIds 25 s.rows
    rw [hrows, hnotices]
    refine iff_of_true (fun _ => ?_) (Or.inr (Nat.not_lt.1 htwice))
    rw [trimEvents, hcount]

/-- **When the size takes what it should, and says so.** An open database
over a faithful engine trims the least valuable records, takes nothing for
the size where there is no limit, and reports what a resize takes, exactly
if its table is empty or its file within twice the limit. -/
theorem size_trimming_iff (s : SQLite) (h : s.Live) (hids : (s.rows.map EventRow.recordId).Nodup) :
    (s.TrimsLeastValuable ∧ s.KeepsUnlimited ∧ s.ReportsRemoved) ↔
      s.rows = [] ∨ s.fileSize ≤ 2 * s.dbSizeLimit := by
  constructor
  · rintro ⟨-, -, hreports⟩
    exact h.reportsRemoved_iff.1 hreports
  · intro hwithin
    exact ⟨h.trimsLeastValuable hids, h.keepsUnlimited hwithin, h.reportsRemoved_iff.2 hwithin⟩

/-- A row of the given id, persistence and time. -/
def plainRow (recordId : String) (persistence timestamp : ℤ) : EventRow where
  recordId := recordId
  tenantToken := "t"
  latency := 1
  persistence := persistence
  timestamp := timestamp
  payload := []

/-- Three rows, a page each, under the given limit. -/
def threePages (limit : ℕ) : SQLite :=
  { openOn Engine.sound [plainRow "a" 2 1, plainRow "b" 1 9, plainRow "c" 1 3] with
    dbSizeLimit := limit }

theorem threePages_live (limit : ℕ) : (threePages limit).Live :=
  ⟨⟨rfl, rfl, rfl⟩, Engine.sound_faithful⟩

/-- Three pages are over a limit of two, but not over twice the limit. -/
theorem size_trimming_iff_twoPages :
    (threePages 8192).Live ∧ ((threePages 8192).rows.map EventRow.recordId).Nodup ∧
      (threePages 8192).dbSizeLimit < (threePages 8192).fileSize ∧
      (threePages 8192).TrimsLeastValuable ∧ (threePages 8192).KeepsUnlimited ∧
      (threePages 8192).ReportsRemoved :=
  ⟨threePages_live 8192, by decide, by decide,
    (size_trimming_iff (threePages 8192) (threePages_live 8192) (by decide)).2
      (Or.inr (by decide))⟩

/-- **A table emptied without a word.** Without a limit, the next
initialisation deletes every record of a database that was shut down; and
over twice a limit of one page, a resize deletes every record and
dispatches nothing. -/
theorem table_emptied_silently :
    (threePages 0).Live ∧ ((threePages 0).rows.map EventRow.recordId).Nodup ∧
      (threePages 0).shutdown.rows.length = 3 ∧
      (threePages 0).shutdown.initializeStorage.rows = [] ∧ ¬ (threePages 0).KeepsUnlimited ∧
      (threePages 4096).Live ∧ (threePages 4096).rows.length = 3 ∧
      (threePages 4096).resizeDb.2.rows = [] ∧ (threePages 4096).resizeDb.2.notices = [] ∧
      ¬ (threePages 4096).ReportsRemoved := by
  have hemptied : (threePages 0).shutdown.initializeStorage.rows = [] := by decide
  have hkept : (threePages 0).shutdown.pageless.initializeStorage.rows ≠ [] := by decide
  refine ⟨threePages_live 0, by decide, by decide, hemptied, ?_, threePages_live 4096, by decide,
    by decide, by decide, ?_⟩
  · intro hkeeps
    have hsame := hkeeps rfl _ (Or.inr rfl) 0 .initializeStorage
    exact hkept (hsame.symm.trans hemptied)
  · intro hreports
    exact absurd ((threePages_live 4096).reportsRemoved_iff.1 hreports) (by decide)

end SQLite

end ClientTelemetry
