import ClientTelemetry.Offline.Helpers.Store
/-!
# The calls of an open database

What each call of `OfflineStorage_SQLite` leaves when the database is open
and its engine faithful: whatever it does to the rows, the configuration
stays (`SameStore`), the rows keep what they are about, and the only call
that reports records as dropped is a release that counts a retry
(`reports`).
-/

namespace ClientTelemetry

open List

namespace SQLite

open Sql

variable {s s' : SQLite} {κ : Type} {ids : List StorageRecordId}

/-- **An open database over a faithful engine.** -/
structure Live (s : SQLite) : Prop where
  opened : s.Opened
  faithful : s.engine.Faithful

/-- **An open database without a size limit.** -/
structure Plain (s : SQLite) : Prop extends s.Live where
  unlimited : s.dbSizeLimit = 0

theorem Plain.openOn (rows : List EventRow) : (SQLite.openOn Engine.sound rows).Plain :=
  ⟨⟨⟨rfl, rfl, rfl⟩, Engine.sound_faithful⟩, rfl⟩

/-- The same file, handle, engine and configuration. -/
structure SameStore (s s' : SQLite) : Prop extends SameDb s s' where
  isOpened : s'.isOpened = s.isOpened
  maxRetryCount : s'.maxRetryCount = s.maxRetryCount
  dbSizeLimit : s'.dbSizeLimit = s.dbSizeLimit

theorem SameStore.refl (s : SQLite) : SameStore s s := ⟨⟨rfl, rfl, rfl⟩, rfl, rfl, rfl⟩

theorem SameStore.trans {s'' : SQLite} (h : SameStore s s') (h' : SameStore s' s'') :
    SameStore s s'' :=
  ⟨h.toSameDb.trans h'.toSameDb, h'.isOpened.trans h.isOpened,
    h'.maxRetryCount.trans h.maxRetryCount, h'.dbSizeLimit.trans h.dbSizeLimit⟩

theorem Live.of_sameStore (h : s.Live) (hs : SameStore s s') : s'.Live where
  opened := ⟨hs.hasDb.trans h.opened.1, hs.handleOpen.trans h.opened.2.1,
    hs.isOpened.trans h.opened.2.2⟩
  faithful := hs.engine ▸ h.faithful

theorem Plain.of_sameStore (h : s.Plain) (hs : SameStore s s') : s'.Plain where
  toLive := h.toLive.of_sameStore hs
  unlimited := hs.dbSizeLimit.trans h.unlimited

theorem Live.begins (h : s.Live) (t : Txn) : s.begins t = true :=
  begins_of_faithful h.opened.2.1 h.faithful t

theorem Live.executes (h : s.Live) (t : Stmt) : s.executes t = true :=
  executes_of_faithful h.opened.2.1 h.faithful t

/-- The counts of each call of `OnStorageRecordsDropped`. -/
def droppedIn (notices : List Notice) : List (OrdMap String ℕ) :=
  notices.filterMap fun notice =>
    match notice with
    | .recordsDropped numRecords => some numRecords
    | _ => none

theorem droppedIn_append (notices notices' : List Notice) :
    droppedIn (notices ++ notices') = droppedIn notices ++ droppedIn notices' :=
  filterMap_append

/-- **The drops reported to the observer.** -/
def reports (s : SQLite) : List (OrdMap String ℕ) := droppedIn s.notices

/-! ## Storing -/

section

variable (s : SQLite)

theorem sameStore_notifyFull (now : ℕ) : SameStore s (s.notifyFull now) := by
  unfold notifyFull
  split_ifs <;> exact ⟨⟨rfl, rfl, rfl⟩, rfl, rfl, rfl⟩

theorem reports_notifyFull (now : ℕ) : (s.notifyFull now).reports = s.reports := by
  unfold notifyFull
  split_ifs
  · simp [reports, notify, droppedIn]
  · rfl

theorem sameStore_resizeDb : SameStore s s.resizeDb.2 := by
  unfold resizeDb
  dsimp only
  split_ifs <;> exact ⟨⟨rfl, rfl, rfl⟩, rfl, rfl, rfl⟩

theorem reports_resizeDb : s.resizeDb.2.reports = s.reports := by
  unfold resizeDb
  dsimp only
  split_ifs <;> simp [reports, notify, droppedIn]

theorem sameStore_trimFull : SameStore s s.trimFull := by
  unfold trimFull
  split_ifs
  · have h := sameStore_resizeDb { s with resizing := true }
    exact ⟨⟨h.hasDb, h.handleOpen, h.engine⟩, h.isOpened, h.maxRetryCount, h.dbSizeLimit⟩
  · exact SameStore.refl s

theorem reports_trimFull : s.trimFull.reports = s.reports := by
  unfold trimFull
  split_ifs
  · exact reports_resizeDb { s with resizing := true }
  · rfl

/-- **A store** adds no row but its own, may trim others, and reports no
drop. -/
theorem storeRecord_frame (r : StorageRecord) (now : ℕ) :
    SameStore s (s.storeRecord r now).2 ∧ (s.storeRecord r now).2.reports = s.reports := by
  by_cases h : s.Accepts r
  · rw [storeRecord_of_accepts h]
    refine ⟨?_, (reports_trimFull _).trans (reports_notifyFull _ now)⟩
    have hinsert : SameStore s (s.insertEvent r) := ⟨⟨rfl, rfl, rfl⟩, rfl, rfl, rfl⟩
    exact (hinsert.trans (sameStore_notifyFull _ now)).trans (sameStore_trimFull _)
  · unfold Accepts at h
    unfold storeRecord
    split_ifs with hbad hdb hbegin
    · exact ⟨⟨⟨rfl, rfl, rfl⟩, rfl, rfl, rfl⟩, by simp [reports, notify, droppedIn]⟩
    · exact ⟨⟨⟨rfl, rfl, rfl⟩, rfl, rfl, rfl⟩, by simp [reports, notify, droppedIn]⟩
    · exact ⟨⟨⟨rfl, rfl, rfl⟩, rfl, rfl, rfl⟩, by simp [reports, notify, droppedIn]⟩
    · exact absurd ⟨hbad, by simpa using hdb, by simpa using hbegin⟩ h

end

/-- Without a size limit a valid record adds its row and nothing else. -/
theorem Plain.rows_storeRecord (h : s.Plain) {r : StorageRecord} (hr : ¬ InvalidParameters r)
    (now : ℕ) : (s.storeRecord r now).2.rows = s.rows ++ [EventRow.ofRecord r] := by
  have haccepts : s.Accepts r := ⟨hr, h.opened.1, h.begins _⟩
  have hinsert : (s.insertEvent r).rows = s.rows ++ [EventRow.ofRecord r] := by
    rw [insertEvent, if_pos (h.executes _)]
  have hlimit : ((s.insertEvent r).notifyFull now).dbSizeLimit = 0 :=
    (sameStore_notifyFull (s.insertEvent r) now).dbSizeLimit.trans h.unlimited
  have htrim : ((s.insertEvent r).notifyFull now).trimFull = (s.insertEvent r).notifyFull now :=
    if_neg fun hfull => hfull.1 hlimit
  rw [storeRecord_of_accepts haccepts, htrim]
  exact (rows_notifyFull _ now).trans hinsert

/-! ## Reading -/

/-- Reserving changes no more of a row than its reservation. -/
def Reserves (f : EventRow → EventRow) : Prop :=
  ∀ row, f row = { row with reservedUntil := (f row).reservedUntil }

theorem reserveBlocks_reserves (ids : List StorageRecordId) (reservedUntil : ℤ)
    (rows : List EventRow) :
    ∃ f, Reserves f ∧ reserveBlocks ids reservedUntil rows = rows.map f := by
  unfold reserveBlocks
  induction idBlocks ids generalizing rows with
  | nil => exact ⟨id, fun _ => rfl, (map_id _).symm⟩
  | cons block blocks ih =>
    obtain ⟨f, hf, heq⟩ := ih (reserveEvents (idsTable (packageIdList block)) reservedUntil rows)
    refine ⟨fun row => f (if row.In (idsTable (packageIdList block))
      then { row with reservedUntil := reservedUntil } else row), fun row => ?_, ?_⟩
    · dsimp only
      split_ifs
      · rw [hf]
      · rw [hf]
    · rw [foldl_cons, heq, reserveEvents, map_map]
      rfl

/-- **A read** takes back the reservations that have run out, reserves
rows, and reports no drop. -/
theorem Live.getAndReserveRecords (h : s.Live) (c : κ → StorageRecord → Bool × κ) (k : κ)
    (leaseTimeMs : ℕ) (minLatency : EventLatency) (maxCount now : ℕ) :
    let after := (s.getAndReserveRecords c k leaseTimeMs minLatency maxCount now).2.2
    SameStore s after ∧ after.notices = s.notices ∧
      ∃ f, Reserves f ∧ after.rows = (releaseExpired now s.rows).map f := by
  intro after
  set w := s.walk c k minLatency maxCount now with hw
  obtain ⟨f, hf, hfold⟩ := reserveBlocks_reserves (w.1.map EventRow.recordId) (now + leaseTimeMs)
    (releaseExpired now s.rows)
  have heq : after = (if w.1 = [] then
      { s with rows := releaseExpired now s.rows, lastReadCount := 0 }
    else { s with
      rows := (releaseExpired now s.rows).map f
      lastReadCount := w.1.length % 2 ^ 32 }) := by
    simp only [after]
    rw [getAndReserveRecords_blocks h.opened.1 h.opened.2.1 h.faithful, ← hfold]
    split_ifs <;> rfl
  rw [heq]
  split_ifs
  · exact ⟨⟨⟨rfl, rfl, rfl⟩, rfl, rfl, rfl⟩, rfl, id, fun _ => rfl, (map_id _).symm⟩
  · exact ⟨⟨⟨rfl, rfl, rfl⟩, rfl, rfl, rfl⟩, rfl, f, hf, rfl⟩

/-! ## Deleting -/

/-- The rows after the blocks of an id list are deleted one by one. -/
def deleteBlocks (ids : List StorageRecordId) (rows : List EventRow) : List EventRow :=
  (idBlocks ids).foldl (fun rows block => deleteEventsIds (idsTable (packageIdList block)) rows) rows

theorem Live.deleteRecords_eq (h : s.Live) (ids : List StorageRecordId) :
    s.deleteRecords ids = if ids = [] then s else { s with rows := deleteBlocks ids s.rows } := by
  unfold deleteRecords
  simp only [h.opened.1, h.begins, overBlocks_faithful h.opened.2.1 h.faithful, Bool.not_true,
    Bool.false_eq_true, if_false]
  rfl

theorem deleteBlocks_sublist (ids : List StorageRecordId) (rows : List EventRow) :
    (deleteBlocks ids rows).Sublist rows := by
  unfold deleteBlocks
  induction idBlocks ids generalizing rows with
  | nil => exact List.Sublist.refl _
  | cons block blocks ih => exact (ih _).trans filter_sublist

/-- The blocks of a delete delete the whole list of ids. -/
theorem deleteBlocks_eq (hids : ∀ id ∈ ids, NulFree id) (rows : List EventRow) :
    deleteBlocks ids rows = rows.filter fun row => row.recordId ∉ ids := by
  refine @foldl_idBlocks deleteEventsIds
    (fun ids rows => rows.filter fun row => row.recordId ∉ ids) ?_ ?_ ?_ ids hids rows
  · intro table block htable
    funext rows
    simp only [deleteEventsIds, EventRow.In, htable]
  · intro rows
    simp
  · intro as bs rows
    rw [filter_filter]
    refine filter_congr fun row _ => ?_
    by_cases ha : row.recordId ∈ as <;> by_cases hb : row.recordId ∈ bs <;> simp [ha, hb]

/-- **A delete by ids** that hold no NUL. -/
theorem Live.deleteRecords_named (h : s.Live) (hids : ∀ id ∈ ids, NulFree id) :
    s.deleteRecords ids = { s with rows := s.rows.filter fun row => row.recordId ∉ ids } := by
  rw [h.deleteRecords_eq, deleteBlocks_eq hids]
  split_ifs with hnone
  · simp [hnone]
  · rfl

/-! ## Releasing -/

/-- The rows after the blocks of an id list are released one by one. -/
def releaseBlocks (ids : List StorageRecordId) (delta : ℤ) (rows : List EventRow) : List EventRow :=
  (idBlocks ids).foldl (fun rows block =>
    releaseEvents (idsTable (packageIdList block)) delta rows) rows

/-- **A release in one equation.** Without a retry it only gives rows
back; with one it drops the rows over the limit, and reports them if there
are any. -/
theorem Live.releaseRecords_eq (h : s.Live) (ids : List StorageRecordId) (inc : Bool) :
    s.releaseRecords ids inc =
      if ids = [] then s
      else
        let rows := releaseBlocks ids (if inc then 1 else 0) s.rows
        if inc then
          let dropped := retried s.maxRetryCount rows
          let s' := { s with rows := rows.filter fun row => row.retryCount ≤ s.maxRetryCount }
          if dropped ≠ [] then s'.notify (.recordsDropped (perTenant dropped)) else s'
        else { s with rows := rows } := by
  unfold releaseRecords
  simp only [h.opened.1, h.begins, h.executes, overBlocks_faithful h.opened.2.1 h.faithful,
    Bool.not_true, Bool.false_eq_true, if_false]
  cases inc <;> rfl

/-- Releasing a row gives it back and counts the retry, once, and only if
it was reserved. -/
def Releases (delta : ℤ) (f : EventRow → EventRow) : Prop :=
  ∀ row, f row = row ∨ (0 < row.reservedUntil ∧
    f row = { row with reservedUntil := 0, retryCount := row.retryCount + delta })

theorem releaseBlocks_releases (ids : List StorageRecordId) (delta : ℤ) (rows : List EventRow) :
    ∃ f, Releases delta f ∧ releaseBlocks ids delta rows = rows.map f := by
  unfold releaseBlocks
  induction idBlocks ids generalizing rows with
  | nil => exact ⟨id, fun _ => Or.inl rfl, (map_id _).symm⟩
  | cons block blocks ih =>
    obtain ⟨f, hf, heq⟩ := ih (releaseEvents (idsTable (packageIdList block)) delta rows)
    refine ⟨fun row => f (if row.In (idsTable (packageIdList block)) ∧ 0 < row.reservedUntil
      then { row with reservedUntil := 0, retryCount := row.retryCount + delta } else row),
      fun row => ?_, ?_⟩
    · dsimp only
      split_ifs with hin
      · -- a row given back is not reserved, and no later block touches it
        refine Or.inr ⟨hin.2, ?_⟩
        rcases hf { row with reservedUntil := 0, retryCount := row.retryCount + delta } with
          hsame | ⟨hpos, -⟩
        · exact hsame
        · exact absurd hpos (lt_irrefl 0)
      · exact hf row
    · rw [foldl_cons, heq, releaseEvents, map_map]
      rfl

/-- A row after a release of some ids. -/
def released (ids : List StorageRecordId) (delta : ℤ) (row : EventRow) : EventRow :=
  if row.recordId ∈ ids ∧ 0 < row.reservedUntil
  then { row with reservedUntil := 0, retryCount := row.retryCount + delta } else row

theorem released_nil (delta : ℤ) : released [] delta = id := funext fun row => if_neg (by simp)

/-- The blocks of a release release the whole list of ids. -/
theorem releaseBlocks_eq (hids : ∀ id ∈ ids, NulFree id) (delta : ℤ)
    (rows : List EventRow) : releaseBlocks ids delta rows = rows.map (released ids delta) := by
  refine @foldl_idBlocks (fun table => releaseEvents table delta)
    (fun ids rows => rows.map (released ids delta)) ?_ ?_ ?_ ids hids rows
  · intro table block htable
    funext rows
    simp only [releaseEvents, EventRow.In, htable]
    rfl
  · intro rows
    rw [released_nil, map_id]
  · intro as bs rows
    rw [map_map]
    refine map_congr_left fun row _ => ?_
    -- a row given back is not reserved, and the second list does not touch it
    by_cases ha : row.recordId ∈ as <;> by_cases hb : row.recordId ∈ bs <;>
      by_cases hpos : 0 < row.reservedUntil <;> simp [released, ha, hb, hpos]

/-- **A release without a retry**, of ids that hold no NUL. -/
theorem Live.releaseRecords_named (h : s.Live) (hids : ∀ id ∈ ids, NulFree id) :
    s.releaseRecords ids false = { s with rows := s.rows.map (released ids 0) } := by
  rw [h.releaseRecords_eq, releaseBlocks_eq hids]
  by_cases hnone : ids = []
  · rw [if_pos hnone, hnone, released_nil, map_id]
  · rw [if_neg hnone]
    rfl

/-! ## Counts of a report -/

/-- The rows of a tenant. -/
def countOf (tenantToken : String) (rows : List EventRow) : ℕ :=
  rows.countP fun row => row.tenantToken = tenantToken

variable (rows : List EventRow)

theorem perTenant_eq :
    perTenant rows = OrdMap.empty.tally (rows.map EventRow.tenantToken) := by
  rw [OrdMap.tally, foldl_map, perTenant]

/-- **A report counts the rows of each tenant.** -/
theorem perTenant_find? (tenantToken : String) :
    ((perTenant rows).find? tenantToken).getD 0 = countOf tenantToken rows := by
  rw [perTenant_eq, OrdMap.getD_tally, List.count, countP_map]
  refine (Nat.zero_add _).trans (countP_congr fun row _ => ?_)
  simp

end SQLite

end ClientTelemetry
