import ClientTelemetry.Offline.Helpers.Sql
/-!
# The on-disk store over a faithful engine

What the operations of `OfflineStorage_SQLite` come to when the database
is open and every statement goes through. A read walks the selected rows
and reserves those the consumer took (`getAndReserveRecords_eq`), and the
id lists it goes by name exactly their rows.
-/

namespace ClientTelemetry

open List

namespace SQLite

open Sql

variable {s : SQLite} {κ : Type}

theorem isOpen_of_opened (h : s.Opened) : s.isOpen = (true, s) := by
  obtain ⟨hdb, -, hopened⟩ := h
  simp [isOpen, hdb, hopened]

theorem begins_of_faithful (h : s.handleOpen = true) (hf : s.engine.Faithful) (t : Txn) :
    s.begins t = true := by
  simp [begins, h, hf.begins]

theorem executes_of_faithful (h : s.handleOpen = true) (hf : s.engine.Faithful) (t : Stmt) :
    s.executes t = true := by
  simp [executes, h, hf.executes]

/-! ## Statements over blocks -/

/-- A faithful engine runs a statement over all the blocks. -/
theorem overBlocks_faithful (h : s.handleOpen = true) (hf : s.engine.Faithful)
    (stmt : List StorageRecordId → Stmt)
    (effect : List (Option String) → List EventRow → List EventRow)
    (bs : List (List StorageRecordId)) (rows : List EventRow) : s.overBlocks stmt effect bs rows =
      (true, bs.foldl (fun rows block => effect (idsTable (packageIdList block)) rows) rows) := by
  induction bs generalizing rows with
  | nil => rfl
  | cons block bs ih =>
    rw [overBlocks, if_pos (executes_of_faithful h hf _), ih, foldl_cons]

/-- **A statement over an id list.** What a statement does with the ids of
a block it does with the whole list, where the ids hold no NUL. -/
theorem foldl_idBlocks {effect : List (Option String) → List EventRow → List EventRow}
    {whole : List StorageRecordId → List EventRow → List EventRow}
    (hblock : ∀ (table : List (Option String)) (block : List StorageRecordId),
      (∀ id, some id ∈ table ↔ id ∈ block) → effect table = whole block)
    (hnil : ∀ rows, whole [] rows = rows)
    (happend : ∀ as bs rows, whole bs (whole as rows) = whole (as ++ bs) rows)
    {ids : List StorageRecordId} (hids : ∀ id ∈ ids, NulFree id) (rows : List EventRow) :
    (idBlocks ids).foldl (fun rows block => effect (idsTable (packageIdList block)) rows) rows =
      whole ids rows := by
  rw [← foldl_blocksOf hnil happend (by decide : 0 < kBlockSize) ids rows]
  refine foldl_ext _ _ _ fun rows block hmem => ?_
  have hlen := length_le_of_mem_idBlocks hmem
  unfold kBlockSize at hlen
  have hnul : ∀ id ∈ block, NulFree id := fun id hid => hids id (mem_of_mem_idBlocks hmem hid)
  exact congrFun (hblock _ block fun id => mem_idsTable_iff hnul (by omega)) rows

/-! ## Reading -/

/-- The rows a read selects: the reservations that have run out are taken
back first. -/
def selected (s : SQLite) (minLatency : EventLatency) (maxCount now : ℕ) : List EventRow :=
  selectEvents minLatency.toInt (limit maxCount) (releaseExpired now s.rows)

/-- The walk of a read over the rows it selects. -/
def walk (s : SQLite) (c : κ → StorageRecord → Bool × κ) (k : κ) (minLatency : EventLatency)
    (maxCount now : ℕ) : List EventRow × κ :=
  offer (fun k row => c k row.toRecord) k (s.selected minLatency maxCount now)

/-- The rows after the ids given are reserved. -/
def reserve (ids : List StorageRecordId) (reservedUntil : ℤ) (rows : List EventRow) :
    List EventRow :=
  rows.map fun row => if row.recordId ∈ ids then { row with reservedUntil := reservedUntil } else row

/-- The rows after the blocks of an id list are reserved one by one. -/
def reserveBlocks (ids : List StorageRecordId) (reservedUntil : ℤ) (rows : List EventRow) :
    List EventRow :=
  (idBlocks ids).foldl (fun rows block =>
    reserveEvents (idsTable (packageIdList block)) reservedUntil rows) rows

/-- The blocks of a read reserve the whole list of ids. -/
theorem reserveBlocks_eq {ids : List StorageRecordId} (hids : ∀ id ∈ ids, NulFree id)
    (reservedUntil : ℤ) (rows : List EventRow) :
    reserveBlocks ids reservedUntil rows = reserve ids reservedUntil rows := by
  refine @foldl_idBlocks (fun table => reserveEvents table reservedUntil)
    (fun ids => reserve ids reservedUntil) ?_ ?_ ?_ ids hids rows
  · intro table block htable
    funext rows
    simp only [reserveEvents, reserve, EventRow.In, htable]
  · intro rows
    simp [reserve]
  · intro as bs rows
    unfold reserve
    rw [map_map]
    refine map_congr_left fun row _ => ?_
    by_cases ha : row.recordId ∈ as <;> by_cases hb : row.recordId ∈ bs <;> simp [ha, hb]

section

variable (hdb : s.hasDb = true) (hopen : s.handleOpen = true) (hf : s.engine.Faithful)
  (c : κ → StorageRecord → Bool × κ) (k : κ) (leaseTimeMs : ℕ) (minLatency : EventLatency)
  (maxCount now : ℕ)

include hdb hopen hf

/-- **What a read of an open database does.** The consumer walks over the
selected rows, and those it took are reserved in blocks; a read that took
none fails, and has taken back the expired reservations all the same. -/
theorem retrieve_blocks :
    let w := s.walk c k minLatency maxCount now
    s.retrieve c k leaseTimeMs minLatency maxCount now =
      if w.1 = [] then (false, w.2, { s with rows := releaseExpired now s.rows })
      else
        (true, w.2, { s with
          rows := reserveBlocks (w.1.map EventRow.recordId) (now + leaseTimeMs)
            (releaseExpired now s.rows)
          lastReadCount := w.1.length % 2 ^ 32 }) := by
  intro w
  have hdel : ∀ rows, s.delivered rows = rows := fun rows => by rw [delivered, hf.breaksAfter]
  have hwalk : offer (fun k row => c k row.toRecord) k
      (selectEvents minLatency.toInt (limit maxCount) (releaseExpired now s.rows)) = w := rfl
  unfold retrieve
  simp only [hdb, begins_of_faithful hopen hf, executes_of_faithful hopen hf, hdel,
    hf.breaksAfter, hwalk, overBlocks_faithful hopen hf, Bool.not_true, Bool.false_eq_true,
    if_false, if_true, Option.isSome_none, false_and, length_map]
  rfl

/-- The same read, as it is called. -/
theorem getAndReserveRecords_blocks :
    let w := s.walk c k minLatency maxCount now
    s.getAndReserveRecords c k leaseTimeMs minLatency maxCount now =
      if w.1 = [] then
        (false, w.2, { s with rows := releaseExpired now s.rows, lastReadCount := 0 })
      else
        (true, w.2, { s with
          rows := reserveBlocks (w.1.map EventRow.recordId) (now + leaseTimeMs)
            (releaseExpired now s.rows)
          lastReadCount := w.1.length % 2 ^ 32 }) :=
  retrieve_blocks (s := { s with lastReadCount := 0 }) hdb hopen hf c k leaseTimeMs minLatency
    maxCount now

/-- The rows the consumer took are reserved by their ids, where these
hold no NUL. -/
theorem getAndReserveRecords_eq
    (hids : ∀ row ∈ (s.walk c k minLatency maxCount now).1, NulFree row.recordId) :
    let w := s.walk c k minLatency maxCount now
    s.getAndReserveRecords c k leaseTimeMs minLatency maxCount now =
      if w.1 = [] then
        (false, w.2, { s with rows := releaseExpired now s.rows, lastReadCount := 0 })
      else
        (true, w.2, { s with
          rows := reserve (w.1.map EventRow.recordId) (now + leaseTimeMs) (releaseExpired now s.rows)
          lastReadCount := w.1.length % 2 ^ 32 }) := by
  intro w
  have hnul : ∀ id ∈ w.1.map EventRow.recordId, NulFree id := by
    intro id hid
    obtain ⟨row, hrow, rfl⟩ := mem_map.1 hid
    exact hids row hrow
  rw [getAndReserveRecords_blocks hdb hopen hf, reserveBlocks_eq hnul]

/-- Whatever the ids are, the consumer ends where the walk over the
selected rows leaves it. -/
theorem getAndReserveRecords_walk :
    (s.getAndReserveRecords c k leaseTimeMs minLatency maxCount now).2.1 =
      (s.walk c k minLatency maxCount now).2 := by
  rw [getAndReserveRecords_blocks hdb hopen hf]
  split_ifs <;> rfl

end

end SQLite

end ClientTelemetry
