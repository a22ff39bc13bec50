import ClientTelemetry.Offline.Helpers.Handler
import ClientTelemetry.Offline.Helpers.Store
import ClientTelemetry.Offline.Model.StorageObserver
/-!
# What an accepted event is worth

An event that passes `handleStoreRecord` is counted as accepted, on the
word of the storage handler. The handler looks at the kill switch only:
it returns true whatever the store it chose has answered.
`accepted_stored_iff` says for which events, states and failures of the
stores an accepted event is really in one of them.
-/

namespace ClientTelemetry

open Sql StorageObserver

namespace MemoryStorage

variable {m : MemoryStorage} {r : StorageRecord}

/-- A latency without a queue of its own leaves the queues alone. -/
theorem storeRecord_records_of_not_storable (hlat : ¬ r.latency.Storable) :
    (m.storeRecord r).2.records = m.records := by
  unfold storeRecord
  split_ifs with hoff
  · rfl
  · have hunspec : r.latency = .unspecified := by
      by_contra hne
      exact hlat ⟨hne, hoff⟩
    show pushBack m.records r = m.records
    rw [pushBack, hunspec]
    rfl

/-- **A record is in the RAM queue behind its store** if it was there, or
its latency has a queue that takes it. -/
theorem mem_queued_storeRecord_iff :
    r ∈ (m.storeRecord r).2.queued ↔ r ∈ m.queued ∨ r.latency.Storable := by
  by_cases hlat : r.latency.Storable
  · refine iff_of_true ?_ (Or.inr hlat)
    exact (storeRecord_stores hlat).perm.mem_iff.2 (by simp)
  · rw [or_iff_left hlat, queued, storeRecord_records_of_not_storable hlat]
    rfl

end MemoryStorage

namespace Handler

variable {h : Handler SQLite} {r : StorageRecord} {now : ℕ} {fresh : SQLite}

/-- The record is queued in RAM or has its row on disk. -/
def Present (h : Handler SQLite) (r : StorageRecord) : Prop :=
  r ∈ h.queuedRecords ∨ EventRow.ofRecord r ∈ h.diskRows

/-- The kill switch rejects the record. -/
def Rejects (h : Handler SQLite) (r : StorageRecord) (now : ℕ) : Prop :=
  h.shutdownStarted = false ∧ (h.isKilled r now).1 = true

/-- The store the handler keeps records in is the RAM queue. -/
def KeepsInRam (h : Handler SQLite) : Prop := h.memory.isSome = true ∧ h.shutdownStarted = false

/-- **The store the handler chooses takes the record**: the RAM queue one
whose latency has a queue, the database one that may be on disk, whose
insert goes through and whose row the trim behind it does not take. -/
def ChosenStoreTakes (h : Handler SQLite) (r : StorageRecord) (now : ℕ) : Prop :=
  (h.KeepsInRam ∧ r.latency.Storable) ∨
    (¬ h.KeepsInRam ∧ r.persistence ≠ .doNotStoreOnDisk ∧
      ∃ s, h.disk = some s ∧ s.Inserts r ∧ ¬ (s.filled r now).TrimTakes (EventRow.ofRecord r))

/-- The handler's answer is that of the kill switch. -/
theorem storeRecord_fst_iff : (h.storeRecord (sqliteStorage fresh) r now).1 = true ↔
    ¬ h.Rejects r now := by
  unfold storeRecord Rejects
  rcases h.shutdownStarted with _ | _
  · rcases h.isKilled r now with ⟨_ | _, h₁⟩
    · simp
    · simp
  · simp

/-- The stores behind a record that was not rejected. -/
theorem storeRecord_snd (fresh : SQLite) (hacc : ¬ h.Rejects r now) :
    ∃ h₁ : Handler SQLite, h₁.memory = h.memory ∧ h₁.disk = h.disk ∧
      h₁.shutdownStarted = h.shutdownStarted ∧
      (h.storeRecord (sqliteStorage fresh) r now).2 = h₁.keepRecord (sqliteStorage fresh) r now := by
  have hkilled : (h.isKilled r now).2.memory = h.memory ∧ (h.isKilled r now).2.disk = h.disk ∧
      (h.isKilled r now).2.shutdownStarted = h.shutdownStarted := by
    unfold isKilled
    split_ifs <;> exact ⟨rfl, rfl, rfl⟩
  unfold Rejects at hacc
  unfold storeRecord
  rcases hs : h.shutdownStarted with _ | _
  · rcases hk : h.isKilled r now with ⟨_ | _, h₁⟩
    · rw [hk, hs] at hkilled
      exact ⟨h₁, hkilled.1, hkilled.2.1, hkilled.2.2, rfl⟩
    · exact absurd ⟨hs, by rw [hk]⟩ hacc
  · exact ⟨h, rfl, rfl, hs, rfl⟩

/-- A database holds a new record behind its store if it wrote and kept
it. -/
theorem mem_rows_storeRecord_iff {s : SQLite} (now : ℕ) (hnew : ∀ row ∈ s.rows, row.recordId ≠ r.id) :
    EventRow.ofRecord r ∈ (s.storeRecord r now).2.rows ↔
      s.Inserts r ∧ ¬ (s.filled r now).TrimTakes (EventRow.ofRecord r) := by
  have hnotRow : EventRow.ofRecord r ∉ s.rows := fun hmem => hnew _ hmem rfl
  rw [SQLite.mem_storeRecord_iff, or_iff_right hnotRow, and_iff_right rfl]
  exact and_congr_right fun hins => imp_iff_right hins.1

/-- **Where a new record is after `keepRecord`.** -/
theorem present_keepRecord_iff (hram : ∀ x ∈ h.queuedRecords, x.id ≠ r.id)
    (hdisk : ∀ row ∈ h.diskRows, row.recordId ≠ r.id) :
    (h.keepRecord (sqliteStorage fresh) r now).Present r ↔ h.ChosenStoreTakes r now := by
  have hnotQueued : r ∉ h.queuedRecords := fun hmem => hram r hmem rfl
  have hnotRow : EventRow.ofRecord r ∉ h.diskRows := fun hmem => hdisk _ hmem rfl
  unfold Present queuedRecords diskRows ChosenStoreTakes KeepsInRam at *
  rw [keepRecord_memory, keepRecord_disk]
  by_cases hkeep : h.memory.isSome = true ∧ h.shutdownStarted = false
  · -- the RAM queue
    obtain ⟨m, hm⟩ := Option.isSome_iff_exists.1 hkeep.1
    rw [hm] at hnotQueued
    simp only [hm, hkeep.2, Option.isSome_some, Bool.false_eq_true, if_false, and_self, true_or,
      if_true, Option.map_some, Option.getD_some, hnotRow, or_false, not_true_eq_false, false_and,
      true_and]
    rw [MemoryStorage.mem_queued_storeRecord_iff]
    exact or_iff_right hnotQueued
  · -- the database
    have hmem : (if h.shutdownStarted = true then h.memory
        else h.memory.map fun m => (m.storeRecord r).2) = h.memory := by
      split_ifs with hs
      · rfl
      · rcases hm : h.memory with _ | m
        · rfl
        · exact absurd ⟨by rw [hm]; rfl, by simpa using hs⟩ hkeep
    rw [hmem]
    simp only [hkeep, false_or, false_and, not_false_eq_true, true_and, hnotQueued]
    by_cases hp : r.persistence = .doNotStoreOnDisk
    · simp only [hp, if_true, ne_eq, not_true_eq_false, false_and, iff_false]
      exact hnotRow
    · rw [if_neg hp]
      rcases hd : h.disk with _ | s
      · simp
      · rw [hd] at hdisk
        have hrow := mem_rows_storeRecord_iff (r := r) (s := s) now hdisk
        simpa [hp, sqliteStorage] using hrow

end Handler

/-- **When accepted means stored.** For every state of the handler and of
its stores, every failure of the database and every event with a new id:
an event that is counted as accepted is in RAM or on disk when
`StoreRecord` returns (and one that is in neither was signalled as
failed) exactly when the kill switch rejects it or the store that the
handler chose takes it. -/
theorem accepted_stored_iff (fresh : SQLite) (h : Handler SQLite) (record : StorageRecord)
    (hram : ∀ x ∈ h.queuedRecords, x.id ≠ record.id)
    (hdisk : ∀ row ∈ h.diskRows, row.recordId ≠ record.id) (now : ℕ) :
    ((handleStoreRecord (sqliteStorage fresh) h record now).1 = true →
        (handleStoreRecord (sqliteStorage fresh) h record now).2.Present (stamped record now)) ↔
      h.Rejects (stamped record now) now ∨ h.ChosenStoreTakes (stamped record now) now := by
  unfold handleStoreRecord
  rw [Handler.storeRecord_fst_iff]
  by_cases hrej : h.Rejects (stamped record now) now
  · exact iff_of_true (fun hacc => absurd hrej hacc) (Or.inl hrej)
  · obtain ⟨h₁, hm, hd, hs, heq⟩ := Handler.storeRecord_snd fresh hrej
    have hram₁ : ∀ x ∈ h₁.queuedRecords, x.id ≠ (stamped record now).id := by
      unfold Handler.queuedRecords
      rw [hm]
      exact hram
    have hdisk₁ : ∀ row ∈ h₁.diskRows, row.recordId ≠ (stamped record now).id := by
      unfold Handler.diskRows
      rw [hd]
      exact hdisk
    rw [heq, Handler.present_keepRecord_iff hram₁ hdisk₁]
    have hchosen : h₁.ChosenStoreTakes (stamped record now) now ↔
        h.ChosenStoreTakes (stamped record now) now := by
      unfold Handler.ChosenStoreTakes Handler.KeepsInRam
      rw [hm, hd, hs]
    rw [hchosen]
    constructor
    · intro hpresent
      exact Or.inr (hpresent hrej)
    · rintro (hrej' | htakes) -
      · exact absurd hrej' hrej
      · exact htakes

/-- A handler over the database given, with or without a RAM queue. -/
def storingHandler (memory : Option MemoryStorage) (disk : SQLite) : Handler SQLite :=
  { Handler.new (δ := SQLite) 4096 false none with memory := memory, disk := some disk }

theorem accepted_stored_iff_ram :
    let h := storingHandler (some MemoryStorage.empty) (SQLite.openOn SQLite.Engine.sound [])
    let record : StorageRecord := ⟨"a", "t", .normal, .normal, 0, [1], 0, 0⟩
    (handleStoreRecord (sqliteStorage (SQLite.openOn SQLite.Engine.sound [])) h record 7).1 = true →
      (handleStoreRecord (sqliteStorage (SQLite.openOn SQLite.Engine.sound [])) h record
        7).2.Present (stamped record 7) :=
  (accepted_stored_iff (SQLite.openOn SQLite.Engine.sound [])
    (storingHandler (some MemoryStorage.empty) (SQLite.openOn SQLite.Engine.sound []))
    ⟨"a", "t", .normal, .normal, 0, [1], 0, 0⟩ (fun x hx => by cases hx)
    (fun row hrow => by cases hrow) 7).2 (Or.inr (Or.inl ⟨⟨rfl, rfl⟩, by decide⟩))

/-- **Events accepted and lost.** The RAM queue drops one of latency `Off`;
without a RAM queue a failed insert, or a record that must not be on disk,
ends in neither store. All three are accepted. -/
theorem accepted_event_lost :
    let D := sqliteStorage (SQLite.openOn SQLite.Engine.sound [])
    let failing := SQLite.openOn { SQLite.Engine.sound with executes := fun _ => false } []
    let off := handleStoreRecord D
      (storingHandler (some MemoryStorage.empty) (SQLite.openOn SQLite.Engine.sound []))
      ⟨"a", "t", .off, .normal, 0, [1], 0, 0⟩ 7
    let unwritten := handleStoreRecord D (storingHandler none failing)
      ⟨"a", "t", .normal, .normal, 0, [1], 0, 0⟩ 7
    let homeless := handleStoreRecord D
      (storingHandler none (SQLite.openOn SQLite.Engine.sound []))
      ⟨"a", "t", .normal, .doNotStoreOnDisk, 0, [1], 0, 0⟩ 7
    (off.1 = true ∧ off.2.queuedRecords = [] ∧ off.2.diskRows = []) ∧
      (unwritten.1 = true ∧ unwritten.2.queuedRecords = [] ∧ unwritten.2.diskRows = []) ∧
      homeless.1 = true ∧ homeless.2.queuedRecords = [] ∧ homeless.2.diskRows = [] :=
  ⟨⟨rfl, rfl, rfl⟩, ⟨rfl, rfl, rfl⟩, rfl, rfl, rfl⟩

end ClientTelemetry
