import ClientTelemetry.Offline.Helpers.Handler
import ClientTelemetry.Offline.Helpers.Store
import ClientTelemetry.Offline.MemoryStorage
import Mathlib.Algebra.Order.BigOperators.Group.List
/-!
# What a flush keeps

A flush takes every queued record out of RAM and then hands the batch to
the database, whose refusals it does not look at: `StoreRecord` counts a
store as soon as its transaction begins. `flush_conserves_iff` says when
nothing is lost and the count reported is right: every record that may
be on disk is written and stays, and no other record is accepted.
-/

namespace ClientTelemetry

open Sql List

/-! ## What leaves the RAM queue -/

namespace MemoryStorage

variable {m : MemoryStorage}

/-- The records a flush takes out. -/
def flushed (m : MemoryStorage) : List StorageRecord := m.offered .unspecified 0

theorem getRecords_queued (m : MemoryStorage) :
    m.queued.Perm (m.flushed ++ m.getRecords.2.queued) := by
  obtain ⟨records', heq, -, hperm⟩ := getAndReserveRecords_spec m collect [] 0 .unspecified 0 0
  rw [walk_collect] at hperm heq
  have hrest : m.getRecords.2.queued = names.flatMap records' := by
    rw [getRecords, heq]
    rfl
  rw [hrest]
  exact hperm

theorem Accounted.flushed_nodup (h : m.Accounted) :
    ((m.flushed ++ m.getRecords.2.queued).map StorageRecord.id).Nodup :=
  ((getRecords_queued m).map _).nodup_iff.1 h.distinct.queued

/-- An empty queue has no size. -/
theorem Accounted.size_pos_iff (h : m.Accounted) : 0 < m.size ↔ m.queued ≠ [] := by
  rw [h.size_eq]
  constructor
  · rintro hpos hnil
    simp [hnil] at hpos
  · intro hne
    obtain ⟨r, hr⟩ := exists_mem_of_ne_nil _ hne
    have hle := single_le_sum (fun _ _ => Nat.zero_le _) _
      (mem_map_of_mem (f := StorageRecord.queueSize) hr)
    have hpos := r.queueSize_pos
    omega

end MemoryStorage

/-! ## The flush -/

namespace Handler

variable {h : Handler SQLite} {m : MemoryStorage} {s fresh : SQLite} {now : ℕ}

/-- **Nothing is lost.** A record that was queued and may be on disk is
there or still queued, and the count reported is that of the records on
disk. -/
def FlushConserves (h h' : Handler SQLite) : Prop :=
  (∀ r ∈ h.queuedRecords, r.persistence ≠ .doNotStoreOnDisk →
      EventRow.ofRecord r ∈ h'.diskRows ∨ r ∈ h'.queuedRecords) ∧
    ∀ n, h'.recordsSaved = h.recordsSaved ++ [n] →
      n = ((h.queuedRecords.filter (·.persistence ≠ .doNotStoreOnDisk)).filter
        (EventRow.ofRecord · ∈ h'.diskRows)).length

/-- **What the database must do with the batch**: write every record that
may be on disk, take none of them in a trim, and accept none of the
others. -/
def FlushSafe (h : Handler SQLite) (now : ℕ) : Prop :=
  ∀ m s, h.memory = some m → h.disk = some s → ∀ r ∈ m.flushed,
    if r.persistence = .doNotStoreOnDisk then ¬ s.Accepts r
    else s.Inserts r ∧ s.Kept m.flushed now r

/-- A flush that does something. -/
theorem flush_eq (hm : h.memory = some m) (hs : h.disk = some s) (hpos : 0 < m.size) :
    (h.flush (sqliteStorage fresh) now).2 =
      { h with
        memory := some m.getRecords.2
        disk := some (s.storeRecords m.flushed now).2
        recordsSaved := h.recordsSaved ++ [(s.storeRecords m.flushed now).1]
        flushPending := false } := by
  unfold flush
  rw [hm, hs]
  dsimp only
  rw [if_pos hpos, MemoryStorage.getRecords_fst, MemoryStorage.deleteRecords_nil]
  rfl

/-- A flush that finds nothing to do, or nobody to do it. -/
theorem flush_idle (fresh : SQLite) (now : ℕ)
    (hidle : ∀ m, h.memory = some m → h.disk ≠ none → ¬ 0 < m.size) :
    (h.flush (sqliteStorage fresh) now).2.memory = h.memory ∧
      (h.flush (sqliteStorage fresh) now).2.disk = h.disk ∧
      (h.flush (sqliteStorage fresh) now).2.recordsSaved = h.recordsSaved := by
  unfold flush
  rcases hm : h.memory with _ | m
  · exact ⟨hm, rfl, rfl⟩
  · rcases hs : h.disk with _ | s
    · dsimp only
      split_ifs <;> exact ⟨hm, hs, rfl⟩
    · have hno := hidle m hm (by simp [hs])
      dsimp only
      rw [if_neg hno]
      exact ⟨hm, hs, rfl⟩

/-- **The batch, record by record.** Of a record taken out, its row is on
disk if it was written and kept; of a record left in the queue, it is
not. -/
theorem mem_rows_flushed (now : ℕ) (hacc : m.Accounted)
    (hfresh : ∀ row ∈ s.rows, ∀ r ∈ m.queued, row.recordId ≠ r.id) :
    (∀ r ∈ m.flushed, EventRow.ofRecord r ∈ (s.storeRecords m.flushed now).2.rows ↔
        s.Inserts r ∧ s.Kept m.flushed now r) ∧
      ∀ r ∈ m.getRecords.2.queued, EventRow.ofRecord r ∉ (s.storeRecords m.flushed now).2.rows := by
  have hperm := m.getRecords_queued
  have hids := hacc.flushed_nodup
  rw [map_append, nodup_append] at hids
  have hnew : ∀ row ∈ s.rows, ∀ r ∈ m.flushed, row.recordId ≠ r.id := by
    intro row hrow r hr
    exact hfresh row hrow r (hperm.mem_iff.2 (mem_append_left _ hr))
  refine ⟨fun r hr => SQLite.mem_storeRecords_iff hids.1 hnew hr, fun r hr hmem => ?_⟩
  rcases SQLite.mem_storeRecords_imp hmem with hold | ⟨r', hr', heq, -⟩
  · exact hfresh _ hold r (hperm.mem_iff.2 (mem_append_right _ hr)) rfl
  · have hsame : r.id = r'.id := congrArg EventRow.recordId heq
    exact hids.2.2 _ (mem_map_of_mem hr') _ (mem_map_of_mem hr) hsame.symm

/-- The batch is counted right once every record that may be on disk is
there, exactly when no other record was accepted. -/
theorem flushed_count_iff (now : ℕ) (hacc : m.Accounted)
    (hfresh : ∀ row ∈ s.rows, ∀ r ∈ m.queued, row.recordId ≠ r.id)
    (hstored : ∀ r ∈ m.flushed, r.persistence ≠ .doNotStoreOnDisk →
      EventRow.ofRecord r ∈ (s.storeRecords m.flushed now).2.rows) :
    (s.storeRecords m.flushed now).1 = ((m.queued.filter (·.persistence ≠ .doNotStoreOnDisk)).filter
          (EventRow.ofRecord · ∈ (s.storeRecords m.flushed now).2.rows)).length ↔
      ∀ r ∈ m.flushed, r.persistence = .doNotStoreOnDisk → ¬ s.Accepts r := by
  obtain ⟨htaken, hleft⟩ := mem_rows_flushed now hacc hfresh
  set rows := (s.storeRecords m.flushed now).2.rows with hrows
  -- the records on disk are those of the batch that may be there
  have hondisk : ((m.queued.filter (·.persistence ≠ .doNotStoreOnDisk)).filter
      (EventRow.ofRecord · ∈ rows)).length =
        (m.flushed.filter (·.persistence ≠ .doNotStoreOnDisk)).length := by
    have hperm := (m.getRecords_queued.filter (·.persistence ≠ .doNotStoreOnDisk)).filter
      (EventRow.ofRecord · ∈ rows)
    rw [hperm.length_eq, filter_append, filter_append, length_append]
    have hall : (m.flushed.filter (·.persistence ≠ .doNotStoreOnDisk)).filter
        (EventRow.ofRecord · ∈ rows) = m.flushed.filter (·.persistence ≠ .doNotStoreOnDisk) := by
      refine filter_eq_self.2 fun r hr => ?_
      obtain ⟨hmem, hp⟩ := List.mem_filter.1 hr
      simpa using hstored r hmem (by simpa using hp)
    have hnone : (m.getRecords.2.queued.filter (·.persistence ≠ .doNotStoreOnDisk)).filter
        (EventRow.ofRecord · ∈ rows) = [] := by
      refine filter_eq_nil_iff.2 fun r hr => ?_
      simpa using hleft r (List.mem_filter.1 hr).1
    rw [hall, hnone, length_nil, Nat.add_zero]
  -- those are all accepted, so any surplus is of the others
  have hcount := countP_eq_countP_filter_add m.flushed (fun r => decide (s.Accepts r))
    (fun r => decide (r.persistence ≠ .doNotStoreOnDisk))
  have hgood : (m.flushed.filter (·.persistence ≠ .doNotStoreOnDisk)).countP
      (fun r => decide (s.Accepts r)) =
        (m.flushed.filter (·.persistence ≠ .doNotStoreOnDisk)).length := by
    refine countP_eq_length.2 fun r hr => ?_
    obtain ⟨hmem, hp⟩ := List.mem_filter.1 hr
    have hins := ((htaken r hmem).1 (hstored r hmem (by simpa using hp))).1
    simpa using hins.1
  rw [SQLite.storeRecords_fst, hondisk, hcount, hgood]
  have hzero : ∀ a b : ℕ, a + b = a ↔ b = 0 := by omega
  rw [hzero, countP_eq_zero]
  constructor
  · intro hno r hr hp
    have := hno r (List.mem_filter.2 ⟨hr, by simpa using hp⟩)
    simpa using this
  · intro hno r hr
    obtain ⟨hmem, hp⟩ := List.mem_filter.1 hr
    simpa using hno r hmem (by simpa using hp)

/-- The flush of a queue with records, into a database. -/
theorem flushConserves_iff_of_some (hm : h.memory = some m) (hs : h.disk = some s)
    (hacc : m.Accounted) (hfresh : ∀ row ∈ s.rows, ∀ r ∈ m.queued, row.recordId ≠ r.id)
    (hpos : 0 < m.size) :
    FlushConserves h (h.flush (sqliteStorage fresh) now).2 ↔ h.FlushSafe now := by
  obtain ⟨htaken, hleft⟩ := mem_rows_flushed now hacc hfresh
  have hcount := flushed_count_iff now hacc hfresh
  have hperm := m.getRecords_queued
  have hids := hacc.flushed_nodup
  rw [map_append, nodup_append] at hids
  have hout : ∀ r ∈ m.flushed, r ∉ m.getRecords.2.queued := by
    intro r hr hmem
    exact hids.2.2 _ (mem_map_of_mem hr) _ (mem_map_of_mem hmem) rfl
  rw [flush_eq hm hs hpos]
  unfold FlushConserves FlushSafe queuedRecords diskRows
  simp only [hm, hs, Option.map_some, Option.getD_some, Option.some.injEq]
  constructor
  · rintro ⟨hkept, hright⟩ m' s' rfl rfl r hr
    have hstored : ∀ r ∈ m.flushed, r.persistence ≠ .doNotStoreOnDisk →
        EventRow.ofRecord r ∈ (s.storeRecords m.flushed now).2.rows := by
      intro r hr hp
      rcases hkept r (hperm.mem_iff.2 (mem_append_left _ hr)) hp with hdisk | hqueue
      · exact hdisk
      · exact absurd hqueue (hout r hr)
    split_ifs with hp
    · exact (hcount hstored).1 (hright _ rfl) r hr hp
    · exact (htaken r hr).1 (hstored r hr hp)
  · intro hsafe
    have hstored : ∀ r ∈ m.flushed, r.persistence ≠ .doNotStoreOnDisk →
        EventRow.ofRecord r ∈ (s.storeRecords m.flushed now).2.rows := by
      intro r hr hp
      have := hsafe m s rfl rfl r hr
      rw [if_neg hp] at this
      exact (htaken r hr).2 this
    refine ⟨fun r hr hp => ?_, fun n hn => ?_⟩
    · rcases mem_append.1 (hperm.mem_iff.1 hr) with hr | hr
      · exact Or.inl (hstored r hr hp)
      · exact Or.inr hr
    · have hlast := append_cancel_left hn
      rw [← head_eq_of_cons_eq hlast]
      refine (hcount hstored).2 fun r hr hp => ?_
      have := hsafe m s rfl rfl r hr
      rwa [if_pos hp] at this

end Handler

/-- **When a flush loses nothing.** For every content of the RAM queue and
every behaviour of the database: the records that were queued and may be
on disk are on disk or still queued, and the count reported is that of
those on disk, exactly when the database writes and keeps each of them
and accepts no record that must not be there. -/
theorem flush_conserves_iff (fresh : SQLite) (h : Handler SQLite)
    (hmem : ∀ m, h.memory = some m → m.Accounted)
    (hfresh : ∀ row ∈ h.diskRows, ∀ r ∈ h.queuedRecords, row.recordId ≠ r.id) (now : ℕ) :
    Handler.FlushConserves h (h.flush (sqliteStorage fresh) now).2 ↔ h.FlushSafe now := by
  by_cases hwork : ∃ m s, h.memory = some m ∧ h.disk = some s ∧ 0 < m.size
  · obtain ⟨m, s, hm, hs, hpos⟩ := hwork
    have hfresh' : ∀ row ∈ s.rows, ∀ r ∈ m.queued, row.recordId ≠ r.id := by
      simpa [Handler.diskRows, Handler.queuedRecords, hm, hs] using hfresh
    exact Handler.flushConserves_iff_of_some hm hs (hmem m hm) hfresh' hpos
  · -- there is nothing to flush, or no database to flush to
    have hidle : ∀ m, h.memory = some m → h.disk ≠ none → ¬ 0 < m.size := by
      intro m hm hd hpos
      obtain ⟨s, hs⟩ := Option.ne_none_iff_exists'.1 hd
      exact hwork ⟨m, s, hm, hs, hpos⟩
    obtain ⟨hm', hd', hsaved⟩ := Handler.flush_idle fresh now hidle
    refine iff_of_true ⟨fun r hr _ => Or.inr ?_, fun n hn => ?_⟩ ?_
    · rw [Handler.queuedRecords, hm']
      exact hr
    · rw [hsaved] at hn
      exact absurd (append_right_eq_self.1 hn.symm) (by simp)
    · intro m s hm hs r hr
      have hempty : m.queued = [] := by
        by_contra hne
        exact hidle m hm (by simp [hs]) ((hmem m hm).size_pos_iff.2 hne)
      have hmem' := MemoryStorage.mem_queued_of_mem_offered hr
      rw [hempty] at hmem'
      cases hmem'

/-- A handler with one queued record over a database whose engine is
given. -/
def queuedHandler (engine : SQLite.Engine) (persistence : EventPersistence) : Handler SQLite :=
  { Handler.new (δ := SQLite) 4096 false none with
    memory := some (MemoryStorage.empty.storeRecord
      ⟨"a", "t", .normal, persistence, 1, [1], 0, 0⟩).2
    disk := some (SQLite.openOn engine []) }

theorem flush_conserves_iff_sound :
    Handler.FlushConserves (queuedHandler SQLite.Engine.sound .normal)
      ((queuedHandler SQLite.Engine.sound .normal).flush
        (sqliteStorage (SQLite.openOn SQLite.Engine.sound [])) 5).2 :=
  (flush_conserves_iff (SQLite.openOn SQLite.Engine.sound [])
    (queuedHandler SQLite.Engine.sound .normal)
    (fun m hm => by
      obtain rfl := Option.some.inj hm
      exact (MemoryStorage.conserved_start.run
        [.storeRecord ⟨"a", "t", .normal, .normal, 1, [1], 0, 0⟩] (by decide)
        (by decide)).1.toAccounted)
    (fun row hrow => by cases hrow) 5).2
    (fun m s hm hs r hr => by
      obtain rfl := Option.some.inj hm
      obtain rfl := Option.some.inj hs
      obtain rfl := mem_singleton.1 hr
      rw [if_neg (by decide)]
      refine ⟨by decide, fun pre x post hsplit _ _ htakes => ?_⟩
      -- the batch is the one record, and there is no limit
      rcases pre with _ | ⟨p, pre⟩
      · exact htakes.1.1 rfl
      · have hrest : [] = pre ++ x :: post := (List.cons.inj hsplit).2
        simp at hrest)

/-- **A flush loses what the database refuses.** With a handle that is not
open the record is gone from RAM and not on disk, and with an insert that
fails it is reported as saved too. -/
theorem flush_loses_refused_record :
    let closed := { SQLite.openOn SQLite.Engine.sound [] with handleOpen := false }
    let failing := SQLite.openOn { SQLite.Engine.sound with executes := fun _ => false } []
    let D := sqliteStorage (SQLite.openOn SQLite.Engine.sound [])
    let h := queuedHandler SQLite.Engine.sound .normal
    let lost := ({ h with disk := some closed }.flush D 5).2
    let miscounted := ({ h with disk := some failing }.flush D 5).2
    h.queuedRecords.map StorageRecord.id = ["a"] ∧
      (lost.queuedRecords = [] ∧ lost.diskRows = [] ∧ lost.recordsSaved = [0]) ∧
      miscounted.queuedRecords = [] ∧ miscounted.diskRows = [] ∧ miscounted.recordsSaved = [1] :=
  ⟨rfl, ⟨rfl, rfl, rfl⟩, rfl, rfl, rfl⟩

end ClientTelemetry
