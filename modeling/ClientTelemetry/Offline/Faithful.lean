import ClientTelemetry.Common.Run
import ClientTelemetry.Offline.Helpers.DiskCalls
import ClientTelemetry.Offline.Helpers.MemoryRead
/-!
# What the database keeps of a record

A store adds a row, and a read turns rows back into records. The table has
no unique key, so that a second store under an id adds a second row; the
read does not select the persistence; and the insert leaves the retry
count to its default. So a record comes back as it was stored exactly if
its id was stored once, its persistence is the default and its retry count
is zero (`kept_faithfully_iff`).
-/

namespace ClientTelemetry

variable {r : StorageRecord}

open Sql List

/-- A record, its columns and back. The persistence and the retry count
are lost on the way. -/
theorem Sql.EventRow.toRecord_ofRecord (h : r.latency ≠ .unspecified) :
    (EventRow.ofRecord r).toRecord =
      { r with persistence := .normal, retryCount := 0, reservedUntil := 0 } := by
  have hlatency : latencyOfColumn r.latency.toInt = r.latency := by
    revert h
    cases r.latency <;> decide
  simp [EventRow.toRecord, EventRow.ofRecord, hlatency]

namespace SQLite

variable {s : SQLite}

/-- The records that `StoreRecord` does not refuse. -/
theorem latency_of_valid {r : StorageRecord} (h : ¬ InvalidParameters r) :
    r.latency ≠ .unspecified := by
  intro hlat
  refine h (Or.inr (Or.inr (Or.inl ?_)))
  rw [hlat]
  decide

/-- A sequence of stores, each at its time. -/
def storeAll (s : SQLite) (calls : List (ℕ × StorageRecord)) : SQLite :=
  run (fun s call => (s.storeRecord call.2 call.1).2) s calls

theorem Plain.storeAll (h : s.Plain) {calls : List (ℕ × StorageRecord)}
    (hcalls : ∀ call ∈ calls, ¬ InvalidParameters call.2) : (s.storeAll calls).Plain ∧
      (s.storeAll calls).rows = s.rows ++ calls.map fun call => EventRow.ofRecord call.2 := by
  induction calls generalizing s with
  | nil => exact ⟨h, (append_nil _).symm⟩
  | cons call calls ih =>
    have hplain := h.of_sameStore (storeRecord_frame s call.2 call.1).1
    have hrows := h.rows_storeRecord (hcalls call mem_cons_self) call.1
    obtain ⟨hplain', hrows'⟩ := ih hplain fun c hc => hcalls c (mem_cons_of_mem _ hc)
    refine ⟨hplain', hrows'.trans ?_⟩
    rw [hrows, append_assoc]
    rfl

/-! ## Reading everything back -/

/-- What a read hands out to a consumer that accepts everything. -/
theorem handed_out_eq (h : s.Plain) (leaseTimeMs : ℕ) (minLatency : EventLatency)
    (maxCount now : ℕ) :
    (s.getAndReserveRecords MemoryStorage.collect [] leaseTimeMs minLatency maxCount now).2.1 =
      (s.selected minLatency maxCount now).map EventRow.toRecord := by
  rw [getAndReserveRecords_walk h.opened.1 h.opened.2.1 h.faithful, walk,
    MemoryStorage.offer_collect_map, nil_append]

/-- A read of a table without reservations, from latency `Off` on and
without a count, selects the whole table, as far as the limit goes. -/
theorem selected_perm {now : ℕ} (hfresh : ∀ row ∈ s.rows, row.reservedUntil = 0)
    (hlatency : ∀ row ∈ s.rows, 0 ≤ row.latency) (hcount : s.rows.length ≤ uintMax) :
    (s.selected .off 0 now).Perm s.rows := by
  have hexpired : releaseExpired now s.rows = s.rows := by
    refine map_congr_left (g := id) (fun row hrow => if_neg ?_) |>.trans (map_id _)
    exact fun hrow' => hrow'.1 (hfresh row hrow)
  have hfilter : (s.rows.filter fun row =>
      EventLatency.off.toInt ≤ row.latency ∧ row.reservedUntil = 0) = s.rows :=
    filter_eq_self.2 fun row hrow =>
      decide_eq_true ⟨hlatency row hrow, hfresh row hrow⟩
  unfold selected selectEvents
  rw [hexpired, hfilter, take_of_length_le]
  · exact perm_insertionSort _ _
  · rw [length_insertionSort]
    exact hcount

end SQLite

/-! ## What comes back -/

/-- The record stored last under an id. -/
def lastStored (rs : List StorageRecord) (id : StorageRecordId) : Option StorageRecord :=
  (rs.filter fun r => r.id = id).getLast?

/-- Of records with different ids, each is the last under its own. -/
theorem lastStored_of_nodup {rs : List StorageRecord} (h : (rs.map StorageRecord.id).Nodup)
    (hr : r ∈ rs) : lastStored rs r.id = some r := by
  have hmem : r ∈ rs.filter fun r' => r'.id = r.id := List.mem_filter.2 ⟨hr, by simp⟩
  have hne : (rs.filter fun r' => r'.id = r.id) ≠ [] := ne_nil_of_mem hmem
  rw [lastStored, getLast?_eq_getLast_of_ne_nil hne]
  have hlast := List.mem_filter.1 (getLast_mem hne)
  exact congrArg some (inj_on_of_nodup_map h hlast.1 hr (of_decide_eq_true hlast.2))

/-- **The records come back as they were stored**: one for each id, and
equal to the last stored under it in everything but the reservation. -/
structure KeptFaithfully (stored handed : List StorageRecord) : Prop where
  once : (handed.map StorageRecord.id).Nodup
  complete : ∀ id, id ∈ handed.map StorageRecord.id ↔ id ∈ stored.map StorageRecord.id
  last : ∀ r ∈ handed, ∃ r', lastStored stored r.id = some r' ∧
    { r with reservedUntil := 0 } = { r' with reservedUntil := 0 }

/-- **What the table keeps of each record**: the ids differ, and the
persistence and the retry count are the defaults. -/
structure KeepsAll (stored : List StorageRecord) : Prop where
  distinct : (stored.map StorageRecord.id).Nodup
  defaults : ∀ r ∈ stored, r.persistence = .normal ∧ r.retryCount = 0

/-- The records handed out, from those stored: whatever the order. -/
theorem keptFaithfully_iff_of_perm {stored handed : List StorageRecord}
    (h : handed.Perm (stored.map fun r =>
      { r with persistence := .normal, retryCount := 0, reservedUntil := 0 })) :
    KeptFaithfully stored handed ↔ KeepsAll stored := by
  have hids : (handed.map StorageRecord.id).Perm (stored.map StorageRecord.id) := by
    have := h.map StorageRecord.id
    rwa [map_map] at this
  have hback : ∀ r ∈ stored,
      { r with persistence := .normal, retryCount := 0, reservedUntil := 0 } ∈ handed :=
    fun r hr => h.mem_iff.2 (mem_map.2 ⟨r, hr, rfl⟩)
  constructor
  · intro hkept
    have hnodup := hids.nodup_iff.1 hkept.once
    refine ⟨hnodup, fun r hr => ?_⟩
    obtain ⟨r', hlast, hsame⟩ := hkept.last _ (hback r hr)
    obtain rfl : r = r' := Option.some.inj ((lastStored_of_nodup hnodup hr).symm.trans hlast)
    exact ⟨(congrArg StorageRecord.persistence hsame).symm,
      (congrArg StorageRecord.retryCount hsame).symm⟩
  · intro hkeeps
    refine ⟨hids.nodup_iff.2 hkeeps.distinct, fun id => hids.mem_iff, fun r hr => ?_⟩
    obtain ⟨r', hr', rfl⟩ := mem_map.1 (h.mem_iff.1 hr)
    refine ⟨r', lastStored_of_nodup hkeeps.distinct hr', ?_⟩
    obtain ⟨hper, hretry⟩ := hkeeps.defaults r' hr'
    simp [← hper, ← hretry]

/-- **When the database keeps records faithfully.** For every sequence of
stores of valid records in an empty database without a size limit, a read
from latency `Off` on without a count hands out one record for each id,
equal to the last stored under it, exactly if no id was stored twice and
all records had the default persistence and no retries. The table is taken
to be no larger than the largest `LIMIT`. -/
theorem kept_faithfully_iff (s : SQLite) (hplain : s.Plain) (hempty : s.rows = [])
    (calls : List (ℕ × StorageRecord)) (hvalid : ∀ call ∈ calls, ¬ SQLite.InvalidParameters call.2)
    (hcount : calls.length ≤ uintMax) (leaseTimeMs now : ℕ) : KeptFaithfully (calls.map Prod.snd)
        ((s.storeAll calls).getAndReserveRecords MemoryStorage.collect [] leaseTimeMs .off 0
          now).2.1 ↔
      KeepsAll (calls.map Prod.snd) := by
  obtain ⟨hplain', hrows⟩ := hplain.storeAll hvalid
  rw [hempty, nil_append] at hrows
  have hperm : ((s.storeAll calls).selected .off 0 now).Perm (s.storeAll calls).rows := by
    refine SQLite.selected_perm ?_ ?_ ?_
    · intro row hrow
      obtain ⟨call, -, rfl⟩ := mem_map.1 (hrows ▸ hrow)
      rfl
    · intro row hrow
      obtain ⟨call, hcall, rfl⟩ := mem_map.1 (hrows ▸ hrow)
      exact le_of_not_gt fun hneg => hvalid call hcall (Or.inr (Or.inr (Or.inl hneg)))
    · rw [hrows, length_map]
      exact hcount
  refine keptFaithfully_iff_of_perm ?_
  rw [SQLite.handed_out_eq hplain']
  refine (hperm.map EventRow.toRecord).trans (List.Perm.of_eq ?_)
  rw [hrows, map_map, map_map]
  refine map_congr_left fun call hcall => ?_
  exact EventRow.toRecord_ofRecord (SQLite.latency_of_valid (hvalid call hcall))

/-- Three records of two tenants, stored one after the other. -/
def threeStores : List (ℕ × StorageRecord) :=
  [(5, ⟨"a", "t", .normal, .normal, 7, [1], 0, 0⟩), (6, ⟨"b", "u", .max, .normal, 3, [], 0, 0⟩),
    (8, ⟨"c", "t", .off, .normal, 7, [2, 3], 0, 0⟩)]

theorem kept_faithfully_iff_three : KeptFaithfully (threeStores.map Prod.snd)
      (((SQLite.openOn SQLite.Engine.sound []).storeAll threeStores).getAndReserveRecords
        MemoryStorage.collect [] 1000 .off 0 10).2.1 :=
  (kept_faithfully_iff (SQLite.openOn SQLite.Engine.sound []) (.openOn []) rfl threeStores
    (by decide) (by decide) 1000 10).2 ⟨by decide, by decide⟩

/-- **Two records for one id, and a persistence lost.** The second store
under the id `a` does not replace the first, and neither record comes back
with the persistence it was stored with. -/
theorem second_store_adds_a_row :
    let stored : List StorageRecord := [⟨"a", "t", .normal, .critical, 7, [1], 2, 0⟩,
      ⟨"a", "t", .normal, .critical, 8, [2], 2, 0⟩]
    let handed := (((SQLite.openOn SQLite.Engine.sound []).storeAll
      (stored.map fun r => (5, r))).getAndReserveRecords MemoryStorage.collect [] 1000 .off 0 10).2.1
    handed = [⟨"a", "t", .normal, .normal, 7, [1], 0, 0⟩,
        ⟨"a", "t", .normal, .normal, 8, [2], 0, 0⟩] ∧ ¬ KeptFaithfully stored handed := by
  refine ⟨by decide, fun h => absurd h.once (by decide)⟩

end ClientTelemetry
