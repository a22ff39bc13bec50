import ClientTelemetry.Common.Run
import ClientTelemetry.Offline.Helpers.MemoryErase
import Mathlib.Algebra.Order.Group.Multiset
import Mathlib.Tactic.Abel
/-!
# Conservation in the RAM queue

Every operation of the RAM store moves records between two places, takes
some in and lets some go (`Flow`). From what one operation moves follows
what it keeps of the accounting (`Accounted.flow`): the size counter is
the size of what is queued, each record is in the queue of its own
latency or in the reserved map, and never twice. Over a whole run the
records accepted are the records held and the records that were named by
a delete or consumed by a read without a lease (`Conserved.run`).
-/

namespace ClientTelemetry

open List

namespace MemoryStorage

variable {m m' : MemoryStorage} {r : StorageRecord} {κ : Type}

/-! ## What one operation moves -/

/-- **The movements of one operation**: `arrived` enter the queues,
`leased` go from the queues to the reserved map and `dropped` leave them
for good, `returned` leave the reserved map for the queues and
`forgotten` leave it for good. -/
structure Flow (m : MemoryStorage) (arrived leased dropped returned forgotten : List StorageRecord)
    (m' : MemoryStorage) : Prop where
  queue : ∀ l, ∀ r ∈ m'.records l,
    r ∈ m.records l ∨ (r ∈ arrived ∧ r.latency = EventLatency.ofIndex l)
  entry : ∀ e ∈ m'.reservedRecords.entries,
    e ∈ m.reservedRecords.entries ∨ ∃ r ∈ leased, e = (r.id, r)
  queued : ∃ stay, m.queued.Perm (leased ++ dropped ++ stay) ∧ m'.queued.Perm (stay ++ arrived)
  reserved : (m'.reservedRecords.values ++ (returned ++ forgotten)).Perm
    (m.reservedRecords.values ++ leased)
  size : m'.size = drain StorageRecord.queueSize m.size (leased ++ dropped) +
    (arrived.map StorageRecord.queueSize).sum

/-- **The books of the store.** -/
structure Accounted (m : MemoryStorage) : Prop where
  /-- The counter is the size of what is queued. -/
  size_eq : m.size = (m.queued.map StorageRecord.queueSize).sum
  /-- A queued record is in the queue of its latency. -/
  own_queue : ∀ l, ∀ r ∈ m.records l, r.latency = EventLatency.ofIndex l
  off_empty : m.records 0 = []
  keyed : m.Keyed
  reserved_storable : ∀ r ∈ m.reservedRecords.values, r.latency.Storable
  distinct : m.Distinct

theorem accounted_empty : Accounted empty where
  size_eq := by decide
  own_queue _ _ h := by cases h
  off_empty := rfl
  keyed _ h := by cases h
  reserved_storable _ h := by cases h
  distinct := by
    have hheld : empty.held = [] := by simp [held, queued, empty, OrdMap.empty, OrdMap.values]
    rw [Distinct, hheld]
    exact nodup_nil

theorem Accounted.queued_storable (h : m.Accounted) (hr : r ∈ m.queued) :
    r.latency.Storable := by
  obtain ⟨l, hl⟩ := mem_queued.1 hr
  have hne : l ≠ 0 := by
    rintro rfl
    rw [h.off_empty] at hl
    cases hl
  rw [h.own_queue l r hl]
  exact EventLatency.storable_ofIndex hne

variable {new leased dropped returned forgotten : List StorageRecord} {inc : Bool}

/-- The balance of two accounts: what the second returned to the first is
counted in both, and cancels. -/
theorem balance {M : Type*} [AddCommMonoid M] {q q' v v' s n r l d f : M} (hout : q = l + d + s)
    (hin : q' = s + (n + r)) (hres : v' + (r + f) = v + l) : q' + v' + (d + f) = q + v + n := by
  calc q' + v' + (d + f) = s + n + d + (v' + (r + f)) := by rw [hin]; abel
    _ = s + n + d + (v + l) := by rw [hres]
    _ = q + v + n := by rw [hout]; abel

/-- The payloads a flow leaves and lets go are those it found and took
in. -/
theorem Flow.payloads
    (hf : Flow m (new ++ returned.map (released inc)) leased dropped returned forgotten m') :
    ((m'.held ++ (dropped ++ forgotten)).map StorageRecord.payload).Perm
      ((m.held ++ new).map StorageRecord.payload) := by
  obtain ⟨stay, hout, hin⟩ := hf.queued
  have h₁ := Multiset.coe_eq_coe.2 (hout.map StorageRecord.payload)
  have h₂ := Multiset.coe_eq_coe.2 (hin.map StorageRecord.payload)
  have h₃ := Multiset.coe_eq_coe.2 (hf.reserved.map StorageRecord.payload)
  have hback : (returned.map (released inc)).map StorageRecord.payload =
      returned.map StorageRecord.payload := by simp [map_map, Function.comp_def]
  simp only [map_append, ← Multiset.coe_add, hback] at h₁ h₂ h₃
  refine Multiset.coe_eq_coe.1 ?_
  simp only [held, map_append, ← Multiset.coe_add]
  exact balance h₁ h₂ h₃

theorem map_payload_id (rs : List StorageRecord) :
    (rs.map StorageRecord.payload).map StorageRecord.id = rs.map StorageRecord.id := by
  rw [map_map]
  rfl

/-- **A flow keeps the books.** The records that come in from outside
must be new to the store and have a queue. -/
theorem Accounted.flow (h : m.Accounted)
    (hf : Flow m (new ++ returned.map (released inc)) leased dropped returned forgotten m')
    (hnew : ∀ r ∈ new, r.latency.Storable)
    (hfresh : ((m.held ++ new).map StorageRecord.id).Nodup) : m'.Accounted := by
  obtain ⟨stay, hout, hin⟩ := hf.queued
  have hleased : ∀ r ∈ leased, r.latency.Storable := fun r hr =>
    h.queued_storable (hout.mem_iff.2 (by simp [hr]))
  have hreturned : ∀ r ∈ returned, r.latency.Storable := by
    intro r hr
    have hmem : r ∈ m.reservedRecords.values ++ leased := hf.reserved.mem_iff.1 (by simp [hr])
    exact (mem_append.1 hmem).elim (h.reserved_storable r) (hleased r)
  have harrived : ∀ r ∈ new ++ returned.map (released inc), r.latency.Storable := by
    intro r hr
    rcases mem_append.1 hr with hr | hr
    · exact hnew r hr
    · obtain ⟨r₀, hr₀, rfl⟩ := mem_map.1 hr
      rw [released_latency]
      exact hreturned r₀ hr₀
  refine ⟨?_, fun l r hr => ?_, ?_, fun e he => ?_, fun r hr => ?_, ?_⟩
  -- the counter follows the queues: drained by what left, raised by what came
  · have hs : (m.queued.map StorageRecord.queueSize).sum =
        ((leased ++ dropped).map StorageRecord.queueSize).sum +
          (stay.map StorageRecord.queueSize).sum := by
      rw [(hout.map _).sum_nat, map_append, sum_append]
    have hs' : (m'.queued.map StorageRecord.queueSize).sum =
        (stay.map StorageRecord.queueSize).sum +
          ((new ++ returned.map (released inc)).map StorageRecord.queueSize).sum := by
      rw [(hin.map _).sum_nat, map_append, sum_append]
    rw [hf.size, h.size_eq, hs, drain_eq, hs']
  · exact (hf.queue l r hr).elim (h.own_queue l r) fun h => h.2
  · refine eq_nil_iff_forall_not_mem.2 fun r hr => ?_
    rcases hf.queue 0 r hr with hr | ⟨hr, hlat⟩
    · rw [h.off_empty] at hr
      cases hr
    · exact (harrived r hr).2 hlat
  · rcases hf.entry e he with he | ⟨r, -, rfl⟩
    · exact h.keyed e he
    · rfl
  · have hmem : r ∈ m.reservedRecords.values ++ leased := hf.reserved.mem_iff.1 (by simp [hr])
    exact (mem_append.1 hmem).elim (h.reserved_storable r) (hleased r)
  -- payloads keep the ids, so the ids stay different although retry counts change
  · have hperm := hf.payloads.map StorageRecord.id
    rw [map_payload_id, map_payload_id] at hperm
    have hall := hperm.nodup_iff.2 hfresh
    rw [map_append] at hall
    exact hall.of_append_left

/-- A flow never meets a clamp: what it takes out of the counter is
covered when it is taken. -/
theorem Accounted.covered (h : m.Accounted) {arrived : List StorageRecord}
    (hf : Flow m arrived leased dropped returned forgotten m') :
    ((leased ++ dropped).map StorageRecord.queueSize).sum ≤ m.size := by
  obtain ⟨stay, hout, -⟩ := hf.queued
  rw [h.size_eq, (hout.map _).sum_nat]
  simp only [map_append, sum_append]
  omega

/-! ## The flow of each operation -/

/-- Storing takes records in. -/
theorem Stores.flow {rs : List StorageRecord} (h : Stores m rs m') : Flow m rs [] [] [] [] m' where
  queue := h.queue
  entry e he := Or.inl (h.reserved ▸ he)
  queued := ⟨m.queued, by simp, h.perm⟩
  reserved := by simp [h.reserved]
  size := by simp [h.size]

/-- A read without a lease lets go what its consumer took. -/
theorem read_flow (c : κ → StorageRecord → Bool × κ) (k : κ) (minLatency : EventLatency)
    (maxCount now : ℕ) : Flow m [] [] (m.walk c k 0 minLatency maxCount now).1 [] []
      (m.getAndReserveRecords c k 0 minLatency maxCount now).2.2 := by
  obtain ⟨records', heq, hinit, hperm⟩ := getAndReserveRecords_spec m c k 0 minLatency maxCount now
  rw [heq]
  refine ⟨fun l r hr => Or.inl ((hinit l).subset hr), fun e he => Or.inl (by simpa using he),
    ⟨names.flatMap records', by simpa using hperm, ?_⟩, by simp, by simp⟩
  rw [append_nil]
  exact List.Perm.refl _

/-- A read under a lease moves what its consumer took to the reserved
map. -/
theorem reserve_flow (h : m.Accounted) (c : κ → StorageRecord → Bool × κ) (k : κ)
    {leaseTimeMs : ℕ} (hlease : leaseTimeMs ≠ 0) (minLatency : EventLatency) (maxCount now : ℕ) :
    Flow m [] (m.walk c k leaseTimeMs minLatency maxCount now).1 [] [] []
      (m.getAndReserveRecords c k leaseTimeMs minLatency maxCount now).2.2 := by
  obtain ⟨records', heq, hinit, hperm⟩ :=
    getAndReserveRecords_spec m c k leaseTimeMs minLatency maxCount now
  have hids := h.distinct.queued
  rw [(hperm.map StorageRecord.id).nodup_iff, map_append] at hids
  set taken := (m.walk c k leaseTimeMs minLatency maxCount now).1 with htaken
  have hvalues : (m.reservedRecords.insertAll StorageRecord.id taken).values.Perm
      (m.reservedRecords.values ++ taken) :=
    OrdMap.insertAll_perm
      (fun r hr => h.distinct.not_reserved h.keyed (mem_queued_of_mem_walk hr)) hids.of_append_left
  rw [heq]
  simp only [hlease, ne_eq, not_false_eq_true, if_true]
  refine ⟨fun l r hr => Or.inl ((hinit l).subset hr), fun e he => OrdMap.mem_insertAll_imp he,
    ⟨names.flatMap records', by simpa using hperm, ?_⟩, by simpa using hvalues, by simp⟩
  rw [append_nil]
  exact List.Perm.refl _

/-- The store without the records a test names. -/
def without (m : MemoryStorage) (p : StorageRecord → Bool) : MemoryStorage :=
  { m with
    reservedRecords := m.reservedRecords.filter fun e => !p e.2
    records := fun l => (m.records l).filter (!p ·)
    size := drain StorageRecord.queueSize m.size (m.queued.filter p) }

theorem queued_without (m : MemoryStorage) (p : StorageRecord → Bool) :
    (m.without p).queued = m.queued.filter (!p ·) := filter_flatMap.symm

theorem values_filter (m : MemoryStorage) (p : StorageRecord → Bool) :
    (m.reservedRecords.filter fun e => p e.2).values = m.reservedRecords.values.filter p := by
  simp only [OrdMap.values, OrdMap.filter, filter_map]
  rfl

/-- A removal lets go what its test names. -/
theorem without_flow (m : MemoryStorage) (p : StorageRecord → Bool) :
    Flow m [] [] (m.queued.filter p) [] (m.reservedRecords.values.filter p) (m.without p) := by
  refine ⟨fun l r hr => Or.inl (mem_of_mem_filter hr),
    fun e he => Or.inl (OrdMap.mem_filter.1 he).1,
    ⟨m.queued.filter (!p ·), ?_, by rw [queued_without, append_nil]⟩, ?_, by simp [without]⟩
  · exact (filter_append_perm p m.queued).symm
  · rw [nil_append, append_nil]
    show ((m.reservedRecords.filter fun e => !p e.2).values ++ _).Perm _
    rw [values_filter m fun r => !p r]
    exact perm_append_comm.trans (filter_append_perm p _)

/-- A removal keeps the books. -/
theorem Accounted.without (h : m.Accounted) (p : StorageRecord → Bool) :
    (m.without p).Accounted := by
  have hf : Flow m ([] ++ [].map (released false)) [] (m.queued.filter p) []
      (m.reservedRecords.values.filter p) (m.without p) := without_flow m p
  refine h.flow hf (by simp) ?_
  rw [append_nil]
  exact h.distinct

theorem deleteRecords_eq_without (h : m.Accounted) (ids : List StorageRecordId) :
    m.deleteRecords ids = m.without (·.id ∈ ids) := by
  have hfilter : (m.reservedRecords.filter fun e => e.1 ∉ ids) =
      m.reservedRecords.filter fun e => !decide (e.2.id ∈ ids) :=
    OrdMap.ext (filter_congr fun e he => by simp [h.keyed e he])
  rw [deleteRecords_eq h.keyed h.distinct, hfilter, without]
  simp

theorem deleteRecordsWhere_eq_without (whereFilter : OrdMap String String) :
    m.deleteRecordsWhere whereFilter = m.without (matcher whereFilter) :=
  deleteRecordsWhere_eq m whereFilter

/-- Deleting everything lets go what is held. -/
theorem deleteAllRecords_flow (h : m.Accounted) :
    Flow m [] [] m.queued [] m.reservedRecords.values m.deleteAllRecords where
  queue _ _ hr := by cases hr
  entry _ he := by cases he
  queued := ⟨[], by simp, by simp [queued, deleteAllRecords]⟩
  reserved := by simp [deleteAllRecords, OrdMap.empty, OrdMap.values]
  size := by
    have := drain_eq StorageRecord.queueSize 0 m.queued
    rw [Nat.add_zero, ← h.size_eq] at this
    simp [deleteAllRecords, this]

/-- A release sends reserved records back to their queues. -/
theorem restore_flow (h : m.Accounted) (p : StorageRecordId → Bool) (inc : Bool) :
    Flow m ((m.reservedRecords.filter fun e => p e.1).values.map (released inc)) [] []
      (m.reservedRecords.filter fun e => p e.1).values []
      (restore { m with reservedRecords := m.reservedRecords.filter fun e => !p e.1 } inc
        (m.reservedRecords.filter fun e => p e.1).values) := by
  have hsub : ∀ r ∈ (m.reservedRecords.filter fun e => p e.1).values, r.latency.Storable := by
    intro r hr
    obtain ⟨e, he, rfl⟩ := mem_map.1 hr
    exact h.reserved_storable _ (mem_map_of_mem (OrdMap.mem_filter.1 he).1)
  set kept : MemoryStorage :=
    { m with reservedRecords := m.reservedRecords.filter fun e => !p e.1 } with hkept
  have hst : Stores kept ((m.reservedRecords.filter fun e => p e.1).values.map (released inc))
      (restore kept inc (m.reservedRecords.filter fun e => p e.1).values) := restore_stores hsub
  refine ⟨hst.queue, fun e he => Or.inl ?_, ⟨m.queued, by simp, hst.perm⟩, ?_, hst.size⟩
  · rw [hst.reserved] at he
    exact (OrdMap.mem_filter.1 he).1
  · rw [hst.reserved, append_nil, append_nil]
    simp only [OrdMap.values, OrdMap.filter, ← map_append]
    exact (perm_append_comm.trans (filter_append_perm _ _)).map _

/-! ## Runs -/

/-- The operations that change the store. -/
inductive MemoryOp where
  | storeRecord (record : StorageRecord)
  | storeRecords (records : List StorageRecord)
  | getAndReserveRecords (consumer : Consumer StorageRecord) (leaseTimeMs : ℕ) (minLatency : EventLatency)
      (maxCount now : ℕ)
  | getRecords (minLatency : EventLatency) (maxCount : ℕ)
  | deleteRecords (ids : List StorageRecordId)
  | deleteRecordsWhere (whereFilter : OrdMap String String)
  | deleteAllRecords
  | releaseRecords (ids : List StorageRecordId) (incrementRetryCount : Bool)
  | releaseAllRecords

namespace MemoryOp

/-- The store after the operation. -/
def apply (m : MemoryStorage) : MemoryOp → MemoryStorage
  | storeRecord r => (m.storeRecord r).2
  | storeRecords rs => (m.storeRecords rs).2
  | getAndReserveRecords c lease minLatency maxCount now =>
    (m.getAndReserveRecords c.accept c.start lease minLatency maxCount now).2.2
  | getRecords minLatency maxCount => (m.getRecords minLatency maxCount).2
  | deleteRecords ids => m.deleteRecords ids
  | deleteRecordsWhere whereFilter => m.deleteRecordsWhere whereFilter
  | deleteAllRecords => m.deleteAllRecords
  | releaseRecords ids inc => m.releaseRecords ids inc
  | releaseAllRecords => m.releaseAllRecords

/-- The records the operation asks to store. -/
def stored : MemoryOp → List StorageRecord
  | storeRecord r => [r]
  | storeRecords rs => rs
  | _ => []

/-- The records for which the store answered that it took them. -/
def accepted (m : MemoryStorage) (op : MemoryOp) : List StorageRecord :=
  op.stored.filter fun r => (m.storeRecord r).1

/-- The records the operation is entitled to remove: those a delete
names, and those the consumer of a read without a lease accepted. -/
def removed (m : MemoryStorage) : MemoryOp → List StorageRecord
  | getAndReserveRecords c lease minLatency maxCount now =>
    if lease = 0 then
      (m.getAndReserveRecords (logged c.accept) (c.start, []) lease minLatency maxCount now).2.1.2
    else []
  | getRecords minLatency maxCount => (m.getRecords minLatency maxCount).1
  | deleteRecords ids => m.held.filter (·.id ∈ ids)
  | deleteRecordsWhere whereFilter => m.held.filter (matcher whereFilter)
  | deleteAllRecords => m.held
  | _ => []

/-- A log kept by the consumer of a read without a lease is what the walk
took. -/
theorem log_eq_walk (c : Consumer StorageRecord) (minLatency : EventLatency) (maxCount now : ℕ) :
    (m.getAndReserveRecords (logged c.accept) (c.start, []) 0 minLatency maxCount now).2.1.2 =
      (m.walk c.accept c.start 0 minLatency maxCount now).1 := by
  obtain ⟨records', heq, -⟩ :=
    getAndReserveRecords_spec m (logged c.accept) (c.start, []) 0 minLatency maxCount now
  rw [heq, walk, walk, onCopies_zero, onCopies_zero, offer_logged, nil_append]

theorem accepted_eq (m : MemoryStorage) (op : MemoryOp) :
    op.accepted m = op.stored.filter (·.latency ≠ .off) := by
  unfold accepted
  simp only [storeRecord_fst]

/-- **What one operation does.** It moves records, takes in those it
answered for, and lets go those it may remove. -/
theorem flow (h : m.Accounted) (op : MemoryOp) (hlat : ∀ r ∈ op.stored, r.latency ≠ .unspecified) :
    ∃ (inc : Bool) (leased dropped returned forgotten : List StorageRecord),
      Flow m (op.accepted m ++ returned.map (released inc)) leased dropped returned forgotten
        (op.apply m) ∧ dropped ++ forgotten = op.removed m := by
  rw [accepted_eq]
  cases op with
  | storeRecord r =>
    refine ⟨false, [], [], [], [], ?_, rfl⟩
    rw [map_nil, append_nil]
    exact (foldl_storeRecord_stores hlat).flow
  | storeRecords rs =>
    refine ⟨false, [], [], [], [], ?_, rfl⟩
    rw [map_nil, append_nil]
    show Flow m _ [] [] [] [] (m.storeRecords rs).2
    rw [storeRecords_snd]
    exact (foldl_storeRecord_stores hlat).flow
  | getAndReserveRecords c lease minLatency maxCount now =>
    rcases eq_or_ne lease 0 with rfl | hlease
    · refine ⟨false, [], _, [], [], read_flow c.accept c.start minLatency maxCount now, ?_⟩
      rw [append_nil]
      exact (log_eq_walk c minLatency maxCount now).symm
    · exact ⟨false, _, [], [], [],
        reserve_flow h c.accept c.start hlease minLatency maxCount now, (if_neg hlease).symm⟩
  | getRecords minLatency maxCount =>
    refine ⟨false, [], _, [], [], read_flow collect [] minLatency maxCount 0, ?_⟩
    rw [append_nil, walk_collect]
    exact (getRecords_fst m minLatency maxCount).symm
  | deleteRecords ids =>
    refine ⟨false, [], _, [], _, ?_, (filter_append _ _).symm⟩
    show Flow m _ _ _ _ _ (m.deleteRecords ids)
    rw [deleteRecords_eq_without h]
    exact without_flow m _
  | deleteRecordsWhere whereFilter =>
    refine ⟨false, [], _, [], _, ?_, (filter_append _ _).symm⟩
    show Flow m _ _ _ _ _ (m.deleteRecordsWhere whereFilter)
    rw [deleteRecordsWhere_eq_without]
    exact without_flow m _
  | deleteAllRecords => exact ⟨false, [], _, [], _, deleteAllRecords_flow h, rfl⟩
  | releaseRecords ids inc =>
    have := restore_flow h (fun i => i ∈ ids.toFinset) inc
    simp only [← decide_not] at this
    exact ⟨inc, [], [], _, [], this, rfl⟩
  | releaseAllRecords =>
    have hall : (m.reservedRecords.filter fun _ => true) = m.reservedRecords :=
      OrdMap.ext (filter_true _)
    have hnone : (m.reservedRecords.filter fun _ => !true) = OrdMap.empty :=
      OrdMap.ext (filter_false _)
    have := restore_flow h (fun _ => true) false
    rw [hall, hnone] at this
    exact ⟨false, [], [], _, [], this, rfl⟩

end MemoryOp

/-- **A run of the store, with what it answered for and what it was
entitled to let go.** -/
structure History where
  storage : MemoryStorage
  accepted : List StorageRecord
  gone : List StorageRecord

variable {h : History}

/-- The history of a new store. -/
def History.start : History := ⟨empty, [], []⟩

/-- One more operation. -/
def History.step (h : History) (op : MemoryOp) : History where
  storage := op.apply h.storage
  accepted := h.accepted ++ op.accepted h.storage
  gone := h.gone ++ op.removed h.storage

/-- **Conservation.** The books are right, and the records accepted are
those held and those that were let go, each once. -/
structure Conserved (h : History) : Prop extends Accounted h.storage where
  whole : ((h.storage.held ++ h.gone).map StorageRecord.payload).Perm
    (h.accepted.map StorageRecord.payload)

/-- **No clamp acts** between the two states: the records that left the
queues were taken out of the counter one by one, and each subtraction
was covered. -/
def Unclamped (m m' : MemoryStorage) : Prop :=
  ∃ left arrived stay : List StorageRecord,
    m.queued.Perm (left ++ stay) ∧ m'.queued.Perm (stay ++ arrived) ∧
    m'.size = drain StorageRecord.queueSize m.size left +
      (arrived.map StorageRecord.queueSize).sum ∧
    ∀ pre r post, left = pre ++ r :: post →
      r.queueSize ≤ drain StorageRecord.queueSize m.size pre

/-- The ids held are ids of records accepted. -/
theorem Conserved.held_accepted (hc : Conserved h)
    (hr : r ∈ h.storage.held) : r.id ∈ h.accepted.map StorageRecord.id := by
  have hperm := hc.whole.map StorageRecord.id
  rw [map_payload_id, map_payload_id] at hperm
  exact hperm.mem_iff.1 (mem_map_of_mem (mem_append_left _ hr))

open List in
/-- One more entry in a ledger that balances. -/
theorem perm_carry {α : Type*} {held held' removed gone taken accepted : List α}
    (hstep : (held' ++ removed).Perm (held ++ taken)) (h : (held ++ gone).Perm accepted) :
    (held' ++ (gone ++ removed)).Perm (accepted ++ taken) := by
  calc held' ++ (gone ++ removed)
      _ ~ held' ++ (removed ++ gone) := perm_append_comm.append_left _
      _ = (held' ++ removed) ++ gone := (append_assoc ..).symm
      _ ~ (held ++ taken) ++ gone := hstep.append_right _
      _ = held ++ (taken ++ gone) := append_assoc ..
      _ ~ held ++ (gone ++ taken) := perm_append_comm.append_left _
      _ = (held ++ gone) ++ taken := (append_assoc ..).symm
      _ ~ accepted ++ taken := h.append_right _

/-- **One step keeps the conservation**, if what it stores is new. -/
theorem Conserved.step (hc : Conserved h) (op : MemoryOp)
    (hlat : ∀ r ∈ op.stored, r.latency ≠ .unspecified)
    (hids : ((h.accepted ++ op.stored).map StorageRecord.id).Nodup) :
    Conserved (h.step op) ∧ Unclamped h.storage (op.apply h.storage) := by
  obtain ⟨inc, leased, dropped, returned, forgotten, hf, hgone⟩ := op.flow hc.toAccounted hlat
  rw [map_append, nodup_append] at hids
  have hsub : ∀ r ∈ op.accepted h.storage, r ∈ op.stored ∧ r.latency.Storable := by
    intro r hr
    rw [MemoryOp.accepted_eq] at hr
    obtain ⟨hr, hoff⟩ := List.mem_filter.1 hr
    exact ⟨hr, hlat r hr, by simpa using hoff⟩
  have hfresh : ((h.storage.held ++ op.accepted h.storage).map StorageRecord.id).Nodup := by
    rw [map_append]
    refine List.Nodup.append hc.distinct (hids.2.1.sublist (filter_sublist.map _)) ?_
    intro i hi hi'
    obtain ⟨r, hr, rfl⟩ := mem_map.1 hi
    obtain ⟨r', hr', he⟩ := mem_map.1 hi'
    exact hids.2.2 _ (hc.held_accepted hr) _ (mem_map_of_mem (hsub r' hr').1) he.symm
  refine ⟨⟨hc.flow hf (fun r hr => (hsub r hr).2) hfresh, ?_⟩, ?_⟩
  · have hpay := hf.payloads
    rw [hgone, map_append, map_append] at hpay
    have hwhole := hc.whole
    rw [map_append] at hwhole
    simp only [History.step, map_append]
    exact perm_carry hpay hwhole
  · obtain ⟨stay, hout, hin⟩ := hf.queued
    exact ⟨leased ++ dropped, _, stay, hout, hin, hf.size, fun pre r post hsplit =>
      le_drain_of_covered (hc.covered hf) hsplit⟩

theorem conserved_start : Conserved History.start where
  toAccounted := accounted_empty
  whole := by simp [History.start, held, queued, empty, OrdMap.empty, OrdMap.values]

/-- From a conserved history, a run that stores new records only. -/
theorem Conserved.run (hc : Conserved h) (ops : List MemoryOp)
    (hids : ((h.accepted ++ ops.flatMap MemoryOp.stored).map StorageRecord.id).Nodup)
    (hlat : ∀ r ∈ ops.flatMap MemoryOp.stored, r.latency ≠ .unspecified) :
    Conserved (run History.step h ops) ∧ ∀ pre op post, ops = pre ++ op :: post →
        Unclamped (ClientTelemetry.run History.step h pre).storage
          (op.apply (ClientTelemetry.run History.step h pre).storage) := by
  induction ops generalizing h with
  | nil => exact ⟨hc, fun pre op post he => by simp at he⟩
  | cons op ops ih =>
    rw [flatMap_cons] at hids hlat
    have hhere : ((h.accepted ++ op.stored).map StorageRecord.id).Nodup := by
      rw [← append_assoc, map_append] at hids
      exact hids.of_append_left
    obtain ⟨hstep, hclamp⟩ := hc.step op (fun r hr => hlat r (mem_append_left _ hr)) hhere
    -- a record that is turned down is not accepted, so these ids are some of those above
    have hrest : (((h.step op).accepted ++ ops.flatMap MemoryOp.stored).map
        StorageRecord.id).Nodup := by
      refine hids.sublist (List.Sublist.map _ ?_)
      rw [History.step, append_assoc]
      exact (filter_sublist.append_right _).append_left _
    obtain ⟨hrun, hall⟩ := ih hstep hrest fun r hr => hlat r (mem_append_right _ hr)
    refine ⟨hrun, fun pre op' post he => ?_⟩
    -- the step in question is this one, or one of the rest
    rcases pre with _ | ⟨op₀, pre⟩
    · obtain ⟨rfl, rfl⟩ := List.cons.inj he
      exact hclamp
    · obtain ⟨rfl, rfl⟩ := List.cons.inj he
      exact hall pre op' post rfl

/-- **The RAM queue conserves its records.** After every sequence of
operations that stores records of different ids and of latencies from
`Off` to `Max`, the size counter is the size of what is queued and no
subtraction was clamped on the way; a record accepted is in the queue of
its own latency, or reserved, or was named by a delete or consumed by a
read without a lease, and it is so once; the queue of `Off` is empty. -/
theorem ramQueue_conserved (ops : List MemoryOp)
    (hids : ((ops.flatMap MemoryOp.stored).map StorageRecord.id).Nodup)
    (hlat : ∀ r ∈ ops.flatMap MemoryOp.stored, r.latency ≠ .unspecified) :
    Conserved (run History.step History.start ops) ∧ ∀ pre op post, ops = pre ++ op :: post →
        Unclamped (run History.step History.start pre).storage
          (op.apply (run History.step History.start pre).storage) :=
  conserved_start.run ops hids hlat

/-- A run that stores, leases to a consumer of one record, releases and
deletes. -/
theorem ramQueue_conserved_leaseRun : Conserved (run History.step History.start
      [.storeRecord ⟨"a", "t", .normal, .normal, 1, [1, 2], 0, 0⟩,
        .storeRecords [⟨"b", "t", .max, .normal, 2, [], 0, 0⟩, ⟨"c", "u", .off, .normal, 3, [], 0, 0⟩],
        .getAndReserveRecords ⟨Bool, true, fun first _ => (first, false)⟩ 1000 .unspecified 0 5,
        .releaseRecords ["b"] true, .deleteRecords ["a"]]) :=
  (ramQueue_conserved _ (by decide) (by decide)).1

end MemoryStorage

end ClientTelemetry
