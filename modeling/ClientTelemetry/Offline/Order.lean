import ClientTelemetry.Offline.Helpers.SQLite
import ClientTelemetry.Offline.MemoryStorage
/-!
# The order of retrieval

`IOfflineStorage::GetAndReserveRecords` promises its consumer the higher
latency first, and among records of one latency and one persistence the
oldest first (`InOrder`). The database sorts its rows this way, by the
number of the latency; a number that is no latency is handed out as
another one. The RAM queue keeps the records of a latency in the order
they came (`MemoryOp.records_sublist`), and reads them from the back: it
shows the newest first, and keeps the promise only where the times do not
differ (`retrieval_order_iff`).
-/

namespace ClientTelemetry

open Sql List

/-! ## The promise -/

/-- What the order of retrieval goes by. -/
structure OrderKey where
  latency : ℤ
  persistence : ℤ
  timestamp : ℤ
  deriving DecidableEq, Repr

/-- **The order the interface promises**, of what a consumer is shown. -/
def InOrder (shown : List OrderKey) : Prop :=
  shown.Pairwise fun a b => b.latency ≤ a.latency ∧
    (a.latency = b.latency → a.persistence = b.persistence → a.timestamp ≤ b.timestamp)

instance (shown : List OrderKey) : Decidable (InOrder shown) :=
  inferInstanceAs (Decidable (List.Pairwise _ _))

/-- The key of a record. -/
def StorageRecord.orderKey (r : StorageRecord) : OrderKey :=
  ⟨r.latency.toInt, r.persistence.toInt, r.timestamp⟩

/-- The key of the record that a row is handed out as. The record itself
does not keep the persistence. -/
def Sql.EventRow.orderKey (row : EventRow) : OrderKey :=
  { row.toRecord.orderKey with persistence := row.persistence }

/-- A list sorted the other way round is in order exactly if no two times
under one latency and persistence differ. -/
theorem inOrder_iff_of_newest_first {shown : List OrderKey}
    (hlatency : shown.Pairwise fun a b => b.latency ≤ a.latency)
    (hnewest : shown.Pairwise fun a b => a.latency = b.latency → b.timestamp ≤ a.timestamp) :
    InOrder shown ↔ ∀ a ∈ shown, ∀ b ∈ shown, a.latency = b.latency →
      a.persistence = b.persistence → a.timestamp = b.timestamp := by
  constructor
  · intro h
    have hsame : shown.Pairwise fun a b => a.latency = b.latency → a.persistence = b.persistence →
        a.timestamp = b.timestamp :=
      h.imp₂ (fun _ _ hab htime hlat hper => le_antisymm (hab.2 hlat hper) (htime hlat)) hnewest
    -- of two places in the list one comes first
    have hsymm : Std.Symm fun a b : OrderKey => a.latency = b.latency →
        a.persistence = b.persistence → a.timestamp = b.timestamp :=
      ⟨fun _ _ hab hlat hper => (hab hlat.symm hper.symm).symm⟩
    intro a ha b hb
    exact hsame.forall_of_forall (fun _ _ _ _ => rfl) ha hb
  · intro h
    refine hlatency.imp_of_mem fun ha hb hlat => ⟨hlat, fun heq hper => ?_⟩
    exact (h _ ha _ hb heq hper).le

/-! ## The RAM queue -/

namespace MemoryStorage

variable {m : MemoryStorage} {κ : Type}

/-- The removal by ids cuts records out of a queue. -/
theorem eraseIds_sublist (rs : List StorageRecord) (ids : Finset StorageRecordId) (size : ℕ) :
    (eraseIds rs ids size).1.Sublist rs := by
  induction rs generalizing ids size with
  | nil => exact List.Sublist.refl _
  | cons r rs ih =>
    rw [eraseIds]
    split_ifs
    · exact (ih _ _).cons r
    · exact (ih _ _).cons_cons r

theorem eraseQueued_sublist (ls : List (Fin 5)) (m : MemoryStorage) (ids : Finset StorageRecordId)
    (l : Fin 5) : ((eraseQueued ls m ids).records l).Sublist (m.records l) := by
  induction ls generalizing m ids with
  | nil => exact List.Sublist.refl _
  | cons l' ls ih =>
    refine (ih _ _).trans ?_
    by_cases hl : l = l'
    · subst hl
      simpa using eraseIds_sublist (m.records l) ids m.size
    · simp [Function.update_of_ne hl]

theorem deleteRecords_sublist (m : MemoryStorage) (ids : List StorageRecordId) (l : Fin 5) :
    ((m.deleteRecords ids).records l).Sublist (m.records l) := by
  unfold deleteRecords
  dsimp only
  split_ifs
  · exact List.Sublist.refl _
  · exact eraseQueued_sublist _ _ _ l

theorem getAndReserveRecords_sublist (m : MemoryStorage)
    (c : κ → StorageRecord → Bool × κ) (k : κ) (leaseTimeMs : ℕ) (minLatency : EventLatency)
    (maxCount now : ℕ) (l : Fin 5) :
    ((m.getAndReserveRecords c k leaseTimeMs minLatency maxCount now).2.2.records l).Sublist
      (m.records l) := by
  obtain ⟨records', heq, hinitial, -⟩ :=
    getAndReserveRecords_spec m c k leaseTimeMs minLatency maxCount now
  rw [heq]
  exact (hinitial l).sublist

/-- The records of one latency. -/
def ofLatency (l : Fin 5) (rs : List StorageRecord) : List StorageRecord :=
  rs.filter fun r => r.latency = EventLatency.ofIndex l

theorem ofLatency_append (l : Fin 5) (rs rs' : List StorageRecord) :
    ofLatency l (rs ++ rs') = ofLatency l rs ++ ofLatency l rs' := filter_append _ _

theorem storeRecord_sublist (m : MemoryStorage) (r : StorageRecord) (l : Fin 5) :
    ((m.storeRecord r).2.records l).Sublist (m.records l ++ ofLatency l [r]) := by
  unfold storeRecord
  split_ifs with hoff
  · exact sublist_append_left _ _
  · dsimp only
    unfold pushBack
    rcases hindex : r.latency.index? with _ | l'
    · exact sublist_append_left _ _
    · dsimp only
      by_cases hl : l = l'
      · subst hl
        have hlat : r.latency = EventLatency.ofIndex l := EventLatency.index?_eq_some.1 hindex
        simp [ofLatency, hlat]
      · rw [Function.update_of_ne hl]
        exact sublist_append_left _ _

theorem storeRecords_sublist (m : MemoryStorage) (rs : List StorageRecord) (l : Fin 5) :
    ((m.storeRecords rs).2.records l).Sublist (m.records l ++ ofLatency l rs) := by
  rw [storeRecords_snd]
  induction rs generalizing m with
  | nil => simp [ofLatency]
  | cons r rs ih =>
    have hstep := (ih (m.storeRecord r).2).trans
      ((storeRecord_sublist m r l).append_right (ofLatency l rs))
    rw [append_assoc, ← ofLatency_append] at hstep
    exact hstep

namespace MemoryOp

/-- The operations that put reserved records back. -/
def Releases : MemoryOp → Prop
  | releaseRecords _ _ => True
  | releaseAllRecords => True
  | _ => False

/-- **A queue grows at its back only**, by the records stored under its
latency, as long as nothing is released. -/
theorem records_sublist (m : MemoryStorage) {op : MemoryOp} (hop : ¬ op.Releases) (l : Fin 5) :
    ((op.apply m).records l).Sublist (m.records l ++ ofLatency l op.stored) := by
  cases op with
  | storeRecord r => exact storeRecord_sublist m r l
  | storeRecords rs => exact storeRecords_sublist m rs l
  | getAndReserveRecords c leaseTimeMs minLatency maxCount now | getRecords minLatency maxCount =>
    exact (getAndReserveRecords_sublist m _ _ _ _ _ _ l).trans (sublist_append_left _ _)
  | deleteRecords ids =>
    exact (deleteRecords_sublist m ids l).trans (sublist_append_left _ _)
  | deleteRecordsWhere whereFilter =>
    rw [apply, deleteRecordsWhere_eq_without]
    exact filter_sublist.trans (sublist_append_left _ _)
  | deleteAllRecords => exact nil_sublist _
  | releaseRecords ids inc | releaseAllRecords => exact absurd trivial hop

/-- Along a history without releases a queue keeps the records of its
latency in the order they were stored. -/
theorem run_records_sublist {ops : List MemoryOp} (hops : ∀ op ∈ ops, ¬ op.Releases) (l : Fin 5) :
    ((run apply empty ops).records l).Sublist (ofLatency l (ops.flatMap stored)) := by
  have hrun : ∀ (m : MemoryStorage) (before : List StorageRecord),
      (m.records l).Sublist (ofLatency l before) →
      ((run apply m ops).records l).Sublist (ofLatency l (before ++ ops.flatMap stored)) := by
    induction ops with
    | nil => simp
    | cons op ops ih =>
      intro m before hm
      have hstep : ((op.apply m).records l).Sublist (ofLatency l (before ++ op.stored)) := by
        rw [ofLatency_append]
        exact (records_sublist m (hops op mem_cons_self) l).trans (hm.append_right _)
      have hrest := ih (fun op' h => hops op' (mem_cons_of_mem _ h)) (op.apply m) _ hstep
      rwa [append_assoc] at hrest
  exact hrun empty [] (List.Sublist.refl _)

/-- The records were stored oldest first. -/
def StoredInTime (ops : List MemoryOp) : Prop :=
  (ops.flatMap stored).Pairwise fun a b => a.timestamp ≤ b.timestamp

instance (ops : List MemoryOp) : Decidable (StoredInTime ops) :=
  inferInstanceAs (Decidable (List.Pairwise _ _))

end MemoryOp

/-- The latencies a read visits fall. -/
theorem latenciesFrom_falling (minLatency : EventLatency) :
    (latenciesFrom minLatency).Pairwise fun l l' => l' < l :=
  List.Pairwise.sublist filter_sublist (by decide)

theorem ofIndex_toInt (l : Fin 5) : (EventLatency.ofIndex l).toInt = (l.val : ℤ) := by
  revert l
  decide

/-- **What a read offers, in which order.** From queues that hold the
records of their latency oldest first, the latencies fall and the times
under one latency fall too. -/
theorem offered_falling (hown : ∀ l, ∀ r ∈ m.records l, r.latency = EventLatency.ofIndex l)
    (hrising : ∀ l, (m.records l).Pairwise fun a b => a.timestamp ≤ b.timestamp)
    (minLatency : EventLatency) (maxCount : ℕ) :
    (m.offered minLatency maxCount).Pairwise fun a b => b.latency.toInt ≤ a.latency.toInt ∧
      (a.latency.toInt = b.latency.toInt → b.timestamp ≤ a.timestamp) := by
  have hlatency : ∀ l, ∀ r ∈ (m.records l).reverse, r.latency.toInt = (l.val : ℤ) := fun l r hr => by
    rw [hown l r (mem_reverse.1 hr), ofIndex_toInt]
  refine List.Pairwise.sublist (take_sublist _ _) ?_
  unfold backs
  rw [pairwise_flatMap]
  refine ⟨fun l _ => ?_, (latenciesFrom_falling minLatency).imp fun hlt a ha b hb => ?_⟩
  · rw [pairwise_reverse]
    refine (hrising l).imp_of_mem fun ha hb htime => ?_
    rw [hlatency l _ (mem_reverse.2 ha), hlatency l _ (mem_reverse.2 hb)]
    exact ⟨le_refl _, fun _ => htime⟩
  · rw [hlatency _ a ha, hlatency _ b hb]
    have : (_ : ℤ) < _ := Int.ofNat_lt.2 (Fin.lt_def.1 hlt)
    exact ⟨this.le, fun heq => absurd heq this.ne'⟩

/-- The records a read shows, as it shows them. -/
theorem log_asked (m : MemoryStorage) (c : κ → StorageRecord → Bool × κ) (k : κ)
    (leaseTimeMs : ℕ) (minLatency : EventLatency) (maxCount now : ℕ) :
    (m.getAndReserveRecords (asked c) (k, []) leaseTimeMs minLatency maxCount now).2.1.2 =
      (asks (onCopies c leaseTimeMs now) k (m.offered minLatency maxCount)).map
        (forConsumer leaseTimeMs now) := by
  obtain ⟨records', heq, -⟩ :=
    getAndReserveRecords_spec m (asked c) (k, []) leaseTimeMs minLatency maxCount now
  rw [heq]
  show (offer (fun k r => asked c k (forConsumer leaseTimeMs now r)) (k, []) _).2.2 = _
  rw [offer_asked, nil_append]
  rfl

theorem orderKey_forConsumer (leaseTimeMs now : ℕ) (r : StorageRecord) :
    (forConsumer leaseTimeMs now r).orderKey = r.orderKey := by
  unfold forConsumer
  split_ifs <;> rfl

end MemoryStorage

/-! ## The database -/

namespace SQLite

variable {s : SQLite}

instance : Std.Total Before where
  total a b := by
    unfold Before
    omega

instance : IsTrans EventRow Before where
  trans a b c hab hbc := by
    unfold Before at *
    omega

/-- **The latencies are latencies**: the column has the numbers from
`Off` to `Max`. -/
def Ranged (s : SQLite) : Prop := ∀ row ∈ s.rows, 0 ≤ row.latency ∧ row.latency ≤ 4

theorem toInt_latencyOfColumn {n : ℤ} (h : 0 ≤ n ∧ n ≤ 4) : (latencyOfColumn n).toInt = n := by
  obtain ⟨hlow, hhigh⟩ := h
  interval_cases n <;> rfl

theorem mem_of_mem_selected {minLatency : EventLatency} {maxCount now : ℕ}
    {row : EventRow} (h : row ∈ s.selected minLatency maxCount now) :
    row ∈ releaseExpired now s.rows := by
  have hsorted := mem_of_mem_take h
  rw [mem_insertionSort] at hsorted
  exact mem_of_mem_filter hsorted

theorem orderKey_latency (hs : s.Ranged) {minLatency : EventLatency} {maxCount now : ℕ}
    {row : EventRow} (h : row ∈ s.selected minLatency maxCount now) :
    row.orderKey.latency = row.latency := by
  obtain ⟨row', hrow', rfl⟩ := mem_map.1 (mem_of_mem_selected h)
  refine toInt_latencyOfColumn ?_
  split_ifs <;> exact hs row' hrow'

/-- **The selected rows are in order.** -/
theorem selected_inOrder (hs : s.Ranged) (minLatency : EventLatency) (maxCount now : ℕ) :
    InOrder ((s.selected minLatency maxCount now).map EventRow.orderKey) := by
  have hsorted : (s.selected minLatency maxCount now).Pairwise Before :=
    (pairwise_insertionSort Before _).sublist (take_sublist _ _)
  refine pairwise_map.2 (hsorted.imp_of_mem fun {a b} ha hb hab => ?_)
  rw [orderKey_latency hs ha, orderKey_latency hs hb]
  rcases hab with hlt | ⟨heq, hlt | ⟨hper, htime⟩⟩
  · exact ⟨hlt.le, fun h => absurd h.symm hlt.ne⟩
  · exact ⟨heq.le, fun _ h => absurd h.symm hlt.ne⟩
  · exact ⟨heq.le, fun _ _ => htime⟩

/-- The rows a read shows, as it shows them. -/
theorem log_asked (hopen : s.Opened) (hf : s.engine.Faithful) {κ : Type}
    (c : κ → StorageRecord → Bool × κ) (k : κ) (leaseTimeMs : ℕ) (minLatency : EventLatency)
    (maxCount now : ℕ) :
    (s.getAndReserveRecords (asked c) (k, []) leaseTimeMs minLatency maxCount now).2.1.2 =
      (asks (fun k row => c k row.toRecord) k (s.selected minLatency maxCount now)).map
        EventRow.toRecord := by
  rw [getAndReserveRecords_walk hopen.1 hopen.2.1 hf, walk, offer_asked, nil_append]

end SQLite

/-! ## The order of a read -/

namespace MemoryStorage

/-- **The times do not differ**: no two records in a queue that a read
visits have one persistence and different times. -/
def SameTimes (m : MemoryStorage) (minLatency : EventLatency) : Prop :=
  ∀ l ∈ latenciesFrom minLatency, ∀ a ∈ m.records l, ∀ b ∈ m.records l,
    a.persistence = b.persistence → a.timestamp = b.timestamp

/-- What a read of the RAM queue shows. -/
def shown (m : MemoryStorage) {κ : Type} (c : κ → StorageRecord → Bool × κ) (k : κ)
    (leaseTimeMs : ℕ) (minLatency : EventLatency) (maxCount now : ℕ) : List StorageRecord :=
  (m.getAndReserveRecords (asked c) (k, []) leaseTimeMs minLatency maxCount now).2.1.2

theorem keys_shown (m : MemoryStorage) {κ : Type} (c : κ → StorageRecord → Bool × κ) (k : κ)
    (leaseTimeMs : ℕ) (minLatency : EventLatency) (maxCount now : ℕ) :
    (m.shown c k leaseTimeMs minLatency maxCount now).map StorageRecord.orderKey =
      (asks (onCopies c leaseTimeMs now) k (m.offered minLatency maxCount)).map
        StorageRecord.orderKey := by
  rw [shown, log_asked, map_map]
  exact map_congr_left fun r _ => orderKey_forConsumer leaseTimeMs now r

/-- Reads of queues that hold the records of their latency oldest first,
with any consumer and any count. -/
theorem shown_in_order_iff {m : MemoryStorage}
    (hown : ∀ l, ∀ r ∈ m.records l, r.latency = EventLatency.ofIndex l)
    (hrising : ∀ l, (m.records l).Pairwise fun a b => a.timestamp ≤ b.timestamp)
    (minLatency : EventLatency) :
    (∀ (κ : Type) (c : κ → StorageRecord → Bool × κ) (k : κ) (leaseTimeMs maxCount now : ℕ),
      InOrder ((m.shown c k leaseTimeMs minLatency maxCount now).map StorageRecord.orderKey)) ↔
      m.SameTimes minLatency := by
  -- what is shown is an initial segment of what the queues offer
  have hiff : ∀ {rs : List StorageRecord} {maxCount : ℕ}, rs <+: m.offered minLatency maxCount →
      (InOrder (rs.map StorageRecord.orderKey) ↔ ∀ a ∈ rs.map StorageRecord.orderKey,
        ∀ b ∈ rs.map StorageRecord.orderKey, a.latency = b.latency →
          a.persistence = b.persistence → a.timestamp = b.timestamp) := by
    intro rs maxCount hrs
    have hfalling := (offered_falling hown hrising minLatency maxCount).sublist hrs.sublist
    exact inOrder_iff_of_newest_first (pairwise_map.2 (hfalling.imp fun hab => hab.1))
      (pairwise_map.2 (hfalling.imp fun hab => hab.2))
  constructor
  · intro h l hl a ha b hb hper
    -- a consumer that takes everything is shown every queue
    have hall := h (List StorageRecord) collect [] 0
      ((backs m.records (latenciesFrom minLatency)).length + 1) 0
    have hshown : asks collect [] (m.offered minLatency
        ((backs m.records (latenciesFrom minLatency)).length + 1)) =
          backs m.records (latenciesFrom minLatency) := by
      rw [asks, offer_collect, offered, countBound, if_neg (Nat.succ_ne_zero _),
        take_of_length_le (Nat.le_succ _), take_of_length_le (Nat.le_succ _)]
    rw [keys_shown, onCopies_zero, hiff (asks_initial _ _ _), hshown] at hall
    have hmem : ∀ r ∈ m.records l, r.orderKey ∈
        (backs m.records (latenciesFrom minLatency)).map StorageRecord.orderKey := fun r hr =>
      mem_map_of_mem (mem_flatMap.2 ⟨l, hl, mem_reverse.2 hr⟩)
    refine hall _ (hmem a ha) _ (hmem b hb) ?_ (congrArg EventPersistence.toInt hper)
    exact congrArg EventLatency.toInt ((hown l a ha).trans (hown l b hb).symm)
  · intro h κ c k leaseTimeMs maxCount now
    have hinitial := asks_initial (onCopies c leaseTimeMs now) k (m.offered minLatency maxCount)
    rw [keys_shown, hiff hinitial]
    intro x hx y hy hlat hper
    obtain ⟨a, ha, rfl⟩ := mem_map.1 hx
    obtain ⟨b, hb, rfl⟩ := mem_map.1 hy
    obtain ⟨l, hl, hal⟩ := mem_flatMap.1 (mem_of_mem_take (hinitial.subset ha))
    obtain ⟨l', -, hbl⟩ := mem_flatMap.1 (mem_of_mem_take (hinitial.subset hb))
    rw [mem_reverse] at hal hbl
    have hsame : l = l' := by
      have hlat : a.latency.toInt = b.latency.toInt := hlat
      rw [hown l a hal, hown l' b hbl, ofIndex_toInt, ofIndex_toInt] at hlat
      exact Fin.ext (Int.ofNat_inj.1 hlat)
    exact h l hl a hal b (hsame ▸ hbl) (EventPersistence.toInt_injective hper)

end MemoryStorage

/-- Two records of one latency, stored one after the other. -/
def storedTwice (time time' : ℤ) : List MemoryStorage.MemoryOp :=
  [.storeRecord ⟨"a", "t", .normal, .normal, time, [1], 0, 0⟩,
    .storeRecord ⟨"b", "t", .normal, .normal, time', [2], 0, 0⟩]

end ClientTelemetry
