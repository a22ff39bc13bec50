import ClientTelemetry.Offline.Helpers.MemoryRead
/-!
# Storing, deleting and releasing in the RAM queue

What the writing loops of `MemoryStorage` leave behind, each as one
equation: the queues are filtered or extended, and the size is drained
by what left and raised by what came. A removal by ids walks the queues
with a set that shrinks as ids are found; where the held ids are all
different (`Distinct`) that is a plain filter (`deleteRecords_eq`).
-/

namespace ClientTelemetry

open List

namespace MemoryStorage

variable {m : MemoryStorage} {ids : Finset StorageRecordId} {size : ℕ} {r r' : StorageRecord}
  {rs : List StorageRecord} {l : Fin 5} {ls : List (Fin 5)} {inc : Bool}

/-- The records the store holds, queued or reserved. -/
def held (m : MemoryStorage) : List StorageRecord := m.queued ++ m.reservedRecords.values

/-- The reserved records are filed under their own ids. -/
def Keyed (m : MemoryStorage) : Prop := ∀ e ∈ m.reservedRecords.entries, e.2.id = e.1

/-- **No id is held twice**, in one place or in two. -/
def Distinct (m : MemoryStorage) : Prop := (m.held.map StorageRecord.id).Nodup

theorem Distinct.queued (h : m.Distinct) : (m.queued.map StorageRecord.id).Nodup := by
  rw [Distinct, held, map_append] at h
  exact h.of_append_left

theorem Keyed.values_ids (h : m.Keyed) :
    m.reservedRecords.values.map StorageRecord.id = m.reservedRecords.keys := by
  rw [OrdMap.values, OrdMap.keys, map_map]
  exact map_congr_left h

/-- A queued id is not a reserved one. -/
theorem Distinct.not_reserved (h : m.Distinct) (hkey : m.Keyed)
    (hr : r ∈ m.queued) : r.id ∉ m.reservedRecords.keys := by
  rw [Distinct, held, map_append, hkey.values_ids] at h
  exact fun hmem => (nodup_append.1 h).2.2 _ (mem_map_of_mem hr) _ hmem rfl

/-! ## Removal by ids -/

/-- **One queue, by ids.** -/
theorem eraseIds_eq (h : (rs.map StorageRecord.id).Nodup) : eraseIds rs ids size =
      (rs.filter (·.id ∉ ids), ids \ (rs.map StorageRecord.id).toFinset,
        drain StorageRecord.queueSize size (rs.filter (·.id ∈ ids))) := by
  induction rs generalizing ids size with
  | nil => simp [eraseIds]
  | cons r rs ih =>
    rw [map_cons, nodup_cons] at h
    rw [eraseIds]
    split_ifs with hr
    · -- the id is spent on this record, and no later one has it
      have hne : ∀ r' ∈ rs, r'.id ≠ r.id := fun r' hr' he => h.1 (he ▸ mem_map_of_mem hr')
      have hkeep : rs.filter (·.id ∉ ids.erase r.id) = rs.filter (·.id ∉ ids) :=
        filter_congr fun r' hr' => by simp [hne r' hr']
      have hdrop : rs.filter (·.id ∈ ids.erase r.id) = rs.filter (·.id ∈ ids) :=
        filter_congr fun r' hr' => by simp [hne r' hr']
      rw [ih h.2, hkeep, hdrop]
      simp [hr, Finset.erase_sdiff_comm, Finset.sdiff_insert]
    · have hids : ids \ insert r.id (rs.map StorageRecord.id).toFinset =
          ids \ (rs.map StorageRecord.id).toFinset := Finset.sdiff_insert_of_notMem hr _
      rw [ih h.2]
      simp [hr, hids]

/-- Taking a list of ids out of a set that misses a record's id does not
change what the set says of that record. -/
theorem mem_sdiff_ids (h : r.id ∉ rs.map StorageRecord.id) :
    r.id ∈ ids \ (rs.map StorageRecord.id).toFinset ↔ r.id ∈ ids := by
  simp only [Finset.mem_sdiff, mem_toFinset]
  exact ⟨fun hmem => hmem.1, fun hmem => ⟨hmem, h⟩⟩

theorem update_of_mem {i : Fin 5} (hl : l ∉ ls) (hi : i ∈ ls)
    (q : List StorageRecord) : Function.update m.records l q i = m.records i :=
  Function.update_of_ne (ne_of_mem_of_not_mem hi hl) ..

/-- The later queues are as they were. -/
theorem flatMap_update (hl : l ∉ ls) (q : List StorageRecord) :
    ls.flatMap (Function.update m.records l q) = ls.flatMap m.records :=
  flatMap_congr fun _ hi => update_of_mem hl hi q

/-- A walk over the queues, one queue first and the others after it: what
is kept of each queue is kept of all of them. -/
theorem records_walked (hl : l ∉ ls) (keep keep' : List StorageRecord → List StorageRecord)
    (hrest : ∀ i ∈ ls, keep' (m.records i) = keep (m.records i)) :
    (fun i => if i ∈ ls then keep' (Function.update m.records l (keep (m.records l)) i)
      else Function.update m.records l (keep (m.records l)) i) =
        fun i => if i ∈ l :: ls then keep (m.records i) else m.records i := by
  funext i
  rcases eq_or_ne i l with rfl | hi
  · simp [hl]
  · by_cases hmem : i ∈ ls
    · rw [if_pos hmem, if_pos (mem_cons_of_mem l hmem), update_of_mem hl hmem, hrest i hmem]
    · simp [hmem, hi]

/-- **The queues, by ids.** -/
theorem eraseQueued_eq (hls : ls.Nodup) (h : ((ls.flatMap m.records).map StorageRecord.id).Nodup) :
    eraseQueued ls m ids =
      { m with
        records := fun l => if l ∈ ls then (m.records l).filter (·.id ∉ ids) else m.records l
        size := drain StorageRecord.queueSize m.size
          ((ls.flatMap m.records).filter (·.id ∈ ids)) } := by
  induction ls generalizing m ids with
  | nil => simp [eraseQueued]
  | cons l ls ih =>
    rw [nodup_cons] at hls
    rw [flatMap_cons, map_append] at h
    have hdisj : ∀ i ∈ ls, ∀ r ∈ m.records i, r.id ∉ (m.records l).map StorageRecord.id := by
      intro i hi r hr hmem
      exact (nodup_append.1 h).2.2 _ hmem _
        (mem_map_of_mem (mem_flatMap.2 ⟨i, hi, hr⟩)) rfl
    have hrest := flatMap_update (m := m) hls.1
    have hspent : (ls.flatMap m.records).filter
        (·.id ∈ ids \ ((m.records l).map StorageRecord.id).toFinset) =
          (ls.flatMap m.records).filter (·.id ∈ ids) := by
      refine filter_congr fun r hr => ?_
      obtain ⟨i, hi, hri⟩ := mem_flatMap.1 hr
      exact decide_eq_decide.2 (mem_sdiff_ids (hdisj i hi r hri))
    rw [eraseQueued, eraseIds_eq h.of_append_left]
    dsimp only
    have hwalked := records_walked (m := m) hls.1 (List.filter (·.id ∉ ids))
      (List.filter (·.id ∉ ids \ ((m.records l).map StorageRecord.id).toFinset))
      fun i hi => filter_congr fun r hr =>
        decide_eq_decide.2 (not_congr (mem_sdiff_ids (hdisj i hi r hr)))
    rw [ih hls.2 (by rw [hrest]; exact h.of_append_right), hrest, hspent, flatMap_cons,
      filter_append, drain_append, hwalked]

/-- **`DeleteRecords` by ids removes the named records and nothing
else**, wherever they are. -/
theorem deleteRecords_eq (hkey : m.Keyed) (h : m.Distinct) (ids : List StorageRecordId) :
    m.deleteRecords ids =
      { m with
        reservedRecords := m.reservedRecords.filter fun e => e.1 ∉ ids
        records := fun l => (m.records l).filter (·.id ∉ ids)
        size := drain StorageRecord.queueSize m.size (m.queued.filter (·.id ∈ ids)) } := by
  rw [deleteRecords]
  simp only [mem_toFinset]
  split_ifs with hsub
  · -- every id is a reserved one, so none is queued
    have hnone : ∀ r ∈ m.queued, r.id ∉ ids := by
      intro r hr hmem
      have := hsub.2 (mem_toFinset.2 hmem)
      exact h.not_reserved hkey hr (mem_toFinset.1 this)
    have hkeep : (fun l => (m.records l).filter (·.id ∉ ids)) = m.records := funext fun l =>
      filter_eq_self.2 fun r hr => by simpa using hnone r (mem_queued.2 ⟨l, hr⟩)
    have hdrop : m.queued.filter (·.id ∈ ids) = [] :=
      filter_eq_nil_iff.2 fun r hr => by simpa using hnone r hr
    rw [hkeep, hdrop, drain_nil]
  · set kept : MemoryStorage :=
      { m with reservedRecords := m.reservedRecords.filter fun e => e.1 ∉ ids } with hkept
    have hqueued : ((names.flatMap kept.records).map StorageRecord.id).Nodup := h.queued
    refine (eraseQueued_eq names_nodup hqueued).trans ?_
    simp only [mem_names, if_true, mem_toFinset, hkept]
    rfl

/-! ## Removal by a filter -/

variable {whereFilter : OrdMap String String}

/-- **One queue, by a filter.** -/
theorem eraseMatching_eq (rs : List StorageRecord) : eraseMatching whereFilter rs size =
      (rs.filter (!matcher whereFilter ·),
        drain StorageRecord.queueSize size (rs.filter (matcher whereFilter ·))) := by
  induction rs generalizing size with
  | nil => simp [eraseMatching]
  | cons r rs ih =>
    rw [eraseMatching]
    split_ifs with hr <;> simp [ih, hr]

/-- **The queues, by a filter.** -/
theorem eraseMatchingQueued_eq (hls : ls.Nodup) : eraseMatchingQueued whereFilter ls m =
      { m with
        records := fun l =>
          if l ∈ ls then (m.records l).filter (!matcher whereFilter ·) else m.records l
        size := drain StorageRecord.queueSize m.size
          ((ls.flatMap m.records).filter (matcher whereFilter ·)) } := by
  induction ls generalizing m with
  | nil => simp [eraseMatchingQueued]
  | cons l ls ih =>
    rw [nodup_cons] at hls
    have hrest := flatMap_update (m := m) hls.1
    rw [eraseMatchingQueued, eraseMatching_eq]
    dsimp only
    rw [ih hls.2, hrest, flatMap_cons, filter_append, drain_append,
      records_walked hls.1 _ _ fun _ _ => rfl]

/-- The reserved part of a removal by a filter: the ids it hands on are
all reserved, so the queues are not walked. -/
theorem deleteRecords_of_reserved {ids : List StorageRecordId}
    (hsub : ∀ i ∈ ids, i ∈ m.reservedRecords.keys) (hne : ids ≠ []) : m.deleteRecords ids =
      { m with reservedRecords := m.reservedRecords.filter fun e => e.1 ∉ ids } := by
  have hentries : m.reservedRecords.entries ≠ [] := by
    obtain ⟨i, hi⟩ := exists_mem_of_ne_nil ids hne
    obtain ⟨v, hv⟩ := OrdMap.mem_keys.1 (hsub i hi)
    exact ne_nil_of_mem hv
  have hkeys : ids.toFinset ⊆ m.reservedRecords.keys.toFinset := fun i hi =>
    mem_toFinset.2 (hsub i (mem_toFinset.1 hi))
  rw [deleteRecords, if_pos ⟨hentries, hkeys⟩]
  simp only [mem_toFinset]

/-- **`DeleteRecords` by a filter removes the records that match and
nothing else**, whatever the store holds. -/
theorem deleteRecordsWhere_eq (m : MemoryStorage) (whereFilter : OrdMap String String) :
    m.deleteRecordsWhere whereFilter =
      { m with
        reservedRecords := m.reservedRecords.filter fun e => !matcher whereFilter e.2
        records := fun l => (m.records l).filter (!matcher whereFilter ·)
        size := drain StorageRecord.queueSize m.size
          (m.queued.filter (matcher whereFilter ·)) } := by
  set reservedIds :=
    (m.reservedRecords.entries.filter fun kv => matcher whereFilter kv.2).map Prod.fst with hids
  have hmem : ∀ e ∈ m.reservedRecords.entries,
      (e.1 ∈ reservedIds ↔ matcher whereFilter e.2 = true) := by
    intro e he
    simp only [hids, mem_map, List.mem_filter]
    refine ⟨?_, fun hm => ⟨e, ⟨he, hm⟩, rfl⟩⟩
    rintro ⟨e', ⟨he', hm⟩, heq⟩
    rwa [OrdMap.entry_unique he he' heq.symm]
  have hfilter : (m.reservedRecords.filter fun e => e.1 ∉ reservedIds) =
      m.reservedRecords.filter fun e => !matcher whereFilter e.2 :=
    OrdMap.ext (filter_congr fun e he => by simp [hmem e he])
  have hreserved : (if reservedIds ≠ [] then m.deleteRecords reservedIds else m) =
      { m with reservedRecords := m.reservedRecords.filter fun e => !matcher whereFilter e.2 } := by
    rw [← hfilter]
    split_ifs with hne
    · refine deleteRecords_of_reserved (fun i hi => ?_) hne
      obtain ⟨e, he, rfl⟩ := mem_map.1 hi
      exact mem_map_of_mem (mem_of_mem_filter he)
    · have hnil : reservedIds = [] := by simpa using hne
      simp [hnil, OrdMap.filter]
  rw [deleteRecordsWhere]
  simp only [← hids]
  rw [hreserved]
  refine (eraseMatchingQueued_eq names_nodup).trans ?_
  simp only [mem_names, if_true]
  rfl

/-! ## Storing -/

/-- **What storing the given records leaves**: each is at the back of the
queue of its latency, and the size has grown by them. -/
structure Stores (m : MemoryStorage) (rs : List StorageRecord) (m' : MemoryStorage) : Prop where
  queue : ∀ l, ∀ r ∈ m'.records l, r ∈ m.records l ∨ (r ∈ rs ∧ r.latency = EventLatency.ofIndex l)
  perm : m'.queued.Perm (m.queued ++ rs)
  size : m'.size = m.size + (rs.map StorageRecord.queueSize).sum
  reserved : m'.reservedRecords = m.reservedRecords

theorem Stores.refl (m : MemoryStorage) : Stores m [] m :=
  ⟨fun _ _ h => Or.inl h, by simp, by simp, rfl⟩

theorem Stores.trans {m' m'' : MemoryStorage} {rs' : List StorageRecord} (h : Stores m rs m')
    (h' : Stores m' rs' m'') : Stores m (rs ++ rs') m'' := by
  refine ⟨fun l r hr => ?_, ?_, ?_, h'.reserved.trans h.reserved⟩
  · rcases h'.queue l r hr with hr | ⟨hr, hl⟩
    · exact (h.queue l r hr).imp_right fun h => ⟨mem_append_left _ h.1, h.2⟩
    · exact Or.inr ⟨mem_append_right _ hr, hl⟩
  · rw [← append_assoc]
    exact h'.perm.trans (h.perm.append_right _)
  · rw [h'.size, h.size, map_append, sum_append]
    omega

/-- A record of latency `Off` is turned down. -/
theorem storeRecord_off (h : r.latency = .off) : m.storeRecord r = (false, m) :=
  if_pos h

theorem storeRecord_fst (r : StorageRecord) : (m.storeRecord r).1 = decide (r.latency ≠ .off) := by
  rw [storeRecord]
  split_ifs with h <;> simp [h]

/-- A record of any other latency is stored in its queue. -/
theorem storeRecord_stores (h : r.latency.Storable) :
    Stores m [r] (m.storeRecord r).2 := by
  rw [storeRecord, if_neg h.2]
  obtain ⟨l, hl⟩ : ∃ l, r.latency.index? = some l := by
    rcases hr : r.latency with _ | _ | _ | _ | _ | _
    · exact absurd hr h.1
    all_goals exact ⟨_, rfl⟩
  have hlat := EventLatency.index?_eq_some.1 hl
  have hpush : pushBack m.records r = Function.update m.records l (m.records l ++ [r]) := by
    rw [pushBack, hl]
  rw [hpush]
  refine ⟨fun i r' hr' => ?_, ?_, by simp, rfl⟩
  · rcases eq_or_ne i l with rfl | hi
    · have hmem : r' ∈ m.records i ++ [r] := by simpa using hr'
      rcases mem_append.1 hmem with h' | h'
      · exact Or.inl h'
      · exact Or.inr ⟨h', by rw [mem_singleton.1 h', hlat]⟩
    · exact Or.inl (by simpa [hi] using hr')
  · have hone : (Function.update m.records l (m.records l ++ [r]) l).Perm ([r] ++ m.records l) := by
      rw [Function.update_self]
      exact perm_append_comm
    exact (flatMap_perm_of_eq_off names_nodup (mem_names l)
      (fun i hi => Function.update_of_ne hi ..) hone).trans perm_append_comm

/-- **Storing a list stores those of its records that are not `Off`.** -/
theorem foldl_storeRecord_stores (h : ∀ r ∈ rs, r.latency ≠ .unspecified) :
    Stores m (rs.filter (·.latency ≠ .off)) (rs.foldl (fun m r => (m.storeRecord r).2) m) := by
  induction rs generalizing m with
  | nil => exact Stores.refl m
  | cons r rs ih =>
    have hrest := fun m => ih (m := m) fun r' hr' => h r' (mem_cons_of_mem _ hr')
    rw [foldl_cons]
    by_cases hr : r.latency = .off
    · rw [storeRecord_off hr, filter_cons_of_neg (by simp [hr])]
      exact hrest m
    · rw [filter_cons_of_pos (by simp [hr])]
      exact (storeRecord_stores ⟨h r mem_cons_self, hr⟩).trans (hrest _)

/-- `StoreRecords` stores its records one by one. -/
theorem storeRecords_snd (rs : List StorageRecord) :
    (m.storeRecords rs).2 = rs.foldl (fun m r => (m.storeRecord r).2) m := by
  unfold storeRecords
  generalize 0 = n
  induction rs generalizing m n with
  | nil => rfl
  | cons r rs ih => exact ih _

theorem released_latency (inc : Bool) (r : StorageRecord) : (released inc r).latency = r.latency := by
  unfold released
  split_ifs <;> rfl

@[simp] theorem released_payload (inc : Bool) (r : StorageRecord) :
    (released inc r).payload = r.payload := by
  unfold released
  split_ifs <;> rfl

/-- **A release puts its records back in their queues.** -/
theorem restore_stores (h : ∀ r ∈ rs, r.latency.Storable) :
    Stores m (rs.map (released inc)) (m.restore inc rs) := by
  have hlat : ∀ r ∈ rs.map (released inc), r.latency.Storable := by
    intro r hr
    obtain ⟨r₀, hr₀, rfl⟩ := mem_map.1 hr
    rw [released_latency]
    exact h r₀ hr₀
  have hall : (rs.map (released inc)).filter (·.latency ≠ .off) = rs.map (released inc) :=
    filter_eq_self.2 fun r hr => by simpa using (hlat r hr).2
  have := foldl_storeRecord_stores (m := m) fun r hr => (hlat r hr).1
  rwa [hall, foldl_map] at this

/-! ## Nothing new is held -/

theorem mem_held :
    r ∈ m.held ↔ (∃ l, r ∈ m.records l) ∨ r ∈ m.reservedRecords.values := by
  rw [held, mem_append, mem_queued]

theorem eraseIds_subset (rs : List StorageRecord) (ids : Finset StorageRecordId) (size : ℕ) :
    (eraseIds rs ids size).1 ⊆ rs := by
  induction rs generalizing ids size with
  | nil => simp [eraseIds]
  | cons r rs ih =>
    rw [eraseIds]
    split_ifs
    · exact List.Subset.trans (ih _ _) (subset_cons_self _ _)
    · exact cons_subset_cons _ (ih _ _)

theorem eraseQueued_subset (ls : List (Fin 5)) (m : MemoryStorage) (ids : Finset StorageRecordId) :
    (∀ l, (eraseQueued ls m ids).records l ⊆ m.records l) ∧
      (eraseQueued ls m ids).reservedRecords = m.reservedRecords := by
  induction ls generalizing m ids with
  | nil => exact ⟨fun l => List.Subset.refl _, rfl⟩
  | cons l ls ih =>
    rw [eraseQueued]
    obtain ⟨hsub, hres⟩ := ih { m with
      records := Function.update m.records l (eraseIds (m.records l) ids m.size).1
      size := (eraseIds (m.records l) ids m.size).2.2 } (eraseIds (m.records l) ids m.size).2.1
    refine ⟨fun i => List.Subset.trans (hsub i) ?_, hres⟩
    rcases eq_or_ne i l with rfl | hi
    · simpa using eraseIds_subset _ _ _
    · simp [hi]

theorem filter_values_subset (m : MemoryStorage) (p : StorageRecordId × StorageRecord → Bool) :
    (m.reservedRecords.filter p).values ⊆ m.reservedRecords.values :=
  map_subset _ (filter_subset_self _)

/-- A removal by ids leaves records that were held. -/
theorem held_deleteRecords_subset (ids : List StorageRecordId) :
    (m.deleteRecords ids).held ⊆ m.held := by
  intro r hr
  rw [deleteRecords] at hr
  split_ifs at hr with hall
  · rw [mem_held] at hr ⊢
    exact hr.imp_right fun hr => filter_values_subset m _ hr
  · obtain ⟨hq, hres⟩ := eraseQueued_subset [0, 1, 2, 3, 4]
      { m with reservedRecords := m.reservedRecords.filter fun e => e.1 ∉ ids.toFinset }
      ids.toFinset
    rw [mem_held] at hr ⊢
    rw [hres] at hr
    exact hr.imp (fun ⟨l, hl⟩ => ⟨l, hq l hl⟩) fun hr => filter_values_subset m _ hr

theorem mem_storeRecord_records
    (h : r' ∈ (m.storeRecord r).2.records l) : r' = r ∨ r' ∈ m.records l := by
  rw [storeRecord] at h
  split_ifs at h with hoff
  · exact Or.inr h
  · unfold pushBack at h
    rcases hi : r.latency.index? with _ | i
    · rw [hi] at h
      exact Or.inr h
    · rw [hi] at h
      rcases eq_or_ne l i with rfl | hne
      · have hmem : r' ∈ m.records l ++ [r] := by simpa using h
        exact (mem_append.1 hmem).symm.imp_left mem_singleton.1
      · exact Or.inr (by simpa [hne] using h)

theorem storeRecord_reserved (r : StorageRecord) :
    (m.storeRecord r).2.reservedRecords = m.reservedRecords := by
  unfold storeRecord
  split_ifs <;> rfl

/-- A store adds its record at most. -/
theorem mem_held_storeRecord (h : r' ∈ (m.storeRecord r).2.held) :
    r' = r ∨ r' ∈ m.held := by
  rw [mem_held, storeRecord_reserved] at h
  rcases h with ⟨l, hl⟩ | h
  · exact (mem_storeRecord_records hl).imp_right fun hl => mem_held.2 (Or.inl ⟨l, hl⟩)
  · exact Or.inr (mem_held.2 (Or.inr h))

theorem mem_held_restore
    (h : r ∈ (m.restore inc rs).held) : r ∈ m.held ∨ ∃ r₀ ∈ rs, r = released inc r₀ := by
  induction rs generalizing m with
  | nil => exact Or.inl h
  | cons r₁ rs ih =>
    rcases ih h with h | ⟨r₀, hr₀, rfl⟩
    · rcases mem_held_storeRecord h with rfl | h
      · exact Or.inr ⟨r₁, mem_cons_self, rfl⟩
      · exact Or.inl h
    · exact Or.inr ⟨r₀, mem_cons_of_mem _ hr₀, rfl⟩

/-- A release leaves records that were held, some of them with one more
attempt. -/
theorem mem_held_releaseRecords {ids : List StorageRecordId}
    (h : r ∈ (m.releaseRecords ids inc).held) : r ∈ m.held ∨ ∃ r₀ ∈ m.held, r = released inc r₀ := by
  rcases mem_held_restore h with h | ⟨r₀, hr₀, rfl⟩
  · rw [mem_held] at h
    exact Or.inl (mem_held.2 (h.imp_right fun hr => filter_values_subset m _ hr))
  · exact Or.inr ⟨r₀, mem_held.2 (Or.inr (filter_values_subset m _ hr₀)), rfl⟩

/-- Releasing everything leaves the records that were held. -/
theorem held_releaseAllRecords_subset : m.releaseAllRecords.held ⊆ m.held := by
  intro r hr
  rcases mem_held_restore hr with hr | ⟨r₀, hr₀, rfl⟩
  · rw [mem_held] at hr
    exact mem_held.2 (hr.imp_right fun hr => by cases hr)
  · exact mem_held.2 (Or.inr hr₀)

/-- A read leaves records that were held. -/
theorem held_getAndReserveRecords_subset {κ : Type} (c : κ → StorageRecord → Bool × κ) (k : κ)
    (leaseTimeMs : ℕ) (minLatency : EventLatency) (maxCount now : ℕ) :
    (m.getAndReserveRecords c k leaseTimeMs minLatency maxCount now).2.2.held ⊆ m.held := by
  obtain ⟨records', heq, hsub, -⟩ :=
    getAndReserveRecords_spec m c k leaseTimeMs minLatency maxCount now
  intro r hr
  rw [heq, mem_held] at hr
  rcases hr with ⟨l, hl⟩ | hr
  · exact mem_held.2 (Or.inl ⟨l, (hsub l).subset hl⟩)
  · dsimp only at hr
    split_ifs at hr
    · obtain ⟨e, he, rfl⟩ := mem_map.1 hr
      rcases OrdMap.mem_insertAll_imp he with he | ⟨r, hwalk, rfl⟩
      · exact mem_held.2 (Or.inr (mem_map_of_mem he))
      · exact mem_held.2 (Or.inl (mem_queued.1 (mem_queued_of_mem_walk hwalk)))
    · exact mem_held.2 (Or.inr hr)

/-! ## The empty list of ids -/

theorem eraseIds_empty (rs : List StorageRecord) (size : ℕ) : eraseIds rs ∅ size = (rs, ∅, size) := by
  induction rs with
  | nil => rfl
  | cons r rs ih => simp [eraseIds, ih]

theorem eraseQueued_empty (ls : List (Fin 5)) (m : MemoryStorage) : eraseQueued ls m ∅ = m := by
  induction ls generalizing m with
  | nil => rfl
  | cons l ls ih =>
    rw [eraseQueued, eraseIds_empty]
    simp [ih]

/-- A removal of no ids removes nothing. -/
theorem deleteRecords_nil (m : MemoryStorage) : m.deleteRecords [] = m := by
  have hkeep : (m.reservedRecords.filter fun e => e.1 ∉ ([] : List StorageRecordId).toFinset) =
      m.reservedRecords := OrdMap.ext (by simp [OrdMap.filter])
  unfold deleteRecords
  dsimp only
  rw [hkeep]
  split_ifs
  · rfl
  · exact eraseQueued_empty _ m

end MemoryStorage

end ClientTelemetry
