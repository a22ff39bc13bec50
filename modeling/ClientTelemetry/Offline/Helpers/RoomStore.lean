import ClientTelemetry.Offline.Helpers.DiskCalls
import ClientTelemetry.Offline.Helpers.Room
import ClientTelemetry.Offline.Model.RoomStore
import ClientTelemetry.Utils.StringUtils
/-!
# The calls of the Android store in one step

Deleting in blocks deletes the whole list of ids (`deleteById_eq`). A
release that counts a retry, of ids that differ, drops the rows named that
have had their retries and counts one for the others named
(`releaseRecords_rows`), and its map counts those it dropped
(`releaseRecords_counts`). The id a row was handed out under is parsed
back to it (`stoll_toString`).
-/

namespace ClientTelemetry

open List

namespace RoomTable

variable {t : RoomTable} {ids : List ℤ} {maximumRetries : ℤ}

/-! ## Deleting -/

theorem rows_deleteByIdBlock (t : RoomTable) (ids : List ℤ) :
    (t.deleteByIdBlock ids).rows = t.rows.filter fun row => row.id ∉ ids := rfl

/-- The blocks delete the whole list. -/
theorem deleteById_eq (t : RoomTable) (ids : List ℤ) :
    t.deleteById ids = t.deleteByIdBlock ids := by
  refine foldl_blocksOf (fun t => ?_) (fun as bs t => ?_) (by decide) ids t
  · ext1
    simp [rows_deleteByIdBlock]
  · ext1
    rw [rows_deleteByIdBlock, rows_deleteByIdBlock, rows_deleteByIdBlock, filter_filter]
    refine filter_congr fun row _ => ?_
    by_cases ha : row.id ∈ as <;> by_cases hb : row.id ∈ bs <;> simp [ha, hb]

/-! ## Ids -/

theorem largestId_le {bound : ℤ} (hpos : 0 ≤ bound) (h : ∀ row ∈ t.rows, row.id ≤ bound) :
    t.largestId ≤ bound := by
  have hfold : ∀ (rows : List RoomRecord) (m : ℤ), m ≤ bound → (∀ row ∈ rows, row.id ≤ bound) →
      rows.foldl (fun m row => max m row.id) m ≤ bound := by
    intro rows
    induction rows with
    | nil => exact fun m hm _ => hm
    | cons row rows ih =>
      intro m hm hrows
      exact ih _ (max_le hm (hrows row mem_cons_self))
        fun row' hrow' => hrows row' (mem_cons_of_mem _ hrow')
  exact hfold t.rows 0 hpos h

/-! ## Releasing -/

/-- The rows a release drops: those it names that have had their
retries. -/
def worn (ids : List ℤ) (maximumRetries : ℤ) (rows : List RoomRecord) : List RoomRecord :=
  rows.filter fun row => row.id ∈ ids ∧ maximumRetries ≤ row.retryCount

/-- A row named and not dropped. -/
def retriedOnce (ids : List ℤ) (row : RoomRecord) : RoomRecord :=
  if row.id ∈ ids then { row with reservedUntil := 0, retryCount := row.retryCount + 1 } else row

theorem retriedOnce_nil : retriedOnce [] = id := funext fun _ => if_neg not_mem_nil

@[simp] theorem retriedOnce_id (ids : List ℤ) (row : RoomRecord) :
    (retriedOnce ids row).id = row.id := by
  unfold retriedOnce
  split_ifs <;> rfl

@[simp] theorem retriedOnce_tenantToken (ids : List ℤ) (row : RoomRecord) :
    (retriedOnce ids row).tenantToken = row.tenantToken := by
  unfold retriedOnce
  split_ifs <;> rfl

/-- The rows after one block. Deleting by the primary key deletes the rows
selected and no other. -/
theorem releaseBlock_rows (acc : RoomTable × OrdMap String ℕ) (block : List ℤ) :
    (releaseBlock maximumRetries acc block).1.rows =
      (acc.1.rows.filter fun row => ¬ (row.id ∈ block ∧ maximumRetries ≤ row.retryCount)).map
        (retriedOnce block) := by
  show ((acc.1.rows.filter fun row => row.id ∉ (acc.1.rows.filter _).map RoomRecord.id).map _) = _
  have hfilter : (acc.1.rows.filter fun row => row.id ∉
      (acc.1.getRetryExpired block maximumRetries).map RoomRecord.id) =
      acc.1.rows.filter fun row => ¬ (row.id ∈ block ∧ maximumRetries ≤ row.retryCount) := by
    refine filter_congr fun row hrow => decide_eq_decide.2 (not_congr ⟨fun hmem => ?_, ?_⟩)
    · obtain ⟨row', hrow', hid⟩ := mem_map.1 hmem
      obtain ⟨hin, htest⟩ := List.mem_filter.1 hrow'
      obtain rfl := eq_of_id_eq hin hrow hid
      exact of_decide_eq_true htest
    · exact fun htest => mem_map_of_mem (List.mem_filter.2 ⟨hrow, decide_eq_true htest⟩)
  exact congrArg (List.map (retriedOnce block)) hfilter

/-- **The rows after all blocks**, of ids that differ. -/
theorem foldl_releaseBlock_rows (maximumRetries : ℤ) (blocks : List (List ℤ))
    (hnodup : blocks.flatten.Nodup) (acc : RoomTable × OrdMap String ℕ) :
    (blocks.foldl (releaseBlock maximumRetries) acc).1.rows =
      (acc.1.rows.filter fun row =>
        ¬ (row.id ∈ blocks.flatten ∧ maximumRetries ≤ row.retryCount)).map
        (retriedOnce blocks.flatten) := by
  induction blocks generalizing acc with
  | nil =>
    simp only [foldl_nil, flatten_nil, not_mem_nil, false_and, not_false_eq_true,
      decide_true, filter_true, retriedOnce_nil, map_id]
  | cons block blocks ih =>
    rw [flatten_cons, nodup_append] at hnodup
    obtain ⟨-, hrest, hdisjoint⟩ := hnodup
    -- a row of the block is in no later block, so it is looked at once
    have hapart : ∀ i, i ∈ block → i ∉ blocks.flatten := fun i hi hi' => hdisjoint i hi i hi' rfl
    rw [foldl_cons, ih hrest, releaseBlock_rows, filter_map, map_map,
      filter_filter, flatten_cons]
    generalize blocks.flatten = rest at hapart
    have hfilter : (acc.1.rows.filter fun row =>
        ((fun row => decide ¬ (row.id ∈ rest ∧ maximumRetries ≤ row.retryCount)) ∘
          retriedOnce block) row &&
        decide ¬ (row.id ∈ block ∧ maximumRetries ≤ row.retryCount)) =
        acc.1.rows.filter fun row =>
          ¬ (row.id ∈ block ++ rest ∧ maximumRetries ≤ row.retryCount) := by
      refine filter_congr fun row _ => ?_
      by_cases hin : row.id ∈ block
      · simp [hin, hapart _ hin]
      · simp [hin, retriedOnce]
    rw [hfilter]
    refine map_congr_left fun row _ => ?_
    by_cases hin : row.id ∈ block
    · simp [retriedOnce, hin, hapart _ hin]
    · simp [retriedOnce, hin]

theorem countByTenant_eq (m : OrdMap String ℕ) (records : List RoomRecord) :
    countByTenant m records = m.tally (records.map RoomRecord.tenantToken) := by
  rw [OrdMap.tally, foldl_map, countByTenant]

/-- What a block drops and what the others drop after it is what they drop
together. -/
theorem worn_append_perm {block rest : List ℤ} (hapart : ∀ i ∈ block, i ∉ rest) (t : RoomTable)
    (m : OrdMap String ℕ) : ((worn block maximumRetries t.rows).map RoomRecord.tenantToken ++
        (worn rest maximumRetries (releaseBlock maximumRetries (t, m) block).1.rows).map
          RoomRecord.tenantToken).Perm
      ((worn (block ++ rest) maximumRetries t.rows).map RoomRecord.tenantToken) := by
  refine perm_iff_count.2 fun tenantToken => ?_
  rw [count_append, releaseBlock_rows]
  simp only [List.count, worn, countP_filter, filter_map, countP_map]
  refine (countP_eq_add fun row _ => ?_).symm
  by_cases hin : row.id ∈ block
  · simp [retriedOnce, hin, hapart _ hin]
  · simp [retriedOnce, hin]

/-- **The counts after all blocks.** -/
theorem foldl_releaseBlock_counts (maximumRetries : ℤ) (blocks : List (List ℤ))
    (hnodup : blocks.flatten.Nodup) (acc : RoomTable × OrdMap String ℕ) :
    (blocks.foldl (releaseBlock maximumRetries) acc).2 =
      acc.2.tally ((worn blocks.flatten maximumRetries acc.1.rows).map RoomRecord.tenantToken) := by
  induction blocks generalizing acc with
  | nil => simp [worn, OrdMap.tally]
  | cons block blocks ih =>
    rw [flatten_cons, nodup_append] at hnodup
    obtain ⟨-, hrest, hdisjoint⟩ := hnodup
    have hapart : ∀ i ∈ block, i ∉ blocks.flatten := fun i hi hi' => hdisjoint i hi i hi' rfl
    have hblock : (releaseBlock maximumRetries acc block).2 =
        acc.2.tally ((worn block maximumRetries acc.1.rows).map RoomRecord.tenantToken) :=
      countByTenant_eq _ _
    rw [foldl_cons, ih hrest, hblock, ← OrdMap.tally_append]
    exact OrdMap.tally_perm (worn_append_perm hapart acc.1 acc.2)

theorem flatten_idCount (ids : List ℤ) : (blocksOf idCount ids.length ids).flatten = ids :=
  flatten_blocksOf (by decide) (le_refl _)

/-- **A release that counts a retry.** -/
theorem releaseRecords_rows (t : RoomTable) (hnodup : ids.Nodup) :
    (t.releaseRecords ids true maximumRetries).1.rows =
      (t.rows.filter fun row => ¬ (row.id ∈ ids ∧ maximumRetries ≤ row.retryCount)).map
        (retriedOnce ids) := by
  have h := foldl_releaseBlock_rows maximumRetries (blocksOf idCount ids.length ids)
    (by rwa [flatten_idCount]) (t, OrdMap.empty)
  rw [flatten_idCount] at h
  exact h

/-- Its map counts what it dropped. -/
theorem releaseRecords_counts (t : RoomTable) (hnodup : ids.Nodup) :
    (t.releaseRecords ids true maximumRetries).2 =
      OrdMap.empty.tally ((worn ids maximumRetries t.rows).map RoomRecord.tenantToken) := by
  have h := foldl_releaseBlock_counts maximumRetries (blocksOf idCount ids.length ids)
    (by rwa [flatten_idCount]) (t, OrdMap.empty)
  rw [flatten_idCount] at h
  exact h

end RoomTable

/-! ## Ids as text -/

theorem stoll_of_digits {text : String} (hne : text.toList ≠ [])
    (hdigits : ∀ c ∈ text.toList, c.isDigit = true)
    (hsmall : (digitsValue text.toList : ℤ) ≤ 2 ^ 63 - 1) :
    stoll text = .ok (digitsValue text.toList) := by
  obtain ⟨c, rest, htext⟩ := exists_cons_of_ne_nil hne
  obtain ⟨-, hminus, hplus⟩ := lexed_of_isDigit (hdigits c (by simp [htext]))
  have htake : text.toList.takeWhile Char.isDigit = text.toList :=
    takeWhile_eq_self_iff.2 hdigits
  unfold stoll
  simp only [dropWhile_isSpace_of_digits hdigits]
  split
  next rest' hsign => exact absurd (List.cons.inj (htext.symm.trans hsign)).1 hminus
  next rest' hsign => exact absurd (List.cons.inj (htext.symm.trans hsign)).1 hplus
  next =>
    rw [htake, if_neg hne, one_mul]
    exact if_neg (by omega)

/-- **An id is parsed back.** -/
theorem stoll_toString {n : ℕ} (h : n < 2 ^ 63) : stoll (toString (n : ℤ)) = .ok n := by
  have htext : (toString (n : ℤ)).toList = Nat.toDigits 10 n := Nat.toList_repr
  have hvalue : digitsValue (toString (n : ℤ)).toList = n := by
    rw [htext]
    exact Nat.ofDigitChars_toDigits (by decide) (le_refl 10)
  have hstoll : stoll (toString (n : ℤ)) = _ := stoll_of_digits
    (by rw [htext]; exact Nat.toDigits_ne_nil)
    (by rw [htext]; exact fun c hc => Nat.isDigit_of_mem_toDigits (by decide) (le_refl 10) hc)
    (by rw [hvalue]; omega)
  rwa [hvalue] at hstoll

/-! ## The calls of the store -/

namespace RoomStore

variable {s : RoomStore} {ids : List StorageRecordId}

/-- The drops reported to the observer. -/
def reports (s : RoomStore) : List (OrdMap String ℕ) := SQLite.droppedIn s.notices

/-- The same sequence and configuration. -/
structure SameSetup (s s' : RoomStore) : Prop where
  sequence : s'.sequence = s.sequence
  maxRetryCount : s'.maxRetryCount = s.maxRetryCount

/-- An id that cannot be parsed is no drop. -/
theorem droppedIn_idFailures (outOfRange empty : String) (ids : List StorageRecordId) :
    SQLite.droppedIn (idFailures outOfRange empty ids) = [] := by
  unfold SQLite.droppedIn idFailures
  rw [filterMap_filterMap, filterMap_eq_nil_iff]
  intro id _
  rcases stoll id with _ | n
  · rename_i fault
    cases fault <;> rfl
  · rfl

variable (s : RoomStore)

theorem droppedIn_failures_append (outOfRange empty : String)
    (ids : List StorageRecordId) :
    SQLite.droppedIn (s.notices ++ idFailures outOfRange empty ids) = s.reports := by
  rw [SQLite.droppedIn_append, droppedIn_idFailures, append_nil, reports]

/-- **A delete by ids.** -/
theorem deleteRecords_frame (ids : List StorageRecordId) :
    SameSetup s (s.deleteRecords ids) ∧ (s.deleteRecords ids).reports = s.reports ∧
      (s.deleteRecords ids).room.table.rows =
        s.room.table.rows.filter fun row => row.id ∉ roomIds ids := by
  have hreports := droppedIn_failures_append s "ID out of range" "Empty ID" ids
  unfold deleteRecords
  dsimp only
  split_ifs with hnone hno
  · refine ⟨⟨rfl, rfl⟩, rfl, ?_⟩
    simp [hnone, roomIds]
  · refine ⟨⟨rfl, rfl⟩, hreports, ?_⟩
    simp [hno]
  · refine ⟨⟨rfl, rfl⟩, hreports, ?_⟩
    show (s.room.table.deleteById (roomIds ids)).rows = _
    rw [RoomTable.deleteById_eq, RoomTable.rows_deleteByIdBlock]

/-- **A release without a retry.** -/
theorem releaseRecords_frame (ids : List StorageRecordId) :
    SameSetup s (s.releaseRecords ids false) ∧ (s.releaseRecords ids false).reports = s.reports ∧
      (s.releaseRecords ids false).room.table.rows = s.room.table.rows.map fun row =>
        if row.id ∈ roomIds ids then { row with reservedUntil := 0 } else row := by
  have hreports := droppedIn_failures_append s "id out of range" "id empty" ids
  by_cases hnone : ids = []
  · rw [releaseRecords, if_pos hnone]
    exact ⟨⟨rfl, rfl⟩, rfl, by simp [hnone, roomIds]⟩
  · by_cases hno : roomIds ids = []
    · rw [releaseRecords, if_neg hnone]
      dsimp only
      rw [if_pos hno]
      exact ⟨⟨rfl, rfl⟩, hreports, by simp [hno]⟩
    · rw [releaseRecords, if_neg hnone]
      dsimp only
      rw [if_neg hno]
      refine ⟨⟨rfl, rfl⟩, hreports, ?_⟩
      show (s.room.table.setReserved (roomIds ids) 0).rows = _
      rw [RoomTable.setReserved_eq, RoomTable.rows_setReservedBlock]

/-- **A release that counts a retry**, of ids that differ. -/
theorem releaseRecords_retry_frame (hnodup : (roomIds ids).Nodup) :
    let dropped := RoomTable.worn (roomIds ids) s.maxRetryCount s.room.table.rows
    SameSetup s (s.releaseRecords ids true) ∧
      (s.releaseRecords ids true).reports = s.reports ++ (if dropped = [] then []
        else [OrdMap.empty.tally (dropped.map RoomRecord.tenantToken)]) ∧
      (s.releaseRecords ids true).room.table.rows =
        (s.room.table.rows.filter fun row =>
          ¬ (row.id ∈ roomIds ids ∧ (s.maxRetryCount : ℤ) ≤ row.retryCount)).map
          (RoomTable.retriedOnce (roomIds ids)) := by
  intro dropped
  have hreports := droppedIn_failures_append s "id out of range" "id empty" ids
  have hrows : (s.room.table.releaseRecords (roomIds ids) true s.maxRetryCount).1.rows = _ :=
    RoomTable.releaseRecords_rows s.room.table hnodup
  have hcounts : (s.room.table.releaseRecords (roomIds ids) true s.maxRetryCount).2 =
      OrdMap.empty.tally (dropped.map RoomRecord.tenantToken) :=
    RoomTable.releaseRecords_counts s.room.table hnodup
  have hentries : (OrdMap.empty.tally (dropped.map RoomRecord.tenantToken)).entries = [] ↔
      dropped = [] := OrdMap.entries_tally_eq_nil.trans map_eq_nil_iff
  by_cases hno : roomIds ids = []
  · -- no id can be parsed, and nothing is dropped
    have hdropped : dropped = [] := by simp [dropped, RoomTable.worn, hno]
    have hsame : s.room.table.rows = (s.room.table.rows.filter fun row =>
        ¬ (row.id ∈ roomIds ids ∧ (s.maxRetryCount : ℤ) ≤ row.retryCount)).map
          (RoomTable.retriedOnce (roomIds ids)) := by
      simp [hno, RoomTable.retriedOnce_nil]
    rw [if_pos hdropped, append_nil, ← hsame, releaseRecords]
    dsimp only
    by_cases hnone : ids = []
    · rw [if_pos hnone]
      exact ⟨⟨rfl, rfl⟩, rfl, rfl⟩
    · rw [if_neg hnone, if_pos hno]
      exact ⟨⟨rfl, rfl⟩, hreports, rfl⟩
  · have hnone : ids ≠ [] := fun hnone => hno (by simp [hnone, roomIds])
    rw [releaseRecords, if_neg hnone]
    dsimp only
    rw [if_neg hno, if_pos rfl, hcounts]
    by_cases hdropped : dropped = []
    · rw [if_pos hdropped, if_neg (not_not.2 (hentries.2 hdropped)), append_nil]
      exact ⟨⟨rfl, rfl⟩, hreports, hrows⟩
    · rw [if_neg hdropped, if_pos (hentries.not.2 hdropped)]
      refine ⟨⟨rfl, rfl⟩, ?_, hrows⟩
      unfold reports
      rw [SQLite.droppedIn_append, hreports]
      rfl

end RoomStore

end ClientTelemetry
