import ClientTelemetry.Offline.Helpers.SQLite
/-!
# Storing in the database

What one `StoreRecord` of the database and a batch of them leave in the
table. A store is accepted when it gets to its transaction (`Accepts`)
and writes a row when its insert goes through (`Inserts`): the answer
tells of the first only. A row that was written can go again in the trim
that ends a store over the size limit (`TrimTakes`).
`mem_storeRecords_iff` says which records of a batch are in the table when
it is over.
-/

namespace ClientTelemetry

open List

namespace SQLite

open Sql

variable {s s' : SQLite} {r : StorageRecord} {rs : List StorageRecord} {now : ℕ} {row : EventRow}

/-- **The store gets to its transaction**, and returns true. -/
def Accepts (s : SQLite) (r : StorageRecord) : Prop :=
  ¬ InvalidParameters r ∧ s.hasDb = true ∧ s.begins (.store r) = true

/-- **The store writes its row.** -/
def Inserts (s : SQLite) (r : StorageRecord) : Prop :=
  s.Accepts r ∧ s.executes (.insertEvent r) = true

instance : Decidable (s.Accepts r) := inferInstanceAs (Decidable (_ ∧ _))

instance : Decidable (s.Inserts r) := inferInstanceAs (Decidable (_ ∧ _))

/-! ## What no store changes -/

/-- The same file, handle and engine. -/
structure SameDb (s s' : SQLite) : Prop where
  hasDb : s'.hasDb = s.hasDb
  handleOpen : s'.handleOpen = s.handleOpen
  engine : s'.engine = s.engine

theorem SameDb.refl (s : SQLite) : SameDb s s := ⟨rfl, rfl, rfl⟩

theorem SameDb.trans {s'' : SQLite} (h : SameDb s s') (h' : SameDb s' s'') : SameDb s s'' :=
  ⟨h'.hasDb.trans h.hasDb, h'.handleOpen.trans h.handleOpen, h'.engine.trans h.engine⟩

theorem SameDb.accepts_iff (h : SameDb s s') : s'.Accepts r ↔ s.Accepts r := by
  unfold Accepts begins
  rw [h.hasDb, h.handleOpen, h.engine]

theorem SameDb.inserts_iff (h : SameDb s s') : s'.Inserts r ↔ s.Inserts r := by
  unfold Inserts executes
  rw [h.accepts_iff, h.handleOpen, h.engine]

section

variable (s : SQLite)

theorem sameDb_insertEvent (r : StorageRecord) : SameDb s (s.insertEvent r) :=
  ⟨rfl, rfl, rfl⟩

theorem sameDb_notifyFull (now : ℕ) : SameDb s (s.notifyFull now) := by
  unfold notifyFull
  split_ifs <;> exact ⟨rfl, rfl, rfl⟩

theorem rows_notifyFull (now : ℕ) : (s.notifyFull now).rows = s.rows := by
  unfold notifyFull
  split_ifs <;> rfl

theorem sameDb_resizeDb : SameDb s s.resizeDb.2 := by
  unfold resizeDb
  dsimp only
  split_ifs <;> exact ⟨rfl, rfl, rfl⟩

/-- A trim only removes. -/
theorem rows_resizeDb_sublist : s.resizeDb.2.rows.Sublist s.rows := by
  unfold resizeDb
  dsimp only
  split_ifs
  · exact List.Sublist.refl _
  · exact List.Sublist.refl _
  · exact List.Sublist.refl _
  · exact nil_sublist _
  · exact List.Sublist.refl _
  · exact filter_sublist
  · exact filter_sublist
  · exact List.Sublist.refl _

theorem sameDb_trimFull : SameDb s s.trimFull := by
  unfold trimFull
  split_ifs
  · have h := sameDb_resizeDb { s with resizing := true }
    exact ⟨h.hasDb, h.handleOpen, h.engine⟩
  · exact SameDb.refl s

theorem rows_trimFull_sublist : s.trimFull.rows.Sublist s.rows := by
  unfold trimFull
  split_ifs
  · exact rows_resizeDb_sublist { s with resizing := true }
  · exact List.Sublist.refl _

end

/-! ## One store -/

theorem storeRecord_fst_iff : (s.storeRecord r now).1 = true ↔ s.Accepts r := by
  unfold storeRecord Accepts
  split_ifs with hbad hdb hbegin
  · simp [hbad]
  · simp_all
  · simp_all
  · simp_all

theorem storeRecord_of_accepts (h : s.Accepts r) :
    s.storeRecord r now = (true, ((s.insertEvent r).notifyFull now).trimFull) := by
  obtain ⟨hbad, hdb, hbegin⟩ := h
  simp [storeRecord, hbad, hdb, hbegin]

theorem storeRecord_of_not_accepts (now : ℕ) (h : ¬ s.Accepts r) :
    ∃ n, s.storeRecord r now = (false, s.notify n) := by
  unfold Accepts at h
  unfold storeRecord
  split_ifs with hbad hdb hbegin
  · exact ⟨_, rfl⟩
  · exact ⟨_, rfl⟩
  · exact ⟨_, rfl⟩
  · exact absurd ⟨hbad, by simpa using hdb, by simpa using hbegin⟩ h

theorem sameDb_storeRecord (s : SQLite) (r : StorageRecord) (now : ℕ) :
    SameDb s (s.storeRecord r now).2 := by
  by_cases h : s.Accepts r
  · rw [storeRecord_of_accepts h]
    exact ((sameDb_insertEvent s r).trans (sameDb_notifyFull _ now)).trans (sameDb_trimFull _)
  · obtain ⟨n, heq⟩ := storeRecord_of_not_accepts now h
    rw [heq]
    exact ⟨rfl, rfl, rfl⟩

/-! ## The trim -/

/-- The database as the trim of a store finds it. -/
def filled (s : SQLite) (r : StorageRecord) (now : ℕ) : SQLite := (s.insertEvent r).notifyFull now

/-- **A resize takes the row.** It does something if the file is over the
limit and its transaction begins. Over twice the limit the whole table
goes; otherwise the first quarter of the rows by persistence and
timestamp, or, if that delete fails, every row of normal persistence. -/
def ResizeTakes (s : SQLite) (row : EventRow) : Prop :=
  s.hasDb = true ∧ s.dbSizeLimit < s.getSize ∧ s.begins .trim = true ∧
    if 2 * s.dbSizeLimit < s.getSize then s.executes .deleteAll = true
    else if s.executes .trimEvents then row.recordId ∈ trimIds 25 s.rows
    else s.executes .deletePersistence = true ∧ row.persistence = 1

/-- **The trim of a store takes the row.** It runs if the estimate is over
the limit, a full database is to drop records and no trim is running. -/
def TrimTakes (s : SQLite) (row : EventRow) : Prop :=
  (s.dbSizeLimit ≠ 0 ∧ s.dbSizeLimit < s.dbSizeEstimate ∧ s.dropIfFull ∧ ¬ s.resizing) ∧
    s.ResizeTakes row

theorem mem_resizeDb_iff (h : row ∈ s.rows) : row ∈ s.resizeDb.2.rows ↔ ¬ s.ResizeTakes row := by
  have hbegins : ∀ e : ℕ, SQLite.begins { s with dbSizeEstimate := e } = s.begins := fun _ => rfl
  have hexec : ∀ e : ℕ, SQLite.executes { s with dbSizeEstimate := e } = s.executes := fun _ => rfl
  unfold resizeDb ResizeTakes
  dsimp only
  rw [hbegins, hexec]
  split_ifs with hdb hfits hbegin hover hall htrim hdrop
  all_goals simp_all [trimEvents, notify]

theorem mem_trimFull_iff (h : row ∈ s.rows) : row ∈ s.trimFull.rows ↔ ¬ s.TrimTakes row := by
  unfold trimFull TrimTakes
  split_ifs with hruns
  · rw [and_iff_right hruns]
    exact mem_resizeDb_iff (s := { s with resizing := true }) h
  · exact iff_of_true h fun htakes => hruns htakes.1

/-- **What is in the table behind a store**: what was there and what it
wrote, unless its trim took it. -/
theorem mem_storeRecord_iff : row ∈ (s.storeRecord r now).2.rows ↔
    (row ∈ s.rows ∨ (row = EventRow.ofRecord r ∧ s.Inserts r)) ∧
      (s.Accepts r → ¬ (s.filled r now).TrimTakes row) := by
  by_cases hacc : s.Accepts r
  · have hfilled : row ∈ (s.filled r now).rows ↔
        row ∈ s.rows ∨ (row = EventRow.ofRecord r ∧ s.Inserts r) := by
      unfold filled Inserts
      rw [rows_notifyFull, insertEvent]
      dsimp only
      split_ifs with hexec
      · simp [hacc, hexec]
      · simp [hexec]
    rw [storeRecord_of_accepts hacc, imp_iff_right hacc, ← hfilled]
    constructor
    · intro h
      have hmem := (rows_trimFull_sublist (s.filled r now)).subset h
      exact ⟨hmem, (mem_trimFull_iff hmem).1 h⟩
    · exact fun h => (mem_trimFull_iff h.1).2 h.2
  · obtain ⟨n, heq⟩ := storeRecord_of_not_accepts now hacc
    have hnot : ¬ s.Inserts r := fun h => hacc h.1
    rw [heq]
    simp [notify, hnot, hacc]

/-! ## A batch -/

section

variable (s : SQLite)

/-- The state a batch leaves. -/
theorem storeRecords_snd (rs : List StorageRecord) (now : ℕ) :
    (s.storeRecords rs now).2 = rs.foldl (fun s r => (s.storeRecord r now).2) s := by
  unfold storeRecords
  generalize 0 = n
  induction rs generalizing s n with
  | nil => rfl
  | cons r rs ih => exact ih _ _

theorem storeRecords_snd_append (rs rs' : List StorageRecord) (now : ℕ) :
    (s.storeRecords (rs ++ rs') now).2 = ((s.storeRecords rs now).2.storeRecords rs' now).2 := by
  rw [storeRecords_snd, storeRecords_snd, storeRecords_snd, foldl_append]

theorem storeRecords_snd_concat (rs : List StorageRecord) (r : StorageRecord) (now : ℕ) :
    (s.storeRecords (rs ++ [r]) now).2 = ((s.storeRecords rs now).2.storeRecord r now).2 := by
  rw [storeRecords_snd_append, storeRecords_snd _ [r]]
  rfl

theorem sameDb_storeRecords (rs : List StorageRecord) (now : ℕ) :
    SameDb s (s.storeRecords rs now).2 := by
  rw [storeRecords_snd]
  refine List.foldlRecOn rs _ (motive := fun s' => SameDb s s') (SameDb.refl s) ?_
  intro s' h r _
  exact h.trans (sameDb_storeRecord s' r now)

/-- **The count of a batch is that of the stores accepted.** -/
theorem storeRecords_fst (rs : List StorageRecord) (now : ℕ) :
    (s.storeRecords rs now).1 = rs.countP fun r => decide (s.Accepts r) := by
  have hcount : ∀ (s' : SQLite) (n : ℕ), SameDb s s' →
      (rs.foldl (fun (acc : ℕ × SQLite) r =>
        (if (acc.2.storeRecord r now).1 then acc.1 + 1 else acc.1, (acc.2.storeRecord r now).2))
        (n, s')).1 =
        n + rs.countP fun r => decide (s.Accepts r) := by
    induction rs with
    | nil => exact fun s' n _ => rfl
    | cons r rs ih =>
      intro s' n hs
      have hstep := ih (s'.storeRecord r now).2
        (if (s'.storeRecord r now).1 = true then n + 1 else n)
        (hs.trans (sameDb_storeRecord s' r now))
      rw [foldl_cons]
      refine hstep.trans ?_
      rw [countP_cons]
      by_cases hacc : s.Accepts r
      · rw [if_pos (storeRecord_fst_iff.2 (hs.accepts_iff.2 hacc)), if_pos (by simpa using hacc)]
        omega
      · rw [if_neg (fun h => hacc (hs.accepts_iff.1 (storeRecord_fst_iff.1 h))),
          if_neg (by simpa using hacc)]
        omega
  have := hcount s 0 (SameDb.refl s)
  rw [Nat.zero_add] at this
  exact this

end

/-- **A row behind a batch** was there, or one of its records wrote it. -/
theorem mem_storeRecords_imp (h : row ∈ (s.storeRecords rs now).2.rows) :
    row ∈ s.rows ∨ ∃ r ∈ rs, row = EventRow.ofRecord r ∧ s.Inserts r := by
  induction rs generalizing s with
  | nil => exact Or.inl h
  | cons r rs ih =>
    have hrest : row ∈ ((s.storeRecord r now).2.storeRecords rs now).2.rows := by
      rw [storeRecords_snd] at h ⊢
      exact h
    rcases ih hrest with h | ⟨r', hr', heq, hins⟩
    · rcases (mem_storeRecord_iff.1 h).1 with h | ⟨heq, hins⟩
      · exact Or.inl h
      · exact Or.inr ⟨r, mem_cons_self, heq, hins⟩
    · exact Or.inr ⟨r', mem_cons_of_mem _ hr', heq,
        (sameDb_storeRecord s r now).inserts_iff.1 hins⟩

/-- **No trim on the way takes the record's row**, from its own store to
the end of the batch. -/
def Kept (s : SQLite) (rs : List StorageRecord) (now : ℕ) (r : StorageRecord) : Prop :=
  ∀ pre x post, rs = pre ++ x :: post → r ∈ pre ++ [x] → s.Accepts x →
    ¬ ((s.storeRecords pre now).2.filled x now).TrimTakes (EventRow.ofRecord r)

/-- One more store of the batch keeps a row that it writes or finds. -/
theorem Kept.mem_concat (hkept : s.Kept rs now r) {pre post : List StorageRecord}
    {x : StorageRecord} (hrs : rs = pre ++ x :: post) (hr : r ∈ pre ++ [x])
    (h : EventRow.ofRecord r ∈ (s.storeRecords pre now).2.rows ∨ (x = r ∧ s.Inserts r)) :
    EventRow.ofRecord r ∈ (s.storeRecords (pre ++ [x]) now).2.rows := by
  have hsame := sameDb_storeRecords s pre now
  rw [storeRecords_snd_concat, mem_storeRecord_iff, hsame.accepts_iff, hsame.inserts_iff]
  refine ⟨h.imp_right ?_, hkept pre x post hrs hr⟩
  rintro ⟨rfl, hins⟩
  exact ⟨rfl, hins⟩

/-- A row that is in the table stays there to the end of the batch. -/
theorem Kept.stays (hkept : s.Kept rs now r) {done rest : List StorageRecord}
    (hrs : rs = done ++ rest) (hr : r ∈ done)
    (h : EventRow.ofRecord r ∈ (s.storeRecords done now).2.rows) :
    EventRow.ofRecord r ∈ (s.storeRecords rs now).2.rows := by
  induction rest generalizing done with
  | nil =>
    rw [append_nil] at hrs
    rw [hrs]
    exact h
  | cons x rest ih =>
    have hdone : r ∈ done ++ [x] := mem_append_left _ hr
    exact ih (by simp [hrs]) hdone (hkept.mem_concat hrs hdone (Or.inl h))

/-- **The records of a batch that are in the table when it is over**: of
new and different records, those whose insert went through and whose row
no trim took. -/
theorem mem_storeRecords_iff (hids : (rs.map StorageRecord.id).Nodup)
    (hfresh : ∀ row ∈ s.rows, ∀ r ∈ rs, row.recordId ≠ r.id) (hr : r ∈ rs) :
    EventRow.ofRecord r ∈ (s.storeRecords rs now).2.rows ↔ s.Inserts r ∧ s.Kept rs now r := by
  have hinj : ∀ r' ∈ rs, EventRow.ofRecord r = EventRow.ofRecord r' → r = r' := by
    intro r' hr' heq
    exact inj_on_of_nodup_map hids hr hr' (congrArg EventRow.recordId heq)
  constructor
  · intro hend
    refine ⟨?_, ?_⟩
    · rcases mem_storeRecords_imp hend with hmem | ⟨r', hr', heq, hins⟩
      · exact absurd rfl (hfresh _ hmem r hr)
      · rw [hinj r' hr' heq]
        exact hins
    · -- a row that is lost does not come back: its record was stored before
      intro pre x post hrs hmem hacc htakes
      have hsplit : rs = (pre ++ [x]) ++ post := by simp [hrs]
      rw [hsplit, storeRecords_snd_append] at hend
      rcases mem_storeRecords_imp hend with hleft | ⟨r', hr', heq, -⟩
      · rw [storeRecords_snd_concat, mem_storeRecord_iff] at hleft
        exact hleft.2 ((sameDb_storeRecords s pre now).accepts_iff.2 hacc) htakes
      · have hnodup : rs.Nodup := List.Nodup.of_map _ hids
        rw [hsplit, nodup_append] at hnodup
        have hpost : r ∈ post := by
          rw [hinj r' (by rw [hrs]; simp [hr']) heq]
          exact hr'
        exact hnodup.2.2 r hmem r hpost rfl
  · rintro ⟨hins, hkept⟩
    obtain ⟨pre, post, hrs⟩ := append_of_mem hr
    have hsplit : rs = (pre ++ [r]) ++ post := by simp [hrs]
    have hdone : r ∈ pre ++ [r] := by simp
    exact hkept.stays hsplit hdone (hkept.mem_concat hrs hdone (Or.inr ⟨rfl, hins⟩))

end SQLite

end ClientTelemetry
