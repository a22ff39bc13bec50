import ClientTelemetry.Offline.Model.Statements
/-!
# Calls that leave the database alone

Most calls on the storage change neither `m_db` nor a statement id, and
tell the observer of no opening (`SameDb`): using a statement is only
logged. One lemma for each function says so, and the calls that may
recreate the database are left over.
-/

namespace ClientTelemetry

open SQLite

namespace PreparedStorage

variable {s t u : PreparedStorage} {α : Type}

/-- What the observer was told of openings. -/
def openedIn (notices : List Notice) : List String :=
  notices.filterMap fun notice =>
    match notice with
    | .storageOpened type => some type
    | _ => none

/-- The same `m_db` and ids, and no news of an opening. -/
structure SameDb (s t : PreparedStorage) : Prop where
  db : t.db = s.db
  ids : t.ids = s.ids
  opened : openedIn t.notices = openedIn s.notices

theorem SameDb.refl (s : PreparedStorage) : SameDb s s := ⟨rfl, rfl, rfl⟩

theorem SameDb.trans (h : SameDb s t) (h' : SameDb t u) : SameDb s u :=
  ⟨h'.db.trans h.db, h'.ids.trans h.ids, h'.opened.trans h.opened⟩

theorem SameDb.of_eq {p : α × PreparedStorage} {x : α} (h : SameDb s p.2) (heq : p = (x, t)) :
    SameDb s t := by
  rw [heq] at h
  exact h

theorem openedIn_append (notices notices' : List Notice) :
    openedIn (notices ++ notices') = openedIn notices ++ openedIn notices' :=
  List.filterMap_append

variable (s : PreparedStorage)

/-- A notice that tells of no opening. -/
theorem sameDb_notify {n : Notice} (hn : openedIn [n] = []) :
    SameDb s (s.notify n) :=
  ⟨rfl, rfl, by rw [notify, openedIn_append, hn, List.append_nil]⟩

theorem sameDb_use (n : StmtName) : SameDb s (s.use n) := by
  unfold use
  split <;> exact ⟨rfl, rfl, rfl⟩

theorem sameDb_select (n : StmtName) (answer : Option α) :
    SameDb s (s.select n answer).2 := sameDb_use s n

theorem sameDb_execute (n : StmtName) (answer : Bool) :
    SameDb s (s.execute n answer).2 := sameDb_use s n

theorem sameDb_isOpen : SameDb s s.isOpen.2 := by
  unfold isOpen
  split_ifs
  · exact sameDb_notify s rfl
  · exact SameDb.refl s

theorem sameDb_getSize (pages : Option ℕ) : SameDb s (s.getSize pages).2 := by
  unfold getSize
  split_ifs
  · exact SameDb.refl s
  · exact sameDb_use s _

theorem sameDb_estimateSize (pages : Option ℕ) :
    SameDb s (s.estimateSize pages) :=
  (sameDb_getSize s pages).trans ⟨rfl, rfl, rfl⟩

theorem sameDb_getRecordCountUnsafe (latency : EventLatency)
    (count : Option ℕ) : SameDb s (s.getRecordCountUnsafe latency count).2 :=
  sameDb_use s _

theorem sameDb_getRecordCount (latency : EventLatency) (count : Option ℕ) :
    SameDb s (s.getRecordCount latency count).2 := by
  unfold getRecordCount
  split_ifs
  · exact SameDb.refl s
  · exact sameDb_getRecordCountUnsafe s latency count

theorem sameDb_resizeDb (a : ResizeAnswers) : SameDb s (s.resizeDb a).2 := by
  have hsize := sameDb_estimateSize s a.pagesBefore
  have hcount := hsize.trans (sameDb_getRecordCountUnsafe _ .unspecified a.countBefore)
  unfold resizeDb
  dsimp only
  split_ifs
  · exact SameDb.refl s
  · exact hsize
  · exact hsize
  · exact hcount
  · refine (hcount.trans (sameDb_use _ .trimEventsPercent)).trans ?_
    refine (sameDb_getRecordCountUnsafe _ .unspecified a.countAfter).trans ?_
    exact (sameDb_estimateSize _ a.pagesAfter).trans (sameDb_notify _ rfl)

theorem sameDb_notifyFull (now : ℕ) (pages : Option ℕ) :
    SameDb s (s.notifyFull now pages) := by
  unfold notifyFull
  dsimp only
  split_ifs
  · have hsent : SameDb s { s with notificationSendTime := now } := ⟨rfl, rfl, rfl⟩
    exact (hsent.trans (sameDb_estimateSize _ pages)).trans (sameDb_notify _ rfl)
  · exact SameDb.refl s

theorem sameDb_trimFull (a : ResizeAnswers) : SameDb s (s.trimFull a) := by
  unfold trimFull
  split_ifs
  · have hresize := sameDb_resizeDb { s with resizing := true } a
    exact ⟨hresize.db, hresize.ids, hresize.opened⟩
  · exact SameDb.refl s

theorem sameDb_storeRecord (r : StorageRecord) (now : ℕ) (a : Answers) :
    SameDb s (s.storeRecord r now a).2 := by
  unfold storeRecord
  dsimp only
  split_ifs
  · exact sameDb_notify s rfl
  · exact sameDb_notify s rfl
  · exact sameDb_notify s rfl
  · have hinsert : SameDb s { s.use .insertEvent with
        dbSizeEstimate := (s.use .insertEvent).dbSizeEstimate + recordSize r } :=
      (sameDb_use s .insertEvent).trans ⟨rfl, rfl, rfl⟩
    exact (hinsert.trans (sameDb_notifyFull _ now a.pages)).trans (sameDb_trimFull _ a.resize)

theorem sameDb_storeRecords (now : ℕ) (answers : ℕ → Answers)
    (rs : List StorageRecord) : SameDb s (s.storeRecords now answers rs).2 := by
  induction rs generalizing s answers with
  | nil => exact SameDb.refl s
  | cons r rs ih => exact (sameDb_storeRecord s r now (answers 0)).trans (ih _ _)

theorem sameDb_executeBlocks (n : StmtName) (answer : ℕ → Bool)
    (blocks : List (List StorageRecordId)) : SameDb s (s.executeBlocks n answer blocks).2 := by
  induction blocks generalizing s answer with
  | nil => exact SameDb.refl s
  | cons block blocks ih =>
    unfold executeBlocks
    dsimp only
    split_ifs
    · exact (sameDb_use s n).trans (ih _ _)
    · exact sameDb_use s n

theorem sameDb_getRecords (shutdown : Bool) (a : Answers) :
    SameDb s (s.getRecords shutdown a).2 := by
  unfold getRecords
  split
  case h_1 t heq => exact (sameDb_isOpen s).of_eq heq
  case h_2 t heq => exact ((sameDb_isOpen s).of_eq heq).trans (sameDb_use t _)

theorem sameDb_getSetting (name : String) (a : Answers) :
    SameDb s (s.getSetting name a).2 := by
  unfold getSetting
  split_ifs
  · exact SameDb.refl s
  · split
    case h_1 t heq => exact (sameDb_isOpen s).of_eq heq
    case h_2 t heq =>
      have hopen := (sameDb_isOpen s).of_eq heq
      dsimp only
      split_ifs
      · exact hopen
      · exact hopen.trans (sameDb_use t _)

theorem sameDb_deleteSetting (name : String) (a : Answers) :
    SameDb s (s.deleteSetting name a).2 := by
  unfold deleteSetting
  split_ifs
  · exact SameDb.refl s
  · split
    case h_1 t heq => exact (sameDb_isOpen s).of_eq heq
    case h_2 t heq =>
      have hopen := (sameDb_isOpen s).of_eq heq
      split_ifs
      · exact hopen
      · exact hopen.trans (sameDb_use t _)

end PreparedStorage

end ClientTelemetry
