import ClientTelemetry.Common.Run
import ClientTelemetry.Offline.Helpers.Statements
/-!
# Statements of a failed database

A storage that has `m_db` should have an open handle, with every
statement whose id it keeps prepared on it (`Sound`). Two things break
this. A preparation that fails leaves the id 0, and the initialisation
goes on. And a recreate that fails inside a call closes the handle but
leaves `m_db`, with the ids of the statements it has finalised; most
calls ask for `m_db` only. Where no preparation fails, and no recreate
but that of an `Initialize`, the storage is sound between any two calls,
and closed for every call after a failed recreate (`failed_is_closed`).
-/

namespace ClientTelemetry

open SQLite List

/-- Every statement is prepared. -/
theorem StmtName.mem_all (n : StmtName) : n ∈ StmtName.all := by
  cases n <;> decide

namespace PreparedStorage

variable {s t u : PreparedStorage} {α : Type} {p : StmtName → Prop} {a : OpenAnswers}
  {db : SqliteDB} {n : StmtName}

/-! ## What is asked of the storage -/

/-- **A database that is there is usable**: its handle is open, and every
id the storage keeps is that of a statement prepared on it. -/
def Sound (s : PreparedStorage) : Prop :=
  ∀ db, s.db = some db →
    db.handleOpen = true ∧ ∀ n, ∃ stmt, s.ids n = some stmt ∧ (n, stmt) ∈ db.statements

/-- **The last recreate failed**, and no opening has succeeded since. -/
def RecreateFailed (s : PreparedStorage) : Prop :=
  (openedIn s.notices).getLast? = some "SQLite/None"

/-- **A call finds the storage closed**: it returns its default value and
uses no statement. -/
def ClosedFor (s : PreparedStorage) (c : PreparedCall) : Prop :=
  (s.call c).1.IsDefault ∧ (s.call c).2.uses = s.uses

/-! ## What the engine has to grant -/

/-- No preparation fails. -/
def Prepares (a : OpenAnswers) : Prop := ∀ n, (a.prepares n).isSome = true

/-- The file is deleted, opened anew and set up. -/
structure Reopens (a : OpenAnswers) : Prop where
  initializes : a.initializes = true
  deletesPrevious : a.deletesPrevious = true
  opens : a.opens = true
  registers : a.registers = true
  setsUp : setsUp a = true
  prepares : Prepares a

/-- No statement fails for whose failure the call would recreate the
database. -/
def Runs (a : Answers) : PreparedOp → Prop
  | .getAndReserveRecords _ =>
    a.selects ≠ none ∧ a.breaks = false ∧ ∀ i, a.reserves i = true
  | .deleteRecords _ => ∀ i, a.deletes i = true
  | .releaseRecords _ _ =>
    (∀ i, a.releases i = true) ∧ a.retried ≠ none ∧ a.deletesRetried ≠ none
  | .storeSetting _ value => if value ≠ "" then a.storesSetting = true else a.deletesSetting = true
  | _ => True

/-- **The call fails cleanly.** No preparation of an `Initialize` fails;
in any other call no statement fails that leads to a recreate, or the
recreate succeeds. -/
def FailsCleanly (c : PreparedCall) : Prop :=
  match c.op with
  | .initializeStorage => Prepares (c.answers 0).opening ∧ Prepares (c.answers 0).reopening
  | op => Runs (c.answers 0) op ∨ Reopens (c.answers 0).reopening

/-! ## Soundness over calls that leave the database alone -/

theorem SameDb.sound (h : SameDb s t) (hs : s.Sound) : t.Sound := by
  unfold Sound
  rw [h.db, h.ids]
  exact hs

theorem SameDb.recreateFailed (h : SameDb s t) (ht : t.RecreateFailed) : s.RecreateFailed := by
  unfold RecreateFailed at *
  rwa [← h.opened]

/-! ## Opening -/

/-- The statements of a set are prepared on an open handle. -/
def LoadedOn (s : PreparedStorage) (p : StmtName → Prop) : Prop :=
  ∃ db, s.db = some db ∧ db.handleOpen = true ∧
    ∀ n, p n → ∃ stmt, s.ids n = some stmt ∧ (n, stmt) ∈ db.statements

theorem LoadedOn.sound (h : s.LoadedOn p) (hp : ∀ n, p n) : s.Sound := by
  obtain ⟨db, hdb, hopen, hloaded⟩ := h
  intro db' hdb'
  obtain rfl : db = db' := Option.some.inj (hdb.symm.trans hdb')
  exact ⟨hopen, fun n => hloaded n (hp n)⟩

/-- **One preparation that succeeds.** The statements prepared before stay
where they are. -/
theorem LoadedOn.prepare (h : s.LoadedOn p) (n : StmtName)
    {answer : Option ℕ} (ha : answer.isSome = true) :
    (s.prepare n answer).LoadedOn fun m => m = n ∨ p m := by
  obtain ⟨stmt, rfl⟩ := Option.isSome_iff_exists.1 ha
  obtain ⟨db, hdb, hopen, hloaded⟩ := h
  refine ⟨{ db with statements := db.statements ++ [(n, stmt)] }, ?_, hopen, fun m hm => ?_⟩
  · rw [PreparedStorage.prepare, hdb]
    rfl
  · -- a statement prepared once more under its name replaces the earlier one
    by_cases hmn : m = n
    · subst hmn
      exact ⟨stmt, Function.update_self .., mem_append_right _ (mem_singleton.2 rfl)⟩
    · obtain ⟨stmt', hid, hmem⟩ := hloaded m (hm.resolve_left hmn)
      exact ⟨stmt', (Function.update_of_ne hmn ..).trans hid, mem_append_left _ hmem⟩

/-- **All preparations together.** -/
theorem LoadedOn.prepareAll (ha : Prepares a) (names : List StmtName) (h : s.LoadedOn p) :
    (names.foldl (fun s n => s.prepare n (a.prepares n)) s).LoadedOn
      fun m => m ∈ names ∨ p m := by
  induction names generalizing s p with
  | nil =>
    obtain ⟨db, hdb, hopen, hloaded⟩ := h
    exact ⟨db, hdb, hopen, fun n hn => hloaded n (hn.resolve_left (not_mem_nil))⟩
  | cons n names ih =>
    obtain ⟨db, hdb, hopen, hloaded⟩ := ih (h.prepare n (ha n))
    refine ⟨db, hdb, hopen, fun m hm => hloaded m ?_⟩
    rcases hm with hm | hm
    · exact (mem_cons.1 hm).elim (fun heq => Or.inr (Or.inl heq)) Or.inl
    · exact Or.inr (Or.inr hm)

theorem opened_prepareAll (s : PreparedStorage) (a : OpenAnswers) (names : List StmtName) :
    (names.foldl (fun s n => s.prepare n (a.prepares n)) s).notices = s.notices := by
  induction names generalizing s with
  | nil => rfl
  | cons n names ih =>
    rw [foldl_cons, ih]
    unfold PreparedStorage.prepare
    split <;> rfl

/-- **The initialisation of an open file.** It fails before it prepares
anything, or it prepares everything. -/
theorem initializeDatabase_cases (ha : Prepares a)
    (hdb : s.db = some db) (hopen : db.handleOpen = true) :
    (setsUp a = false ∧ s.initializeDatabase a = (false, s)) ∨
      (setsUp a = true ∧ ∃ t, s.initializeDatabase a = (true, t) ∧ t.Sound ∧
        openedIn t.notices = openedIn s.notices) := by
  unfold initializeDatabase
  rcases hset : setsUp a with _ | _
  · exact Or.inl ⟨rfl, rfl⟩
  · have hempty : ({ s with pageSize := a.pageSize.getD 0 } : PreparedStorage).LoadedOn
        fun _ => False := ⟨db, hdb, hopen, fun _ hn => hn.elim⟩
    have hresize := sameDb_resizeDb (StmtName.all.foldl (fun s n => s.prepare n (a.prepares n))
      { s with pageSize := a.pageSize.getD 0 }) a.resize
    refine Or.inr ⟨rfl, _, rfl, hresize.sound ?_, ?_⟩
    · exact (hempty.prepareAll ha StmtName.all).sound fun n => Or.inl n.mem_all
    · rw [hresize.opened, opened_prepareAll]

/-- A handle that was opened is open. -/
theorem handleOpen_of_initializeDb {db' : SqliteDB}
    {deletePrevious : Bool} (h : db.initializeDb a deletePrevious = (true, db')) :
    db'.handleOpen = true := by
  unfold SqliteDB.initializeDb at h
  split_ifs at h
  · cases h
  · cases h
  · cases h
  · cases h
  · cases h
    rfl

theorem Reopens.initializeDb (h : Reopens a) (db : SqliteDB) :
    db.initializeDb a true = (true, { db with handleOpen := true }) := by
  simp [SqliteDB.initializeDb, h.initializes, h.deletesPrevious, h.opens, h.registers]

/-! ## Recreating -/

/-- The observer's last news is of the given opening. -/
theorem recreateFailed_notify_iff (s : PreparedStorage) (type : String) :
    (s.notify (.storageOpened type)).RecreateFailed ↔ type = "SQLite/None" := by
  unfold RecreateFailed notify
  rw [openedIn_append]
  simp [openedIn]

/-- **A recreate that succeeds leaves a sound storage**, if no preparation
fails. -/
theorem sound_of_recreate (ha : Prepares a) {failureCode : ℕ}
    (h : s.recreate a failureCode = (true, t)) : t.Sound ∧ ¬ t.RecreateFailed := by
  unfold recreate at h
  dsimp only at h
  -- of the four ways out only one answers true
  split at h
  case h_1 => cases h
  case h_2 db hdb =>
    split at h
    case h_1 => cases h
    case h_2 db' hinit =>
      have hopen := handleOpen_of_initializeDb hinit
      split at h
      case h_1 u hdatabase =>
        rcases initializeDatabase_cases (s := { s.notify (.storageFailed (toString failureCode)) with
          db := some db' }) ha rfl hopen with ⟨-, hfails⟩ | ⟨-, u', hsets, hsound, -⟩
        · rw [hfails] at hdatabase
          cases hdatabase
        · rw [hsets] at hdatabase
          cases hdatabase
          cases h
          refine ⟨hsound, fun hfailed => ?_⟩
          have hnone : "SQLite/Clean" = "SQLite/None" := (recreateFailed_notify_iff u _).1 hfailed
          exact absurd hnone (by decide)
      case h_2 => cases h

/-- **A file that can be opened anew is recreated.** -/
theorem Reopens.recreate (h : Reopens a) (hdb : s.db ≠ none) (failureCode : ℕ) :
    (s.recreate a failureCode).1 = true := by
  obtain ⟨db, hdb⟩ := Option.ne_none_iff_exists'.1 hdb
  have hnotified : (s.notify (.storageFailed (toString failureCode))).db = some db := hdb
  unfold PreparedStorage.recreate
  dsimp only
  rw [hnotified]
  dsimp only
  rw [h.initializeDb]
  dsimp only
  rcases initializeDatabase_cases (s := { s.notify (.storageFailed (toString failureCode)) with
    db := some { db.shutdown with handleOpen := true } }) h.prepares rfl rfl with
    ⟨hset, -⟩ | ⟨-, u, hsets, -, -⟩
  · exact absurd (hset.symm.trans h.setsUp) Bool.false_ne_true
  · rw [hsets]

/-! ## The calls that recreate -/

/-- **How a call ends that may recreate the database**: it leaves it
alone, or recreates it since a statement failed. -/
def Ends (a : Answers) (op : PreparedOp) (s t : PreparedStorage) : Prop :=
  SameDb s t ∨ ¬ Runs a op ∧ ∃ u failureCode, SameDb s u ∧ u.db ≠ none ∧
    t = (u.recreate a.reopening failureCode).2

/-- There is a database, and a statement for every id. -/
structure Usable (s : PreparedStorage) : Prop where
  db : s.db ≠ none
  ids : ∀ n, (s.ids n).isSome = true

theorem Sound.usable (h : s.Sound) (hdb : s.db ≠ none) : s.Usable := by
  refine ⟨hdb, fun n => ?_⟩
  obtain ⟨db, hdb⟩ := Option.ne_none_iff_exists'.1 hdb
  obtain ⟨stmt, hid, -⟩ := (h db hdb).2 n
  rw [hid]
  rfl

theorem Usable.of_sameDb (hs : s.Usable) (h : SameDb s t) : t.Usable :=
  ⟨h.db ▸ hs.db, h.ids ▸ hs.ids⟩

/-- A statement that is there fails only if the engine lets it fail. -/
theorem Usable.select_fails (h : s.Usable) {answer : Option α}
    (heq : s.select n answer = (none, t)) : answer = none := by
  have hanswer : (s.select n answer).1 = answer := if_pos (h.ids n)
  rw [heq] at hanswer
  exact hanswer.symm

theorem Usable.execute_fails (h : s.Usable) {answer : Bool}
    (heq : s.execute n answer = (false, t)) : ¬ answer = true := by
  have hanswer : (s.execute n answer).1 = answer := by rw [execute, h.ids n, Bool.true_and]
  rw [heq] at hanswer
  rw [← hanswer]
  exact Bool.false_ne_true

/-- The same of a statement over the blocks of an id list. -/
theorem Usable.executeBlocks_fails (h : s.Usable) {answer : ℕ → Bool}
    {blocks : List (List StorageRecordId)} (heq : s.executeBlocks n answer blocks = (false, t)) :
    ¬ ∀ i, answer i = true := by
  intro hall
  induction blocks generalizing s answer with
  | nil => cases heq
  | cons block blocks ih =>
    have hdone : (s.execute n (answer 0)).1 = true := by
      rw [execute, h.ids n, hall 0]
      rfl
    unfold executeBlocks at heq
    dsimp only at heq
    rw [if_pos hdone] at heq
    exact ih (h.of_sameDb (sameDb_use s n)) heq fun i => hall (i + 1)

/-- The recreate of a call that has found the database there. -/
theorem Ends.recreate {a : Answers} {op : PreparedOp} (hs : s.Usable) (h : SameDb s u)
    (failureCode : ℕ) (hfails : ¬ Runs a op) : Ends a op s (u.recreate a.reopening failureCode).2 :=
  Or.inr ⟨hfails, u, failureCode, h, (hs.of_sameDb h).db, rfl⟩

section

variable (hs : s.Sound)
include hs

theorem getAndReserveRecords_ends (c : Consumer StorageRecord) (a : Answers) :
    Ends a (.getAndReserveRecords c) s (s.getAndReserveRecords c a).2 := by
  have hread : SameDb s { s with lastReadCount := 0 } := ⟨rfl, rfl, rfl⟩
  have hexpired := hread.trans (sameDb_use _ .releaseExpiredEvents)
  have hselect := hexpired.trans (sameDb_use _ .selectEvents)
  unfold getAndReserveRecords
  dsimp only
  split_ifs with hnone hbegin
  · exact Or.inl hread
  · exact Or.inl hread
  have husable := hs.usable (by simpa using hnone)
  -- a read gives up at the select, at the end of its rows or at a block of ids
  split
  case h_1 t heq =>
    refine Ends.recreate husable (hselect.of_eq heq) 204 ?_
    rintro ⟨hselects, -, -⟩
    exact hselects ((husable.of_sameDb hexpired).select_fails heq)
  case h_2 rows t heq =>
    have ht := hselect.of_eq heq
    split_ifs with hbreaks hnothing
    · refine Ends.recreate husable ht 205 ?_
      rintro ⟨-, hwhole, -⟩
      exact Bool.false_ne_true (hwhole.symm.trans hbreaks.1)
    · exact Or.inl ht
    · have hblocks := fun blocks => ht.trans (sameDb_executeBlocks t .reserveEvents a.reserves blocks)
      split
      case h_1 u heq' =>
        refine Ends.recreate husable ((hblocks _).of_eq heq') 207 ?_
        rintro ⟨-, -, hreserves⟩
        exact (husable.of_sameDb ht).executeBlocks_fails heq' hreserves
      case h_2 u heq' => exact Or.inl (((hblocks _).of_eq heq').trans ⟨rfl, rfl, rfl⟩)

theorem deleteRecords_ends (ids : List StorageRecordId) (a : Answers) :
    Ends a (.deleteRecords ids) s (s.deleteRecords ids a) := by
  unfold deleteRecords
  split_ifs with hids hnone hbegin
  · exact Or.inl (SameDb.refl s)
  · exact Or.inl (SameDb.refl s)
  · exact Or.inl (SameDb.refl s)
  have husable := hs.usable (by simpa using hnone)
  split
  case h_1 u heq =>
    refine Ends.recreate husable ((sameDb_executeBlocks s _ _ _).of_eq heq) 302 ?_
    exact husable.executeBlocks_fails heq
  case h_2 u heq => exact Or.inl ((sameDb_executeBlocks s _ _ _).of_eq heq)

theorem releaseRecords_ends (ids : List StorageRecordId) (inc : Bool) (a : Answers) :
    Ends a (.releaseRecords ids inc) s (s.releaseRecords ids inc a) := by
  by_cases hearly : ids = [] ∨ s.db.isNone = true ∨ (!s.begins a.begins) = true
  · have hsame : s.releaseRecords ids inc a = s := by
      unfold releaseRecords
      rcases hearly with hids | hnone | hbegin
      · rw [if_pos hids]
      · rw [if_pos hnone, ite_self]
      · rw [if_pos hbegin, ite_self, ite_self]
    rw [hsame]
    exact Or.inl (SameDb.refl s)
  obtain ⟨hids, hnone, hbegin⟩ := not_or.1 hearly |>.imp_right not_or.1
  have husable := hs.usable (by simpa using hnone)
  unfold releaseRecords
  rw [if_neg hids, if_neg hnone, if_neg hbegin]
  split
  case h_1 u heq =>
    refine Ends.recreate husable ((sameDb_executeBlocks s _ _ _).of_eq heq) 403 ?_
    rintro ⟨hreleases, -, -⟩
    exact husable.executeBlocks_fails heq hreleases
  case h_2 u heq =>
    have hu := (sameDb_executeBlocks s _ _ _).of_eq heq
    split_ifs with hinc
    · exact Or.inl hu
    split
    case h_1 v heq' =>
      refine Ends.recreate husable (hu.trans ((sameDb_select u _ _).of_eq heq')) 404 ?_
      rintro ⟨-, hretried, -⟩
      exact hretried ((husable.of_sameDb hu).select_fails heq')
    case h_2 tenantTokens v heq' =>
      have hv := hu.trans ((sameDb_select u _ _).of_eq heq')
      split
      case h_1 w heq'' =>
        refine Ends.recreate husable (hv.trans ((sameDb_select v _ _).of_eq heq'')) 404 ?_
        rintro ⟨-, -, hdeletes⟩
        exact hdeletes ((husable.of_sameDb hv).select_fails heq'')
      case h_2 droppedCount w heq'' =>
        have hw := hv.trans ((sameDb_select v _ _).of_eq heq'')
        split_ifs
        · exact Or.inl (hw.trans (sameDb_notify w rfl))
        · exact Or.inl hw

theorem storeSetting_ends (name value : String) (a : Answers) :
    Ends a (.storeSetting name value) s (s.storeSetting name value a).2 := by
  unfold storeSetting
  split_ifs with hname hnone hvalue
  · exact Or.inl (SameDb.refl s)
  · exact Or.inl (SameDb.refl s)
  · have husable := hs.usable (by simpa using hnone)
    split
    case h_1 u heq =>
      refine Ends.recreate husable ((sameDb_execute s _ _).of_eq heq) 502 ?_
      intro hruns
      have hstores : a.storesSetting = true := by simpa [Runs, hvalue] using hruns
      exact husable.execute_fails heq hstores
    case h_2 u heq => exact Or.inl ((sameDb_execute s _ _).of_eq heq)
  · have husable := hs.usable (by simpa using hnone)
    split
    case h_1 u heq =>
      refine Ends.recreate husable ((sameDb_execute s _ _).of_eq heq) 503 ?_
      intro hruns
      have hdeletes : a.deletesSetting = true := by simpa [Runs, hvalue] using hruns
      exact husable.execute_fails heq hdeletes
    case h_2 u heq => exact Or.inl ((sameDb_execute s _ _).of_eq heq)

/-- **How every call but the opening and the closing ends.** -/
theorem step_ends (c : PreparedCall) (hinit : c.op ≠ .initializeStorage)
    (hshut : c.op ≠ .shutdown) : Ends (c.answers 0) c.op s (s.step c) := by
  obtain ⟨op, now, answers⟩ := c
  cases op with
  | initializeStorage => exact absurd rfl hinit
  | shutdown => exact absurd rfl hshut
  | execute | deleteAllRecords => exact Or.inl (SameDb.refl s)
  | storeRecord record => exact Or.inl (sameDb_storeRecord s record now _)
  | storeRecords records => exact Or.inl (sameDb_storeRecords s now answers records)
  | getAndReserveRecords consumer => exact getAndReserveRecords_ends hs consumer _
  | getRecords shutdown => exact Or.inl (sameDb_getRecords s shutdown _)
  | deleteRecordsWhere => exact Or.inl (sameDb_isOpen s)
  | deleteRecords ids => exact deleteRecords_ends hs ids _
  | releaseRecords ids inc => exact releaseRecords_ends hs ids inc _
  | storeSetting name value => exact storeSetting_ends hs name value _
  | getSetting name => exact Or.inl (sameDb_getSetting s name _)
  | deleteSetting name => exact Or.inl (sameDb_deleteSetting s name _)
  | getSize => exact Or.inl (sameDb_getSize s _)
  | getRecordCount latency => exact Or.inl (sameDb_getRecordCount s latency _)
  | resizeDb => exact Or.inl (sameDb_resizeDb s _)

end

/-! ## Runs -/

/-- **What holds between two calls**: the storage is sound, and has no
database after a failed recreate. -/
structure Settled (s : PreparedStorage) : Prop where
  sound : s.Sound
  closed : s.RecreateFailed → s.db = none

theorem settled_fresh (dbSizeLimit dbSizeNotificationLimit dbSizeNotificationInterval : ℕ)
    (dropIfFull : Bool) :
    (fresh dbSizeLimit dbSizeNotificationLimit dbSizeNotificationInterval dropIfFull).Settled :=
  ⟨(fun _ hdb => nomatch hdb), fun _ => rfl⟩

theorem settled_of_db_none (h : s.db = none) : s.Settled :=
  ⟨(fun _ hdb => nomatch h.symm.trans hdb), fun _ => h⟩

theorem Settled.of_sameDb (hs : s.Settled) (h : SameDb s t) : t.Settled where
  sound := h.sound hs.sound
  closed hfailed := h.db.trans (hs.closed (h.recreateFailed hfailed))

/-- An `Initialize` whose openings fail leaves no database. -/
theorem settled_initializeStorage (s : PreparedStorage) {a : Answers} (hopening : Prepares a.opening)
    (hreopening : Prepares a.reopening) : (s.initializeStorage a).Settled := by
  -- whichever way the first opening fails, what is left is up to the recreate
  have hrecreated {t u : PreparedStorage} (heq : t.recreate a.reopening 1 = (true, u)) :
      u.Settled := by
    obtain ⟨hsound, hnot⟩ := sound_of_recreate hreopening heq
    exact ⟨hsound, fun hfailed => absurd hfailed hnot⟩
  unfold initializeStorage
  dsimp only
  split
  case h_1 db heq =>
    split
    case h_1 u hrecreates => exact hrecreated hrecreates
    case h_2 => exact settled_of_db_none rfl
  case h_2 db heq =>
    have hopen := handleOpen_of_initializeDb heq
    rcases initializeDatabase_cases (s := { s with db := some db }) hopening rfl hopen with
      ⟨-, hfails⟩ | ⟨-, t, hsets, hsound, -⟩
    · rw [hfails]
      dsimp only
      split
      case h_1 u hrecreates => exact hrecreated hrecreates
      case h_2 => exact settled_of_db_none rfl
    · rw [hsets]
      refine ⟨hsound, fun hfailed => ?_⟩
      have hnone : "SQLite/Default" = "SQLite/None" := (recreateFailed_notify_iff t _).1 hfailed
      exact absurd hnone (by decide)

theorem Settled.shutdown (h : s.Settled) : s.shutdown.Settled := by
  unfold PreparedStorage.shutdown
  split_ifs
  · exact settled_of_db_none rfl
  · exact h.of_sameDb ⟨rfl, rfl, rfl⟩
  · exact h

/-- **One call.** -/
theorem Settled.step (h : s.Settled) {c : PreparedCall} (hc : FailsCleanly c) :
    (s.step c).Settled := by
  by_cases hinit : c.op = .initializeStorage
  · obtain ⟨op, now, answers⟩ := c
    subst hinit
    exact settled_initializeStorage s hc.1 hc.2
  by_cases hshut : c.op = .shutdown
  · obtain ⟨op, now, answers⟩ := c
    subst hshut
    exact h.shutdown
  have hclean : Runs (c.answers 0) c.op ∨ Reopens (c.answers 0).reopening := by
    obtain ⟨op, now, answers⟩ := c
    cases op <;> first | exact absurd rfl hinit | exact hc
  rcases step_ends h.sound c hinit hshut with hsame | ⟨hfails, u, failureCode, hu, hdb, heq⟩
  · exact h.of_sameDb hsame
  · -- the statement that failed was not granted, so the file opens anew
    have hreopens := hclean.resolve_left hfails
    obtain ⟨hsound, hnot⟩ := sound_of_recreate hreopens.prepares
      (Prod.ext (hreopens.recreate hdb failureCode) rfl :
        u.recreate (c.answers 0).reopening failureCode = (true, _))
    rw [heq]
    exact ⟨hsound, fun hfailed => absurd hfailed hnot⟩

/-! ## A storage without a database -/

theorem storeRecord_closed (h : s.db = none) (r : StorageRecord) (now : ℕ) (a : Answers) :
    (s.storeRecord r now a).1 = false ∧ (s.storeRecord r now a).2.uses = s.uses ∧
      (s.storeRecord r now a).2.db = none := by
  unfold storeRecord
  split_ifs with hbad hnone
  · exact ⟨rfl, rfl, h⟩
  · exact ⟨rfl, rfl, h⟩
  · exact absurd (by rw [h]; rfl) hnone
  · exact absurd (by rw [h]; rfl) hnone

theorem storeRecords_closed (h : s.db = none) (now : ℕ) (answers : ℕ → Answers)
    (rs : List StorageRecord) :
    (s.storeRecords now answers rs).1 = 0 ∧ (s.storeRecords now answers rs).2.uses = s.uses := by
  induction rs generalizing s answers with
  | nil => exact ⟨rfl, rfl⟩
  | cons r rs ih =>
    obtain ⟨hfalse, huses, hdb⟩ := storeRecord_closed h r now (answers 0)
    obtain ⟨hzero, hrest⟩ := ih hdb fun i => answers (i + 1)
    unfold storeRecords
    dsimp only
    rw [hfalse, if_neg Bool.false_ne_true]
    exact ⟨hzero, hrest.trans huses⟩

/-- **Without `m_db` every call returns its default.** -/
theorem closedFor_of_db_none (h : s.db = none) (c : PreparedCall)
    (hinit : c.op ≠ .initializeStorage) : s.ClosedFor c := by
  obtain ⟨op, now, answers⟩ := c
  unfold ClosedFor
  cases op with
  | initializeStorage => exact absurd rfl hinit
  | shutdown => simp [call, PreparedStorage.shutdown, h, PreparedResult.IsDefault]
  | execute | deleteAllRecords => exact ⟨trivial, rfl⟩
  | storeRecord record =>
    obtain ⟨hfalse, huses, -⟩ := storeRecord_closed h record now (answers 0)
    exact ⟨hfalse, huses⟩
  | storeRecords records => exact storeRecords_closed h now answers records
  | getAndReserveRecords consumer =>
    simp [call, getAndReserveRecords, h, PreparedResult.IsDefault]
  | getRecords shutdown => simp [call, getRecords, isOpen, h, notify, PreparedResult.IsDefault]
  | deleteRecordsWhere =>
    simp [call, deleteRecordsWhere, isOpen, h, notify, PreparedResult.IsDefault]
  | deleteRecords ids => simp [call, deleteRecords, h, PreparedResult.IsDefault]
  | releaseRecords ids inc => simp [call, releaseRecords, h, PreparedResult.IsDefault]
  | storeSetting name value => simp [call, storeSetting, h, PreparedResult.IsDefault]
  | getSetting name =>
    by_cases hname : name = "" <;>
      simp [call, getSetting, isOpen, h, hname, notify, PreparedResult.IsDefault]
  | deleteSetting name =>
    by_cases hname : name = "" <;>
      simp [call, deleteSetting, isOpen, h, hname, notify, PreparedResult.IsDefault]
  | getSize => simp [call, getSize, h, PreparedResult.IsDefault]
  | getRecordCount latency => simp [call, getRecordCount, h, PreparedResult.IsDefault]
  | resizeDb => simp [call, resizeDb, h, PreparedResult.IsDefault]

/-- **A failed database is treated as closed**, in every run whose calls
fail cleanly: between the calls the database that is there is usable, and
after a failed recreate every call but an `Initialize` returns its default
value and uses no statement. -/
theorem failed_is_closed (dbSizeLimit dbSizeNotificationLimit dbSizeNotificationInterval : ℕ)
    (dropIfFull : Bool) (calls : List PreparedCall) (hcalls : ∀ c ∈ calls, FailsCleanly c) :
    let s := run step (fresh dbSizeLimit dbSizeNotificationLimit dbSizeNotificationInterval
      dropIfFull) calls
    s.Sound ∧ (s.RecreateFailed →
      ∀ c : PreparedCall, c.op ≠ .initializeStorage → s.ClosedFor c) := by
  intro s
  have hsettled : s.Settled :=
    run_invariant (fun s c hs hc => Settled.step hs hc)
      (settled_fresh dbSizeLimit dbSizeNotificationLimit dbSizeNotificationInterval dropIfFull)
      (runMeets_forall.2 hcalls)
  exact ⟨hsettled.sound, fun hfailed c hc => closedFor_of_db_none (hsettled.closed hfailed) c hc⟩

/-! ## Failures that leave statements behind -/

/-- An opening at which everything succeeds, of an empty database. -/
def granted : OpenAnswers where
  initializes := true
  deletesPrevious := true
  opens := true
  registers := true
  userVersion := some 1
  setsVersion := true
  createsEvents := true
  createsIndex := true
  createsSettings := true
  pageSize := some 4096
  prepares n := some (StmtName.all.idxOf n)
  resize := ⟨some 0, true, some 0, true, some 0, some 0⟩

/-- A call at which everything succeeds. -/
def grantedAnswers : Answers where
  opening := granted
  reopening := granted
  begins := true
  stores := true
  pages := some 0
  resize := granted.resize
  count := some 7
  releasesExpired := true
  selects := some []
  breaks := false
  reserves _ := true
  deletes _ := true
  releases _ := true
  retried := some []
  deletesRetried := some 0
  storesSetting := true
  deletesSetting := true
  setting := some none

/-- The file cannot be opened, nor deleted. -/
def unopened : PreparedCall where
  op := .initializeStorage
  now := 0
  answers _ := { grantedAnswers with
    opening := { granted with opens := false }
    reopening := { granted with deletesPrevious := false } }

/-- An `Initialize` that fails twice leaves the storage closed. -/
theorem failed_is_closed_unopened :
    FailsCleanly unopened ∧ (run step (fresh 0 0 0 false) [unopened]).RecreateFailed ∧
      ∀ c : PreparedCall, c.op ≠ .initializeStorage →
        (run step (fresh 0 0 0 false) [unopened]).ClosedFor c := by
  have hclean : FailsCleanly unopened := ⟨fun _ => rfl, fun _ => rfl⟩
  have hfailed : (run step (fresh 0 0 0 false) [unopened]).RecreateFailed := rfl
  have hclosed := failed_is_closed 0 0 0 false [unopened]
    fun c hc => mem_singleton.1 hc ▸ hclean
  exact ⟨hclean, hfailed, hclosed.2 hfailed⟩

/-- An opening at which one preparation fails. -/
def unprepared : PreparedCall where
  op := .initializeStorage
  now := 0
  answers _ := { grantedAnswers with
    opening := { granted with
      prepares := fun n => if n = .getRecordCount then none else some (StmtName.all.idxOf n) } }

/-- A setting that is not stored, by a database whose file cannot be
deleted. -/
def unrecreated : List PreparedCall :=
  [⟨.initializeStorage, 0, fun _ => grantedAnswers⟩,
    ⟨.storeSetting "name" "value", 0, fun _ => { grantedAnswers with
      storesSetting := false
      reopening := { granted with deletesPrevious := false } }⟩]

/-- **Statements left behind.** An `Initialize` goes through with a
statement that was not prepared. And after a recreate that failed inside
a `StoreSetting`, `m_db` is there with its handle closed, and the next
`GetRecordCount` hands the engine a statement that was finalised, and
returns what comes of it. -/
theorem statements_left_behind :
    (let s := run step (fresh 0 0 0 false) [unprepared];
      s.isOpened = true ∧ s.ids .getRecordCount = none ∧ ¬ s.Sound) ∧
    (let s := run step (fresh 0 0 0 false) unrecreated;
      let c : PreparedCall := ⟨.getRecordCount .unspecified, 0, fun _ => grantedAnswers⟩;
      s.RecreateFailed ∧ s.db = some ⟨false, []⟩ ∧ ¬ s.Sound ∧
        (s.call c).1 = .count 7 ∧ (.getRecordCount, 4) ∈ (s.call c).2.uses ∧ ¬ s.ClosedFor c) := by
  refine ⟨⟨rfl, rfl, fun hsound => ?_⟩, rfl, rfl, fun hsound => ?_, rfl, ?_, fun hclosed => ?_⟩
  · obtain ⟨stmt, hid, -⟩ := (hsound _ rfl).2 .getRecordCount
    cases hid
  · cases (hsound _ rfl).1
  · decide
  · cases hclosed.1

end PreparedStorage

end ClientTelemetry
