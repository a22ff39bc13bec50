import ClientTelemetry.Offline.Helpers.Scrub
/-!
# What is handed to the persistent store

Every record that the handler passes to `StoreRecord` or `StoreRecords`
of its persistent store, over a whole run of calls. `recorded` puts a log
of these records next to any persistent store; the log changes nothing
else (`run_forget`). A record that must not be stored on disk is kept
out of a direct store, and not out of a flush: no such record is handed
over in a run none of whose flushes finds one in RAM
(`handed_storable`).
-/

namespace ClientTelemetry

open List

/-- **A persistent store with a log of what it is asked to store.** -/
def recorded {δ : Type} (D : DiskStorage δ) : DiskStorage (δ × List StorageRecord) where
  create d := (D.create (d.map Prod.fst)).map (·, (d.map Prod.snd).getD [])
  initializeStorage d := (D.initializeStorage d.1, d.2)
  shutdown d := (D.shutdown d.1, d.2)
  storeRecord d r now := ((D.storeRecord d.1 r now).1, (D.storeRecord d.1 r now).2, d.2 ++ [r])
  storeRecords d rs now := ((D.storeRecords d.1 rs now).1, (D.storeRecords d.1 rs now).2, d.2 ++ rs)
  getAndReserveRecords d c k leaseTimeMs minLatency maxCount now :=
    let (found, k, d') := D.getAndReserveRecords d.1 c k leaseTimeMs minLatency maxCount now
    (found, k, d', d.2)
  lastReadRecordCount d := D.lastReadRecordCount d.1
  deleteAllRecords d := (D.deleteAllRecords d.1, d.2)
  deleteRecords d ids := (D.deleteRecords d.1 ids, d.2)
  deleteRecordsWhere d whereFilter := (D.deleteRecordsWhere d.1 whereFilter, d.2)
  releaseRecords d ids inc := (D.releaseRecords d.1 ids inc, d.2)
  getSize d := D.getSize d.1
  getRecordCount d latency := D.getRecordCount d.1 latency

namespace Handler

variable {δ κ : Type} {D : DiskStorage δ} {h : Handler (δ × List StorageRecord)} {now : ℕ}

/-- The log. -/
def handed (h : Handler (δ × List StorageRecord)) : List StorageRecord :=
  (h.disk.map Prod.snd).getD []

/-- The handler without the log. -/
def forget (h : Handler (δ × List StorageRecord)) : Handler δ :=
  { h with disk := h.disk.map Prod.fst }

/-- **The same handler without the log**, and nothing in the log but records
of this kind. -/
def Logged (ok : StorageRecord → Prop) (h : Handler (δ × List StorageRecord)) (h' : Handler δ) :
    Prop :=
  h.forget = h' ∧ ∀ r ∈ h.handed, ok r

/-! ## What each call hands over -/

variable {ok : StorageRecord → Prop} {h' : Handler δ} {record : StorageRecord}

theorem initializeStorage_logged (hh : Logged ok h h') :
    Logged ok (h.initializeStorage (recorded D)).2 (h'.initializeStorage D).2 := by
  obtain ⟨rfl, hlog⟩ := hh
  unfold initializeStorage forget
  simp only [recorded]
  rcases D.create (h.disk.map Prod.fst) with _ | d
  · exact ⟨rfl, nofun⟩
  · exact ⟨rfl, hlog⟩

/-- A flush hands over records that were queued. -/
theorem flush_logged (hqueued : ∀ r ∈ h.queuedRecords, ok r) (hh : Logged ok h h') :
    Logged ok (h.flush (recorded D) now).2 (h'.flush D now).2 := by
  obtain ⟨rfl, hlog⟩ := hh
  obtain ⟨_, _, memory, disk, _, _, _, _, _, _, _, _⟩ := h
  unfold flush forget
  rcases memory with _ | m
  · exact ⟨rfl, hlog⟩
  · rcases disk with _ | d
    · dsimp only [Option.map_none]
      split_ifs <;> exact ⟨rfl, hlog⟩
    · dsimp only [Option.map_some]
      split_ifs
      · refine ⟨rfl, fun r hr => ?_⟩
        have hmem : r ∈ d.2 ++ m.getRecords.1 := hr
        rcases mem_append.1 hmem with hin | htaken
        · exact hlog r hin
        · rw [MemoryStorage.getRecords_fst] at htaken
          exact hqueued r (MemoryStorage.mem_queued_of_mem_offered htaken)
      · exact ⟨rfl, hlog⟩

/-- And leaves in RAM what was there. -/
theorem ramRecords_flush_subset : (h.flush (recorded D) now).2.ramRecords ⊆ h.ramRecords := by
  obtain ⟨_, _, memory, disk, _, _, _, _, _, _, _, _⟩ := h
  unfold flush
  rcases memory with _ | m
  · exact List.Subset.refl _
  · rcases disk with _ | d
    · dsimp only
      split_ifs <;> exact List.Subset.refl _
    · dsimp only
      split_ifs with hsize
      · intro r hr
        have hmem : r ∈ (m.getRecords.2.deleteRecords []).held := hr
        rw [MemoryStorage.deleteRecords_nil] at hmem
        exact MemoryStorage.held_getAndReserveRecords_subset _ _ _ _ _ _ hmem
      · exact List.Subset.refl _

theorem runScheduledFlush_logged
    (hqueued : h.flushPending = true → ∀ r ∈ h.queuedRecords, ok r) (hh : Logged ok h h') :
    Logged ok (h.runScheduledFlush (recorded D) now) (h'.runScheduledFlush D now) := by
  obtain ⟨rfl, hlog⟩ := hh
  unfold runScheduledFlush
  rw [show h.forget.flushPending = h.flushPending from rfl]
  split_ifs with hpending
  · exact flush_logged (hqueued hpending) ⟨rfl, hlog⟩
  · exact ⟨rfl, hlog⟩

theorem queuedRecords_subset : h.queuedRecords ⊆ h.ramRecords := by
  unfold queuedRecords ramRecords
  rcases h.memory with _ | m
  · exact List.Subset.refl _
  · exact subset_append_left _ _

/-- A shutdown hands over records that were queued or reserved. -/
theorem shutdown_logged (hram : ∀ r ∈ h.ramRecords, ok r) (hh : Logged ok h h') :
    Logged ok (h.shutdown (recorded D) now) (h'.shutdown D now) := by
  obtain ⟨rfl, hlog⟩ := hh
  have hfirst : Logged ok ({ h with shutdownStarted := true }.runScheduledFlush (recorded D) now)
      ({ h.forget with shutdownStarted := true }.runScheduledFlush D now) :=
    runScheduledFlush_logged (fun _ r hr => hram r (queuedRecords_subset hr)) ⟨rfl, hlog⟩
  have hrest : ∀ r ∈ ({ h with shutdownStarted := true }.runScheduledFlush
      (recorded D) now).ramRecords, ok r := by
    rw [runScheduledFlush]
    split_ifs
    · exact fun r hr => hram r (ramRecords_flush_subset (h := { h with shutdownStarted := true }) hr)
    · exact hram
  -- then everything reserved is queued again and flushed, and the store is closed
  have hclose {h₂ : Handler (δ × List StorageRecord)} {h₂' : Handler δ} (hh : Logged ok h₂ h₂') :
      Logged ok { h₂ with disk := h₂.disk.map (recorded D).shutdown }
        { h₂' with disk := h₂'.disk.map D.shutdown } := by
    obtain ⟨rfl, hlog⟩ := hh
    obtain ⟨_, _, _, disk, _, _, _, _, _, _, _, _⟩ := h₂
    rcases disk with _ | d <;> exact ⟨rfl, hlog⟩
  unfold shutdown
  dsimp only
  generalize { h with shutdownStarted := true }.runScheduledFlush (recorded D) now = h₁
    at hfirst hrest
  generalize { h.forget with shutdownStarted := true }.runScheduledFlush D now = h₁' at hfirst
  obtain ⟨rfl, hlog₁⟩ := hfirst
  rw [show h₁.forget.memory = h₁.memory from rfl]
  rcases hm : h₁.memory with _ | m
  · exact hclose ⟨rfl, hlog₁⟩
  · refine hclose (flush_logged (fun r hr => hrest r ?_) ⟨rfl, hlog₁⟩)
    have hheld : r ∈ m.releaseAllRecords.held := mem_append_left _ hr
    unfold ramRecords
    rw [hm]
    exact MemoryStorage.held_releaseAllRecords_subset hheld

section

variable (hok : record.persistence ≠ .doNotStoreOnDisk → ok record)
include hok

/-- A store hands over its record if that may be stored on disk. -/
theorem keepRecord_logged (hh : Logged ok h h') :
    Logged ok (h.keepRecord (recorded D) record now) (h'.keepRecord D record now) := by
  obtain ⟨rfl, hlog⟩ := hh
  obtain ⟨_, _, memory, disk, _, _, _, _, _, started, _, _⟩ := h
  have hstored (d : δ × List StorageRecord) (hlog : ∀ r ∈ d.2, ok r)
      (hp : record.persistence ≠ .doNotStoreOnDisk) : ∀ r ∈ d.2 ++ [record], ok r := by
    intro r hr
    rcases mem_append.1 hr with hin | hone
    · exact hlog r hin
    · rw [mem_singleton.1 hone]
      exact hok hp
  unfold keepRecord forget
  rcases memory with _ | m <;> rcases started with _ | _ <;> rcases disk with _ | d <;>
    dsimp only [Option.map_none, Option.map_some] <;> try exact ⟨rfl, hlog⟩
  -- the record goes to the store
  all_goals
    split_ifs with hp
    · exact ⟨rfl, hstored d hlog hp⟩
    · exact ⟨rfl, hlog⟩

theorem storeRecord_logged (hh : Logged ok h h') :
    Logged ok (h.storeRecord (recorded D) record now).2 (h'.storeRecord D record now).2 := by
  obtain ⟨rfl, hlog⟩ := hh
  have hkeep (k : KillSwitchManager) : Logged ok
      ({ h with killSwitchManager := k }.keepRecord (recorded D) record now)
      ({ h.forget with killSwitchManager := k }.keepRecord D record now) :=
    keepRecord_logged hok ⟨rfl, hlog⟩
  unfold storeRecord isKilled
  rw [show h.forget.shutdownStarted = h.shutdownStarted from rfl,
    show h.forget.killSwitchManager = h.killSwitchManager from rfl]
  by_cases hstarted : h.shutdownStarted = true
  · rw [if_pos hstarted, if_pos hstarted]
    exact hkeep h.killSwitchManager
  · rw [if_neg hstarted, if_neg hstarted]
    by_cases hactive : h.killSwitchManager.isActive = true
    · rw [if_pos hactive, if_pos hactive]
      rcases h.killSwitchManager.isTokenBlocked (utcSeconds now) record.tenantToken with ⟨_ | _, k⟩
      · exact hkeep k
      · exact ⟨rfl, hlog⟩
    · rw [if_neg hactive, if_neg hactive]
      exact hkeep h.killSwitchManager

end

theorem storeRecords_logged {records : List StorageRecord}
    (hok : ∀ r : StorageRecord, r.persistence ≠ .doNotStoreOnDisk → ok r) (hh : Logged ok h h') :
    Logged ok (h.storeRecords (recorded D) records now).2 (h'.storeRecords D records now).2 := by
  unfold storeRecords
  exact foldl_rel (r := fun (x : ℕ × _) (y : ℕ × _) => Logged ok x.2 y.2) hh
    fun record _ _ _ hacc => storeRecord_logged (hok record) hacc

theorem pingClock_logged (hh : Logged ok h h') : Logged ok (h.pingClock now) (h'.pingClock now) := by
  obtain ⟨rfl, hlog⟩ := hh
  unfold pingClock forget
  split_ifs <;> exact ⟨rfl, hlog⟩

section

variable (c : κ → StorageRecord → Bool × κ)

theorem readDisk_logged {found found' : Bool} (k : κ)
    (leaseTimeMs : ℕ) (minLatency : EventLatency) (maxCount : ℕ) (hh : Logged ok h h') :
    Logged ok (h.readDisk (recorded D) found c k leaseTimeMs minLatency maxCount now).2.2
      (h'.readDisk D found' c k leaseTimeMs minLatency maxCount now).2.2 := by
  obtain ⟨rfl, hlog⟩ := hh
  obtain ⟨_, _, _, disk, _, _, _, _, _, _, _, _⟩ := h
  unfold readDisk forget
  rcases disk with _ | d
  · exact pingClock_logged ⟨rfl, hlog⟩
  · refine pingClock_logged ?_
    dsimp only [Option.map_some]
    split_ifs with hcount hcount' hcount'
    · exact ⟨rfl, hlog⟩
    · exact absurd hcount hcount'
    · exact absurd hcount' hcount
    · exact ⟨rfl, hlog⟩

theorem getAndReserveRecords_logged (k : κ)
    (leaseTimeMs : ℕ) (minLatency : EventLatency) (maxCount : ℕ) (hh : Logged ok h h') :
    Logged ok (h.getAndReserveRecords (recorded D) c k leaseTimeMs minLatency maxCount now).2.2
      (h'.getAndReserveRecords D c k leaseTimeMs minLatency maxCount now).2.2 := by
  obtain ⟨rfl, hlog⟩ := hh
  unfold getAndReserveRecords
  dsimp only
  rw [show h.forget.memory = h.memory from rfl]
  rcases h.memory with _ | m
  · exact readDisk_logged c k leaseTimeMs minLatency maxCount ⟨rfl, hlog⟩
  · dsimp only
    split_ifs
    · exact ⟨rfl, hlog⟩
    · exact readDisk_logged c _ leaseTimeMs minLatency _ ⟨rfl, hlog⟩
    · exact readDisk_logged c _ leaseTimeMs minLatency _ ⟨rfl, hlog⟩

end

theorem deleteRecordsWhere_logged (whereFilter : OrdMap String String) (hh : Logged ok h h') :
    Logged ok (h.deleteRecordsWhere (recorded D) whereFilter)
      (h'.deleteRecordsWhere D whereFilter) := by
  obtain ⟨rfl, hlog⟩ := hh
  obtain ⟨_, _, _, disk, _, _, _, _, _, _, _, _⟩ := h
  rcases disk with _ | d <;> exact ⟨rfl, hlog⟩

theorem handleHeaders_logged (headers : HttpHeaders) (hh : Logged ok h h') :
    (h'.handleHeaders D headers now).1 = (h.handleHeaders (recorded D) headers now).1 ∧
      Logged ok (h.handleHeaders (recorded D) headers now).2 (h'.handleHeaders D headers now).2 := by
  have hscrub {h₁ : Handler (δ × List StorageRecord)} {h₁' : Handler δ} (keys : List String)
      (hh : Logged ok h₁ h₁') :
      Logged ok (h₁.deleteRecordsByKeys (recorded D) keys) (h₁'.deleteRecordsByKeys D keys) := by
    unfold deleteRecordsByKeys
    induction keys generalizing h₁ h₁' with
    | nil => exact hh
    | cons key keys ih => exact ih (deleteRecordsWhere_logged _ hh)
  obtain ⟨rfl, hlog⟩ := hh
  unfold handleHeaders
  by_cases hnil : headers = []
  · simp only [hnil, if_true]
    exact ⟨trivial, rfl, hlog⟩
  · simp only [hnil, if_false]
    rw [show h.forget.killSwitchManager = h.killSwitchManager from rfl]
    rcases h.killSwitchManager.handleResponse (utcSeconds now) headers with ⟨e | _ | _, k⟩
    · exact ⟨rfl, rfl, hlog⟩
    · exact ⟨rfl, rfl, hlog⟩
    · exact ⟨rfl, hscrub _ ⟨rfl, hlog⟩⟩

theorem deleteNamed_logged (ids : List StorageRecordId) (fromMemory : Bool) (hh : Logged ok h h') :
    Logged ok (h.deleteNamed (recorded D) ids fromMemory) (h'.deleteNamed D ids fromMemory) := by
  obtain ⟨rfl, hlog⟩ := hh
  obtain ⟨_, _, memory, disk, _, _, _, _, _, _, _, _⟩ := h
  rcases fromMemory with _ | _ <;> rcases memory with _ | m <;> rcases disk with _ | d <;>
    exact ⟨rfl, hlog⟩

theorem releaseNamed_logged (ids : List StorageRecordId) (inc fromMemory : Bool)
    (hh : Logged ok h h') : Logged ok (h.releaseNamed (recorded D) ids inc fromMemory)
      (h'.releaseNamed D ids inc fromMemory) := by
  obtain ⟨rfl, hlog⟩ := hh
  obtain ⟨_, _, memory, disk, _, _, _, _, _, _, _, _⟩ := h
  rcases fromMemory with _ | _ <;> rcases memory with _ | m <;> rcases disk with _ | d <;>
    exact ⟨rfl, hlog⟩

/-! ## Runs -/

/-- **No flush of the call finds a record in RAM that must not be stored
on disk**: among the queued ones, and at a shutdown among the reserved
ones too. -/
def FlushesStorable {ε : Type} (h : Handler ε) (a : ℕ × HandlerOp) : Prop :=
  match a.2 with
  | .flush => ∀ r ∈ h.queuedRecords, r.persistence ≠ .doNotStoreOnDisk
  | .runScheduledFlush =>
    h.flushPending = true → ∀ r ∈ h.queuedRecords, r.persistence ≠ .doNotStoreOnDisk
  | .shutdown => ∀ r ∈ h.ramRecords, r.persistence ≠ .doNotStoreOnDisk
  | _ => True

/-- **What a call hands over**: records that may be stored on disk, and what
its flushes find. The log changes nothing else. -/
theorem step_logged {a : ℕ × HandlerOp}
    (hok : ∀ r : StorageRecord, r.persistence ≠ .doNotStoreOnDisk → ok r)
    (hflush : FlushesStorable h a ∨ ∀ r, ok r) (hh : Logged ok h h') :
    Logged ok (h.step (recorded D) a) (h'.step D a) := by
  obtain ⟨now, op⟩ := a
  unfold step
  cases op with
  | initializeStorage => exact initializeStorage_logged hh
  | storeRecord record => exact storeRecord_logged (hok record) hh
  | storeRecords records => exact storeRecords_logged hok hh
  | getAndReserveRecords c leaseTimeMs minLatency maxCount =>
    exact getAndReserveRecords_logged c.accept c.start leaseTimeMs minLatency maxCount hh
  | deleteRecords ids headers fromMemory =>
    obtain ⟨hsame, hrest⟩ := handleHeaders_logged (D := D) headers hh
    dsimp only
    rw [deleteRecords_snd, deleteRecords_snd, hsame]
    split_ifs
    · exact deleteNamed_logged ids fromMemory hrest
    · exact hrest
  | releaseRecords ids inc headers fromMemory =>
    obtain ⟨hsame, hrest⟩ := handleHeaders_logged (D := D) headers hh
    dsimp only
    rw [releaseRecords_snd, releaseRecords_snd, hsame]
    split_ifs
    · exact releaseNamed_logged ids inc fromMemory hrest
    · exact hrest
  | deleteRecordsWhere whereFilter => exact deleteRecordsWhere_logged whereFilter hh
  | deleteAllRecords =>
    obtain ⟨rfl, hlog⟩ := hh
    obtain ⟨_, _, _, disk, _, _, _, _, _, _, _, _⟩ := h
    rcases disk with _ | d <;> exact ⟨rfl, hlog⟩
  | flush => exact flush_logged (fun r hr => hflush.elim (fun h => hok r (h r hr)) (· r)) hh
  | runScheduledFlush =>
    exact runScheduledFlush_logged
      (fun hp r hr => hflush.elim (fun h => hok r (h hp r hr)) (· r)) hh
  | shutdown => exact shutdown_logged (fun r hr => hflush.elim (fun h => hok r (h r hr)) (· r)) hh

/-- **The log is a log**: without it the handler takes the same steps. -/
theorem run_forget (as : List (ℕ × HandlerOp)) :
    (run (step (recorded D)) h as).forget = run (step D) h.forget as := by
  induction as generalizing h with
  | nil => rfl
  | cons a as ih =>
    have hstep : Logged (fun _ => True) (h.step (recorded D) a) (h.forget.step D a) :=
      step_logged (fun _ _ => trivial) (.inr fun _ => trivial) ⟨rfl, fun _ _ => trivial⟩
    rw [run_cons, run_cons, ih, hstep.1]

/-- Only records that may be stored on disk were handed over. -/
def HandedStorable (h : Handler (δ × List StorageRecord)) : Prop :=
  ∀ r ∈ h.handed, r.persistence ≠ .doNotStoreOnDisk

end Handler

/-- **Records that must not be stored on disk stay away from it, as long
as no flush meets one.** For every persistent store, every configuration
and every run of calls none of whose flushes finds such a record in RAM,
no such record was handed to the persistent store. A direct store needs
no condition. -/
theorem handed_storable {δ : Type} (D : DiskStorage δ) (ramQueueSize : ℕ) (clockSkewEnabled : Bool)
    (cacheMemorySizeLimit : Option ℕ) (as : List (ℕ × HandlerOp))
    (hflush : RunMeets Handler.FlushesStorable (Handler.step (recorded D))
      (Handler.new ramQueueSize clockSkewEnabled cacheMemorySizeLimit) as) :
    (run (Handler.step (recorded D))
      (Handler.new ramQueueSize clockSkewEnabled cacheMemorySizeLimit) as).HandedStorable := by
  have hstep : ∀ (h : Handler (δ × List StorageRecord)) (a : ℕ × HandlerOp), h.HandedStorable →
      h.FlushesStorable a → (h.step (recorded D) a).HandedStorable :=
    fun h a hinv hok => (Handler.step_logged (fun _ => id) (.inl hok) ⟨rfl, hinv⟩).2
  refine run_invariant hstep ?_ hflush
  intro r hr
  cases hr

/-- A record stored in RAM and flushed. -/
def storeAndFlush (persistence : EventPersistence) (last : HandlerOp) : List (ℕ × HandlerOp) :=
  [(0, .initializeStorage), (1000, .storeRecord ⟨"a", "t", .normal, persistence, 1, [1], 0, 0⟩),
    (2000, last)]

theorem handed_storable_flush :
    (run (Handler.step (recorded (sqliteStorage (SQLite.openOn SQLite.Engine.sound []))))
      (Handler.new 4096 false none) (storeAndFlush .normal .flush)).HandedStorable :=
  handed_storable _ 4096 false none (storeAndFlush .normal .flush)
    ⟨trivial, trivial, fun r hr => by
      obtain rfl := mem_singleton.1 hr
      decide, trivial⟩

/-- **A flush hands over a record that must not be stored on disk**, and
so does a shutdown. -/
theorem flush_hands_doNotStoreOnDisk :
    let D := recorded (sqliteStorage (SQLite.openOn SQLite.Engine.sound []))
    (run (Handler.step D) (Handler.new 4096 false none)
        (storeAndFlush .doNotStoreOnDisk .flush)).handed =
      [⟨"a", "t", .normal, .doNotStoreOnDisk, 1, [1], 0, 0⟩] ∧
    (run (Handler.step D) (Handler.new 4096 false none)
        (storeAndFlush .doNotStoreOnDisk .shutdown)).handed =
      [⟨"a", "t", .normal, .doNotStoreOnDisk, 1, [1], 0, 0⟩] :=
  ⟨rfl, rfl⟩

end ClientTelemetry
