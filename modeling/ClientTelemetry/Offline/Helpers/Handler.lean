import ClientTelemetry.Offline.Helpers.MemoryErase
import ClientTelemetry.Offline.Model.Handler
/-!
# Frames of the handler's calls

What each call of the storage handler leaves alone: the kill switch is
touched by a store and by response headers only.
-/

namespace ClientTelemetry

namespace Handler

variable {δ κ : Type} {D : DiskStorage δ} {h : Handler δ} {now : ℕ} {d : δ} {m : MemoryStorage}
  {c : κ → StorageRecord → Bool × κ} {k : κ} {leaseTimeMs maxCount : ℕ} {minLatency : EventLatency}
  {ids : List StorageRecordId} {headers : HttpHeaders} {inc fromMemory : Bool}

/-! ## What the stores hold -/

/-- The records queued in RAM. -/
def queuedRecords (h : Handler δ) : List StorageRecord :=
  (h.memory.map MemoryStorage.queued).getD []

/-- The records in RAM, queued or reserved. -/
def ramRecords (h : Handler δ) : List StorageRecord := (h.memory.map MemoryStorage.held).getD []

/-- The rows on disk. -/
def diskRows (h : Handler SQLite) : List Sql.EventRow := (h.disk.map SQLite.rows).getD []

/-! ## Where a record is kept -/

/-- **In RAM**, unless a shutdown has started. -/
theorem keepRecord_memory (record : StorageRecord) : (h.keepRecord D record now).memory =
      if h.shutdownStarted then h.memory else h.memory.map fun m => (m.storeRecord record).2 := by
  obtain ⟨_, _, memory, disk, _, _, _, _, _, started, _, _⟩ := h
  rcases memory with _ | m <;> rcases started with _ | _ <;> rcases disk with _ | d <;>
    simp only [keepRecord, Option.map_none, Option.map_some, if_true, Bool.false_eq_true, if_false] <;>
    split_ifs <;> rfl

/-- **On disk** otherwise, if the record may be stored there. -/
theorem keepRecord_disk (record : StorageRecord) : (h.keepRecord D record now).disk =
      if (h.memory.isSome ∧ h.shutdownStarted = false) ∨ record.persistence = .doNotStoreOnDisk
      then h.disk else h.disk.map fun d => (D.storeRecord d record now).2 := by
  obtain ⟨_, _, memory, disk, _, _, _, _, _, started, _, _⟩ := h
  rcases memory with _ | m <;> rcases started with _ | _ <;> rcases disk with _ | d <;>
    by_cases hp : record.persistence = .doNotStoreOnDisk <;> simp [keepRecord, hp]

/-! ## The disk half of a read -/

section

variable (hd : h.disk = some d) (found : Bool) (c : κ → StorageRecord → Bool × κ) (k : κ)
  (leaseTimeMs : ℕ) (minLatency : EventLatency) (maxCount now : ℕ)
include hd

/-- The handler after a read that reached the persistent store. -/
theorem readDisk_snd_of_some : (h.readDisk D found c k leaseTimeMs minLatency maxCount now).2.2 =
      (if D.lastReadRecordCount
          (D.getAndReserveRecords d c k leaseTimeMs minLatency maxCount now).2.2 ≠ 0 then
        { h with
          disk := some (D.getAndReserveRecords d c k leaseTimeMs minLatency maxCount now).2.2
          lastReadCount := h.lastReadCount + D.lastReadRecordCount
            (D.getAndReserveRecords d c k leaseTimeMs minLatency maxCount now).2.2
          readFromMemory := false }
      else
        { h with
          disk := some
            (D.getAndReserveRecords d c k leaseTimeMs minLatency maxCount now).2.2 }).pingClock
        now := by
  unfold readDisk
  rw [hd]

theorem readDisk_answer_of_some : (h.readDisk D found c k leaseTimeMs minLatency maxCount now).1 =
        (found || (D.getAndReserveRecords d c k leaseTimeMs minLatency maxCount now).1) ∧
      (h.readDisk D found c k leaseTimeMs minLatency maxCount now).2.1 =
        (D.getAndReserveRecords d c k leaseTimeMs minLatency maxCount now).2.1 := by
  unfold readDisk
  rw [hd]
  exact ⟨rfl, rfl⟩

end

theorem readDisk_of_none (hd : h.disk = none) (found : Bool) (c : κ → StorageRecord → Bool × κ)
    (k : κ) (leaseTimeMs : ℕ) (minLatency : EventLatency) (maxCount now : ℕ) :
    h.readDisk D found c k leaseTimeMs minLatency maxCount now = (found, k, h.pingClock now) := by
  unfold readDisk
  rw [hd]

/-- Without a RAM queue a retrieval is the database's. -/
theorem getAndReserveRecords_of_none (hm : h.memory = none) (c : κ → StorageRecord → Bool × κ)
    (k : κ) (leaseTimeMs : ℕ) (minLatency : EventLatency) (maxCount now : ℕ) :
    h.getAndReserveRecords D c k leaseTimeMs minLatency maxCount now =
      { h with lastReadCount := 0, readFromMemory := false }.readDisk D false c k leaseTimeMs
        minLatency maxCount now := by
  unfold getAndReserveRecords
  rw [hm]

/-- The handler when a retrieval is done with the RAM queue. -/
def queueRead (h : Handler δ) (m : MemoryStorage) : Handler δ :=
  { h with memory := some m, lastReadCount := m.lastReadRecordCount, readFromMemory := true }

section

variable (hm : h.memory = some m) (c : κ → StorageRecord → Bool × κ) (k : κ) (leaseTimeMs : ℕ)
  (minLatency : EventLatency) (maxCount now : ℕ)
include hm

/-- A queue that gave records ends the retrieval. -/
theorem getAndReserveRecords_of_given (hgiven : (m.getAndReserveRecords c k leaseTimeMs minLatency maxCount
      now).2.2.lastReadRecordCount ≠ 0) :
    h.getAndReserveRecords D c k leaseTimeMs minLatency maxCount now =
      (true, (m.getAndReserveRecords c k leaseTimeMs minLatency maxCount now).2.1,
        h.queueRead (m.getAndReserveRecords c k leaseTimeMs minLatency maxCount now).2.2) := by
  unfold getAndReserveRecords
  rw [hm]
  dsimp only
  rw [if_pos hgiven]
  rfl

/-- One that gave none passes the retrieval, and the consumer, on to the
database. -/
theorem getAndReserveRecords_of_not_given (hnone : (m.getAndReserveRecords c k leaseTimeMs minLatency maxCount
      now).2.2.lastReadRecordCount = 0) :
    h.getAndReserveRecords D c k leaseTimeMs minLatency maxCount now =
      (h.queueRead (m.getAndReserveRecords c k leaseTimeMs minLatency maxCount now).2.2).readDisk D
        true c (m.getAndReserveRecords c k leaseTimeMs minLatency maxCount now).2.1 leaseTimeMs
        minLatency maxCount now := by
  unfold getAndReserveRecords queueRead
  rw [hm]
  dsimp only
  -- the count still to read is the one asked for
  rw [hnone, if_neg (fun hne => hne rfl), if_pos (Nat.zero_le _), Nat.sub_zero]
  rfl

/-- With a RAM queue a retrieval never fails. -/
theorem getAndReserveRecords_fst_of_some :
    (h.getAndReserveRecords D c k leaseTimeMs minLatency maxCount now).1 = true := by
  by_cases hnone : (m.getAndReserveRecords c k leaseTimeMs minLatency maxCount
      now).2.2.lastReadRecordCount = 0
  · rw [getAndReserveRecords_of_not_given hm c k leaseTimeMs minLatency maxCount now hnone]
    generalize h.queueRead (m.getAndReserveRecords c k leaseTimeMs minLatency maxCount now).2.2 = h'
    rcases hd : h'.disk with _ | d
    · rw [readDisk_of_none hd]
    · rw [(readDisk_answer_of_some hd true c _ leaseTimeMs minLatency _ now).1, Bool.true_or]
  · rw [getAndReserveRecords_of_given hm c k leaseTimeMs minLatency maxCount now hnone]

end

/-! ## What most calls leave alone -/

/-- The same kill switch, the same configured limit of the RAM queue and
the same limit in use. -/
structure SameSettings (h h' : Handler δ) : Prop where
  killSwitchManager : h'.killSwitchManager = h.killSwitchManager
  ramQueueSize : h'.ramQueueSize = h.ramQueueSize
  cacheMemorySizeLimit : h'.cacheMemorySizeLimit = h.cacheMemorySizeLimit

theorem SameSettings.trans {h' h'' : Handler δ} (hs : SameSettings h h')
    (hs' : SameSettings h' h'') : SameSettings h h'' :=
  ⟨hs'.killSwitchManager.trans hs.killSwitchManager, hs'.ramQueueSize.trans hs.ramQueueSize,
    hs'.cacheMemorySizeLimit.trans hs.cacheMemorySizeLimit⟩

theorem flush_settings : SameSettings h (h.flush D now).2 := by
  unfold flush
  split
  · exact ⟨rfl, rfl, rfl⟩
  · split_ifs
    · split <;> exact ⟨rfl, rfl, rfl⟩
    · exact ⟨rfl, rfl, rfl⟩

theorem runScheduledFlush_settings : SameSettings h (h.runScheduledFlush D now) := by
  unfold runScheduledFlush
  split_ifs
  · exact flush_settings
  · exact ⟨rfl, rfl, rfl⟩

theorem shutdown_settings : SameSettings h (h.shutdown D now) := by
  have hstarted : SameSettings h { h with shutdownStarted := true } := ⟨rfl, rfl, rfl⟩
  have hwaited : SameSettings h ({ h with shutdownStarted := true }.runScheduledFlush D now) :=
    hstarted.trans runScheduledFlush_settings
  unfold shutdown
  generalize { h with shutdownStarted := true }.runScheduledFlush D now = h' at hwaited ⊢
  dsimp only
  split
  · exact hwaited.trans ⟨rfl, rfl, rfl⟩
  case h_2 m hm =>
    have hgiven : SameSettings h' { h' with memory := some m.releaseAllRecords } := ⟨rfl, rfl, rfl⟩
    have hflushed : SameSettings h ({ h' with memory := some m.releaseAllRecords }.flush D now).2 :=
      (hwaited.trans hgiven).trans flush_settings
    exact hflushed.trans ⟨rfl, rfl, rfl⟩

theorem initializeStorage_settings : SameSettings h (h.initializeStorage D).2 := by
  unfold initializeStorage
  split <;> exact ⟨rfl, rfl, rfl⟩

theorem pingClock_settings : SameSettings h (h.pingClock now) := by
  unfold pingClock
  split_ifs <;> exact ⟨rfl, rfl, rfl⟩

theorem readDisk_settings {found : Bool} :
    SameSettings h (h.readDisk D found c k leaseTimeMs minLatency maxCount now).2.2 := by
  unfold readDisk
  dsimp only
  split
  · exact pingClock_settings
  · refine SameSettings.trans ?_ pingClock_settings
    split_ifs <;> exact ⟨rfl, rfl, rfl⟩

theorem getAndReserveRecords_settings :
    SameSettings h (h.getAndReserveRecords D c k leaseTimeMs minLatency maxCount now).2.2 := by
  unfold getAndReserveRecords
  dsimp only
  split
  · refine SameSettings.trans ?_ readDisk_settings
    exact ⟨rfl, rfl, rfl⟩
  · split_ifs
    · exact ⟨rfl, rfl, rfl⟩
    · refine SameSettings.trans ?_ readDisk_settings
      exact ⟨rfl, rfl, rfl⟩
    · refine SameSettings.trans ?_ readDisk_settings
      exact ⟨rfl, rfl, rfl⟩

theorem deleteRecordsByKeys_settings {keys : List String} :
    SameSettings h (h.deleteRecordsByKeys D keys) := by
  unfold deleteRecordsByKeys
  induction keys generalizing h with
  | nil => exact ⟨rfl, rfl, rfl⟩
  | cons key keys ih =>
    refine SameSettings.trans ?_ ih
    exact ⟨rfl, rfl, rfl⟩

theorem deleteNamed_settings :
    SameSettings h (h.deleteNamed D ids fromMemory) := by
  unfold deleteNamed
  split <;> exact ⟨rfl, rfl, rfl⟩

theorem releaseNamed_settings :
    SameSettings h (h.releaseNamed D ids inc fromMemory) := by
  unfold releaseNamed
  split <;> exact ⟨rfl, rfl, rfl⟩

/-! ## The kill switch -/

theorem keepRecord_killSwitch {record : StorageRecord} :
    (h.keepRecord D record now).killSwitchManager = h.killSwitchManager := by
  unfold keepRecord
  dsimp only
  split
  · rfl
  · split
    · rfl
    · split_ifs <;> rfl

/-- **Headers reach the kill switch**, unless there are none. -/
theorem handleHeaders_killSwitch : (h.handleHeaders D headers now).2.killSwitchManager =
      if headers = [] then h.killSwitchManager
      else (h.killSwitchManager.handleResponse (utcSeconds now) headers).2 := by
  unfold handleHeaders
  dsimp only
  by_cases hnil : headers = []
  · rw [if_pos hnil, if_pos hnil]
  · rw [if_neg hnil, if_neg hnil]
    rcases hresp : h.killSwitchManager.handleResponse (utcSeconds now) headers with ⟨_ | killed, k⟩
    · rfl
    · rcases killed with _ | _
      · rfl
      · exact deleteRecordsByKeys_settings.killSwitchManager

/-! ## Behind the headers -/

/-- The ids are left alone if the headers cannot be read. -/
theorem deleteRecords_snd : (h.deleteRecords D ids headers fromMemory now).2 =
    if (h.handleHeaders D headers now).1.isOk then
      (h.handleHeaders D headers now).2.deleteNamed D ids fromMemory
    else (h.handleHeaders D headers now).2 := by
  unfold deleteRecords
  rcases h.handleHeaders D headers now with ⟨_ | _, h'⟩ <;> rfl

theorem releaseRecords_snd : (h.releaseRecords D ids inc headers fromMemory now).2 =
    if (h.handleHeaders D headers now).1.isOk then
      (h.handleHeaders D headers now).2.releaseNamed D ids inc fromMemory
    else (h.handleHeaders D headers now).2 := by
  unfold releaseRecords
  rcases h.handleHeaders D headers now with ⟨_ | _, h'⟩ <;> rfl

theorem deleteRecords_settings :
    SameSettings (h.handleHeaders D headers now).2 (h.deleteRecords D ids headers fromMemory now).2 := by
  rw [deleteRecords_snd]
  split_ifs
  · exact deleteNamed_settings
  · exact ⟨rfl, rfl, rfl⟩

theorem releaseRecords_settings : SameSettings (h.handleHeaders D headers now).2
    (h.releaseRecords D ids inc headers fromMemory now).2 := by
  rw [releaseRecords_snd]
  split_ifs
  · exact releaseNamed_settings
  · exact ⟨rfl, rfl, rfl⟩

end Handler

end ClientTelemetry
