import ClientTelemetry.Offline.Helpers.Handler
import ClientTelemetry.Offline.Helpers.SQLite
import ClientTelemetry.Offline.Model.StorageObserver
import ClientTelemetry.Packager.Helpers.Packager
/-!
# What a retrieval packages and what it reserves

`handleRetrieveEvents` walks the RAM queue, and the database when the
queue gave nothing, with the packager as the consumer. What each store
reserves is what the walk took from it (`newlyReserved_getAndReserve`,
on both sides). What is packaged is the same, unless the first record
offered is over the upload limit by itself: that one is packaged and not
taken, so it is sent without being reserved (`packaged_reserved_iff`).
-/

namespace ClientTelemetry

open Sql StorageObserver List

/-! ## What a read reserves -/

namespace MemoryStorage

variable {m : MemoryStorage} {κ : Type}

/-- **The ids that moved from the queues to the reserved map.** -/
def NewlyReserved (m m' : MemoryStorage) (i : StorageRecordId) : Prop :=
  ∃ r : StorageRecord, r.id = i ∧ m'.queued.count r < m.queued.count r ∧
    m'.reservedRecords.find? i = some r

variable (c : κ → StorageRecord → Bool × κ) (k : κ) {leaseTimeMs : ℕ} (minLatency : EventLatency)
  (maxCount now : ℕ)

theorem newlyReserved_getAndReserve (hlease : leaseTimeMs ≠ 0) (i : StorageRecordId) :
    NewlyReserved m (m.getAndReserveRecords c k leaseTimeMs minLatency maxCount now).2.2 i ↔
      ∃ r ∈ (m.walk c k leaseTimeMs minLatency maxCount now).1, r.id = i := by
  obtain ⟨records', heq, -, hperm⟩ :=
    getAndReserveRecords_spec m c k leaseTimeMs minLatency maxCount now
  set taken := (m.walk c k leaseTimeMs minLatency maxCount now).1 with htaken
  -- equal records may be queued twice, so what left is told by counting
  have hcount : ∀ r, m.queued.count r = taken.count r + (names.flatMap records').count r := by
    intro r
    rw [hperm.count_eq, count_append]
  rw [heq]
  constructor
  · rintro ⟨r, hid, hless, -⟩
    have hless' : (names.flatMap records').count r < m.queued.count r := hless
    have hpos : 0 < taken.count r := by
      have := hcount r
      omega
    exact ⟨r, count_pos_iff.1 hpos, hid⟩
  · rintro ⟨r, hr, hid⟩
    have hkey : i ∈ taken.map StorageRecord.id := hid ▸ mem_map_of_mem hr
    -- of the records taken under one id the map keeps the last
    obtain ⟨v, hlast⟩ := OrdMap.exists_lastUnder hkey
    obtain ⟨hv, hvid⟩ := OrdMap.mem_of_lastUnder hlast
    refine ⟨v, hvid, ?_, ?_⟩
    · show (names.flatMap records').count v < m.queued.count v
      have hpos : 0 < taken.count v := count_pos_iff.2 hv
      have := hcount v
      omega
    · show (if leaseTimeMs ≠ 0 then _ else _ : OrdMap StorageRecordId StorageRecord).find? i = _
      rw [if_pos hlease, OrdMap.find?_insertAll, hlast]
      rfl

theorem length_walk_le :
    (m.walk c k leaseTimeMs minLatency maxCount now).1.length ≤ countBound maxCount := by
  have hle := (offer_initial (onCopies c leaseTimeMs now) k (m.offered minLatency maxCount)).length_le
  have htake : (m.offered minLatency maxCount).length ≤ countBound maxCount := by
    unfold offered
    rw [length_take]
    omega
  unfold walk
  omega

/-- The answer, the consumer and the count of a read. The count is that
of the walk: no bound on a read is above the width of the counter. -/
theorem getAndReserveRecords_consumer (hcount : maxCount ≤ uintMax) :
    let w := m.walk c k leaseTimeMs minLatency maxCount now
    let res := m.getAndReserveRecords c k leaseTimeMs minLatency maxCount now
    res.2.1 = w.2 ∧ res.2.2.lastReadRecordCount = w.1.length := by
  intro w res
  obtain ⟨records', heq, -, -⟩ :=
    getAndReserveRecords_spec m c k leaseTimeMs minLatency maxCount now
  have hlen : w.1.length ≤ countBound maxCount := length_walk_le c k minLatency maxCount now
  have hbound : countBound maxCount < 2 ^ 32 := by
    unfold countBound uintMax at *
    split_ifs <;> omega
  simp only [res, heq]
  exact ⟨rfl, Nat.mod_eq_of_lt (lt_of_le_of_lt hlen hbound)⟩

end MemoryStorage

namespace SQLite

variable {s : SQLite} {κ : Type} {s' : SQLite} {minLatency : EventLatency}
  {maxCount now leaseTimeMs : ℕ} {row : EventRow}

/-- **The ids of the rows that were given a reservation.** -/
def NewlyReserved (s s' : SQLite) (i : StorageRecordId) : Prop :=
  ∃ (n : ℕ) (row row' : EventRow), s.rows[n]? = some row ∧ s'.rows[n]? = some row' ∧ row.recordId = i ∧
    row'.reservedUntil ≠ 0 ∧ row'.reservedUntil ≠ row.reservedUntil

/-- What the release of expired rows does to one of them. -/
def takenBack (now : ℤ) (row : EventRow) : EventRow :=
  if row.reservedUntil ≠ 0 ∧ row.reservedUntil ≤ now
  then { row with reservedUntil := 0, retryCount := row.retryCount + 1 } else row

section

variable (now : ℤ)

theorem releaseExpired_eq (rows : List EventRow) :
    releaseExpired now rows = rows.map (takenBack now) := rfl

theorem takenBack_recordId (row : EventRow) :
    (takenBack now row).recordId = row.recordId := by
  unfold takenBack
  split_ifs <;> rfl

/-- A row whose reservation is not its own after the release of expired
ones has none. -/
theorem takenBack_reservedUntil (row : EventRow) : (takenBack now row).reservedUntil = 0 ∨
      (takenBack now row).reservedUntil = row.reservedUntil := by
  unfold takenBack
  split_ifs
  · exact Or.inl rfl
  · exact Or.inr rfl

theorem not_newlyReserved_takenBack
    (hrows : s'.rows = releaseExpired now s.rows) (i : StorageRecordId) :
    ¬ NewlyReserved s s' i := by
  rintro ⟨n, row, row', hrow, hrow', -, hne, hchanged⟩
  rw [hrows, releaseExpired_eq, getElem?_map, hrow] at hrow'
  obtain rfl := Option.some.inj hrow'
  rcases takenBack_reservedUntil now row with h | h
  · exact hne h
  · exact hchanged h

end

theorem mem_selected (h : row ∈ s.selected minLatency maxCount now) :
    row ∈ releaseExpired now s.rows ∧ row.reservedUntil = 0 := by
  have hmem := mem_of_mem_take h
  rw [mem_insertionSort] at hmem
  obtain ⟨hin, hok⟩ := List.mem_filter.1 hmem
  exact ⟨hin, (by simpa using hok : minLatency.toInt ≤ row.latency ∧ row.reservedUntil = 0).2⟩

theorem nulFree_of_mem_selected (hnul : ∀ row ∈ s.rows, NulFree row.recordId)
        (h : row ∈ s.selected minLatency maxCount now) : NulFree row.recordId := by
  obtain ⟨row₀, hrow₀, rfl⟩ := mem_map.1 (mem_selected h).1
  show NulFree (takenBack now row₀).recordId
  rw [takenBack_recordId]
  exact hnul row₀ hrow₀

/-- **Reserving selected rows.** The ids given are newly reserved, and no
others: a selected row had no reservation that the new one could
equal. -/
theorem newlyReserved_reserve_iff (hlease : leaseTimeMs ≠ 0) {ids : List StorageRecordId}
    (hrows : s'.rows = reserve ids (now + leaseTimeMs) (releaseExpired now s.rows))
    (hids : ∀ i ∈ ids, ∃ row ∈ releaseExpired now s.rows, row.recordId = i ∧ row.reservedUntil = 0)
    (i : StorageRecordId) : NewlyReserved s s' i ↔ i ∈ ids := by
  constructor
  · rintro ⟨n, row, row', hrow, hrow', hid, hne, hchanged⟩
    rw [hrows, reserve, releaseExpired_eq, getElem?_map, getElem?_map, hrow] at hrow'
    by_contra hnot
    have hkey : (takenBack now row).recordId ∉ ids := by
      rw [takenBack_recordId, hid]
      exact hnot
    obtain rfl : takenBack now row = row' := by simpa [hkey] using hrow'
    rcases takenBack_reservedUntil now row with h | h
    · exact hne h
    · exact hchanged h
  · intro hi
    obtain ⟨row₀, hmem, hid, hzero⟩ := hids i hi
    obtain ⟨n, hn⟩ := getElem?_of_mem hmem
    rw [releaseExpired_eq, getElem?_map] at hn
    obtain ⟨row, hrow, rfl⟩ := Option.map_eq_some_iff.1 hn
    rw [takenBack_recordId] at hid
    have hrow' : s'.rows[n]? =
        some { takenBack now row with reservedUntil := (now : ℤ) + leaseTimeMs } := by
      rw [hrows, reserve, releaseExpired_eq, getElem?_map, getElem?_map, hrow]
      show some (if (takenBack now row).recordId ∈ ids then _ else _) = _
      rw [if_pos (by rw [takenBack_recordId, hid]; exact hi)]
    refine ⟨n, row, _, hrow, hrow', hid, ?_, ?_⟩
    · show (now : ℤ) + leaseTimeMs ≠ 0
      omega
    · -- a row that could be selected has a reservation in the past or none
      show (now : ℤ) + leaseTimeMs ≠ row.reservedUntil
      unfold takenBack at hzero
      split_ifs at hzero with hexp
      · omega
      · omega

section

variable (c : κ → StorageRecord → Bool × κ) (k : κ) (leaseTimeMs : ℕ) (minLatency : EventLatency)
  (maxCount now : ℕ)

theorem length_walk_le : (s.walk c k minLatency maxCount now).1.length ≤ limit maxCount := by
  have hle := (offer_initial (fun k (row : EventRow) => c k row.toRecord) k
    (s.selected minLatency maxCount now)).length_le
  have htake : (s.selected minLatency maxCount now).length ≤ limit maxCount := by
    unfold selected selectEvents
    rw [length_take]
    omega
  unfold walk
  omega

/-- **The ids a read of an open database reserves** are those the walk
took. -/
theorem newlyReserved_getAndReserve (hopen : s.Opened) (hf : s.engine.Faithful)
    (hnul : ∀ row ∈ s.rows, NulFree row.recordId) (hlease : leaseTimeMs ≠ 0) (i : StorageRecordId) :
    NewlyReserved s (s.getAndReserveRecords c k leaseTimeMs minLatency maxCount now).2.2 i ↔
      ∃ row ∈ (s.walk c k minLatency maxCount now).1, row.recordId = i := by
  have hwalked : ∀ row ∈ (s.walk c k minLatency maxCount now).1,
      row ∈ releaseExpired now s.rows ∧ row.reservedUntil = 0 :=
    fun row hrow => mem_selected (offer_subset hrow)
  have hwalkedNul : ∀ row ∈ (s.walk c k minLatency maxCount now).1, NulFree row.recordId :=
    fun row hrow => nulFree_of_mem_selected hnul (offer_subset hrow)
  rw [getAndReserveRecords_eq hopen.1 hopen.2.1 hf c k leaseTimeMs minLatency maxCount now
    hwalkedNul]
  by_cases hnone : (s.walk c k minLatency maxCount now).1 = []
  · rw [if_pos hnone, hnone]
    simp only [not_mem_nil, false_and, exists_false, iff_false]
    exact not_newlyReserved_takenBack now rfl i
  · rw [if_neg hnone]
    rw [newlyReserved_reserve_iff hlease rfl]
    · exact mem_map
    · intro i hi
      obtain ⟨row, hrow, rfl⟩ := mem_map.1 hi
      exact ⟨row, (hwalked row hrow).1, rfl, (hwalked row hrow).2⟩

/-- What a read of an open database tells the handler. -/
theorem getAndReserveRecords_consumer (hopen : s.Opened) (hf : s.engine.Faithful)
    (hnul : ∀ row ∈ s.rows, NulFree row.recordId) (hcount : maxCount ≤ uintMax) :
    let w := s.walk c k minLatency maxCount now
    let res := s.getAndReserveRecords c k leaseTimeMs minLatency maxCount now
    (res.1 = true ↔ w.1 ≠ []) ∧ res.2.1 = w.2 ∧ (res.2.2.lastReadCount ≠ 0 ↔ w.1 ≠ []) := by
  intro w res
  have hwalkedNul : ∀ row ∈ w.1, NulFree row.recordId :=
    fun row hrow => nulFree_of_mem_selected hnul (offer_subset hrow)
  have heq : res = _ := getAndReserveRecords_eq hopen.1 hopen.2.1 hf c k leaseTimeMs minLatency
    maxCount now hwalkedNul
  have hlen : w.1.length ≤ limit maxCount := length_walk_le c k minLatency maxCount now
  have hbound : limit maxCount < 2 ^ 32 := by
    unfold limit uintMax at *
    split_ifs <;> omega
  by_cases hnone : w.1 = []
  · rw [heq, if_pos hnone]
    simp [hnone, w]
  · rw [heq, if_neg hnone]
    have hpos : 0 < w.1.length := length_pos_iff.2 hnone
    refine ⟨by simp [hnone], rfl, ?_⟩
    show w.1.length % 2 ^ 32 ≠ 0 ↔ _
    rw [Nat.mod_eq_of_lt (by omega)]
    exact iff_of_true (by omega) hnone

end

end SQLite

namespace Handler

variable {κ : Type} {h : Handler SQLite} {fresh : SQLite} {minLatency : EventLatency}
  {maxCount now : ℕ} {h' : Handler SQLite}

/-- The ids a call reserved in RAM. -/
def RamReserved (h h' : Handler SQLite) (i : StorageRecordId) : Prop :=
  ∃ m m', h.memory = some m ∧ h'.memory = some m' ∧ MemoryStorage.NewlyReserved m m' i

/-- The ids a call reserved on disk. -/
def DiskReserved (h h' : Handler SQLite) (i : StorageRecordId) : Prop :=
  ∃ s s', h.disk = some s ∧ h'.disk = some s' ∧ SQLite.NewlyReserved s s' i

/-- The database is open, its statements run, and its ids are text. -/
def DiskReads (h : Handler SQLite) : Prop :=
  ∀ s, h.disk = some s → s.Opened ∧ s.engine.Faithful ∧ ∀ row ∈ s.rows, NulFree row.recordId

/-- The walk of a retrieval over the RAM queue. -/
def ramWalk (h : Handler SQLite) (c : κ → StorageRecord → Bool × κ) (k : κ)
    (minLatency : EventLatency) (maxCount now : ℕ) : List StorageRecord × κ :=
  match h.memory with
  | none => ([], k)
  | some m => m.walk c k leaseTimeMs minLatency maxCount now

/-- The walk of a retrieval over the database. -/
def diskWalk (h : Handler SQLite) (c : κ → StorageRecord → Bool × κ) (k : κ)
    (minLatency : EventLatency) (maxCount now : ℕ) : List EventRow × κ :=
  match h.disk with
  | none => ([], k)
  | some s => s.walk c k minLatency maxCount now

theorem not_diskReserved_self (hd : h'.disk = h.disk)
    (i : StorageRecordId) : ¬ DiskReserved h h' i := by
  rintro ⟨s, s', hs, hs', n, row, row', hrow, hrow', -, -, hchanged⟩
  rw [hd, hs] at hs'
  obtain rfl := Option.some.inj hs'
  rw [hrow] at hrow'
  obtain rfl := Option.some.inj hrow'
  exact hchanged rfl

theorem not_ramReserved_self (hm : h'.memory = h.memory)
    (i : StorageRecordId) : ¬ RamReserved h h' i := by
  rintro ⟨m, m', hm₁, hm', r, -, hless, -⟩
  rw [hm, hm₁] at hm'
  obtain rfl := Option.some.inj hm'
  exact lt_irrefl _ hless

/-- Between two known RAM stores. -/
theorem ramReserved_iff {m m' : MemoryStorage} (hm : h.memory = some m)
    (hm' : h'.memory = some m') (i : StorageRecordId) :
    RamReserved h h' i ↔ MemoryStorage.NewlyReserved m m' i := by
  simp [RamReserved, hm, hm']

/-- Between two known databases. -/
theorem diskReserved_iff {s s' : SQLite} (hs : h.disk = some s)
    (hs' : h'.disk = some s') (i : StorageRecordId) :
    DiskReserved h h' i ↔ SQLite.NewlyReserved s s' i := by
  simp [DiskReserved, hs, hs']

/-- **The disk half of a retrieval.** -/
theorem readDisk_spec (fresh : SQLite) (hdisk : h.DiskReads) (found : Bool)
    (c : κ → StorageRecord → Bool × κ) (k : κ) (minLatency : EventLatency) (maxCount now : ℕ)
    (hcount : maxCount ≤ uintMax) :
    let w := h.diskWalk c k minLatency maxCount now
    let res := h.readDisk (sqliteStorage fresh) found c k leaseTimeMs minLatency maxCount now
    (res.1 = true ↔ found = true ∨ w.1 ≠ []) ∧ res.2.1 = w.2 ∧ res.2.2.memory = h.memory ∧
      (∀ i, DiskReserved h res.2.2 i ↔ ∃ row ∈ w.1, row.recordId = i) ∧
      res.2.2.readFromMemory = (h.readFromMemory && decide (w.1 = [])) := by
  intro w res
  have hping : ∀ h : Handler SQLite, (h.pingClock now).memory = h.memory ∧
      (h.pingClock now).disk = h.disk ∧ (h.pingClock now).readFromMemory = h.readFromMemory := by
    intro h
    unfold pingClock
    split_ifs <;> exact ⟨rfl, rfl, rfl⟩
  rcases hd : h.disk with _ | s
  · have hw : w = ([], k) := by simp [w, diskWalk, hd]
    have hres : res = (found, k, h.pingClock now) :=
      readDisk_of_none hd found c k leaseTimeMs minLatency maxCount now
    rw [hw, hres]
    obtain ⟨hm, hd', hf⟩ := hping h
    refine ⟨by simp, rfl, hm, fun i => ?_, by simp [hf]⟩
    exact iff_of_false (not_diskReserved_self hd' i) (by simp)
  · obtain ⟨hopen, hf, hnul⟩ := hdisk s hd
    have hw : w = s.walk c k minLatency maxCount now := by simp [w, diskWalk, hd]
    obtain ⟨hfound, hcons, hlast⟩ := SQLite.getAndReserveRecords_consumer c k leaseTimeMs minLatency
      maxCount now hopen hf hnul hcount
    have hnew := SQLite.newlyReserved_getAndReserve c k leaseTimeMs minLatency maxCount now hopen hf
      hnul (by decide)
    obtain ⟨hanswer, hstate⟩ := readDisk_answer_of_some (D := sqliteStorage fresh) hd found c k
      leaseTimeMs minLatency maxCount now
    have hafter := readDisk_snd_of_some (D := sqliteStorage fresh) hd found c k leaseTimeMs
      minLatency maxCount now
    rw [← hw] at hfound hcons hlast hnew
    set s' := (s.getAndReserveRecords c k leaseTimeMs minLatency maxCount now).2.2 with hs'
    have hread : res.2.2 = (if s'.lastReadCount ≠ 0 then
        { h with
          disk := some s'
          lastReadCount := h.lastReadCount + s'.lastReadCount
          readFromMemory := false }
      else { h with disk := some s' }).pingClock now := hafter
    have hmem : res.2.2.memory = h.memory := by
      rw [hread, (hping _).1]
      split_ifs <;> rfl
    have hdisk' : res.2.2.disk = some s' := by
      rw [hread, (hping _).2.1]
      split_ifs <;> rfl
    refine ⟨?_, hstate.trans hcons, hmem, fun i => ?_, ?_⟩
    · rw [show res.1 = (found || (s.getAndReserveRecords c k leaseTimeMs minLatency maxCount now).1)
        from hanswer, Bool.or_eq_true, hfound]
    · exact (diskReserved_iff hd hdisk' i).trans (hnew i)
    · rw [hread, (hping _).2.2]
      by_cases hnone : w.1 = []
      · rw [if_neg fun hne => hlast.1 hne hnone]
        simp [hnone]
      · rw [if_pos (hlast.2 hnone)]
        simp [hnone]

/-- **What a retrieval packages and reserves**, for any consumer. The
database is walked when the RAM queue gave nothing, from the state the
queue's walk left the consumer in. -/
theorem getAndReserveRecords_reserved (fresh : SQLite) (hdisk : h.DiskReads)
    (c : κ → StorageRecord → Bool × κ) (k : κ) (minLatency : EventLatency) (maxCount now : ℕ)
    (hcount : maxCount ≤ uintMax) :
    let ram := h.ramWalk c k minLatency maxCount now
    let disk := h.diskWalk c ram.2 minLatency maxCount now
    let res := h.getAndReserveRecords (sqliteStorage fresh) c k leaseTimeMs minLatency maxCount now
    (∀ i, RamReserved h res.2.2 i ↔ ∃ r ∈ ram.1, r.id = i) ∧
      (ram.1 ≠ [] → res.2.1 = ram.2 ∧ (∀ i, ¬ DiskReserved h res.2.2 i) ∧
        res.2.2.readFromMemory = true) ∧
      (ram.1 = [] → res.2.1 = disk.2 ∧
        (∀ i, DiskReserved h res.2.2 i ↔ ∃ row ∈ disk.1, row.recordId = i) ∧
        (disk.1 ≠ [] → res.2.2.readFromMemory = false)) ∧
      (res.1 = true ↔ h.memory ≠ none ∨ disk.1 ≠ []) := by
  intro ram disk res
  rcases hm : h.memory with _ | m
  · -- no RAM queue
    have hram : ram = ([], k) := by simp [ram, ramWalk, hm]
    have hres : res = { h with lastReadCount := 0, readFromMemory := false }.readDisk
        (sqliteStorage fresh) false c k leaseTimeMs minLatency maxCount now :=
      getAndReserveRecords_of_none hm c k leaseTimeMs minLatency maxCount now
    obtain ⟨hfound, hcons, hmem, hnew, hfrom⟩ := readDisk_spec fresh
      (h := { h with lastReadCount := 0, readFromMemory := false }) hdisk false c k minLatency
      maxCount now hcount
    have hdiskWalk : disk = h.diskWalk c k minLatency maxCount now := by simp only [disk, hram]
    rw [hram, hres]
    refine ⟨fun i => ?_, fun hne => absurd rfl hne, fun _ => ⟨?_, ?_, ?_⟩, ?_⟩
    · exact iff_of_false (not_ramReserved_self hmem i) (by simp)
    · exact hdiskWalk ▸ hcons
    · exact hdiskWalk ▸ hnew
    · exact fun _ => hfrom
    · rw [hdiskWalk]
      exact hfound.trans (or_congr (by simp) Iff.rfl)
  · have hram : ram = m.walk c k leaseTimeMs minLatency maxCount now := by simp [ram, ramWalk, hm]
    obtain ⟨hcons, hlast⟩ := MemoryStorage.getAndReserveRecords_consumer (m := m) c k minLatency
      maxCount now hcount
    have hnewRam := MemoryStorage.newlyReserved_getAndReserve (m := m) c k minLatency maxCount now
      (by decide : leaseTimeMs ≠ 0)
    rw [← hram] at hcons hlast hnewRam
    have hgiven := getAndReserveRecords_of_given (D := sqliteStorage fresh) hm c k leaseTimeMs
      minLatency maxCount now
    have hnotGiven := getAndReserveRecords_of_not_given (D := sqliteStorage fresh) hm c k
      leaseTimeMs minLatency maxCount now
    rw [hcons] at hgiven hnotGiven
    set m' := (m.getAndReserveRecords c k leaseTimeMs minLatency maxCount now).2.2
    have hreserved : ∀ h' : Handler SQLite, h'.memory = some m' →
        ∀ i, RamReserved h h' i ↔ ∃ r ∈ ram.1, r.id = i := by
      intro h' hmem i
      exact (ramReserved_iff hm hmem i).trans (hnewRam i)
    by_cases hnone : ram.1 = []
    · -- the queue gave nothing, and the database is read
      have hres : res = (h.queueRead m').readDisk (sqliteStorage fresh) true c ram.2 leaseTimeMs
          minLatency maxCount now := hnotGiven (by rw [hlast, hnone]; rfl)
      obtain ⟨hfound, hcons', hmem, hnew, hfrom⟩ := readDisk_spec fresh (h := h.queueRead m') hdisk
        true c ram.2 minLatency maxCount now hcount
      rw [hres]
      refine ⟨hreserved _ hmem, fun hne => absurd hnone hne,
        fun _ => ⟨hcons', hnew, fun hne => ?_⟩, ?_⟩
      · rw [hfrom]
        exact Bool.and_eq_false_iff.2 (Or.inr (decide_eq_false hne))
      · exact hfound.trans (or_congr (by simp) Iff.rfl)
    · -- the queue gave records, and the database is left alone
      have hres : res = (true, ram.2, h.queueRead m') :=
        hgiven (by rw [hlast]; exact fun hlen => hnone (length_eq_zero_iff.1 hlen))
      rw [hres]
      exact ⟨hreserved _ rfl, fun _ => ⟨rfl, fun i => not_diskReserved_self rfl i, rfl⟩,
        fun hnil => absurd hnil hnone, by simp⟩

/-! ## The packager as the consumer -/

/-- What a retrieval offers from the RAM queue. -/
def ramOffered (h : Handler SQLite) (minLatency : EventLatency) (maxCount : ℕ) :
    List StorageRecord :=
  match h.memory with
  | none => []
  | some m => m.offered minLatency maxCount

/-- What a retrieval offers from the database, if it comes to that. -/
def diskOffered (h : Handler SQLite) (minLatency : EventLatency) (maxCount now : ℕ) :
    List EventRow :=
  match h.disk with
  | none => []
  | some s => s.selected minLatency maxCount now

/-- **The record a retrieval offers first.** -/
def firstOffered (h : Handler SQLite) (minLatency : EventLatency) (maxCount now : ℕ) :
    Option StorageRecord :=
  match h.ramOffered minLatency maxCount with
  | r :: _ => some r
  | [] => (h.diskOffered minLatency maxCount now).head?.map EventRow.toRecord

theorem ramWalk_eq_offer (p : Packager) (ctx : EventsUploadContext) (minLatency : EventLatency)
    (maxCount now : ℕ) : h.ramWalk p.handleAddEventToPackage ctx minLatency maxCount now =
      offer (p.packaging (MemoryStorage.forConsumer leaseTimeMs now)) ctx
        (h.ramOffered minLatency maxCount) := by
  unfold ramWalk ramOffered
  cases h.memory <;> rfl

theorem diskWalk_eq_offer (p : Packager) (ctx : EventsUploadContext) (minLatency : EventLatency)
    (maxCount now : ℕ) : h.diskWalk p.handleAddEventToPackage ctx minLatency maxCount now =
      offer (p.packaging EventRow.toRecord) ctx (h.diskOffered minLatency maxCount now) := by
  unfold diskWalk diskOffered
  cases h.disk <;> rfl

/-- **Packaged equals reserved**, between the handlers before and after a
retrieval, and in the store the context names. -/
structure PackagedIsReserved (h h' : Handler SQLite) (ctx : EventsUploadContext) : Prop where
  ids : ∀ i, i ∈ ctx.recordIds ↔ RamReserved h h' i ∨ DiskReserved h h' i
  store : ∀ i ∈ ctx.recordIds, if ctx.fromMemory then RamReserved h h' i else DiskReserved h h' i

end Handler

/-- A record fits in a package of its own. -/
def Packager.FitsAlone (p : Packager) (record : StorageRecord) : Prop :=
  8 + record.blob.length ≤ p.maximumUploadSizeBytes

instance (p : Packager) (record : StorageRecord) : Decidable (p.FitsAlone record) :=
  inferInstanceAs (Decidable (_ ≤ _))

namespace Handler

variable (fresh : SQLite)

theorem recordIds_retrieved (p : Packager) :
    (handleRetrieveEvents (sqliteStorage fresh) p h (requested minLatency maxCount)
        now).2.1.recordIds = (h.getAndReserveRecords (sqliteStorage fresh) p.handleAddEventToPackage
        (requested minLatency maxCount) leaseTimeMs minLatency maxCount now).2.1.recordIds := rfl

/-- What a retrieval reserves and packages when the queue offers a first
record: the record itself decides. -/
theorem packagedIsReserved_iff_of_queue (p : Packager) (hdisk : h.DiskReads)
    (hcount : maxCount ≤ uintMax) {r : StorageRecord} {rest : List StorageRecord}
    (hoffered : h.ramOffered minLatency maxCount = r :: rest) :
    let res := handleRetrieveEvents (sqliteStorage fresh) p h (requested minLatency maxCount) now
    h.PackagedIsReserved res.2.2 res.2.1 ↔ p.FitsAlone r := by
  intro res
  have hempty : (requested minLatency maxCount).recordIds = [] := rfl
  obtain ⟨hram, hqueue, hdb, -⟩ := getAndReserveRecords_reserved fresh hdisk
    p.handleAddEventToPackage (requested minLatency maxCount) minLatency maxCount now hcount
  rw [ramWalk_eq_offer, hoffered] at hram hqueue hdb
  rw [diskWalk_eq_offer] at hdb
  have hshown : ∀ r, (MemoryStorage.forConsumer leaseTimeMs now r).id = r.id := fun _ => rfl
  by_cases hfits : p.FitsAlone r
  · refine iff_of_true ?_ hfits
    obtain ⟨hne, hpackaged⟩ := Packager.offer_first_fits (p := p)
      (f := MemoryStorage.forConsumer leaseTimeMs now) (a := r) rest hempty hfits
    obtain ⟨hctx, hnotDisk, hflag⟩ := hqueue hne
    have hpack : ∀ i, i ∈ res.2.1.recordIds ↔ RamReserved h res.2.2 i := by
      intro i
      refine Iff.trans ?_ (hram i).symm
      rw [recordIds_retrieved, hctx, hpackaged i]
      simp only [hshown]
    have hfrom : res.2.1.fromMemory = true := hflag
    refine ⟨fun i => ?_, fun i hi => ?_⟩
    · rw [hpack i]
      exact ⟨Or.inl, fun hor => hor.resolve_right (hnotDisk i)⟩
    · rw [hfrom]
      exact (hpack i).1 hi
  · -- it is packaged, the queue keeps it, and the database gives nothing more
    refine iff_of_false ?_ hfits
    obtain ⟨hnil, hpackaged, hfull⟩ := Packager.offer_first_oversize (p := p)
      (f := MemoryStorage.forConsumer leaseTimeMs now) (a := r) rest hempty hfits
    have hmem := (hpackaged r.id).2 (hshown r).symm
    obtain ⟨hctx, hnew, -⟩ := hdb hnil
    obtain ⟨hnone, hsame⟩ := Packager.offer_full (f := EventRow.toRecord)
      (h.diskOffered minLatency maxCount now) (ne_nil_of_mem hmem) hfull
    have hpack : r.id ∈ res.2.1.recordIds := by
      rw [recordIds_retrieved, hctx, hsame]
      exact hmem
    have hnotRam : ¬ RamReserved h res.2.2 r.id := fun hr => by simpa [hnil] using (hram r.id).1 hr
    have hnotDisk : ¬ DiskReserved h res.2.2 r.id := fun hd => by simpa [hnone] using (hnew r.id).1 hd
    exact fun hboth => ((hboth.ids r.id).1 hpack).elim hnotRam hnotDisk

/-- The same when the queue offers nothing and the database is read. -/
theorem packagedIsReserved_iff_of_database (p : Packager) (hdisk : h.DiskReads)
    (hcount : maxCount ≤ uintMax) (hoffered : h.ramOffered minLatency maxCount = []) :
    let res := handleRetrieveEvents (sqliteStorage fresh) p h (requested minLatency maxCount) now
    h.PackagedIsReserved res.2.2 res.2.1 ↔
      ∀ row ∈ (h.diskOffered minLatency maxCount now).head?, p.FitsAlone row.toRecord := by
  intro res
  have hempty : (requested minLatency maxCount).recordIds = [] := rfl
  obtain ⟨hram, -, hdb, -⟩ := getAndReserveRecords_reserved fresh hdisk
    p.handleAddEventToPackage (requested minLatency maxCount) minLatency maxCount now hcount
  rw [ramWalk_eq_offer, hoffered, offer_nil] at hram hdb
  rw [diskWalk_eq_offer] at hdb
  obtain ⟨hctx, hnew, hflag⟩ := hdb rfl
  have hids : res.2.1.recordIds = _ := recordIds_retrieved fresh p
  rw [hctx] at hids
  have hnotRam : ∀ i, ¬ RamReserved h res.2.2 i := fun i hr => by simpa using (hram i).1 hr
  cases hrows : h.diskOffered minLatency maxCount now with
  | nil =>
    rw [hrows] at hids hnew
    have hnotDisk : ∀ i, ¬ DiskReserved h res.2.2 i := fun i hd => by simpa using (hnew i).1 hd
    have hnone : res.2.1.recordIds = [] := hids
    refine iff_of_true ⟨fun i => ?_, fun i hi => ?_⟩ (by simp)
    · simp [hnone, hnotRam, hnotDisk]
    · simp [hnone] at hi
  | cons row rows =>
    rw [hrows] at hids hnew hflag
    by_cases hfits : p.FitsAlone row.toRecord
    · refine iff_of_true ?_ (by rintro _ ⟨⟩; exact hfits)
      obtain ⟨hne, hpackaged⟩ := Packager.offer_first_fits (p := p)
        (f := EventRow.toRecord) (a := row) rows hempty hfits
      have hpack : ∀ i, i ∈ res.2.1.recordIds ↔ DiskReserved h res.2.2 i := by
        intro i
        rw [hids]
        exact (hpackaged i).trans (hnew i).symm
      have hfrom : res.2.1.fromMemory = false := hflag hne
      refine ⟨fun i => ?_, fun i hi => ?_⟩
      · rw [hpack i]
        exact ⟨Or.inr, fun hor => hor.resolve_left (hnotRam i)⟩
      · rw [hfrom]
        exact (hpack i).1 hi
    · refine iff_of_false ?_ (fun hall => hfits (hall row rfl))
      obtain ⟨hnil, hpackaged, -⟩ := Packager.offer_first_oversize (p := p)
        (f := EventRow.toRecord) (a := row) rows hempty hfits
      have hpack : row.toRecord.id ∈ res.2.1.recordIds := by
        rw [hids]
        exact (hpackaged _).2 rfl
      have hnotDisk : ¬ DiskReserved h res.2.2 row.recordId :=
        fun hd => by simpa [hnil] using (hnew _).1 hd
      exact fun hboth => ((hboth.ids _).1 hpack).elim (hnotRam _) hnotDisk

end Handler

/-- **What is packaged is what is reserved, exactly when the first record
offered fits in a package of its own.** -/
theorem packaged_reserved_iff (fresh : SQLite) (p : Packager) (h : Handler SQLite)
    (hdisk : h.DiskReads) (minLatency : EventLatency) (maxCount : ℕ) (hcount : maxCount ≤ uintMax)
    (now : ℕ) :
    let res := handleRetrieveEvents (sqliteStorage fresh) p h (requested minLatency maxCount) now
    h.PackagedIsReserved res.2.2 res.2.1 ↔
      ∀ r, h.firstOffered minLatency maxCount now = some r → p.FitsAlone r := by
  intro res
  unfold Handler.firstOffered
  cases hoffered : h.ramOffered minLatency maxCount with
  | cons r rest =>
    exact (Handler.packagedIsReserved_iff_of_queue fresh p hdisk hcount hoffered).trans (by simp)
  | nil =>
    exact (Handler.packagedIsReserved_iff_of_database fresh p hdisk hcount hoffered).trans (by simp)

/-- A handler with a RAM queue of its own and the rows given. -/
def retrievingHandler (queued : List StorageRecord) (rows : List EventRow) : Handler SQLite :=
  { Handler.new (δ := SQLite) 4096 false none with
    memory := some (queued.foldl (fun m r => (m.storeRecord r).2) MemoryStorage.empty)
    disk := some (SQLite.openOn SQLite.Engine.sound rows) }

theorem diskReads_retrievingHandler {queued : List StorageRecord} {rows : List EventRow}
    (hnul : ∀ row ∈ rows, NulFree row.recordId) : (retrievingHandler queued rows).DiskReads := by
  rintro _ ⟨⟩
  exact ⟨⟨rfl, rfl, rfl⟩, SQLite.Engine.sound_faithful, hnul⟩

theorem packaged_reserved_iff_fitting :
    let h := retrievingHandler [] [⟨"a", "t", 1, 1, 0, 0, 0, [1, 2]⟩]
    let res := handleRetrieveEvents (sqliteStorage (SQLite.openOn SQLite.Engine.sound []))
      ⟨"", 10⟩ h (requested .normal 0) 7
    h.PackagedIsReserved res.2.2 res.2.1 := by
  refine (packaged_reserved_iff (SQLite.openOn SQLite.Engine.sound []) ⟨"", 10⟩
    (retrievingHandler [] [⟨"a", "t", 1, 1, 0, 0, 0, [1, 2]⟩])
    (diskReads_retrievingHandler (by decide)) .normal 0 (by decide) 7).2 ?_
  rintro _ ⟨⟩
  decide

/-- **A record packaged and not reserved.** Three bytes are over a limit
of ten by themselves: the record is packaged, from the queue or from the
database, and neither store has it reserved. -/
theorem oversize_packaged_unreserved :
    let D := sqliteStorage (SQLite.openOn SQLite.Engine.sound [])
    let queue := retrievingHandler [⟨"a", "t", .normal, .normal, 0, [1, 2, 3], 0, 0⟩] []
    let queued := handleRetrieveEvents D ⟨"", 10⟩ queue (requested .normal 0) 7
    let database := retrievingHandler [] [⟨"a", "t", 1, 1, 0, 0, 0, [1, 2, 3]⟩]
    let stored := handleRetrieveEvents D ⟨"", 10⟩ database (requested .normal 0) 7
    (¬ queue.PackagedIsReserved queued.2.2 queued.2.1 ∧ queued.2.1.recordIds = ["a"] ∧
        queued.2.2.memory.map (·.reservedRecords.entries) = some [] ∧ queued.2.2.diskRows = []) ∧
      ¬ database.PackagedIsReserved stored.2.2 stored.2.1 ∧ stored.2.1.recordIds = ["a"] ∧
        stored.2.2.memory.map (·.reservedRecords.entries) = some [] ∧
        stored.2.2.diskRows.map (·.reservedUntil) = [0] := by
  refine ⟨⟨fun hq => ?_, rfl, rfl, rfl⟩, fun hd => ?_, rfl, rfl, rfl⟩
  · have hfits := (Handler.packagedIsReserved_iff_of_queue _ _
      (diskReads_retrievingHandler (by decide)) (by decide) rfl).1 hq
    exact absurd hfits (by decide)
  · have hfits := (Handler.packagedIsReserved_iff_of_database _ _
      (diskReads_retrievingHandler (by decide)) (by decide) rfl).1 hd _ rfl
    exact absurd hfits (by decide)

end ClientTelemetry
