import ClientTelemetry.Offline.Faithful
import ClientTelemetry.Offline.Helpers.RoomStore
import ClientTelemetry.Offline.Retry
import ClientTelemetry.Offline.Room
/-!
# The two persistent stores under one client

A client stores records, reads with a consumer that accepts everything,
releases and deletes. It knows a record by the number of its store, and
the session translates that number to the id the store at hand keeps the
record under; so one list of calls drives `OfflineStorage_SQLite` and
`OfflineStorage_Room` alike, and what is handed out can be compared
whatever the ids are.

The stores are not interchangeable. A read of the one takes a reservation
back at its last millisecond and counts a retry, a read of the other takes
it back a millisecond later and counts none; a release that counts a retry
passes over rows without a reservation in the one and not in the other.
They also keep different columns of a record. Where a client keeps clear
of these (`Alike`), a row of the one stands for a row of the other
(`Matches`), call by call, and the two hand out the same records and
report the same drops (`stores_interchangeable`).
-/

namespace ClientTelemetry

open Sql SQLite RoomStore List

/-! ## One client, two stores -/

/-- **The calls of a persistent store.** -/
structure StoreCalls (σ : Type) where
  /-- A store, with the id the record is kept under. -/
  storeRecord : σ → StorageRecord → ℕ → StorageRecordId × σ
  /-- A read with a consumer that accepts everything, with what it was
  handed. -/
  getAndReserveRecords : σ → ℕ → EventLatency → ℕ → ℕ → List StorageRecord × σ
  releaseRecords : σ → List StorageRecordId → Bool → σ
  deleteRecords : σ → List StorageRecordId → σ
  /-- The drops the observer was told of. -/
  reports : σ → List (OrdMap String ℕ)

/-- The calls of `OfflineStorage_SQLite`, which keeps a record under its
own id. -/
def SQLite.calls : StoreCalls SQLite where
  storeRecord s r now := (r.id, (s.storeRecord r now).2)
  getAndReserveRecords s leaseTimeMs minLatency maxCount now :=
    (s.getAndReserveRecords MemoryStorage.collect [] leaseTimeMs minLatency maxCount now).2
  releaseRecords := SQLite.releaseRecords
  deleteRecords := SQLite.deleteRecords
  reports := SQLite.reports

/-- The calls of `OfflineStorage_Room`, which numbers the records. -/
def RoomStore.calls : StoreCalls RoomStore where
  storeRecord s r _ := (toString s.nextId, s.storeRecord r)
  getAndReserveRecords s leaseTimeMs minLatency maxCount now :=
    (s.getAndReserveRecords MemoryStorage.collect [] leaseTimeMs minLatency maxCount now).2
  releaseRecords := RoomStore.releaseRecords
  deleteRecords := RoomStore.deleteRecords
  reports := RoomStore.reports

/-- The calls of a client. A record is named by the number of its store,
from zero. -/
inductive StoreCall where
  | storeRecord (record : StorageRecord)
  | getAndReserveRecords (leaseTimeMs : ℕ) (minLatency : EventLatency) (maxCount : ℕ)
  | releaseRecords (names : List ℕ) (incrementRetryCount : Bool)
  | deleteRecords (names : List ℕ)

/-- **A client at work on a store.** -/
structure Session (σ : Type) where
  store : σ
  /-- The ids the records are kept under, in the order of their stores. -/
  ids : List StorageRecordId
  /-- What each read handed out: the names of the records, and the records
  without their ids. -/
  handed : List (List (ℕ × StorageRecord))

namespace Session

variable {σ : Type}

/-- Nothing stored and nothing read. -/
def new (store : σ) : Session σ := ⟨store, [], []⟩

/-- The ids of the records named. -/
def named (ids : List StorageRecordId) (names : List ℕ) : List StorageRecordId :=
  names.filterMap fun k => ids[k]?

/-- A record as the client knows it. -/
def anonymous (ids : List StorageRecordId) (r : StorageRecord) : ℕ × StorageRecord :=
  (ids.idxOf r.id, { r with id := "" })

/-- One call, at its time. -/
def step (c : StoreCalls σ) (s : Session σ) (a : ℕ × StoreCall) : Session σ :=
  match a.2 with
  | .storeRecord r =>
    let res := c.storeRecord s.store r a.1
    { s with store := res.2, ids := s.ids ++ [res.1] }
  | .getAndReserveRecords leaseTimeMs minLatency maxCount =>
    let res := c.getAndReserveRecords s.store leaseTimeMs minLatency maxCount a.1
    { s with store := res.2, handed := s.handed ++ [res.1.map (anonymous s.ids)] }
  | .releaseRecords names inc =>
    { s with store := c.releaseRecords s.store (named s.ids names) inc }
  | .deleteRecords names => { s with store := c.deleteRecords s.store (named s.ids names) }

end Session

open Session

/-- **A call the two stores treat alike**, by the state of the database.

* A stored record is valid, new, and has the columns both keep: the
  default persistence, no retries and no reservation.
* A read has a lease, and meets no reservation that has run out; if it
  asks for no bound, there are no more rows than the largest `LIMIT`.
* A release that counts a retry names each record once, and all the rows
  it names are reserved. -/
def Alike (s : Session SQLite) (a : ℕ × StoreCall) : Prop :=
  match a.2 with
  | .storeRecord r => ¬ InvalidParameters r ∧ NulFree r.id ∧ r.id ∉ s.ids ∧
      r.persistence = .normal ∧ r.retryCount = 0 ∧ r.reservedUntil = 0 ∧ s.ids.length + 1 < 2 ^ 63
  | .getAndReserveRecords leaseTimeMs _ maxCount => leaseTimeMs ≠ 0 ∧
      (∀ row ∈ s.store.rows, row.reservedUntil ≠ 0 → (a.1 : ℤ) < row.reservedUntil) ∧
      (maxCount = 0 → s.store.rows.length ≤ uintMax)
  | .releaseRecords names inc => inc = true → names.Nodup ∧
      ∀ row ∈ s.store.rows, row.recordId ∈ named s.ids names → row.reservedUntil ≠ 0
  | .deleteRecords _ => True

instance : ∀ (s : Session SQLite) (a : ℕ × StoreCall), Decidable (Alike s a)
  | _, (_, .storeRecord _) => inferInstanceAs (Decidable (_ ∧ _))
  | _, (_, .getAndReserveRecords _ _ _) => inferInstanceAs (Decidable (_ ∧ _))
  | _, (_, .releaseRecords _ _) => inferInstanceAs (Decidable (_ → _))
  | _, (_, .deleteRecords _) => .isTrue trivial

/-! ## Names -/

/-- The ids the records of the Android store are kept under. -/
def roomNames (n : ℕ) : List StorageRecordId :=
  (List.range n).map fun (k : ℕ) => toString ((k : ℤ) + 1)

/-- A number given to a record. -/
def Given (n : ℕ) (i : ℤ) : Prop := 1 ≤ i ∧ i ≤ n

/-- The id the database keeps the record of a number under. -/
def idOf (ids : List StorageRecordId) (i : ℤ) : StorageRecordId := ids.getD (i.toNat - 1) ""

section Names

variable {ids : List StorageRecordId} {i j : ℤ} {n : ℕ} {names : List ℕ}

theorem Given.lt (h : Given n i) : i.toNat - 1 < n := by
  obtain ⟨hpos, hle⟩ := h
  omega

theorem idOf_eq (hlt : i.toNat - 1 < ids.length) : idOf ids i = ids[i.toNat - 1] := by
  rw [idOf, getD_eq_getElem _ _ hlt]

theorem idOf_mem (h : Given ids.length i) : idOf ids i ∈ ids := by
  rw [idOf_eq h.lt]
  exact getElem_mem _

theorem idOf_inj (hnodup : ids.Nodup) (hi : Given ids.length i) (hj : Given ids.length j) :
    idOf ids i = idOf ids j ↔ i = j := by
  rw [idOf_eq hi.lt, idOf_eq hj.lt, hnodup.getElem_inj_iff]
  obtain ⟨hi₁, -⟩ := hi
  obtain ⟨hj₁, -⟩ := hj
  omega

/-- A later store takes no id away. -/
theorem idOf_append (h : Given ids.length i) (id : StorageRecordId) :
    idOf (ids ++ [id]) i = idOf ids i := by
  unfold idOf
  rw [getD_append _ _ _ _ h.lt]

theorem idxOf_idOf (hnodup : ids.Nodup) (h : Given ids.length i) :
    ids.idxOf (idOf ids i) = i.toNat - 1 := by
  rw [idOf_eq h.lt]
  exact hnodup.idxOf_getElem _ h.lt

theorem idOf_mem_named (hnodup : ids.Nodup) (h : Given ids.length i) :
    idOf ids i ∈ named ids names ↔ i.toNat - 1 ∈ names := by
  unfold named
  rw [mem_filterMap]
  constructor
  · rintro ⟨k, hk, hget⟩
    obtain ⟨hlt, heq⟩ := List.getElem?_eq_some_iff.1 hget
    rw [idOf_eq h.lt, hnodup.getElem_inj_iff] at heq
    exact heq ▸ hk
  · intro hk
    exact ⟨_, hk, by rw [getElem?_eq_getElem h.lt, idOf_eq h.lt]⟩

theorem length_roomNames : (roomNames n).length = n := by simp [roomNames]

theorem getElem?_roomNames (k : ℕ) :
    (roomNames n)[k]? = if k < n then some (toString ((k : ℤ) + 1)) else none := by
  unfold roomNames
  rw [getElem?_map]
  split_ifs with hlt
  · rw [getElem?_range hlt, Option.map_some]
  · rw [getElem?_eq_none (by simpa using hlt), Option.map_none]

variable (hn : n < 2 ^ 63)
include hn

theorem stoll_number {k : ℕ} (hlt : k < n) :
    stoll (toString ((k : ℤ) + 1)) = .ok ((k : ℤ) + 1) :=
  stoll_toString (n := k + 1) (by omega)

/-- The ids of the records named, parsed back. -/
theorem roomIds_named : roomIds (named (roomNames n) names) =
      (names.filter fun k => k < n).map fun (k : ℕ) => (k : ℤ) + 1 := by
  unfold roomIds named
  rw [filterMap_filterMap]
  induction names with
  | nil => rfl
  | cons k names ih =>
    rw [filterMap_cons, ih, filter_cons, getElem?_roomNames]
    by_cases hlt : k < n
    · have hpos : (0 : ℤ) < (k : ℤ) + 1 := by omega
      simp only [if_pos hlt, Option.bind_some, stoll_number hn hlt, if_pos hpos, decide_eq_true hlt,
        map_cons, if_true]
    · simp [hlt]

theorem mem_roomIds_named (h : Given n i) :
    i ∈ roomIds (named (roomNames n) names) ↔ i.toNat - 1 ∈ names := by
  obtain ⟨hpos, hle⟩ := h
  rw [roomIds_named hn, mem_map]
  constructor
  · rintro ⟨k, hk, rfl⟩
    have hname : ((k : ℤ) + 1).toNat - 1 = k := by omega
    rw [hname]
    exact mem_of_mem_filter hk
  · intro hmem
    refine ⟨i.toNat - 1, List.mem_filter.2 ⟨hmem, decide_eq_true ?_⟩, ?_⟩
    · omega
    · omega

theorem nodup_roomIds_named (hnames : names.Nodup) :
    (roomIds (named (roomNames n) names)).Nodup := by
  rw [roomIds_named hn]
  refine (hnames.filter _).map fun a b hab => ?_
  omega

theorem idxOf_roomNames (h : Given n i) :
    (roomNames n).idxOf (toString i) = i.toNat - 1 := by
  have hnodup : (roomNames n).Nodup := by
    refine List.Nodup.map_on (fun a ha b hb hab => ?_) nodup_range
    have hstoll := congrArg stoll hab
    rw [stoll_number hn (mem_range.1 ha), stoll_number hn (mem_range.1 hb)] at hstoll
    have := Except.ok.inj hstoll
    omega
  have hlt : i.toNat - 1 < (roomNames n).length := by
    rw [length_roomNames]
    exact h.lt
  have hget : (roomNames n)[i.toNat - 1] = toString i := by
    have hsome := getElem?_roomNames (n := n) (i.toNat - 1)
    rw [if_pos h.lt, getElem?_eq_getElem hlt] at hsome
    have hnumber : ((i.toNat - 1 : ℕ) : ℤ) + 1 = i := by
      obtain ⟨hpos, -⟩ := h
      omega
    rw [Option.some.inj hsome, hnumber]
  rw [← hget]
  exact hnodup.idxOf_getElem _ hlt

end Names

/-! ## One row for another -/

/-- **The row of the database a row of the Android table stands for.** -/
def diskRow (ids : List StorageRecordId) (row : RoomRecord) : EventRow where
  recordId := idOf ids row.id
  tenantToken := row.tenantToken
  latency := row.latency
  persistence := row.persistence
  timestamp := row.timestamp
  retryCount := row.retryCount
  reservedUntil := row.reservedUntil
  payload := row.blob

/-- A row that both stores turn into the same record. -/
structure ShownAlike (n : ℕ) (row : RoomRecord) : Prop where
  given : Given n row.id
  latency : 0 ≤ row.latency ∧ row.latency ≤ 4
  persistence : row.persistence = 1
  reservation : 0 ≤ row.reservedUntil

/-- **The two sessions stand for each other.** -/
structure Matches (d : Session SQLite) (r : Session RoomStore) : Prop where
  plain : d.store.Plain
  within : d.store.WithinLimit
  maxRetryCount : r.store.maxRetryCount = d.store.maxRetryCount
  few : d.ids.length < 2 ^ 63
  distinct : d.ids.Nodup
  nulFree : ∀ id ∈ d.ids, NulFree id
  numbered : r.ids = roomNames d.ids.length
  sequence : r.store.sequence = d.ids.length
  shown : ∀ row ∈ r.store.room.table.rows, ShownAlike d.ids.length row
  rows : d.store.rows = r.store.room.table.rows.map (diskRow d.ids)
  handed : d.handed = r.handed
  reports : d.store.reports = r.store.reports

section Simulation

variable {ids : List StorageRecordId} {row : RoomRecord} {d : Session SQLite}
  {r : Session RoomStore} {names : List ℕ} {now maxCount leaseTimeMs : ℕ} {s : SQLite}

theorem clampedLatency_eq {latency : ℤ} (h : 0 ≤ latency ∧ latency ≤ 4) :
    clampedLatency latency = latencyOfColumn latency := by
  obtain ⟨hpos, hle⟩ := h
  interval_cases latency <;> rfl

theorem anonymous_diskRow (hnodup : ids.Nodup) (hfew : ids.length < 2 ^ 63)
    (h : ShownAlike ids.length row) :
    anonymous ids (diskRow ids row).toRecord = anonymous (roomNames ids.length) row.toRecord := by
  have hname : ids.idxOf (idOf ids row.id) = (roomNames ids.length).idxOf (toString row.id) := by
    rw [idxOf_idOf hnodup h.given, idxOf_roomNames hfew h.given]
  have hpersistence : persistenceOfColumn row.persistence = .normal := by
    rw [h.persistence]
    rfl
  unfold anonymous
  simp [EventRow.toRecord, RoomRecord.toRecord, diskRow, hname, hpersistence,
    clampedLatency_eq h.latency]

/-- The ids the database is called with hold no NUL. -/
theorem Matches.nulFree_named (h : Matches d r) (names : List ℕ) :
    ∀ id ∈ named d.ids names, NulFree id := by
  intro id hid
  obtain ⟨k, -, hget⟩ := mem_filterMap.1 hid
  exact h.nulFree id (mem_of_getElem? hget)

/-- **The two lists of ids name the same rows.** -/
theorem Matches.named_iff (h : Matches d r) (hrow : row ∈ r.store.room.table.rows)
    (names : List ℕ) :
    (diskRow d.ids row).recordId ∈ named d.ids names ↔ row.id ∈ roomIds (named r.ids names) := by
  have hgiven := (h.shown row hrow).given
  rw [h.numbered, mem_roomIds_named h.few hgiven]
  exact idOf_mem_named h.distinct hgiven

theorem ShownAlike.reserve {n : ℕ} (h : ShownAlike n row) {retryCount reservedUntil : ℤ}
    (hres : 0 ≤ reservedUntil) :
    ShownAlike n { row with retryCount := retryCount, reservedUntil := reservedUntil } :=
  { h with reservation := hres }

section

variable (h : Matches d r)
include h

theorem Matches.shows (hrow : row ∈ r.store.room.table.rows) :
    ShownAlike d.ids.length row ∧ row.retryCount ≤ (d.store.maxRetryCount : ℤ) :=
  ⟨h.shown row hrow, h.within (diskRow d.ids row) (h.rows ▸ mem_map_of_mem hrow)⟩

/-- A call that stores nothing. -/
theorem Matches.of_rows {d' : SQLite} {r' : RoomStore}
    (hd : SameStore d.store d') (hr : SameSetup r.store r') (hrow : ∀ row ∈ r'.room.table.rows,
      ShownAlike d.ids.length row ∧ row.retryCount ≤ (d.store.maxRetryCount : ℤ))
    (hrows : d'.rows = r'.room.table.rows.map (diskRow d.ids)) (hreports : d'.reports = r'.reports)
    {handed handed' : List (List (ℕ × StorageRecord))} (hhanded : handed = handed') :
    Matches ⟨d', d.ids, handed⟩ ⟨r', r.ids, handed'⟩ := by
  refine { h with
    plain := h.plain.of_sameStore hd
    within := ?_
    maxRetryCount := by rw [hr.maxRetryCount, h.maxRetryCount, hd.maxRetryCount]
    sequence := hr.sequence.trans h.sequence
    shown := fun row hmem => (hrow row hmem).1
    rows := hrows
    handed := hhanded
    reports := hreports }
  intro row hmem
  obtain ⟨row₀, hrow₀, rfl⟩ := mem_map.1 (hrows ▸ hmem)
  show row₀.retryCount ≤ (d'.maxRetryCount : ℤ)
  rw [hd.maxRetryCount]
  exact (hrow row₀ hrow₀).2

/-! ## Storing -/

theorem Matches.nextId : r.store.nextId = d.ids.length + 1 := by
  have hle : r.store.room.table.largestId ≤ d.ids.length :=
    RoomTable.largestId_le (by omega) fun row hrow => (h.shown row hrow).given.2
  rw [RoomStore.nextId, h.sequence, max_eq_left hle]

theorem Matches.storeRecord {record : StorageRecord}
    (halike : Alike d (now, .storeRecord record)) :
    Matches (d.step SQLite.calls (now, .storeRecord record))
      (r.step RoomStore.calls (now, .storeRecord record)) := by
  obtain ⟨hvalid, hnul, hnew, hpersistence, hretry, hreserved, hfew⟩ := halike
  obtain ⟨hsame, hdrops⟩ := storeRecord_frame d.store record now
  have hdisk := h.plain.rows_storeRecord hvalid now
  have hlength : (d.ids ++ [record.id]).length = d.ids.length + 1 := by simp
  -- the number given is the number of the store
  have hrow : diskRow (d.ids ++ [record.id]) (RoomStore.rowOf (d.ids.length + 1) record) =
      EventRow.ofRecord record := by
    have hid : idOf (d.ids ++ [record.id]) (d.ids.length + 1) = record.id := by
      have hindex : ((d.ids.length : ℤ) + 1).toNat - 1 = d.ids.length := by omega
      rw [idOf, hindex]
      simp
    simp [diskRow, RoomStore.rowOf, EventRow.ofRecord, hid, hretry, hreserved]
  have hrows : (r.store.storeRecord record).room.table.rows =
      r.store.room.table.rows ++ [RoomStore.rowOf (d.ids.length + 1) record] := by
    rw [← h.nextId]
    rfl
  refine
    { plain := h.plain.of_sameStore hsame
      within := ?_
      maxRetryCount := h.maxRetryCount.trans hsame.maxRetryCount.symm
      few := hlength ▸ hfew
      distinct := ?_
      nulFree := ?_
      numbered := ?_
      sequence := ?_
      shown := ?_
      rows := ?_
      handed := h.handed
      reports := hdrops.trans h.reports }
  · intro row hmem
    refine hsame.maxRetryCount.symm ▸ ?_
    rcases mem_append.1 (hdisk ▸ hmem) with hold | hnewrow
    · exact h.within row hold
    · rw [mem_singleton.1 hnewrow]
      exact Int.natCast_nonneg _
  · refine nodup_append.2 ⟨h.distinct, nodup_singleton _, fun a ha b hb hab => hnew ?_⟩
    have hid : b = record.id := mem_singleton.1 hb
    rwa [← hid, ← hab]
  · intro id hid
    rcases mem_append.1 hid with hold | hone
    · exact h.nulFree id hold
    · rw [mem_singleton.1 hone]
      exact hnul
  · show r.ids ++ [toString r.store.nextId] = roomNames (d.ids ++ [record.id]).length
    rw [hlength, h.nextId, h.numbered, roomNames, roomNames, range_succ, map_append]
    rfl
  · show r.store.nextId = ((d.ids ++ [record.id]).length : ℤ)
    rw [h.nextId, hlength]
    push_cast
    rfl
  · intro row hmem
    show ShownAlike (d.ids ++ [record.id]).length row
    rw [hlength]
    rcases mem_append.1 (hrows ▸ hmem) with hold | hone
    · obtain ⟨⟨hpos, hle⟩, hlatency, hnormal, hres⟩ := h.shown row hold
      exact ⟨⟨hpos, by push_cast; omega⟩, hlatency, hnormal, hres⟩
    · rw [mem_singleton.1 hone]
      refine ⟨⟨?_, ?_⟩, ?_, ?_, ?_⟩
      · show 1 ≤ (d.ids.length : ℤ) + 1
        omega
      · exact le_of_eq (by push_cast; rfl)
      · have hlatency := latency_of_valid hvalid
        show 0 ≤ record.latency.toInt ∧ record.latency.toInt ≤ 4
        revert hlatency
        cases record.latency <;> decide
      · show record.persistence.toInt = 1
        rw [hpersistence]
        rfl
      · exact le_of_eq hreserved.symm
  · show (d.store.storeRecord record now).2.rows =
      (r.store.storeRecord record).room.table.rows.map (diskRow (d.ids ++ [record.id]))
    rw [hdisk, hrows, map_append, map_singleton, hrow, h.rows]
    refine congrArg (· ++ _) (map_congr_left fun row hmem => ?_)
    unfold diskRow
    rw [idOf_append (h.shown row hmem).given]

/-! ## Deleting -/

theorem Matches.deleteRecords (now : ℕ) (names : List ℕ) :
    Matches (d.step SQLite.calls (now, .deleteRecords names))
      (r.step RoomStore.calls (now, .deleteRecords names)) := by
  obtain ⟨hsetup, hreports, hrows⟩ := r.store.deleteRecords_frame (named r.ids names)
  have hdisk := h.plain.deleteRecords_named (h.nulFree_named names)
  have hsame := SQLite.deleteRecords_frame h.plain.toLive (named d.ids names)
  refine h.of_rows hsame hsetup ?_ ?_ ?_ h.handed
  · intro row hrow
    exact h.shows (mem_of_mem_filter (hrows ▸ hrow))
  · refine (congrArg SQLite.rows hdisk).trans ?_
    rw [hrows, h.rows, filter_map]
    refine congrArg _ (filter_congr fun row hrow => ?_)
    simp only [Function.comp_apply, h.named_iff hrow]
  · exact (congrArg SQLite.reports hdisk).trans (h.reports.trans hreports.symm)

/-! ## Releasing -/

/-- A release without a retry gives back the same rows. -/
theorem Matches.released_zero (hrow : row ∈ r.store.room.table.rows)
    (names : List ℕ) : released (named d.ids names) 0 (diskRow d.ids row) =
      diskRow d.ids (if row.id ∈ roomIds (named r.ids names) then { row with reservedUntil := 0 }
        else row) := by
  unfold released
  by_cases hin : row.id ∈ roomIds (named r.ids names)
  · have hname := (h.named_iff hrow names).2 hin
    rw [if_pos hin]
    by_cases hpos : 0 < row.reservedUntil
    · rw [if_pos ⟨hname, hpos⟩]
      simp [diskRow]
    · -- it was not reserved
      have hzero : row.reservedUntil = 0 := le_antisymm (not_lt.1 hpos) (h.shown row hrow).reservation
      rw [if_neg fun hboth => hpos hboth.2]
      simp [diskRow, hzero]
  · rw [if_neg hin, if_neg fun hboth => hin ((h.named_iff hrow names).1 hboth.1)]

theorem Matches.releaseRecords (now : ℕ) (names : List ℕ) :
    Matches (d.step SQLite.calls (now, .releaseRecords names false))
      (r.step RoomStore.calls (now, .releaseRecords names false)) := by
  obtain ⟨hsetup, hreports, hrows⟩ := r.store.releaseRecords_frame (named r.ids names)
  have hdisk := h.plain.releaseRecords_named (h.nulFree_named names)
  have hsame := SQLite.releaseRecords_frame h.plain.toLive (named d.ids names) false
  refine h.of_rows hsame hsetup ?_ ?_ ?_ h.handed
  · intro row hrow
    obtain ⟨row₀, hrow₀, rfl⟩ := mem_map.1 (hrows ▸ hrow)
    obtain ⟨hshown, hwithin⟩ := h.shows hrow₀
    split_ifs
    · exact ⟨hshown.reserve le_rfl, hwithin⟩
    · exact ⟨hshown, hwithin⟩
  · refine (congrArg SQLite.rows hdisk).trans ?_
    rw [hrows, h.rows, map_map, map_map]
    exact map_congr_left fun row hrow => h.released_zero hrow names
  · exact (congrArg SQLite.reports hdisk).trans (h.reports.trans hreports.symm)

end

/-- **A release that counts a retry**, of a table within the limit. -/
theorem SQLite.WithinLimit.releaseRecords_retry (hwithin : s.WithinLimit)
    (hlive : s.Live) (hids : ∀ id ∈ ids, NulFree id) :
    let rows := s.rows.map (released ids 1)
    let dropped := retried s.maxRetryCount rows
    (s.releaseRecords ids true).rows =
        rows.filter (fun row => row.retryCount ≤ (s.maxRetryCount : ℤ)) ∧
      (s.releaseRecords ids true).reports =
        s.reports ++ if dropped = [] then [] else [perTenant dropped] := by
  intro rows dropped
  by_cases hnone : ids = []
  · -- nothing is released, and nothing was over the limit
    have hrows : rows = s.rows := by simp only [rows, hnone, released_nil, map_id]
    have hdropped : dropped = [] := by
      simp only [dropped, hrows, retried]
      exact filter_eq_nil_iff.2 fun row hrow => by simpa using hwithin row hrow
    rw [hlive.releaseRecords_eq, if_pos hnone, if_pos hdropped, append_nil, hrows]
    exact ⟨(filter_eq_self.2 fun row hrow => decide_eq_true (hwithin row hrow)).symm, rfl⟩
  · rw [hlive.releaseRecords_eq, if_neg hnone, releaseBlocks_eq hids]
    dsimp only
    rw [if_pos rfl, if_pos rfl]
    by_cases hdropped : dropped = []
    · rw [if_neg (not_not.2 hdropped), if_pos hdropped, append_nil]
      exact ⟨rfl, rfl⟩
    · rw [if_pos hdropped, if_neg hdropped]
      refine ⟨rfl, ?_⟩
      simp [SQLite.reports, notify, droppedIn, dropped, rows]

/-- Rows that are reserved are given back and counted alike. -/
theorem Matches.released_one (h : Matches d r) (hrow : row ∈ r.store.room.table.rows)
    (hreserved : row.id ∈ roomIds (named r.ids names) → row.reservedUntil ≠ 0) :
    released (named d.ids names) 1 (diskRow d.ids row) =
      diskRow d.ids (RoomTable.retriedOnce (roomIds (named r.ids names)) row) := by
  unfold released RoomTable.retriedOnce
  by_cases hin : row.id ∈ roomIds (named r.ids names)
  · have hpos : 0 < row.reservedUntil :=
      lt_of_le_of_ne (h.shown row hrow).reservation (hreserved hin).symm
    rw [if_pos hin, if_pos ⟨(h.named_iff hrow names).2 hin, hpos⟩]
    rfl
  · rw [if_neg hin, if_neg fun hboth => hin ((h.named_iff hrow names).1 hboth.1)]

/-- Within the limit, a row is over it after a retry if it had its
retries before. -/
theorem retriedOnce_over {maxRetryCount : ℤ} {roomNamed : List ℤ}
    (h : row.retryCount ≤ maxRetryCount) :
    maxRetryCount < (RoomTable.retriedOnce roomNamed row).retryCount ↔
      row.id ∈ roomNamed ∧ maxRetryCount ≤ row.retryCount := by
  unfold RoomTable.retriedOnce
  by_cases hin : row.id ∈ roomNamed
  · rw [if_pos hin]
    simp only [hin, true_and]
    omega
  · rw [if_neg hin]
    simp only [hin, false_and, iff_false, not_lt]
    exact h

theorem Matches.releaseRecords_retry (h : Matches d r)
    (halike : Alike d (now, .releaseRecords names true)) :
    Matches (d.step SQLite.calls (now, .releaseRecords names true))
      (r.step RoomStore.calls (now, .releaseRecords names true)) := by
  obtain ⟨hnames, hreserved⟩ := halike rfl
  have hnodup : (roomIds (named r.ids names)).Nodup := by
    rw [h.numbered]
    exact nodup_roomIds_named h.few hnames
  obtain ⟨hsetup, hreports, hrows⟩ := r.store.releaseRecords_retry_frame hnodup
  obtain ⟨hdisk, hdrops⟩ := h.within.releaseRecords_retry h.plain.toLive (h.nulFree_named names)
  have hsame := SQLite.releaseRecords_frame h.plain.toLive (named d.ids names) true
  rw [h.maxRetryCount] at hreports hrows
  set roomNamed := roomIds (named r.ids names)
  set limit : ℤ := (d.store.maxRetryCount : ℤ)
  have hover : ∀ row ∈ r.store.room.table.rows,
      (limit < (RoomTable.retriedOnce roomNamed row).retryCount ↔
        row.id ∈ roomNamed ∧ limit ≤ row.retryCount) := fun row hrow =>
    retriedOnce_over (h.shows hrow).2
  -- the rows released, before any is dropped
  have hmap : d.store.rows.map (released (named d.ids names) 1) =
      r.store.room.table.rows.map (diskRow d.ids ∘ RoomTable.retriedOnce roomNamed) := by
    rw [h.rows, map_map]
    refine map_congr_left fun row hrow => h.released_one hrow fun hin => ?_
    exact hreserved (diskRow d.ids row) (h.rows ▸ mem_map_of_mem hrow)
      ((h.named_iff hrow names).2 hin)
  have hdropped : retried limit (d.store.rows.map (released (named d.ids names) 1)) =
      (RoomTable.worn roomNamed limit r.store.room.table.rows).map
        (diskRow d.ids ∘ RoomTable.retriedOnce roomNamed) := by
    rw [hmap, retried, filter_map]
    refine congrArg _ (filter_congr fun row hrow => ?_)
    exact decide_eq_decide.2 (hover row hrow)
  refine h.of_rows hsame hsetup ?_ ?_ ?_ h.handed
  · intro row hrow
    obtain ⟨row₀, hrow₀, rfl⟩ := mem_map.1 (hrows ▸ hrow)
    obtain ⟨hmem, hkept⟩ := List.mem_filter.1 hrow₀
    have hshown := h.shown row₀ hmem
    refine ⟨?_, not_lt.1 fun hlt => of_decide_eq_true hkept ((hover row₀ hmem).1 hlt)⟩
    unfold RoomTable.retriedOnce
    split_ifs
    · exact hshown.reserve le_rfl
    · exact hshown
  · refine hdisk.trans ?_
    rw [hrows, hmap, filter_map, map_map]
    refine congrArg _ (filter_congr fun row hrow => decide_eq_decide.2 ?_)
    rw [← hover row hrow]
    exact not_lt.symm
  · refine hdrops.trans ?_
    have htenants : EventRow.tenantToken ∘ diskRow d.ids ∘ RoomTable.retriedOnce roomNamed =
        RoomRecord.tenantToken := funext (RoomTable.retriedOnce_tenantToken _)
    rw [hreports, hdropped, perTenant_eq, map_map, htenants, h.reports]
    simp only [map_eq_nil_iff]

/-! ## Reading -/

theorem Matches.releaseExpired (h : Matches d r)
    (hkept : ∀ row ∈ d.store.rows, row.reservedUntil ≠ 0 → (now : ℤ) < row.reservedUntil) :
    Sql.releaseExpired now d.store.rows = d.store.rows ∧
      r.store.room.table.releaseExpired now = r.store.room.table := by
  constructor
  · refine (map_congr_left (g := id) fun row hrow => if_neg ?_).trans (map_id _)
    rintro ⟨hne, hle⟩
    exact absurd (hkept row hrow hne) (not_lt.2 hle)
  · refine RoomTable.releaseExpired_of_clean fun row hrow hexpired => ?_
    have := hkept (diskRow d.ids row) (h.rows ▸ mem_map_of_mem hrow)
      (ne_of_gt hexpired.1)
    exact absurd hexpired.2 (not_lt.2 (le_of_lt this))

/-- **The two reads are offered the same rows.** -/
theorem Matches.selected_eq (h : Matches d r)
    (hkept : ∀ row ∈ d.store.rows, row.reservedUntil ≠ 0 → (now : ℤ) < row.reservedUntil)
    (hcount : maxCount = 0 → d.store.rows.length ≤ uintMax) (minLatency : EventLatency) :
    d.store.selected minLatency maxCount now =
      (r.store.room.offeredBy minLatency maxCount now).map (diskRow d.ids) := by
  obtain ⟨hdisk, hroom⟩ := h.releaseExpired hkept
  have hsorted : ((d.store.rows.filter fun row =>
      minLatency.toInt ≤ row.latency ∧ row.reservedUntil = 0).insertionSort Sql.Before) =
      (r.store.room.table.ordered minLatency.toInt).map (diskRow d.ids) := by
    rw [RoomTable.ordered, h.rows, filter_map]
    exact (map_insertionSort RoomTable.Before Sql.Before (diskRow d.ids) _
      fun a _ b _ => Iff.rfl).symm
  unfold SQLite.selected Sql.selectEvents Room.offeredBy
  rw [hdisk, hroom, hsorted, ← map_take]
  refine congrArg _ ?_
  by_cases hzero : maxCount = 0
  · -- no bound is asked for, and both bounds are beyond the table
    have hlength : (r.store.room.table.ordered minLatency.toInt).length ≤ uintMax := by
      have hrows := hcount hzero
      rw [h.rows, length_map] at hrows
      exact RoomTable.length_ordered_le.trans hrows
    have hbound : uintMax ≤ Room.requestedCount maxCount := by
      rw [hzero]
      decide
    rw [SQLite.limit, if_pos hzero, take_of_length_le hlength,
      take_of_length_le (hlength.trans hbound)]
  · rw [SQLite.limit, if_neg hzero, Room.requestedCount, if_pos hzero]

/-- A read of the database that takes everything. -/
theorem SQLite.Live.rows_collect (h : s.Live) (leaseTimeMs : ℕ)
    (minLatency : EventLatency) (maxCount now : ℕ)
    (hnul : ∀ row ∈ s.selected minLatency maxCount now, NulFree row.recordId) :
    (s.getAndReserveRecords MemoryStorage.collect [] leaseTimeMs minLatency maxCount now).2.2.rows =
      reserve ((s.selected minLatency maxCount now).map EventRow.recordId) (now + leaseTimeMs)
        (Sql.releaseExpired now s.rows) := by
  have hwalk : (s.walk MemoryStorage.collect [] minLatency maxCount now).1 =
      s.selected minLatency maxCount now := by
    rw [walk, MemoryStorage.offer_collect_map]
  rw [getAndReserveRecords_eq h.opened.1 h.opened.2.1 h.faithful _ _ _ _ _ _ (hwalk ▸ hnul), hwalk]
  by_cases hnone : s.selected minLatency maxCount now = []
  · rw [if_pos hnone, hnone]
    simp [reserve]
  · rw [if_neg hnone]

/-- A read of the Android store that takes everything. -/
theorem RoomStore.getAndReserveRecords_collect (s : RoomStore)
    (hlease : leaseTimeMs ≠ 0) (minLatency : EventLatency) (maxCount now : ℕ) :
    let offered := s.room.offeredBy minLatency maxCount now
    let res := s.getAndReserveRecords MemoryStorage.collect [] leaseTimeMs minLatency maxCount now
    res.2.1 = offered.map RoomRecord.toRecord ∧ SameSetup s res.2.2 ∧
      res.2.2.reports = s.reports ∧ res.2.2.room.table =
        (s.room.table.releaseExpired now).setReservedBlock (offered.map RoomRecord.id)
          (now + leaseTimeMs) := by
  intro offered res
  have hread := Room.retrieve_eq s.room (fun k row => MemoryStorage.collect k row.toRecord) []
    hlease minLatency maxCount now
  rw [MemoryStorage.offer_collect_map] at hread
  have hres : res.2 = (offered.map RoomRecord.toRecord, { s with room := (s.room.retrieve
      (fun k row => MemoryStorage.collect k row.toRecord) [] leaseTimeMs minLatency maxCount
        now).2.2 }) := by
    simp only [res, RoomStore.getAndReserveRecords, Room.getAndReserveRecords]
    rw [hread]
    rfl
  rw [hres]
  refine ⟨rfl, ⟨rfl, rfl⟩, rfl, ?_⟩
  show (s.room.retrieve _ _ _ _ _ _).2.2.table = _
  rw [hread]
  dsimp only
  rw [Room.reservedOf_length]

theorem Matches.getAndReserveRecords (h : Matches d r) {minLatency : EventLatency}
    (halike : Alike d (now, .getAndReserveRecords leaseTimeMs minLatency maxCount)) :
    Matches (d.step SQLite.calls (now, .getAndReserveRecords leaseTimeMs minLatency maxCount))
      (r.step RoomStore.calls (now, .getAndReserveRecords leaseTimeMs minLatency maxCount)) := by
  obtain ⟨hlease, hkept, hcount⟩ := halike
  set offered := r.store.room.offeredBy minLatency maxCount now with hoffered
  have hselected : d.store.selected minLatency maxCount now = offered.map (diskRow d.ids) :=
    h.selected_eq hkept hcount minLatency
  obtain ⟨hexpired, hclean⟩ := h.releaseExpired hkept
  -- what is offered is in the table
  have hmem : ∀ row ∈ offered, row ∈ r.store.room.table.rows := by
    intro row hrow
    have hin := RoomTable.mem_ordered.1 (mem_of_mem_take hrow)
    rw [hclean] at hin
    exact hin.1
  have hnul : ∀ row ∈ d.store.selected minLatency maxCount now, NulFree row.recordId := by
    intro row hrow
    rw [hselected] at hrow
    obtain ⟨row₀, hrow₀, rfl⟩ := mem_map.1 hrow
    exact h.nulFree _ (idOf_mem (h.shown row₀ (hmem row₀ hrow₀)).given)
  have hhanded := handed_out_eq h.plain leaseTimeMs minLatency maxCount now
  have hdisk := h.plain.rows_collect leaseTimeMs minLatency maxCount now hnul
  obtain ⟨hsame, hnotices, -⟩ := h.plain.getAndReserveRecords MemoryStorage.collect [] leaseTimeMs
    minLatency maxCount now
  obtain ⟨hroomHanded, hsetup, hreports, htable⟩ :=
    r.store.getAndReserveRecords_collect hlease minLatency maxCount now
  rw [hexpired, hselected] at hdisk
  rw [hclean] at htable
  have hrows := congrArg RoomTable.rows htable
  rw [RoomTable.rows_setReservedBlock] at hrows
  -- the rows reserved are the rows offered, by either id
  have hreserved : ∀ row ∈ r.store.room.table.rows,
      ((diskRow d.ids row).recordId ∈ (offered.map (diskRow d.ids)).map EventRow.recordId ↔
        row.id ∈ offered.map RoomRecord.id) := by
    intro row hrow
    have hgiven := (h.shown row hrow).given
    rw [map_map, mem_map, mem_map]
    refine exists_congr fun row' => and_congr_right fun hrow' => ?_
    exact idOf_inj h.distinct (h.shown row' (hmem row' hrow')).given hgiven
  generalize (offered.map (diskRow d.ids)).map EventRow.recordId = diskIds at hdisk hreserved
  refine h.of_rows hsame hsetup ?_ ?_ ?_ ?_
  · intro row hrow
    obtain ⟨row₀, hrow₀, rfl⟩ := mem_map.1 (hrows ▸ hrow)
    obtain ⟨hshown, hwithin⟩ := h.shows hrow₀
    split_ifs
    · exact ⟨hshown.reserve (by omega), hwithin⟩
    · exact ⟨hshown, hwithin⟩
  · refine hdisk.trans ?_
    rw [hrows, reserve, h.rows, map_map, map_map]
    refine map_congr_left fun row hrow => ?_
    simp only [Function.comp_apply, hreserved row hrow]
    split_ifs <;> rfl
  · exact (congrArg droppedIn hnotices).trans (h.reports.trans hreports.symm)
  · have hshown : (d.store.getAndReserveRecords MemoryStorage.collect [] leaseTimeMs minLatency
        maxCount now).2.1.map (anonymous d.ids) =
        (r.store.getAndReserveRecords MemoryStorage.collect [] leaseTimeMs minLatency
          maxCount now).2.1.map (anonymous r.ids) := by
      rw [hhanded, hroomHanded, hselected, map_map, map_map, map_map, h.numbered]
      exact map_congr_left fun row hrow =>
        anonymous_diskRow h.distinct h.few (h.shown row (hmem row hrow))
    show d.handed ++ [_] = r.handed ++ [_]
    rw [h.handed]
    exact congrArg (r.handed ++ [·]) hshown

/-! ## Runs -/

/-- **One call.** -/
theorem Matches.step (h : Matches d r) {a : ℕ × StoreCall} (halike : Alike d a) :
    Matches (d.step SQLite.calls a) (r.step RoomStore.calls a) := by
  obtain ⟨now, call⟩ := a
  cases call with
  | storeRecord record => exact h.storeRecord halike
  | getAndReserveRecords leaseTimeMs minLatency maxCount => exact h.getAndReserveRecords halike
  | releaseRecords names inc =>
    cases inc with
    | false => exact h.releaseRecords now names
    | true => exact h.releaseRecords_retry halike
  | deleteRecords names => exact h.deleteRecords now names

/-- Two empty stores with the same limit. -/
theorem Matches.new (hplain : s.Plain) (hempty : s.rows = []) (hreports : s.reports = []) :
    Matches (Session.new s) (Session.new (RoomStore.new s.maxRetryCount)) where
  plain := hplain
  within := by
    intro row hrow
    have hnone : row ∈ s.rows := hrow
    rw [hempty] at hnone
    cases hnone
  maxRetryCount := rfl
  few := (by decide : 0 < 2 ^ 63)
  distinct := nodup_nil
  nulFree := fun id hid => nomatch hid
  numbered := rfl
  sequence := rfl
  shown := fun row hrow => nomatch hrow
  rows := hempty
  handed := rfl
  reports := hreports

end Simulation

/-- **Interchangeable stores.** For every sequence of stores, reads with a
consumer that accepts everything, releases and deletes, each at its time,
on two empty stores with the same retry limit and no size limit: if the
calls keep clear of what the two treat differently, the reads hand out the
same records in the same order, retry counts included, and the same drops
are reported for each tenant. -/
theorem stores_interchangeable (s : SQLite) (hplain : s.Plain) (hempty : s.rows = [])
    (hreports : s.reports = []) (calls : List (ℕ × StoreCall))
    (halike : RunMeets Alike (Session.step SQLite.calls) (Session.new s) calls) :
    let disk := run (Session.step SQLite.calls) (Session.new s) calls
    let room := run (Session.step RoomStore.calls) (Session.new (RoomStore.new s.maxRetryCount)) calls
    disk.handed = room.handed ∧
      SQLite.calls.reports disk.store = RoomStore.calls.reports room.store := by
  intro disk room
  have hmatches : Matches disk room :=
    run_simulates (fun _ _ _ h hcall => h.step hcall) (Matches.new hplain hempty hreports) halike
  exact ⟨hmatches.handed, hmatches.reports⟩

/-- A record of a tenant, at a time. -/
def plainRecord (id : StorageRecordId) (tenantToken : String) (timestamp : ℤ) : StorageRecord :=
  ⟨id, tenantToken, .normal, .normal, timestamp, [1], 0, 0⟩

/-- Two records read, one of them released with a retry beyond a limit of
none, the other without. -/
def releasedInTime : List (ℕ × StoreCall) :=
  [(1, .storeRecord (plainRecord "a" "t" 7)), (2, .storeRecord (plainRecord "b" "u" 8)),
    (3, .getAndReserveRecords 100 .normal 0), (4, .releaseRecords [0] true),
    (5, .releaseRecords [1] false), (6, .getAndReserveRecords 100 .normal 0)]

/-- A database that permits no retry. -/
def noRetries : SQLite := { SQLite.openOn Engine.sound [] with maxRetryCount := 0 }

theorem stores_interchangeable_in_time :
    let disk := run (Session.step SQLite.calls) (Session.new noRetries) releasedInTime
    let room := run (Session.step RoomStore.calls) (Session.new (RoomStore.new 0)) releasedInTime
    disk.handed.map (List.map Prod.fst) = [[0, 1], [1]] ∧ disk.handed = room.handed ∧
      SQLite.calls.reports disk.store = RoomStore.calls.reports room.store := by
  refine ⟨by decide, ?_⟩
  exact stores_interchangeable noRetries ⟨⟨⟨rfl, rfl, rfl⟩, Engine.sound_faithful⟩, rfl⟩ rfl rfl
    releasedInTime (by decide)

/-- **A reservation that runs out.** Read again after its lease, the record
comes from the database with a retry counted and from the Android store
without. -/
theorem expiry_counts_in_one_store :
    let calls : List (ℕ × StoreCall) := [(1, .storeRecord (plainRecord "a" "t" 7)),
      (2, .getAndReserveRecords 10 .normal 0), (20, .getAndReserveRecords 10 .normal 0)]
    let disk := run (Session.step SQLite.calls) (Session.new noRetries) calls
    let room := run (Session.step RoomStore.calls) (Session.new (RoomStore.new 0)) calls
    disk.handed.map (List.map fun r => r.2.retryCount) = [[0], [1]] ∧
      room.handed.map (List.map fun r => r.2.retryCount) = [[0], [0]] ∧
      disk.handed ≠ room.handed := by
  decide

end ClientTelemetry
