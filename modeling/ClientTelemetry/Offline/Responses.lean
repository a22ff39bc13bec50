import ClientTelemetry.Offline.KillSwitch
import ClientTelemetry.Offline.Helpers.Scrub
/-!
# What a response does to the records

`DeleteRecords` and `ReleaseRecords` read the headers of a response
before they turn to the ids. Two questions are settled here, for every
response.

* Which headers let the call get to the ids: the numeric ones go through
  `std::stoi`, whose exceptions nobody catches, so exactly those that
  `Readable` admits (`response_handled_iff`).
* Which records the scrub of killed tenants takes with it: those of
  every tenant in the table of kills, and the table still has the kills
  that have run out. The scrub is exact when no record of such a tenant
  is held (`scrub_exact_iff`).
-/

namespace ClientTelemetry

variable {headers : HttpHeaders} (k : KillSwitchManager)

open KillSwitchManager List

/-! ## Headers that can be read -/

/-- **A response the kill switch gets through**: its retry-after time is
absent or numeric, and so is the duration of its kills, if it names
any. -/
def HttpHeaders.Readable (headers : HttpHeaders) : Prop :=
  IsNumeric (headers.get "Retry-After") ∧
    (headers.equalRange "kill-tokens" ≠ [] → IsNumeric (headers.get "kill-duration"))

/-- The kill switch returns exactly on the readable responses. -/
theorem KillSwitchManager.handleResponse_returns_iff (now : ℤ) (headers : HttpHeaders) :
    (∃ killed, (k.handleResponse now headers).1 = .ok killed) ↔ headers.Readable := by
  unfold handleResponse HttpHeaders.Readable IsNumeric
  rcases hretry : seconds (headers.get "Retry-After") with e | retry
  · simp
  · dsimp only
    by_cases hnone : headers.equalRange "kill-tokens" = []
    · simp [hnone]
    · rw [if_neg hnone]
      rcases hduration : seconds (headers.get "kill-duration") with e | duration
      · simp [hnone]
      · dsimp only
        split_ifs <;> simp

/-- Every tenant that a response kills is in the table until its time. -/
def AppliesKills (headers : HttpHeaders) (now : ℤ) : Prop :=
  ∀ t d, killOf headers t = some d → k.tokenTime.find? t = some (now + d)

theorem mem_killTokens_of_killOf {t : String} {d : ℤ}
    (h : killOf headers t = some d) : t ∈ killTokens headers := by
  by_contra hmem
  rw [killOf, if_neg hmem] at h
  cases h

/-- A readable response applies its kills. -/
theorem KillSwitchManager.appliesKills_handleResponse (now : ℤ) (hread : headers.Readable) :
    AppliesKills (k.handleResponse now headers).2 headers now := by
  intro t d hkill
  have hnamed := mem_killTokens_imp (mem_killTokens_of_killOf hkill)
  obtain ⟨-, htable, -⟩ := handleResponse_spec k now ⟨hread.1, hread.2 hnamed⟩
  rw [htable, hkill]
  rfl

/-! ## The ids of a response -/

namespace Handler

variable {δ : Type} {D : DiskStorage δ} {h : Handler δ} {headers : HttpHeaders}
  {ids : List StorageRecordId} {inc fromMemory : Bool} {now : ℕ}

/-- The headers are left behind exactly when they can be read. -/
theorem handleHeaders_returns_iff (D : DiskStorage δ) (h : Handler δ) (headers : HttpHeaders)
    (now : ℕ) : (h.handleHeaders D headers now).1 = .ok () ↔ headers.Readable := by
  rw [← handleResponse_returns_iff h.killSwitchManager (utcSeconds now) headers]
  unfold handleHeaders
  dsimp only
  by_cases hnil : headers = []
  · subst hnil
    refine iff_of_true (by simp) ⟨false, ?_⟩
    rfl
  · rw [if_neg hnil]
    rcases h.killSwitchManager.handleResponse (utcSeconds now) headers with ⟨e | killed, k⟩
    · simp
    · simp

theorem appliesKills_handleHeaders (hread : headers.Readable) :
    AppliesKills (h.handleHeaders D headers now).2.killSwitchManager headers (utcSeconds now) := by
  rw [handleHeaders_killSwitch]
  split_ifs with hnil
  · intro t d hkill
    have hmem := mem_killTokens_of_killOf hkill
    rw [hnil] at hmem
    cases hmem
  · exact appliesKills_handleResponse _ _ hread

/-- **What comes behind the headers** comes exactly if they can be read. -/
theorem behindHeaders (D : DiskStorage δ) (h : Handler δ) (headers : HttpHeaders) (now : ℕ)
    (next : Handler δ → Handler δ) {res : Except Fault Unit × Handler δ}
    (heq : (match h.handleHeaders D headers now with
      | (.error e, h) => (.error e, h)
      | (.ok (), h) => (.ok (), next h) : Except Fault Unit × Handler δ) = res) :
    (headers.Readable → res = (.ok (), next (h.handleHeaders D headers now).2)) ∧
      (¬ headers.Readable → res.1 ≠ .ok () ∧ res.2 = (h.handleHeaders D headers now).2) := by
  rw [← handleHeaders_returns_iff D h headers now]
  subst heq
  rcases h.handleHeaders D headers now with ⟨e | u, h₁⟩
  · simp
  · simp

theorem deleteRecords_eq_named (hread : headers.Readable) :
    h.deleteRecords D ids headers fromMemory now =
      (.ok (), (h.handleHeaders D headers now).2.deleteNamed D ids fromMemory) :=
  (behindHeaders D h headers now (·.deleteNamed D ids fromMemory) rfl).1 hread

theorem releaseRecords_eq_named (hread : headers.Readable) :
    h.releaseRecords D ids inc headers fromMemory now =
      (.ok (), (h.handleHeaders D headers now).2.releaseNamed D ids inc fromMemory) :=
  (behindHeaders D h headers now (·.releaseNamed D ids inc fromMemory) rfl).1 hread

/-- A response that cannot be read ends both calls in its headers. -/
theorem deleteRecords_throws (hread : ¬ headers.Readable) :
    (h.deleteRecords D ids headers fromMemory now).1 ≠ .ok () ∧
      (h.deleteRecords D ids headers fromMemory now).2 = (h.handleHeaders D headers now).2 :=
  (behindHeaders D h headers now (·.deleteNamed D ids fromMemory) rfl).2 hread

theorem releaseRecords_throws (hread : ¬ headers.Readable) :
    (h.releaseRecords D ids inc headers fromMemory now).1 ≠ .ok () ∧
      (h.releaseRecords D ids inc headers fromMemory now).2 = (h.handleHeaders D headers now).2 :=
  (behindHeaders D h headers now (·.releaseNamed D ids inc fromMemory) rfl).2 hread

/-- **The ids are gone from the store named**: from RAM, or they were
handed to the persistent store as the headers had left it. -/
def Deletes (D : DiskStorage δ) (before after : Handler δ) (ids : List StorageRecordId)
    (fromMemory : Bool) : Prop :=
  match fromMemory, after.memory with
  | true, some m => ∀ r ∈ m.held, r.id ∉ ids
  | _, _ => after.disk = before.disk.map (D.deleteRecords · ids)

/-- **The ids are released in the store named**: in RAM none of them is
reserved and the records are queued again. -/
def Releases (D : DiskStorage δ) (before after : Handler δ) (ids : List StorageRecordId)
    (inc fromMemory : Bool) : Prop :=
  match fromMemory, before.memory, after.memory with
  | true, some m, some m' =>
    (∀ i ∈ ids, i ∉ m'.reservedRecords.keys) ∧
      ∀ r ∈ m.reservedRecords.values, r.id ∈ ids → MemoryStorage.released inc r ∈ m'.queued
  | _, _, _ => after.disk = before.disk.map (D.releaseRecords · ids inc)

end Handler

namespace MemoryStorage

variable {m : MemoryStorage}

theorem Accounted.not_held_deleteRecords (h : m.Accounted) (ids : List StorageRecordId) :
    ∀ r ∈ (m.deleteRecords ids).held, r.id ∉ ids := by
  intro r hr
  rw [deleteRecords_eq h.keyed h.distinct, mem_held] at hr
  rcases hr with ⟨l, hl⟩ | hr
  · simpa using of_mem_filter hl
  · obtain ⟨e, he, rfl⟩ := mem_map.1 hr
    have hmem := OrdMap.mem_filter.1 he
    rw [h.keyed e hmem.1]
    simpa using hmem.2

theorem Accounted.releaseRecords_spec (h : m.Accounted) (ids : List StorageRecordId) (inc : Bool) :
    (∀ i ∈ ids, i ∉ (m.releaseRecords ids inc).reservedRecords.keys) ∧
      ∀ r ∈ m.reservedRecords.values, r.id ∈ ids →
        released inc r ∈ (m.releaseRecords ids inc).queued := by
  set back := (m.reservedRecords.filter fun e => e.1 ∈ ids.toFinset).values with hback
  have hstorable : ∀ r ∈ back, r.latency.Storable := by
    intro r hr
    obtain ⟨e, he, rfl⟩ := mem_map.1 hr
    exact h.reserved_storable _ (mem_map_of_mem (OrdMap.mem_filter.1 he).1)
  have hst : Stores _ (back.map (released inc)) (m.releaseRecords ids inc) :=
    restore_stores hstorable
  refine ⟨fun i hi hkey => ?_, fun r hr hid => ?_⟩
  · rw [hst.reserved] at hkey
    obtain ⟨r, hr⟩ := OrdMap.mem_keys.1 hkey
    have hout := (OrdMap.mem_filter.1 hr).2
    simp [hi] at hout
  · obtain ⟨e, he, rfl⟩ := mem_map.1 hr
    have hmem : e.2 ∈ back := by
      refine mem_map_of_mem (OrdMap.mem_filter.2 ⟨he, ?_⟩)
      rw [← h.keyed e he]
      simpa using hid
    exact hst.perm.mem_iff.2 (mem_append_right _ (mem_map_of_mem hmem))

end MemoryStorage

namespace Handler

variable {δ : Type} {D : DiskStorage δ} {h : Handler δ} {headers : HttpHeaders}
  {ids : List StorageRecordId} {inc fromMemory : Bool} {now : ℕ}

section

variable (hmem : ∀ m, h.memory = some m → m.Accounted)
include hmem

theorem deletes_deleteNamed :
    Deletes D h (h.deleteNamed D ids fromMemory) ids fromMemory := by
  unfold Deletes deleteNamed
  rcases fromMemory with _ | _
  · rfl
  · rcases hm : h.memory with _ | m
    · simp
    · exact (hmem m hm).not_held_deleteRecords ids

theorem releases_releaseNamed :
    Releases D h (h.releaseNamed D ids inc fromMemory) ids inc fromMemory := by
  unfold Releases releaseNamed
  rcases fromMemory with _ | _
  · rfl
  · rcases hm : h.memory with _ | m
    · simp
    · exact (hmem m hm).releaseRecords_spec ids inc

/-- The RAM store is accounted for behind the headers. -/
theorem handleHeaders_accounted :
    ∀ m, (h.handleHeaders D headers now).2.memory = some m → m.Accounted := by
  intro m hm
  rw [handleHeaders_memory] at hm
  obtain ⟨m₀, hm₀, rfl⟩ := Option.map_eq_some_iff.1 hm
  exact (hmem m₀ hm₀).scrub _

end

/-- **`DeleteRecords` does what it was called for.** -/
structure DeleteHandled (D : DiskStorage δ) (h : Handler δ) (ids : List StorageRecordId)
    (headers : HttpHeaders) (fromMemory : Bool) (now : ℕ) : Prop where
  returns : (h.deleteRecords D ids headers fromMemory now).1 = .ok ()
  deletes : Deletes D (h.handleHeaders D headers now).2
    (h.deleteRecords D ids headers fromMemory now).2 ids fromMemory
  kills : AppliesKills (h.deleteRecords D ids headers fromMemory now).2.killSwitchManager headers
    (utcSeconds now)

/-- **`ReleaseRecords` does what it was called for.** -/
structure ReleaseHandled (D : DiskStorage δ) (h : Handler δ) (ids : List StorageRecordId)
    (inc : Bool) (headers : HttpHeaders) (fromMemory : Bool) (now : ℕ) : Prop where
  returns : (h.releaseRecords D ids inc headers fromMemory now).1 = .ok ()
  releases : Releases D (h.handleHeaders D headers now).2
    (h.releaseRecords D ids inc headers fromMemory now).2 ids inc fromMemory
  kills : AppliesKills (h.releaseRecords D ids inc headers fromMemory now).2.killSwitchManager
    headers (utcSeconds now)

end Handler

/-- **Responses that do not break the handling of records.** Whatever the
state, `DeleteRecords` and `ReleaseRecords` return, deal with the ids in
the store named and apply the kills of the response exactly when its
numeric headers can be read. A retry-after date cannot, and neither can a
number out of the range of an `int`. -/
theorem response_handled_iff {δ : Type} (D : DiskStorage δ) (h : Handler δ)
    (hmem : ∀ m, h.memory = some m → m.Accounted) (ids : List StorageRecordId) (inc : Bool)
    (headers : HttpHeaders) (fromMemory : Bool) (now : ℕ) :
    (Handler.DeleteHandled D h ids headers fromMemory now ↔ headers.Readable) ∧
      (Handler.ReleaseHandled D h ids inc headers fromMemory now ↔ headers.Readable) := by
  have hacc : ∀ m, (h.handleHeaders D headers now).2.memory = some m → m.Accounted :=
    Handler.handleHeaders_accounted hmem
  refine ⟨⟨fun hdone => ?_, fun hread => ?_⟩, ⟨fun hdone => ?_, fun hread => ?_⟩⟩
  · by_contra hread
    exact (Handler.deleteRecords_throws hread).1 hdone.returns
  · refine ⟨by rw [Handler.deleteRecords_eq_named hread], ?_, ?_⟩
    · rw [Handler.deleteRecords_eq_named hread]
      exact Handler.deletes_deleteNamed hacc
    · rw [Handler.deleteRecords_settings.killSwitchManager]
      exact Handler.appliesKills_handleHeaders hread
  · by_contra hread
    exact (Handler.releaseRecords_throws hread).1 hdone.returns
  · refine ⟨by rw [Handler.releaseRecords_eq_named hread], ?_, ?_⟩
    · rw [Handler.releaseRecords_eq_named hread]
      exact Handler.releases_releaseNamed hacc
    · rw [Handler.releaseRecords_settings.killSwitchManager]
      exact Handler.appliesKills_handleHeaders hread

/-- A handler with one record out for upload. -/
def leasedHandler : Handler SQLite :=
  run (Handler.step (sqliteStorage (SQLite.openOn SQLite.Engine.sound []))) (Handler.new 4096 false none)
    [(0, .initializeStorage), (1000, .storeRecord ⟨"a", "t", .normal, .normal, 1, [1], 0, 0⟩),
      (2000, .getAndReserveRecords ⟨Unit, (), fun _ _ => (true, ())⟩ 120000 .unspecified 0)]

theorem response_handled_iff_leased :
    Handler.DeleteHandled (sqliteStorage (SQLite.openOn SQLite.Engine.sound [])) leasedHandler ["a"]
      [("Retry-After", "50"), ("kill-duration", "60"), ("kill-tokens", "t")] true 3000 :=
  (response_handled_iff _ leasedHandler
    (fun m hm => by
      obtain rfl := Option.some.inj hm
      exact (MemoryStorage.conserved_start.run
        [.storeRecord ⟨"a", "t", .normal, .normal, 1, [1], 0, 0⟩,
          .getAndReserveRecords ⟨Unit, (), fun _ _ => (true, ())⟩ 120000 .unspecified 0 2000]
        (by decide) (by decide)).1.toAccounted) ["a"] false _ true 3000).1.2
    ⟨⟨50, rfl⟩, fun _ => ⟨60, rfl⟩⟩

/-- **A retry-after date stops both calls.** The record that was out for
upload stays reserved, and the kill of the same response is not
applied. -/
theorem retryAfter_date_throws :
    let D := sqliteStorage (SQLite.openOn SQLite.Engine.sound [])
    let headers : HttpHeaders := [("Retry-After", "Wed, 21 Oct 2015 07:28:00 GMT"),
      ("kill-duration", "60"), ("kill-tokens", "t")]
    let deleted := leasedHandler.deleteRecords D ["a"] headers true 3000
    let released := leasedHandler.releaseRecords D ["a"] false headers true 3000
    killOf headers "t" = some 60 ∧
    (deleted.1 = .error .invalidArgument ∧
      deleted.2.memory.map (·.reservedRecords.keys) = some ["a"] ∧
      deleted.2.killSwitchManager.tokenTime.find? "t" = none) ∧
    released.1 = .error .invalidArgument ∧
      released.2.memory.map (·.reservedRecords.keys) = some ["a"] ∧
      released.2.killSwitchManager.tokenTime.find? "t" = none :=
  ⟨rfl, ⟨rfl, rfl, rfl⟩, rfl, rfl, rfl⟩

/-! ## What the scrub removes -/

namespace KillSwitchManager

variable {d : ℤ} {headers : HttpHeaders} (k : KillSwitchManager) (now : ℤ)
  (hretry : IsNumeric (headers.get "Retry-After"))
  (hd : seconds (headers.get "kill-duration") = .ok d) (hpos : 0 < d)
include hretry hd hpos

/-- The table behind a response that kills: the tenants named, and those
that were in it. -/
theorem mem_getTokensList_handleResponse (t : String) :
    t ∈ (k.handleResponse now headers).2.getTokensList ↔
      t ∈ killTokens headers ∨ ∃ e, k.tokenTime.find? t = some e := by
  obtain ⟨-, htable, -⟩ := handleResponse_spec k now ⟨hretry, ⟨d, hd⟩⟩
  have hkill : killOf headers t = if t ∈ killTokens headers then some d else none := by
    rw [killOf, hd]
    simp [hpos]
  rw [getTokensList, OrdMap.mem_keys_iff_find?, htable, hkill]
  by_cases hmem : t ∈ killTokens headers
  · simp [hmem, nextDeadline]
  · simp [hmem, nextDeadline]

theorem handleResponse_kills (hnamed : killTokens headers ≠ []) :
    (k.handleResponse now headers).1 = .ok true := by
  obtain ⟨retry, hretry⟩ := hretry
  have hrange : headers.equalRange "kill-tokens" ≠ [] := by
    intro hnil
    exact hnamed (by rw [killTokens, hnil]; rfl)
  simp only [handleResponse, hretry, hrange, hd, hnamed, hpos, if_false, if_true, ne_eq,
    not_false_eq_true, and_self]

end KillSwitchManager

namespace Handler

variable {h h' : Handler SQLite} {headers : HttpHeaders} {now : ℕ} {d : ℤ} {fresh : SQLite}
  {tenant : String} {ids : List StorageRecordId} {fromMemory : Bool}

/-- A record of the tenant is held in one of the stores. -/
def HoldsTenant (h : Handler SQLite) (tenant : String) : Prop :=
  (∃ r ∈ h.ramRecords, r.tenantToken = tenant) ∨ ∃ row ∈ h.diskRows, row.tenantToken = tenant

/-- A record of the tenant was held before and is not after. -/
def LosesTenant (h h' : Handler SQLite) (tenant : String) : Prop :=
  (∃ r ∈ h.ramRecords, r ∉ h'.ramRecords ∧ r.tenantToken = tenant) ∨
    ∃ row ∈ h.diskRows, row ∉ h'.diskRows ∧ row.tenantToken = tenant

/-- **The scrub of a response is exact.** Once the call is over no
tenant that the response names is held; and what its headers removed is
of those tenants and of tenants whose earlier kill still runs. -/
def ScrubExact (h afterHeaders after : Handler SQLite) (headers : HttpHeaders) (now : ℕ) : Prop :=
  (∀ t ∈ killTokens headers, ¬ after.HoldsTenant t) ∧
    ∀ t, LosesTenant h afterHeaders t →
      t ∈ killTokens headers ∨ Live (h.killSwitchManager.tokenTime.find? t) (utcSeconds now)

/-- **What an exact scrub depends on.** With a retry-after time that can
be read: no tenant is held that is in the table with a kill that has run
out, and is not named again. Otherwise nothing is scrubbed, and no tenant
that the response names may be held. -/
def NothingStale (h : Handler SQLite) (headers : HttpHeaders) (now : ℕ) : Prop :=
  (IsNumeric (headers.get "Retry-After") → ∀ t e, h.killSwitchManager.tokenTime.find? t = some e →
      e ≤ utcSeconds now → t ∉ killTokens headers → ¬ h.HoldsTenant t) ∧
    (¬ IsNumeric (headers.get "Retry-After") → ∀ t ∈ killTokens headers, ¬ h.HoldsTenant t)

/-- The tokens that a scrub deletes by stand between the quotes of a
statement as they are. -/
def Quotes (h : Handler SQLite) (headers : HttpHeaders) : Prop :=
  ∀ t, (t ∈ killTokens headers ∨ ∃ e, h.killSwitchManager.tokenTime.find? t = some e) →
    Sql.PlainValue t

/-- **The condition of an exact scrub.** -/
structure ScrubSafe (h : Handler SQLite) (headers : HttpHeaders) (now : ℕ) : Prop where
  quotes : h.Quotes headers
  nothingStale : h.NothingStale headers now

theorem mem_ramRecords_handleHeaders {D : DiskStorage SQLite} {r : StorageRecord} :
    r ∈ (h.handleHeaders D headers now).2.ramRecords ↔
      r ∈ h.ramRecords ∧ r.tenantToken ∉ h.scrubKeys headers now := by
  rw [ramRecords, ramRecords, handleHeaders_memory]
  rcases h.memory with _ | m
  · simp
  · simp only [Option.map_some, Option.getD_some, MemoryStorage.held, mem_append,
      MemoryStorage.mem_scrub_queued, MemoryStorage.mem_scrub_reserved]
    exact or_and_right.symm

section

variable (hdisk : ∀ s, h.disk = some s → s.Opened ∧ s.engine.Faithful)
  (hplain : ∀ t ∈ h.scrubKeys headers now, Sql.PlainValue t)
include hdisk hplain

/-- The database behind the headers, its statements running. -/
theorem disk_handleHeaders :
    (h.handleHeaders (sqliteStorage fresh) headers now).2.disk = h.disk.map fun s =>
      { s with rows := s.rows.filter fun row => row.tenantToken ∉ h.scrubKeys headers now } := by
  rw [handleHeaders_disk]
  rcases hs : h.disk with _ | s
  · rfl
  · obtain ⟨hopen, hf⟩ := hdisk s hs
    exact congrArg some (SQLite.scrub_eq hopen hf hplain)

theorem mem_diskRows_handleHeaders {row : Sql.EventRow} :
    row ∈ (h.handleHeaders (sqliteStorage fresh) headers now).2.diskRows ↔
      row ∈ h.diskRows ∧ row.tenantToken ∉ h.scrubKeys headers now := by
  rw [diskRows, diskRows, disk_handleHeaders hdisk hplain]
  rcases h.disk with _ | s
  · simp
  · simp

/-- **The headers remove what is of a key, and only that.** -/
theorem losesTenant_handleHeaders_iff :
    LosesTenant h (h.handleHeaders (sqliteStorage fresh) headers now).2 tenant ↔
      h.HoldsTenant tenant ∧ tenant ∈ h.scrubKeys headers now := by
  unfold LosesTenant HoldsTenant
  simp only [mem_ramRecords_handleHeaders, mem_diskRows_handleHeaders hdisk hplain, not_and,
    not_not]
  constructor
  · rintro (⟨r, hr, hkey, rfl⟩ | ⟨row, hrow, hkey, rfl⟩)
    · exact ⟨Or.inl ⟨r, hr, rfl⟩, hkey hr⟩
    · exact ⟨Or.inr ⟨row, hrow, rfl⟩, hkey hrow⟩
  · rintro ⟨⟨r, hr, rfl⟩ | ⟨row, hrow, rfl⟩, hkey⟩
    · exact Or.inl ⟨r, hr, fun _ => hkey, rfl⟩
    · exact Or.inr ⟨row, hrow, fun _ => hkey, rfl⟩

theorem holdsTenant_handleHeaders_iff :
    (h.handleHeaders (sqliteStorage fresh) headers now).2.HoldsTenant tenant ↔
      h.HoldsTenant tenant ∧ tenant ∉ h.scrubKeys headers now := by
  unfold HoldsTenant
  simp only [mem_ramRecords_handleHeaders, mem_diskRows_handleHeaders hdisk hplain]
  constructor
  · rintro (⟨r, ⟨hr, hkey⟩, rfl⟩ | ⟨row, ⟨hrow, hkey⟩, rfl⟩)
    · exact ⟨Or.inl ⟨r, hr, rfl⟩, hkey⟩
    · exact ⟨Or.inr ⟨row, hrow, rfl⟩, hkey⟩
  · rintro ⟨⟨r, hr, rfl⟩ | ⟨row, hrow, rfl⟩, hkey⟩
    · exact Or.inl ⟨r, ⟨hr, hkey⟩, rfl⟩
    · exact Or.inr ⟨row, ⟨hrow, hkey⟩, rfl⟩

end

/-- A response that cannot be read scrubs nothing. -/
theorem scrubKeys_of_not_readable (hread : ¬ headers.Readable) :
    h.scrubKeys headers now = [] := by
  have hthrow := mt (handleResponse_returns_iff h.killSwitchManager (utcSeconds now) headers).1 hread
  unfold scrubKeys
  split_ifs
  · rfl
  · rcases hres : h.killSwitchManager.handleResponse (utcSeconds now) headers with ⟨e | killed, k⟩
    · rfl
    · rw [hres] at hthrow
      exact absurd ⟨killed, rfl⟩ hthrow

section

variable (hf : ∀ s, h.disk = some s → s.engine.Faithful)
include hf

/-- Neither dealing with the ids brings a tenant in. -/
theorem HoldsTenant.of_deleteNamed
    (ht : (h.deleteNamed (sqliteStorage fresh) ids fromMemory).HoldsTenant tenant) :
    h.HoldsTenant tenant := by
  unfold HoldsTenant ramRecords diskRows deleteNamed at *
  rcases hm : h.memory with _ | m <;> rcases hd : h.disk with _ | s <;>
    rcases fromMemory with _ | _ <;> simp only [hm, hd] at ht
  all_goals first
    | exact ht
    | exact ht.imp_right fun hrow => SQLite.Holds.of_deleteRecords (hf s hd) hrow
    | exact ht.imp_left fun hr => MemoryStorage.Holds.of_deleteRecords hr

theorem HoldsTenant.of_releaseNamed {inc : Bool}
    (ht : (h.releaseNamed (sqliteStorage fresh) ids inc fromMemory).HoldsTenant tenant) :
    h.HoldsTenant tenant := by
  unfold HoldsTenant ramRecords diskRows releaseNamed at *
  rcases hm : h.memory with _ | m <;> rcases hd : h.disk with _ | s <;>
    rcases fromMemory with _ | _ <;> simp only [hm, hd] at ht
  all_goals first
    | exact ht
    | exact ht.imp_right fun hrow => SQLite.Holds.of_releaseRecords (hf s hd) hrow
    | exact ht.imp_left fun hr => MemoryStorage.Holds.of_releaseRecords hr

end

section

variable (hnamed : killTokens headers ≠ []) (hd : seconds (headers.get "kill-duration") = .ok d)
  (hpos : 0 < d)
include hnamed hd hpos

/-- The keys of a response that kills and can be read. -/
theorem mem_scrubKeys_iff (hretry : IsNumeric (headers.get "Retry-After")) :
    tenant ∈ h.scrubKeys headers now ↔
      tenant ∈ killTokens headers ∨ ∃ e, h.killSwitchManager.tokenTime.find? tenant = some e := by
  have hne : headers ≠ [] := by
    rintro rfl
    exact hnamed rfl
  rw [← mem_getTokensList_handleResponse h.killSwitchManager (utcSeconds now) hretry hd hpos, scrubKeys,
    if_neg hne]
  have hkills := handleResponse_kills h.killSwitchManager (utcSeconds now) hretry hd hpos hnamed
  rcases hres : h.killSwitchManager.handleResponse (utcSeconds now) headers with ⟨res, k⟩
  rw [hres] at hkills
  simp only at hkills
  subst hkills
  rfl

variable (hplain : h.Quotes headers)
include hplain

/-- The keys can be quoted if the tenants named and those in the table
can. -/
theorem plainValue_of_mem_scrubKeys : ∀ t ∈ h.scrubKeys headers now, Sql.PlainValue t := by
  intro t ht
  by_cases hread : headers.Readable
  · exact hplain t ((mem_scrubKeys_iff hnamed hd hpos hread.1).1 ht)
  · rw [scrubKeys_of_not_readable hread] at ht
    cases ht

variable (fresh : SQLite) (hdisk : ∀ s, h.disk = some s → s.Opened ∧ s.engine.Faithful)
include hdisk

/-- **The scrub, whatever the call does with the ids behind it**, as long
as that brings no tenant in and is not reached past an exception. -/
theorem scrubExact_iff_nothingStale {after : Handler SQLite}
    (hsub : ∀ t, after.HoldsTenant t →
      (h.handleHeaders (sqliteStorage fresh) headers now).2.HoldsTenant t)
    (hsame : ¬ headers.Readable → after = (h.handleHeaders (sqliteStorage fresh) headers now).2) :
    ScrubExact h (h.handleHeaders (sqliteStorage fresh) headers now).2 after headers now ↔
      NothingStale h headers now := by
  have hplainKeys : ∀ t ∈ h.scrubKeys headers now, Sql.PlainValue t :=
    plainValue_of_mem_scrubKeys hnamed hd hpos hplain
  by_cases hretry : IsNumeric (headers.get "Retry-After")
  · have hkeys : ∀ t, t ∈ h.scrubKeys headers now ↔ t ∈ killTokens headers ∨
        ∃ e, h.killSwitchManager.tokenTime.find? t = some e := fun t =>
      mem_scrubKeys_iff hnamed hd hpos hretry
    simp only [ScrubExact, NothingStale, losesTenant_handleHeaders_iff hdisk hplainKeys, hretry,
      not_true_eq_false, IsEmpty.forall_iff, and_true, forall_const]
    constructor
    · rintro ⟨-, hlost⟩ t e he hle hnot hheld
      rcases hlost t ⟨hheld, (hkeys t).2 (Or.inr ⟨e, he⟩)⟩ with hmem | hlive
      · exact hnot hmem
      · rw [he, live_some] at hlive
        omega
    · intro hstale
      refine ⟨fun t ht hheld => ?_, fun t ht => ?_⟩
      · have hgone := (holdsTenant_handleHeaders_iff hdisk hplainKeys).1 (hsub t hheld)
        exact hgone.2 ((hkeys t).2 (Or.inl ht))
      · obtain ⟨hheld, hkey⟩ := ht
        rcases (hkeys t).1 hkey with hmem | ⟨e, he⟩
        · exact Or.inl hmem
        · by_cases hmem : t ∈ killTokens headers
          · exact Or.inl hmem
          · right
            rw [he, live_some]
            by_contra hle
            exact hstale t e he (by omega) hmem hheld
  · -- the exception comes before the kills are read
    have hread : ¬ headers.Readable := fun h => hretry h.1
    rw [hsame hread]
    simp only [ScrubExact, NothingStale, losesTenant_handleHeaders_iff hdisk hplainKeys,
      holdsTenant_handleHeaders_iff hdisk hplainKeys, scrubKeys_of_not_readable hread, hretry,
      not_mem_nil, and_false, IsEmpty.forall_iff, forall_const, and_true, not_false_eq_true,
      true_and]

/-- The scrub of each call, for tokens that can be quoted. -/
theorem scrubExact_calls (ids : List StorageRecordId) (inc fromMemory : Bool) (now : ℕ) :
    let D := sqliteStorage fresh
    let afterHeaders := (h.handleHeaders D headers now).2
    (h.ScrubExact afterHeaders (h.deleteRecords D ids headers fromMemory now).2 headers now ↔
        h.NothingStale headers now) ∧
      (h.ScrubExact afterHeaders (h.releaseRecords D ids inc headers fromMemory now).2 headers now ↔
        h.NothingStale headers now) := by
  intro D afterHeaders
  have hf : ∀ s, afterHeaders.disk = some s → s.engine.Faithful := by
    intro s hs
    rw [disk_handleHeaders hdisk (plainValue_of_mem_scrubKeys hnamed hd hpos hplain)] at hs
    obtain ⟨s₀, hs₀, rfl⟩ := Option.map_eq_some_iff.1 hs
    exact (hdisk s₀ hs₀).2
  refine ⟨scrubExact_iff_nothingStale hnamed hd hpos hplain fresh hdisk ?_
    fun hread => (deleteRecords_throws hread).2,
    scrubExact_iff_nothingStale hnamed hd hpos hplain fresh hdisk ?_
    fun hread => (releaseRecords_throws hread).2⟩
  · intro t ht
    by_cases hread : headers.Readable
    · rw [deleteRecords_eq_named hread] at ht
      exact ht.of_deleteNamed hf
    · rwa [(deleteRecords_throws hread).2] at ht
  · intro t ht
    by_cases hread : headers.Readable
    · rw [releaseRecords_eq_named hread] at ht
      exact ht.of_releaseNamed hf
    · rwa [(releaseRecords_throws hread).2] at ht

end

end Handler

/-- The response of a server that kills one tenant for a minute. -/
def killOne (token : String) : HttpHeaders := [("kill-duration", "60"), ("kill-tokens", token)]

/-- A handler whose table still has a kill that ended at the tenth second,
over a database with a record of that tenant. -/
def staleHandler : Handler SQLite :=
  { Handler.new (δ := SQLite) 0 false none with
    disk := some (SQLite.openOn SQLite.Engine.sound
      [Sql.EventRow.ofRecord ⟨"a", "old", .normal, .normal, 1, [1], 0, 0⟩])
    killSwitchManager := (KillSwitchManager.empty.handleResponse 0
      [("kill-duration", "10"), ("kill-tokens", "old")]).2 }

end ClientTelemetry
