import ClientTelemetry.Offline.Responses
/-!
# The handler without a RAM queue

With a RAM queue of size 0 the handler passes every call on to its
persistent store. The two are compared call by call: `Handler.call` and
`DiskStorage.call` each give the reply and the state behind it. As long
as no tenant is killed the handler has nothing else to do (`Bare`), and
the replies part in three places: a flush reads a queue that is not
there, headers with an unreadable number end in an exception, and a
record is answered with `true` whatever the store answers (`Mirrored`).
-/

namespace ClientTelemetry

open List

/-! ## Calls and replies -/

/-- The calls that reach both the handler and its store. -/
inductive DiskCall where
  | storeRecord (record : StorageRecord)
  | getAndReserveRecords (consumer : Consumer StorageRecord) (leaseTimeMs : ℕ)
      (minLatency : EventLatency) (maxCount : ℕ)
  | releaseRecords (ids : List StorageRecordId) (incrementRetryCount : Bool)
      (headers : HttpHeaders) (fromMemory : Bool)
  | deleteRecords (ids : List StorageRecordId) (headers : HttpHeaders) (fromMemory : Bool)
  | deleteRecordsWhere (whereFilter : OrdMap String String)
  | flush
  | getRecordCount (latency : EventLatency)
  | shutdown

/-- What a call returns, and for a retrieval the records its consumer was
offered. -/
inductive DiskReply where
  | stored (answer : Bool)
  | retrieved (answer : Bool) (offered : List StorageRecord)
  | counted (count : ℕ)
  | done
  deriving DecidableEq

variable {δ : Type}

/-- A call of the handler at a time. -/
def Handler.call (D : DiskStorage δ) (h : Handler δ) (now : ℕ) :
    DiskCall → Except Fault DiskReply × Handler δ
  | .storeRecord record =>
    let result := h.storeRecord D record now
    (.ok (.stored result.1), result.2)
  | .getAndReserveRecords c leaseTimeMs minLatency maxCount =>
    let result := h.getAndReserveRecords D (asked c.accept) (c.start, []) leaseTimeMs minLatency
      maxCount now
    (.ok (.retrieved result.1 result.2.1.2), result.2.2)
  | .releaseRecords ids incrementRetryCount headers fromMemory =>
    let result := h.releaseRecords D ids incrementRetryCount headers fromMemory now
    (result.1.map fun _ => .done, result.2)
  | .deleteRecords ids headers fromMemory =>
    let result := h.deleteRecords D ids headers fromMemory now
    (result.1.map fun _ => .done, result.2)
  | .deleteRecordsWhere whereFilter => (.ok .done, h.deleteRecordsWhere D whereFilter)
  | .flush =>
    let result := h.flush D now
    (result.1.map fun _ => .done, result.2)
  | .getRecordCount latency => (.ok (.counted (h.getRecordCount D latency)), h)
  | .shutdown => (.ok .done, h.shutdown D now)

/-- The corresponding call of the persistent store. It looks at no headers,
and a flush is nothing to it. -/
def DiskStorage.call (D : DiskStorage δ) (d : δ) (now : ℕ) : DiskCall → DiskReply × δ
  | .storeRecord record =>
    let result := D.storeRecord d record now
    (.stored result.1, result.2)
  | .getAndReserveRecords c leaseTimeMs minLatency maxCount =>
    let result := D.getAndReserveRecords d (asked c.accept) (c.start, []) leaseTimeMs minLatency
      maxCount now
    (.retrieved result.1 result.2.1.2, result.2.2)
  | .releaseRecords ids incrementRetryCount _ _ => (.done, D.releaseRecords d ids incrementRetryCount)
  | .deleteRecords ids _ _ => (.done, D.deleteRecords d ids)
  | .deleteRecordsWhere whereFilter => (.done, D.deleteRecordsWhere d whereFilter)
  | .flush => (.done, d)
  | .getRecordCount latency => (.counted (D.getRecordCount d latency), d)
  | .shutdown => (.done, D.shutdown d)

/-- The replies of the handler to a sequence of calls, and its state then. -/
def Handler.calls (D : DiskStorage δ) (h : Handler δ) :
    List (ℕ × DiskCall) → List (Except Fault DiskReply) × Handler δ
  | [] => ([], h)
  | (now, call) :: rest =>
    let result := h.call D now call
    (result.1 :: (result.2.calls D rest).1, (result.2.calls D rest).2)

/-- Those of the store. -/
def DiskStorage.calls (D : DiskStorage δ) (d : δ) : List (ℕ × DiskCall) → List DiskReply × δ
  | [] => ([], d)
  | (now, call) :: rest =>
    let result := D.call d now call
    (result.1 :: (D.calls result.2 rest).1, (D.calls result.2 rest).2)

/-! ## Headers -/

/-- The headers kill no tenant. -/
def HttpHeaders.KillsNone (headers : HttpHeaders) : Prop := ∀ token, killOf headers token = none

/-- **A response that kills no tenant** leaves the table of kills, and asks
for no scrub. -/
theorem KillSwitchManager.handleResponse_of_killsNone (k : KillSwitchManager) (now : ℤ)
    {headers : HttpHeaders} (hnone : headers.KillsNone) :
    (k.handleResponse now headers).2.tokenTime = k.tokenTime ∧
      (k.handleResponse now headers).1 ≠ .ok true := by
  unfold handleResponse
  cases seconds (headers.get "Retry-After") with
  | error e => exact ⟨rfl, by simp⟩
  | ok retry =>
    dsimp only
    split_ifs with hnames
    · exact ⟨retryAfter_tokenTime k now retry, by simp⟩
    · cases hduration : seconds (headers.get "kill-duration") with
      | error e => exact ⟨retryAfter_tokenTime k now retry, by simp⟩
      | ok duration =>
        dsimp only
        split_ifs with hkills
        · -- a positive duration would kill the first tenant named
          obtain ⟨token, rest, htokens⟩ := exists_cons_of_ne_nil hkills.1
          have hkill := hnone token
          rw [killOf, htokens, if_pos mem_cons_self, hduration] at hkill
          dsimp only at hkill
          rw [if_pos hkills.2] at hkill
          exact absurd hkill (by simp)
        · exact ⟨retryAfter_tokenTime k now retry, by simp⟩

namespace DiskCall

/-- A record may be stored on disk, and headers kill no tenant. -/
def InScope : DiskCall → Prop
  | .storeRecord record => record.persistence ≠ .doNotStoreOnDisk
  | .releaseRecords _ _ headers _ => headers.KillsNone
  | .deleteRecords _ headers _ => headers.KillsNone
  | _ => True

/-- **A call the handler answers as its store does.** -/
def Mirrored (D : DiskStorage δ) (d : δ) (now : ℕ) : DiskCall → Prop
  | .storeRecord record => (D.storeRecord d record now).1 = true
  | .releaseRecords _ _ headers _ => headers.Readable
  | .deleteRecords _ headers _ => headers.Readable
  | .flush => False
  | _ => True

end DiskCall

namespace Handler

variable {D : DiskStorage δ} {h : Handler δ} {d : δ} {now : ℕ}

/-! ## One call -/

/-- **A handler that has only its store.** -/
structure Bare (h : Handler δ) (d : δ) : Prop where
  memory : h.memory = none
  disk : h.disk = some d
  idle : h.flushPending = false
  noKills : h.killSwitchManager.isActive = false

section

variable (hb : h.Bare d)
include hb

/-- **A record** goes to the store, and is accepted. -/
theorem Bare.storeRecord {record : StorageRecord}
    (hdisk : record.persistence ≠ .doNotStoreOnDisk) : (h.storeRecord D record now).1 = true ∧
      (h.storeRecord D record now).2.Bare (D.storeRecord d record now).2 := by
  have hkilled : (if h.shutdownStarted then (false, h) else h.isKilled record now) = (false, h) := by
    unfold isKilled
    rw [hb.noKills]
    split_ifs <;> first | rfl | contradiction
  have hkept : h.storeRecord D record now = (true, h.keepRecord D record now) := by
    unfold Handler.storeRecord
    rw [hkilled]
    rfl
  rw [hkept]
  refine ⟨rfl, ?_, ?_, ?_, ?_⟩
  · rw [keepRecord_memory, hb.memory]
    split_ifs <;> rfl
  · rw [keepRecord_disk, hb.memory, hb.disk, if_neg (by simp [hdisk])]
    rfl
  · unfold keepRecord
    simp only [hb.memory, hb.disk, if_pos hdisk]
    exact hb.idle
  · rw [keepRecord_killSwitch]
    exact hb.noKills

theorem Bare.pingClock : (h.pingClock now).Bare d := by
  unfold Handler.pingClock
  split_ifs
  · exact { hb with }
  · exact hb

/-- **A retrieval** is the store's. -/
theorem Bare.getAndReserveRecords {κ : Type} (c : κ → StorageRecord → Bool × κ) (k : κ)
    (leaseTimeMs : ℕ) (minLatency : EventLatency) (maxCount : ℕ) :
    let result := h.getAndReserveRecords D c k leaseTimeMs minLatency maxCount now
    let read := D.getAndReserveRecords d c k leaseTimeMs minLatency maxCount now
    result.1 = read.1 ∧ result.2.1 = read.2.1 ∧ result.2.2.Bare read.2.2 := by
  intro result read
  have hdisk : { h with lastReadCount := 0, readFromMemory := false }.disk = some d := hb.disk
  have hresult : result = _ := getAndReserveRecords_of_none hb.memory c k leaseTimeMs minLatency maxCount now
  obtain ⟨hanswer, hconsumer⟩ :=
    readDisk_answer_of_some (D := D) hdisk false c k leaseTimeMs minLatency maxCount now
  rw [hresult]
  refine ⟨hanswer.trans (Bool.false_or _), hconsumer, ?_⟩
  rw [readDisk_snd_of_some hdisk]
  refine Bare.pingClock ?_
  split_ifs <;> exact ⟨hb.memory, rfl, hb.idle, hb.noKills⟩

/-- **Headers that kill no tenant** are looked at and forgotten. -/
theorem Bare.handleHeaders {headers : HttpHeaders} (hnone : headers.KillsNone) :
    (h.handleHeaders D headers now).2.Bare d := by
  obtain ⟨htable, hscrub⟩ :=
    h.killSwitchManager.handleResponse_of_killsNone (utcSeconds now) hnone
  have hactive := hb.noKills
  unfold KillSwitchManager.isActive at hactive
  rw [← htable] at hactive
  unfold Handler.handleHeaders
  dsimp only
  by_cases hnil : headers = []
  · rw [if_pos hnil]
    exact { hb with }
  · rw [if_neg hnil]
    generalize h.killSwitchManager.handleResponse (utcSeconds now) headers = response at *
    obtain ⟨_ | _ | _, k⟩ := response
    · exact { hb with noKills := hactive }
    · exact { hb with noKills := hactive }
    · exact absurd rfl hscrub

theorem Bare.deleteNamed (ids : List StorageRecordId) (fromMemory : Bool) :
    (h.deleteNamed D ids fromMemory).Bare (D.deleteRecords d ids) := by
  unfold Handler.deleteNamed
  rw [hb.memory, hb.disk]
  split
  · contradiction
  · exact ⟨rfl, rfl, hb.idle, hb.noKills⟩

theorem Bare.releaseNamed (ids : List StorageRecordId) (inc fromMemory : Bool) :
    (h.releaseNamed D ids inc fromMemory).Bare (D.releaseRecords d ids inc) := by
  unfold Handler.releaseNamed
  rw [hb.memory, hb.disk]
  split
  · contradiction
  · exact ⟨rfl, rfl, hb.idle, hb.noKills⟩

theorem Bare.shutdown : (h.shutdown D now).Bare (D.shutdown d) := by
  unfold Handler.shutdown runScheduledFlush
  simp only [hb.idle, hb.memory, hb.disk, Bool.false_eq_true, if_false]
  exact ⟨rfl, rfl, rfl, hb.noKills⟩

/-- **One call.** The handler replies as its store does exactly if the call
is mirrored, and is then left with the store the call leaves. -/
theorem Bare.call {call : DiskCall} (hscope : call.InScope) :
    ((h.call D now call).1 = .ok (D.call d now call).1 ↔ call.Mirrored D d now) ∧
      (call.Mirrored D d now → (h.call D now call).2.Bare (D.call d now call).2) := by
  cases call with
  | storeRecord record =>
    obtain ⟨haccepted, hbare⟩ := Bare.storeRecord (D := D) hb hscope
    refine ⟨?_, fun _ => hbare⟩
    simp only [Handler.call, DiskStorage.call, DiskCall.Mirrored, haccepted, Except.ok.injEq,
      DiskReply.stored.injEq]
    exact eq_comm
  | getAndReserveRecords c leaseTimeMs minLatency maxCount =>
    obtain ⟨hanswer, hconsumer, hbare⟩ := Bare.getAndReserveRecords (D := D) hb
      (asked c.accept) (c.start, []) leaseTimeMs minLatency maxCount
    refine ⟨iff_of_true ?_ trivial, fun _ => hbare⟩
    simp only [Handler.call, DiskStorage.call, hanswer, hconsumer]
  | releaseRecords ids inc headers fromMemory =>
    simp only [Handler.call, Handler.releaseRecords, DiskStorage.call, DiskCall.Mirrored]
    have hbare : (h.handleHeaders D headers now).2.Bare d := hb.handleHeaders hscope
    rw [← handleHeaders_returns_iff D h headers now]
    generalize h.handleHeaders D headers now = read at hbare ⊢
    obtain ⟨_ | _, h'⟩ := read
    · exact ⟨iff_of_false (by simp [Except.map]) (by simp), fun hread => absurd hread (by simp)⟩
    · exact ⟨iff_of_true rfl rfl, fun _ => hbare.releaseNamed ids inc fromMemory⟩
  | deleteRecords ids headers fromMemory =>
    simp only [Handler.call, Handler.deleteRecords, DiskStorage.call, DiskCall.Mirrored]
    have hbare : (h.handleHeaders D headers now).2.Bare d := hb.handleHeaders hscope
    rw [← handleHeaders_returns_iff D h headers now]
    generalize h.handleHeaders D headers now = read at hbare ⊢
    obtain ⟨_ | _, h'⟩ := read
    · exact ⟨iff_of_false (by simp [Except.map]) (by simp), fun hread => absurd hread (by simp)⟩
    · exact ⟨iff_of_true rfl rfl, fun _ => hbare.deleteNamed ids fromMemory⟩
  | deleteRecordsWhere whereFilter =>
    refine ⟨iff_of_true rfl trivial, fun _ => ⟨?_, ?_, hb.idle, hb.noKills⟩⟩
    · simp only [Handler.call, Handler.deleteRecordsWhere, hb.memory, Option.map_none]
    · simp only [Handler.call, Handler.deleteRecordsWhere, hb.disk, Option.map_some, DiskStorage.call]
  | flush =>
    refine ⟨iff_of_false ?_ id, fun hfalse => absurd hfalse id⟩
    simp only [Handler.call, Handler.flush, hb.memory]
    simp [Except.map]
  | getRecordCount latency =>
    refine ⟨iff_of_true ?_ trivial, fun _ => hb⟩
    simp [Handler.call, DiskStorage.call, Handler.getRecordCount, hb.memory, hb.disk]
  | shutdown => exact ⟨iff_of_true rfl trivial, fun _ => hb.shutdown⟩

/-! ## Runs -/

theorem Bare.calls {calls : List (ℕ × DiskCall)}
    (hscope : ∀ a ∈ calls, a.2.InScope) : ((h.calls D calls).1 = (D.calls d calls).1.map .ok ∧
        (h.calls D calls).2.disk = some (D.calls d calls).2) ↔
      RunMeets (fun d a => a.2.Mirrored D d a.1) (fun d a => (D.call d a.1 a.2).2) d calls := by
  induction calls generalizing h d with
  | nil => exact iff_of_true ⟨rfl, hb.disk⟩ trivial
  | cons a calls ih =>
    obtain ⟨now, call⟩ := a
    obtain ⟨hreply, hstate⟩ : ((h.call D now call).1 = .ok (D.call d now call).1 ↔ _) ∧ _ :=
      hb.call (hscope _ mem_cons_self)
    rw [runMeets_cons]
    simp only [Handler.calls, DiskStorage.calls, map_cons, List.cons.injEq]
    -- a first reply that differs ends the comparison, one that agrees hands it on
    rw [and_assoc, hreply]
    refine and_congr_right fun hmirrored => ?_
    exact ih (hstate hmirrored) fun a ha => hscope a (mem_cons_of_mem _ ha)

end

/-- A store over a database that is open and sound. -/
def soundStorage : DiskStorage SQLite := sqliteStorage (SQLite.openOn SQLite.Engine.sound [])

/-- A consumer that takes everything. -/
def takesAll : Consumer StorageRecord where
  State := Unit
  start := ()
  accept _ _ := (true, ())

/-- A record is stored, retrieved, released with a response, retrieved
again and deleted. -/
def roundCalls : List (ℕ × DiskCall) :=
  [(5000, .storeRecord ⟨"a", "t", .normal, .normal, 1, [1], 0, 0⟩),
    (6000, .getAndReserveRecords takesAll 1000 .normal 0),
    (6500, .releaseRecords ["a"] false [("Retry-After", "60")] true),
    (7000, .getAndReserveRecords takesAll 1000 .normal 0),
    (7500, .deleteRecords ["a"] [] false),
    (8000, .getRecordCount .normal), (9000, .shutdown)]

theorem roundCalls_inScope : ∀ a ∈ roundCalls, a.2.InScope := by
  intro a ha
  simp only [roundCalls, mem_cons, not_mem_nil, or_false] at ha
  rcases ha with rfl | rfl | rfl | rfl | rfl | rfl | rfl
  · exact fun hnot => nomatch hnot
  · trivial
  · exact fun _ => rfl
  · trivial
  · exact fun _ => rfl
  · trivial
  · trivial

/-- A handler without a RAM queue over that store. -/
def bareHandler : Handler SQLite := ((Handler.new 0 true none).initializeStorage soundStorage).2

end Handler

end ClientTelemetry
