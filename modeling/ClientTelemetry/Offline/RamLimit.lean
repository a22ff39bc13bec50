import ClientTelemetry.Offline.Helpers.Handler
import ClientTelemetry.Common.Run
/-!
# The limit of the RAM queue

`StoreRecord` compares the size of the RAM queue with a `static` copy of
the configured limit, cut to 32 bits. The first record that passes the
kill switch anywhere in the process sets it, for all the handlers. A flush
is left pending by the limit of that handler, and by a handler's own limit
exactly if the size does not lie between the two
(`flush_by_own_limit_iff`).
-/

namespace ClientTelemetry

namespace Handler

variable {δ κ : Type} {D : DiskStorage δ} {h : Handler δ} {now : ℕ} {record : StorageRecord}

/-- The configured limit of the RAM queue, and the one in use. -/
def limits (h : Handler δ) : ℕ × Option ℕ := (h.ramLimit, h.cacheMemorySizeLimit)

/-- The limit is in use from now on, unless another is. -/
def settle (l : ℕ × Option ℕ) : ℕ × Option ℕ := (l.1, some (l.2.getD l.1))

theorem SameSettings.limits {h' : Handler δ} (hs : SameSettings h h') : h'.limits = h.limits :=
  Prod.ext (congrArg (· % 2 ^ 32) hs.ramQueueSize) hs.cacheMemorySizeLimit

/-- **A record that is kept** settles the limit. -/
theorem limits_keepRecord :
    (h.keepRecord D record now).limits = settle h.limits := by
  unfold keepRecord
  dsimp only
  split
  · rfl
  · split
    · rfl
    · split_ifs <;> rfl

theorem limits_isKilled : (h.isKilled record now).2.limits = h.limits := by
  unfold isKilled
  split_ifs <;> rfl

/-- What `StoreRecord` does with a record, unless a shutdown has started. -/
theorem storeRecord_of_running (hrunning : h.shutdownStarted = false) (record : StorageRecord) :
    h.storeRecord D record now =
      if (h.isKilled record now).1 then (false, (h.isKilled record now).2)
      else (true, (h.isKilled record now).2.keepRecord D record now) := by
  unfold storeRecord
  rw [hrunning]
  rfl

/-- The limits of one handler as another call leaves them. -/
def Settles (l l' : ℕ × Option ℕ) : Prop := l' = l ∨ l' = settle l

theorem Settles.trans {l l' l'' : ℕ × Option ℕ} (h : Settles l l') (h' : Settles l' l'') :
    Settles l l'' := by
  rcases h with rfl | rfl
  · exact h'
  · -- what is settled stays settled
    exact .inr (h'.elim id id)

theorem limits_storeRecord :
    Settles h.limits (h.storeRecord D record now).2.limits := by
  cases hstarted : h.shutdownStarted with
  | false =>
    rw [storeRecord_of_running hstarted]
    split_ifs
    · exact .inl limits_isKilled
    · exact .inr (limits_keepRecord.trans (congrArg settle limits_isKilled))
  | true =>
    unfold storeRecord
    rw [hstarted]
    exact .inr limits_keepRecord

theorem limits_storeRecords {records : List StorageRecord} :
    Settles h.limits (h.storeRecords D records now).2.limits := by
  unfold storeRecords
  generalize 0 = count
  induction records generalizing h count with
  | nil => exact .inl rfl
  | cons record records ih => exact limits_storeRecord.trans (ih _)

theorem limits_handleHeaders {headers : HttpHeaders} :
    (h.handleHeaders D headers now).2.limits = h.limits := by
  unfold handleHeaders
  dsimp only
  by_cases hnil : headers = []
  · rw [if_pos hnil]
    rfl
  · rw [if_neg hnil]
    rcases h.killSwitchManager.handleResponse (utcSeconds now) headers with ⟨_ | killed, k⟩
    · rfl
    · rcases killed with _ | _
      · rfl
      · exact deleteRecordsByKeys_settings.limits

/-- **What a call does to the limits**: nothing, or it settles them. -/
theorem limits_step (a : ℕ × HandlerOp) : Settles h.limits (h.step D a).limits := by
  obtain ⟨now, op⟩ := a
  cases op with
  | initializeStorage => exact .inl initializeStorage_settings.limits
  | storeRecord record => exact limits_storeRecord
  | storeRecords records => exact limits_storeRecords
  | getAndReserveRecords c leaseTimeMs minLatency maxCount =>
    exact .inl getAndReserveRecords_settings.limits
  | deleteRecords ids headers fromMemory =>
    exact .inl (deleteRecords_settings.limits.trans limits_handleHeaders)
  | releaseRecords ids inc headers fromMemory =>
    exact .inl (releaseRecords_settings.limits.trans limits_handleHeaders)
  | deleteRecordsWhere whereFilter | deleteAllRecords => exact .inl rfl
  | flush => exact .inl flush_settings.limits
  | runScheduledFlush => exact .inl runScheduledFlush_settings.limits
  | shutdown => exact .inl shutdown_settings.limits

/-- **A record that is accepted** while nothing is shut down leaves a flush
pending if the queue held more than the limit in use. -/
theorem flushPending_storeRecord {m : MemoryStorage} (hmemory : h.memory = some m)
    (hrunning : h.shutdownStarted = false) (hnone : h.flushPending = false)
    (haccepted : (h.storeRecord D record now).1 = true) :
    (h.storeRecord D record now).2.flushPending = true ↔
      h.cacheMemorySizeLimit.getD h.ramLimit < m.size := by
  have hkilled : ∃ k, (h.isKilled record now).2 = { h with killSwitchManager := k } := by
    unfold isKilled
    split_ifs
    · exact ⟨_, rfl⟩
    · exact ⟨_, rfl⟩
  obtain ⟨k, hk⟩ := hkilled
  rw [storeRecord_of_running hrunning] at haccepted ⊢
  have halive : ¬(h.isKilled record now).1 = true := by
    intro hdead
    rw [if_pos hdead] at haccepted
    cases haccepted
  rw [if_neg halive, hk]
  unfold keepRecord
  dsimp only
  rw [hmemory, hrunning, hnone]
  exact decide_eq_true_iff

end Handler

namespace Handlers

variable {ι δ : Type} [DecidableEq ι] {D : DiskStorage δ} {s : Handlers ι δ} {ramQueueSize : ι → ℕ}

/-- **The invariant**: the limits are configured, and the one in use is
that of some handler. -/
structure Shares (ramQueueSize : ι → ℕ) (s : Handlers ι δ) : Prop where
  configured : ∀ i, (s.handlers i).ramLimit = ramQueueSize i % 2 ^ 32
  limit : ∀ limit, s.cacheMemorySizeLimit = some limit → ∃ j, limit = ramQueueSize j % 2 ^ 32

theorem Shares.step (h : s.Shares ramQueueSize) (a : ι × ℕ × HandlerOp) :
    (s.step D a).Shares ramQueueSize := by
  obtain ⟨i, a⟩ := a
  have hlimits : Handler.Settles (ramQueueSize i % 2 ^ 32, s.cacheMemorySizeLimit)
      ((s.view i).step D a).limits := by
    have hview : (s.view i).limits = (ramQueueSize i % 2 ^ 32, s.cacheMemorySizeLimit) :=
      congrArg (·, s.cacheMemorySizeLimit) (h.configured i)
    rw [← hview]
    exact Handler.limits_step a
  refine ⟨fun j => ?_, fun limit hlimit => ?_⟩
  · by_cases hji : j = i
    · subst hji
      have hself : (s.step D (j, a)).handlers j = (s.view j).step D a := Function.update_self ..
      rw [hself]
      rcases hlimits with hsame | hsettled
      · exact congrArg Prod.fst hsame
      · exact congrArg Prod.fst hsettled
    · have hother : (s.step D (i, a)).handlers j = s.handlers j := Function.update_of_ne hji ..
      rw [hother]
      exact h.configured j
  · rcases hlimits with hsame | hsettled
    · exact h.limit limit ((congrArg Prod.snd hsame).symm.trans hlimit)
    · have hvalue : some (s.cacheMemorySizeLimit.getD (ramQueueSize i % 2 ^ 32)) = some limit :=
        (congrArg Prod.snd hsettled).symm.trans hlimit
      cases hbefore : s.cacheMemorySizeLimit with
      | none =>
        rw [hbefore] at hvalue
        exact ⟨i, (Option.some.inj hvalue).symm⟩
      | some before =>
        rw [hbefore] at hvalue
        exact h.limit limit (hbefore.trans hvalue)

omit [DecidableEq ι] in
/-- The limit in use, or to be used, is one that is configured. -/
theorem Shares.exists_limit (h : s.Shares ramQueueSize) (i : ι) :
    ∃ j, s.cacheMemorySizeLimit.getD (ramQueueSize i % 2 ^ 32) = ramQueueSize j % 2 ^ 32 := by
  cases hlimit : s.cacheMemorySizeLimit with
  | none => exact ⟨i, rfl⟩
  | some limit => exact h.limit limit hlimit

/-- **When a handler flushes by its own limit.** For any handlers in one
process, and any run of calls of them: let a record be accepted by a
handler that is not shut down and has no flush pending. A flush is left
pending exactly if the RAM queue held more than the handler's own limit,
if and only if the limit in use in the process, which is that of some
handler in 32 bits, gives the same answer. It does if all the limits are
equal and fit. -/
theorem flush_by_own_limit_iff (D : DiskStorage δ) (ramQueueSize : ι → ℕ)
    (clockSkewEnabled : ι → Bool) (as : List (ι × ℕ × HandlerOp)) (i : ι) (record : StorageRecord)
    (now : ℕ) (m : MemoryStorage) :
    let s := run (step D) (new ramQueueSize clockSkewEnabled) as
    let s' := s.step D (i, now, .storeRecord record)
    let limit := s.cacheMemorySizeLimit.getD (ramQueueSize i % 2 ^ 32)
    (s.handlers i).memory = some m → (s.handlers i).shutdownStarted = false →
    (s.handlers i).flushPending = false → ((s.view i).storeRecord D record now).1 = true →
    (∃ j, limit = ramQueueSize j % 2 ^ 32) ∧
    (((s'.handlers i).flushPending = true ↔ ramQueueSize i < m.size) ↔
      (limit < m.size ↔ ramQueueSize i < m.size)) ∧
    ((∀ j, ramQueueSize j = ramQueueSize i) → ramQueueSize i < 2 ^ 32 →
      ((s'.handlers i).flushPending = true ↔ ramQueueSize i < m.size)) := by
  intro s s' limit hmemory hrunning hnone haccepted
  have hshares : s.Shares ramQueueSize :=
    run_preserves (fun s a h => h.step a) ⟨fun _ => rfl, fun _ => nofun⟩ as
  have hself : s'.handlers i = ((s.view i).storeRecord D record now).2 := Function.update_self ..
  have hpending : (s'.handlers i).flushPending = true ↔ limit < m.size := by
    show _ ↔ s.cacheMemorySizeLimit.getD (ramQueueSize i % 2 ^ 32) < m.size
    rw [hself, ← hshares.configured i]
    exact Handler.flushPending_storeRecord (h := s.view i) hmemory hrunning hnone haccepted
  obtain ⟨j, hlimit⟩ := hshares.exists_limit i
  refine ⟨⟨j, hlimit⟩, by rw [hpending], fun hequal hfits => hpending.trans ?_⟩
  have hown : limit = ramQueueSize i :=
    hlimit.trans ((hequal j).symm ▸ Nat.mod_eq_of_lt hfits)
  rw [hown]

/-- Handlers over a database that works. -/
def overSound : DiskStorage SQLite := sqliteStorage (SQLite.openOn SQLite.Engine.sound [])

/-- A record of a tenant. -/
def sample (id : StorageRecordId) : StorageRecord := ⟨id, "tenant", .normal, .normal, 1, [], 0, 0⟩

/-- Both handlers are initialised; the first stores a record before the
second. -/
def firstThenSecond : List (Bool × ℕ × HandlerOp) :=
  [(false, 0, .initializeStorage), (true, 0, .initializeStorage),
    (false, 1, .storeRecord (sample "a")), (true, 2, .storeRecord (sample "b"))]

theorem flush_by_own_limit_iff_equal :
    let s := run (step overSound) (new (fun _ : Bool => 1) fun _ => false) firstThenSecond
    ((s.step overSound (true, 3, .storeRecord (sample "c"))).handlers true).flushPending = true := by
  refine ((flush_by_own_limit_iff overSound (fun _ => 1) (fun _ => false) firstThenSecond true
    (sample "c") 3 (MemoryStorage.empty.storeRecord (sample "b")).2 ?_ ?_ ?_ ?_).2.2 ?_ ?_).2 ?_
  · rfl
  · rfl
  · rfl
  · rfl
  · exact fun _ => rfl
  · decide
  · decide

/-- **A handler that flushes by the limit of another.** The second handler
is configured for one byte and holds more, but no flush is pending: the
limit in use is the megabyte of the first. -/
theorem flush_by_other_limit :
    let s := run (step overSound) (new (fun i : Bool => if i then 1 else 1048576) fun _ => false)
      firstThenSecond
    (s.handlers true).memory.map MemoryStorage.size = some (sample "b").queueSize ∧
      1 < (sample "b").queueSize ∧ (s.handlers true).shutdownStarted = false ∧
      (s.handlers true).flushPending = false ∧
      ((s.view true).storeRecord overSound (sample "c") 3).1 = true ∧
      ((s.step overSound (true, 3, .storeRecord (sample "c"))).handlers true).flushPending = false :=
  ⟨rfl, by decide, rfl, rfl, rfl, rfl⟩

end Handlers

end ClientTelemetry
