import ClientTelemetry.Common.Expiry
import ClientTelemetry.Common.Run
import ClientTelemetry.Offline.Helpers.Handler
/-!
# What the kill switch rejects

The kill switch as a function of the responses received: `lastKill` is
the end of a tenant's most recent kill, `lastRetryAfter` that of the
most recent retry-after window. The manager's table is purged lazily,
and tracks both (`KillTracks`, kept by every call of the handler). What
`StoreRecord` rejects is read off the two deadlines
(`storeRecord_rejects_iff`): a tenant whose own kill runs, and every
tenant while a retry-after window runs and the table is not empty.
-/

namespace ClientTelemetry

open List

variable (history : List (ℕ × HttpHeaders))

/-! ## The history of responses -/

/-- A header that is absent or numeric. -/
def IsNumeric (text : String) : Prop := ∃ n, KillSwitchManager.seconds text = .ok n

/-- The two numeric headers of a response can be read. -/
def HttpHeaders.Numeric (headers : HttpHeaders) : Prop :=
  IsNumeric (headers.get "Retry-After") ∧ IsNumeric (headers.get "kill-duration")

/-- The duration for which a response kills a tenant. -/
def killOf (headers : HttpHeaders) (token : String) : Option ℤ :=
  if token ∈ KillSwitchManager.killTokens headers then
    match KillSwitchManager.seconds (headers.get "kill-duration") with
    | .ok duration => if 0 < duration then some duration else none
    | .error _ => none
  else none

/-- The retry-after window a response opens. -/
def retryAfterOf (headers : HttpHeaders) : Option ℤ :=
  match KillSwitchManager.seconds (headers.get "Retry-After") with
  | .ok timeInSecs => if 0 < timeInSecs then some timeInSecs else none
  | .error _ => none

/-- The deadline after one more response that may set it. -/
def nextDeadline (last : Option ℤ) (now : ℤ) (duration : Option ℤ) : Option ℤ :=
  match duration with
  | some d => some (now + d)
  | none => last

/-- **The second at which a tenant's most recent kill ends.** -/
def lastKill (token : String) : Option ℤ :=
  history.foldl (fun last ev => nextDeadline last (utcSeconds ev.1) (killOf ev.2 token)) none

/-- **The second at which the most recent retry-after window ends.** -/
def lastRetryAfter : Option ℤ :=
  history.foldl (fun last ev => nextDeadline last (utcSeconds ev.1) (retryAfterOf ev.2)) none

theorem lastKill_append (now : ℕ) (headers : HttpHeaders)
    (token : String) : lastKill (history ++ [(now, headers)]) token =
      nextDeadline (lastKill history token) (utcSeconds now) (killOf headers token) := by
  simp [lastKill]

theorem lastRetryAfter_append (now : ℕ)
    (headers : HttpHeaders) : lastRetryAfter (history ++ [(now, headers)]) =
      nextDeadline (lastRetryAfter history) (utcSeconds now) (retryAfterOf headers) := by
  simp [lastRetryAfter]

/-- The headers a call hands to the kill switch. -/
def HandlerOp.headers? : HandlerOp → Option HttpHeaders
  | .deleteRecords _ headers _ => some headers
  | .releaseRecords _ _ headers _ => some headers
  | _ => none

/-- The responses of a run, with the times they arrived. -/
def responses (as : List (ℕ × HandlerOp)) : List (ℕ × HttpHeaders) :=
  as.filterMap fun a => a.2.headers?.map (a.1, ·)

/-! ## The manager -/

namespace KillSwitchManager

variable {k : KillSwitchManager} {now : ℤ} {headers : HttpHeaders} {duration : ℤ}

/-- The retry-after deadline the manager holds. -/
def retryDeadline (k : KillSwitchManager) : Option ℤ :=
  if k.isRetryAfterActive then some k.retryAfterExpiryTime else none

theorem find?_foldl_addToken (hd : 0 < duration) (tokens : List String) (t : String) :
    (tokens.foldl (fun k t => k.addToken now t duration) k).tokenTime.find? t =
      if t ∈ tokens then some (now + duration) else k.tokenTime.find? t := by
  induction tokens generalizing k with
  | nil => simp
  | cons t' tokens ih =>
    rw [foldl_cons, ih, addToken, if_pos hd, OrdMap.find?_insert]
    by_cases hmem : t ∈ tokens
    · simp [hmem]
    · by_cases ht : t = t' <;> simp [hmem, ht]

theorem retryDeadline_foldl_addToken (tokens : List String) :
    (tokens.foldl (fun k t => k.addToken now t duration) k).retryDeadline = k.retryDeadline := by
  induction tokens generalizing k with
  | nil => rfl
  | cons t' tokens ih =>
    rw [foldl_cons, ih]
    unfold addToken
    split_ifs <;> rfl

@[simp] theorem retryAfter_tokenTime (k : KillSwitchManager) (now timeInSecs : ℤ) :
    (k.retryAfter now timeInSecs).tokenTime = k.tokenTime := by
  unfold retryAfter
  split_ifs <;> rfl

theorem retryAfter_retryDeadline (k : KillSwitchManager) (now timeInSecs : ℤ) :
    (k.retryAfter now timeInSecs).retryDeadline =
      if 0 < timeInSecs then some (now + timeInSecs) else k.retryDeadline := by
  unfold retryAfter
  split_ifs <;> simp [retryDeadline]

theorem mem_killTokens_imp {t : String} (h : t ∈ killTokens headers) :
    headers.equalRange "kill-tokens" ≠ [] := by
  intro hnil
  rw [killTokens, hnil] at h
  cases h

/-- **What a readable response does to the two deadlines.** -/
theorem handleResponse_spec (k : KillSwitchManager) (now : ℤ) (hnum : headers.Numeric) :
    (∃ newTokenKilled, (k.handleResponse now headers).1 = .ok newTokenKilled) ∧
    (∀ t, (k.handleResponse now headers).2.tokenTime.find? t =
      nextDeadline (k.tokenTime.find? t) now (killOf headers t)) ∧
    (k.handleResponse now headers).2.retryDeadline =
      nextDeadline k.retryDeadline now (retryAfterOf headers) := by
  obtain ⟨⟨retry, hretry⟩, ⟨duration, hduration⟩⟩ := hnum
  have hdead : (k.retryAfter now retry).retryDeadline =
      nextDeadline k.retryDeadline now (retryAfterOf headers) := by
    rw [retryAfter_retryDeadline, retryAfterOf, hretry]
    dsimp only
    split_ifs <;> rfl
  rw [handleResponse, hretry]
  dsimp only
  by_cases hnone : headers.equalRange "kill-tokens" = []
  · have hkill : ∀ t, killOf headers t = none := by
      intro t
      rw [killOf, if_neg fun hmem => mem_killTokens_imp hmem hnone]
    rw [if_pos hnone]
    exact ⟨⟨false, rfl⟩, fun t => by simp [hkill, nextDeadline], hdead⟩
  · rw [if_neg hnone, hduration]
    dsimp only
    have hkill : ∀ t, killOf headers t =
        if t ∈ killTokens headers then if 0 < duration then some duration else none else none := by
      intro t
      rw [killOf, hduration]
    split_ifs with hpos
    · refine ⟨⟨true, rfl⟩, fun t => ?_, by rw [retryDeadline_foldl_addToken, hdead]⟩
      rw [find?_foldl_addToken hpos.2, retryAfter_tokenTime, hkill, if_pos hpos.2]
      split_ifs <;> rfl
    · -- nothing is named, or the duration is not positive
      refine ⟨⟨false, rfl⟩, fun t => ?_, hdead⟩
      have hno : killOf headers t = none := by
        rw [hkill]
        split_ifs with hmem hd
        · exact absurd ⟨ne_nil_of_mem hmem, hd⟩ hpos
        · rfl
        · rfl
      rw [retryAfter_tokenTime, hno]
      rfl

/-- **What the test blocks**: everything while a retry-after window runs,
and otherwise a token whose deadline is ahead. -/
theorem isTokenBlocked_iff (t : String) : (k.isTokenBlocked now t).1 = true ↔
      Live k.retryDeadline now ∨ Live (k.tokenTime.find? t) now := by
  unfold isTokenBlocked retryDeadline
  rcases hactive : k.isRetryAfterActive with _ | _
  · rcases hf : k.tokenTime.find? t with _ | e
    · simp [hf]
    · by_cases hlt : now < e <;> simp [hf, hlt]
  · by_cases hopen : now < k.retryAfterExpiryTime
    · simp [hopen]
    · rcases hf : k.tokenTime.find? t with _ | e
      · simp [hopen, hf, expireRetryAfter]
      · by_cases hlt : now < e <;> simp [hopen, hf, hlt, expireRetryAfter]

end KillSwitchManager

/-- **The manager tracks the history.** -/
structure KillTracks (k : KillSwitchManager) (history : List (ℕ × HttpHeaders)) (now : ℤ) :
    Prop where
  token : ∀ t, Tracks (k.tokenTime.find? t) (lastKill history t) now
  retry : Tracks k.retryDeadline (lastRetryAfter history) now

namespace KillTracks

variable {k : KillSwitchManager} {history : List (ℕ × HttpHeaders)} {now : ℕ} {s s' : ℤ}

theorem mono (h : KillTracks k history s) (hle : s ≤ s') : KillTracks k history s' :=
  ⟨fun t => (h.token t).mono hle, h.retry.mono hle⟩

/-- A deadline that is set, or left as it was, still tracks. -/
theorem tracks_next {stored set : Option ℤ} (h : Tracks stored set s) (now : ℤ) (d : Option ℤ) :
    Tracks (nextDeadline stored now d) (nextDeadline set now d) s := by
  rcases d with _ | d
  · exact h
  · exact Tracks.refl _ _

variable (h : KillTracks k history s)
include h

/-- A readable response. -/
theorem handleResponse {headers : HttpHeaders}
    (hnum : headers.Numeric) :
    KillTracks (k.handleResponse (utcSeconds now) headers).2 (history ++ [(now, headers)]) s := by
  obtain ⟨-, htoken, hretry⟩ :=
    KillSwitchManager.handleResponse_spec k (utcSeconds now) hnum
  refine ⟨fun t => ?_, ?_⟩
  · rw [htoken, lastKill_append]
    exact tracks_next (h.token t) _ _
  · rw [hretry, lastRetryAfter_append]
    exact tracks_next h.retry _ _

/-- The look at one token's entry, which is purged when it has run out. -/
theorem purgeToken (t : String) :
    KillTracks (match k.tokenTime.find? t with
      | none => (false, k)
      | some timeStamp =>
        if s < timeStamp then (true, k)
        else (false, { k with tokenTime := k.tokenTime.erase t })).2 history s := by
  rcases hf : k.tokenTime.find? t with _ | e
  · exact h
  · dsimp only
    split_ifs with hlt
    · exact h
    · refine ⟨fun t' => ?_, h.retry⟩
      show Tracks ((k.tokenTime.erase t).find? t') _ _
      rw [OrdMap.find?_erase]
      split_ifs with ht
      · subst ht
        refine (h.token t').purge ?_
        rw [hf, live_some]
        exact hlt
      · exact h.token t'

/-- A test purges only what has run out. -/
theorem isTokenBlocked (t : String) :
    KillTracks (k.isTokenBlocked s t).2 history s := by
  unfold KillSwitchManager.isTokenBlocked
  split_ifs with hopen hactive
  · exact h
  · -- the window has run out
    have hretry : Tracks k.expireRetryAfter.retryDeadline (lastRetryAfter history) s := by
      refine h.retry.purge ?_
      rw [KillSwitchManager.retryDeadline, if_pos hactive, live_some]
      exact fun hlt => hopen ⟨hactive, hlt⟩
    have hexp : KillTracks k.expireRetryAfter history s := ⟨h.token, hretry⟩
    exact purgeToken hexp t
  · exact purgeToken h t

end KillTracks

/-! ## The handler -/

namespace Handler

variable {δ : Type} {D : DiskStorage δ} {h : Handler δ} {history : List (ℕ × HttpHeaders)} {now : ℕ}

section

variable (ht : KillTracks h.killSwitchManager history (utcSeconds now))
include ht

theorem isKilled_tracks
    (record : StorageRecord) :
    KillTracks (h.isKilled record now).2.killSwitchManager history (utcSeconds now) := by
  unfold isKilled
  split_ifs
  · exact ht.isTokenBlocked _
  · exact ht

theorem storeRecord_tracks
    (record : StorageRecord) :
    KillTracks (h.storeRecord D record now).2.killSwitchManager history (utcSeconds now) := by
  unfold storeRecord
  rcases h.shutdownStarted with _ | _
  · have hk := isKilled_tracks ht record
    rcases hres : h.isKilled record now with ⟨_ | _, h'⟩
    · rw [hres] at hk
      simpa [hres, keepRecord_killSwitch] using hk
    · rw [hres] at hk
      simpa [hres] using hk
  · simpa [keepRecord_killSwitch] using ht

theorem storeRecords_tracks
    (records : List StorageRecord) :
    KillTracks (h.storeRecords D records now).2.killSwitchManager history (utcSeconds now) := by
  unfold storeRecords
  refine List.foldlRecOn records _ (motive := fun acc : ℕ × Handler δ =>
    KillTracks acc.2.killSwitchManager history (utcSeconds now)) ht ?_
  intro acc hacc r _
  exact storeRecord_tracks hacc r

theorem handleHeaders_tracks
    {headers : HttpHeaders} (hnum : headers.Numeric) :
    KillTracks (h.handleHeaders D headers now).2.killSwitchManager
      (history ++ [(now, headers)]) (utcSeconds now) := by
  rw [handleHeaders_killSwitch]
  split_ifs with hnil
  · -- no header names nothing
    have hkill : ∀ t, killOf headers t = none := by
      intro t
      rw [hnil]
      rfl
    have hretry : retryAfterOf headers = none := by
      rw [hnil]
      rfl
    refine ⟨fun t => ?_, ?_⟩
    · rw [lastKill_append, hkill]
      exact ht.token t
    · rw [lastRetryAfter_append, hretry]
      exact ht.retry
  · exact ht.handleResponse hnum

end

/-- **Every call keeps the kill switch on the track of the history.** -/
theorem step_tracks (op : HandlerOp) (ht : KillTracks h.killSwitchManager history (utcSeconds now))
    (hnum : ∀ headers, op.headers? = some headers → headers.Numeric) :
    KillTracks (h.step D (now, op)).killSwitchManager
      (history ++ responses [(now, op)]) (utcSeconds now) := by
  unfold step
  cases op with
  | initializeStorage =>
    simpa [responses, HandlerOp.headers?, initializeStorage_settings.killSwitchManager] using ht
  | storeRecord record =>
    simpa [responses, HandlerOp.headers?] using storeRecord_tracks ht record
  | storeRecords records =>
    simpa [responses, HandlerOp.headers?] using storeRecords_tracks ht records
  | getAndReserveRecords c leaseTimeMs minLatency maxCount =>
    simpa [responses, HandlerOp.headers?, getAndReserveRecords_settings.killSwitchManager] using ht
  | deleteRecords ids headers fromMemory =>
    simpa [responses, HandlerOp.headers?, deleteRecords_settings.killSwitchManager] using
      handleHeaders_tracks ht (hnum headers rfl)
  | releaseRecords ids inc headers fromMemory =>
    simpa [responses, HandlerOp.headers?, releaseRecords_settings.killSwitchManager] using
      handleHeaders_tracks ht (hnum headers rfl)
  | deleteRecordsWhere whereFilter =>
    simpa [responses, HandlerOp.headers?, Handler.deleteRecordsWhere] using ht
  | deleteAllRecords => simpa [responses, HandlerOp.headers?, Handler.deleteAllRecords] using ht
  | flush => simpa [responses, HandlerOp.headers?, flush_settings.killSwitchManager] using ht
  | runScheduledFlush =>
    simpa [responses, HandlerOp.headers?, runScheduledFlush_settings.killSwitchManager] using ht
  | shutdown => simpa [responses, HandlerOp.headers?, shutdown_settings.killSwitchManager] using ht

/-- Seconds follow the clock. -/
theorem utcSeconds_mono {a b : ℕ} (h : a ≤ b) : (utcSeconds a : ℤ) ≤ utcSeconds b := by
  unfold utcSeconds
  omega

/-- **A run under a clock that does not go back** keeps the kill switch
on the track of its responses. -/
theorem run_tracks (as : List (ℕ × HandlerOp)) {start : ℕ}
    (ht : KillTracks h.killSwitchManager history (utcSeconds start))
    (hstart : ∀ a ∈ as, start ≤ a.1) (hclock : (as.map Prod.fst).Pairwise (· ≤ ·))
    (hnum : ∀ ev ∈ responses as, ev.2.Numeric) (hsn : start ≤ now) (hnow : ∀ a ∈ as, a.1 ≤ now) :
    KillTracks (run (step D) h as).killSwitchManager (history ++ responses as) (utcSeconds now) := by
  induction as generalizing h history start with
  | nil => simpa [responses] using ht.mono (utcSeconds_mono hsn)
  | cons a as ih =>
    obtain ⟨time, op⟩ := a
    rw [map_cons, pairwise_cons] at hclock
    have hresp : responses ((time, op) :: as) = responses [(time, op)] ++ responses as := by
      rw [responses, responses, responses, ← filterMap_append]
      rfl
    have hop : ∀ headers, op.headers? = some headers → headers.Numeric := by
      intro headers hh
      refine hnum (time, headers) ?_
      simp [responses, hh]
    -- the invariant is carried from the time of one call to that of the next
    have hstep := step_tracks (D := D) op
      (ht.mono (utcSeconds_mono (hstart _ mem_cons_self))) hop
    rw [run_cons, hresp, ← append_assoc]
    refine ih hstep (fun b hb => hclock.1 _ (mem_map_of_mem hb)) hclock.2 ?_
      (hnow _ mem_cons_self) fun b hb => hnow b (mem_cons_of_mem _ hb)
    intro ev hev
    refine hnum ev ?_
    rw [hresp]
    exact mem_append_right _ hev

/-- A rejection is a live deadline, of the tenant or of the window. -/
theorem storeRecord_eq_false_iff (hrun : h.shutdownStarted = false) (record : StorageRecord) :
    (h.storeRecord D record now).1 = false ↔ h.killSwitchManager.isActive = true ∧
      (Live h.killSwitchManager.retryDeadline (utcSeconds now) ∨
        Live (h.killSwitchManager.tokenTime.find? record.tenantToken) (utcSeconds now)) := by
  rw [← KillSwitchManager.isTokenBlocked_iff]
  unfold storeRecord isKilled
  rw [hrun]
  rcases h.killSwitchManager.isActive with _ | _
  · simp
  · rcases hb : h.killSwitchManager.isTokenBlocked (utcSeconds now) record.tenantToken with
      ⟨_ | _, k⟩
    · simp
    · simp

end Handler

/-- A table with a live entry is not empty. -/
theorem KillSwitchManager.isActive_of_live {k : KillSwitchManager} {t : String} {now : ℤ}
    (h : Live (k.tokenTime.find? t) now) : k.isActive = true := by
  obtain ⟨e, he, -⟩ := h
  have hmem := OrdMap.find?_eq_some.1 he
  simpa [isActive] using ne_nil_of_mem hmem

theorem killTracks_new {δ : Type} (ramQueueSize : ℕ) (clockSkewEnabled : Bool)
    (cacheMemorySizeLimit : Option ℕ) (now : ℤ) :
    KillTracks (Handler.new (δ := δ) ramQueueSize clockSkewEnabled
      cacheMemorySizeLimit).killSwitchManager [] now :=
  ⟨fun _ => Or.inl rfl, Or.inl rfl⟩

/-- **What `StoreRecord` rejects.** After every history of calls under a
clock that does not go back, with headers that can be read, and while no
shutdown has started: a record is rejected exactly when its tenant's
most recent kill still runs, or when a retry-after window runs and the
table of killed tenants is not empty. Kills and windows end on the
clock's whole seconds. -/
theorem storeRecord_rejects_iff {δ : Type} (D : DiskStorage δ) (ramQueueSize : ℕ)
    (clockSkewEnabled : Bool) (cacheMemorySizeLimit : Option ℕ) (as : List (ℕ × HandlerOp))
    (hclock : (as.map Prod.fst).Pairwise (· ≤ ·))
    (hnum : ∀ ev ∈ responses as, ev.2.Numeric) (record : StorageRecord) (now : ℕ)
    (hnow : ∀ a ∈ as, a.1 ≤ now) :
    let h := run (Handler.step D)
      (Handler.new ramQueueSize clockSkewEnabled cacheMemorySizeLimit) as
    h.shutdownStarted = false →
      ((h.storeRecord D record now).1 = false ↔
        Live (lastKill (responses as) record.tenantToken) (utcSeconds now) ∨
          (Live (lastRetryAfter (responses as)) (utcSeconds now) ∧
            h.killSwitchManager.isActive = true)) := by
  intro h hrun
  have ht : KillTracks h.killSwitchManager (responses as) (utcSeconds now) :=
    Handler.run_tracks as (killTracks_new ramQueueSize clockSkewEnabled cacheMemorySizeLimit
      (utcSeconds 0)) (fun a _ => Nat.zero_le _) hclock hnum (Nat.zero_le _) hnow
  rw [Handler.storeRecord_eq_false_iff hrun, ← ht.retry.live_iff le_rfl,
    ← (ht.token record.tenantToken).live_iff le_rfl]
  constructor
  · rintro ⟨hactive, hretry | htoken⟩
    · exact Or.inr ⟨hretry, hactive⟩
    · exact Or.inl htoken
  · rintro (htoken | ⟨hretry, hactive⟩)
    · exact ⟨KillSwitchManager.isActive_of_live htoken, Or.inr htoken⟩
    · exact ⟨hactive, Or.inl hretry⟩

/-- The response of a server that kills one tenant for a hundred seconds
and asks to wait for fifty. -/
def killAndWait : HttpHeaders :=
  [("Retry-After", "50"), ("kill-tokens", "killed:all"), ("kill-duration", "100")]

theorem storeRecord_rejects_iff_killed :
    ((run (Handler.step (sqliteStorage (SQLite.openOn SQLite.Engine.sound [])))
        (Handler.new 4096 false none)
        [(0, .initializeStorage), (1000, .deleteRecords ["a"] killAndWait true)]).storeRecord
      (sqliteStorage (SQLite.openOn SQLite.Engine.sound []))
      ⟨"b", "killed", .normal, .normal, 1, [], 0, 0⟩ 2000).1 = false :=
  (storeRecord_rejects_iff (sqliteStorage (SQLite.openOn SQLite.Engine.sound [])) 4096 false none
    [(0, .initializeStorage), (1000, .deleteRecords ["a"] killAndWait true)] (by decide)
    (by
      intro ev hev
      obtain rfl : ev = (1000, killAndWait) := by simpa [responses, HandlerOp.headers?] using hev
      exact ⟨⟨50, rfl⟩, ⟨100, rfl⟩⟩)
    ⟨"b", "killed", .normal, .normal, 1, [], 0, 0⟩ 2000 (by decide) rfl).2 (Or.inl (by decide))

/-- **A retry-after window rejects a tenant that nobody killed**, because
another tenant was. -/
theorem retryAfter_rejects_unkilled_tenant :
    ((run (Handler.step (sqliteStorage (SQLite.openOn SQLite.Engine.sound [])))
        (Handler.new 4096 false none)
        [(0, .initializeStorage), (1000, .deleteRecords ["a"] killAndWait true)]).storeRecord
      (sqliteStorage (SQLite.openOn SQLite.Engine.sound []))
      ⟨"b", "unharmed", .normal, .normal, 1, [], 0, 0⟩ 2000).1 = false ∧ lastKill (responses
      [(0, .initializeStorage), (1000, .deleteRecords ["a"] killAndWait true)]) "unharmed" = none :=
  ⟨rfl, rfl⟩

end ClientTelemetry
