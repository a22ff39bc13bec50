import ClientTelemetry.Stats.Totals
/-!
# Breakdowns of the statistics

What a rollup reports is broken down: events received by latency, those
dropped and rejected by reason, packages acknowledged by outcome. The
breakdowns by reason of the tenants, that of the dropped events and that
of the packages always add up. The other two do not. An event is counted
for its latency with the tenant only, and with the cumulative statistics
never; and the cumulative counter of rejected events is never raised.
What has to be known of a run is therefore what has come in and what has
been rejected since the statistics were last reset (`Unreported`).
-/

namespace ClientTelemetry

open List

/-- A count that is added to a distribution is added to its sum. -/
theorem sum_addCount {κ : Type*} [LinearOrder κ] (distribution : OrdMap κ ℕ) (key : κ) (count : ℕ) :
    (addCount distribution key count).values.sum = distribution.values.sum + count := by
  have hsum := OrdMap.sum_insert (m := distribution) (k := key)
    (v := (distribution.find? key).getD 0 + count) id
  simp only [map_id, Option.map_id, id] at hsum
  rw [addCount]
  omega

namespace TelemetryStats

variable {t : TelemetryStats}

/-- The events received, by latency and added up again. -/
def receivedByLatency (t : TelemetryStats) : ℕ :=
  (t.recordStatsPerLatency.values.map (·.received)).sum

/-- **The breakdowns of some statistics add up.** -/
structure AddsUp (t : TelemetryStats) : Prop where
  received : t.recordStats.received = t.receivedByLatency
  dropped : t.recordStats.dropped = t.recordStats.droppedByReason.values.sum
  rejected : t.recordStats.rejected = t.recordStats.rejectedByReason.values.sum

theorem receivedByLatency_onLatency (t : TelemetryStats) (latency : ℤ)
    {change : RecordStats → RecordStats} (hchange : ∀ r, (change r).received = r.received) :
    (t.onLatency latency change).receivedByLatency = t.receivedByLatency := by
  have hsum := OrdMap.sum_insert (m := t.recordStatsPerLatency) (k := latency)
    (v := change ((t.recordStatsPerLatency.find? latency).getD {})) (·.received)
  have hbefore : ((t.recordStatsPerLatency.find? latency).map (·.received)).getD 0 =
      ((t.recordStatsPerLatency.find? latency).getD {}).received := by
    cases t.recordStatsPerLatency.find? latency <;> rfl
  rw [hbefore, hchange] at hsum
  unfold receivedByLatency onLatency
  dsimp only
  omega

/-- A package that was sent changes no breakdown. -/
theorem packageSent_frame (t : TelemetryStats) (latency : ℤ) :
    (t.packageSent latency).receivedByLatency = t.receivedByLatency ∧
      (t.packageSent latency).recordStats = { t.recordStats with sent := t.recordStats.sent + 1 } ∧
      (t.packageSent latency).packageStats = t.packageStats := by
  unfold packageSent
  dsimp only
  split_ifs
  · exact ⟨receivedByLatency_onLatency _ _ fun r => rfl, rfl, rfl⟩
  · exact ⟨rfl, rfl, rfl⟩

end TelemetryStats

/-- The packages that were acknowledged, by outcome. -/
def PackageStats.AddsUp (p : PackageStats) : Prop :=
  p.totalPkgsAcked = p.successPkgsAcked + p.retryPkgsAcked + p.dropPkgsAcked

/-- **The breakdowns of all that a rollup would report now add up.** -/
def MetaStats.AddsUp (s : MetaStats) : Prop :=
  (∀ t ∈ s.rollup, t.AddsUp) ∧ s.telemetryStats.packageStats.AddsUp

/-! ## What has not been reported -/

/-- **Since the last reset**: the events that came in, and those that were
rejected. -/
structure Unreported where
  events : ℕ := 0
  rejected : ℕ := 0
  deriving DecidableEq

/-- One update. A rollup that is neither the first nor the last resets
only if an event has come in. -/
def Unreported.step (o : Unreported) : StatsUpdate → Unreported
  | .eventIncoming _ _ _ _ => { o with events := o.events + 1 }
  | .recordsRejected _ rejectedCount =>
    { o with rejected := o.rejected + MetaStats.overallCount rejectedCount }
  | .generateStatsEvent rollupKind _ =>
    if 0 < o.events ∨ rollupKind ≠ .ongoing then {} else o
  | _ => o

/-- **What the cumulative statistics have counted.** -/
structure TelemetryStats.Cumulates (t : TelemetryStats) (o : Unreported) : Prop where
  received : t.recordStats.received = o.events
  byLatency : t.receivedByLatency = 0
  dropped : t.recordStats.dropped = t.recordStats.droppedByReason.values.sum
  rejected : t.recordStats.rejected = 0
  byReason : t.recordStats.rejectedByReason.values.sum = o.rejected
  acked : t.packageStats.AddsUp

/-- **What those of a tenant have.** -/
structure TelemetryStats.Splits (t : TelemetryStats) (o : Unreported) : Prop where
  received : o.events = 0 → t.recordStats.received = 0 ∧ t.receivedByLatency = 0
  dropped : t.recordStats.dropped = t.recordStats.droppedByReason.values.sum
  rejected : t.recordStats.rejected = t.recordStats.rejectedByReason.values.sum

theorem TelemetryStats.splits_new (o : Unreported) : ({} : TelemetryStats).Splits o :=
  ⟨fun _ => ⟨rfl, rfl⟩, rfl, rfl⟩

namespace MetaStats

variable {s : MetaStats} {o : Unreported} {P : TelemetryStats → Prop} {Q : TelemetryStats → Prop}
  {change : TelemetryStats → TelemetryStats} {add : ℕ → RecordStats → RecordStats}

/-- The statistics of every tenant. -/
def AllTenants (s : MetaStats) (P : TelemetryStats → Prop) : Prop :=
  ∀ t ∈ s.telemetryTenantStats.values, P t

theorem AllTenants.tenant (h : s.AllTenants P) (hnew : P {}) (token : String) :
    P (s.tenant token) := by
  unfold MetaStats.tenant
  cases hfind : s.telemetryTenantStats.find? token with
  | none => exact hnew
  | some t => exact h t (mem_map_of_mem (OrdMap.find?_eq_some.1 hfind))

theorem AllTenants.onTenant
    (h : s.AllTenants P) (hnew : P {}) (hkeep : ∀ t, P t → Q t) (hchange : ∀ t, P t → Q (change t))
    (token : String) : (s.onTenant token change).AllTenants Q := by
  intro t ht
  obtain ⟨entry, hentry, rfl⟩ := mem_map.1 ht
  rcases OrdMap.mem_insert.1 hentry with rfl | ⟨hentry, -⟩
  · exact hchange _ (h.tenant hnew token)
  · exact hkeep _ (h _ (mem_map_of_mem hentry))

theorem AllTenants.foldl_onTenant {α : Type*} {token : α → String}
    {change : α → TelemetryStats → TelemetryStats} (h : s.AllTenants P) (hnew : P {})
    (hchange : ∀ e t, P t → P (change e t)) (es : List α) :
    (es.foldl (fun s e => s.onTenant (token e) (change e)) s).AllTenants P := by
  induction es generalizing s with
  | nil => exact h
  | cons e es ih => exact ih (h.onTenant hnew (fun _ ht => ht) (hchange e) (token e))

theorem AllTenants.addPerTenant (h : s.AllTenants P)
    (hnew : P {}) (hadd : ∀ n t, P t → P (t.onRecords (add n))) (counts : OrdMap String ℕ) :
    (s.addPerTenant counts add).AllTenants P := by
  unfold MetaStats.addPerTenant
  split_ifs
  · exact h.foldl_onTenant hnew (fun e t => hadd (castUnsigned e.2) t) counts.entries
  · exact h

theorem AllTenants.onTenants (h : s.AllTenants P) (hchange : ∀ t, P t → Q (change t)) :
    (s.onTenants change).AllTenants Q := by
  intro t ht
  simp only [MetaStats.onTenants, OrdMap.values, map_map, mem_map] at ht
  obtain ⟨entry, hentry, rfl⟩ := ht
  exact hchange _ (h _ (mem_map_of_mem hentry))

/-- **The statistics have counted what is not reported.** -/
structure Tracks (s : MetaStats) (o : Unreported) : Prop where
  cumulates : s.telemetryStats.Cumulates o
  splits : s.enableTenantStats = true → s.AllTenants (·.Splits o)

/-! ## One update -/

/-- An event counts with the tenant, once or twice. -/
theorem splits_of_event (o : Unreported) {t t' : TelemetryStats} (h : t.Splits o)
    (hdropped : t'.recordStats.dropped = t.recordStats.dropped)
    (hdroppedBy : t'.recordStats.droppedByReason = t.recordStats.droppedByReason)
    (hrejected : t'.recordStats.rejected = t.recordStats.rejected)
    (hrejectedBy : t'.recordStats.rejectedByReason = t.recordStats.rejectedByReason) :
    t'.Splits { o with events := o.events + 1 } :=
  ⟨fun hzero => absurd hzero (Nat.succ_ne_zero _), by rw [hdropped, hdroppedBy, h.dropped],
    by rw [hrejected, hrejectedBy, h.rejected]⟩

theorem allTenants_countLatency {token : String} {size : ℕ} {latency : ℤ}
    (h : s.AllTenants (·.Splits { o with events := o.events + 1 })) :
    (s.countLatency token size latency).AllTenants
      (·.Splits { o with events := o.events + 1 }) := by
  unfold countLatency
  split_ifs
  · refine h.onTenant (TelemetryStats.splits_new _) (fun _ ht => ht) (fun t ht => ?_) token
    exact ⟨fun hzero => absurd hzero (Nat.succ_ne_zero _), ht.dropped, ht.rejected⟩
  · exact h

section

variable (h : s.Tracks o)
include h

theorem Tracks.updateOnEventIncoming (token : String) (size : ℕ) (latency : ℤ)
    (metastats : Bool) : (s.updateOnEventIncoming token size latency metastats).Tracks
      { o with events := o.events + 1 } := by
  have hsame : ∀ t : TelemetryStats, t.Splits o → t.Splits { o with events := o.events + 1 } :=
    fun t ht => splits_of_event o ht rfl rfl rfl rfl
  unfold MetaStats.updateOnEventIncoming
  dsimp only
  generalize hfirst : (s.onAll (·.onRecords (·.incoming size metastats))).countLatency token size
    latency = first
  have hcumulative : first.telemetryStats =
      s.telemetryStats.onRecords (·.incoming size metastats) := by
    rw [← hfirst, sameAll_countLatency.cumulative]
    rfl
  have hcumulates : first.telemetryStats.Cumulates { o with events := o.events + 1 } := by
    rw [hcumulative]
    exact { h.cumulates with received := congrArg (· + 1) h.cumulates.received }
  have henabled : first.enableTenantStats = s.enableTenantStats := by
    rw [← hfirst, sameAll_countLatency.split]
    rfl
  split_ifs with hsplit
  · refine ⟨?_, fun _ => ?_⟩
    · rw [sameAll_countLatency.cumulative]
      exact hcumulates
    · have hall : first.AllTenants (·.Splits { o with events := o.events + 1 }) := by
        rw [← hfirst]
        exact allTenants_countLatency fun t ht => hsame t (h.splits (henabled.symm.trans hsplit) t ht)
      have hnew := TelemetryStats.splits_new { o with events := o.events + 1 }
      refine allTenants_countLatency ((hall.onTenant hnew (fun _ ht => ht) (fun t ht => ?_) token).onTenant
        hnew (fun _ ht => ht) (fun t ht => ?_) token)
      · exact { ht with }
      · exact ⟨fun hzero => absurd hzero (Nat.succ_ne_zero _), ht.dropped, ht.rejected⟩
  · exact ⟨hcumulates, fun hsplit' => absurd hsplit' hsplit⟩

theorem Tracks.updateOnPackageSentSucceeded (ids : OrdMap String String)
    (latency : ℤ) (retries duration : ℕ) (metastatsOnly : Bool) :
    (s.updateOnPackageSentSucceeded ids latency retries duration metastatsOnly).Tracks o := by
  have hcumulates : ((s.packageAcked retries duration metastatsOnly).onAll
      (·.packageSent latency)).telemetryStats.Cumulates o := by
    obtain ⟨hlatency, hrecords, hpackages⟩ := TelemetryStats.packageSent_frame
      (s.packageAcked retries duration metastatsOnly).telemetryStats latency
    refine ⟨?_, hlatency.trans h.cumulates.byLatency, ?_, ?_, ?_, ?_⟩
    · exact (congrArg (·.received) hrecords).trans h.cumulates.received
    · simp only [onAll, hrecords]
      exact h.cumulates.dropped
    · exact (congrArg (·.rejected) hrecords).trans h.cumulates.rejected
    · exact (congrArg (·.rejectedByReason.values.sum) hrecords).trans h.cumulates.byReason
    · have hacked := h.cumulates.acked
      have hadded : (s.packageAcked retries duration metastatsOnly).telemetryStats.packageStats.AddsUp := by
        unfold PackageStats.AddsUp at hacked ⊢
        simp only [packageAcked, onAll]
        omega
      exact hpackages.symm ▸ hadded
  unfold MetaStats.updateOnPackageSentSucceeded
  dsimp only
  split_ifs with hsplit
  · refine ⟨?_, fun _ => ?_⟩
    · rw [(sameAll_foldl_onTenant ids.entries).cumulative]
      exact hcumulates
    · have hall : ((s.packageAcked retries duration metastatsOnly).onAll
          (·.packageSent latency)).AllTenants (·.Splits o) := h.splits hsplit
      refine hall.foldl_onTenant (TelemetryStats.splits_new o) (fun e t ht => ?_) ids.entries
      obtain ⟨hlatency, hrecords, -⟩ := t.packageSent_frame latency
      refine ⟨?_, ?_, ?_⟩
      · rw [hlatency, hrecords]
        exact ht.received
      · rw [hrecords]
        exact ht.dropped
      · rw [hrecords]
        exact ht.rejected
  · exact ⟨hcumulates, fun hsplit' => absurd hsplit' hsplit⟩

/-- **The updates by tenant**: what they do to the cumulative statistics,
and to each tenant's. -/
theorem Tracks.addPerTenant {o' : Unreported}
    {addAll : RecordStats → RecordStats} (counts : OrdMap String ℕ)
    (hadd : ∀ n (t : TelemetryStats), t.Splits o' → (t.onRecords (add n)).Splits o')
    (hsplits : ∀ t : TelemetryStats, t.Splits o → t.Splits o')
    (haddAll : (s.telemetryStats.onRecords addAll).Cumulates o') :
    ((s.addPerTenant counts add).onAll (·.onRecords addAll)).Tracks o' := by
  refine ⟨?_, fun hsplit => ?_⟩
  · simp only [onAll, sameAll_addPerTenant.cumulative]
    exact haddAll
  · have hsplit' : s.enableTenantStats = true := sameAll_addPerTenant.split.symm.trans hsplit
    exact AllTenants.addPerTenant (fun t ht => hsplits t (h.splits hsplit' t ht))
      (TelemetryStats.splits_new o') hadd counts

/-- A change that leaves the counters of records and keeps the outcomes of
packages adding up. -/
theorem Tracks.onAll
    (hrecords : (change s.telemetryStats).recordStats = s.telemetryStats.recordStats)
    (hlatency : (change s.telemetryStats).recordStatsPerLatency =
      s.telemetryStats.recordStatsPerLatency) (hacked : s.telemetryStats.packageStats.AddsUp →
      (change s.telemetryStats).packageStats.AddsUp) : (s.onAll change).Tracks o := by
  have hbyLatency : (change s.telemetryStats).receivedByLatency =
      s.telemetryStats.receivedByLatency := by
    rw [TelemetryStats.receivedByLatency, hlatency, TelemetryStats.receivedByLatency]
  refine ⟨⟨?_, hbyLatency.trans h.cumulates.byLatency, ?_, ?_, ?_, hacked h.cumulates.acked⟩,
    h.splits⟩ <;> simp only [MetaStats.onAll, hrecords]
  · exact h.cumulates.received
  · exact h.cumulates.dropped
  · exact h.cumulates.rejected
  · exact h.cumulates.byReason

end

theorem cumulates_reset (t : TelemetryStats) (sessionId : String) (start : Bool) (now : ℤ) :
    (t.resetStats sessionId start now).Cumulates {} := ⟨rfl, rfl, rfl, rfl, rfl, rfl⟩

theorem tracks_resetStats (s : MetaStats) (start : Bool) (now : ℤ) :
    (s.resetStats start now).Tracks {} := by
  unfold resetStats
  dsimp only
  split_ifs with hsplit
  · refine ⟨cumulates_reset _ _ _ _, fun _ => ?_⟩
    refine AllTenants.onTenants (P := fun _ => True) (fun _ _ => trivial) fun t _ => ?_
    exact ⟨fun _ => ⟨rfl, rfl⟩, rfl, rfl⟩
  · exact ⟨cumulates_reset _ _ _ _, fun hsplit' => absurd hsplit' hsplit⟩

section

variable (h : s.Tracks o)
include h

theorem Tracks.clearStats : s.clearStats.Tracks o := by
  have hcumulates : s.telemetryStats.clearStats.Cumulates o := { h.cumulates with }
  unfold MetaStats.clearStats
  dsimp only
  split_ifs with hsplit
  · exact ⟨hcumulates, fun _ => (h.splits hsplit).onTenants fun t ht => { ht with }⟩
  · exact ⟨hcumulates, fun hsplit' => absurd hsplit' hsplit⟩

theorem Tracks.generateStatsEvent (rollupKind : RollUpKind) (now : ℤ) :
    (s.generateStatsEvent rollupKind now).2.Tracks (o.step (.generateStatsEvent rollupKind now)) := by
  have hrolls : s.rollsUp rollupKind = true ↔ 0 < o.events ∨ rollupKind ≠ .ongoing := by
    simp [rollsUp, hasStatsDataAvailable, h.cumulates.received]
  have hrolled : (s.rolled rollupKind now).Tracks (o.step (.generateStatsEvent rollupKind now)) := by
    unfold rolled
    dsimp only [Unreported.step]
    by_cases hup : s.rollsUp rollupKind = true
    · rw [if_pos hup, if_pos (hrolls.1 hup)]
      exact tracks_resetStats _ _ _
    · rw [if_neg hup, if_neg (mt hrolls.2 hup)]
      exact h
  rw [generateStatsEvent_eq]
  split_ifs
  · exact hrolled.clearStats
  · exact hrolled

/-- **Every update is followed.** -/
theorem Tracks.step (u : StatsUpdate) : (s.step u).Tracks (o.step u) := by
  cases u with
  | eventIncoming token size latency metastats =>
    exact h.updateOnEventIncoming token size latency metastats
  | packageSentSucceeded ids latency retries duration metastatsOnly =>
    exact h.updateOnPackageSentSucceeded ids latency retries duration metastatsOnly
  | recordsDropped reason counts =>
    have hadd (n : ℕ) (r : RecordStats) (hr : r.dropped = r.droppedByReason.values.sum) :
        (r.addDropped reason n).dropped = (r.addDropped reason n).droppedByReason.values.sum := by
      rw [RecordStats.addDropped, sum_addCount, hr]
    refine h.addPerTenant counts (fun n t ht => { ht with dropped := hadd n _ ht.dropped })
      (fun _ ht => ht) ?_
    exact { h.cumulates with dropped := hadd _ _ h.cumulates.dropped }
  | recordsOverFlown counts =>
    exact h.addPerTenant counts (fun n t ht => { ht with }) (fun _ ht => ht) { h.cumulates with }
  | recordsRejected reason counts =>
    refine h.addPerTenant counts (fun n t ht => { ht with rejected := ?_ })
      (fun t ht => { ht with }) ?_
    · have hrejected := ht.rejected
      simp only [TelemetryStats.onRecords, RecordStats.addRejected, RecordStats.addRejectedByReason,
        sum_addCount]
      omega
    · refine { h.cumulates with byReason := ?_ }
      exact (sum_addCount _ _ _).trans (congrArg (· + _) h.cumulates.byReason)
  | packageFailed statusCode =>
    simp only [MetaStats.step, Unreported.step, updateOnPackageFailed]
    refine h.onAll rfl rfl fun hacked => ?_
    unfold PackageStats.AddsUp at hacked ⊢
    dsimp only
    omega
  | packageRetry statusCode retries =>
    simp only [MetaStats.step, Unreported.step, updateOnPackageRetry]
    refine h.onAll rfl rfl fun hacked => ?_
    unfold PackageStats.AddsUp at hacked ⊢
    dsimp only
    omega
  | generateStatsEvent rollupKind now => exact h.generateStatsEvent rollupKind now
  | postData postDataLength metastatsOnly =>
    simp only [MetaStats.step, Unreported.step, updateOnPostData]
    exact h.onAll rfl rfl id
  | storageOpened type | storageFailed reason =>
    simp only [MetaStats.step, Unreported.step]
    exact h.onAll rfl rfl id

/-! ## Runs -/

/-- The breakdowns add up when nothing is left that is counted on one side
only. -/
theorem Tracks.addsUp_iff : s.AddsUp ↔ o.events = 0 ∧ o.rejected = 0 := by
  constructor
  · rintro ⟨hall, -⟩
    obtain ⟨hreceived, -, hrejected⟩ := hall _ mem_cons_self
    have hbyLatency : s.telemetryStats.recordStats.received = s.telemetryStats.receivedByLatency :=
      hreceived
    have hbyReason : s.telemetryStats.recordStats.rejected =
        s.telemetryStats.recordStats.rejectedByReason.values.sum := hrejected
    rw [h.cumulates.received, h.cumulates.byLatency] at hbyLatency
    rw [h.cumulates.rejected, h.cumulates.byReason] at hbyReason
    exact ⟨hbyLatency, hbyReason.symm⟩
  · rintro ⟨hevents, hrejected⟩
    refine ⟨fun t ht => ?_, h.cumulates.acked⟩
    rcases mem_cons.1 ht with rfl | ht
    · exact ⟨(h.cumulates.received.trans hevents).trans h.cumulates.byLatency.symm,
        h.cumulates.dropped, (h.cumulates.rejected.trans hrejected.symm).trans h.cumulates.byReason.symm⟩
    · split_ifs at ht with hsplit
      · have htenant := h.splits hsplit t ht
        obtain ⟨hnone, hnoLatency⟩ := htenant.received hevents
        exact ⟨hnone.trans hnoLatency.symm, htenant.dropped, htenant.rejected⟩
      · exact absurd ht not_mem_nil

end

/-- **When the breakdowns add up.** After any sequence of updates and
rollups, with statistics split by tenant or not, the breakdowns of what
a rollup would report add up if and only if, since the statistics were
last reset, no event has come in and none has been counted as rejected. -/
theorem breakdowns_add_up_iff (split : Bool) (metaStatsTenantToken sessionId : String) (now : ℤ)
    (us : List StatsUpdate) :
    (run MetaStats.step (construct split metaStatsTenantToken sessionId now) us).AddsUp ↔
      (run Unreported.step {} us).events = 0 ∧ (run Unreported.step {} us).rejected = 0 := by
  have hstart : (construct split metaStatsTenantToken sessionId now).Tracks {} :=
    ⟨⟨rfl, rfl, rfl, rfl, rfl, rfl⟩, fun _ t ht => absurd ht not_mem_nil⟩
  have hmeets : RunMeets (fun _ _ => True) MetaStats.step
      (construct split metaStatsTenantToken sessionId now) us :=
    runMeets_forall.2 fun _ _ => trivial
  have hrun : (run MetaStats.step (construct split metaStatsTenantToken sessionId now) us).Tracks
      (run Unreported.step {} us) :=
    run_simulates (fun _ _ u h _ => h.step u) hstart hmeets
  exact hrun.addsUp_iff

/-- **Breakdowns that do not add up.** An event is not counted for its
latency with the cumulative statistics, and twice with the tenant; what
is rejected counts for its reason only. -/
theorem breakdowns_do_not_add_up :
    let event := run MetaStats.step (construct true "m-1" "session" 0) [.eventIncoming "a-1" 10 1 false]
    let rejected := run MetaStats.step (construct false "m-1" "session" 0)
      [.recordsRejected 0 (.singleton "a-1" 2)]
    (event.rollup.map fun t => (t.recordStats.received, t.receivedByLatency)) = [(1, 0), (1, 2)] ∧
      (rejected.rollup.map fun t =>
        (t.recordStats.rejected, t.recordStats.rejectedByReason.values.sum)) = [(0, 2)] := by
  decide +kernel

end MetaStats

end ClientTelemetry
