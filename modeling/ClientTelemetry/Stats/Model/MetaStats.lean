import ClientTelemetry.Model.Record
/-!
# The statistics about events

`MetaStats` counts what happens to events and packages, in one
`TelemetryStats` for everything and, if `split` is configured, in one for
each tenant. Every update is called with the numbers for the tenants it is
about. `generateStatsEvent` rolls the statistics up into records and
resets them.

Counters are natural numbers: they are not followed past the largest
`unsigned int`. A count that is cast to `unsigned int` keeps its low bits.
A reason goes by its number, and so does a latency.
-/

namespace ClientTelemetry

/-- The largest `unsigned int`. -/
def statsUnsignedMax : ℕ := 2 ^ 32 - 1

/-- `RecordStats`, without the fields nothing counts in. -/
structure RecordStats where
  received : ℕ := 0
  receivedStats : ℕ := 0
  rejected : ℕ := 0
  rejectedByReason : OrdMap ℕ ℕ := OrdMap.empty
  dropped : ℕ := 0
  overflown : ℕ := 0
  droppedByReason : OrdMap ℕ ℕ := OrdMap.empty
  sent : ℕ := 0
  minOfRecordSizeInBytes : ℕ := statsUnsignedMax
  maxOfRecordSizeInBytes : ℕ := 0
  totalRecordsSizeInBytes : ℕ := 0
  deriving DecidableEq

/-- `PackageStats`. -/
structure PackageStats where
  totalPkgsToBeAcked : ℕ := 0
  totalMetastatsOnlyPkgsToBeAcked : ℕ := 0
  totalPkgsAcked : ℕ := 0
  totalMetastatsOnlyPkgsAcked : ℕ := 0
  successPkgsAcked : ℕ := 0
  retryPkgsAcked : ℕ := 0
  dropPkgsAcked : ℕ := 0
  dropPkgsPerHttpReturnCode : OrdMap ℤ ℕ := OrdMap.empty
  retryPkgsPerHttpReturnCode : OrdMap ℤ ℕ := OrdMap.empty
  totalBandwidthConsumedInBytes : ℕ := 0
  deriving DecidableEq

/-- `LatencyStats`. -/
structure LatencyStats where
  maxOfLatencyInMilliSecs : ℕ := 0
  minOfLatencyInMilliSecs : ℕ := statsUnsignedMax
  deriving DecidableEq

/-- `TelemetryStats`. -/
structure TelemetryStats where
  tenantId : String := ""
  sessionId : String := ""
  sessionStartTimestamp : ℤ := 0
  statsStartTimestamp : ℤ := 0
  statsSequenceNum : ℤ := 0
  packageStats : PackageStats := {}
  retriesCountDistribution : OrdMap ℕ ℕ := OrdMap.empty
  rttStats : LatencyStats := {}
  recordStats : RecordStats := {}
  recordStatsPerLatency : OrdMap ℤ RecordStats := OrdMap.empty
  /-- `storageFormat` of `offlineStorageStats`. -/
  storageFormat : String := ""
  /-- `lastFailureReason` of `offlineStorageStats`. -/
  lastFailureReason : String := ""
  deriving DecidableEq

/-- `RollUpKind`. -/
inductive RollUpKind where
  | start
  | stop
  | ongoing
  deriving DecidableEq

/-- **The statistics.** -/
structure MetaStats where
  /-- `m_enableTenantStats`. -/
  enableTenantStats : Bool
  /-- `GetMetaStatsTenantToken()`. -/
  metaStatsTenantToken : String
  /-- `m_sessionId`. -/
  sessionId : String
  /-- `m_telemetryStats`. -/
  telemetryStats : TelemetryStats := {}
  /-- `m_telemetryTenantStats`. -/
  telemetryTenantStats : OrdMap String TelemetryStats := OrdMap.empty

/-! ## Counting in one place -/

/-- `distribution[key] += count`. -/
def addCount {κ : Type*} [LinearOrder κ] (distribution : OrdMap κ ℕ) (key : κ) (count : ℕ) :
    OrdMap κ ℕ :=
  distribution.insert key ((distribution.find? key).getD 0 + count)

/-- `static_cast<unsigned int>`. -/
def castUnsigned (count : ℕ) : ℕ := count % 2 ^ 32

/-- `token.substr(0, token.find('-'))`. -/
def tenantTokenId (token : String) : String := String.ofList (token.toList.takeWhile (· ≠ '-'))

namespace RecordStats

variable (r : RecordStats)

/-- The part of `updateOnEventIncoming` for one place. -/
def incoming (size : ℕ) (metastats : Bool) : RecordStats :=
  { r with
    received := r.received + 1
    receivedStats := if metastats then r.receivedStats + 1 else r.receivedStats
    maxOfRecordSizeInBytes := max r.maxOfRecordSizeInBytes size
    minOfRecordSizeInBytes := min r.minOfRecordSizeInBytes size
    totalRecordsSizeInBytes := r.totalRecordsSizeInBytes + size }

def addDropped (reason count : ℕ) : RecordStats :=
  { r with
    droppedByReason := addCount r.droppedByReason reason count
    dropped := r.dropped + count }

def addOverflown (count : ℕ) : RecordStats := { r with overflown := r.overflown + count }

def addRejectedByReason (reason count : ℕ) : RecordStats :=
  { r with rejectedByReason := addCount r.rejectedByReason reason count }

def addRejected (reason count : ℕ) : RecordStats :=
  { r.addRejectedByReason reason count with rejected := r.rejected + count }

end RecordStats

namespace TelemetryStats

variable (t : TelemetryStats)

/-- A change of the record statistics. -/
def onRecords (change : RecordStats → RecordStats) : TelemetryStats :=
  { t with recordStats := change t.recordStats }

/-- A change of those of a latency. -/
def onLatency (latency : ℤ) (change : RecordStats → RecordStats) : TelemetryStats :=
  let before := (t.recordStatsPerLatency.find? latency).getD {}
  { t with recordStatsPerLatency := t.recordStatsPerLatency.insert latency (change before) }

/-- The part of `updateOnPackageSentSucceeded` for one place. -/
def packageSent (latency : ℤ) : TelemetryStats :=
  let t := t.onRecords fun r => { r with sent := r.sent + 1 }
  if 0 ≤ latency then t.onLatency latency fun r => { r with sent := r.sent + 1 } else t

/-- The part of `resetStats` for one place, with `Reset()`. -/
def resetStats (sessionId : String) (start : Bool) (now : ℤ) : TelemetryStats :=
  { t with
    packageStats := {}
    retriesCountDistribution := OrdMap.empty
    rttStats := {}
    recordStats := {}
    recordStatsPerLatency := OrdMap.empty
    statsStartTimestamp := now
    sessionId := sessionId
    statsSequenceNum := if start then 0 else t.statsSequenceNum + 1
    sessionStartTimestamp := if start then now else t.sessionStartTimestamp }

/-- The part of `clearStats` for one place. -/
def clearStats : TelemetryStats :=
  { t with
    packageStats :=
      { t.packageStats with
        dropPkgsPerHttpReturnCode := OrdMap.empty
        retryPkgsPerHttpReturnCode := OrdMap.empty }
    retriesCountDistribution := OrdMap.empty }

end TelemetryStats

/-! ## The updates -/

namespace MetaStats

variable (s : MetaStats)

/-- The statistics of a tenant, or those of a new one. -/
def tenant (token : String) : TelemetryStats := (s.telemetryTenantStats.find? token).getD {}

/-- A change of `m_telemetryTenantStats[token]`. -/
def onTenant (token : String) (change : TelemetryStats → TelemetryStats) : MetaStats :=
  { s with
    telemetryTenantStats := s.telemetryTenantStats.insert token (change (s.tenant token)) }

/-- A change of the cumulative statistics. -/
def onAll (change : TelemetryStats → TelemetryStats) : MetaStats :=
  { s with telemetryStats := change s.telemetryStats }

/-- A change of every tenant's statistics. -/
def onTenants (change : TelemetryStats → TelemetryStats) : MetaStats :=
  { s with
    telemetryTenantStats :=
      ⟨s.telemetryTenantStats.entries.map fun e => (e.1, change e.2), by
        rw [List.map_map]
        exact s.telemetryTenantStats.sorted⟩ }

/-- The count for a latency in `updateOnEventIncoming`, which is always
that of the tenant. -/
def countLatency (tenanttoken : String) (size : ℕ) (latency : ℤ) : MetaStats :=
  if 0 ≤ latency then
    s.onTenant tenanttoken (·.onLatency latency fun r =>
      { r with
        received := r.received + 1
        totalRecordsSizeInBytes := r.totalRecordsSizeInBytes + size })
  else s

/-- `MetaStats::updateOnEventIncoming`. -/
def updateOnEventIncoming (tenanttoken : String) (size : ℕ) (latency : ℤ) (metastats : Bool) :
    MetaStats :=
  let s := (s.onAll (·.onRecords (·.incoming size metastats))).countLatency tenanttoken size latency
  if s.enableTenantStats then
    let s := s.onTenant tenanttoken fun t =>
      { t with tenantId := if t.tenantId = "" then tenantTokenId tenanttoken else t.tenantId }
    (s.onTenant tenanttoken (·.onRecords (·.incoming size metastats))).countLatency tenanttoken size
      latency
  else s

/-- `MetaStats::updateOnPostData`. -/
def updateOnPostData (postDataLength : ℕ) (metastatsOnly : Bool) : MetaStats :=
  s.onAll fun t =>
    { t with packageStats :=
        { t.packageStats with
          totalBandwidthConsumedInBytes :=
            t.packageStats.totalBandwidthConsumedInBytes + postDataLength
          totalPkgsToBeAcked := t.packageStats.totalPkgsToBeAcked + 1
          totalMetastatsOnlyPkgsToBeAcked :=
            if metastatsOnly then t.packageStats.totalMetastatsOnlyPkgsToBeAcked + 1
            else t.packageStats.totalMetastatsOnlyPkgsToBeAcked } }

/-- The package summary and the round-trip times in
`updateOnPackageSentSucceeded`. -/
def packageAcked (retryFailedTimes durationMs : ℕ) (metastatsOnly : Bool) : MetaStats :=
  s.onAll fun t =>
    { t with
      packageStats :=
        { t.packageStats with
          totalPkgsAcked := t.packageStats.totalPkgsAcked + 1
          successPkgsAcked := t.packageStats.successPkgsAcked + 1
          totalMetastatsOnlyPkgsAcked :=
            if metastatsOnly then t.packageStats.totalMetastatsOnlyPkgsAcked + 1
            else t.packageStats.totalMetastatsOnlyPkgsAcked }
      retriesCountDistribution := addCount t.retriesCountDistribution retryFailedTimes 1
      rttStats :=
        { maxOfLatencyInMilliSecs := max t.rttStats.maxOfLatencyInMilliSecs durationMs
          minOfLatencyInMilliSecs := min t.rttStats.minOfLatencyInMilliSecs durationMs } }

/-- `MetaStats::updateOnPackageSentSucceeded`, with the tenants of the
records by their ids. -/
def updateOnPackageSentSucceeded (recordIdsAndTenantids : OrdMap String String)
    (eventLatency : ℤ) (retryFailedTimes durationMs : ℕ) (metastatsOnly : Bool) : MetaStats :=
  let s := (s.packageAcked retryFailedTimes durationMs metastatsOnly).onAll
    (·.packageSent eventLatency)
  if s.enableTenantStats then
    recordIdsAndTenantids.entries.foldl (fun s entry => s.onTenant entry.2 (·.packageSent eventLatency)) s
  else s

/-- `MetaStats::updateOnPackageFailed`. -/
def updateOnPackageFailed (statusCode : ℤ) : MetaStats :=
  s.onAll fun t =>
    { t with packageStats :=
        { t.packageStats with
          totalPkgsAcked := t.packageStats.totalPkgsAcked + 1
          dropPkgsAcked := t.packageStats.dropPkgsAcked + 1
          dropPkgsPerHttpReturnCode :=
            addCount t.packageStats.dropPkgsPerHttpReturnCode statusCode 1 } }

/-- `MetaStats::updateOnPackageRetry`. -/
def updateOnPackageRetry (statusCode : ℤ) (retryFailedTimes : ℕ) : MetaStats :=
  s.onAll fun t =>
    { t with
      packageStats :=
        { t.packageStats with
          totalPkgsAcked := t.packageStats.totalPkgsAcked + 1
          retryPkgsAcked := t.packageStats.retryPkgsAcked + 1
          retryPkgsPerHttpReturnCode :=
            addCount t.packageStats.retryPkgsPerHttpReturnCode statusCode 1 }
      retriesCountDistribution := addCount t.retriesCountDistribution retryFailedTimes 1 }

/-- The loop of the updates by tenant: what each tenant's count does to its
statistics. -/
def addPerTenant (counts : OrdMap String ℕ) (add : ℕ → RecordStats → RecordStats) : MetaStats :=
  if s.enableTenantStats then
    counts.entries.foldl (fun s entry => s.onTenant entry.1 (·.onRecords (add (castUnsigned entry.2)))) s
  else s

/-- `overallCount` behind the loop. -/
def overallCount (counts : OrdMap String ℕ) : ℕ := (counts.values.map castUnsigned).sum

/-- `MetaStats::updateOnRecordsDropped`. -/
def updateOnRecordsDropped (reason : ℕ) (droppedCount : OrdMap String ℕ) : MetaStats :=
  (s.addPerTenant droppedCount fun count r => r.addDropped reason count).onAll
    (·.onRecords (·.addDropped reason (overallCount droppedCount)))

/-- `MetaStats::updateOnRecordsOverFlown`. -/
def updateOnRecordsOverFlown (overflown : OrdMap String ℕ) : MetaStats :=
  (s.addPerTenant overflown fun count r => r.addOverflown count).onAll
    (·.onRecords (·.addOverflown (overallCount overflown)))

/-- `MetaStats::updateOnRecordsRejected`. The cumulative counter is not
raised, unlike those of the other two. -/
def updateOnRecordsRejected (reason : ℕ) (rejectedCount : OrdMap String ℕ) : MetaStats :=
  (s.addPerTenant rejectedCount fun count r => r.addRejected reason count).onAll
    (·.onRecords (·.addRejectedByReason reason (overallCount rejectedCount)))

/-! ## Rolling up -/

/-- `MetaStats::resetStats`. -/
def resetStats (start : Bool) (now : ℤ) : MetaStats :=
  let s := s.onAll (·.resetStats s.sessionId start now)
  if s.enableTenantStats then s.onTenants (·.resetStats s.sessionId start now) else s

/-- `MetaStats::rollup`: the statistics a record is made of, each. -/
def rollup : List TelemetryStats :=
  { s.telemetryStats with tenantId := tenantTokenId s.metaStatsTenantToken } ::
    if s.enableTenantStats then s.telemetryTenantStats.values else []

/-- `MetaStats::clearStats`. -/
def clearStats : MetaStats :=
  let s := s.onAll (·.clearStats)
  if s.enableTenantStats then s.onTenants (·.clearStats) else s

/-- `MetaStats::hasStatsDataAvailable`. -/
def hasStatsDataAvailable : Bool := 0 < s.telemetryStats.recordStats.received

/-- The statistics are rolled up and reset. -/
def rollsUp (rollupKind : RollUpKind) : Bool :=
  s.hasStatsDataAvailable ∨ rollupKind ≠ .ongoing

/-- `MetaStats::generateStatsEvent`. -/
def generateStatsEvent (rollupKind : RollUpKind) (now : ℤ) : List TelemetryStats × MetaStats :=
  let (records, s) :=
    if s.rollsUp rollupKind then
      (s.rollup,
        (s.onAll fun t => { t with tenantId := tenantTokenId s.metaStatsTenantToken }).resetStats
          false now)
    else ([], s)
  (records, if rollupKind = .stop then s.clearStats else s)

/-- The constructor. The session gets its name behind the first reset. -/
def construct (split : Bool) (metaStatsTenantToken sessionId : String) (now : ℤ) : MetaStats :=
  let s : MetaStats :=
    { enableTenantStats := false, metaStatsTenantToken := metaStatsTenantToken, sessionId := "" }
  { s.resetStats true now with enableTenantStats := split, sessionId := sessionId }

end MetaStats

/-- **The calls of the statistics.** -/
inductive StatsUpdate where
  | eventIncoming (tenanttoken : String) (size : ℕ) (latency : ℤ) (metastats : Bool)
  | postData (postDataLength : ℕ) (metastatsOnly : Bool)
  | packageSentSucceeded (recordIdsAndTenantids : OrdMap String String) (eventLatency : ℤ)
      (retryFailedTimes durationMs : ℕ) (metastatsOnly : Bool)
  | packageFailed (statusCode : ℤ)
  | packageRetry (statusCode : ℤ) (retryFailedTimes : ℕ)
  | recordsDropped (reason : ℕ) (droppedCount : OrdMap String ℕ)
  | recordsOverFlown (overflown : OrdMap String ℕ)
  | recordsRejected (reason : ℕ) (rejectedCount : OrdMap String ℕ)
  | storageOpened (type : String)
  | storageFailed (reason : String)
  | generateStatsEvent (rollupKind : RollUpKind) (now : ℤ)

/-- One call. -/
def MetaStats.step (s : MetaStats) : StatsUpdate → MetaStats
  | .eventIncoming tenanttoken size latency metastats =>
    s.updateOnEventIncoming tenanttoken size latency metastats
  | .postData postDataLength metastatsOnly => s.updateOnPostData postDataLength metastatsOnly
  | .packageSentSucceeded ids eventLatency retryFailedTimes durationMs metastatsOnly =>
    s.updateOnPackageSentSucceeded ids eventLatency retryFailedTimes durationMs metastatsOnly
  | .packageFailed statusCode => s.updateOnPackageFailed statusCode
  | .packageRetry statusCode retryFailedTimes => s.updateOnPackageRetry statusCode retryFailedTimes
  | .recordsDropped reason droppedCount => s.updateOnRecordsDropped reason droppedCount
  | .recordsOverFlown overflown => s.updateOnRecordsOverFlown overflown
  | .recordsRejected reason rejectedCount => s.updateOnRecordsRejected reason rejectedCount
  | .storageOpened type => s.onAll fun t => { t with storageFormat := type }
  | .storageFailed reason => s.onAll fun t => { t with lastFailureReason := reason }
  | .generateStatsEvent rollupKind now => (s.generateStatsEvent rollupKind now).2

end ClientTelemetry
