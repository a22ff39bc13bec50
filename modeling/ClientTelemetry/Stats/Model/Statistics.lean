import ClientTelemetry.Stats.Model.MetaStats
/-!
# When the statistics are sent

`Statistics` keeps a `MetaStats` and sends what it rolls up: at a start, at
a stop, and in between by a task of the dispatcher, which what happens to
events and uploads schedules while the statistics are started. `send` and
`scheduleSend` are cut here where another thread can come in between.
-/

namespace ClientTelemetry

/-- `GetMetaStatsSendIntervalSec() * 1000`, an unsigned number. -/
def sendIntervalMs (intervalSec : ℕ) : ℕ := intervalSec * 1000 % 2 ^ 32

/-- `REJECTED_REASON_SERVER_DECLINED`. -/
def rejectedServerDeclined : ℕ := 8

/-- `REJECTED_REASON_TENANT_KILLED`. -/
def rejectedTenantKilled : ℕ := 9

/-- `DROPPED_REASON_OFFLINE_STORAGE_SAVE_FAILED`. -/
def droppedSaveFailed : ℕ := 0

/-- `DROPPED_REASON_RETRY_EXCEEDED`. -/
def droppedRetryExceeded : ℕ := 5

/-- **What the statistics are told**, apart from starts and stops: the
arguments of the handlers that count something. -/
inductive StatsNotice where
  | incomingEventAccepted (tenantToken : String) (size : ℕ) (latency : EventLatency)
  | incomingEventFailed (tenantToken : String)
  | uploadStarted (sizeEstimate : ℕ) (metastatsOnly : Bool)
  | packagingFailed
  | uploadSuccessful (recordIdsAndTenantIds : OrdMap String String) (latency : EventLatency)
      (maxRetryCountSeen durationMs : ℕ) (metastatsOnly : Bool)
  | uploadRejected (status : ℤ) (recordIdsAndTenantIds : OrdMap String String)
  | uploadFailed (status : ℤ) (maxRetryCountSeen : ℕ)
  | storageOpened (str : String)
  | storageFailed (str : String)
  | storageTrimmed (countonTenant : OrdMap String ℕ)
  | storageRecordsDropped (countonTenant : OrdMap String ℕ)
  | storageRecordsRejected (countonTenant : OrdMap String ℕ)

namespace StatsNotice

/-- What a handler does to `m_metaStats`, under its mutex. -/
def updates (metaStatsTenantToken : String) : StatsNotice → List StatsUpdate
  | incomingEventAccepted token size latency =>
    [.eventIncoming token size latency.toInt (token = metaStatsTenantToken)]
  | incomingEventFailed token => [.recordsDropped droppedSaveFailed (OrdMap.singleton token 1)]
  | uploadStarted sizeEstimate metastatsOnly => [.postData sizeEstimate metastatsOnly]
  | packagingFailed => []
  | uploadSuccessful ids latency maxRetryCountSeen durationMs metastatsOnly =>
    [.packageSentSucceeded ids latency.toInt maxRetryCountSeen durationMs metastatsOnly]
  | uploadRejected status ids =>
    [.packageFailed status, .recordsRejected rejectedServerDeclined
      (ids.values.foldl (fun counts tenant => addCount counts tenant 1) OrdMap.empty)]
  | uploadFailed status maxRetryCountSeen => [.packageRetry status maxRetryCountSeen]
  | storageOpened str => [.storageOpened str]
  | storageFailed str => [.storageFailed str]
  | storageTrimmed counts => [.recordsOverFlown counts]
  | storageRecordsDropped counts => [.recordsDropped droppedRetryExceeded counts]
  | storageRecordsRejected counts => [.recordsRejected rejectedTenantKilled counts]

/-- The handler calls `scheduleSend`. -/
def schedules : StatsNotice → Bool
  | packagingFailed | storageOpened _ | storageFailed _ => false
  | _ => true

end StatsNotice

/-- **The state of the statistics.** -/
structure Statistics where
  /-- `m_metaStats`. -/
  metaStats : MetaStats
  /-- `m_isScheduled`, which the constructor leaves as it finds it. -/
  isScheduled : Bool
  /-- `m_isStarted`. -/
  isStarted : Bool := false
  /-- `m_intervalMs`. -/
  intervalMs : ℕ
  /-- `m_scheduledSend`: the task of the handle. -/
  scheduledSend : Option ℕ := none

namespace Statistics

/-- The constructor. -/
def construct (metaStats : MetaStats) (isScheduled : Bool) (intervalSec : ℕ) : Statistics :=
  { metaStats := metaStats, isScheduled := isScheduled, intervalMs := sendIntervalMs intervalSec }

variable (st : Statistics)

/-- A handler counts what it was told. -/
def notify (notice : StatsNotice) : Statistics :=
  { st with
    metaStats := (notice.updates st.metaStats.metaStatsTenantToken).foldl .step st.metaStats }

/-- `scheduleSend` behind the test of `m_isStarted`, with whether a task is
to be created. -/
def exchangeSend (intervalSec : ℕ) : Bool × Statistics :=
  let st := { st with intervalMs := sendIntervalMs intervalSec }
  if st.intervalMs ≠ 0 then (!st.isScheduled, { st with isScheduled := true }) else (false, st)

/-- `send` behind `m_isScheduled = false`, as far as the records. -/
def rollUp (rollupKind : RollUpKind) (intervalSec : ℕ) (now : ℤ) :
    Option (List TelemetryStats) × Statistics :=
  let st := { st with intervalMs := sendIntervalMs intervalSec }
  if st.intervalMs = 0 then (none, st)
  else
    ((st.metaStats.generateStatsEvent rollupKind now).1,
      { st with metaStats := (st.metaStats.generateStatsEvent rollupKind now).2 })

end Statistics

end ClientTelemetry
