import ClientTelemetry.Stats.Model.Statistics
import ClientTelemetry.Tpm.Model.Scheduling
/-!
# Starts, stops and what they are wired to

`TelemetrySystem` with the transmission policy manager on its threads and
the statistics. What a function of the system does is a list of
instructions: a call of the manager, or an access to what the threads
share. A thread works through its instructions and goes through the steps
of the manager in between. `allUploadsFinished` is wired to the statistics
and to `m_done`.

What the storage and the HTTP client answer comes with the step. Their
starts and stops are left out, and so are the debug events. The clock of
the manager is the only one.
-/

namespace ClientTelemetry

open Function

/-- **The handlers that raise `allUploadsFinished`.** -/
inductive Finisher where
  | finishAllUploads
  | stop
  | cleanup
  deriving DecidableEq

/-- The handler as a call of the manager. -/
def Finisher.handler : Finisher → PolicyCall
  | finishAllUploads => .handleFinishAllUploads
  | stop => .handleStop
  | cleanup => .handleCleanup

/-- What a call of `send` is made for. -/
inductive SendCause where
  | start
  | ongoing
  /-- The signal of a handler. -/
  | finished (f : Finisher)
  deriving DecidableEq

/-- The kind `send` is called with. -/
def SendCause.kind : SendCause → RollUpKind
  | start => .start
  | ongoing => .ongoing
  | finished _ => .stop

/-- What becomes of an event behind `sendEvent`. -/
inductive Delivery where
  /-- It is not decorated, or too large. -/
  | refused
  /-- It is stored, with a blob of this size. -/
  | stored (size : ℕ)
  /-- It is not stored. -/
  | failed
  deriving DecidableEq

/-- What a step is told from outside. -/
structure Answer where
  /-- A wait of the manager is over. -/
  timeout : Bool := false
  /-- `GetRecordCount()` is not zero. -/
  records : Bool := false
  delivery : Delivery := .refused
  deriving DecidableEq

/-- How a request ends, with what the statistics are told. -/
inductive UploadOutcome where
  | accepted (recordIdsAndTenantIds : OrdMap String String) (latency : EventLatency)
      (maxRetryCountSeen durationMs : ℕ) (metastatsOnly : Bool)
  | rejected (status : ℤ) (recordIdsAndTenantIds : OrdMap String String)
  | failed (status : ℤ) (maxRetryCountSeen : ℕ)
  | aborted (status : ℤ) (maxRetryCountSeen : ℕ)

/-- The handler of the statistics on the route. -/
def UploadOutcome.notice : UploadOutcome → StatsNotice
  | accepted ids latency retries durationMs metastatsOnly =>
    .uploadSuccessful ids latency retries durationMs metastatsOnly
  | rejected status ids => .uploadRejected status ids
  | failed status retries | aborted status retries => .uploadFailed status retries

/-- The handler of the manager at its end. -/
def UploadOutcome.terminal : UploadOutcome → Terminal
  | accepted .. => .eventsUploadSuccessful
  | rejected .. => .eventsUploadRejected
  | failed .. => .eventsUploadFailed
  | aborted .. => .eventsUploadAborted

/-- **An instruction.** -/
inductive Instr where
  /-- A call of the manager. -/
  | call (c : PolicyCall)
  /-- A call of the manager that raises `allUploadsFinished` at its end. -/
  | finish (f : Finisher)
  /-- `allUploadsFinished()`. -/
  | raise (f : Finisher)
  /-- `pause`: `m_isPaused.exchange(true)`. -/
  | exchangePaused
  /-- `resume`: `m_isPaused.exchange(false)`. -/
  | exchangeResumed
  /-- `start`: `m_isPaused = false`. -/
  | clearPaused
  /-- `onStop`: whether to upload, the upload, and the wait for it. -/
  | teardown
  | upload
  | awaitTeardown (begun timeoutInSec : ℕ)
  /-- `m_done`. -/
  | post
  | awaitDone
  /-- The stop is over; a rollup was due or not. -/
  | stopped (due : Bool)
  /-- `HttpClientManager`. -/
  | cancelAllRequests
  | addCallback (ctx : ContextId)
  | removeCallback (ctx : ContextId)
  /-- An event for `sendEvent`. -/
  | sendEvent (tenantToken : String) (latency : EventLatency)
  /-- `Statistics`: a handler that counts something. -/
  | notify (notice : StatsNotice)
  /-- `handleOnStart`: `m_isStarted = true`. -/
  | startStats
  /-- `handleOnStop`: `m_isStarted = false`, `m_isScheduled.exchange(false)`
  and `m_scheduledSend.Cancel()`. -/
  | endStats (f : Finisher)
  | exchangeScheduled
  | cancelSend
  /-- `if (m_intervalMs != 0)`, before `send`. -/
  | testInterval (cause : SendCause)
  /-- `send`: `m_isScheduled = false`, and the rest. -/
  | clearScheduled
  | rollUp (cause : SendCause)
  /-- `scheduleSend`: the test of `m_isStarted`, the exchange of
  `m_isScheduled`, and the task. -/
  | scheduleSend
  | exchangeSend
  | createSend

/-! ## The functions -/

/-- `Statistics::send`. -/
def send (cause : SendCause) : List Instr := [.clearScheduled, .rollUp cause]

/-- `Statistics::handleOnStart`. -/
def handleOnStart : List Instr := [.testInterval .start, .startStats]

/-- `Statistics::handleOnStop`. -/
def handleOnStop (f : Finisher) : List Instr :=
  [.endStats f, .exchangeScheduled, .testInterval (.finished f)]

/-- `allUploadsFinished >> stats.onStop >> flushTaskDispatcher`. -/
def allUploadsFinished (f : Finisher) : List Instr := handleOnStop f ++ [.post]

def onStart : List Instr := .call .handleStart :: handleOnStart

def onPause : List Instr := [.call .handlePause, .cancelAllRequests]

def onResume : List Instr := [.call .handleStart]

def onCleanup : List Instr := [.cancelAllRequests, .finish .cleanup]

def onStop : List Instr :=
  .teardown :: onPause ++
    [.cancelAllRequests, .finish .finishAllUploads, .finish .stop, .awaitDone]

/-- **What is called.** -/
inductive SystemCall where
  | start
  | stop
  | pause
  | resume
  | cleanup
  | upload
  | sendEvent (tenantToken : String) (latency : EventLatency)
  /-- A package has been encoded. -/
  | sendRequest (ctx : ContextId) (sizeEstimate : ℕ) (metastatsOnly : Bool)
  /-- `onHttpResponse`, with what `increaseBackoff` returns. -/
  | requestDone (ctx : ContextId) (outcome : UploadOutcome) (backoff : ℕ)
  /-- `retrievalFailed`, or an empty package. -/
  | nothingToUpload (ctx : ContextId)
  | compressionFailed (ctx : ContextId)
  /-- A notification of the storage, or another notice. -/
  | notify (notice : StatsNotice)

/-- **The system on its threads.** -/
structure LifecycleRun (κ : Type*) where
  manager : PolicyRun κ
  stats : Statistics
  /-- `m_isStarted` of the system. -/
  isStarted : Bool := false
  /-- `m_isPaused` of the system. -/
  isPaused : Bool := false
  /-- `m_done` has been posted. -/
  done : Bool := false
  /-- `m_httpCallbacks`, each by its context. -/
  httpCallbacks : List ContextId := []
  /-- `GetMetaStatsSendIntervalSec()`. -/
  intervalSec : ℕ
  /-- `GetTeardownTime()`. -/
  teardownTime : ℕ
  /-- What each thread still has to do. -/
  programs : Thread κ → List Instr := fun _ => []
  /-- The tasks that run `send`. -/
  sends : List ℕ := []
  /-- The active uploads each time `allUploadsFinished` was raised. -/
  raised : List (Finset ContextId) := []
  /-- The stop rollups of the last stop of each thread, so far. -/
  stopRollups : Thread κ → ℕ := fun _ => 0
  /-- The stops that are over: whether a rollup was due, and how many there
  were. -/
  stops : List (Bool × ℕ) := []
  /-- The statistics have been started, and no stop has ended them since. -/
  measuring : Bool := false

/-- What can happen next. -/
inductive LifecycleAction (κ : Type*) where
  /-- A thread calls the system. -/
  | call (t : Thread κ) (c : SystemCall)
  /-- A thread goes on. -/
  | go (t : Thread κ) (answer : Answer)
  /-- The configuration changes. -/
  | configure (intervalSec teardownTime : ℕ)
  /-- Another component queues a task. -/
  | queueOther (timed : Bool) (targetTime : ℕ)
  /-- The profiles change. -/
  | profiles (p : TransmitProfiles)
  | tick

namespace LifecycleRun

variable {κ : Type*} [DecidableEq κ] (s : LifecycleRun κ)

/-- The system as it is constructed. -/
def initial (maxPendingReq intervalSec teardownTime : ℕ) (metaStats : MetaStats)
    (isScheduled : Bool) (timers : ℤ × ℤ := (0, 0)) : LifecycleRun κ where
  manager := .initial maxPendingReq timers
  stats := .construct metaStats isScheduled intervalSec
  intervalSec := intervalSec
  teardownTime := teardownTime

/-- The manager goes a step. -/
def manage (a : PolicyAction κ) : LifecycleRun κ :=
  { s with manager := s.manager.step a }

/-- The thread is in a function of the manager next. -/
def enter (t : Thread κ) (c : PolicyCall) : LifecycleRun κ :=
  { s with manager := s.manager.goTo t (s.manager.entry c) }

/-- What a call begins with, and what is left to do. -/
def begins (t : Thread κ) : SystemCall → LifecycleRun κ × List Instr
  | .start =>
    if s.isStarted then (s, []) else ({ s with isStarted := true }, onStart ++ [.clearPaused])
  | .stop =>
    if s.isStarted then
      ({ s with isStarted := false, stopRollups := update s.stopRollups t 0 },
        onStop ++ [.stopped (sendIntervalMs s.intervalSec ≠ 0)])
    else (s, [])
  | .pause => (s, if s.isStarted then [.exchangePaused] else [])
  | .resume => (s, if s.isStarted then [.exchangeResumed] else [])
  | .cleanup => (s, if s.isStarted then onCleanup else [])
  | .upload => (s, [.upload])
  | .sendEvent tenantToken latency => (s, [.sendEvent tenantToken latency])
  | .sendRequest ctx sizeEstimate metastatsOnly =>
    (s, [.notify (.uploadStarted sizeEstimate metastatsOnly), .addCallback ctx])
  | .requestDone ctx outcome backoff =>
    (s, [.notify outcome.notice, .call (.terminal outcome.terminal ctx backoff),
      .removeCallback ctx])
  | .nothingToUpload ctx => (s, [.call (.terminal .nothingToUpload ctx 0)])
  | .compressionFailed ctx =>
    (s, [.notify .packagingFailed, .call (.terminal .packagingFailed ctx 0)])
  | .notify notice => (s, [.notify notice])

/-- `m_scheduledSend.Cancel()`, which waits for nothing but the lock. -/
def cancelSend (t : Thread κ) : LifecycleRun κ × List Instr :=
  match s.stats.scheduledSend with
  | none => (s, [])
  | some id =>
    if s.manager.dispatcher.lock = none then
      match s.manager.dispatcher.cancelBegin t (some id) with
      | (some _, w) => ({ s with manager := { s.manager with dispatcher := w } }, [])
      | (none, _) => (s, [])
    else (s, [.cancelSend])

/-- The task of `scheduleSend` is created and kept. -/
def createSend : LifecycleRun κ × List Instr :=
  if s.manager.dispatcher.lock = none then
    ({ s.manage (.queueOther true (s.manager.now + s.stats.intervalMs)) with
      sends := s.manager.nextTask :: s.sends
      stats := { s.stats with scheduledSend := some s.manager.nextTask } }, [])
  else (s, [.createSend])

/-- The rest of `send`: a rollup is made and its records are sent. -/
def rollUp (t : Thread κ) (cause : SendCause) : LifecycleRun κ × List Instr :=
  match s.stats.rollUp cause.kind s.intervalSec s.manager.now with
  | (none, st) => ({ s with stats := st }, [])
  | (some records, st) =>
    let made :=
      match cause with
      | .finished .finishAllUploads | .finished .stop => 1
      | _ => 0
    ({ s with stats := st, stopRollups := update s.stopRollups t (s.stopRollups t + made) },
      records.map fun _ => .sendEvent st.metaStats.metaStatsTenantToken .normal)

/-- **A thread carries an instruction out.** What it adds to its
instructions comes first; a thread that has to wait adds the same again. -/
def execute (t : Thread κ) (answer : Answer) : Instr → LifecycleRun κ × List Instr
  | .call c => (s.enter t c, [])
  | .finish f => (s.enter t f.handler, [.raise f])
  | .raise f => ({ s with raised := s.manager.activeUploads :: s.raised }, allUploadsFinished f)
  | .exchangePaused => ({ s with isPaused := true }, if s.isPaused then [] else onPause)
  | .exchangeResumed => ({ s with isPaused := false }, if s.isPaused then onResume else [])
  | .clearPaused => ({ s with isPaused := false }, [])
  | .teardown =>
    (s, if 0 < s.teardownTime ∧ s.manager.isPaused = false then
      [.upload, .awaitTeardown s.manager.now s.teardownTime] else [])
  | .upload => (s, if answer.records then [.call (.scheduleUpload ⟨0, .normal, true⟩)] else [])
  | .awaitTeardown begun timeoutInSec =>
    (s, if (answer.records ∨ 0 < s.manager.uploadCount ∨ s.manager.isUploadScheduled) ∧
        s.manager.now - begun < 1000 * timeoutInSec then
      [.awaitTeardown begun timeoutInSec] else [])
  | .post => ({ s with done := true }, [])
  | .awaitDone => (s, if s.done then [] else [.awaitDone])
  | .stopped due => ({ s with stops := (due, s.stopRollups t) :: s.stops }, [])
  | .cancelAllRequests => (s, if s.httpCallbacks = [] then [] else [.cancelAllRequests])
  | .addCallback ctx => ({ s with httpCallbacks := s.httpCallbacks ++ [ctx] }, [])
  | .removeCallback ctx => ({ s with httpCallbacks := s.httpCallbacks.erase ctx }, [])
  | .sendEvent tenantToken latency =>
    match answer.delivery with
    | .refused => (s, [])
    | .stored size =>
      (s, [.notify (.incomingEventAccepted tenantToken size latency),
        .call (.handleEventArrived latency)])
    | .failed => (s, [.notify (.incomingEventFailed tenantToken)])
  | .notify notice =>
    ({ s with stats := s.stats.notify notice }, if notice.schedules then [.scheduleSend] else [])
  | .startStats => ({ s with stats := { s.stats with isStarted := true }, measuring := true }, [])
  | .endStats f =>
    ({ s with
      stats := { s.stats with isStarted := false }
      measuring := if f = .cleanup then s.measuring else false }, [])
  | .exchangeScheduled =>
    ({ s with stats := { s.stats with isScheduled := false } },
      if s.stats.isScheduled then [.cancelSend] else [])
  | .cancelSend => s.cancelSend t
  | .testInterval cause => (s, if s.stats.intervalMs ≠ 0 then send cause else [])
  | .clearScheduled => ({ s with stats := { s.stats with isScheduled := false } }, [])
  | .rollUp cause => s.rollUp t cause
  | .scheduleSend => (s, if s.stats.isStarted then [.exchangeSend] else [])
  | .exchangeSend =>
    ({ s with stats := (s.stats.exchangeSend s.intervalSec).2 },
      if (s.stats.exchangeSend s.intervalSec).1 then [.createSend] else [])
  | .createSend => s.createSend

/-- A thread that is in no function goes on: the worker begins with a task
of the statistics, or goes on with its loop. -/
def goIdle (t : Thread κ) (answer : Answer) : LifecycleRun κ :=
  match t, s.manager.item with
  | .worker, some item =>
    if item.id ∈ s.sends then
      { s with
        sends := s.sends.erase item.id
        programs := update s.programs .worker (send .ongoing) }
    else s.manage (.go .worker answer.timeout)
  | t, _ => s.manage (.go t answer.timeout)

/-- A thread goes on: in the manager, with an instruction, or in neither. -/
def go (t : Thread κ) (answer : Answer) : LifecycleRun κ :=
  if s.manager.pcs t = .idle then
    match s.programs t with
    | [] => s.goIdle t answer
    | instr :: rest =>
      let (s, added) := s.execute t answer instr
      { s with programs := update s.programs t (added ++ rest) }
  else s.manage (.go t answer.timeout)

/-- **One step.** -/
def step : LifecycleAction κ → LifecycleRun κ
  | .call t c =>
    if s.manager.canCall t ∧ (s.programs t).isEmpty then
      let (s, left) := s.begins t c
      { s with programs := update s.programs t left }
    else s
  | .go t answer => s.go t answer
  | .configure intervalSec teardownTime =>
    { s with intervalSec := intervalSec, teardownTime := teardownTime }
  | .queueOther timed targetTime => s.manage (.queueOther timed targetTime)
  | .profiles p => s.manage (.profiles p)
  | .tick => s.manage .tick

end LifecycleRun

end ClientTelemetry
