import ClientTelemetry.Pal.Model.WorkerThread
import ClientTelemetry.Tpm.Model.TransmissionPolicyManager
import ClientTelemetry.Tpm.Model.TransmitProfiles
/-!
# The transmission policy manager on its threads

The whole of `TransmissionPolicyManager` with the worker thread that runs
`uploadAsync`, and any number of threads that call it. A place of `Pc` is a
point between two accesses to what the threads share; a step takes a thread
from one place to the next. What is done under `m_lock` of the worker
thread, and what only one of the accesses of a step can be seen of, is one
step. A call reads `m_timerdelay` once.

The handle `m_scheduledUpload` has a mutex of its own, which is held
through `Cancel`; its waits are those for the lock of the worker thread.
The values that `increaseBackoff` returns come with the call. The profiles
change as others please.
-/

namespace ClientTelemetry

open Function

/-- What a task of the dispatcher does: `uploadAsync` with a latency, or
something of another component, which may call the manager. -/
inductive TaskBody where
  | uploadAsync (latency : EventLatency)
  | other
  deriving DecidableEq

/-- A task that runs `uploadAsync`. -/
def TaskBody.isUpload : TaskBody → Bool
  | .uploadAsync _ => true
  | .other => false

/-- The arguments of `scheduleUpload`. -/
structure UploadRequest where
  /-- In milliseconds. -/
  delay : ℤ
  latency : EventLatency
  force : Bool := false
  deriving DecidableEq

/-- What comes behind a call of `cancelUploadTask`. -/
inductive AfterCancel where
  /-- `pauseAllUploads` returns. -/
  | idle
  /-- `handleCleanup` goes on. -/
  | awaitUploads
  /-- `handleStop` goes on. -/
  | unlockStop
  /-- `uploadAsync` returns. -/
  | unlock
  /-- `scheduleUpload` goes on; it has read the clock. -/
  | exchange (request : UploadRequest) (read : ℕ)
  deriving DecidableEq

/-- **Where a thread is.** Each place names what the thread does next. -/
inductive Pc where
  /-- In no function of the manager. The worker, with a task in progress, is
  in code the task calls. -/
  | idle
  /-- `handleStart`: `m_isPaused = false`. -/
  | resume
  /-- `pauseAllUploads`: `m_isPaused = true`. -/
  | pause
  /-- `handleStop`. -/
  | lockStop
  | abort
  | unlockStop
  /-- `while (uploadCount() > 0)`. -/
  | awaitUploads
  /-- `handleEventArrived`. -/
  | testArrived (latency : EventLatency)
  | testScheduled
  | restartTimers
  | propose (force : Bool)
  /-- A context is created and added: with the latency of the event, or with
  the running one. -/
  | openUpload (latency : Option EventLatency)
  | initiateUpload (ctx : ContextId)
  /-- `finishUpload`: the context is removed. -/
  | finishUpload (ctx : ContextId) (nextUpload : ℤ)
  /-- `calculateNewPriority` and `scheduleUpload`. -/
  | reschedule (delay : ℤ)
  /-- `scheduleUpload`. -/
  | lockSchedule (request : UploadRequest)
  | checkDelay (request : UploadRequest)
  | checkCount (request : UploadRequest)
  | checkPaused (request : UploadRequest)
  | checkScheduled (request : UploadRequest)
  | exchange (request : UploadRequest) (read : ℕ)
  | createTask (request : UploadRequest)
  | assign (id : ℕ) (request : UploadRequest) (read : ℕ)
  /-- The call has not been refused and returns. The clock was last read at
  that time. -/
  | returns (request : UploadRequest) (read : ℕ)
  /-- The mutex is given back. -/
  | unlock
  /-- `uploadAsync`. -/
  | beginUpload (latency : EventLatency)
  | lockUpload
  | clearScheduled
  | testUpload
  /-- `cancelUploadTask`. -/
  | cancel (next : AfterCancel)
  | awaits (id : ℕ) (next : AfterCancel)
  | holds (id : ℕ) (next : AfterCancel)
  | decides (id : ℕ) (next : AfterCancel)
  | cancelled (answer : Bool) (next : AfterCancel)
  /-- The worker, with a task it has taken. -/
  | lockExecution
  | testItem
  | unlockExecution
  deriving DecidableEq

/-- `std::numeric_limits<uint64_t>::max()`. -/
def maxUploadTime : ℕ := 2 ^ 64 - 1

/-- **The manager, the worker thread, and where everybody is.** -/
structure PolicyRun (κ : Type*) where
  /-- `CFG_INT_MAX_PENDING_REQ`. -/
  maxPendingReq : ℕ
  /-- `m_isPaused`. -/
  isPaused : Bool := true
  /-- `m_isUploadScheduled`. -/
  isUploadScheduled : Bool := false
  /-- `m_scheduledUploadTime`. -/
  scheduledUploadTime : ℕ := maxUploadTime
  /-- Who holds `m_scheduledUploadMutex`. -/
  scheduledUploadMutex : Option (Thread κ) := none
  /-- `m_scheduledUpload`: the task of the handle. -/
  scheduledUpload : Option ℕ := none
  /-- `m_scheduledUploadAborted`. -/
  scheduledUploadAborted : Bool := false
  /-- `m_activeUploads`. -/
  activeUploads : Finset ContextId := ∅
  /-- `m_timerdelay`. -/
  timerdelay : ℤ := 2000
  /-- `m_runningLatency`. -/
  runningLatency : EventLatency := .realTime
  /-- `m_timers`, which the constructor leaves as it is. -/
  timers : ℤ × ℤ
  profiles : TransmitProfiles := {}
  dispatcher : WorkerThread κ TaskBody := {}
  /-- The task the worker has taken. -/
  item : Option (Task TaskBody) := none
  pcs : Thread κ → Pc := fun _ => .idle
  now : ℕ := 0
  /-- The number of the next task. -/
  nextTask : ℕ := 0
  /-- The number of the next context. -/
  nextContext : ContextId := 0
  /-- `requestedMinLatency` of the contexts. -/
  requestedMinLatency : ContextId → EventLatency := fun _ => .unspecified
  /-- The contexts `initiateUpload` was called with, the last one first. -/
  initiated : List ContextId := []

/-- **The calls of the manager.** -/
inductive PolicyCall where
  | handleStart
  | handlePause
  | handleStop
  | handleCleanup
  | handleFinishAllUploads
  | handleEventArrived (latency : EventLatency)
  | scheduleUpload (request : UploadRequest)
  /-- A handler that ends an upload, with what `increaseBackoff` returns. -/
  | terminal (handler : Terminal) (ctx : ContextId) (backoff : ℕ)
  deriving DecidableEq

/-- What can happen next. -/
inductive PolicyAction (κ : Type*) where
  /-- A thread calls the manager. -/
  | call (t : Thread κ) (c : PolicyCall)
  /-- A thread goes on; a wait may be over. -/
  | go (t : Thread κ) (timeout : Bool)
  /-- Another component queues a task. -/
  | queueOther (timed : Bool) (targetTime : ℕ)
  /-- The profiles change. -/
  | profiles (p : TransmitProfiles)
  | tick

namespace PolicyRun

variable {κ : Type*} [DecidableEq κ] (s : PolicyRun κ)

/-- The manager as it is constructed, with what is found in `m_timers`. -/
def initial (maxPendingReq : ℕ) (timers : ℤ × ℤ := (0, 0)) : PolicyRun κ :=
  { maxPendingReq := maxPendingReq, timers := timers }

/-- The thread goes to another place. -/
def goTo (t : Thread κ) (pc : Pc) : PolicyRun κ :=
  { s with pcs := update s.pcs t pc }

/-- `updateTimersIfNecessary`. -/
def updateTimersIfNecessary : Bool × PolicyRun κ :=
  if s.profiles.isTimerUpdateRequired then
    (true, { s with timers := s.profiles.getTimers.1, profiles := s.profiles.getTimers.2 })
  else (false, s)

/-- `calculateNewPriority`. -/
def calculateNewPriority : EventLatency × PolicyRun κ :=
  let s := s.updateTimersIfNecessary.2
  if s.timers.1 = s.timers.2 then (.normal, s)
  else if s.timers.1 < 0 then (.realTime, s)
  else if s.runningLatency = .realTime then (.normal, s)
  else (.realTime, s)

/-- `uploadCount`. -/
def uploadCount : ℕ := s.activeUploads.card

/-- The delay after which a handler that ends an upload asks for the next
one. -/
def nextUpload (ctx : ContextId) (backoff : ℕ) : Terminal → ℤ
  | .nothingToUpload =>
    if s.requestedMinLatency ctx = .normal then -1 else s.timerdelay
  | .packagingFailed => s.timerdelay
  | .eventsUploadSuccessful => 0
  | .eventsUploadRejected | .eventsUploadFailed => backoff
  | .eventsUploadAborted => -1

/-- Where a call begins. -/
def entry : PolicyCall → Pc
  | .handleStart => .resume
  | .handlePause | .handleFinishAllUploads => .pause
  | .handleStop => .lockStop
  | .handleCleanup => .cancel .awaitUploads
  | .handleEventArrived latency => .testArrived latency
  | .scheduleUpload request => .lockSchedule request
  | .terminal handler ctx backoff => .finishUpload ctx (s.nextUpload ctx backoff handler)

/-- The thread can call the manager: it is in no function of it, and if it
is the worker a task executes. -/
def canCall (t : Thread κ) : Bool :=
  s.pcs t = .idle ∧ (t = .worker → s.item.isSome)

/-- `EventLatency_RealTime` or above it, where the profile disables low
priority. -/
def raised (request : UploadRequest) : UploadRequest :=
  if s.timers.1 < 0 ∧ request.latency.toInt < EventLatency.realTime.toInt then
    { request with latency := .realTime }
  else request

/-- `Abs64`. -/
def abs64 (a b : ℕ) : ℕ := if b < a then a - b else b - a

/-! ## The steps of the functions -/

/-- A thread takes `m_scheduledUploadMutex`, or waits for it. -/
def lockThen (t : Thread κ) (pc : Pc) : PolicyRun κ :=
  if s.scheduledUploadMutex = none then { s with scheduledUploadMutex := some t }.goTo t pc else s

/-- `createEventsUploadContext` and `addUpload`. -/
def addUpload (latency : EventLatency) : PolicyRun κ :=
  { s with
    nextContext := s.nextContext + 1
    requestedMinLatency := update s.requestedMinLatency s.nextContext latency
    activeUploads := insert s.nextContext s.activeUploads }

/-- The part of `scheduleUpload` between its checks and the exchange of the
flag. -/
def checkScheduled (t : Thread κ) (request : UploadRequest) : PolicyRun κ :=
  let s := s.updateTimersIfNecessary.2
  let request := s.raised request
  let next : Pc := if request.force ∨ request.delay = 0 then .cancel (.exchange request s.now)
    else .exchange request s.now
  if request.force = false ∧ s.isUploadScheduled then
    let s := if request.latency.toInt < s.runningLatency.toInt then
      { s with runningLatency := request.latency } else s
    if abs64 s.scheduledUploadTime s.now ≤ request.delay then s.goTo t (.returns request s.now)
    else s.goTo t next
  else s.goTo t next

/-- The task `scheduleTask` creates. -/
def uploadTask (request : UploadRequest) : Task TaskBody where
  id := s.nextTask
  type := .timedCall
  targetTime := s.now + request.delay.toNat % 2 ^ 32
  body := .uploadAsync request.latency

/-- `m_scheduledUpload.Cancel`. -/
def cancel (t : Thread κ) (next : AfterCancel) : PolicyRun κ :=
  match s.scheduledUpload with
  | none => s.goTo t (.cancelled true next)
  | some id =>
    if s.dispatcher.lock = none then
      match s.dispatcher.cancelBegin t (some id) with
      | (some answer, w) => { s with dispatcher := w }.goTo t (.cancelled answer next)
      | (none, w) =>
        { s with dispatcher := w }.goTo t
          (if s.scheduledUploadAborted then .awaits id next else .decides id next)
    else s

/-- The wait in `Cancel`. -/
def awaits (id : ℕ) (next : AfterCancel) (timeout : Bool) : Thread κ → PolicyRun κ
  | .worker => s
  | .caller k =>
    if timeout then s.goTo (.caller k) (.decides id next)
    else if s.dispatcher.execution = none then
      { s with dispatcher := s.dispatcher.cancelHold k }.goTo (.caller k) (.holds id next)
    else s

/-- The worker is in no function of the manager: it looks for a task, or
the task it has ends. -/
def workerIdle : PolicyRun κ :=
  match s.item with
  | none =>
    if s.dispatcher.lock = none then
      match s.dispatcher.takeItem s.now with
      | (none, w) => { s with dispatcher := w }
      | (some item, w) => { s with dispatcher := w, item := some item }.goTo .worker .lockExecution
    else s
  | some _ =>
    { s with dispatcher := s.dispatcher.resetProgress, item := none }.goTo .worker .unlockExecution

/-- Where the worker begins with a task. -/
def bodyPc : Option (Task TaskBody) → Pc
  | some ⟨_, _, _, .uploadAsync latency⟩ => .beginUpload latency
  | _ => .idle

/-- Where the thread goes on behind `cancelUploadTask`. -/
def nextPc : AfterCancel → Pc
  | .idle => .idle
  | .awaitUploads => .awaitUploads
  | .unlockStop => .unlockStop
  | .unlock => .unlock
  | .exchange request read => .exchange request read

/-- **A thread goes on from a place.** Nothing happens where it has to
wait. -/
def goOn (t : Thread κ) (timeout : Bool) : Pc → PolicyRun κ
  | .idle =>
    match t with
    | .worker => s.workerIdle
    | .caller _ => s
  | .resume => { s with isPaused := false }.goTo t (.reschedule 1000)
  | .pause => { s with isPaused := true }.goTo t (.cancel .idle)
  | .lockStop => s.lockThen t .abort
  | .abort => { s with scheduledUploadAborted := true }.goTo t (.cancel .unlockStop)
  | .unlockStop => { s with scheduledUploadMutex := none }.goTo t .awaitUploads
  | .awaitUploads => if s.uploadCount = 0 then s.goTo t .idle else s
  | .testArrived latency =>
    if s.isPaused then s.goTo t .idle
    else if EventLatency.realTime.toInt < latency.toInt then s.goTo t (.openUpload (some latency))
    else s.goTo t .testScheduled
  | .testScheduled =>
    if s.isUploadScheduled = false ∨ s.profiles.isTimerUpdateRequired then s.goTo t .restartTimers
    else s.goTo t .idle
  | .restartTimers =>
    let (restart, s) := s.updateTimersIfNecessary
    if restart then { s with timerdelay := s.timers.2 }.goTo t (.propose true)
    else s.goTo t (.propose false)
  | .propose force =>
    let (proposed, s) := s.calculateNewPriority
    if 0 ≤ s.timerdelay then s.goTo t (.lockSchedule ⟨s.timerdelay, proposed, force⟩)
    else s.goTo t .idle
  | .openUpload latency =>
    (s.addUpload (latency.getD s.runningLatency)).goTo t (.initiateUpload s.nextContext)
  | .initiateUpload ctx => { s with initiated := ctx :: s.initiated }.goTo t .idle
  | .finishUpload ctx nextUpload =>
    { s with activeUploads := s.activeUploads.erase ctx }.goTo t
      (if 0 ≤ nextUpload then .reschedule nextUpload else .idle)
  | .reschedule delay =>
    let (proposed, s) := s.calculateNewPriority
    s.goTo t (.lockSchedule ⟨delay, proposed, false⟩)
  | .lockSchedule request => s.lockThen t (.checkDelay request)
  | .checkDelay request =>
    if request.delay < 0 ∨ s.timerdelay < 0 ∨ s.scheduledUploadAborted then s.goTo t .unlock
    else s.goTo t (.checkCount request)
  | .checkCount request =>
    if s.maxPendingReq ≤ s.uploadCount then s.goTo t .unlock else s.goTo t (.checkPaused request)
  | .checkPaused request =>
    if s.isPaused then s.goTo t .unlock else s.goTo t (.checkScheduled request)
  | .checkScheduled request => s.checkScheduled t request
  | .exchange request read =>
    if s.isUploadScheduled then s.goTo t (.returns request read)
    else
      { s with
        isUploadScheduled := true
        scheduledUploadTime := s.now + request.delay.toNat
        runningLatency := request.latency }.goTo t (.createTask request)
  | .createTask request =>
    if s.dispatcher.lock = none then
      { s with
        dispatcher := s.dispatcher.queueItem (s.uploadTask request)
        nextTask := s.nextTask + 1 }.goTo t (.assign s.nextTask request s.now)
    else s
  | .assign id request read =>
    if s.dispatcher.lock = none then
      { s with scheduledUpload := some id }.goTo t (.returns request read)
    else s
  | .returns _ _ | .unlock => { s with scheduledUploadMutex := none }.goTo t .idle
  | .beginUpload latency =>
    { s with runningLatency := latency, scheduledUploadTime := maxUploadTime }.goTo t .lockUpload
  | .lockUpload => s.lockThen t .clearScheduled
  | .clearScheduled => { s with isUploadScheduled := false }.goTo t .testUpload
  | .testUpload =>
    if s.isPaused ∨ s.scheduledUploadAborted then s.goTo t (.cancel .unlock)
    else { s with scheduledUploadMutex := none }.goTo t (.openUpload none)
  | .cancel next => s.cancel t next
  | .awaits id next => s.awaits id next timeout t
  | .holds id next => { s with dispatcher := s.dispatcher.cancelClear }.goTo t (.decides id next)
  | .decides id next =>
    { s with dispatcher := (s.dispatcher.cancelDecide id).2 }.goTo t
      (.cancelled (s.dispatcher.cancelDecide id).1 next)
  | .cancelled answer next =>
    { s with isUploadScheduled := if answer then false else s.isUploadScheduled }.goTo t
      (nextPc next)
  | .lockExecution =>
    if s.dispatcher.execution = none then
      { s with dispatcher := s.dispatcher.lockExecution }.goTo t .testItem
    else s
  | .testItem =>
    if s.dispatcher.itemInProgress ≠ none then s.goTo t (bodyPc s.item)
    else { s with item := none }.goTo t .unlockExecution
  | .unlockExecution => { s with dispatcher := s.dispatcher.unlockExecution }.goTo t .idle

/-- A task of another component. -/
def otherTask (timed : Bool) (targetTime : ℕ) : Task TaskBody where
  id := s.nextTask
  type := if timed then .timedCall else .call
  targetTime := targetTime
  body := .other

/-- **One step.** -/
def step : PolicyAction κ → PolicyRun κ
  | .call t c => if s.canCall t then s.goTo t (s.entry c) else s
  | .go t timeout => s.goOn t timeout (s.pcs t)
  | .queueOther timed targetTime =>
    if s.dispatcher.lock = none then
      { s with
        dispatcher := s.dispatcher.queueItem (s.otherTask timed targetTime)
        nextTask := s.nextTask + 1 }
    else s
  | .profiles p => { s with profiles := p }
  | .tick => { s with now := s.now + 1 }

end PolicyRun

end ClientTelemetry
