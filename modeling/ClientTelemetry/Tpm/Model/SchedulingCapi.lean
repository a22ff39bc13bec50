import ClientTelemetry.Pal.Model.TaskDispatcherCAPI
import ClientTelemetry.Tpm.Model.Scheduling
/-!
# The transmission policy manager on a host's dispatcher

The manager with `TaskDispatcher_CAPI` under it. There is no worker: the
host calls a task back on any of its threads, `Cancel` takes a task out of
the table and asks the host about it, and waits for nothing. All else is
done as on a worker thread, step by step.
-/

namespace ClientTelemetry

/-- **The manager and the host's dispatcher.** -/
structure CapiPolicyRun (κ : Type*) where
  /-- The manager, whose worker thread is out of use. -/
  manager : PolicyRun κ
  dispatcher : CapiDispatcher TaskBody := {}
  /-- The upload tasks that have been called back and have not cleared the
  flag, each with its thread. -/
  begun : List (κ × ℕ) := []

/-- What can happen next. -/
inductive CapiPolicyAction (κ : Type*) where
  /-- A thread calls the manager. -/
  | call (k : κ) (c : PolicyCall)
  /-- A thread goes on; the host's cancel function answers this, if it is
  asked. -/
  | go (k : κ) (host : Bool)
  /-- The host calls back for an id, on this thread. -/
  | callback (k : κ) (taskId : ℕ)
  /-- Another component queues a task. -/
  | queueOther (timed : Bool) (targetTime : ℕ)
  /-- The profiles change. -/
  | profiles (p : TransmitProfiles)
  | tick

namespace CapiPolicyRun

variable {κ : Type*} [DecidableEq κ] (s : CapiPolicyRun κ)

/-- The manager as it is constructed. -/
def initial (maxPendingReq : ℕ) (timers : ℤ × ℤ := (0, 0)) : CapiPolicyRun κ :=
  { manager := .initial maxPendingReq timers }

/-- `m_scheduledUpload.Cancel`. -/
def cancel (k : κ) (next : AfterCancel) (host : Bool) : CapiPolicyRun κ :=
  match s.manager.scheduledUpload with
  | none => { s with manager := s.manager.goTo (.caller k) (.cancelled true next) }
  | some id =>
    { s with
      manager := s.manager.goTo (.caller k)
        (.cancelled (s.dispatcher.cancelAnswer id host) next)
      dispatcher := (s.dispatcher.cancel id).2 }

/-- **A thread goes on from a place.** -/
def goOn (k : κ) (host : Bool) : Pc → CapiPolicyRun κ
  | .createTask request =>
    { s with
      manager := { s.manager with nextTask := s.manager.nextTask + 1 }.goTo (.caller k)
        (.assign s.manager.nextTask request s.manager.now)
      dispatcher := s.dispatcher.queueItem (s.manager.uploadTask request) }
  | .cancel next => s.cancel k next host
  | .clearScheduled =>
    { s with
      manager := s.manager.goOn (.caller k) false .clearScheduled
      begun := s.begun.filter fun e => e.1 ≠ k }
  -- only a `WorkerThread` brings a thread there
  | .awaits _ _ | .holds _ _ | .decides _ _ | .lockExecution | .testItem | .unlockExecution => s
  | pc => { s with manager := s.manager.goOn (.caller k) false pc }

/-- `OnAsyncTaskCallback`. -/
def callback (k : κ) (taskId : ℕ) : CapiPolicyRun κ :=
  match s.dispatcher.callback taskId with
  | (none, d) => { s with dispatcher := d }
  | (some task, d) =>
    { s with
      manager := s.manager.goTo (.caller k) (PolicyRun.bodyPc (some task))
      dispatcher := d
      begun := if task.body.isUpload then (k, task.id) :: s.begun else s.begun }

/-- **One step.** -/
def step : CapiPolicyAction κ → CapiPolicyRun κ
  | .call k c => { s with manager := s.manager.step (.call (.caller k) c) }
  | .go k host => s.goOn k host (s.manager.pcs (.caller k))
  | .callback k taskId => if s.manager.pcs (.caller k) = .idle then s.callback k taskId else s
  | .queueOther timed targetTime =>
    { s with
      manager := { s.manager with nextTask := s.manager.nextTask + 1 }
      dispatcher := s.dispatcher.queueItem (s.manager.otherTask timed targetTime) }
  | .profiles p => { s with manager := s.manager.step (.profiles p) }
  | .tick => { s with manager := s.manager.step .tick }

end CapiPolicyRun

end ClientTelemetry
