import ClientTelemetry.Pal.Model.TaskDispatcherCAPI
/-!
# Handles of scheduled tasks

`scheduleTask` queues a timed task and returns a `DeferredCallbackHandle`,
which keeps the task's address for as long as it lives. An address is
`Task.id`; who the task is, is the number of the `scheduleTask` call it
comes from, `Task.body`. An allocator may give the address of a task away
again once the task has been executed or cancelled.
-/

namespace ClientTelemetry

open Function

/-- The tasks the thread has in its hands. -/
def WorkerPc.current {β : Type*} : WorkerPc β → List (Task β)
  | .taken item | .locked item | .executing item => [item]
  | _ => []

/-- What threads with handles do. -/
inductive HandleAction (κ : Type*) where
  /-- A call of `scheduleTask`; the task is allocated at this address. -/
  | schedule (k : κ) (address delayMs : ℕ)
  /-- `DeferredCallbackHandle::Cancel` on the handle of this call, with a
  wait time above zero or not. -/
  | cancel (k : κ) (handle : ℕ) (waits : Bool)
  /-- A caller goes on in `Cancel`. -/
  | go (k : κ) (timeout : Bool)
  /-- The thread goes on. -/
  | work
  /-- The task that executes calls `scheduleTask`. -/
  | bodySchedule (address delayMs : ℕ)
  /-- The task that executes calls `Cancel` on a handle. -/
  | bodyCancel (handle : ℕ)
  | clock (now : ℕ)

namespace HandleAction

variable {κ : Type*}

/-- The handle that is cancelled. -/
def handle? : HandleAction κ → Option ℕ
  | .cancel _ handle _ | .bodyCancel handle => some handle
  | _ => none

/-- The address a new task gets. -/
def address? : HandleAction κ → Option ℕ
  | .schedule _ address _ | .bodySchedule address _ => some address
  | _ => none

end HandleAction

/-- **Handles on one `WorkerThread`.** -/
structure WorkerHandles (κ : Type*) where
  run : WorkerRun κ ℕ := {}
  /-- The address in each handle, by the number of the call that returned
  it. -/
  handles : List ℕ := []
  /-- The handle a caller has in `Cancel`. -/
  cancelling : κ → ℕ := fun _ => 0

namespace WorkerHandles

variable {κ : Type*} [DecidableEq κ] (s : WorkerHandles κ)

/-- The task of the next handle. -/
def newTask (address delayMs : ℕ) : Task ℕ :=
  ⟨address, .timedCall, s.run.now + delayMs, s.handles.length⟩

/-- A caller may enter the dispatcher. -/
def Enters (k : κ) : Prop :=
  s.run.callers k = .idle ∧ s.run.dispatcher.lock = none

instance (s : WorkerHandles κ) (k : κ) : Decidable (s.Enters k) :=
  inferInstanceAs (Decidable (_ ∧ _))

/-- **One step.** -/
def step : HandleAction κ → WorkerHandles κ
  | .schedule k address delayMs =>
    if s.Enters k then
      { s with
        run := s.run.step (.queue k (s.newTask address delayMs))
        handles := s.handles ++ [address] }
    else s
  | .cancel k handle waits =>
    if s.Enters k then
      match s.handles[handle]? with
      | none => s
      | some address =>
        { s with
          run := s.run.step (.cancel k (some address) waits)
          cancelling := update s.cancelling k handle }
    else s
  | .go k timeout => { s with run := s.run.step (.go k timeout) }
  | .work => { s with run := s.run.step .work }
  | .bodySchedule address delayMs =>
    if s.run.isExecuting ∧ s.run.dispatcher.lock = none then
      { s with
        run := s.run.step (.bodyQueue (s.newTask address delayMs))
        handles := s.handles ++ [address] }
    else s
  | .bodyCancel handle =>
    match s.handles[handle]? with
    | none => s
    | some address => { s with run := s.run.step (.bodyCancel (some address)) }
  | .clock now => { s with run := s.run.step (.clock now) }

/-- The tasks that wait in a queue. -/
def waiting : List (Task ℕ) :=
  s.run.dispatcher.timerQueue ++ s.run.dispatcher.queue

/-- The tasks that have been neither executed nor cancelled. -/
def live : List (Task ℕ) := s.waiting ++ s.run.worker.current

end WorkerHandles

/-- What happens to handles on a host's dispatcher. -/
inductive CapiAction where
  | schedule (address delayMs : ℕ)
  /-- `Cancel` on a handle, and the answer of the host's cancel function. -/
  | cancel (handle : ℕ) (host : Bool)
  /-- The host calls back for an id. -/
  | callback (taskId : ℕ)
  /-- The task of this call has been executed. -/
  | finish (handle : ℕ)
  | clock (now : ℕ)

namespace CapiAction

/-- The handle that is cancelled. -/
def handle? : CapiAction → Option ℕ
  | .cancel handle _ => some handle
  | _ => none

/-- The address a new task gets. -/
def address? : CapiAction → Option ℕ
  | .schedule address _ => some address
  | _ => none

end CapiAction

/-- **Handles on one `TaskDispatcher_CAPI`.** -/
structure CapiHandles where
  dispatcher : CapiDispatcher ℕ := {}
  /-- The tasks whose callback runs, on the host's threads. -/
  running : List (Task ℕ) := []
  now : ℕ := 0
  handles : List ℕ := []

namespace CapiHandles

/-- **One step.** The table has a lock of its own, and nothing is done under
it but what is one step here. -/
def step (s : CapiHandles) : CapiAction → CapiHandles
  | .schedule address delayMs =>
    { s with
      dispatcher := s.dispatcher.queueItem ⟨address, .timedCall, s.now + delayMs, s.handles.length⟩
      handles := s.handles ++ [address] }
  | .cancel handle _ =>
    match s.handles[handle]? with
    | none => s
    | some address => { s with dispatcher := (s.dispatcher.cancel address).2 }
  | .callback taskId =>
    { s with
      dispatcher := (s.dispatcher.callback taskId).2
      running := s.running ++ (s.dispatcher.callback taskId).1.toList }
  | .finish handle => { s with running := s.running.eraseP fun item => item.body = handle }
  | .clock now => { s with now := now }

/-- The tasks that wait for the host. -/
def waiting (s : CapiHandles) : List (Task ℕ) := s.dispatcher.pending.map Prod.snd

/-- The tasks that have been neither executed nor cancelled. -/
def live (s : CapiHandles) : List (Task ℕ) := s.waiting ++ s.running

end CapiHandles

end ClientTelemetry
