import ClientTelemetry.Pal.Model.WorkerThread
/-!
# The host's task dispatcher

`TaskDispatcher_CAPI` hands tasks to the host application under ids of its
own and keeps them in a table until the host calls back or the task is
cancelled. A task to be cancelled is looked for by its address; what
`Cancel` answers is what the host's cancel function answers for the id, and
false if there is no such task.
-/

namespace ClientTelemetry

/-- **`TaskDispatcher_CAPI`**, with the static table of pending tasks. The
number of a task stands for its id `OneDS_Task-n`. -/
structure CapiDispatcher (β : Type*) where
  /-- `GetPendingTasks()`. -/
  pending : List (ℕ × Task β) := []
  /-- `s_nextTaskId`, an `int32_t`: the model is about the first `2 ^ 32`
  tasks, before a number is given a second time. -/
  nextTaskId : ℕ := 0

namespace CapiDispatcher

variable {β : Type*} (d : CapiDispatcher β)

/-- `Queue`, which takes calls and timed calls only. -/
def queueItem (item : Task β) : CapiDispatcher β :=
  if item.type = .shutdown then d
  else { d with pending := d.pending ++ [(d.nextTaskId, item)], nextTaskId := d.nextTaskId + 1 }

/-- `OnAsyncTaskCallback`: the task the host calls back for leaves the table
and is run. -/
def callback (taskId : ℕ) : Option (Task β) × CapiDispatcher β :=
  ((d.pending.find? fun e => e.1 = taskId).map Prod.snd,
    { d with pending := d.pending.eraseP fun e => e.1 = taskId })

/-- `Cancel`: the task leaves the table; its id goes to the host. -/
def cancel (id : ℕ) : Option ℕ × CapiDispatcher β :=
  ((d.pending.find? fun e => e.2.id = id).map Prod.fst,
    { d with pending := d.pending.eraseP fun e => e.2.id = id })

/-- What `Cancel` answers, if the host's cancel function answers this. -/
def cancelAnswer (id : ℕ) (host : Bool) : Bool :=
  match (d.cancel id).1 with
  | some _ => host
  | none => false

end CapiDispatcher

end ClientTelemetry
