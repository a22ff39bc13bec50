import ClientTelemetry.Model.Record
import Mathlib.Logic.Function.Basic
/-!
# The worker thread

`WorkerThread` keeps timed tasks in the order of their target times and
the others in the order of their arrival. Its thread takes one task at a
time under `m_lock`, notes it in `m_itemInProgress`, and runs it under
`m_execution_mutex`. `Cancel` holds `m_lock` for as long as it takes,
which may be a bounded wait for the execution mutex.

What is done under `m_lock` and waits for nothing is one step. So is the
end of a task with the reset of `m_itemInProgress` behind it: a task counts
as executing until then. The waits of the thread for something to do are
left out, as it may look again at any time, and so is a `Join` from a task,
after which the thread does not know itself. A task has a number of its own
where the source has an address.
-/

namespace ClientTelemetry

open Function

/-- `Task::Type`. -/
inductive TaskType where
  | call
  | timedCall
  | shutdown
  deriving DecidableEq, Repr

/-- **A task.** -/
structure Task (β : Type*) where
  id : ℕ
  type : TaskType
  targetTime : ℕ
  body : β
  deriving DecidableEq

/-- `MAX_FUTURE_DELTA_MS`. -/
def maxFutureDelta : ℕ := 60 * 60 * 1000

/-- The worker, or a thread that calls it. -/
inductive Thread (κ : Type*) where
  | worker
  | caller (k : κ)
  deriving DecidableEq

/-- **The worker thread**, as its callers share it. -/
structure WorkerThread (κ β : Type*) where
  /-- `m_queue`. -/
  queue : List (Task β) := []
  /-- `m_timerQueue`. -/
  timerQueue : List (Task β) := []
  /-- `m_itemInProgress`. -/
  itemInProgress : Option ℕ := none
  /-- Who holds `m_lock` from one step to the next. -/
  lock : Option κ := none
  /-- Who holds `m_execution_mutex`. -/
  execution : Option (Thread κ) := none

/-- The insertion of a timed task: behind those that are due before it. -/
def timerInsert {β : Type*} (item : Task β) : List (Task β) → List (Task β)
  | [] => [item]
  | first :: rest =>
    if first.targetTime < item.targetTime then first :: timerInsert item rest
    else item :: first :: rest

namespace WorkerThread

variable {κ β : Type*} (w : WorkerThread κ β)

/-- `Queue`. -/
def queueItem (item : Task β) : WorkerThread κ β :=
  if item.type = .timedCall then { w with timerQueue := timerInsert item w.timerQueue }
  else { w with queue := w.queue ++ [item] }

/-- The thread takes the first task of `m_queue`. -/
def takeQueued : Option (Task β) × WorkerThread κ β :=
  match w.queue with
  | [] => (none, w)
  | item :: rest => (some item, { w with queue := rest, itemInProgress := some item.id })

/-- The thread looks for a task: a timed one that is due, or else the
first of `m_queue`. A timed task too far in the future is brought forward
and the thread looks again. -/
def takeItem (now : ℕ) : Option (Task β) × WorkerThread κ β :=
  match w.timerQueue with
  | [] => w.takeQueued
  | item :: rest =>
    if item.targetTime ≤ now then
      (some item, { w with timerQueue := rest, itemInProgress := some item.id })
    else if maxFutureDelta < item.targetTime - now then
      (none, { w with
        timerQueue := timerInsert { item with targetTime := now + maxFutureDelta } rest })
    else w.takeQueued

/-- The first part of `Cancel`, which returns unless the caller is another
thread and the task is in progress. -/
def cancelBegin (self : Thread κ) : Option ℕ → Option Bool × WorkerThread κ β
  | none => (some false, w)
  | some id =>
    if w.itemInProgress = some id then
      match self with
      | .worker => (some true, w)
      | .caller k => (none, { w with lock := some k })
    else (some true, { w with timerQueue := w.timerQueue.eraseP fun item => item.id = id })

/-- `m_execution_mutex.try_lock_for` succeeds. -/
def cancelHold (k : κ) : WorkerThread κ β :=
  { w with execution := some (.caller k) }

/-- `m_itemInProgress = nullptr; m_execution_mutex.unlock()`. -/
def cancelClear : WorkerThread κ β :=
  { w with itemInProgress := none, execution := none }

/-- `return (m_itemInProgress != item)`. -/
def cancelDecide (id : ℕ) : Bool × WorkerThread κ β :=
  (w.itemInProgress ≠ some id, { w with lock := none })

/-- The thread takes the execution mutex. -/
def lockExecution : WorkerThread κ β :=
  { w with execution := some .worker }

/-- The thread resets `m_itemInProgress`. -/
def resetProgress : WorkerThread κ β := { w with itemInProgress := none }

/-- The thread gives the execution mutex back. -/
def unlockExecution : WorkerThread κ β := { w with execution := none }

end WorkerThread

/-! ## The thread and its callers -/

/-- **Where the thread is** in `threadFunc`. -/
inductive WorkerPc (β : Type*) where
  /-- Before it takes `m_lock`. -/
  | idle
  /-- It has taken a task. -/
  | taken (item : Task β)
  /-- It holds the execution mutex. -/
  | locked (item : Task β)
  | executing (item : Task β)
  /-- It has done with the task, and still holds the execution mutex. -/
  | finished
  | stopped

/-- **Where a caller is** in `Cancel`. -/
inductive CancelPc where
  | idle
  /-- In `try_lock_for`. -/
  | awaits (id : ℕ)
  /-- It holds the execution mutex. -/
  | holds (id : ℕ)
  | decides (id : ℕ)
  deriving DecidableEq

/-- **The worker thread, where everybody is in it, and what has been
done.** -/
structure WorkerRun (κ β : Type*) where
  dispatcher : WorkerThread κ β := {}
  worker : WorkerPc β := .idle
  callers : κ → CancelPc := fun _ => .idle
  now : ℕ := 0
  /-- The tasks queued so far. -/
  queued : List (Task β) := []
  /-- The tasks whose body has been started, the last one first. -/
  started : List ℕ := []

/-- What can happen next. -/
inductive WorkerAction (κ β : Type*) where
  /-- A call of `Queue`. -/
  | queue (k : κ) (item : Task β)
  /-- A call of `Cancel`, with a wait time above zero or not. -/
  | cancel (k : κ) (item : Option ℕ) (waits : Bool)
  /-- A caller goes on in `Cancel`; a wait may be over. -/
  | go (k : κ) (timeout : Bool)
  /-- The thread goes on. -/
  | work
  /-- The body of the task that executes calls `Queue`. -/
  | bodyQueue (item : Task β)
  /-- The body of the task that executes calls `Cancel`. -/
  | bodyCancel (item : Option ℕ)
  /-- The clock shows this time. -/
  | clock (now : ℕ)

namespace WorkerRun

variable {κ β : Type*} [DecidableEq κ] (s : WorkerRun κ β)

/-- The thread goes on. -/
def work : WorkerRun κ β :=
  match s.worker with
  | .idle =>
    if s.dispatcher.lock = none then
      match s.dispatcher.takeItem s.now with
      | (none, w) => { s with dispatcher := w }
      | (some item, w) => { s with dispatcher := w, worker := .taken item }
    else s
  | .taken item =>
    if item.type = .shutdown then
      { s with dispatcher := s.dispatcher.resetProgress, worker := .stopped }
    else if s.dispatcher.execution = none then
      { s with dispatcher := s.dispatcher.lockExecution, worker := .locked item }
    else s
  | .locked item =>
    if s.dispatcher.itemInProgress ≠ none then
      { s with worker := .executing item, started := item.id :: s.started }
    else { s with worker := .finished }
  | .executing _ => { s with dispatcher := s.dispatcher.resetProgress, worker := .finished }
  | .finished => { s with dispatcher := s.dispatcher.unlockExecution, worker := .idle }
  | .stopped => s

/-- A caller goes on in `Cancel`. -/
def go (k : κ) (timeout : Bool) : WorkerRun κ β :=
  match s.callers k with
  | .idle => s
  | .awaits id =>
    if timeout then { s with callers := update s.callers k (.decides id) }
    else if s.dispatcher.execution = none then
      { s with
        dispatcher := s.dispatcher.cancelHold k
        callers := update s.callers k (.holds id) }
    else s
  | .holds id =>
    { s with
      dispatcher := s.dispatcher.cancelClear
      callers := update s.callers k (.decides id) }
  | .decides id =>
    { s with
      dispatcher := (s.dispatcher.cancelDecide id).2
      callers := update s.callers k .idle }

/-- A caller calls `Cancel`. -/
def cancel (k : κ) (item : Option ℕ) (waits : Bool) : WorkerRun κ β :=
  match item, s.dispatcher.cancelBegin (.caller k) item with
  | some id, (none, w) =>
    { s with
      dispatcher := w
      callers := update s.callers k (if waits then .awaits id else .decides id) }
  | _, (_, w) => { s with dispatcher := w }

/-- The body of a task executes. -/
def isExecuting : Bool :=
  match s.worker with
  | .executing _ => true
  | _ => false

/-- The task with this number executes. -/
def Executing (id : ℕ) : Prop :=
  ∃ item, s.worker = .executing item ∧ item.id = id

/-- **One step.** Nothing happens where the caller is not free or has to
wait for a lock. -/
def step : WorkerAction κ β → WorkerRun κ β
  | .queue k item =>
    if s.callers k = .idle ∧ s.dispatcher.lock = none then
      { s with dispatcher := s.dispatcher.queueItem item, queued := item :: s.queued }
    else s
  | .cancel k item waits =>
    if s.callers k = .idle ∧ s.dispatcher.lock = none then s.cancel k item waits else s
  | .go k timeout => s.go k timeout
  | .work => s.work
  | .bodyQueue item =>
    if s.isExecuting ∧ s.dispatcher.lock = none then
      { s with dispatcher := s.dispatcher.queueItem item, queued := item :: s.queued }
    else s
  | .bodyCancel item =>
    if s.isExecuting ∧ s.dispatcher.lock = none then
      { s with dispatcher := (s.dispatcher.cancelBegin .worker item).2 }
    else s
  | .clock now => { s with now := now }

/-- What a step returns from a call of `Cancel` by a caller: the task and
the answer. -/
def returned : WorkerAction κ β → Option (Option ℕ × Bool)
  | .cancel k item _ =>
    if s.callers k = .idle ∧ s.dispatcher.lock = none then
      (s.dispatcher.cancelBegin (.caller k) item).1.map fun answer => (item, answer)
    else none
  | .go k _ =>
    match s.callers k with
    | .decides id => some (some id, (s.dispatcher.cancelDecide id).1)
    | _ => none
  | _ => none

/-- A task is queued once: its number is not that of a task queued
before. -/
def QueuedOnce : WorkerAction κ β → Prop
  | .queue _ item => item.id ∉ s.queued.map Task.id
  | .bodyQueue item => item.id ∉ s.queued.map Task.id
  | _ => True

end WorkerRun

/-! ## In which order tasks start -/

variable {κ β : Type*}

namespace WorkerAction

/-- `Cancel` is called for this task. -/
def Cancels (id : ℕ) : WorkerAction κ β → Prop
  | .cancel _ (some target) _ | .bodyCancel (some target) => target = id
  | _ => False

/-- `Cancel` is called for this task with a wait time above zero, by a
thread that is not the worker. -/
def WaitsFor (id : ℕ) : WorkerAction κ β → Prop
  | .cancel _ (some target) true => target = id
  | _ => False

end WorkerAction

namespace WorkerRun

variable (s : WorkerRun κ β)

/-- **The runs considered**: a task is queued once, with a target time at
most an hour ahead if it is timed, and the clock does not go back. -/
def InTime : WorkerAction κ β → Prop
  | .queue _ item | .bodyQueue item =>
    item.id ∉ s.queued.map Task.id ∧
      (item.type = .timedCall → item.targetTime ≤ s.now + maxFutureDelta)
  | .clock now => s.now ≤ now
  | _ => True

instance (s : WorkerRun κ β) : ∀ a : WorkerAction κ β, Decidable (s.InTime a)
  | .queue _ _ | .bodyQueue _ => inferInstanceAs (Decidable (_ ∧ _))
  | .clock _ => inferInstanceAs (Decidable (_ ≤ _))
  | .cancel _ _ _ | .go _ _ | .work | .bodyCancel _ => .isTrue trivial

/-- The task whose body a step starts. -/
def starts : WorkerAction κ β → Option (Task β)
  | .work =>
    match s.worker with
    | .locked item => if s.dispatcher.itemInProgress ≠ none then some item else none
    | _ => none
  | _ => none

/-- The first task was queued before the second. -/
def ArrivedBefore (first second : Task β) : Prop :=
  ∃ later earlier, s.queued = later ++ second :: earlier ∧ first ∈ earlier

/-- The tasks that are not timed, in the order they were queued. -/
def arrivals : List (Task β) :=
  s.queued.reverse.filter fun item => item.type ≠ .timedCall

/-- The numbers of those that have been started, in the order of their
start. -/
def startedArrivals : List ℕ :=
  s.started.reverse.filter fun id => id ∈ s.arrivals.map Task.id

/-- Those that were queued before the first shutdown item. -/
def beforeShutdown : List (Task β) :=
  s.arrivals.takeWhile fun item => item.type ≠ .shutdown

end WorkerRun

end ClientTelemetry
