import ClientTelemetry.Pal.Helpers.WorkerThread
/-!
# What a step of the worker thread can do

`Turns` lists what a step does to the queues, the locks and the places of
the threads, guards included; the invariants are read off it. `Grips` is
the first of them, and holds in every run: who holds a lock is where it
says, and `m_itemInProgress` shows the task the thread has taken unless it
has been taken back.
-/

namespace ClientTelemetry

open Function

variable {κ β : Type*}

/-- The task the thread has taken and not started. -/
def WorkerPc.unstarted : WorkerPc β → List (Task β)
  | .taken item | .locked item => [item]
  | _ => []

/-- What `m_itemInProgress` may show while the thread is there. -/
def WorkerPc.Noted : WorkerPc β → Option ℕ → Prop
  | .taken item, noted | .locked item, noted => noted = some item.id ∨ noted = none
  | .executing item, noted => noted = some item.id
  | _, noted => noted = none

/-- The task shown in progress has been taken, and may have been started. -/
theorem WorkerPc.Noted.mem {pc : WorkerPc β} {id : ℕ} (h : pc.Noted (some id)) :
    id ∈ pc.unstarted.map Task.id ∨ ∃ item, pc = .executing item ∧ item.id = id := by
  cases pc with
  | taken item | locked item =>
    rcases h with h | h
    · rw [Option.some.inj h]
      exact .inl List.mem_cons_self
    · cases h
  | executing item => exact .inr ⟨item, rfl, (Option.some.inj h).symm⟩
  | idle | finished | stopped => cases h

/-- The thread holds the execution mutex. -/
def WorkerPc.Holds : WorkerPc β → Prop
  | .locked _ | .executing _ | .finished => True
  | _ => False

/-- The caller holds the execution mutex. -/
def CancelPc.Holds : CancelPc → Prop
  | .holds _ => True
  | _ => False

/-- The task a caller is cancelling. -/
def CancelPc.target : CancelPc → Option ℕ
  | .idle => none
  | .awaits id | .holds id | .decides id => some id

namespace WorkerRun

/-! ## What a step can do -/

variable [DecidableEq κ]

/-- **What a step can do**, with what it does to the queues. -/
inductive Turns (s : WorkerRun κ β) : WorkerAction κ β → WorkerRun κ β → Prop
  | stays {a} : Turns s a s
  | clock {now} : Turns s (.clock now) { s with now := now }
  | queues {a item} (hnew : QueuedOnce s a → item.id ∉ s.queued.map Task.id)
      (hwithin : InTime s a → item.type = .timedCall →
        item.targetTime ≤ s.now + maxFutureDelta) :
    Turns s a { s with dispatcher := s.dispatcher.queueItem item, queued := item :: s.queued }
  | erases {a id} (ha : a.Cancels id) :
    Turns s a { s with
      dispatcher := { s.dispatcher with
        timerQueue := s.dispatcher.timerQueue.eraseP fun item => item.id = id } }
  | meets {k id waits} (hidle : s.callers k = .idle) (hlock : s.dispatcher.lock = none)
      (hnoted : s.dispatcher.itemInProgress = some id) :
    Turns s (.cancel k (some id) waits) { s with
      dispatcher := { s.dispatcher with lock := some k }
      callers := update s.callers k (if waits then .awaits id else .decides id) }
  | timesOut {k id timeout} (hpc : s.callers k = .awaits id) :
    Turns s (.go k timeout) { s with callers := update s.callers k (.decides id) }
  | holds {k id timeout} (hpc : s.callers k = .awaits id) (hfree : s.dispatcher.execution = none) :
    Turns s (.go k timeout) { s with
      dispatcher := s.dispatcher.cancelHold k, callers := update s.callers k (.holds id) }
  | clears {k id timeout} (hpc : s.callers k = .holds id) :
    Turns s (.go k timeout) { s with
      dispatcher := s.dispatcher.cancelClear, callers := update s.callers k (.decides id) }
  | decides {k id timeout} (hpc : s.callers k = .decides id) :
    Turns s (.go k timeout) { s with
      dispatcher := { s.dispatcher with lock := none }, callers := update s.callers k .idle }
  | forwards {item rest} (htimers : s.dispatcher.timerQueue = item :: rest)
      (hfar : s.now + maxFutureDelta < item.targetTime) :
    Turns s .work { s with
      dispatcher := { s.dispatcher with
        timerQueue := timerInsert { item with targetTime := s.now + maxFutureDelta } rest } }
  | takesTimer {item rest} (hpc : s.worker = .idle) (hlock : s.dispatcher.lock = none)
      (htimers : s.dispatcher.timerQueue = item :: rest) (hdue : item.targetTime ≤ s.now) :
    Turns s .work { s with
      dispatcher := { s.dispatcher with timerQueue := rest, itemInProgress := some item.id }
      worker := .taken item }
  | takesTask {item rest} (hpc : s.worker = .idle) (hlock : s.dispatcher.lock = none)
      (hqueue : s.dispatcher.queue = item :: rest) :
    Turns s .work { s with
      dispatcher := { s.dispatcher with queue := rest, itemInProgress := some item.id }
      worker := .taken item }
  | stops {item} (hpc : s.worker = .taken item) (htype : item.type = .shutdown) :
    Turns s .work { s with dispatcher := s.dispatcher.resetProgress, worker := .stopped }
  | locks {item} (hpc : s.worker = .taken item) (htype : item.type ≠ .shutdown)
      (hfree : s.dispatcher.execution = none) :
    Turns s .work { s with dispatcher := s.dispatcher.lockExecution, worker := .locked item }
  | starts {item} (hpc : s.worker = .locked item)
      (hnoted : s.dispatcher.itemInProgress ≠ none) :
    Turns s .work { s with worker := .executing item, started := item.id :: s.started }
  | skips {item} (hpc : s.worker = .locked item)
      (hnoted : s.dispatcher.itemInProgress = none) :
    Turns s .work { s with worker := .finished }
  | finishes {item} (hpc : s.worker = .executing item) :
    Turns s .work { s with dispatcher := s.dispatcher.resetProgress, worker := .finished }
  | unlocks (hpc : s.worker = .finished) :
    Turns s .work { s with dispatcher := s.dispatcher.unlockExecution, worker := .idle }

variable {s : WorkerRun κ β} {k : κ} {id : ℕ} {waits : Bool}

/-- The state the thread is in after a look for a task. -/
def looked (s : WorkerRun κ β) : Option (Task β) × WorkerThread κ β → WorkerRun κ β
  | (none, w) => { s with dispatcher := w }
  | (some item, w) => { s with dispatcher := w, worker := .taken item }

theorem takeQueued_turns (hpc : s.worker = .idle) (hlock : s.dispatcher.lock = none) :
    Turns s .work (s.looked s.dispatcher.takeQueued) := by
  unfold WorkerThread.takeQueued
  cases hqueue : s.dispatcher.queue with
  | nil => exact .stays
  | cons item rest => exact .takesTask hpc hlock hqueue

theorem takeItem_turns (hpc : s.worker = .idle) (hlock : s.dispatcher.lock = none) :
    Turns s .work (s.looked (s.dispatcher.takeItem s.now)) := by
  unfold WorkerThread.takeItem
  cases htimers : s.dispatcher.timerQueue with
  | nil => exact takeQueued_turns hpc hlock
  | cons item rest =>
    simp only
    split_ifs with hdue hfar
    · exact .takesTimer hpc hlock htimers hdue
    · exact .forwards htimers (by omega)
    · exact takeQueued_turns hpc hlock

theorem work_turns : Turns s .work s.work := by
  unfold work
  cases hpc : s.worker with
  | idle =>
    simp only
    split_ifs with hlock
    · have hturns := takeItem_turns hpc hlock
      generalize s.dispatcher.takeItem s.now = result at hturns
      rcases result with ⟨_ | item, w⟩
      · simpa only [looked, hpc] using hturns
      · exact hturns
    · exact .stays
  | taken item =>
    simp only
    split_ifs with htype hfree
    · exact .stops hpc htype
    · exact .locks hpc htype hfree
    · exact .stays
  | locked item =>
    simp only
    split_ifs with hnoted
    · exact .starts hpc hnoted
    · exact .skips hpc (not_not.1 hnoted)
  | executing item => exact .finishes hpc
  | finished => exact .unlocks hpc
  | stopped => exact .stays

theorem go_turns (k : κ) (timeout : Bool) : Turns s (.go k timeout) (s.go k timeout) := by
  unfold go
  cases hpc : s.callers k with
  | idle => exact .stays
  | awaits id =>
    simp only
    split_ifs with htime hfree
    · exact .timesOut hpc
    · exact .holds hpc hfree
    · exact .stays
  | holds id => exact .clears hpc
  | decides id => exact .decides hpc

section

variable (henters : s.callers k = .idle ∧ s.dispatcher.lock = none)
include henters

/-- A caller that finds its task in progress stays in `Cancel`. -/
theorem step_cancel_of_noted
    (hnoted : s.dispatcher.itemInProgress = some id) :
    s.step (.cancel k (some id) waits) = { s with
      dispatcher := { s.dispatcher with lock := some k }
      callers := update s.callers k (if waits then .awaits id else .decides id) } := by
  simp only [step, if_pos henters, cancel, WorkerThread.cancelBegin_of_noted hnoted]

/-- Any other task is taken out of the timers. -/
theorem step_cancel_of_ne
    (hnoted : s.dispatcher.itemInProgress ≠ some id) :
    s.step (.cancel k (some id) waits) = { s with
      dispatcher := { s.dispatcher with
        timerQueue := s.dispatcher.timerQueue.eraseP fun item => item.id = id } } := by
  simp only [step, if_pos henters, cancel, WorkerThread.cancelBegin_of_ne hnoted]

end

theorem step_turns (s : WorkerRun κ β) (a : WorkerAction κ β) : Turns s a (s.step a) := by
  cases a with
  | queue k item | bodyQueue item =>
    rw [step]
    split_ifs
    · exact .queues id fun h => h.2
    · exact .stays
  | cancel k item waits =>
    by_cases hfree : s.callers k = .idle ∧ s.dispatcher.lock = none
    · cases item with
      | none =>
        rw [step, if_pos hfree]
        exact .stays
      | some id =>
        by_cases hnoted : s.dispatcher.itemInProgress = some id
        · rw [step_cancel_of_noted hfree hnoted]
          exact .meets hfree.1 hfree.2 hnoted
        · rw [step_cancel_of_ne hfree hnoted]
          exact .erases (show WorkerAction.Cancels id _ from rfl)
    · rw [step, if_neg hfree]
      exact .stays
  | go k timeout => exact go_turns k timeout
  | work => exact work_turns
  | bodyCancel item =>
    rw [step]
    split_ifs
    · cases item with
      | none => exact .stays
      | some id =>
        by_cases hnoted : s.dispatcher.itemInProgress = some id
        · simp only [WorkerThread.cancelBegin, hnoted, if_true]
          exact .stays
        · rw [WorkerThread.cancelBegin_of_ne hnoted]
          exact .erases (show WorkerAction.Cancels id _ from rfl)
    · exact .stays
  | clock now => exact .clock

/-! ## Who holds what -/

/-- **The locks and the places fit together.** -/
structure Grips (s : WorkerRun κ β) : Prop where
  noted : s.worker.Noted s.dispatcher.itemInProgress
  workerHolds : s.dispatcher.execution = some .worker ↔ s.worker.Holds
  callerHolds : ∀ k, s.dispatcher.execution = some (.caller k) ↔ (s.callers k).Holds
  locked : ∀ k, s.dispatcher.lock = some k ↔ s.callers k ≠ .idle

namespace Grips

variable {k : κ} {pc : CancelPc} {id : ℕ}

omit [DecidableEq κ] in
theorem initial : Grips ({} : WorkerRun κ β) where
  noted := rfl
  workerHolds := ⟨(fun h => nomatch h), False.elim⟩
  callerHolds := fun _ => ⟨(fun h => nomatch h), False.elim⟩
  locked := fun _ => ⟨(fun h => nomatch h), fun h => (h rfl).elim⟩

variable (hs : Grips s)
include hs

omit [DecidableEq κ] in
/-- Nobody else is in `Cancel`. -/
theorem idle_of_ne {other : κ} (hbusy : s.callers k ≠ .idle)
    (hne : other ≠ k) : s.callers other = .idle := by
  by_contra hother
  have hboth := ((hs.locked other).2 hother).symm.trans ((hs.locked k).2 hbusy)
  exact hne (Option.some.inj hboth)

omit [DecidableEq κ] in
/-- While nobody holds `m_lock` nobody is in `Cancel`. -/
theorem idle_of_unlocked (hlock : s.dispatcher.lock = none) (k : κ) :
    s.callers k = .idle := by
  by_contra hbusy
  have hheld := (hs.locked k).2 hbusy
  rw [hlock] at hheld
  cases hheld

/-- A caller that neither takes nor gives back the execution mutex. -/
theorem callerHolds_update
    (hbefore : ¬ (s.callers k).Holds) (hafter : ¬ pc.Holds) (other : κ) :
    s.dispatcher.execution = some (.caller other) ↔ (update s.callers k pc other).Holds := by
  rw [hs.callerHolds other]
  by_cases hsame : other = k
  · subst hsame
    rw [update_self]
    exact iff_of_false hbefore hafter
  · rw [update_of_ne hsame]

/-- A caller that goes on in `Cancel` keeps the lock. -/
theorem locked_update (hbefore : s.callers k ≠ .idle)
    (hafter : pc ≠ .idle) (other : κ) :
    s.dispatcher.lock = some other ↔ update s.callers k pc other ≠ .idle := by
  rw [hs.locked other]
  by_cases hsame : other = k
  · subst hsame
    rw [update_self]
    exact iff_of_true hbefore hafter
  · rw [update_of_ne hsame]

/-- A caller that finds its task in progress takes the lock. -/
theorem meets (hidle : s.callers k = .idle)
    (hlock : s.dispatcher.lock = none) (hbusy : pc ≠ .idle) (hholds : ¬ pc.Holds) :
    Grips { s with
      dispatcher := { s.dispatcher with lock := some k }, callers := update s.callers k pc } := by
  refine { hs with
    callerHolds := hs.callerHolds_update (hidle ▸ not_false) hholds
    locked := fun other => ?_ }
  by_cases hsame : other = k
  · subst hsame
    dsimp only
    rw [update_self]
    exact iff_of_true rfl hbusy
  · dsimp only
    rw [update_of_ne hsame, ← hs.locked other, hlock]
    exact iff_of_false (fun h => hsame (Option.some.inj h).symm) nofun

theorem timesOut (hpc : s.callers k = .awaits id) :
    Grips { s with callers := update s.callers k (.decides id) } :=
  { hs with
    callerHolds := hs.callerHolds_update (hpc ▸ not_false) not_false
    locked := hs.locked_update (hpc ▸ nofun) nofun }

theorem holds (hpc : s.callers k = .awaits id)
    (hfree : s.dispatcher.execution = none) :
    Grips { s with
      dispatcher := s.dispatcher.cancelHold k, callers := update s.callers k (.holds id) } := by
  refine { hs with
    workerHolds := ?_
    callerHolds := fun other => ?_
    locked := hs.locked_update (hpc ▸ nofun) nofun }
  · rw [← hs.workerHolds, hfree]
    exact iff_of_false nofun nofun
  · by_cases hsame : other = k
    · subst hsame
      dsimp only
      rw [update_self]
      exact iff_of_true rfl trivial
    · dsimp only
      rw [update_of_ne hsame, ← hs.callerHolds other, hfree]
      exact iff_of_false (fun h => hsame (Thread.caller.inj (Option.some.inj h)).symm) nofun

/-- While a caller holds the execution mutex nothing executes. -/
theorem clears (hpc : s.callers k = .holds id) :
    Grips { s with
      dispatcher := s.dispatcher.cancelClear, callers := update s.callers k (.decides id) } := by
  have hheld : s.dispatcher.execution = some (.caller k) := (hs.callerHolds k).2 (hpc ▸ trivial)
  have hworker : ¬ s.worker.Holds := by
    rw [← hs.workerHolds, hheld]
    exact nofun
  refine { hs with
    noted := ?_
    workerHolds := iff_of_false nofun hworker
    callerHolds := fun other => ?_
    locked := hs.locked_update (hpc ▸ nofun) nofun }
  · cases hplace : s.worker with
    | taken item => exact .inr rfl
    | idle | stopped => rfl
    | locked item | executing item | finished => exact absurd (hplace ▸ trivial) hworker
  · refine iff_of_false nofun ?_
    by_cases hsame : other = k
    · subst hsame
      dsimp only
      rw [update_self]
      exact not_false
    · dsimp only
      rw [update_of_ne hsame, ← hs.callerHolds other, hheld]
      exact fun h => hsame (Thread.caller.inj (Option.some.inj h)).symm

theorem decides (hpc : s.callers k = .decides id) :
    Grips { s with
      dispatcher := { s.dispatcher with lock := none }, callers := update s.callers k .idle } := by
  refine { hs with
    callerHolds := hs.callerHolds_update (hpc ▸ not_false) not_false
    locked := fun other => ?_ }
  refine iff_of_false nofun (not_not.2 ?_)
  by_cases hsame : other = k
  · subst hsame
    exact update_self ..
  · dsimp only
    rw [update_of_ne hsame]
    exact hs.idle_of_ne (hpc ▸ nofun) hsame

omit [DecidableEq κ] in
/-- The thread goes on without a change of the execution mutex. -/
theorem worker {w : WorkerThread κ β} {pc : WorkerPc β} {started : List ℕ}
    (hexecution : w.execution = s.dispatcher.execution) (hlock : w.lock = s.dispatcher.lock)
    (hnoted : pc.Noted w.itemInProgress) (hholds : pc.Holds ↔ s.worker.Holds) :
    Grips { s with dispatcher := w, worker := pc, started := started } where
  noted := hnoted
  workerHolds := by
    dsimp only
    rw [hexecution, hholds]
    exact hs.workerHolds
  callerHolds := hexecution ▸ hs.callerHolds
  locked := hlock ▸ hs.locked

omit [DecidableEq κ] in
theorem locks {item : Task β} (hpc : s.worker = .taken item)
    (hfree : s.dispatcher.execution = none) :
    Grips { s with dispatcher := s.dispatcher.lockExecution, worker := .locked item } := by
  have hnoted := hs.noted
  rw [hpc] at hnoted
  refine { hs with
    noted := hnoted
    workerHolds := iff_of_true rfl trivial
    callerHolds := fun k => ?_ }
  rw [← hs.callerHolds k, hfree]
  exact iff_of_false nofun nofun

omit [DecidableEq κ] in
theorem unlocks (hpc : s.worker = .finished) :
    Grips { s with dispatcher := s.dispatcher.unlockExecution, worker := .idle } := by
  have hnoted := hs.noted
  have hheld : s.dispatcher.execution = some .worker := hs.workerHolds.2 (hpc ▸ trivial)
  rw [hpc] at hnoted
  refine { hs with
    noted := hnoted
    workerHolds := iff_of_false nofun not_false
    callerHolds := fun k => ?_ }
  rw [← hs.callerHolds k, hheld]
  exact iff_of_false nofun nofun

omit [DecidableEq κ] in
/-- A task is queued without any lock that outlasts the step. -/
theorem queues (item : Task β) :
    Grips { s with
      dispatcher := s.dispatcher.queueItem item, queued := item :: s.queued } := by
  have hsame : (s.dispatcher.queueItem item).itemInProgress = s.dispatcher.itemInProgress ∧
      (s.dispatcher.queueItem item).execution = s.dispatcher.execution ∧
      (s.dispatcher.queueItem item).lock = s.dispatcher.lock := by
    rw [WorkerThread.queueItem]
    split_ifs <;> exact ⟨rfl, rfl, rfl⟩
  exact ⟨hsame.1 ▸ hs.noted, hsame.2.1 ▸ hs.workerHolds, hsame.2.1 ▸ hs.callerHolds,
    hsame.2.2 ▸ hs.locked⟩

/-- **It holds after every step.** -/
theorem step (a : WorkerAction κ β) : Grips (s.step a) := by
  have hturns := s.step_turns a
  generalize s.step a = s' at hturns
  cases hturns with
  | stays => exact hs
  | clock | erases _ | forwards _ _ => exact { hs with }
  | queues _ _ => exact hs.queues _
  | @meets k id waits hidle hlock _ =>
    cases waits
    · exact hs.meets hidle hlock nofun not_false
    · exact hs.meets hidle hlock nofun not_false
  | timesOut hpc => exact hs.timesOut hpc
  | holds hpc hfree => exact hs.holds hpc hfree
  | clears hpc => exact hs.clears hpc
  | decides hpc => exact hs.decides hpc
  | takesTimer hpc _ _ _ | takesTask hpc _ _ =>
    exact hs.worker rfl rfl (.inl rfl) (by rw [hpc]; exact Iff.rfl)
  | stops hpc _ | finishes hpc => exact hs.worker rfl rfl rfl (by rw [hpc]; exact Iff.rfl)
  | locks hpc _ hfree => exact hs.locks hpc hfree
  | starts hpc hnoted =>
    have hshown := hs.noted
    rw [hpc] at hshown
    exact hs.worker rfl rfl (hshown.resolve_right hnoted) (by rw [hpc]; exact Iff.rfl)
  | skips hpc hnoted => exact hs.worker rfl rfl hnoted (by rw [hpc]; exact Iff.rfl)
  | unlocks hpc => exact hs.unlocks hpc

end Grips

end WorkerRun

end ClientTelemetry
