import ClientTelemetry.Common.Run
import ClientTelemetry.Pal.Helpers.Turns
import ClientTelemetry.Pal.Model.Handles
/-!
# Whose task a handle cancels

A dispatcher compares addresses, and a handle keeps its address when the
task it was returned for is gone. **As long as no handle is cancelled while
another task lives at its address, `Cancel` concerns the handle's own task
only**, and nothing once that task is over (`handle_cancels_own_task`). An
address given away again is enough for the contrary
(`stale_handle_cancels_another`).
-/

namespace ClientTelemetry

open Function List

/-! ## What the thread has in its hands -/

namespace WorkerRun

variable {κ β : Type*}

/-- The task shown in progress is the one the thread has. -/
theorem Grips.id_of_mem_current {s : WorkerRun κ β} (hs : s.Grips) {id : ℕ}
    (hnoted : s.dispatcher.itemInProgress = some id) :
    ∃ task ∈ s.worker.current, task.id = id := by
  have hshown := hs.noted
  rw [hnoted] at hshown
  cases hpc : s.worker with
  | taken item | locked item =>
    rw [hpc] at hshown
    rcases hshown with hshown | hshown
    · exact ⟨item, mem_cons_self, (Option.some.inj hshown).symm⟩
    · cases hshown
  | executing item =>
    rw [hpc] at hshown
    exact ⟨item, mem_cons_self, (Option.some.inj hshown).symm⟩
  | idle | finished | stopped =>
    rw [hpc] at hshown
    cases hshown

/-- The thread has one task at most. -/
theorem eq_of_mem_current {pc : WorkerPc β} {first second : Task β} (h₁ : first ∈ pc.current)
    (h₂ : second ∈ pc.current) : first = second := by
  cases pc with
  | taken item | locked item | executing item =>
    rw [mem_singleton.1 h₁, mem_singleton.1 h₂]
  | idle | finished | stopped => cases h₁

variable [DecidableEq κ] {s s' : WorkerRun κ β} {a : WorkerAction κ β}

/-- Only a call of `Cancel` brings a caller into it. -/
theorem Turns.callers_ne_idle (h : Turns s a s') (ha : ∀ k item waits, a ≠ .cancel k item waits)
    {k : κ} (hk : s'.callers k ≠ .idle) : s.callers k ≠ .idle := by
  cases h with
  | meets _ _ _ => exact absurd rfl (ha _ _ _)
  | @timesOut k' id _ hpc | @holds k' id _ hpc _ | @clears k' id _ hpc | @decides k' id _ hpc =>
    by_cases hsame : k = k'
    · rw [hsame, hpc]
      exact nofun
    · dsimp only at hk
      rwa [update_of_ne hsame] at hk
  | stays | clock | queues _ _ | erases _ | forwards _ _ | takesTimer _ _ _ _ | takesTask _ _ _
  | stops _ _ | locks _ _ _ | starts _ _ | skips _ _ | finishes _ | unlocks _ => exact hk

/-- The thread takes a task only while nobody holds `m_lock`. -/
theorem Turns.mem_current (h : Turns s a s') {task : Task β} (htask : task ∈ s'.worker.current) :
    task ∈ s.worker.current ∨ s.dispatcher.lock = none := by
  cases h with
  | takesTimer _ hlock _ _ | takesTask _ hlock _ => exact Or.inr hlock
  | locks hpc _ _ | starts hpc _ =>
    rw [hpc]
    exact Or.inl htask
  | stops _ _ | skips _ _ | finishes _ | unlocks _ => cases htask
  | stays | clock | queues _ _ | erases _ | meets _ _ _ | timesOut _ | holds _ _ | clears _
  | decides _ | forwards _ _ => exact Or.inl htask

/-- Only a caller that holds the execution mutex takes a task back. -/
theorem Turns.taken_back (h : Turns s a s') {task : Task β}
    (hafter : task ∈ s'.worker.unstarted) (hnoted : s.dispatcher.itemInProgress ≠ none)
    (hnone : s'.dispatcher.itemInProgress = none) :
    ∃ k timeout, a = .go k timeout ∧ s.callers k ≠ .idle := by
  cases h with
  | @clears k id timeout hpc => exact ⟨k, timeout, rfl, hpc ▸ nofun⟩
  | @queues _ item _ _ =>
    refine absurd ?_ hnoted
    rw [← hnone, WorkerThread.queueItem]
    split_ifs <;> rfl
  | takesTimer _ _ _ _ | takesTask _ _ _ => cases hnone
  | stops _ _ | skips _ _ | finishes _ | unlocks _ | starts _ _ => cases hafter
  | stays | clock | erases _ | meets _ _ _ | timesOut _ | holds _ _ | decides _ | forwards _ _
  | locks _ _ _ => exact absurd hnone hnoted

theorem unstarted_subset_current (pc : WorkerPc β) : pc.unstarted ⊆ pc.current := by
  cases pc with
  | taken item | locked item => exact List.Subset.refl _
  | idle | executing | finished | stopped => exact nil_subset _

end WorkerRun

/-! ## On a worker thread -/

namespace WorkerHandles

variable {κ : Type*} [DecidableEq κ]

/-- A new task gets an address no living task has. -/
def Allocates (s : WorkerHandles κ) (a : HandleAction κ) : Prop :=
  ∀ address ∈ a.address?, address ∉ s.live.map Task.id

/-- **The handle that is cancelled is not stale**: a living task at its
address is its own. -/
def NotStale (s : WorkerHandles κ) (a : HandleAction κ) : Prop :=
  ∀ handle ∈ a.handle?, ∀ task ∈ s.live, s.handles[handle]? = some task.id → task.body = handle

instance (s : WorkerHandles κ) (a : HandleAction κ) : Decidable (s.Allocates a) :=
  inferInstanceAs (Decidable (∀ _ ∈ _, _))

instance (s : WorkerHandles κ) (a : HandleAction κ) : Decidable (s.NotStale a) :=
  inferInstanceAs (Decidable (∀ _ ∈ _, _))

/-- The handle's task has been executed or cancelled. -/
def Ended (s : WorkerHandles κ) (handle : ℕ) : Prop :=
  handle < s.handles.length ∧ ∀ task ∈ s.live, task.body ≠ handle

/-- **A step concerns the own tasks of the handles that are being
cancelled.** -/
structure OwnOnly (s : WorkerHandles κ) (a : HandleAction κ) : Prop where
  /-- `Cancel` removes no other task from the queues. -/
  removes : ∀ handle, a.handle? = some handle → ∀ task ∈ s.waiting, task.body ≠ handle →
    task ∈ (s.step a).waiting
  /-- Who is in `Cancel` waits for no other task. -/
  waits : ∀ k, (s.step a).run.callers k ≠ .idle →
    ∀ task ∈ (s.step a).run.worker.current, task.body = (s.step a).cancelling k
  /-- No other task is taken back from the thread. -/
  suppresses : ∀ task ∈ s.run.worker.unstarted, task ∈ (s.step a).run.worker.unstarted →
    s.run.dispatcher.itemInProgress ≠ none → (s.step a).run.dispatcher.itemInProgress = none →
    ∃ k timeout, a = .go k timeout ∧ task.body = s.cancelling k
  /-- Once its task is over `Cancel` changes nothing. -/
  ended : ∀ handle, a.handle? = some handle → s.Ended handle →
    (s.step a).run.dispatcher = s.run.dispatcher

variable {s : WorkerHandles κ} {a : HandleAction κ}

/-- A handle that is cancelled by a caller, as the dispatcher sees it. -/
theorem step_cancel {k : κ} {handle address : ℕ} {waits : Bool} (henters : s.Enters k)
    (haddress : s.handles[handle]? = some address) :
    s.step (.cancel k handle waits) = { s with
      run := s.run.step (.cancel k (some address) waits)
      cancelling := update s.cancelling k handle } := by
  rw [step, if_pos henters, haddress]

/-- What a call of `Cancel` on a handle does to the dispatcher. -/
theorem dispatcher_of_cancel {handle : ℕ} (ha : a.handle? = some handle) :
    (s.step a).run.dispatcher = s.run.dispatcher ∨ ∃ address, s.handles[handle]? = some address ∧
        ((s.run.dispatcher.itemInProgress = some address ∧
            ∃ k, (s.step a).run.dispatcher = { s.run.dispatcher with lock := some k }) ∨
          (s.step a).run.dispatcher = { s.run.dispatcher with
            timerQueue := s.run.dispatcher.timerQueue.eraseP fun item => item.id = address }) := by
  cases a with
  | cancel k h waits =>
    cases ha
    by_cases henters : s.Enters k
    · cases haddress : s.handles[handle]? with
      | none =>
        rw [step, if_pos henters, haddress]
        exact Or.inl rfl
      | some address =>
        rw [step_cancel henters haddress]
        refine Or.inr ⟨address, rfl, ?_⟩
        by_cases hnoted : s.run.dispatcher.itemInProgress = some address
        · refine Or.inl ⟨hnoted, k, ?_⟩
          rw [WorkerRun.step_cancel_of_noted henters hnoted]
        · refine Or.inr ?_
          rw [WorkerRun.step_cancel_of_ne henters hnoted]
    · rw [step, if_neg henters]
      exact Or.inl rfl
  | bodyCancel h =>
    cases ha
    rw [step]
    cases haddress : s.handles[handle]? with
    | none => exact Or.inl rfl
    | some address =>
      simp only [WorkerRun.step]
      split_ifs
      · by_cases hnoted : s.run.dispatcher.itemInProgress = some address
        · refine Or.inl ?_
          simp only [WorkerThread.cancelBegin, hnoted, if_true]
        · refine Or.inr ⟨address, rfl, Or.inr ?_⟩
          rw [WorkerThread.cancelBegin_of_ne hnoted]
      · exact Or.inl rfl
  | schedule | go | work | bodySchedule | clock => cases ha

/-- The dispatcher takes one step at most, and a caller goes on only where
the step says so. -/
theorem run_step (s : WorkerHandles κ) (a : HandleAction κ) : (s.step a).run = s.run ∨
    ∃ action, (s.step a).run = s.run.step action ∧
      ∀ k timeout, action = .go k timeout → a = .go k timeout := by
  cases a with
  | schedule k address delayMs =>
    rw [step]
    split_ifs
    · exact Or.inr ⟨.queue k (s.newTask address delayMs), rfl, nofun⟩
    · exact Or.inl rfl
  | cancel k handle waits =>
    rw [step]
    split_ifs
    · cases s.handles[handle]? with
      | none => exact Or.inl rfl
      | some address => exact Or.inr ⟨.cancel k (some address) waits, rfl, nofun⟩
    · exact Or.inl rfl
  | go k timeout =>
    refine Or.inr ⟨.go k timeout, rfl, fun k' timeout' h => ?_⟩
    cases h
    rfl
  | work => exact Or.inr ⟨.work, rfl, nofun⟩
  | bodySchedule address delayMs =>
    rw [step]
    split_ifs
    · exact Or.inr ⟨.bodyQueue (s.newTask address delayMs), rfl, nofun⟩
    · exact Or.inl rfl
  | bodyCancel handle =>
    rw [step]
    cases s.handles[handle]? with
    | none => exact Or.inl rfl
    | some address => exact Or.inr ⟨.bodyCancel (some address), rfl, nofun⟩
  | clock now => exact Or.inr ⟨.clock now, rfl, nofun⟩

/-- **Who is in `Cancel` has the thread's task in mind.** -/
structure Cancelling (s : WorkerHandles κ) : Prop where
  grips : s.run.Grips
  own : ∀ k, s.run.callers k ≠ .idle → ∀ task ∈ s.run.worker.current,
    task.body = s.cancelling k

namespace Cancelling

/-- A step that brings no caller into `Cancel`. -/
theorem of_run (h : Cancelling s) {action : WorkerAction κ ℕ} {handles : List ℕ}
    (haction : ∀ k item waits, action ≠ .cancel k item waits) :
    Cancelling { s with run := s.run.step action, handles := handles } := by
  refine ⟨h.grips.step action, fun k hk task htask => ?_⟩
  have hturns := s.run.step_turns action
  have hbusy : s.run.callers k ≠ .idle := hturns.callers_ne_idle haction hk
  rcases hturns.mem_current htask with htask | hlock
  · exact h.own k hbusy task htask
  · exact absurd (h.grips.idle_of_unlocked hlock k) hbusy

theorem cancel (h : Cancelling s) {k : κ} {handle address : ℕ} {waits : Bool}
    (henters : s.Enters k) (haddress : s.handles[handle]? = some address)
    (hown : ∀ task ∈ s.live, s.handles[handle]? = some task.id → task.body = handle) :
    Cancelling { s with
      run := s.run.step (.cancel k (some address) waits)
      cancelling := update s.cancelling k handle } := by
  refine ⟨h.grips.step (.cancel k (some address) waits), fun k' hk task htask => ?_⟩
  have hidle : ∀ k', s.run.callers k' = .idle := h.grips.idle_of_unlocked henters.2
  dsimp only at hk htask ⊢
  by_cases hnoted : s.run.dispatcher.itemInProgress = some address
  · rw [WorkerRun.step_cancel_of_noted henters hnoted] at hk htask
    dsimp only at hk htask
    by_cases hsame : k' = k
    · -- the task in progress lives at the handle's address
      obtain ⟨task', htask', hid⟩ := h.grips.id_of_mem_current hnoted
      have heq := WorkerRun.eq_of_mem_current htask htask'
      rw [hsame, update_self]
      refine hown task (mem_append_right _ htask) ?_
      rw [haddress, heq, hid]
    · rw [update_of_ne hsame] at hk
      exact absurd (hidle k') hk
  · rw [WorkerRun.step_cancel_of_ne henters hnoted] at hk
    exact absurd (hidle k') hk

theorem step (h : Cancelling s) (hok : NotStale s a) : Cancelling (s.step a) := by
  cases a with
  | schedule k address delayMs | bodySchedule address delayMs =>
    rw [WorkerHandles.step]
    split_ifs
    · exact h.of_run nofun
    · exact h
  | cancel k handle waits =>
    by_cases henters : s.Enters k
    · cases haddress : s.handles[handle]? with
      | none =>
        rw [WorkerHandles.step, if_pos henters, haddress]
        exact h
      | some address =>
        rw [step_cancel henters haddress]
        exact h.cancel henters haddress (hok handle rfl)
    · rw [WorkerHandles.step, if_neg henters]
      exact h
  | go k timeout | work | clock now => exact h.of_run nofun
  | bodyCancel handle =>
    rw [WorkerHandles.step]
    cases s.handles[handle]? with
    | none => exact h
    | some address => exact h.of_run nofun

omit [DecidableEq κ] in
theorem initial : Cancelling ({} : WorkerHandles κ) :=
  ⟨.initial, fun _ hk => absurd rfl hk⟩

/-- A task that is taken back is the one its caller cancels. -/
theorem taken_back (h : Cancelling s) {task : Task ℕ} (hbefore : task ∈ s.run.worker.unstarted)
    (hafter : task ∈ (s.step a).run.worker.unstarted)
    (hnoted : s.run.dispatcher.itemInProgress ≠ none)
    (hnone : (s.step a).run.dispatcher.itemInProgress = none) :
    ∃ k timeout, a = .go k timeout ∧ task.body = s.cancelling k := by
  rcases run_step s a with hsame | ⟨action, hrun, hgo⟩
  · rw [hsame] at hnone
    exact absurd hnone hnoted
  · rw [hrun] at hafter hnone
    obtain ⟨k, timeout, haction, hbusy⟩ :=
      (s.run.step_turns action).taken_back hafter hnoted hnone
    exact ⟨k, timeout, hgo k timeout haction,
      h.own k hbusy task (WorkerRun.unstarted_subset_current _ hbefore)⟩

theorem ownOnly (h : Cancelling s) (hok : NotStale s a) : OwnOnly s a := by
  refine ⟨fun handle ha task htask hne => ?_, (h.step hok).own,
    fun task hbefore hafter hnoted hnone => h.taken_back hbefore hafter hnoted hnone,
    fun handle ha hended => ?_⟩
  · rcases dispatcher_of_cancel ha with hsame | ⟨address, haddress, ⟨-, k, hlocked⟩ | herased⟩
    · rw [waiting, hsame]
      exact htask
    · rw [waiting, hlocked]
      exact htask
    · rw [waiting, herased]
      have hid : task.id ≠ address := by
        rintro rfl
        exact hne (hok handle ha task (mem_append_left _ htask) haddress)
      rcases mem_append.1 htask with htask | htask
      · exact mem_append_left _ ((mem_eraseP_of_neg (by simpa using hid)).2 htask)
      · exact mem_append_right _ htask
  · rcases dispatcher_of_cancel ha with hsame | ⟨address, haddress, ⟨hnoted, -⟩ | herased⟩
    · exact hsame
    · obtain ⟨task, htask, rfl⟩ := h.grips.id_of_mem_current hnoted
      have hlive : task ∈ s.live := mem_append_right _ htask
      exact absurd (hok handle ha task hlive haddress) (hended.2 task hlive)
    · rw [herased, eraseP_of_forall_not]
      intro task htask hid
      have hlive : task ∈ s.live := mem_append_left _ (mem_append_left _ htask)
      refine hended.2 task hlive (hok handle ha task hlive ?_)
      rw [haddress, of_decide_eq_true hid]

end Cancelling

end WorkerHandles

/-! ## On a host's dispatcher -/

namespace CapiHandles

/-- A new task gets an address no living task has. -/
def Allocates (s : CapiHandles) (a : CapiAction) : Prop :=
  ∀ address ∈ a.address?, address ∉ s.live.map Task.id

/-- **The handle that is cancelled is not stale.** -/
def NotStale (s : CapiHandles) (a : CapiAction) : Prop :=
  ∀ handle ∈ a.handle?, ∀ task ∈ s.live, s.handles[handle]? = some task.id → task.body = handle

instance (s : CapiHandles) (a : CapiAction) : Decidable (s.Allocates a) :=
  inferInstanceAs (Decidable (∀ _ ∈ _, _))

instance (s : CapiHandles) (a : CapiAction) : Decidable (s.NotStale a) :=
  inferInstanceAs (Decidable (∀ _ ∈ _, _))

/-- The handle's task has been executed or cancelled. -/
def Ended (s : CapiHandles) (handle : ℕ) : Prop :=
  handle < s.handles.length ∧ ∀ task ∈ s.live, task.body ≠ handle

/-- **A step concerns the own task of the handle that is cancelled.**
`Cancel` waits for nothing here, and a task that runs is out of its
reach. -/
structure OwnOnly (s : CapiHandles) (a : CapiAction) : Prop where
  removes : ∀ handle, a.handle? = some handle → ∀ task ∈ s.waiting, task.body ≠ handle →
    task ∈ (s.step a).waiting
  ended : ∀ handle, a.handle? = some handle → s.Ended handle →
    (s.step a).dispatcher = s.dispatcher

variable {s : CapiHandles} {a : CapiAction}

theorem ownOnly (hok : NotStale s a) : OwnOnly s a := by
  cases a with
  | cancel h host =>
    cases haddress : s.handles[h]? with
    | none =>
      have hstep : s.step (.cancel h host) = s := by rw [step, haddress]
      exact ⟨fun _ _ task htask _ => hstep.symm ▸ htask, fun _ _ _ => by rw [hstep]⟩
    | some address =>
      have hstep : (s.step (.cancel h host)).dispatcher = { s.dispatcher with
          pending := s.dispatcher.pending.eraseP fun e => e.2.id = address } := by
        rw [step, haddress]
        rfl
      refine ⟨fun handle ha task htask hne => ?_, fun handle ha hended => ?_⟩
      · cases ha
        obtain ⟨e, he, rfl⟩ := mem_map.1 htask
        rw [waiting, hstep]
        refine mem_map_of_mem ((mem_eraseP_of_neg ?_).2 he)
        rw [decide_eq_true_eq]
        rintro rfl
        exact hne (hok h rfl e.2 (mem_append_left _ htask) haddress)
      · cases ha
        rw [hstep, eraseP_of_forall_not]
        intro e he hid
        have hlive : e.2 ∈ s.live := mem_append_left _ (mem_map_of_mem he)
        refine hended.2 e.2 hlive (hok h rfl e.2 hlive ?_)
        rw [haddress, of_decide_eq_true hid]
  | schedule | callback | finish | clock => exact ⟨nofun, nofun⟩

end CapiHandles

/-- **A handle cancels its own task only**, in every run in which no stale
handle is cancelled, on either dispatcher. -/
theorem handle_cancels_own_task {κ : Type*} [DecidableEq κ] :
    (∀ (as : List (HandleAction κ)) (a : HandleAction κ),
      RunMeets WorkerHandles.NotStale WorkerHandles.step {} (as ++ [a]) →
        (run WorkerHandles.step {} as).OwnOnly a) ∧ ∀ (as : List CapiAction) (a : CapiAction),
      RunMeets CapiHandles.NotStale CapiHandles.step {} (as ++ [a]) →
        (run CapiHandles.step {} as).OwnOnly a := by
  constructor
  · intro as a hrun
    obtain ⟨hbefore, hlast⟩ := runMeets_append.1 hrun
    have hinv : (run WorkerHandles.step {} as).Cancelling :=
      run_invariant (fun _ _ h hok => h.step hok) .initial hbefore
    exact hinv.ownOnly hlast.1
  · intro as a hrun
    exact CapiHandles.ownOnly (runMeets_append.1 hrun).2.1

/-- Handles cancelled in time: the first of two tasks is cancelled while it
waits, and again once it is over. -/
theorem handle_cancels_own_task_in_time :
    (run WorkerHandles.step {} [.schedule () 7 10, .schedule () 8 10, .cancel () 0 true]).OwnOnly
      (.cancel () 0 true) ∧
    (run CapiHandles.step {} [.schedule 7 10, .schedule 8 10, .cancel 0 true]).OwnOnly
      (.cancel 0 true) :=
  ⟨handle_cancels_own_task.1 [.schedule () 7 10, .schedule () 8 10, .cancel () 0 true]
      (.cancel () 0 true) (by decide +kernel),
    handle_cancels_own_task (κ := Unit).2 [.schedule 7 10, .schedule 8 10, .cancel 0 true]
      (.cancel 0 true) (by decide +kernel)⟩

/-- **A stale handle cancels another task.** A task is executed, the next
one gets its address, and `Cancel` on the handle of the first takes the
second out of the timers or of the table. The allocator gives away free
addresses only. -/
theorem stale_handle_cancels_another :
    (∃ as : List (HandleAction Unit), RunMeets WorkerHandles.Allocates WorkerHandles.step {} as ∧
      ∃ task ∈ (run WorkerHandles.step {} as).waiting, task.body ≠ 0 ∧
        (run WorkerHandles.step {} as).Ended 0 ∧
        task ∉ ((run WorkerHandles.step {} as).step (.cancel () 0 false)).waiting) ∧
    ∃ as : List CapiAction, RunMeets CapiHandles.Allocates CapiHandles.step {} as ∧
      ∃ task ∈ (run CapiHandles.step {} as).waiting, task.body ≠ 0 ∧
        (run CapiHandles.step {} as).Ended 0 ∧
        task ∉ ((run CapiHandles.step {} as).step (.cancel 0 true)).waiting := by
  refine ⟨⟨[.schedule () 7 0, .work, .work, .work, .work, .work, .schedule () 7 100],
    by decide +kernel, ⟨7, .timedCall, 100, 1⟩, by decide +kernel, by decide,
    ⟨by decide +kernel, by decide +kernel⟩, by decide +kernel⟩,
    [.schedule 7 0, .callback 0, .finish 0, .schedule 7 100], by decide +kernel,
    ⟨7, .timedCall, 100, 1⟩, by decide +kernel, by decide,
    ⟨by decide +kernel, by decide +kernel⟩, by decide +kernel⟩

end ClientTelemetry
