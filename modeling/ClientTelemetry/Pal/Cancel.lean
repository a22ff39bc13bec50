import ClientTelemetry.Common.Run
import ClientTelemetry.Pal.Helpers.Turns
/-!
# What a cancelled task does

`WorkerRun.Sound` is the invariant: over the `Grips` of the locks, a task
that has not started is at one place only. From it follows that a task
starts at most once. A task is `Spent` when nothing can start it any more.
`Cancel` answers true only for a task that is, and it stays so.
-/

namespace ClientTelemetry

open Function List

variable {κ β : Type*}

namespace WorkerRun

/-- **The locks and the places fit in every run.** -/
theorem locks_fit [DecidableEq κ] (as : List (WorkerAction κ β)) : Grips (run step {} as) :=
  run_preserves (fun _ a h => h.step a) .initial as

variable {s : WorkerRun κ β} {a : WorkerAction κ β} {s' : WorkerRun κ β} {id : ℕ} {item : Task β}
  {k : κ} {pc : CancelPc} {w : WorkerThread κ β}

/-! ## What every step keeps -/

/-- The numbers of the tasks in the two queues. -/
def queuedIds (s : WorkerRun κ β) : List ℕ :=
  (s.dispatcher.timerQueue ++ s.dispatcher.queue).map Task.id

/-- The numbers of the tasks that may still start. -/
def waitingIds (s : WorkerRun κ β) : List ℕ :=
  s.queuedIds ++ s.worker.unstarted.map Task.id

/-- **The invariant.** -/
structure Sound (s : WorkerRun κ β) : Prop extends Grips s where
  /-- No task is at two places. -/
  distinct : (s.waitingIds ++ s.started).Nodup
  known : s.waitingIds ++ s.started ⊆ s.queued.map Task.id
  once : (s.queued.map Task.id).Nodup
  /-- Timed tasks are among the timers. -/
  plain : ∀ item ∈ s.dispatcher.queue, item ∈ s.queued ∧ item.type ≠ .timedCall
  begun : ∀ item, s.worker = .executing item → item.id ∈ s.started
  /-- A task that is being cancelled has left the queues. -/
  cancelling : ∀ k id, (s.callers k).target = some id →
    id ∈ s.queued.map Task.id ∧ id ∉ s.queuedIds

theorem Sound.initial : Sound ({} : WorkerRun κ β) where
  distinct := nodup_nil
  known := List.Subset.refl _
  once := nodup_nil
  plain := fun _ h => nomatch h
  begun := fun _ h => nomatch h
  cancelling := fun _ _ h => nomatch h
  __ := Grips.initial

/-- A task that is shown in progress is in neither queue. -/
theorem Sound.notMem_queuedIds (hs : Sound s) (hnoted : s.dispatcher.itemInProgress = some id) :
    id ∈ s.queued.map Task.id ∧ id ∉ s.queuedIds := by
  have hmem : id ∈ s.worker.unstarted.map Task.id ++ s.started := by
    rcases (hnoted ▸ hs.noted).mem with hin | ⟨item, hpc, rfl⟩
    · exact mem_append_left _ hin
    · exact mem_append_right _ (hs.begun item hpc)
  have hdistinct := hs.distinct
  have hknown := hs.known
  rw [waitingIds, append_assoc] at hdistinct hknown
  refine ⟨hknown (mem_append_right _ hmem), fun hin => ?_⟩
  exact (nodup_append.1 hdistinct).2.2 id hin id hmem rfl

/-- A timer that is too far ahead stays the same task. -/
theorem forwards_perm {timers rest : List (Task β)} (htimers : timers = item :: rest) (time : ℕ) :
    ((timerInsert { item with targetTime := time } rest).map Task.id).Perm
      (timers.map Task.id) := by
  rw [htimers]
  exact (timerInsert_perm _ _).map Task.id

theorem takesTimer_perm {timers tasks rest : List (Task β)} (htimers : timers = item :: rest) :
    (timers ++ tasks).Perm (rest ++ tasks ++ [item]) := by
  rw [htimers]
  exact (perm_append_singleton _ _).symm

theorem takesTask_perm {timers tasks rest : List (Task β)} (hqueue : tasks = item :: rest) :
    (timers ++ tasks).Perm (timers ++ rest ++ [item]) := by
  rw [hqueue, append_assoc]
  exact (perm_append_singleton _ _).symm.append_left _

theorem Sound.queues (hs : Sound s) (hnew : item.id ∉ s.queued.map Task.id) :
    Sound { s with
      dispatcher := s.dispatcher.queueItem item, queued := item :: s.queued } := by
  have hids := (s.dispatcher.queueItem_perm item).map Task.id
  have hperm : (((s.dispatcher.queueItem item).timerQueue ++
      (s.dispatcher.queueItem item).queue).map Task.id ++
      s.worker.unstarted.map Task.id ++ s.started).Perm
      (item.id :: (s.waitingIds ++ s.started)) :=
    (hids.append_right _).append_right _
  refine { hs.toGrips.queues item, hs with
    distinct := ?_, known := ?_, once := ?_, plain := ?_, cancelling := ?_ }
  · exact hperm.nodup_iff.2 (nodup_cons.2 ⟨fun hin => hnew (hs.known hin), hs.distinct⟩)
  · exact fun id hin => (mem_cons.1 (hperm.subset hin)).elim
      (fun h => h ▸ mem_cons_self) fun h => mem_cons_of_mem _ (hs.known h)
  · exact nodup_cons.2 ⟨hnew, hs.once⟩
  · intro task htask
    have hcases : task ∈ s.dispatcher.queue ∨ task = item ∧ item.type ≠ .timedCall := by
      simp only [WorkerThread.queueItem] at htask
      split_ifs at htask with htype
      · exact .inl htask
      · rcases mem_append.1 htask with hin | hlast
        · exact .inl hin
        · exact .inr ⟨mem_singleton.1 hlast, htype⟩
    rcases hcases with hin | ⟨rfl, htype⟩
    · exact ⟨mem_cons_of_mem _ (hs.plain task hin).1, (hs.plain task hin).2⟩
    · exact ⟨mem_cons_self, htype⟩
  · intro k id htarget
    obtain ⟨hknown, hout⟩ := hs.cancelling k id htarget
    refine ⟨mem_cons_of_mem _ hknown, fun hin => ?_⟩
    rcases mem_cons.1 (hids.subset hin) with rfl | hin
    · exact hnew hknown
    · exact hout hin

/-- **Tasks that only move or leave** stay distinct and known, and a caller
goes on with its task or turns to the one in progress. -/
theorem Sound.keeps (hs : Sound s) (hgrips : Grips s')
    (hids : (s'.waitingIds ++ s'.started).Subperm (s.waitingIds ++ s.started))
    (hqueued : s'.queued = s.queued) (htasks : s'.dispatcher.queue ⊆ s.dispatcher.queue)
    (hqueues : s'.queuedIds ⊆ s.queuedIds)
    (hbegun : ∀ item, s'.worker = .executing item → item.id ∈ s'.started)
    (htargets : ∀ k id, (s'.callers k).target = some id →
      (s.callers k).target = some id ∨ s.dispatcher.itemInProgress = some id) : Sound s' where
  distinct := by
    obtain ⟨moved, hperm, hsublist⟩ := hids
    exact hperm.nodup_iff.1 (hs.distinct.sublist hsublist)
  known := hqueued ▸ List.Subset.trans hids.subset hs.known
  once := hqueued ▸ hs.once
  plain := fun item hitem => hqueued ▸ hs.plain item (htasks hitem)
  begun := hbegun
  cancelling := fun k id htarget => by
    have hout : id ∈ s.queued.map Task.id ∧ id ∉ s.queuedIds :=
      (htargets k id htarget).elim (hs.cancelling k id) hs.notMem_queuedIds
    rw [hqueued]
    exact ⟨hout.1, fun hin => hout.2 (hqueues hin)⟩
  __ := hgrips

/-- A caller goes on with its task, or turns to the one in progress. -/
theorem target_update [DecidableEq κ] (hpc : ∀ id, pc.target = some id →
      (s.callers k).target = some id ∨ s.dispatcher.itemInProgress = some id)
    (other : κ) (id : ℕ) (h : (update s.callers k pc other).target = some id) :
    (s.callers other).target = some id ∨ s.dispatcher.itemInProgress = some id := by
  by_cases hsame : other = k
  · subst hsame
    rw [update_self] at h
    exact hpc id h
  · rw [update_of_ne hsame] at h
    exact .inl h

section

variable (hs : Sound s)
include hs

/-- The queues stay as they are when a caller goes on. -/
theorem Sound.caller [DecidableEq κ]
    (hgrips : Grips { s with dispatcher := w, callers := update s.callers k pc })
    (htimers : w.timerQueue = s.dispatcher.timerQueue) (htasks : w.queue = s.dispatcher.queue)
    (hpc : ∀ id, pc.target = some id →
      (s.callers k).target = some id ∨ s.dispatcher.itemInProgress = some id) :
    Sound { s with dispatcher := w, callers := update s.callers k pc } := by
  have hqueues : queuedIds { s with dispatcher := w, callers := update s.callers k pc } =
      s.queuedIds := by
    rw [queuedIds, queuedIds, htimers, htasks]
  refine hs.keeps hgrips (List.Perm.of_eq ?_).subperm rfl (htasks ▸ List.Subset.refl _)
    (hqueues ▸ List.Subset.refl _) hs.begun (target_update hpc)
  rw [waitingIds, hqueues, waitingIds]

/-- Timers leave, or change their places. -/
theorem Sound.timers {timers : List (Task β)}
    (hgrips : Grips { s with dispatcher := { s.dispatcher with timerQueue := timers } })
    (hsub : (timers.map Task.id).Subperm (s.dispatcher.timerQueue.map Task.id)) :
    Sound { s with dispatcher := { s.dispatcher with timerQueue := timers } } := by
  have hqueues : ((timers ++ s.dispatcher.queue).map Task.id).Subperm s.queuedIds := by
    rw [queuedIds, map_append, map_append]
    exact (subperm_append_right _).2 hsub
  refine hs.keeps hgrips ?_ rfl (List.Subset.refl _) hqueues.subset hs.begun fun _ _ => .inl
  exact (subperm_append_right _).2 ((subperm_append_right _).2 hqueues)

/-- The thread goes on with the task it has, or leaves it. -/
theorem Sound.worker {pc : WorkerPc β}
    (hgrips : Grips { s with dispatcher := w, worker := pc })
    (htimers : w.timerQueue = s.dispatcher.timerQueue) (htasks : w.queue = s.dispatcher.queue)
    (hunstarted : (pc.unstarted.map Task.id).Subperm (s.worker.unstarted.map Task.id))
    (hbegun : ∀ item, pc ≠ .executing item) : Sound { s with dispatcher := w, worker := pc } := by
  have hqueues : queuedIds { s with dispatcher := w, worker := pc } = s.queuedIds := by
    rw [queuedIds, queuedIds, htimers, htasks]
  refine hs.keeps hgrips ?_ rfl (htasks ▸ List.Subset.refl _) (hqueues ▸ List.Subset.refl _)
    (fun item hpc => absurd hpc (hbegun item)) fun _ _ => .inl
  rw [waitingIds, hqueues]
  exact (subperm_append_right _).2 ((subperm_append_left _).2 hunstarted)

theorem Sound.takes
    (hgrips : Grips { s with dispatcher := w, worker := .taken item }) (hpc : s.worker = .idle)
    (hperm : (s.dispatcher.timerQueue ++ s.dispatcher.queue).Perm
      (w.timerQueue ++ w.queue ++ [item])) (hsub : w.queue ⊆ s.dispatcher.queue) :
    Sound { s with dispatcher := w, worker := .taken item } := by
  have hqueues : s.queuedIds.Perm ((w.timerQueue ++ w.queue).map Task.id ++ [item.id]) :=
    (hperm.map Task.id).trans (.of_eq map_append)
  refine hs.keeps hgrips (List.Perm.subperm ?_) rfl hsub
    (fun id hin => hqueues.symm.subset (mem_append_left _ hin)) nofun fun _ _ => .inl
  rw [waitingIds, waitingIds, hpc]
  exact (hqueues.symm.trans (.of_eq (append_nil _).symm)).append_right _

theorem Sound.starts
    (hgrips : Grips { s with worker := .executing item, started := item.id :: s.started })
    (hpc : s.worker = .locked item) :
    Sound { s with worker := .executing item, started := item.id :: s.started } := by
  refine hs.keeps hgrips (List.Perm.of_eq ?_).subperm rfl (List.Subset.refl _) (List.Subset.refl _)
    (fun _ h => WorkerPc.executing.inj h ▸ mem_cons_self) fun _ _ => .inl
  rw [waitingIds, waitingIds, hpc, append_assoc, append_assoc]
  rfl

/-- **The invariant holds after every step.** -/
theorem Sound.step [DecidableEq κ] (hok : QueuedOnce s a) :
    Sound (s.step a) := by
  have hgrips := hs.toGrips.step a
  have hturns := s.step_turns a
  generalize s.step a = s' at hturns hgrips
  cases hturns with
  | stays => exact hs
  | clock => exact { hs with }
  | queues hnew _ => exact hs.queues (hnew hok)
  | erases _ => exact hs.timers hgrips ((eraseP_sublist.map Task.id).subperm)
  | forwards htimers _ => exact hs.timers hgrips (forwards_perm htimers _).subperm
  | @meets k id waits hidle hlock hnoted =>
    refine hs.caller hgrips rfl rfl fun id h => .inr ?_
    cases waits
    · exact hnoted.trans h
    · exact hnoted.trans h
  | timesOut hpc | holds hpc _ | clears hpc =>
    exact hs.caller hgrips rfl rfl fun id h => .inl (by rw [hpc]; exact h)
  | decides hpc => exact hs.caller hgrips rfl rfl nofun
  | takesTimer hpc _ htimers _ =>
    exact hs.takes hgrips hpc (takesTimer_perm htimers) (List.Subset.refl _)
  | takesTask hpc _ hqueue =>
    exact hs.takes hgrips hpc (takesTask_perm hqueue) (hqueue ▸ subset_cons_self _ _)
  | starts hpc _ => exact hs.starts hgrips hpc
  | locks hpc _ _ => exact hs.worker hgrips rfl rfl (by rw [hpc]; exact .refl _) nofun
  | stops hpc _ | skips hpc _ | finishes hpc | unlocks hpc =>
    exact hs.worker hgrips rfl rfl nil_subperm nofun

/-- **The invariant holds throughout a run.** -/
theorem Sound.run [DecidableEq κ] {as : List (WorkerAction κ β)}
    (hok : RunMeets QueuedOnce WorkerRun.step s as) :
    Sound (ClientTelemetry.run WorkerRun.step s as) :=
  run_invariant (fun _ _ hs hok => hs.step hok) hs hok

end

/-! ## Tasks that cannot start any more -/

/-- **The task has been queued and cannot start any more.** -/
structure Spent (s : WorkerRun κ β) (id : ℕ) : Prop where
  queued : id ∈ s.queued.map Task.id
  out : id ∉ s.queuedIds
  /-- If the thread has taken it, it has been taken back. -/
  reset : id ∈ s.worker.unstarted.map Task.id → s.dispatcher.itemInProgress = none

/-- What the thread takes out of a queue is another task. -/
theorem Spent.takes (h : Spent s id)
    (hperm : (s.dispatcher.timerQueue ++ s.dispatcher.queue).Perm
      (w.timerQueue ++ w.queue ++ [item])) :
    Spent { s with dispatcher := w, worker := .taken item } id := by
  have hqueues : s.queuedIds.Perm ((w.timerQueue ++ w.queue).map Task.id ++ [item.id]) :=
    (hperm.map Task.id).trans (.of_eq map_append)
  refine ⟨h.queued, fun hin => ?_, fun hin => ?_⟩
  · exact h.out (hqueues.symm.subset (mem_append_left _ hin))
  · exact absurd (hqueues.symm.subset (mem_append_right _ hin)) h.out

/-- A task that is queued now is another one, and a task that starts now
too. -/
theorem Spent.step [DecidableEq κ] (h : Spent s id) (hok : QueuedOnce s a) :
    Spent (s.step a) id ∧ (s.step a).started.count id = s.started.count id := by
  have hturns := s.step_turns a
  generalize s.step a = s' at hturns
  cases hturns with
  | stays => exact ⟨h, rfl⟩
  | clock | meets _ _ _ | timesOut _ | holds _ _ | decides _ => exact ⟨{ h with }, rfl⟩
  | @queues _ item hnew _ =>
    have hids := (s.dispatcher.queueItem_perm item).map Task.id
    refine ⟨⟨mem_cons_of_mem _ h.queued, fun hin => ?_, fun hin => ?_⟩, rfl⟩
    · rcases mem_cons.1 (hids.subset hin) with rfl | hin
      · exact hnew hok h.queued
      · exact h.out hin
    · rw [← h.reset hin, WorkerThread.queueItem]
      split_ifs <;> rfl
  | erases _ =>
    refine ⟨{ h with out := fun hin => h.out ?_ }, rfl⟩
    exact ((eraseP_sublist.append_right _).map Task.id).subset hin
  | clears _ | stops _ _ => exact ⟨{ h with reset := fun _ => rfl }, rfl⟩
  | forwards htimers _ =>
    refine ⟨{ h with out := fun hin => h.out ?_ }, rfl⟩
    rw [queuedIds, map_append] at hin ⊢
    exact ((forwards_perm htimers _).append_right _).subset hin
  | takesTimer _ _ htimers _ => exact ⟨h.takes (takesTimer_perm htimers), rfl⟩
  | takesTask _ _ hqueue => exact ⟨h.takes (takesTask_perm hqueue), rfl⟩
  | locks hpc _ _ => exact ⟨{ h with reset := fun hin => h.reset (hpc ▸ hin) }, rfl⟩
  | starts hpc hpending =>
    refine ⟨{ h with reset := by rintro ⟨⟩ }, count_cons_of_ne ?_⟩
    rintro rfl
    exact hpending (h.reset (hpc ▸ mem_cons_self))
  | skips _ _ | finishes _ | unlocks _ => exact ⟨{ h with reset := by rintro ⟨⟩ }, rfl⟩

/-- A task that cannot start does not start in any run. -/
theorem Spent.run [DecidableEq κ] {bs : List (WorkerAction κ β)} (h : Spent s id)
    (hok : RunMeets QueuedOnce WorkerRun.step s bs) :
    (ClientTelemetry.run WorkerRun.step s bs).started.count id = s.started.count id := by
  have hrun : Spent (ClientTelemetry.run WorkerRun.step s bs) id ∧
      (ClientTelemetry.run WorkerRun.step s bs).started.count id = s.started.count id :=
    @run_invariant _ _ WorkerRun.step QueuedOnce s bs
      (fun t => Spent t id ∧ t.started.count id = s.started.count id)
      (fun _ _ ht hok => ⟨(ht.1.step hok).1, (ht.1.step hok).2.trans ht.2⟩) ⟨h, rfl⟩ hok
  exact hrun.2

/-- The task has been queued as a timed one. -/
def TimedQueued (s : WorkerRun κ β) (id : ℕ) : Prop :=
  ∃ item ∈ s.queued, item.id = id ∧ item.type = .timedCall

/-- What executes is shown in progress. -/
theorem Sound.not_executing (hs : Sound s)
    (hnoted : s.dispatcher.itemInProgress ≠ some id) : ¬ s.Executing id := by
  rintro ⟨item, hpc, rfl⟩
  have hshown := hs.noted
  rw [hpc] at hshown
  exact hnoted hshown

/-- What the thread has taken and is not shown in progress has been taken
back. -/
theorem Sound.reset_of_ne (hs : Sound s) (hnoted : s.dispatcher.itemInProgress ≠ some id)
    (hin : id ∈ s.worker.unstarted.map Task.id) : s.dispatcher.itemInProgress = none := by
  have hshown := hs.noted
  cases hpc : s.worker with
  | taken item | locked item =>
    rw [hpc] at hshown hin
    refine hshown.resolve_left fun h => hnoted (h.trans ?_)
    rw [mem_singleton.1 hin]
  | idle | executing item | finished | stopped =>
    rw [hpc] at hin
    cases hin

/-- A timed task that is not in progress is among the timers or nowhere. -/
theorem Sound.spent_of_erased (hs : Sound s) (htimed : s.TimedQueued id)
    (hnoted : s.dispatcher.itemInProgress ≠ some id) :
    Spent { s with
      dispatcher := { s.dispatcher with
        timerQueue := s.dispatcher.timerQueue.eraseP fun item => item.id = id } } id := by
  obtain ⟨task, htask, rfl, htype⟩ := htimed
  refine ⟨mem_map_of_mem htask, fun hin => ?_, hs.reset_of_ne hnoted⟩
  rw [queuedIds, map_append, map_id_eraseP] at hin
  rcases mem_append.1 hin with htimer | hqueue
  · have hdistinct : (s.dispatcher.timerQueue.map Task.id).Nodup := by
      have hall := hs.distinct
      rw [waitingIds, queuedIds, map_append, append_assoc, append_assoc] at hall
      exact (nodup_append.1 hall).1
    exact hdistinct.not_mem_erase htimer
  · obtain ⟨item, hitem, hid⟩ := mem_map.1 hqueue
    obtain ⟨hknown, hplain⟩ := hs.plain item hitem
    have hsame : item = task := inj_on_of_nodup_map hs.once hknown htask hid
    exact hplain (hsame ▸ htype)

/-- A `Cancel` that answers true does so at once, or after the caller has
looked at `m_itemInProgress` again. In both cases it shows another task or
none. -/
theorem returned_true [DecidableEq κ] (hs : Sound s) (h : s.returned a = some (some id, true)) :
    ¬ (s.step a).Executing id ∧ (s.TimedQueued id → Spent (s.step a) id) := by
  cases a with
  | cancel k item waits =>
    simp only [returned] at h
    split_ifs at h with hfree
    have hitem : item = some id := by
      obtain ⟨answer, -, hanswer⟩ := Option.map_eq_some_iff.1 h
      exact congrArg Prod.fst hanswer
    subst hitem
    have hnoted : s.dispatcher.itemInProgress ≠ some id := fun hshown => by
      rw [WorkerThread.cancelBegin_of_noted hshown] at h
      cases h
    have hstep : s.step (.cancel k (some id) waits) = { s with
        dispatcher := { s.dispatcher with
          timerQueue := s.dispatcher.timerQueue.eraseP fun item => item.id = id } } := by
      simp only [step, hfree, and_self, if_true, cancel, WorkerThread.cancelBegin_of_ne hnoted]
    rw [hstep]
    exact ⟨hs.not_executing hnoted, fun htimed => hs.spent_of_erased htimed hnoted⟩
  | go k timeout =>
    simp only [returned] at h
    cases hpc : s.callers k with
    | decides target =>
      rw [hpc] at h
      obtain ⟨htarget, hanswer⟩ := Prod.mk.inj (Option.some.inj h)
      obtain rfl := Option.some.inj htarget
      have hnoted : s.dispatcher.itemInProgress ≠ some target := of_decide_eq_true hanswer
      have hstep : s.step (.go k timeout) = { s with
          dispatcher := { s.dispatcher with lock := none }
          callers := update s.callers k .idle } := by
        simp only [step, go, hpc]
        rfl
      obtain ⟨hknown, hout⟩ := hs.cancelling k target (hpc ▸ rfl)
      rw [hstep]
      exact ⟨hs.not_executing hnoted, fun _ => ⟨hknown, hout, hs.reset_of_ne hnoted⟩⟩
    | idle | awaits target | holds target =>
      rw [hpc] at h
      cases h
  | queue k item | work | bodyQueue item | bodyCancel item | clock now => cases h

/-- **What a `Cancel` that answers true guarantees.** In every run of any
callers with the worker thread, in which each task is queued once: no task
starts twice. And where a call of `Cancel` by a thread other than the
worker answers true, the task does not execute when it returns, and if it
is a timed task that has been queued it never starts afterwards. -/
theorem cancel_true_is_final [DecidableEq κ] (as : List (WorkerAction κ β))
    (hqueued : RunMeets QueuedOnce step ({} : WorkerRun κ β) as) :
    (∀ id, (run step ({} : WorkerRun κ β) as).started.count id ≤ 1) ∧
    ∀ a id, (run step ({} : WorkerRun κ β) as).returned a = some (some id, true) →
      ¬ ((run step ({} : WorkerRun κ β) as).step a).Executing id ∧
      ((run step ({} : WorkerRun κ β) as).TimedQueued id →
        ∀ bs, RunMeets QueuedOnce step ((run step ({} : WorkerRun κ β) as).step a) bs →
          (run step ((run step ({} : WorkerRun κ β) as).step a) bs).started.count id =
            ((run step ({} : WorkerRun κ β) as).step a).started.count id) := by
  have hs := Sound.initial.run hqueued
  refine ⟨fun id => ?_, fun a id hreturned => ?_⟩
  · exact nodup_iff_count_le_one.1 (nodup_append.1 hs.distinct).2.1 id
  · obtain ⟨hexecuting, hspent⟩ := returned_true hs hreturned
    exact ⟨hexecuting, fun htimed bs hbs => (hspent htimed).run hbs⟩

/-- The thread takes a task, and a caller takes it back before it
starts. -/
def takenBack : List (WorkerAction Unit Unit) :=
  [.queue () ⟨7, .timedCall, 0, ()⟩, .work, .cancel () (some 7) true, .go () false, .go () false]

theorem cancel_true_is_final_taken_back :
    (run step {} takenBack).returned (.go () false) = some (some 7, true) ∧
    (run step ((run step {} takenBack).step (.go () false))
      [.work, .work, .work, .work]).started.count 7 = 0 := by
  have hqueued : RunMeets QueuedOnce step {} takenBack :=
    ⟨not_mem_nil, trivial, trivial, trivial, trivial, trivial⟩
  have hreturned : (run step {} takenBack).returned (.go () false) = some (some 7, true) := rfl
  refine ⟨hreturned, ?_⟩
  have hfinal := ((cancel_true_is_final takenBack hqueued).2 _ _ hreturned).2
    ⟨⟨7, .timedCall, 0, ()⟩, mem_cons_self, rfl, rfl⟩
  exact hfinal _ ⟨trivial, trivial, trivial, trivial, trivial⟩

end WorkerRun

end ClientTelemetry
