import ClientTelemetry.Tpm.Helpers.Ownership
/-!
# The upload tasks of the dispatcher

An upload task is pending while it waits among the timers, and the worker
has `taken` it until it clears `m_isUploadScheduled`; until then it is
`unserved`. `PolicyRun.Tracked` says that every task is at one place and
that `m_itemInProgress` shows the one the worker has.
-/

namespace ClientTelemetry

open Function List

/-- The worker has a task, and has not cleared the flag in it. -/
def Pc.beforeClear : Pc → Bool
  | .lockExecution | .testItem | .beginUpload _ | .lockUpload | .clearScheduled => true
  | _ => false

/-- In `uploadAsync`, before an upload is opened. -/
def Pc.inUpload : Pc → Bool
  | .beginUpload _ | .lockUpload | .clearScheduled | .testUpload => true
  | _ => false

theorem Pc.inUpload_of_calm {pc : Pc} (h : pc.calm) : pc.inUpload = false := by
  cases pc <;> first | rfl | cases h

namespace PolicyRun

variable {κ : Type*} {s : PolicyRun κ} {t : Thread κ} {pc : Pc}
  {w : WorkerThread κ TaskBody}

/-- The upload tasks that wait. -/
def pending (s : PolicyRun κ) : List (Task TaskBody) :=
  s.dispatcher.timerQueue.filter fun task => task.body.isUpload

/-- The upload task the worker has and has not cleared the flag in. -/
def taken (s : PolicyRun κ) : List ℕ :=
  if (s.pcs .worker).beforeClear then
    (s.item.toList.filter fun task => task.body.isUpload).map Task.id
  else []

/-- **The upload tasks that have not cleared the flag.** -/
def unserved (s : PolicyRun κ) : List ℕ := s.pending.map Task.id ++ s.taken

/-- The numbers of the tasks in the queues. -/
def queuedIds (s : PolicyRun κ) : List ℕ :=
  (s.dispatcher.timerQueue ++ s.dispatcher.queue).map Task.id

/-- The numbers of all tasks of the dispatcher. -/
def taskIds (s : PolicyRun κ) : List ℕ := s.queuedIds ++ s.item.toList.map Task.id

/-- **Every task is at one place.** -/
structure Tracked (s : PolicyRun κ) : Prop where
  noted : s.dispatcher.itemInProgress = s.item.map Task.id
  distinct : s.taskIds.Nodup
  fresh : ∀ id ∈ s.taskIds, id < s.nextTask
  /-- `uploadAsync` runs in an upload task. -/
  uploading : (s.pcs .worker).inUpload = true → ∃ item, s.item = some item ∧ item.body.isUpload

/-! ## A step of another kind -/

/-- The worker stays where it is, or goes on in the same task. -/
theorem taken_goTo [DecidableEq κ] (hpc : t = .worker → pc.beforeClear = (s.pcs t).beforeClear) :
    (s.goTo t pc).taken = s.taken := by
  have hworker : ((s.goTo t pc).pcs .worker).beforeClear = (s.pcs .worker).beforeClear :=
    goTo_forall (P := fun u pc => u = .worker → pc.beforeClear = (s.pcs u).beforeClear) hpc
      (fun _ _ _ => rfl) .worker rfl
  rw [taken, taken, hworker]
  rfl

/-- And the timers are the same. -/
theorem unserved_goTo [DecidableEq κ]
    (hpc : t = .worker → pc.beforeClear = (s.pcs t).beforeClear) :
    (s.goTo t pc).unserved = s.unserved := by
  rw [unserved, unserved, taken_goTo hpc]
  rfl

/-- The places of `uploadAsync` are reached from one another, or from the
test of an upload task. -/
theorem Leads.inUpload {pc' : Pc} (hleads : Leads s pc pc') (h : pc'.inUpload = true) :
    pc.inUpload = true := by
  cases hleads with
  | calm hfrom hto => cases (Pc.inUpload_of_calm hto).symm.trans h
  | beginUpload => rfl
  | _ => cases h

/-! ## Where a task is -/

theorem taken_eq_nil (h : (s.pcs .worker).beforeClear = false) : s.taken = [] := by
  rw [taken, h]
  rfl

/-- What the worker has taken is the task in progress. -/
theorem Tracked.noted_of_mem_taken (h : Tracked s) {id : ℕ} (hid : id ∈ s.taken) :
    s.dispatcher.itemInProgress = some id := by
  unfold taken at hid
  split_ifs at hid
  · obtain ⟨task, htask, rfl⟩ := mem_map.1 hid
    have hitem : s.item = some task := Option.mem_toList.1 (mem_of_mem_filter htask)
    rw [h.noted, hitem]
    rfl
  · cases hid

/-- A task that waits is not in progress. -/
theorem Tracked.not_noted_of_pending (h : Tracked s) {task : Task TaskBody}
    (htask : task ∈ s.pending) : s.dispatcher.itemInProgress ≠ some task.id := by
  rw [h.noted]
  intro hnoted
  obtain ⟨item, hitem, hid⟩ := Option.map_eq_some_iff.1 hnoted
  have hdistinct := h.distinct
  rw [taskIds, queuedIds, map_append, append_assoc, nodup_append] at hdistinct
  refine hdistinct.2.2 task.id (mem_map_of_mem (mem_of_mem_filter htask)) item.id ?_
    hid.symm
  rw [hitem]
  exact mem_append_right _ (mem_singleton_self item.id)

/-- While `uploadAsync` runs, its task is the one that has been taken. -/
theorem Tracked.taken_ne_nil (h : Tracked s) (hin : (s.pcs .worker).inUpload = true)
    (hbefore : (s.pcs .worker).beforeClear = true) : s.taken ≠ [] := by
  obtain ⟨item, hitem, hupload⟩ := h.uploading hin
  rw [taken, hbefore, hitem]
  simp [hupload]

/-- A task that is cancelled is gone from the timers. -/
theorem not_mem_eraseP (hdistinct : s.taskIds.Nodup) (id : ℕ) :
    id ∉ (s.dispatcher.timerQueue.eraseP fun item => item.id = id).map Task.id := by
  rw [map_id_eraseP]
  rw [taskIds, queuedIds, map_append, append_assoc] at hdistinct
  exact hdistinct.of_append_left.not_mem_erase

/-! ## What a look for a task changes -/

/-- A look for a task brings a timer forward at most. -/
theorem pending_of_looks (htakes : s.dispatcher.Takes (none, w)) :
    ((w.timerQueue.filter fun task => task.body.isUpload).map Task.id).Perm
      (s.pending.map Task.id) ∧
    ∀ task ∈ w.timerQueue.filter fun task => task.body.isUpload,
      ∃ old ∈ s.pending, task.targetTime ≤ old.targetTime := by
  unfold pending
  cases htakes with
  | nothing => exact ⟨.refl _, fun task htask => ⟨task, htask, le_rfl⟩⟩
  | @forward item rest target htimers htarget =>
    have hperm := (timerInsert_perm { item with targetTime := target } rest).filter
      fun task => task.body.isUpload
    rw [htimers]
    constructor
    · refine (hperm.map Task.id).trans ?_
      by_cases hupload : item.body.isUpload = true
      · simp [hupload]
      · simp [hupload]
    · intro task htask
      obtain ⟨hin, hupload⟩ := List.mem_filter.1 (hperm.subset htask)
      rcases mem_cons.1 hin with rfl | hin
      · exact ⟨item, List.mem_filter.2 ⟨mem_cons_self, hupload⟩, htarget⟩
      · exact ⟨task, List.mem_filter.2 ⟨mem_cons_of_mem item hin, hupload⟩, le_rfl⟩

/-- A task the worker takes is as unserved as before. -/
theorem unserved_takes [DecidableEq κ] {item : Task TaskBody} (hplaced : Placed s)
    (hpc : s.pcs .worker = .idle) (htakes : s.dispatcher.Takes (some item, w)) :
    ({ s with dispatcher := w, item := some item }.goTo .worker .lockExecution).unserved.Perm
      s.unserved := by
  have htaken : s.taken = [] := taken_eq_nil (by rw [hpc]; rfl)
  have htaken' : ({ s with dispatcher := w, item := some item }.goTo .worker .lockExecution).taken =
      ([item].filter fun task => task.body.isUpload).map Task.id := by
    rw [taken, goTo_pcs_self]
    rfl
  rw [unserved, unserved, htaken, htaken', append_nil]
  cases htakes with
  | @timer _ rest htimers =>
    have hold : s.pending = (item :: rest).filter fun task => task.body.isUpload := by
      rw [pending, htimers]
    rw [hold, ← map_append]
    refine List.Perm.map Task.id ?_
    exact (filter_append rest [item]) ▸ (perm_append_singleton item rest).filter _
  | task hqueue =>
    have hother : item.body = .other := hplaced.2 item (hqueue ▸ mem_cons_self)
    rw [filter_singleton, hother]
    exact .of_eq (append_nil _)

end PolicyRun

end ClientTelemetry
