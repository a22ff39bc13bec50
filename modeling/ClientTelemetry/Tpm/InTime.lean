import ClientTelemetry.Tpm.Helpers.InTime
/-!
# Uploads scheduled in time

A call of `scheduleUpload` is served in time in every run in order: no call
leaves a task that is later than it asks for, and no cancellation overlaps
one (`PolicyRun.InOrder`).
-/

namespace ClientTelemetry

open List

/-- A place from which any step is in order. -/
def Pc.free : Pc → Bool
  | .checkScheduled _ | .cancel _ | .lockSchedule _ => false
  | _ => true

namespace PolicyRun

variable {κ : Type*} [DecidableEq κ] {s : PolicyRun κ} {t u : Thread κ} {timeout : Bool}
  {pc pc' : Pc} {s' : PolicyRun κ} {a : PolicyAction κ}

/-! ## Every step -/

/-- A thread takes the mutex. -/
theorem InTime.locks (h : InTime s)
    (hok : InOrder s (.go t timeout)) (hpc : s.pcs t = pc) (hlocks : Locks pc pc')
    (hfree : s.scheduledUploadMutex = none) :
    InTime ({ s with scheduledUploadMutex := some t }.goTo t pc') := by
  cases hlocks with
  | stop => exact h.aside hpc rfl rfl
  | upload => exact h.goTo hpc rfl ⟨rfl, rfl⟩ trivial nofun nofun
  | @schedule request =>
    have hcancelling := hok.2.2 request hpc hfree
    refine h.keeps ?_ (fun task htask => ⟨task, htask, le_rfl⟩) (by rw [hpc]; exact ⟨rfl, rfl⟩)
      trivial (fun _ u _ => hcancelling u) nofun
    exact unserved_goTo (s := s) fun _ => by rw [hpc]; rfl

/-- And gives it back. -/
theorem InTime.unlocks (h : InTime s) (hpc : s.pcs t = pc)
    (hunlocks : Unlocks s pc pc') : InTime ({ s with scheduledUploadMutex := none }.goTo t pc') := by
  cases hunlocks with
  | returns => exact h.goTo hpc rfl ⟨rfl, rfl⟩ trivial nofun nofun
  | _ => exact h.aside hpc rfl rfl

/-- **A step in order keeps what is scheduled in time**, until the manager
is aborted. -/
theorem InTime.moves (h : InTime s) (hplaced : Placed s)
    (howned : Owned s) (hdelayed : Delayed s) (hwaiting : Waiting s) (htracked : Tracked s)
    (hrun : s.scheduledUploadAborted = false) (hrun' : s'.scheduledUploadAborted = false)
    (hok : InOrder s (.go t timeout)) (hmoves : Moves s t s') : InTime s' := by
  cases hmoves with
  | waits => exact h
  | goes hpc hleads => exact h.leads howned hok hpc hleads
  | aborts hpc => cases hrun'
  | locks hpc hlocks hfree => exact h.locks hok hpc hlocks hfree
  | unlocks hpc hunlocks => exact h.unlocks hpc hunlocks
  | finishes hpc hcalm => exact h.aside hpc rfl (Pc.aside_of_calm hcalm)
  | exchanges hpc hflag => exact h.exchanges howned hpc hflag
  | creates hpc =>
    have hdelay := hdelayed t
    rw [hpc] at hdelay
    exact h.creates howned hdelay hpc
  | assigns hpc => exact h.assigns howned hpc
  | clears hpc =>
    have hself := hplaced.eq_worker (t := t) (by rw [hpc]; rfl)
    exact h.clears howned htracked hself hpc
  | cancelsNothing hpc hhandle =>
    have hout (u : Thread κ) (hut : u ≠ t) := hok.not_scheduling howned hpc hut
    have heq := h.eq_handle (t := t) (by rw [hpc]; rfl) hout
    have hnone : s.unserved = [] := by
      refine eq_nil_iff_forall_not_mem.2 fun id hid => ?_
      cases hhandle.symm.trans (heq id hid)
    obtain ⟨hpending, htaken⟩ := append_eq_nil_iff.1 hnone
    exact h.cancels hpc hout (map_eq_nil_iff.1 hpending) htaken
  | cancelsItself hpc hhandle hself hnoted =>
    have hout (u : Thread κ) (hut : u ≠ t) := hok.not_scheduling howned hpc hut
    have heq := h.eq_handle (t := t) (by rw [hpc]; rfl) hout
    refine h.cancels hpc hout (htracked.pending_eq_nil heq hhandle hnoted) ?_
    exact taken_eq_nil (by rw [← hself, hpc]; rfl)
  | cancelsQueued hpc hhandle hnoted =>
    have hout (u : Thread κ) (hut : u ≠ t) := hok.not_scheduling howned hpc hut
    have heq := h.eq_handle (t := t) (by rw [hpc]; rfl) hout
    exact h.cancels hpc hout (htracked.filter_eraseP_eq_nil heq hhandle)
      (htracked.taken_eq_nil_of_ne heq hhandle hnoted)
  | @meets id next k hpc hhandle hself hnoted =>
    have hout (u : Thread κ) (hut : u ≠ t) := hok.not_scheduling howned hpc hut
    have heq := h.eq_handle (t := t) (by rw [hpc]; rfl) hout
    have hpending := htracked.pending_eq_nil heq hhandle hnoted
    rw [if_neg (by rw [hrun]; exact Bool.false_ne_true)]
    exact h.goTo hpc rfl ⟨rfl, rfl⟩ ⟨hhandle, hpending⟩ (fun hto => hto) fun _ => hout
  | timesOut hpc | holds hpc hself | takesBack hpc =>
    cases hrun.symm.trans (hwaiting t (by rw [hpc]; rfl))
  | decides hpc => exact h.decides htracked hpc
  | cancelled hpc => exact h.cancelled hpc
  | looks hself hpc hitem htakes => exact h.looks htakes
  | takes hself hpc hitem htakes =>
    subst hself
    exact h.takes hplaced hpc htakes
  | ends hself hpc hitem =>
    subst hself
    exact h.leaves (taken_eq_nil (by rw [hpc]; rfl)) (taken_eq_nil (by rw [goTo_pcs_self]; rfl))
      (by rw [hpc]; exact ⟨rfl, rfl⟩) rfl
  | locksExecution hpc => exact h.goTo hpc rfl ⟨rfl, rfl⟩ trivial nofun nofun
  | begins hpc hnoted => exact h.begins (hplaced.eq_worker (by rw [hpc]; rfl)) hpc
  | skips hpc hnoted =>
    have hself := hplaced.eq_worker (t := t) (by rw [hpc]; rfl)
    subst hself
    have hitem : s.item = none := Option.map_eq_none_iff.1 (htracked.noted.symm.trans hnoted)
    refine h.leaves ?_ (taken_eq_nil (by rw [goTo_pcs_self]; rfl)) (by rw [hpc]; exact ⟨rfl, rfl⟩) rfl
    simp [taken, hitem]
  | _ hpc => exact h.aside hpc rfl rfl

/-- **What every run in order keeps.** -/
structure Kept (s : PolicyRun κ) : Prop where
  placed : Placed s
  owned : Owned s
  delayed : Delayed s
  waiting : Waiting s
  tracked : s.scheduledUploadAborted = false → Tracked s
  inTime : s.scheduledUploadAborted = false → InTime s

omit [DecidableEq κ] in
theorem Kept.initial (maxPendingReq : ℕ) {timers : ℤ × ℤ} :
    Kept (initial maxPendingReq timers : PolicyRun κ) where
  placed := .initial maxPendingReq
  owned := ⟨fun _ => nofun, fun _ => nofun⟩
  delayed := fun _ => trivial
  waiting := fun _ => nofun
  tracked := fun _ => ⟨rfl, nodup_nil, fun _ => nofun, nofun⟩
  inTime := fun _ => ⟨fun _ => trivial, fun _ _ _ => nofun, fun _ _ => nofun, Nat.zero_le 1,
    fun hne => absurd rfl hne, nofun⟩

theorem InTime.step (h : InTime s) (hplaced : Placed s)
    (howned : Owned s) (hdelayed : Delayed s) (hwaiting : Waiting s) (htracked : Tracked s)
    (hrun' : s'.scheduledUploadAborted = false) (hok : InOrder s a) (hsteps : Steps s a s') :
    InTime s' := by
  have hrun := hsteps.aborted hrun'
  cases hsteps with
  | stays => exact h
  | @calls t c hidle => exact h.aside hidle rfl (by cases c <;> rfl)
  | goes hmoves =>
    exact h.moves hplaced howned hdelayed hwaiting htracked hrun hrun' hok hmoves
  | @queues timed targetTime =>
    have hperm := s.timers_queueOther timed targetTime
    exact h.unmoved (h.unserved_eq ((hperm.map Task.id).append_right s.taken))
      fun task hin => ⟨task, hperm.subset hin, le_rfl⟩
  | profiles | ticks => exact h

theorem Kept.step (h : Kept s) (hfiled : Filed s')
    (hok : InOrder s a) (hsteps : Steps s a s') : Kept s' where
  placed := h.placed.step hsteps
  owned := h.owned.step hsteps
  delayed := h.delayed.step hsteps
  waiting := h.waiting.step hsteps
  tracked := fun hrun' =>
    (h.tracked (hsteps.aborted hrun')).step hfiled h.waiting (hsteps.aborted hrun') hsteps
  inTime := fun hrun' =>
    (h.inTime (hsteps.aborted hrun')).step h.placed h.owned h.delayed h.waiting
      (h.tracked (hsteps.aborted hrun')) hrun' hok hsteps

/-! ## A request is served in time -/

/-- `uploadAsync` executes, or exactly one task of it waits and is due by
then. -/
def Served (s : PolicyRun κ) (deadline : ℤ) : Prop :=
  (∃ item, s.item = some item ∧ item.body.isUpload = true) ∨
    ∃ task, s.pending = [task] ∧ (task.targetTime : ℤ) ≤ deadline

/-- The reasons `scheduleUpload` has to refuse a request. -/
def Refusal (s : PolicyRun κ) (request : UploadRequest) : Prop :=
  request.delay < 0 ∨ s.timerdelay < 0 ∨ s.scheduledUploadAborted = true ∨
    s.maxPendingReq ≤ s.uploadCount ∨ s.isPaused = true

omit [DecidableEq κ] in
theorem InTime.served_of_timely {deadline : ℤ} (h : InTime s) (hne : s.unserved ≠ [])
    (hdue : s.Timely deadline) : s.Served deadline := by
  have hsingle : s.unserved.length ≤ 1 := h.single
  rcases hpending : s.pending with _ | ⟨task, _ | ⟨other, rest⟩⟩
  · -- the worker has the task
    left
    rw [unserved, hpending, map_nil, nil_append, taken] at hne
    split_ifs at hne
    · obtain ⟨item, hitem⟩ := exists_mem_of_ne_nil _ (mt (congrArg (List.map Task.id)) hne)
      obtain ⟨hitem, hupload⟩ := List.mem_filter.1 hitem
      exact ⟨item, Option.mem_toList.1 hitem, hupload⟩
    · exact absurd rfl hne
  · exact .inr ⟨task, hpending, hdue task (by rw [hpending]; exact mem_singleton_self task)⟩
  · rw [unserved, hpending] at hsingle
    simp at hsingle

/-- The checks refuse a request for one of these reasons only. -/
theorem refusal_of_unlock {request : UploadRequest}
    (hpc : s.pcs t = .checkDelay request ∨ s.pcs t = .checkCount request ∨
      s.pcs t = .checkPaused request)
    (hunlock : (s.step (.go t timeout)).pcs t = .unlock) : s.Refusal request := by
  rw [PolicyRun.step] at hunlock
  rcases hpc with hpc | hpc | hpc <;> rw [hpc] at hunlock <;> simp only [goOn] at hunlock <;>
    split_ifs at hunlock with hrefused
  · rcases hrefused with hdelay | htimer | haborted
    · exact .inl hdelay
    · exact .inr (.inl htimer)
    · exact .inr (.inr (.inl haborted))
  · rw [goTo_pcs_self] at hunlock
    cases hunlock
  · exact .inr (.inr (.inr (.inl hrefused)))
  · rw [goTo_pcs_self] at hunlock
    cases hunlock
  · exact .inr (.inr (.inr (.inr hrefused)))
  · rw [goTo_pcs_self] at hunlock
    cases hunlock

/-- The ways out of the section of a call. -/
theorem Moves.leaves (hmoves : Moves s t s') (hin : (s.pcs t).scheduling = true)
    (hout : (s'.pcs t).scheduling = false) : (∃ request read, s.pcs t = .returns request read) ∨
      s'.pcs t = .unlock ∧ ∃ request, s.pcs t = .checkDelay request ∨
        s.pcs t = .checkCount request ∨ s.pcs t = .checkPaused request := by
  cases hmoves with
  | waits | looks => cases hin.symm.trans hout
  | @goes pc _ _ _ _ _ _ hpc hleads =>
    rw [goTo_pcs_self] at hout ⊢
    rw [hpc] at hin ⊢
    cases hleads with
    | calm hfrom =>
      cases pc <;> first | exact (Bool.false_ne_true hin).elim | exact (Bool.false_ne_true hfrom).elim
    | refuses hfrom =>
      refine .inr ⟨rfl, ?_⟩
      cases pc <;> first | exact ⟨_, .inl rfl⟩ | exact ⟨_, .inr (.inl rfl)⟩ |
        exact ⟨_, .inr (.inr rfl)⟩ | cases hfrom
    | arrives | beginUpload | testUpload => cases hin
    | _ => cases hout
  | locks hpc hlocks =>
    rw [hpc] at hin
    cases hlocks <;> cases hin
  | unlocks hpc hunlocks =>
    rw [hpc] at hin ⊢
    cases hunlocks with
    | returns => exact .inl ⟨_, _, rfl⟩
    | _ => cases hin
  | meets hpc =>
    rw [goTo_pcs_self] at hout
    rw [hpc] at hin
    split_ifs at hout <;> cases hin.symm.trans hout
  | @cancelled answer next hpc =>
    rw [goTo_pcs_self] at hout
    rw [hpc] at hin
    cases next <;> first | exact (Bool.false_ne_true hin).elim | cases hout
  | takes hself hpc | ends hself hpc =>
    rw [hpc] at hin
    cases hin
  | _ hpc =>
    rw [goTo_pcs_self] at hout
    rw [hpc] at hin
    first | exact (Bool.false_ne_true hin).elim | cases hin.symm.trans hout

omit [DecidableEq κ] in
theorem inOrder_of_free (hfree : (s.pcs t).free = true) :
    InOrder s (.go t timeout) := by
  refine ⟨fun request h => ?_, fun next h => ?_, fun request h => ?_⟩ <;>
  · rw [h] at hfree
    cases hfree

/-- A caller starts the manager, up to the return of its request. -/
def started : List (PolicyAction Unit) :=
  .call (.caller ()) .handleStart :: goes (.caller ()) 10

/-- A caller starts the manager, which asks for an upload in a second, and
asks for one in a tenth of that. -/
def askedEarlier : List (PolicyAction Bool) :=
  .call (.caller false) .handleStart :: goes (.caller false) 11 ++
    .call (.caller false) (.scheduleUpload ⟨100, .normal, false⟩) :: goes (.caller false) 6

/-- A caller starts the manager and cleans it up. Between the removal of the
task and that of the flag another asks for an upload. -/
def askedInCleanup : List (PolicyAction Bool) :=
  .call (.caller false) .handleStart :: goes (.caller false) 11 ++
    .call (.caller false) .handleCleanup :: goes (.caller false) 1 ++
    .call (.caller true) (.scheduleUpload ⟨2000, .normal, false⟩) :: goes (.caller true) 5

end PolicyRun

end ClientTelemetry
