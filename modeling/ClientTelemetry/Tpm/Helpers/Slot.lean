import ClientTelemetry.Common.Slot
import ClientTelemetry.Tpm.Helpers.Thread
/-!
# The scheduled upload as a slot

`m_isUploadScheduled` is the flag of a slot, `m_scheduledUpload` its
handle, and what stands behind the flag are the upload tasks that have
neither been cancelled nor taken the flag down. A thread fills the slot
between the exchange of the flag and the assignment of the handle. A
cancellation under `m_scheduledUploadMutex` cannot overlap that; one by
`pauseAllUploads` or `handleCleanup` can, which `PolicyRun.CancelsApart`
excludes. Then every step is a step of the slot.
-/

namespace ClientTelemetry

variable {pc : Pc}

open Function List

/-- What a thread at this place is about to do with the flag. Who waits in
`Cancel` has to wait as long as the dispatcher shows the task in
progress. -/
def Pc.role (noted : Option ℕ) : Pc → Role ℕ
  | .createTask _ => .claims
  | .assign id _ _ => .stores id
  | .awaits id _ | .holds id _ | .decides id _ => if noted = some id then .cancels id else .clears
  | .cancelled true _ => .clears
  | _ => .apart

/-- The flag has been set, and the handle is the old one. -/
def Pc.filling : Pc → Bool
  | .createTask _ | .assign _ _ _ => true
  | _ => false

/-- A cancellation without the mutex has begun, and may take the flag
down. -/
def Pc.withdrawing : Pc → Bool
  | .awaits _ next | .holds _ next | .decides _ next | .cancelled true next => !next.locked
  | _ => false

/-- A cancellation without the mutex is next. -/
def Pc.unguarded : Pc → Bool
  | .cancel next => !next.locked
  | _ => false

/-- The exchange of the flag is next. -/
def Pc.exchanging : Pc → Bool
  | .exchange _ _ => true
  | _ => false

theorem Pc.locked_of_filling (h : pc.filling = true) : pc.locked = true := by
  cases pc <;> first | rfl | cases h

theorem Pc.role_of_calm (h : pc.calm) (noted : Option ℕ) : pc.role noted = .apart := by
  cases pc <;> first | rfl | cases h

theorem Pc.role_of_checks (h : pc.checks) (noted : Option ℕ) :
    pc.role noted = .apart := by
  cases pc <;> first | rfl | cases h

theorem Pc.filling_of_role {noted : Option ℕ}
    (h : pc.role noted = .claims ∨ ∃ id, pc.role noted = .stores id) : pc.filling = true := by
  cases pc with
  | cancelled answer next =>
    cases answer <;> rcases h with h | ⟨id, h⟩ <;> cases h
  | awaits | holds | decides =>
    rcases h with h | ⟨id, h⟩ <;> rw [Pc.role] at h <;> split_ifs at h
  | createTask | assign => rfl
  | _ => rcases h with h | ⟨id, h⟩ <;> cases h

/-- Who has a part in it holds the mutex, or withdraws the task without. -/
theorem Pc.role_eq_apart (hlocked : pc.locked = false) (hwithdrawing : pc.withdrawing = false)
    (noted : Option ℕ) : pc.role noted = .apart := by
  cases pc with
  | cancelled answer next =>
    cases answer with
    | true =>
      rw [Pc.withdrawing, show next.locked = false from hlocked] at hwithdrawing
      cases hwithdrawing
    | false => rfl
  | awaits id next | holds id next | decides id next =>
    rw [Pc.withdrawing, show next.locked = false from hlocked] at hwithdrawing
    cases hwithdrawing
  | createTask | assign => cases hlocked
  | _ => rfl

/-- Once nothing is in progress, who waited can take the flag down. -/
theorem Pc.role_none (pc : Pc) (noted : Option ℕ) : pc.role none = pc.role noted ∨
    pc.role none = .clears ∧
      ∃ id, noted = some id ∧ pc.cancelPc.target = some id ∧ pc.role noted = .cancels id := by
  cases pc with
  | awaits id next | holds id next | decides id next =>
    by_cases hnoted : noted = some id
    · exact .inr ⟨rfl, id, hnoted, rfl, if_pos hnoted⟩
    · refine .inl ?_
      simp only [Pc.role, if_neg hnoted]
      rfl
  | cancelled answer next => cases answer <;> exact .inl rfl
  | _ => exact .inl rfl

namespace PolicyRun

variable {κ : Type*} [DecidableEq κ] {s : PolicyRun κ} {t u : Thread κ} {timeout : Bool}
  {next : AfterCancel} {request : UploadRequest} {s' : PolicyRun κ} {pc pc' : Pc} {id : ℕ}
  {w : WorkerThread κ TaskBody} {a : PolicyAction κ}

/-- The upload task the worker has, unless it was taken back. -/
def held (s : PolicyRun κ) : List ℕ :=
  if s.dispatcher.itemInProgress = none then [] else s.taken

/-- **The slot of the scheduled upload.** -/
def slot (s : PolicyRun κ) : Slot (Thread κ) ℕ where
  flag := s.isUploadScheduled
  standing := ↑(s.pending.map Task.id ++ s.held)
  handle := s.scheduledUpload
  role := fun t => (s.pcs t).role s.dispatcher.itemInProgress

/-- **No cancellation without the mutex overlaps the filling of the
slot**: none begins while a thread is between the exchange of the flag and
the assignment of the handle, and no thread sets the flag while one is
under way. -/
def CancelsApart (s : PolicyRun κ) : PolicyAction κ → Prop
  | .go t _ =>
    ((s.pcs t).unguarded = true → ∀ u, (s.pcs u).filling = false) ∧
    ((s.pcs t).exchanging = true → s.isUploadScheduled = false →
      ∀ u, (s.pcs u).withdrawing = false)
  | _ => True

/-! ## What a thread does to the slot -/

omit [DecidableEq κ] in
/-- Nobody fills the slot while a thread holds the mutex elsewhere. -/
theorem Owned.not_filling (h : Owned s) (ht : (s.pcs t).locked = true)
    (hnot : (s.pcs t).filling = false) (u : Thread κ) : (s.pcs u).filling = false := by
  by_contra hfilling
  rw [Bool.not_eq_false] at hfilling
  obtain rfl := h.eq ht (Pc.locked_of_filling hfilling)
  cases hnot.symm.trans hfilling

omit [DecidableEq κ] in
theorem CancelsApart.not_filling
    (h : CancelsApart s (.go t timeout)) (howned : Owned s) (hpc : s.pcs t = .cancel next) :
    ∀ u, (s.pcs u).filling = false := by
  by_cases hlocked : next.locked = true
  · exact howned.not_filling (t := t) (by rw [hpc]; exact hlocked) (by rw [hpc]; rfl)
  · refine h.1 ?_
    rw [hpc]
    exact Bool.not_eq_true' _ ▸ Bool.eq_false_iff.2 hlocked

omit [DecidableEq κ] in
/-- Who finds the flag unset has the slot to itself. -/
theorem CancelsApart.apart {read : ℕ}
    (h : CancelsApart s (.go t timeout)) (howned : Owned s) (hpc : s.pcs t = .exchange request read)
    (hflag : s.isUploadScheduled = false) (noted : Option ℕ) (u : Thread κ) (hut : u ≠ t) :
    (s.pcs u).role noted = .apart := by
  refine Pc.role_eq_apart ?_ (h.2 (by rw [hpc]; rfl) hflag u) noted
  by_contra hlocked
  exact hut (howned.eq (Bool.not_eq_false _ ▸ hlocked) (by rw [hpc]; rfl))

omit [DecidableEq κ] in
theorem not_fills (h : ∀ u, (s.pcs u).filling = false) (u : Thread κ) : ¬ s.slot.Fills u :=
  fun hfills => nomatch (h u).symm.trans (Pc.filling_of_role hfills)

/-- One thread goes to another place. -/
theorem turn_goTo {noted : Option ℕ} {before after : Role ℕ}
    (hbefore : (s.pcs t).role noted = before) (hafter : pc.role noted = after) :
    Slot.Turn (fun u => (s.pcs u).role noted) (fun u => ((s.goTo t pc).pcs u).role noted) t before
      after where
  was := hbefore
  now := (congrArg (Pc.role noted) goTo_pcs_self).trans hafter
  others := fun _ hut => congrArg (Pc.role noted) (goTo_pcs_of_ne hut)

section

variable (hpc : t = .worker → pc.beforeClear = (s.pcs t).beforeClear)
include hpc

/-- What the worker has in its hands is the same. -/
theorem held_goTo : (s.goTo t pc).held = s.held := by
  rw [held, held, taken_goTo hpc]
  rfl

/-- And so is what stands behind the flag. -/
theorem standing_goTo : (s.goTo t pc).slot.standing = s.slot.standing :=
  congrArg (fun ids => ((s.pending.map Task.id ++ ids : List ℕ) : Multiset ℕ)) (held_goTo hpc)

end

/-- A step that has no part in it. -/
theorem slot_stays (hpc : s.pcs t = pc)
    (hrole : pc'.role s.dispatcher.itemInProgress = pc.role s.dispatcher.itemInProgress)
    (hbefore : t = .worker → pc'.beforeClear = pc.beforeClear) :
    Slot.Step s.slot (s.goTo t pc').slot := by
  subst hpc
  have hturn := turn_goTo (s := s) (t := t) rfl hrole
  refine .stays rfl (standing_goTo hbefore) rfl fun u => ?_
  by_cases hut : u = t
  · subst hut
    exact hturn.now
  · exact hturn.others u hut

omit [DecidableEq κ] in
theorem Leads.role (hleads : Leads s pc pc') (noted : Option ℕ) :
    pc'.role noted = pc.role noted := by
  cases hleads with
  | calm hfrom hto => rw [Pc.role_of_calm hfrom, Pc.role_of_calm hto]
  | refuses hfrom =>
    rw [Pc.role_of_checks hfrom]
    rfl
  | _ => rfl

theorem Pc.beforeClear_of_calm (h : pc.calm) : pc.beforeClear = false := by
  cases pc <;> first | rfl | cases h

omit [DecidableEq κ] in
theorem Leads.beforeClear (hleads : Leads s pc pc') :
    pc'.beforeClear = pc.beforeClear := by
  cases hleads with
  | calm hfrom hto => rw [Pc.beforeClear_of_calm hfrom, Pc.beforeClear_of_calm hto]
  | @refuses pc hfrom => cases pc <;> first | rfl | cases hfrom
  | _ => rfl

theorem role_nextPc (next : AfterCancel) (noted : Option ℕ) :
    (nextPc next).role noted = .apart := by
  cases next <;> rfl

/-! ## Where the task of the handle is -/

omit [DecidableEq κ] in
theorem noted_of_mem_held (hgrips : s.workerRun.Grips) (hid : id ∈ s.held) :
    s.dispatcher.itemInProgress = some id := by
  unfold held taken at hid
  split_ifs at hid with hnone hbefore
  · cases hid
  · obtain ⟨task, htask, rfl⟩ := mem_map.1 hid
    have hitem : s.item = some task := Option.mem_toList.1 (mem_of_mem_filter htask)
    obtain ⟨noted, hnoted⟩ := Option.ne_none_iff_exists'.1 hnone
    obtain ⟨item, hitem', hid⟩ := item_of_noted hgrips hnoted
    obtain rfl := Option.some.inj (hitem.symm.trans hitem')
    rw [hnoted, hid]
  · cases hid

omit [DecidableEq κ] in
theorem queued_of_pending (hid : id ∈ s.pending.map Task.id) : id ∈ s.queuedIds := by
  obtain ⟨task, htask, rfl⟩ := mem_map.1 hid
  exact mem_map_of_mem (mem_append_left _ (mem_of_mem_filter htask))

omit [DecidableEq κ] in
theorem held_eq_nil (h : (s.pcs .worker).beforeClear = false) : s.held = [] := by
  rw [held, taken_eq_nil h, ite_self]

omit [DecidableEq κ] in
theorem held_eq_taken (h : s.dispatcher.itemInProgress = some id) : s.held = s.taken := by
  rw [held, h]
  exact if_neg nofun

/-! ## The steps -/

/-- The task is queued. -/
theorem slot_creates (hpc : s.pcs t = .createTask request) :
    Slot.Step s.slot ({ s with
      dispatcher := s.dispatcher.queueItem (s.uploadTask request)
      nextTask := s.nextTask + 1 }.goTo t (.assign s.nextTask request s.now)).slot := by
  refine .makes (turn_goTo (by rw [hpc]; rfl) rfl) rfl ?_
  have hheld : (s.goTo t (.assign s.nextTask request s.now)).held = s.held :=
    held_goTo fun _ => by rw [hpc]; rfl
  have hperm := ((s.timers_queueItem request).map Task.id).append_right s.held
  refine (congrArg (fun ids => ((_ ++ ids : List ℕ) : Multiset ℕ)) hheld).trans ?_
  exact Multiset.coe_eq_coe.2 hperm

/-- The worker takes the flag down in the task it has. -/
theorem slot_clears (howned : Owned s) (hplaced : Placed s) (hfiled : Filed s)
    (hgrips : s.workerRun.Grips) (hpc : s.pcs t = .clearScheduled) :
    Slot.Step s.slot ({ s with isUploadScheduled := false }.goTo t .testUpload).slot := by
  obtain rfl := hplaced.eq_worker (t := t) (by rw [hpc]; rfl)
  obtain ⟨item, hitem, hupload⟩ := hfiled.uploading (by rw [hpc]; rfl)
  have hnoted : s.dispatcher.itemInProgress = some item.id := by
    have hshown : (workerPc s.item (s.pcs .worker)).Noted s.dispatcher.itemInProgress := hgrips.noted
    rw [hitem, hpc] at hshown
    exact hshown
  have hheld : s.held = [item.id] := by
    rw [held, taken, hnoted, hpc, hitem]
    simp [Pc.beforeClear, hupload]
  have hheld' : (s.goTo .worker .testUpload).held = [] :=
    held_eq_nil (by rw [goTo_pcs_self]; rfl)
  have hstanding : s.slot.standing = item.id ::ₘ (s.goTo .worker .testUpload).slot.standing := by
    change ((s.pending.map Task.id ++ s.held : List ℕ) : Multiset ℕ) =
      item.id ::ₘ ((s.pending.map Task.id ++ _ : List ℕ) : Multiset ℕ)
    rw [hheld, hheld', append_nil, Multiset.cons_coe, Multiset.coe_eq_coe]
    exact perm_append_singleton _ _
  refine .serves rfl hstanding rfl (fun u => ?_) (not_fills (howned.not_filling
    (t := .worker) (by rw [hpc]; rfl) (by rw [hpc]; rfl)))
  exact goTo_forall (P := fun u pc => pc.role _ = (s.pcs u).role _) (by rw [hpc]; rfl)
    (fun _ _ => rfl) u

section

variable (hok : CancelsApart s (.go t timeout))
include hok

/-- A cancellation that leaves the dispatcher as it is. -/
theorem slot_withdraws
    (howned : Owned s) (hpc : s.pcs t = .cancel next)
    (hgone : ∀ id, s.scheduledUpload = some id → id ∉ s.slot.standing) :
    Slot.Step s.slot (s.goTo t (.cancelled true next)).slot := by
  have hstanding : (s.goTo t (.cancelled true next)).slot.standing = s.slot.standing :=
    standing_goTo fun _ => by rw [hpc]; rfl
  refine .withdraws (turn_goTo (by rw [hpc]; rfl) rfl) hstanding.le rfl ?_
    (not_fills (hok.not_filling howned hpc))
  rw [hstanding]
  exact hgone

/-- The task is taken out of the timers. -/
theorem slot_cancelsQueued (howned : Owned s) (hfiled : Filed s)
    (hgrips : s.workerRun.Grips) (hpc : s.pcs t = .cancel next)
    (hhandle : s.scheduledUpload = some id) (hnoted : s.dispatcher.itemInProgress ≠ some id) :
    Slot.Step s.slot ({ s with
      dispatcher := { s.dispatcher with
        timerQueue := s.dispatcher.timerQueue.eraseP fun item => item.id = id } }.goTo t
          (.cancelled true next)).slot := by
  have hheld : (s.goTo t (.cancelled true next)).held = s.held :=
    held_goTo fun _ => by rw [hpc]; rfl
  have hstanding : ({ s with
      dispatcher := { s.dispatcher with
        timerQueue := s.dispatcher.timerQueue.eraseP fun item => item.id = id } }.goTo t
          (.cancelled true next)).slot.standing =
      ↑(((s.dispatcher.timerQueue.eraseP fun item => item.id = id).filter
        fun task => task.body.isUpload).map Task.id ++ s.held) :=
    congrArg (fun ids => ((_ ++ ids : List ℕ) : Multiset ℕ)) hheld
  refine .withdraws (turn_goTo (by rw [hpc]; rfl) rfl) ?_ rfl ?_ (not_fills (hok.not_filling howned hpc))
  · rw [hstanding]
    refine Multiset.coe_le.2 (List.Sublist.subperm ?_)
    exact ((eraseP_sublist.filter _).map Task.id).append (.refl _)
  · intro id' hid'
    obtain rfl := Option.some.inj (hhandle.symm.trans hid')
    rw [hstanding, Multiset.mem_coe, mem_append, not_or]
    refine ⟨fun hin => not_mem_eraseP hfiled.distinct id ?_,
      fun hin => hnoted (noted_of_mem_held hgrips hin)⟩
    exact ((filter_sublist (p := fun task => task.body.isUpload)).map Task.id).subset hin

/-- A caller finds the task in progress. -/
theorem slot_meets (howned : Owned s)
    (hpc : s.pcs t = .cancel next) (hhandle : s.scheduledUpload = some id)
    (hnoted : s.dispatcher.itemInProgress = some id)
    (hto : pc = .awaits id next ∨ pc = .decides id next) : Slot.Step s.slot (s.goTo t pc).slot := by
  have hafter : pc.role s.dispatcher.itemInProgress = .cancels id := by
    rcases hto with rfl | rfl <;> exact if_pos hnoted
  have hbefore : pc.beforeClear = false := by rcases hto with rfl | rfl <;> rfl
  refine .cancels (turn_goTo (by rw [hpc]; rfl) hafter) rfl ?_ rfl hhandle
    (not_fills (hok.not_filling howned hpc))
  refine standing_goTo fun _ => ?_
  rw [hpc, hbefore]
  rfl

end

/-- Nothing is shown in progress any more. Who waited for the task can take
the flag down. -/
theorem slot_goes (hfiled : Filed s) (hpcs : s'.pcs = s.pcs)
    (hflag : s'.isUploadScheduled = s.isUploadScheduled)
    (hhandle : s'.scheduledUpload = s.scheduledUpload)
    (htimers : s'.dispatcher.timerQueue = s.dispatcher.timerQueue)
    (hnone : s'.dispatcher.itemInProgress = none)
    (hpc : (s.pcs t).role s.dispatcher.itemInProgress = pc.role none ∨
      pc.role none = .clears ∧ ∃ id, (s.pcs t).cancelPc.target = some id ∧
        (s.pcs t).role s.dispatcher.itemInProgress = .cancels id)
    (hkept : s.held = [] ∨ pc.role none = .clears) :
    Slot.Step s.slot (s'.goTo t pc).slot := by
  have hstanding : (s'.goTo t pc).slot.standing = ↑(s.pending.map Task.id) := by
    have hheld : (s'.goTo t pc).held = [] := if_pos hnone
    have hpending : (s'.goTo t pc).pending = s.pending := by
      rw [pending, pending, show (s'.goTo t pc).dispatcher.timerQueue = _ from htimers]
    refine congrArg (fun ids : List ℕ => (ids : Multiset ℕ)) ?_
    rw [hheld, hpending, append_nil]
  have hrole (u : Thread κ) : (s'.goTo t pc).slot.role u = ((s'.goTo t pc).pcs u).role none :=
    congrArg (fun noted => ((s'.goTo t pc).pcs u).role noted) hnone
  have hgone (u : Thread κ) (id : ℕ) (htarget : (s.pcs u).cancelPc.target = some id) :
      id ∉ (s'.goTo t pc).slot.standing := by
    rw [hstanding, Multiset.mem_coe]
    exact fun hin => (hfiled.target u id htarget).1 (queued_of_pending hin)
  refine .goes hflag ?_ hhandle (fun u => ?_) ?_
  · rw [hstanding]
    exact Multiset.coe_le.2 (sublist_append_left _ _).subperm
  · rw [hrole]
    by_cases hut : u = t
    · subst hut
      rw [goTo_pcs_self]
      rcases hpc with hsame | ⟨hclears, id, htarget, hcancels⟩
      · exact .inl hsame.symm
      · exact .inr ⟨hclears, id, hcancels, hgone u id htarget⟩
    · rw [goTo_pcs_of_ne hut, hpcs]
      rcases (s.pcs u).role_none s.dispatcher.itemInProgress with
        hsame | ⟨hclears, id, -, htarget, hwas⟩
      · exact .inl hsame
      · exact .inr ⟨hclears, id, hwas, hgone u id htarget⟩
  · rcases hkept with hheld | hclears
    · refine .inl (hstanding.trans ?_)
      refine congrArg (fun ids : List ℕ => (ids : Multiset ℕ)) ?_
      rw [hheld, append_nil]
    · refine .inr ⟨t, ?_⟩
      rw [hrole, goTo_pcs_self]
      exact hclears

/-- The answer of `Cancel` is known. -/
theorem slot_decides (hpc : s.pcs t = .decides id next) :
    Slot.Step s.slot ({ s with dispatcher := { s.dispatcher with lock := none } }.goTo t
      (.cancelled (decide (s.dispatcher.itemInProgress ≠ some id)) next)).slot := by
  by_cases hnoted : s.dispatcher.itemInProgress = some id
  · rw [decide_eq_false (not_not.2 hnoted)]
    have hrole : (s.pcs t).role s.dispatcher.itemInProgress = .cancels id := by
      rw [hpc]
      exact if_pos hnoted
    refine .desists (turn_goTo hrole rfl) rfl ?_ rfl
    exact standing_goTo fun _ => by rw [hpc]; rfl
  · rw [decide_eq_true hnoted]
    exact slot_stays hpc (if_neg hnoted).symm fun _ => rfl

/-- The answer takes effect. -/
theorem slot_cancelled {answer : Bool} (hpc : s.pcs t = .cancelled answer next) :
    Slot.Step s.slot ({ s with
      isUploadScheduled := if answer then false else s.isUploadScheduled }.goTo t
        (nextPc next)).slot := by
  have hrole := role_nextPc next s.dispatcher.itemInProgress
  have hbefore : (nextPc next).beforeClear = false := by cases next <;> rfl
  cases answer with
  | true =>
    refine .clears (turn_goTo (by rw [hpc]; rfl) hrole) rfl ?_ rfl
    refine standing_goTo fun _ => ?_
    rw [hpc, hbefore]
    rfl
  | false => exact slot_stays hpc hrole fun _ => hbefore

omit [DecidableEq κ] in
/-- The queues change: the same upload tasks are there, and the same task is
noted. -/
theorem slot_requeues {n : ℕ} (hnoted : w.itemInProgress = s.dispatcher.itemInProgress)
    (hpending : ((w.timerQueue.filter fun task => task.body.isUpload).map Task.id).Perm
      (s.pending.map Task.id)) : Slot.Step s.slot
        ({ s with dispatcher := w, nextTask := n } : PolicyRun κ).slot := by
  have hheld : ({ s with dispatcher := w, nextTask := n } : PolicyRun κ).held = s.held := by
    rw [held, held]
    exact if_congr (by rw [hnoted]) rfl rfl
  refine .stays rfl ?_ rfl fun u => congrArg (fun noted => (s.pcs u).role noted) hnoted
  refine (congrArg (fun ids => ((_ ++ ids : List ℕ) : Multiset ℕ)) hheld).trans ?_
  exact Multiset.coe_eq_coe.2 (hpending.append_right s.held)

/-- A task that is taken still stands. -/
theorem slot_takes {item : Task TaskBody} (hplaced : Placed s)
    (hfiled : Filed s) (hgrips : s.workerRun.Grips) (hpc : s.pcs .worker = .idle)
    (hitem : s.item = none) (htakes : s.dispatcher.Takes (some item, w)) : Slot.Step s.slot
      ({ s with dispatcher := w, item := some item }.goTo .worker .lockExecution).slot := by
  have hnoted : w.itemInProgress = some item.id := by cases htakes <;> rfl
  have hnone : s.dispatcher.itemInProgress = none := by
    by_contra hsome
    obtain ⟨id, hid⟩ := Option.ne_none_iff_exists'.1 hsome
    obtain ⟨task, htask, -⟩ := item_of_noted hgrips hid
    cases hitem.symm.trans htask
  have hqueued : item.id ∈ s.queuedIds := by
    refine mem_map_of_mem (htakes.perm.symm.subset ?_)
    exact mem_append_right _ (mem_singleton_self item)
  refine .stays rfl ?_ rfl fun u => ?_
  · have hheld : ({ s with dispatcher := w, item := some item }.goTo .worker .lockExecution).held =
        ({ s with dispatcher := w, item := some item }.goTo .worker .lockExecution).taken :=
      held_eq_taken hnoted
    have hheld' : s.held = s.taken := by
      rw [held_eq_nil (by rw [hpc]; rfl), taken_eq_nil (by rw [hpc]; rfl)]
    have hperm := unserved_takes hplaced hpc htakes
    rw [unserved, unserved, ← hheld, ← hheld'] at hperm
    exact Multiset.coe_eq_coe.2 hperm
  · -- nobody waits for a task that was in a queue
    change Pc.role w.itemInProgress _ = Pc.role s.dispatcher.itemInProgress (s.pcs u)
    rw [hnone, hnoted]
    by_cases hu : u = .worker
    · subst hu
      rw [goTo_pcs_self, hpc]
      rfl
    · rw [goTo_pcs_of_ne hu]
      rcases (s.pcs u).role_none (some item.id) with hsame | ⟨-, id, hid, htarget, -⟩
      · exact hsame.symm
      · rw [Option.some.inj hid] at hqueued
        exact absurd hqueued (hfiled.target u id htarget).1

/-- The worker begins with the task it has. -/
theorem slot_begins (hfiled : Filed s) (hpc : s.pcs .worker = .testItem) :
    Slot.Step s.slot (s.goTo .worker (bodyPc s.item)).slot := by
  rcases hitem : s.item with _ | ⟨id, type, targetTime, latency | _⟩
  · exact absurd hitem (hfiled.taken (.inr hpc))
  · exact slot_stays hpc rfl fun _ => rfl
  · -- a task of another component stands behind nothing
    have hheld : s.held = [] := by
      simp [held, taken, hitem, TaskBody.isUpload]
    have hheld' : (s.goTo .worker .idle).held = [] := held_eq_nil (by rw [goTo_pcs_self]; rfl)
    refine .stays rfl ?_ rfl fun u => ?_
    · exact congrArg (fun ids => ((s.pending.map Task.id ++ ids : List ℕ) : Multiset ℕ))
        (hheld'.trans hheld.symm)
    · exact goTo_forall (P := fun u pc => pc.role _ = (s.pcs u).role _) (by rw [hpc]; rfl)
        (fun _ _ => rfl) u

/-- **A step of a thread is a step of the slot.** -/
theorem slot_moves (h : Ordered s)
    (hok : CancelsApart s (.go t timeout)) (hmoves : Moves s t s') : Slot.Step s.slot s'.slot := by
  obtain ⟨hplaced, howned, hfiled, hgrips⟩ := h
  cases hmoves with
  | waits => exact .stays rfl rfl rfl fun _ => rfl
  | goes hpc hleads =>
    exact slot_stays hpc (hleads.role _) fun _ => hleads.beforeClear
  | locks hpc hlocks hfree =>
    exact slot_stays hpc (by cases hlocks <;> rfl)
      fun _ => by cases hlocks <;> rfl
  | unlocks hpc hunlocks =>
    exact slot_stays hpc (by cases hunlocks <;> rfl)
      fun _ => by cases hunlocks <;> rfl
  | finishes hpc hcalm =>
    exact slot_stays hpc (Pc.role_of_calm hcalm _)
      fun _ => Pc.beforeClear_of_calm hcalm
  | exchanges hpc hflag =>
    refine .claims (turn_goTo (by rw [hpc]; rfl) rfl) hflag rfl ?_
      (hok.apart howned hpc hflag _)
    exact standing_goTo fun _ => by rw [hpc]; rfl
  | creates hpc => exact slot_creates hpc
  | assigns hpc =>
    refine .stores (turn_goTo (by rw [hpc]; rfl) rfl) rfl ?_ rfl
    exact standing_goTo fun _ => by rw [hpc]; rfl
  | clears hpc => exact slot_clears howned hplaced hfiled hgrips hpc
  | cancelsNothing hpc hhandle =>
    exact slot_withdraws hok howned hpc fun _ hid => nomatch hhandle.symm.trans hid
  | @cancelsItself id next hpc hhandle hself hnoted =>
    refine slot_withdraws hok howned hpc fun id' hid' hin => ?_
    obtain rfl := Option.some.inj (hhandle.symm.trans hid')
    have hheld : s.held = [] := held_eq_nil (by rw [← hself, hpc]; rfl)
    have hin : id ∈ s.pending.map Task.id ++ s.held := Multiset.mem_coe.1 hin
    rw [hheld, append_nil] at hin
    exact (hfiled.not_queued_of_noted hgrips hnoted).1 (queued_of_pending hin)
  | cancelsQueued hpc hhandle hnoted =>
    exact slot_cancelsQueued hok howned hfiled hgrips hpc hhandle hnoted
  | @meets id next k hpc hhandle hself hnoted =>
    refine slot_meets hok howned hpc hhandle hnoted ?_
    split_ifs
    · exact .inl rfl
    · exact .inr rfl
  | timesOut hpc | holds hpc hself | locksExecution hpc | unlocksExecution hpc =>
    exact slot_stays hpc rfl fun _ => rfl
  | @takesBack id next hpc =>
    refine slot_goes hfiled rfl rfl rfl rfl rfl ?_ (.inr rfl)
    rw [hpc]
    rcases Pc.role_none (.holds id next) s.dispatcher.itemInProgress with
      hsame | ⟨hclears, id', -, htarget, hwas⟩
    · exact .inl hsame.symm
    · exact .inr ⟨hclears, id', htarget, hwas⟩
  | decides hpc => exact slot_decides hpc
  | cancelled hpc => exact slot_cancelled hpc
  | looks hself hpc hitem htakes =>
    exact slot_requeues (by cases htakes <;> rfl) (pending_of_looks htakes).1
  | takes hself hpc hitem htakes =>
    subst hself
    exact slot_takes hplaced hfiled hgrips hpc hitem htakes
  | ends hself hpc hitem =>
    subst hself
    refine slot_goes hfiled rfl rfl rfl rfl rfl (.inl (by rw [hpc]; rfl)) (.inl ?_)
    exact held_eq_nil (by rw [hpc]; rfl)
  | begins hpc hnoted =>
    obtain rfl := hplaced.eq_worker (t := t) (by rw [hpc]; rfl)
    exact slot_begins hfiled hpc
  | skips hpc hnoted =>
    obtain rfl := hplaced.eq_worker (t := t) (by rw [hpc]; rfl)
    refine slot_goes hfiled rfl rfl rfl rfl hnoted (.inl (by rw [hpc]; rfl)) (.inl ?_)
    exact if_pos hnoted
  | _ hpc => exact slot_stays hpc rfl fun _ => rfl

/-- **And so is every step of the run.** -/
theorem slot_step (h : Ordered s) (hok : CancelsApart s a)
    (hsteps : Steps s a s') : Slot.Step s.slot s'.slot := by
  cases hsteps with
  | stays | profiles | ticks => exact .stays rfl rfl rfl fun _ => rfl
  | @calls t c hidle =>
    exact slot_stays hidle (by cases c <;> rfl) fun _ => by cases c <;> rfl
  | goes hmoves => exact slot_moves h hok hmoves
  | @queues timed targetTime =>
    exact slot_requeues (s.dispatcher.queueItem_itemInProgress _)
      ((s.timers_queueOther timed targetTime).map Task.id)

/-- **What every run with cancellations apart keeps.** -/
structure Truthful (s : PolicyRun κ) : Prop where
  ordered : Ordered s
  sound : s.slot.Sound

theorem Truthful.step (h : Truthful s) (hok : CancelsApart s a) : Truthful (s.step a) where
  ordered := h.ordered.step a
  sound := h.sound.step (slot_step h.ordered hok (s.step_steps a))

omit [DecidableEq κ] in
theorem Truthful.initial (maxPendingReq : ℕ) {timers : ℤ × ℤ} :
    Truthful (initial maxPendingReq timers : PolicyRun κ) where
  ordered := .initial maxPendingReq
  sound := .empty rfl (fun _ => .inl (.inl rfl)) nofun

end PolicyRun

end ClientTelemetry
