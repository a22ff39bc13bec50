import ClientTelemetry.Pal.Helpers.Turns
import ClientTelemetry.Tpm.Helpers.Tasks
/-!
# The worker thread of the manager

What the manager's threads are doing in the dispatcher is a state of
`WorkerRun` (`PolicyRun.workerRun`), and the rules for its locks hold of it:
`m_itemInProgress` shows the task the worker has, unless the task was taken
back before it began. `PolicyRun.Filed` says where the tasks are. Both hold
in every run, before a stop and after it.
-/

namespace ClientTelemetry

variable {pc : Pc}

open Function List

/-- Where a thread is in `Cancel` of the dispatcher. -/
def Pc.cancelPc : Pc → CancelPc
  | .awaits id _ => .awaits id
  | .holds id _ => .holds id
  | .decides id _ => .decides id
  | _ => .idle

/-- In the loop of the worker thread, before a task or behind it. -/
def Pc.inLoop : Pc → Bool
  | .lockExecution | .testItem | .unlockExecution => true
  | _ => false

/-- A place that says nothing about the dispatcher. -/
def Pc.plain (pc : Pc) : Bool := pc.cancelPc = .idle ∧ pc.inLoop = false

theorem Pc.plain_of_calm (h : pc.calm) : pc.plain = true := by
  cases pc <;> first | rfl | cases h

theorem Pc.plain_of_checks (h : pc.checks) : pc.plain = true := by
  cases pc <;> first | rfl | cases h

/-- Where the worker is, as its dispatcher sees it. -/
def workerPc : Option (Task TaskBody) → Pc → WorkerPc TaskBody
  | some item, .lockExecution => .taken item
  | some item, .testItem => .locked item
  | some item, _ => .executing item
  | none, .unlockExecution => .finished
  | none, _ => .idle

theorem workerPc_congr {item : Option (Task TaskBody)} {pc' : Pc} (hpc : pc.plain = true)
    (hpc' : pc'.plain = true) : workerPc item pc = workerPc item pc' := by
  have hplain {pc : Pc} (h : pc.plain = true) : workerPc item pc =
      item.elim .idle .executing := by
    cases item <;> cases pc <;> first | rfl | cases h
  rw [hplain hpc, hplain hpc']

namespace PolicyRun

variable {κ : Type*} [DecidableEq κ] {s : PolicyRun κ} {t u : Thread κ} {s' : PolicyRun κ}
  {pc pc' : Pc} {id : ℕ} {item : Task TaskBody} {w : WorkerThread κ TaskBody} {a : PolicyAction κ}

/-- **The worker thread under the manager.** -/
def workerRun (s : PolicyRun κ) : WorkerRun κ TaskBody where
  dispatcher := s.dispatcher
  worker := workerPc s.item (s.pcs .worker)
  callers := fun k => (s.pcs (.caller k)).cancelPc

/-! ## Who goes where -/

theorem workerRun_goTo_caller {k : κ} :
    (s.goTo (.caller k) pc).workerRun = { s.workerRun with
      callers := update s.workerRun.callers k pc.cancelPc } := by
  have hcallers : (s.goTo (.caller k) pc).workerRun.callers =
      update s.workerRun.callers k pc.cancelPc := by
    funext other
    by_cases hother : other = k
    · subst hother
      rw [update_self]
      exact congrArg Pc.cancelPc goTo_pcs_self
    · rw [update_of_ne hother]
      exact congrArg Pc.cancelPc (goTo_pcs_of_ne fun h => hother (Thread.caller.inj h))
  have hworker : (s.goTo (.caller k) pc).workerRun.worker = s.workerRun.worker :=
    congrArg (workerPc s.item) (goTo_pcs_of_ne nofun)
  dsimp only
  rw [← hcallers, ← hworker]
  rfl

theorem workerRun_goTo_worker :
    (s.goTo .worker pc).workerRun = { s.workerRun with worker := workerPc s.item pc } := by
  have hcallers : (s.goTo .worker pc).workerRun.callers = s.workerRun.callers :=
    funext fun k => congrArg Pc.cancelPc (goTo_pcs_of_ne nofun)
  have hworker : (s.goTo .worker pc).workerRun.worker = workerPc s.item pc :=
    congrArg (workerPc s.item) goTo_pcs_self
  dsimp only
  rw [← hcallers, ← hworker]
  rfl

/-- Nobody moves that the dispatcher could see. -/
theorem workerRun_of_plain (hpc : s.pcs t = pc) (hfrom : pc.plain = true)
    (hto : pc'.plain = true) : (s.goTo t pc').workerRun = s.workerRun := by
  cases t with
  | worker =>
    rw [workerRun_goTo_worker, workerPc_congr hto hfrom, ← hpc]
    rfl
  | caller k =>
    have hidle {pc : Pc} (h : pc.plain = true) : pc.cancelPc = .idle := (of_decide_eq_true h).1
    have hsame : s.workerRun.callers k = .idle := (congrArg Pc.cancelPc hpc).trans (hidle hfrom)
    rw [workerRun_goTo_caller, hidle hto, ← hsame, update_eq_self]

omit [DecidableEq κ] in
theorem Leads.plain (hleads : Leads s pc pc') :
    pc.plain = true ∧ pc'.plain = true := by
  cases hleads with
  | calm hfrom hto => exact ⟨Pc.plain_of_calm hfrom, Pc.plain_of_calm hto⟩
  | refuses hfrom => exact ⟨Pc.plain_of_checks hfrom, rfl⟩
  | _ => exact ⟨rfl, rfl⟩

theorem plain_nextPc (next : AfterCancel) : (nextPc next).plain = true := by
  cases next <;> rfl

/-! ## Where the tasks are -/

/-- **The worker has what it needs at its place.** -/
structure Fits (item : Option (Task TaskBody)) (pc : Pc) : Prop where
  uploading : pc.inUpload = true → ∃ task, item = some task ∧ task.body.isUpload
  taken : pc = .lockExecution ∨ pc = .testItem → item ≠ none
  behind : pc = .unlockExecution → item = none
  worker : pc.cancelPc = .idle

/-- Most places need nothing. -/
theorem Fits.quiet {item : Option (Task TaskBody)}
    (hupload : pc.inUpload = true → ∃ task, item = some task ∧ task.body.isUpload)
    (hloop : pc.inLoop = false) (hcancel : pc.cancelPc = .idle) : Fits item pc where
  uploading := hupload
  taken := by rintro (rfl | rfl) <;> cases hloop
  behind := by
    rintro rfl
    cases hloop
  worker := hcancel

/-- **Every task is at one place**, and the worker has one where it needs
one. -/
structure FiledAs (pcs : Thread κ → Pc) (item : Option (Task TaskBody)) (queued : List ℕ)
    (next : ℕ) : Prop extends Fits item (pcs .worker) where
  distinct : (queued ++ item.toList.map Task.id).Nodup
  fresh : ∀ id ∈ queued ++ item.toList.map Task.id, id < next
  /-- A task somebody waits for in `Cancel` has left the queues. -/
  target : ∀ t id, (pcs t).cancelPc.target = some id → id ∉ queued ∧ id < next

abbrev Filed (s : PolicyRun κ) : Prop := FiledAs s.pcs s.item s.queuedIds s.nextTask

omit [DecidableEq κ] in
theorem Filed.initial (maxPendingReq : ℕ) {timers : ℤ × ℤ} :
    Filed (initial maxPendingReq timers : PolicyRun κ) where
  distinct := nodup_nil
  fresh := fun _ => nofun
  uploading := nofun
  taken := by
    rintro (h | h) <;> cases h
  behind := nofun
  worker := rfl
  target := fun _ _ => nofun

section

variable {queued : List ℕ} (h : Filed s)
include h

/-- A thread goes on. Only the worker may have another task then. -/
theorem Filed.place {item : Option (Task TaskBody)}
    (hids : (queued ++ item.toList.map Task.id).Subperm s.taskIds) (hqueued : queued ⊆ s.queuedIds)
    (hitem : t ≠ .worker → item = s.item) (hworker : t = .worker → Fits item pc)
    (htarget : ∀ id, pc.cancelPc.target = some id → id ∉ s.queuedIds ∧ id < s.nextTask) :
    FiledAs (s.goTo t pc).pcs item queued s.nextTask := by
  have hfits : Fits item ((s.goTo t pc).pcs .worker) := by
    refine goTo_forall (P := fun u pc => u = .worker → Fits item pc) hworker ?_ .worker rfl
    rintro u hut rfl
    exact hitem hut.symm ▸ h.toFits
  obtain ⟨ids, hperm, hsub⟩ := hids
  refine ⟨hfits, hperm.nodup_iff.1 (h.distinct.sublist hsub), fun id hid => ?_, ?_⟩
  · exact h.fresh id (hsub.subset (hperm.symm.subset hid))
  · refine goTo_forall (P := fun _ pc => ∀ id, pc.cancelPc.target = some id →
      id ∉ queued ∧ id < s.nextTask) ?_ fun u _ => ?_
    · exact fun id hto => (htarget id hto).imp_left fun hnot hin => hnot (hqueued hin)
    · exact fun id hto => (h.target u id hto).imp_left fun hnot hin => hnot (hqueued hin)

/-- A thread goes on with the same task in its hands. -/
theorem Filed.goTo (hqueued : queued.Sublist s.queuedIds) (hworker : t = .worker → Fits s.item pc)
    (htarget : ∀ id, pc.cancelPc.target = some id → id ∉ s.queuedIds ∧ id < s.nextTask) :
    FiledAs (s.goTo t pc).pcs s.item queued s.nextTask :=
  h.place (hqueued.append (.refl _)).subperm hqueued.subset (fun _ => rfl) hworker htarget

/-- A thread goes on at places that say nothing about the dispatcher. -/
theorem Filed.plain (hplain : pc.plain = true)
    (hupload : pc.inUpload = true → t = .worker → ∃ item, s.item = some item ∧ item.body.isUpload) :
    Filed (s.goTo t pc) := by
  obtain ⟨hcancel, hloop⟩ := of_decide_eq_true hplain
  refine h.goTo (.refl _) (fun hself => .quiet (fun hto => hupload hto hself) hloop hcancel) ?_
  rw [hcancel]
  exact fun _ => nofun

end

omit [DecidableEq κ] in
/-- What `m_itemInProgress` shows is the task the worker has. -/
theorem item_of_noted (hgrips : s.workerRun.Grips)
    (hnoted : s.dispatcher.itemInProgress = some id) :
    ∃ item, s.item = some item ∧ item.id = id := by
  have hshown : (workerPc s.item (s.pcs .worker)).Noted (some id) := hnoted ▸ hgrips.noted
  cases hitem : s.item with
  | none =>
    rw [hitem] at hshown
    cases hpc : s.pcs .worker <;> rw [hpc] at hshown <;> cases hshown
  | some item =>
    refine ⟨item, rfl, ?_⟩
    rw [hitem] at hshown
    rcases hshown.mem with hin | ⟨item', hexecuting, hid⟩
    · cases hpc : s.pcs .worker <;> rw [hpc] at hin <;>
        first | exact (mem_singleton.1 hin).symm | cases hin
    · cases hpc : s.pcs .worker <;> rw [hpc] at hexecuting <;>
        first | exact WorkerPc.executing.inj hexecuting ▸ hid | cases hexecuting

omit [DecidableEq κ] in
/-- And has left the queues. -/
theorem Filed.not_queued_of_noted (h : Filed s) (hgrips : s.workerRun.Grips)
    (hnoted : s.dispatcher.itemInProgress = some id) : id ∉ s.queuedIds ∧ id < s.nextTask := by
  obtain ⟨item, hitem, rfl⟩ := item_of_noted hgrips hnoted
  have hin : item.id ∈ s.item.toList.map Task.id := by
    rw [hitem]
    exact mem_singleton_self item.id
  exact ⟨fun hqueued => (nodup_append.1 h.distinct).2.2 _ hqueued _ hin rfl,
    h.fresh _ (mem_append_right _ hin)⟩

section

variable (h : Filed s)
include h

omit [DecidableEq κ] in
/-- A task is queued under the next number. -/
theorem Filed.queues {pcs : Thread κ → Pc} (hid : item.id = s.nextTask)
    (hpc : ∀ u, pcs u = s.pcs u ∨ (pcs u).plain = true ∧ (pcs u).inUpload = false) :
    FiledAs pcs s.item (((s.dispatcher.queueItem item).timerQueue ++
      (s.dispatcher.queueItem item).queue).map Task.id) (s.nextTask + 1) := by
  have hqueued := (s.dispatcher.queueItem_perm item).map Task.id
  rw [map_cons, hid] at hqueued
  have hperm := hqueued.append_right (s.item.toList.map Task.id)
  have hfits : Fits s.item (pcs .worker) := by
    rcases hpc .worker with hsame | ⟨hplain, hnot⟩
    · exact hsame ▸ h.toFits
    · obtain ⟨hcancel, hloop⟩ := of_decide_eq_true hplain
      exact .quiet (fun hin => by cases hnot.symm.trans hin) hloop hcancel
  refine ⟨hfits, hperm.nodup_iff.2 (nodup_cons.2 ⟨fun hin => ?_, h.distinct⟩), fun id hin => ?_,
    fun u id => ?_⟩
  · exact lt_irrefl _ (h.fresh _ hin)
  · rcases mem_cons.1 (hperm.subset hin) with rfl | hin
    · exact Nat.lt_succ_self _
    · exact Nat.lt_succ_of_lt (h.fresh id hin)
  · rcases hpc u with hsame | ⟨hplain, -⟩
    · rw [hsame]
      intro hto
      obtain ⟨hnot, hlt⟩ := h.target u id hto
      refine ⟨fun hin => ?_, by omega⟩
      rcases mem_cons.1 (hqueued.subset hin) with heq | hin
      · omega
      · exact hnot hin
    · rw [(of_decide_eq_true hplain).1]
      rintro ⟨⟩

/-- The worker takes a task out of a queue. -/
theorem Filed.takes
    (hitem : s.item = none) (htakes : s.dispatcher.Takes (some item, w)) :
    Filed ({ s with dispatcher := w, item := some item }.goTo .worker .lockExecution) := by
  have hperm : ((w.timerQueue ++ w.queue).map Task.id ++ [item.id]).Perm s.queuedIds := by
    have hsub := htakes.perm.symm.map Task.id
    rw [map_append] at hsub
    exact hsub
  refine h.place ?_ (fun id hid => hperm.subset (mem_append_left _ hid))
    (absurd rfl) (fun _ => ⟨by rintro ⟨⟩, fun _ => Option.some_ne_none item, by rintro ⟨⟩, rfl⟩)
    fun _ => by rintro ⟨⟩
  rw [taskIds, hitem]
  exact (hperm.trans (.of_eq (append_nil _).symm)).subperm

/-- The worker leaves its task. -/
theorem Filed.leaves : FiledAs (s.goTo .worker .unlockExecution).pcs none s.queuedIds s.nextTask := by
  refine h.place ((List.Sublist.refl _).append (nil_sublist _)).subperm (List.Subset.refl _)
    (absurd rfl) (fun _ => ⟨nofun, ?_, fun _ => rfl, rfl⟩) fun _ => nofun
  rintro (hto | hto) <;> cases hto

omit [DecidableEq κ] in
/-- A look for a task that brings none. -/
theorem Filed.looks
    (htakes : s.dispatcher.Takes (none, w)) : Filed { s with dispatcher := w } := by
  have hqueue : w.queue = s.dispatcher.queue := by cases htakes <;> rfl
  have hqueued : ((w.timerQueue ++ w.queue).map Task.id).Perm s.queuedIds := by
    simp only [queuedIds, hqueue, map_append]
    exact htakes.perm_ids.append_right _
  have hids := hqueued.append_right (s.item.toList.map Task.id)
  exact ⟨h.toFits, hids.nodup_iff.2 h.distinct, fun id hin => h.fresh id (hids.subset hin),
    fun u id hto => (h.target u id hto).imp_left fun hnot hin => hnot (hqueued.subset hin)⟩

/-- **Every task stays at one place.** -/
theorem Filed.moves (hplaced : Placed s)
    (hgrips : s.workerRun.Grips) (hmoves : Moves s t s') : Filed s' := by
  have hkept (hin : (s.pcs t).inUpload = true) (ht : t = .worker) :
      ∃ item, s.item = some item ∧ item.body.isUpload := h.uploading (ht ▸ hin)
  have htarget {id : ℕ} (hid : (s.pcs t).cancelPc.target = some id) {id' : ℕ}
      (hid' : some id = some id') : id' ∉ s.queuedIds ∧ id' < s.nextTask :=
    Option.some.inj hid' ▸ h.target t id hid
  have hcaller (hid : (s.pcs t).cancelPc ≠ .idle) : t ≠ .worker := by
    rintro rfl
    exact hid h.worker
  cases hmoves with
  | waits => exact h
  | goes hpc hleads =>
    refine h.plain hleads.plain.2 fun hto => hkept ?_
    rw [hpc]
    exact hleads.inUpload hto
  | locks hpc hlocks hfree =>
    refine h.plain (by cases hlocks <;> rfl) fun hto => hkept ?_
    rw [hpc]
    cases hlocks with
    | upload => rfl
    | _ => cases hto
  | unlocks hpc hunlocks =>
    exact h.plain (by cases hunlocks <;> rfl)
      fun hto => by cases hunlocks <;> cases hto
  | finishes hpc hcalm =>
    exact h.plain (Pc.plain_of_calm hcalm) fun hto =>
      nomatch (Pc.inUpload_of_calm hcalm).symm.trans hto
  | @creates request hpc =>
    refine h.queues (show (s.uploadTask request).id = s.nextTask from rfl) fun u => ?_
    by_cases hut : u = t
    · rw [hut, goTo_pcs_self]
      exact .inr ⟨rfl, rfl⟩
    · exact .inl (goTo_pcs_of_ne hut)
  | clears hpc => exact h.plain rfl fun _ => hkept (by rw [hpc]; rfl)
  | cancelsQueued hpc hhandle hnoted =>
    refine h.goTo ?_ (fun _ => .quiet nofun rfl rfl) fun _ => nofun
    exact (eraseP_sublist.append_right _).map Task.id
  | @meets id next k hpc hhandle hself hnoted =>
    have hgone := h.not_queued_of_noted hgrips hnoted
    refine h.goTo (.refl _) (fun ht => nomatch ht.symm.trans hself) fun id' hid' => ?_
    split_ifs at hid' <;> exact Option.some.inj hid' ▸ hgone
  | timesOut hpc | holds hpc hself | takesBack hpc =>
    exact h.goTo (.refl _) (fun ht => absurd ht (hcaller (by rw [hpc]; exact nofun)))
      fun _ => htarget (by rw [hpc]; rfl)
  | decides hpc => exact h.goTo (.refl _) (fun _ => .quiet nofun rfl rfl) fun _ => nofun
  | @cancelled answer next hpc =>
    exact h.plain (plain_nextPc next) fun hto => by cases next <;> cases hto
  | looks hself hpc hitem htakes => exact h.looks htakes
  | takes hself hpc hitem htakes =>
    subst hself
    exact h.takes hitem htakes
  | ends hself hpc hitem =>
    subst hself
    exact h.leaves
  | locksExecution hpc =>
    have hself := hplaced.eq_worker (t := t) (by rw [hpc]; rfl)
    have hitem := h.taken (.inl (hself ▸ hpc))
    exact h.goTo (.refl _) (fun _ => ⟨nofun, fun _ => hitem, nofun, rfl⟩) fun _ => nofun
  | begins hpc hnoted =>
    rcases hitem : s.item with _ | ⟨id, type, targetTime, latency | _⟩
    · exact h.plain rfl nofun
    · exact h.plain rfl fun _ _ => ⟨_, hitem, rfl⟩
    · exact h.plain rfl nofun
  | skips hpc hnoted =>
    have hself := hplaced.eq_worker (t := t) (by rw [hpc]; rfl)
    subst hself
    exact h.leaves
  | unlocksExecution hpc =>
    exact h.goTo (.refl _) (fun _ => .quiet nofun rfl rfl) fun _ => nofun
  | _ => exact h.plain rfl nofun

theorem Filed.step (hplaced : Placed s)
    (hgrips : s.workerRun.Grips) (hsteps : Steps s a s') : Filed s' := by
  cases hsteps with
  | stays => exact h
  | @calls t c hidle =>
    exact h.plain (by cases c <;> rfl) fun hto => by cases c <;> cases hto
  | goes hmoves => exact h.moves hplaced hgrips hmoves
  | @queues timed targetTime =>
    exact h.queues (show (s.otherTask timed targetTime).id = s.nextTask from rfl) fun _ => .inl rfl
  | profiles | ticks => exact h

end

/-! ## The locks of the dispatcher -/

/-- **What a step that changes something has found free.** -/
structure Guarded (s : PolicyRun κ) (t : Thread κ) (s' : PolicyRun κ) : Prop where
  cancels : ∀ next, s.pcs t = .cancel next → s.scheduledUpload ≠ none → s.dispatcher.lock = none
  holds : ∀ id next next', s.pcs t = .awaits id next → s'.pcs t = .holds id next' →
    s.dispatcher.execution = none
  locks : s.pcs t = .lockExecution → s.dispatcher.execution = none

theorem goOn_guarded (s : PolicyRun κ) (t : Thread κ) (timeout : Bool) :
    s.goOn t timeout (s.pcs t) = s ∨ Guarded s t (s.goOn t timeout (s.pcs t)) := by
  by_cases hsame : s.goOn t timeout (s.pcs t) = s
  · exact .inl hsame
  · refine .inr ⟨fun next hpc hhandle => ?_, fun id next next' hpc hto => ?_, fun hpc => ?_⟩
    · obtain ⟨id, hid⟩ := Option.ne_none_iff_exists'.1 hhandle
      by_contra hlock
      refine hsame ?_
      rw [hpc, goOn, cancel, hid]
      exact if_neg hlock
    · cases t with
      | worker =>
        rw [hpc] at hto
        cases hpc.symm.trans hto
      | caller k =>
        rw [hpc, goOn, awaits] at hto
        split_ifs at hto with htime hfree
        · cases goTo_pcs_self.symm.trans hto
        · exact hfree
        · cases hpc.symm.trans hto
    · by_contra hheld
      refine hsame ?_
      rw [hpc, goOn, if_neg hheld]

/-- **The locks and the places fit together after every step.** -/
theorem grips_moves (h : s.workerRun.Grips) (hplaced : Placed s)
    (hfiled : Filed s) (hguarded : Guarded s t s') (hmoves : Moves s t s') :
    s'.workerRun.Grips := by
  have hkept {s' : PolicyRun κ} {pc pc' : Pc} (hpc : s'.pcs t = pc) (hfrom : pc.plain = true)
      (hto : pc'.plain = true) (hgrips : s'.workerRun.Grips) : (s'.goTo t pc').workerRun.Grips :=
    (workerRun_of_plain hpc hfrom hto).symm ▸ hgrips
  have hcaller (hid : (s.pcs t).cancelPc ≠ .idle) : ∃ k, t = .caller k := by
    cases t with
    | worker => exact absurd hfiled.worker hid
    | caller k => exact ⟨k, rfl⟩
  cases hmoves with
  | waits => exact h
  | goes hpc hleads => exact hkept hpc hleads.plain.1 hleads.plain.2 h
  | locks hpc hlocks hfree =>
    exact hkept hpc (by cases hlocks <;> rfl) (by cases hlocks <;> rfl) h
  | unlocks hpc hunlocks =>
    exact hkept hpc (by cases hunlocks <;> rfl) (by cases hunlocks <;> rfl) h
  | finishes hpc hcalm => exact hkept hpc rfl (Pc.plain_of_calm hcalm) h
  | cancelled hpc => exact hkept hpc rfl (plain_nextPc _) h
  | @creates request hpc =>
    have hqueued := h.queues (s.uploadTask request)
    exact hkept hpc rfl rfl { hqueued with }
  | cancelsQueued hpc hhandle hnoted =>
    exact hkept hpc rfl rfl { h with }
  | @meets id next k hpc hhandle hself hnoted =>
    subst hself
    have hlock := hguarded.cancels next hpc (hhandle ▸ Option.some_ne_none id)
    have hidle : s.workerRun.callers k = .idle := congrArg Pc.cancelPc hpc
    rw [workerRun_goTo_caller]
    split_ifs
    · exact h.meets hidle hlock nofun not_false
    · exact h.meets hidle hlock nofun not_false
  | @timesOut id next hpc =>
    obtain ⟨k, rfl⟩ := hcaller (by rw [hpc]; exact nofun)
    rw [workerRun_goTo_caller]
    exact h.timesOut (congrArg Pc.cancelPc hpc)
  | @holds id next k hpc hself =>
    subst hself
    rw [workerRun_goTo_caller]
    exact h.holds (congrArg Pc.cancelPc hpc) (hguarded.holds id next next hpc goTo_pcs_self)
  | @takesBack id next hpc =>
    obtain ⟨k, rfl⟩ := hcaller (by rw [hpc]; exact nofun)
    rw [workerRun_goTo_caller]
    exact h.clears (congrArg Pc.cancelPc hpc)
  | @decides id next hpc =>
    obtain ⟨k, rfl⟩ := hcaller (by rw [hpc]; exact nofun)
    rw [workerRun_goTo_caller]
    exact h.decides (congrArg Pc.cancelPc hpc)
  | looks hself hpc hitem htakes =>
    cases htakes with
    | nothing => exact h
    | forward htimers htarget => exact { h with }
  | @takes item w hself hpc hitem htakes =>
    subst hself
    have hidle : s.workerRun.worker = .idle := congrArg₂ workerPc hitem hpc
    rw [workerRun_goTo_worker]
    refine h.worker ?_ ?_ (.inl ?_) (by rw [hidle]; exact Iff.rfl) <;> cases htakes <;> rfl
  | @ends item hself hpc hitem =>
    subst hself
    have hexecuting : s.workerRun.worker = .executing item := congrArg₂ workerPc hitem hpc
    rw [workerRun_goTo_worker]
    exact h.worker rfl rfl rfl (by rw [hexecuting]; exact Iff.rfl)
  | locksExecution hpc =>
    obtain rfl := hplaced.eq_worker (t := t) (by rw [hpc]; rfl)
    obtain ⟨item, hitem⟩ := Option.ne_none_iff_exists'.1 (hfiled.taken (.inl hpc))
    rw [workerRun_goTo_worker]
    dsimp only
    rw [hitem]
    exact h.locks (congrArg₂ workerPc hitem hpc) (hguarded.locks hpc)
  | begins hpc hnoted =>
    obtain rfl := hplaced.eq_worker (t := t) (by rw [hpc]; rfl)
    obtain ⟨item, hitem⟩ := Option.ne_none_iff_exists'.1 (hfiled.taken (.inr hpc))
    have hlocked : s.workerRun.worker = .locked item := congrArg₂ workerPc hitem hpc
    have hshown := h.noted
    rw [hlocked] at hshown
    have hexecuting : workerPc s.item (bodyPc s.item) = .executing item := by
      rw [hitem]
      unfold bodyPc
      split <;> rfl
    rw [workerRun_goTo_worker]
    dsimp only
    rw [hexecuting]
    exact h.worker rfl rfl (hshown.resolve_right hnoted) (by rw [hlocked]; exact Iff.rfl)
  | skips hpc hnoted =>
    obtain rfl := hplaced.eq_worker (t := t) (by rw [hpc]; rfl)
    obtain ⟨item, hitem⟩ := Option.ne_none_iff_exists'.1 (hfiled.taken (.inr hpc))
    have hlocked : s.workerRun.worker = .locked item := congrArg₂ workerPc hitem hpc
    rw [workerRun_goTo_worker]
    exact h.worker rfl rfl hnoted (by rw [hlocked]; exact Iff.rfl)
  | unlocksExecution hpc =>
    obtain rfl := hplaced.eq_worker (t := t) (by rw [hpc]; rfl)
    have hitem := hfiled.behind hpc
    rw [workerRun_goTo_worker]
    dsimp only
    rw [hitem]
    exact h.unlocks (congrArg₂ workerPc hitem hpc)
  | cancelsItself hpc hhandle hself hnoted => exact hkept hpc rfl rfl h
  | _ hpc => exact hkept hpc rfl rfl h

theorem grips_step (h : s.workerRun.Grips) (hplaced : Placed s)
    (hfiled : Filed s) : (s.step a).workerRun.Grips := by
  cases a with
  | call t c =>
    simp only [step]
    split_ifs with hcan
    · have hidle : s.pcs t = .idle := (of_decide_eq_true hcan).1
      rw [workerRun_of_plain hidle rfl (by cases c <;> rfl)]
      exact h
    · exact h
  | go t timeout =>
    rcases s.goOn_guarded t timeout with hsame | hguarded
    · exact (show s.step (.go t timeout) = s from hsame).symm ▸ h
    · exact grips_moves h hplaced hfiled hguarded (s.goOn_moves t timeout)
  | queueOther timed targetTime =>
    simp only [step]
    split_ifs
    · have hqueued := h.queues (s.otherTask timed targetTime)
      exact { hqueued with }
    · exact h
  | profiles p | tick => exact h

/-! ## All of it -/

/-- What every run keeps, whatever overlaps. -/
structure Ordered (s : PolicyRun κ) : Prop where
  placed : Placed s
  owned : Owned s
  filed : Filed s
  grips : s.workerRun.Grips

omit [DecidableEq κ] in
theorem Ordered.initial (maxPendingReq : ℕ) {timers : ℤ × ℤ} :
    Ordered (initial maxPendingReq timers : PolicyRun κ) :=
  ⟨.initial maxPendingReq, ⟨fun _ => nofun, fun _ => nofun⟩, .initial maxPendingReq, .initial⟩

theorem Ordered.step (h : Ordered s) (a : PolicyAction κ) : Ordered (s.step a) where
  placed := h.placed.step (s.step_steps a)
  owned := h.owned.step (s.step_steps a)
  filed := h.filed.step h.placed h.grips (s.step_steps a)
  grips := grips_step h.grips h.placed h.filed

/-- **Every run keeps it**, whatever the threads do and in which order. -/
theorem ordered_run (maxPendingReq : ℕ) {timers : ℤ × ℤ} (as : List (PolicyAction κ)) :
    Ordered (run step (initial maxPendingReq timers) as) :=
  run_preserves (fun _ a h => h.step a) (.initial maxPendingReq) as

/-- Until the manager is aborted `m_itemInProgress` shows the task the
worker has: nobody waits in `Cancel` to take it back. -/
theorem noted_moves (h : s.dispatcher.itemInProgress = s.item.map Task.id) (hwaiting : Waiting s)
    (hrun : s.scheduledUploadAborted = false) (hmoves : Moves s t s') :
    s'.dispatcher.itemInProgress = s'.item.map Task.id := by
  cases hmoves with
  | creates hpc => exact (s.dispatcher.queueItem_itemInProgress _).trans h
  | takesBack hpc => cases hrun.symm.trans (hwaiting t (by rw [hpc]; rfl))
  | looks hself hpc hitem htakes => cases htakes <;> exact h
  | takes hself hpc hitem htakes => cases htakes <;> rfl
  | ends => rfl
  | skips hpc hnoted => exact hnoted
  | _ => exact h

theorem Tracked.step (h : Tracked s) (hfiled : Filed s')
    (hwaiting : Waiting s) (hrun : s.scheduledUploadAborted = false) (hsteps : Steps s a s') :
    Tracked s' := by
  refine ⟨?_, hfiled.distinct, hfiled.fresh, hfiled.uploading⟩
  cases hsteps with
  | goes hmoves => exact noted_moves h.noted hwaiting hrun hmoves
  | queues => exact (s.dispatcher.queueItem_itemInProgress _).trans h.noted
  | _ => exact h.noted

end PolicyRun

end ClientTelemetry
