import ClientTelemetry.Tpm.Helpers.Slot
import ClientTelemetry.Tpm.Model.SchedulingCapi
/-!
# The scheduled upload on a host's dispatcher

The slot of the manager on `TaskDispatcher_CAPI`: what stands behind the
flag are the upload tasks in the table and those that have been called back
and have not cleared the flag. `Cancel` takes the task of the handle out of
the table; if the host's cancel function answers false, the flag stays
although nothing stands behind it, which `CapiPolicyRun.HostCancels`
excludes.
-/

namespace ClientTelemetry

open Function List

/-- In `uploadAsync`, before the flag is cleared. -/
def Pc.serving : Pc → Bool
  | .beginUpload _ | .lockUpload | .clearScheduled => true
  | _ => false

/-- `Cancel` is next. -/
def Pc.cancels : Pc → Bool
  | .cancel _ => true
  | _ => false

/-- A place from which a thread goes on whatever the dispatcher. -/
def Pc.hosted : Pc → Bool
  | .createTask _ | .cancel _ | .clearScheduled | .awaits _ _ | .holds _ _ | .decides _ _
  | .lockExecution | .testItem | .unlockExecution => false
  | _ => true

theorem Pc.serving_of_calm {pc : Pc} (h : pc.calm) : pc.serving = false := by
  cases pc <;> first | rfl | cases h

theorem Pc.serving_of_checks {pc : Pc} (h : pc.checks) : pc.serving = false := by
  cases pc <;> first | rfl | cases h

namespace PolicyRun

theorem Leads.serving {κ : Type*} {s : PolicyRun κ} {pc pc' : Pc} (hleads : Leads s pc pc') :
    pc'.serving = pc.serving := by
  cases hleads with
  | calm hfrom hto => rw [Pc.serving_of_calm hfrom, Pc.serving_of_calm hto]
  | refuses hfrom => exact (Pc.serving_of_checks hfrom).symm
  | _ => rfl

end PolicyRun

/-! ## The table -/

/-- What is found and removed was there. -/
theorem perm_of_find? {α : Type*} {p : α → Bool} {l : List α} {a : α} (h : l.find? p = some a) :
    l.Perm (a :: l.eraseP p) := by
  induction l with
  | nil => cases h
  | cons b l ih =>
    by_cases hb : p b = true
    · rw [find?_cons_of_pos hb] at h
      rw [eraseP_cons_of_pos hb, Option.some.inj h]
    · rw [find?_cons_of_neg hb] at h
      rw [eraseP_cons_of_neg hb]
      exact ((ih h).cons b).trans (.swap a b _)

namespace CapiDispatcher

variable {β : Type*} (d : CapiDispatcher β) {taskId id : ℕ}

/-- The tasks in the table. -/
def tasks : List (Task β) := d.pending.map Prod.snd

theorem tasks_queueItem {item : Task β} (htype : item.type ≠ .shutdown) :
    (d.queueItem item).tasks = d.tasks ++ [item] := by
  rw [queueItem, if_neg htype, tasks, map_append]
  rfl

theorem tasks_callback {task : Task β} (h : (d.callback taskId).1 = some task) :
    d.tasks.Perm (task :: (d.callback taskId).2.tasks) := by
  obtain ⟨e, he, rfl⟩ := Option.map_eq_some_iff.1 h
  exact (perm_of_find? he).map Prod.snd

theorem tasks_callback_none (h : (d.callback taskId).1 = none) :
    (d.callback taskId).2 = d := by
  have hnone := find?_eq_none.1 (Option.map_eq_none_iff.1 h)
  rw [callback, eraseP_of_forall_not hnone]

theorem tasks_cancel (id : ℕ) :
    (d.cancel id).2.tasks = d.tasks.eraseP fun item => item.id = id := by
  rw [tasks, tasks, eraseP_map]
  rfl

/-- If there is no such task the table stays, and the answer is false. -/
theorem cancel_of_not_mem (h : ∀ e ∈ d.pending, e.2.id ≠ id) (host : Bool) :
    (d.cancel id).2 = d ∧ d.cancelAnswer id host = false := by
  have hnot : ∀ e ∈ d.pending, ¬ decide (e.2.id = id) = true := fun e he => by simpa using h e he
  constructor
  · rw [cancel, eraseP_of_forall_not hnot]
  · rw [cancelAnswer, cancel, find?_eq_none.2 hnot]
    rfl

/-- If there is one the host answers. -/
theorem cancelAnswer_of_mem (h : ∃ e ∈ d.pending, e.2.id = id) (host : Bool) :
    d.cancelAnswer id host = host := by
  obtain ⟨e, he, hid⟩ := h
  have hsome : (d.pending.find? fun e => e.2.id = id).isSome := by
    rw [find?_isSome]
    exact ⟨e, he, decide_eq_true hid⟩
  obtain ⟨found, hfound⟩ := Option.isSome_iff_exists.1 hsome
  rw [cancelAnswer, cancel, hfound]
  rfl

end CapiDispatcher

namespace CapiPolicyRun

variable {κ : Type*} [DecidableEq κ] {s s' : CapiPolicyRun κ} {k : κ} {m : PolicyRun κ}
  {d : CapiDispatcher TaskBody} {b : List (κ × ℕ)} {pc : Pc} {host : Bool} {next : AfterCancel}

/-- The upload tasks in the table. -/
def pending (s : CapiPolicyRun κ) : List (Task TaskBody) :=
  s.dispatcher.tasks.filter fun task => task.body.isUpload

/-- **The slot of the scheduled upload.** -/
def slot (s : CapiPolicyRun κ) : Slot κ ℕ where
  flag := s.manager.isUploadScheduled
  standing := ↑(s.pending.map Task.id ++ s.begun.map Prod.snd)
  handle := s.manager.scheduledUpload
  role := fun k => (s.manager.pcs (.caller k)).role none

/-- **No cancellation without the mutex overlaps the filling of the
slot.** -/
def CancelsApart (s : CapiPolicyRun κ) : CapiPolicyAction κ → Prop
  | .go k _ => s.manager.CancelsApart (.go (.caller k) false)
  | _ => True

/-- **The host cancels what it is asked to cancel.** -/
def HostCancels (s : CapiPolicyRun κ) : CapiPolicyAction κ → Prop
  | .go k host => (s.manager.pcs (.caller k)).cancels = true →
    ∀ id ∈ s.manager.scheduledUpload, (∃ e ∈ s.dispatcher.pending, e.2.id = id) → host = true
  | _ => True

/-- **Every task is at one place**, and the threads in `uploadAsync` have
theirs. -/
structure Enrolled (s : CapiPolicyRun κ) : Prop where
  distinct : (s.dispatcher.tasks.map Task.id ++ s.begun.map Prod.snd).Nodup
  fresh : ∀ id ∈ s.dispatcher.tasks.map Task.id ++ s.begun.map Prod.snd, id < s.manager.nextTask
  serving : ∀ k, (s.manager.pcs (.caller k)).serving = true ↔ ∃ id, (k, id) ∈ s.begun

/-! ## What a thread does -/

omit [DecidableEq κ] in
theorem not_fills (h : ∀ u, (s.manager.pcs u).filling = false) (k : κ) : ¬ s.slot.Fills k :=
  fun hfills => nomatch (h (.caller k)).symm.trans (Pc.filling_of_role hfills)

/-- One thread goes to another place. -/
theorem turn_goTo {before after : Role ℕ}
    (hbefore : (s.manager.pcs (.caller k)).role none = before) (hafter : pc.role none = after) :
    Slot.Turn s.slot.role
      (fun other => ((s.manager.goTo (.caller k) pc).pcs (.caller other)).role none) k before
      after := by
  have hturn := PolicyRun.turn_goTo hbefore hafter
  exact ⟨hturn.was, hturn.now, fun other hother => hturn.others _ fun h => hother (Thread.caller.inj h)⟩

/-- A step that has no part in it. -/
theorem slot_stays {pc' : Pc} (hpc : s.manager.pcs (.caller k) = pc)
    (hstanding : (slot ⟨s.manager.goTo (.caller k) pc', d, b⟩).standing = s.slot.standing)
    (hrole : pc'.role none = pc.role none) :
    Slot.Step s.slot (slot ⟨s.manager.goTo (.caller k) pc', d, b⟩) := by
  subst hpc
  have hturn := turn_goTo (s := s) (k := k) rfl hrole
  refine .stays rfl hstanding rfl fun other => ?_
  by_cases hother : other = k
  · subst hother
    exact hturn.now
  · exact hturn.others other hother

/-- **A step of the manager alone is a step of the slot.** -/
theorem slot_moves (howned : s.manager.Owned)
    (hok : CancelsApart s (.go k host)) (hplace : (s.manager.pcs (.caller k)).hosted = true)
    (hmoves : s.manager.Moves (.caller k) m) : Slot.Step s.slot (slot { s with manager := m }) := by
  have hexcluded {pc : Pc} (hpc : s.manager.pcs (.caller k) = pc) (hnot : pc.hosted = false) :
      Slot.Step s.slot (slot { s with manager := m }) := by
    rw [hpc, hnot] at hplace
    cases hplace
  cases hmoves with
  | waits => exact .stays rfl rfl rfl fun _ => rfl
  | goes hpc hleads => exact slot_stays hpc rfl (hleads.role none)
  | locks hpc hlocks hfree => exact slot_stays hpc rfl (by cases hlocks <;> rfl)
  | unlocks hpc hunlocks => exact slot_stays hpc rfl (by cases hunlocks <;> rfl)
  | finishes hpc hcalm => exact slot_stays hpc rfl (Pc.role_of_calm hcalm none)
  | exchanges hpc hflag =>
    refine .claims (turn_goTo (by rw [hpc]; rfl) rfl) hflag rfl rfl fun other hother => ?_
    have hok : s.manager.CancelsApart (.go (.caller k) false) := hok
    exact hok.apart howned hpc hflag none (.caller other) fun h => hother (Thread.caller.inj h)
  | assigns hpc => exact .stores (turn_goTo (by rw [hpc]; rfl) rfl) rfl rfl rfl
  | @cancelled answer next hpc =>
    have hrole := PolicyRun.role_nextPc next none
    cases answer with
    | true => exact .clears (turn_goTo (by rw [hpc]; rfl) hrole) rfl rfl rfl
    | false => exact slot_stays hpc rfl hrole
  | resumes hpc | pauses hpc | aborts hpc | opens hpc | initiates hpc =>
    exact slot_stays hpc rfl rfl
  | looks hself | takes hself | ends hself => cases hself
  | _ hpc => exact hexcluded hpc rfl

/-- `uploadAsync` clears the flag on the thread that runs it. -/
theorem slot_clears (howned : s.manager.Owned) (hs : Enrolled s) (hsound : s.slot.Sound)
    (hpc : s.manager.pcs (.caller k) = .clearScheduled) :
    Slot.Step s.slot (slot ⟨{ s.manager with isUploadScheduled := false }.goTo (.caller k) .testUpload,
      s.dispatcher, s.begun.filter fun e => e.1 ≠ k⟩) := by
  obtain ⟨id, hid⟩ := (hs.serving k).1 (by rw [hpc]; rfl)
  have hbegun : s.begun = [(k, id)] := by
    have hcard : (s.pending.map Task.id ++ s.begun.map Prod.snd).length ≤ 1 := hsound.card_standing_le
    simp only [length_append, length_map] at hcard
    have hpos := length_pos_of_mem hid
    obtain ⟨e, he⟩ := length_eq_one_iff.1 (show s.begun.length = 1 by omega)
    rw [he] at hid ⊢
    rw [mem_singleton.1 hid]
  have hstanding : s.slot.standing = id ::ₘ ((s.pending.map Task.id ++
      (s.begun.filter fun e => e.1 ≠ k).map Prod.snd : List ℕ) : Multiset ℕ) := by
    change ((s.pending.map Task.id ++ s.begun.map Prod.snd : List ℕ) : Multiset ℕ) = _
    rw [hbegun, Multiset.cons_coe, Multiset.coe_eq_coe]
    simp
  refine .serves rfl hstanding rfl (fun other => ?_) (not_fills (howned.not_filling
    (t := .caller k) (by rw [hpc]; rfl) (by rw [hpc]; rfl)))
  exact PolicyRun.goTo_forall (P := fun u pc => pc.role none = (s.manager.pcs u).role none)
    (by rw [hpc]; rfl) (fun _ _ => rfl) (.caller other)

omit [DecidableEq κ] in
/-- What stands is counted in the table and among the threads. -/
theorem standing_eq (m : PolicyRun κ) (d : CapiDispatcher TaskBody) (b : List (κ × ℕ)) :
    (slot ⟨m, d, b⟩).standing =
      ↑((d.tasks.filter fun task => task.body.isUpload).map Task.id ++ b.map Prod.snd) := rfl

/-- The task enters the table. -/
theorem slot_creates {request : UploadRequest}
    (hpc : s.manager.pcs (.caller k) = .createTask request) :
    Slot.Step s.slot (slot ⟨{ s.manager with nextTask := s.manager.nextTask + 1 }.goTo (.caller k)
      (.assign s.manager.nextTask request s.manager.now),
      s.dispatcher.queueItem (s.manager.uploadTask request), s.begun⟩) := by
  refine .makes (turn_goTo (by rw [hpc]; rfl) rfl) rfl ?_
  have htasks : (s.dispatcher.queueItem (s.manager.uploadTask request)).tasks =
      s.dispatcher.tasks ++ [s.manager.uploadTask request] := s.dispatcher.tasks_queueItem nofun
  have hnew : ((s.dispatcher.tasks ++ [s.manager.uploadTask request]).filter
      fun task => task.body.isUpload).map Task.id = s.pending.map Task.id ++ [s.manager.nextTask] := by
    rw [filter_append, map_append]
    rfl
  rw [standing_eq, htasks, hnew]
  refine Multiset.coe_eq_coe.2 ?_
  exact (perm_append_singleton _ _).append_right _

omit [DecidableEq κ] in
/-- A task taken out of the table is nowhere else. -/
theorem Enrolled.gone_of_mem (hs : Enrolled s) {id : ℕ}
    (hfound : ∃ e ∈ s.dispatcher.pending, e.2.id = id) :
    id ∉ ((s.dispatcher.tasks.eraseP fun item => item.id = id).filter
      fun task => task.body.isUpload).map Task.id ∧ id ∉ s.begun.map Prod.snd := by
  obtain ⟨htable, -, hdisjoint⟩ := nodup_append.1 hs.distinct
  constructor
  · intro hin
    refine htable.not_mem_erase (a := id) ?_
    rw [← map_id_eraseP]
    exact ((filter_sublist (p := fun task => task.body.isUpload)).map Task.id).subset hin
  · intro hin
    obtain ⟨e, he, rfl⟩ := hfound
    exact hdisjoint _ (mem_map_of_mem (mem_map_of_mem he)) _ hin rfl

/-- `Cancel` takes the task of the handle out of the table, and the host
cancels it. -/
theorem slot_cancels (howned : s.manager.Owned) (hs : Enrolled s)
    (hok : CancelsApart s (.go k host)) (hhost : HostCancels s (.go k host))
    (hpc : s.manager.pcs (.caller k) = .cancel next) :
    Slot.Step s.slot (s.cancel k next host).slot := by
  have hok : s.manager.CancelsApart (.go (.caller k) false) := hok
  have hfree := not_fills (hok.not_filling howned hpc)
  rw [cancel]
  split
  next hhandle =>
    exact .withdraws (turn_goTo (by rw [hpc]; rfl) rfl) le_rfl rfl
      (fun id hid => nomatch hhandle.symm.trans hid) hfree
  next id hhandle =>
    by_cases hfound : ∃ e ∈ s.dispatcher.pending, e.2.id = id
    · obtain rfl := hhost (by rw [hpc]; rfl) id hhandle hfound
      rw [s.dispatcher.cancelAnswer_of_mem hfound]
      refine .withdraws (turn_goTo (by rw [hpc]; rfl) rfl) ?_ rfl (fun id' hid' => ?_) hfree
      · rw [standing_eq, s.dispatcher.tasks_cancel]
        refine Multiset.coe_le.2 (List.Sublist.subperm ?_)
        exact ((eraseP_sublist.filter _).map Task.id).append (.refl _)
      · obtain rfl := Option.some.inj (hhandle.symm.trans hid')
        rw [standing_eq, s.dispatcher.tasks_cancel, Multiset.mem_coe, mem_append, not_or]
        exact hs.gone_of_mem hfound
    · have hnot : ∀ e ∈ s.dispatcher.pending, e.2.id ≠ id := fun e he hid => hfound ⟨e, he, hid⟩
      obtain ⟨hsame, hanswer⟩ := s.dispatcher.cancel_of_not_mem hnot host
      rw [hsame, hanswer]
      exact slot_stays hpc rfl rfl

/-- **What a call back can do.** -/
inductive CallsBack (s : CapiPolicyRun κ) (k : κ) : CapiPolicyRun κ → Prop
  | nothing : CallsBack s k s
  | begins {task d} (htasks : s.dispatcher.tasks.Perm (task :: d.tasks)) : CallsBack s k { s with
      manager := s.manager.goTo (.caller k) (PolicyRun.bodyPc (some task))
      dispatcher := d
      begun := if task.body.isUpload then (k, task.id) :: s.begun else s.begun }

theorem callback_callsBack (s : CapiPolicyRun κ) (k : κ) (taskId : ℕ) :
    CallsBack s k (s.callback k taskId) := by
  rw [callback]
  split
  next d hcallback =>
    have hsame := s.dispatcher.tasks_callback_none (congrArg Prod.fst hcallback)
    rw [← show (s.dispatcher.callback taskId).2 = d from congrArg Prod.snd hcallback, hsame]
    exact .nothing
  next task d hcallback =>
    have hperm := s.dispatcher.tasks_callback (congrArg Prod.fst hcallback)
    rw [show (s.dispatcher.callback taskId).2 = d from congrArg Prod.snd hcallback] at hperm
    exact .begins hperm

/-- The host calls a task back. -/
theorem slot_callback (hidle : s.manager.pcs (.caller k) = .idle) (hcalls : CallsBack s k s') :
    Slot.Step s.slot s'.slot := by
  cases hcalls with
  | nothing => exact .stays rfl rfl rfl fun _ => rfl
  | @begins task d hperm =>
    refine slot_stays hidle ?_ ?_
    · have huploads := (hperm.filter fun task => task.body.isUpload).map Task.id
      rw [standing_eq]
      refine Multiset.coe_eq_coe.2 (.trans ?_ (huploads.symm.append_right _))
      by_cases hupload : task.body.isUpload = true
      · rw [if_pos hupload, filter_cons, if_pos hupload]
        exact perm_middle
      · rw [if_neg hupload, filter_cons, if_neg hupload]
    · unfold PolicyRun.bodyPc
      split <;> rfl

/-! ## Where the tasks are -/

omit [DecidableEq κ] in
theorem Enrolled.initial (maxPendingReq : ℕ) {timers : ℤ × ℤ} :
    Enrolled (initial maxPendingReq timers : CapiPolicyRun κ) :=
  ⟨nodup_nil, fun _ => nofun, fun _ => iff_of_false nofun fun ⟨_, h⟩ => nomatch h⟩

omit [DecidableEq κ] in
/-- The manager goes on and the tasks stay. -/
theorem Enrolled.manager (hs : Enrolled s) (hnext : m.nextTask = s.manager.nextTask)
    (hserving : ∀ k, (m.pcs (.caller k)).serving = (s.manager.pcs (.caller k)).serving) :
    Enrolled { s with manager := m } where
  distinct := hs.distinct
  fresh := hnext ▸ hs.fresh
  serving := fun k => by
    rw [hserving k]
    exact hs.serving k

/-- One thread goes to another place. -/
theorem serving_goTo (hpc : pc.serving = (s.manager.pcs (.caller k)).serving) (other : κ) :
    ((s.manager.goTo (.caller k) pc).pcs (.caller other)).serving =
      (s.manager.pcs (.caller other)).serving :=
  PolicyRun.goTo_forall (P := fun u pc => pc.serving = (s.manager.pcs u).serving) hpc
    (fun _ _ => rfl) (.caller other)

section

variable (hs : Enrolled s)
include hs

theorem Enrolled.moves (hplace : (s.manager.pcs (.caller k)).hosted = true)
    (hmoves : s.manager.Moves (.caller k) m) : Enrolled { s with manager := m } := by
  have hexcluded {pc : Pc} (hpc : s.manager.pcs (.caller k) = pc) (hnot : pc.hosted = false) :
      Enrolled { s with manager := m } := by
    rw [hpc, hnot] at hplace
    cases hplace
  cases hmoves with
  | waits => exact hs
  | goes hpc hleads => exact hs.manager rfl (serving_goTo (by rw [hpc, hleads.serving]))
  | locks hpc hlocks hfree =>
    exact hs.manager rfl (serving_goTo (by rw [hpc]; cases hlocks <;> rfl))
  | unlocks hpc hunlocks =>
    exact hs.manager rfl (serving_goTo (by rw [hpc]; cases hunlocks <;> rfl))
  | finishes hpc hcalm =>
    exact hs.manager rfl (serving_goTo (by rw [hpc, Pc.serving_of_calm hcalm]; rfl))
  | @cancelled answer next hpc =>
    exact hs.manager rfl (serving_goTo (by rw [hpc]; cases next <;> rfl))
  | exchanges hpc hflag | assigns hpc | resumes hpc | pauses hpc | aborts hpc | opens hpc
  | initiates hpc => exact hs.manager rfl (serving_goTo (by rw [hpc]; rfl))
  | looks hself | takes hself | ends hself => cases hself
  | _ hpc => exact hexcluded hpc rfl

omit [DecidableEq κ] in
/-- A task enters the table under the next number. -/
theorem Enrolled.queues {item : Task TaskBody}
    (hid : item.id = s.manager.nextTask) (htype : item.type ≠ .shutdown)
    (hnext : m.nextTask = s.manager.nextTask + 1)
    (hserving : ∀ k, (m.pcs (.caller k)).serving = (s.manager.pcs (.caller k)).serving) :
    Enrolled ⟨m, s.dispatcher.queueItem item, s.begun⟩ := by
  have hperm : ((s.dispatcher.queueItem item).tasks.map Task.id ++ s.begun.map Prod.snd).Perm
      (s.manager.nextTask :: (s.dispatcher.tasks.map Task.id ++ s.begun.map Prod.snd)) := by
    rw [s.dispatcher.tasks_queueItem htype, map_append, ← hid]
    exact (perm_append_singleton _ _).append_right _
  refine ⟨hperm.nodup_iff.2 (nodup_cons.2 ⟨fun hin => ?_, hs.distinct⟩), fun id hin => ?_,
    fun k => ?_⟩
  · exact lt_irrefl _ (hs.fresh _ hin)
  · change id < m.nextTask
    rcases mem_cons.1 (hperm.subset hin) with rfl | hin
    · omega
    · have hlt := hs.fresh id hin
      omega
  · rw [hserving k]
    exact hs.serving k

theorem Enrolled.cancels
    (hpc : s.manager.pcs (.caller k) = .cancel next) : Enrolled (s.cancel k next host) := by
  rw [cancel]
  split
  next hhandle => exact hs.manager rfl (serving_goTo (by rw [hpc]; rfl))
  next id hhandle =>
    have hids : ((s.dispatcher.cancel id).2.tasks.map Task.id ++ s.begun.map Prod.snd).Sublist
        (s.dispatcher.tasks.map Task.id ++ s.begun.map Prod.snd) := by
      rw [s.dispatcher.tasks_cancel]
      exact (eraseP_sublist.map Task.id).append (.refl _)
    refine ⟨hs.distinct.sublist hids, fun id' hin => hs.fresh id' (hids.subset hin), fun other => ?_⟩
    rw [serving_goTo (by rw [hpc]; rfl)]
    exact hs.serving other

theorem Enrolled.clears :
    Enrolled ⟨{ s.manager with isUploadScheduled := false }.goTo (.caller k) .testUpload,
      s.dispatcher, s.begun.filter fun e => e.1 ≠ k⟩ := by
  have hids : (s.dispatcher.tasks.map Task.id ++
      (s.begun.filter fun e => e.1 ≠ k).map Prod.snd).Sublist
        (s.dispatcher.tasks.map Task.id ++ s.begun.map Prod.snd) :=
    (List.Sublist.refl _).append (filter_sublist.map Prod.snd)
  refine ⟨hs.distinct.sublist hids, fun id hin => ?_, fun other => ?_⟩
  · exact hs.fresh id (hids.subset hin)
  · by_cases hother : other = k
    · rw [hother, PolicyRun.goTo_pcs_self]
      refine iff_of_false nofun fun ⟨id, hin⟩ => ?_
      exact of_decide_eq_true (List.mem_filter.1 hin).2 rfl
    · rw [PolicyRun.goTo_pcs_of_ne fun h => hother (Thread.caller.inj h), hs.serving other]
      refine exists_congr fun id => ?_
      rw [List.mem_filter]
      exact (and_iff_left (decide_eq_true hother)).symm

theorem Enrolled.callback (hidle : s.manager.pcs (.caller k) = .idle)
    (hcalls : CallsBack s k s') : Enrolled s' := by
  cases hcalls with
  | nothing => exact hs
  | @begins task d hperm =>
    have hids : (s.dispatcher.tasks.map Task.id ++ s.begun.map Prod.snd).Perm
        (task.id :: (d.tasks.map Task.id ++ s.begun.map Prod.snd)) :=
      (hperm.map Task.id).append_right _
    obtain ⟨id, type, targetTime, latency | _⟩ := task
    · have hids' : (d.tasks.map Task.id ++ ((k, id) :: s.begun).map Prod.snd).Perm
          (s.dispatcher.tasks.map Task.id ++ s.begun.map Prod.snd) :=
        perm_middle.trans hids.symm
      refine ⟨hids'.nodup_iff.2 hs.distinct, fun id' hin => hs.fresh id' (hids'.subset hin),
        fun other => ?_⟩
      by_cases hother : other = k
      · rw [hother, PolicyRun.goTo_pcs_self]
        exact iff_of_true rfl ⟨id, mem_cons_self⟩
      · rw [PolicyRun.goTo_pcs_of_ne fun h => hother (Thread.caller.inj h), hs.serving other]
        refine exists_congr fun id' => ?_
        rw [show (if TaskBody.isUpload (.uploadAsync latency) = true then (k, id) :: s.begun
          else s.begun) = (k, id) :: s.begun from rfl, mem_cons]
        exact (or_iff_right fun h => hother (congrArg Prod.fst h)).symm
    · have hids' : (d.tasks.map Task.id ++ s.begun.map Prod.snd).Sublist
          (id :: (d.tasks.map Task.id ++ s.begun.map Prod.snd)) := sublist_cons_self _ _
      refine ⟨(hids.nodup_iff.1 hs.distinct).sublist hids', fun id' hin => ?_, fun other => ?_⟩
      · exact hs.fresh id' (hids.symm.subset (hids'.subset hin))
      · rw [serving_goTo (by rw [hidle]; rfl)]
        exact hs.serving other

end

/-! ## Every step -/

theorem goOn_of_hosted (h : pc.hosted = true) :
    s.goOn k host pc = { s with manager := s.manager.goOn (.caller k) false pc } := by
  cases pc <;> first | rfl | cases h

/-- **What every run keeps in which cancellations are apart and the host
cancels.** -/
structure Truthful (s : CapiPolicyRun κ) : Prop where
  owned : s.manager.Owned
  enrolled : Enrolled s
  sound : s.slot.Sound

omit [DecidableEq κ] in
theorem Truthful.initial (maxPendingReq : ℕ) {timers : ℤ × ℤ} :
    Truthful (initial maxPendingReq timers : CapiPolicyRun κ) where
  owned := ⟨fun _ => nofun, fun _ => nofun⟩
  enrolled := .initial maxPendingReq
  sound := .empty rfl (fun _ => .inl (.inl rfl)) nofun

theorem Truthful.go (h : Truthful s) (hok : CancelsApart s (.go k host))
    (hhost : HostCancels s (.go k host)) : Truthful (s.step (.go k host)) := by
  obtain ⟨howned, henrolled, hsound⟩ := h
  rw [step]
  by_cases hplace : (s.manager.pcs (.caller k)).hosted = true
  · have hmoves := s.manager.goOn_moves (.caller k) false
    rw [goOn_of_hosted hplace]
    exact ⟨howned.moves hmoves, henrolled.moves hplace hmoves,
      hsound.step (slot_moves howned hok hplace hmoves)⟩
  · cases hpc : s.manager.pcs (.caller k) with
    | createTask request =>
      refine ⟨howned.stays hpc (fun _ => rfl) fun _ => rfl, ?_,
        hsound.step (slot_creates hpc)⟩
      exact henrolled.queues rfl nofun rfl (serving_goTo (by rw [hpc]; rfl))
    | cancel next =>
      refine ⟨?_, henrolled.cancels hpc, hsound.step (slot_cancels howned henrolled hok hhost hpc)⟩
      rw [goOn, CapiPolicyRun.cancel]
      split
      · exact howned.stays hpc id id
      · exact howned.stays hpc id id
    | clearScheduled =>
      exact ⟨howned.moves (.clears hpc), henrolled.clears,
        hsound.step (slot_clears howned henrolled hsound hpc)⟩
    | awaits | holds | decides | lockExecution | testItem | unlockExecution =>
      exact ⟨howned, henrolled, hsound⟩
    | _ =>
      rw [hpc] at hplace
      exact absurd rfl hplace

/-- **The flag stands for the task after every step.** -/
theorem Truthful.step {a : CapiPolicyAction κ} (h : Truthful s) (hok : CancelsApart s a)
    (hhost : HostCancels s a) : Truthful (s.step a) := by
  cases a with
  | call k c =>
    obtain ⟨howned, henrolled, hsound⟩ := h
    have hsteps := s.manager.step_steps (.call (.caller k) c)
    rw [CapiPolicyRun.step]
    generalize s.manager.step (.call (.caller k) c) = m at hsteps
    refine ⟨howned.step hsteps, ?_, ?_⟩
    · cases hsteps with
      | stays => exact henrolled
      | calls hidle =>
        refine henrolled.manager rfl (serving_goTo ?_)
        rw [hidle]
        cases c <;> rfl
    · cases hsteps with
      | stays => exact hsound
      | calls hidle =>
        exact hsound.step (slot_stays hidle rfl (by cases c <;> rfl))
  | go k host => exact h.go hok hhost
  | callback k taskId =>
    rw [CapiPolicyRun.step]
    split_ifs with hidle
    · have hcalls := s.callback_callsBack k taskId
      generalize s.callback k taskId = s' at hcalls
      refine ⟨?_, h.enrolled.callback hidle hcalls, h.sound.step (slot_callback hidle hcalls)⟩
      cases hcalls with
      | nothing => exact h.owned
      | begins =>
        refine h.owned.stays hidle ?_ ?_ <;> unfold PolicyRun.bodyPc <;> split <;> exact nofun
    · exact h
  | queueOther timed targetTime =>
    have htype : (s.manager.otherTask timed targetTime).type ≠ .shutdown := by
      cases timed <;> exact nofun
    refine ⟨h.owned, h.enrolled.queues rfl htype rfl fun _ => rfl,
      h.sound.step (.stays rfl ?_ rfl fun _ => rfl)⟩
    have hsame : ([s.manager.otherTask timed targetTime].filter fun task => task.body.isUpload) = [] :=
      rfl
    rw [CapiPolicyRun.step, standing_eq, s.dispatcher.tasks_queueItem htype, filter_append, hsame,
      append_nil]
    rfl
  | profiles p | tick =>
    exact ⟨h.owned, h.enrolled.manager rfl fun _ => rfl,
      h.sound.step (.stays rfl rfl rfl fun _ => rfl)⟩

end CapiPolicyRun

end ClientTelemetry
