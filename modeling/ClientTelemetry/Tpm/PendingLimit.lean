import ClientTelemetry.Tpm.Helpers.Scheduling
import Mathlib.Data.Set.Card
/-!
# The limit of pending requests

`scheduleUpload` compares the number of active uploads with the limit. But
a context is added later, by the task it queues, and an event of the
highest latency adds one without any comparison. `PolicyRun.committed`
counts an upload from the moment it is let through: the contexts that have
been added, the upload tasks that wait, and the threads on their way to add
one. Only two steps raise that number. A run in which both are taken below
the limit stays within it.
-/

namespace ClientTelemetry

open Function List

namespace PolicyRun

variable {κ : Type*} [DecidableEq κ]

/-- A thread at this place is on its way to add a context. -/
def opensAt (item : Option (Task TaskBody)) : Pc → Bool
  | .openUpload _ | .beginUpload _ | .lockUpload | .clearScheduled | .testUpload => true
  | .lockExecution | .testItem => item.any fun task => task.body.isUpload
  | _ => false

/-- The threads on their way to add a context. -/
def openers (s : PolicyRun κ) : Set (Thread κ) := {t | opensAt s.item (s.pcs t) = true}

/-- The upload tasks that wait. -/
def pendingUploads (s : PolicyRun κ) : ℕ :=
  s.dispatcher.timerQueue.countP fun task => task.body.isUpload

/-- **The uploads that have been let through.** -/
noncomputable def committed (s : PolicyRun κ) : ℕ∞ :=
  s.uploadCount + s.pendingUploads + s.openers.encard

/-- The step lets an upload through only below the limit: an event of the
highest latency that passes the test, or a task that is queued. -/
def BelowLimit (s : PolicyRun κ) : PolicyAction κ → Prop
  | .go t _ =>
    (∀ latency, s.pcs t = .testArrived latency → EventLatency.realTime.toInt < latency.toInt →
      s.isPaused = false → s.committed < s.maxPendingReq) ∧
    ∀ request, s.pcs t = .createTask request → s.committed < s.maxPendingReq
  | _ => True

variable {s s' : PolicyRun κ} {t : Thread κ} {pc : Pc}

theorem opensAt_of_calm {item : Option (Task TaskBody)} (h : pc.calm) :
    opensAt item pc = false := by
  cases pc <;> first | rfl | cases h

/-- At the places of the callers it does not matter what the worker has
taken. -/
theorem opensAt_congr {item item' : Option (Task TaskBody)} (h : pc.ofWorker = false) :
    opensAt item pc = opensAt item' pc := by
  cases pc <;> first | rfl | cases h

omit [DecidableEq κ] in
/-- What leaves one of the three numbers may enter another: `a` and `c`
leave, `b` and `d` enter, and no more than `e` are new. -/
theorem committed_le_add {a b c d e : ℕ}
    (hcounts : s'.uploadCount + s'.pendingUploads + a ≤ s.uploadCount + s.pendingUploads + b)
    (hopeners : s'.openers.encard + c ≤ s.openers.encard + d) (hsum : b + d ≤ e + (a + c)) :
    s'.committed ≤ s.committed + e := by
  refine (ENat.add_le_add_iff_right (ENat.natCast_ne_top (a + c))).1 ?_
  calc s'.committed + ((a + c : ℕ) : ℕ∞)
      = ((s'.uploadCount + s'.pendingUploads + a : ℕ) : ℕ∞) + (s'.openers.encard + c) := by
        unfold committed
        push_cast
        ring
    _ ≤ ((s.uploadCount + s.pendingUploads + b : ℕ) : ℕ∞) + (s.openers.encard + d) :=
        add_le_add (Nat.cast_le.2 hcounts) hopeners
    _ = s.committed + ((b + d : ℕ) : ℕ∞) := by
        unfold committed
        push_cast
        ring
    _ ≤ s.committed + ((e + (a + c) : ℕ) : ℕ∞) := by gcongr
    _ = s.committed + e + ((a + c : ℕ) : ℕ∞) := by
        push_cast
        ring

section

variable {a e : ℕ} (hs : Placed s) (hpcs : s'.pcs = s.pcs)
  (hitem : s'.item = s.item ∨ t = .worker)
include hs hpcs hitem

/-- Where one thread goes on, and the worker alone takes a task or leaves
it, at most that thread joins the others. -/
theorem openers_goTo_subset : (s'.goTo t pc).openers ⊆ insert t s.openers := by
  intro u hu
  by_cases hut : u = t
  · exact .inl hut
  · right
    simp only [openers, Set.mem_ofPred_eq] at hu ⊢
    rw [goTo_pcs_of_ne hut, hpcs] at hu
    rcases hitem with hitem | rfl
    · rwa [show (s'.goTo t pc).item = s.item from hitem] at hu
    · cases u with
      | worker => exact absurd rfl hut
      | caller k => rwa [opensAt_congr (hs.1 k)] at hu

/-- A thread that was on its way before, or is not now, does not join
them. -/
theorem openers_goTo_subset_of
    (ht : opensAt s'.item pc = true → opensAt s.item (s.pcs t) = true) :
    (s'.goTo t pc).openers ⊆ s.openers := by
  intro u hu
  rcases openers_goTo_subset hs hpcs hitem hu with rfl | hin
  · simp only [openers, Set.mem_ofPred_eq, goTo_pcs_self] at hu
    exact ht hu
  · exact hin

/-- A step that lets nobody through. -/
theorem committed_goTo_le_add
    (hcounts : s'.uploadCount + s'.pendingUploads ≤ s.uploadCount + s.pendingUploads + e)
    (ht : opensAt s'.item pc = true → opensAt s.item (s.pcs t) = true) :
    (s'.goTo t pc).committed ≤ s.committed + e := by
  have hopeners := Set.encard_le_encard (openers_goTo_subset_of hs hpcs hitem ht)
  exact @committed_le_add _ s (s'.goTo t pc) 0 e 0 0 e hcounts (by simpa using hopeners) (by omega)

/-- A step that adds no context and no task, and lets nobody through. -/
theorem committed_goTo_le
    (hcounts : s'.uploadCount + s'.pendingUploads ≤ s.uploadCount + s.pendingUploads)
    (ht : opensAt s'.item pc = true → opensAt s.item (s.pcs t) = true) :
    (s'.goTo t pc).committed ≤ s.committed := by
  simpa using committed_goTo_le_add (e := 0) hs hpcs hitem hcounts ht

/-- A thread is let through; a task may leave the queue for it. -/
theorem committed_joins_le
    (hcounts : s'.uploadCount + s'.pendingUploads + a ≤ s.uploadCount + s.pendingUploads)
    (hsum : 1 ≤ e + a) : (s'.goTo t pc).committed ≤ s.committed + e := by
  have hopeners : (s'.goTo t pc).openers.encard ≤ s.openers.encard + 1 :=
    (Set.encard_le_encard (openers_goTo_subset hs hpcs hitem)).trans (Set.encard_insert_le _ _)
  exact @committed_le_add _ s (s'.goTo t pc) a 0 0 1 e hcounts (by simpa using hopeners) (by omega)

/-- A thread that was on its way arrives; a context may be added by it. -/
theorem committed_arrives_le (ht : opensAt s.item (s.pcs t) = true)
    (hto : opensAt s'.item pc = false)
    (hcounts : s'.uploadCount + s'.pendingUploads ≤ s.uploadCount + s.pendingUploads + 1) :
    (s'.goTo t pc).committed ≤ s.committed := by
  have hout : t ∉ (s'.goTo t pc).openers := by
    simp only [openers, Set.mem_ofPred_eq, goTo_pcs_self]
    exact fun hopens => nomatch hto.symm.trans hopens
  have hopeners : (s'.goTo t pc).openers.encard + 1 ≤ s.openers.encard := by
    rw [← Set.encard_insert_of_notMem hout]
    refine Set.encard_le_encard (Set.insert_subset ht ?_)
    exact openers_goTo_subset_of hs hpcs hitem fun hopens => nomatch hto.symm.trans hopens
  have hle := @committed_le_add _ s (s'.goTo t pc) 0 1 1 0 0 hcounts (by simpa using hopeners)
    (by omega)
  simpa using hle

end

omit [DecidableEq κ] in
theorem pendingUploads_queueItem (s : PolicyRun κ) (request : UploadRequest) :
    (s.dispatcher.queueItem (s.uploadTask request)).timerQueue.countP
      (fun task => task.body.isUpload) = s.pendingUploads + 1 := by
  rw [pendingUploads, countP_eq_length_filter, countP_eq_length_filter]
  exact (s.timers_queueItem request).length_eq

omit [DecidableEq κ] in
theorem pendingUploads_queueOther (s : PolicyRun κ) (timed : Bool) (targetTime : ℕ) :
    (s.dispatcher.queueItem (s.otherTask timed targetTime)).timerQueue.countP
      (fun task => task.body.isUpload) = s.pendingUploads := by
  rw [pendingUploads, countP_eq_length_filter, countP_eq_length_filter]
  exact (s.timers_queueOther timed targetTime).length_eq

/-- The worker takes a task. -/
theorem committed_takes_le {item : Task TaskBody} {w : WorkerThread κ TaskBody} (hs : Placed s)
    (htakes : s.dispatcher.Takes (some item, w)) :
    ({ s with dispatcher := w, item := some item }.goTo .worker .lockExecution).committed ≤
      s.committed := by
  -- only an upload goes over from the tasks that wait to the threads
  have hother (hbody : item.body = .other) :
      opensAt (some item) .lockExecution = true → opensAt s.item (s.pcs .worker) = true := by
    intro hopens
    simp [opensAt, hbody, TaskBody.isUpload] at hopens
  cases htakes with
  | @timer _ rest htimers =>
    cases hbody : item.body with
    | uploadAsync latency =>
      have hpending : s.pendingUploads = rest.countP (fun task => task.body.isUpload) + 1 := by
        rw [pendingUploads, htimers, countP_cons, hbody]
        rfl
      have hle := @committed_joins_le _ _ s { s with
          dispatcher := { s.dispatcher with timerQueue := rest, itemInProgress := some item.id }
          item := some item } .worker .lockExecution 1 0 hs rfl (.inr rfl)
        (by rw [hpending]; exact le_of_eq (add_assoc _ _ _)) le_rfl
      simpa using hle
    | other =>
      refine committed_goTo_le hs rfl (.inr rfl) (Nat.add_le_add_left ?_ _) (hother hbody)
      rw [pendingUploads, pendingUploads, htimers, countP_cons]
      exact Nat.le_add_right _ _
  | task hqueue =>
    have hbody := hs.2 item (hqueue ▸ mem_cons_self)
    exact committed_goTo_le hs rfl (.inr rfl) le_rfl (hother hbody)

/-- Only a task that is an upload begins one. -/
theorem opensAt_bodyPc (item : Option (Task TaskBody)) (h : opensAt item (bodyPc item) = true) :
    opensAt item .testItem = true := by
  rcases item with _ | ⟨id, type, targetTime, _ | _⟩
  · exact h
  · rfl
  · exact h

/-- **A step adds nothing, or it is one of the two that do.** -/
theorem committed_moves_le {timeout : Bool} (hs : Placed s)
    (hmoves : Moves s t s') (hbelow : BelowLimit s (.go t timeout)) : s'.committed ≤ s.committed ∨
      s.committed < s.maxPendingReq ∧ s'.committed ≤ s.committed + 1 := by
  cases hmoves with
  | waits => exact .inl le_rfl
  | goes hpc hleads =>
    cases hleads with
    | calm hfrom hto =>
      exact .inl (committed_goTo_le hs rfl (.inl rfl) le_rfl fun h =>
        nomatch (opensAt_of_calm hto).symm.trans h)
    | arrives hrun hmax =>
      refine .inr ⟨hbelow.1 _ hpc hmax hrun, ?_⟩
      exact committed_joins_le (a := 0) (e := 1) hs rfl (.inl rfl) le_rfl le_rfl
    | beginUpload =>
      exact .inl (committed_goTo_le hs rfl (.inl rfl) le_rfl fun _ => by rw [hpc]; rfl)
    | _ => exact .inl (committed_goTo_le hs rfl (.inl rfl) le_rfl nofun)
  | locks hpc hlocks hfree =>
    refine .inl (committed_goTo_le hs rfl (.inl rfl) le_rfl fun h => ?_)
    rw [hpc]
    cases hlocks with
    | upload => rfl
    | _ => cases h
  | unlocks hpc hunlocks =>
    refine .inl (committed_goTo_le hs rfl (.inl rfl) le_rfl fun h => ?_)
    rw [hpc]
    cases hunlocks with
    | upload hrun => rfl
    | _ => cases h
  | opens hpc =>
    refine .inl (committed_arrives_le hs rfl (.inl rfl) (by rw [hpc]; rfl) rfl ?_)
    rw [Nat.add_right_comm]
    exact Nat.add_le_add_right (Finset.card_insert_le _ _) _
  | finishes hpc hto =>
    refine .inl (committed_goTo_le hs rfl (.inl rfl) (Nat.add_le_add_right ?_ _) fun h =>
      nomatch (opensAt_of_calm hto).symm.trans h)
    exact Finset.card_le_card (Finset.erase_subset _ _)
  | @creates request hpc =>
    refine .inr ⟨hbelow.2 _ hpc, ?_⟩
    refine committed_goTo_le_add (e := 1) hs rfl (.inl rfl) ?_ nofun
    exact Nat.add_le_add_left (s.pendingUploads_queueItem request).le _
  | clears hpc => exact .inl (committed_goTo_le hs rfl (.inl rfl) le_rfl fun _ => by rw [hpc]; rfl)
  | cancelsQueued hpc hhandle hnoted =>
    refine .inl (committed_goTo_le hs rfl (.inl rfl) (Nat.add_le_add_left ?_ _) nofun)
    exact eraseP_sublist.countP_le
  | meets hpc hhandle hself hnoted =>
    refine .inl (committed_goTo_le hs rfl (.inl rfl) le_rfl fun h => ?_)
    split_ifs at h <;> cases h
  | @cancelled answer next hpc =>
    refine .inl (committed_goTo_le hs rfl (.inl rfl) le_rfl fun h => ?_)
    cases next <;> cases h
  | looks hself hpc hitem htakes =>
    cases htakes with
    | nothing => exact .inl le_rfl
    | @forward item rest target htimers htarget =>
      have hpending : (timerInsert { item with targetTime := target } rest).countP
          (fun task => task.body.isUpload) = s.pendingUploads := by
        rw [(timerInsert_perm _ _).countP_eq, pendingUploads, htimers]
        rfl
      refine .inl (le_of_eq ?_)
      simp only [committed, pendingUploads, hpending]
      rfl
  | takes hself hpc hitem htakes =>
    subst hself
    exact .inl (committed_takes_le hs htakes)
  | ends hself hpc hitem => exact .inl (committed_goTo_le hs rfl (.inr hself) le_rfl nofun)
  | locksExecution hpc =>
    exact .inl (committed_goTo_le hs rfl (.inl rfl) le_rfl fun h => by rw [hpc]; exact h)
  | begins hpc hnoted =>
    refine .inl (committed_goTo_le hs rfl (.inl rfl) le_rfl fun h => ?_)
    rw [hpc]
    exact opensAt_bodyPc _ h
  | skips hpc hnoted =>
    have hself := hs.eq_worker (t := t) (by rw [hpc]; rfl)
    exact .inl (committed_goTo_le hs rfl (.inr hself) le_rfl nofun)
  | _ => exact .inl (committed_goTo_le hs rfl (.inl rfl) le_rfl nofun)

theorem Steps.maxPendingReq {a : PolicyAction κ} (hsteps : Steps s a s') :
    s'.maxPendingReq = s.maxPendingReq := by
  cases hsteps with
  | goes hmoves => cases hmoves <;> rfl
  | _ => rfl

/-- **Within the limit**, counted from the moment an upload is let
through. -/
structure WithinLimit (s : PolicyRun κ) : Prop where
  placed : Placed s
  within : s.committed ≤ s.maxPendingReq

theorem WithinLimit.step {a : PolicyAction κ} (h : WithinLimit s)
    (hbelow : BelowLimit s a) (hsteps : Steps s a s') : WithinLimit s' := by
  refine ⟨h.placed.step hsteps, ?_⟩
  rw [hsteps.maxPendingReq]
  cases hsteps with
  | @calls t c hidle =>
    refine (committed_goTo_le h.placed rfl (.inl rfl) le_rfl fun hopens => ?_).trans h.within
    cases c <;> cases hopens
  | goes hmoves =>
    rcases committed_moves_le h.placed hmoves hbelow with hle | ⟨hlt, hle⟩
    · exact hle.trans h.within
    · exact hle.trans (Order.add_one_le_of_lt hlt)
  | @queues timed targetTime =>
    refine le_trans (le_of_eq ?_) h.within
    simp only [committed, pendingUploads, s.pendingUploads_queueOther timed targetTime]
    rfl
  | _ => exact h.within

/-- **The limit holds in every run whose uploads are let through below
it.** For every limit, every set of callers and every interleaving of their
calls with the worker: if each event of the highest latency that passes the
test, and each task that is queued, does so while the uploads let through
are fewer than the limit, then the active uploads never exceed it. -/
theorem active_uploads_within_limit (maxPendingReq : ℕ) {timers : ℤ × ℤ} (as : List (PolicyAction κ))
    (hbelow : RunMeets BelowLimit step (initial maxPendingReq timers) as) :
    (run step (initial maxPendingReq timers : PolicyRun κ) as).uploadCount ≤ maxPendingReq := by
  have hinitial : WithinLimit (initial maxPendingReq timers : PolicyRun κ) := by
    refine ⟨.initial maxPendingReq, ?_⟩
    have hnone : (initial maxPendingReq timers : PolicyRun κ).openers = ∅ :=
      Set.eq_empty_of_forall_notMem fun _ => nofun
    rw [committed, hnone, Set.encard_empty]
    exact zero_le
  have hmax : (run step (initial maxPendingReq timers : PolicyRun κ) as).maxPendingReq = maxPendingReq :=
    @run_preserves _ _ step (initial maxPendingReq timers) (fun s => s.maxPendingReq = maxPendingReq)
      (fun s a h => (s.step_steps a).maxPendingReq.trans h) rfl as
  have hwithin :=
    (run_invariant (fun s a h hok => h.step hok (s.step_steps a)) hinitial hbelow).within
  rw [hmax] at hwithin
  have hactive : ((run step (initial maxPendingReq timers : PolicyRun κ) as).uploadCount : ℕ∞) ≤
      (run step (initial maxPendingReq timers : PolicyRun κ) as).committed :=
    le_self_add.trans le_self_add
  exact Nat.cast_le.1 (hactive.trans hwithin)

omit [DecidableEq κ] in
/-- At other places the condition asks nothing. -/
theorem belowLimit_of_pc {timeout : Bool} (hpc : s.pcs t = pc)
    (harrived : ∀ latency, pc ≠ .testArrived latency) (hcreate : ∀ request, pc ≠ .createTask request) :
    BelowLimit s (.go t timeout) := by
  refine ⟨fun latency h => ?_, fun request h => ?_⟩
  · exact absurd (hpc.symm.trans h) (harrived latency)
  · exact absurd (hpc.symm.trans h) (hcreate request)

/-- One event of the highest latency, as the first. -/
def oneArrival : List (PolicyAction Bool) :=
  [.call (.caller false) .handleStart, .go (.caller false) false,
    .call (.caller true) (.handleEventArrived .max), .go (.caller true) false,
    .go (.caller true) false, .go (.caller true) false]

theorem active_uploads_within_limit_one : (run step (initial 1) oneArrival).uploadCount = 1 ∧
      (run step (initial 1) oneArrival).uploadCount ≤ 1 := by
  refine ⟨rfl, active_uploads_within_limit 1 oneArrival ?_⟩
  have hnone : (run step (initial 1) (oneArrival.take 3)).committed < ((1 : ℕ) : ℕ∞) := by
    have hopeners : (run step (initial 1) (oneArrival.take 3)).openers = ∅ := by
      refine Set.eq_empty_of_forall_notMem ?_
      rintro (_ | _ | _) <;> exact nofun
    rw [committed, hopeners, Set.encard_empty]
    exact zero_lt_one
  exact ⟨trivial, belowLimit_of_pc rfl nofun nofun, trivial,
    ⟨fun _ _ _ _ => hnone, fun _ h => nomatch h⟩, belowLimit_of_pc rfl nofun nofun,
    belowLimit_of_pc rfl nofun nofun, trivial⟩

/-- A caller starts the manager, and two events of the highest latency
arrive on another thread. -/
def twoArrivals : List (PolicyAction Bool) :=
  .call (.caller false) .handleStart :: goes (.caller false) 11 ++
    .call (.caller true) (.handleEventArrived .max) :: goes (.caller true) 3 ++
    .call (.caller true) (.handleEventArrived .max) :: goes (.caller true) 3

/-- A caller starts the manager and asks for an upload at once. While its
task is on the way to add a context the caller asks for another one. -/
def twoRequests : List (PolicyAction Bool) :=
  .call (.caller false) .handleStart :: goes (.caller false) 11 ++
    .call (.caller false) (.scheduleUpload ⟨0, .normal, false⟩) :: goes (.caller false) 11 ++
    goes .worker 7 ++
    .call (.caller false) (.scheduleUpload ⟨0, .normal, false⟩) :: goes (.caller false) 12 ++
    goes .worker 12

/-- With a limit of one, two uploads are active. -/
theorem active_uploads_exceed_limit : (run step (initial 1) twoArrivals).uploadCount = 2 ∧
      (run step (initial 1) twoRequests).uploadCount = 2 := by
  decide +kernel

end PolicyRun

end ClientTelemetry
