import ClientTelemetry.Tpm.Helpers.Scheduling
/-!
# Requests for a lower latency

A call of `scheduleUpload` that finds an upload scheduled may lower
`m_runningLatency`, but the task carries the latency it was scheduled
with, and `uploadAsync` begins by writing that back. In a run whose calls
do not overlap an upload therefore asks for exactly the latency of its
task (`Asserts`), and it asks for no more than every call answered
since the task was scheduled where each of those has left no task behind
that was scheduled with a higher one.
-/

namespace ClientTelemetry

open Function List

instance : Fintype EventLatency :=
  ⟨{.unspecified, .off, .normal, .costDeferred, .realTime, .max}, fun latency => by
    cases latency <;> decide⟩

instance {κ : Type*} [Fintype κ] : Fintype (Thread κ) :=
  .ofEquiv (Option κ)
    ⟨(Option.elim · .worker .caller), fun | .worker => none | .caller k => some k,
      fun t => by cases t <;> rfl, fun t => by cases t <;> rfl⟩

/-- The thread is in no function of the manager that schedules an upload,
and in no task that has still to start one. -/
def Pc.resting : Pc → Bool
  | .idle | .awaitUploads | .unlockExecution => true
  | _ => false

/-- **The manager with a log of its answers.** -/
structure AnsweredRun (κ : Type*) where
  policy : PolicyRun κ
  /-- The calls of `scheduleUpload` that have passed the guards and
  returned: the number of the next task at that time, and the latency of
  the call. -/
  answered : List (ℕ × EventLatency) := []

namespace PolicyRun

variable {κ : Type*} [DecidableEq κ]

/-- What a step adds to the log. -/
def answers (s : PolicyRun κ) : PolicyAction κ → List (ℕ × EventLatency)
  | .go t _ =>
    match s.pcs t with
    | .returns request _ => [(s.nextTask, request.latency)]
    | _ => []
  | _ => []

/-- At most one thread does not rest. -/
def Alone (s : PolicyRun κ) : Prop :=
  ∀ t u, t ≠ u → (s.pcs t).resting = true ∨ (s.pcs u).resting = true

/-- **A run in which calls and tasks do not overlap**: a call begins, and
a task is taken, while everybody else rests. -/
def InSequence (s : PolicyRun κ) : PolicyAction κ → Prop
  | .call t _ => ∀ u, u ≠ t → (s.pcs u).resting = true
  | .go .worker _ => s.pcs .worker = .idle → s.item = none →
      ∀ u, u ≠ Thread.worker → (s.pcs u).resting = true
  | _ => True

/-- **No call leaves a task behind that asks for more than the call.** -/
def LeavesNoHigher (s : PolicyRun κ) : PolicyAction κ → Prop
  | .go t _ =>
    match s.pcs t with
    | .returns request _ => ∀ task ∈ s.dispatcher.timerQueue, ∀ latency,
        task.body = .uploadAsync latency → latency.toInt ≤ request.latency.toInt
    | _ => True
  | _ => True

instance [Fintype κ] (s : PolicyRun κ) : ∀ a, Decidable (s.InSequence a)
  | .call t _ => inferInstanceAs (Decidable (∀ u, u ≠ t → (s.pcs u).resting = true))
  | .go .worker _ => inferInstanceAs (Decidable (s.pcs .worker = .idle → s.item = none →
      ∀ u, u ≠ Thread.worker → (s.pcs u).resting = true))
  | .go (.caller _) _ | .queueOther _ _ | .profiles _ | .tick => .isTrue trivial

instance (s : PolicyRun κ) (a : PolicyAction κ) : Decidable (s.LeavesNoHigher a) := by
  unfold LeavesNoHigher
  split
  · split <;> infer_instance
  · infer_instance

/-! ## One thread at a time -/

variable {s s' : PolicyRun κ} {t u : Thread κ} {timeout : Bool}

theorem goTo_eq_self {pc : Pc} (h : s.pcs t = pc) : s.goTo t pc = s := by
  rw [goTo, ← h, update_eq_self]

/-- **A caller that rests** goes on resting, and changes nothing of the
manager. -/
theorem goOn_caller_of_resting {k : κ} {b : Bool} (hrest : (s.pcs (.caller k)).resting = true) :
    ∃ w pc, s.goOn (.caller k) b (s.pcs (.caller k)) =
        { s with dispatcher := w }.goTo (.caller k) pc ∧
      w.timerQueue = s.dispatcher.timerQueue ∧ pc.resting = true := by
  cases hpc : s.pcs (.caller k) with
  | idle => exact ⟨s.dispatcher, .idle, (goTo_eq_self hpc).symm, rfl, rfl⟩
  | awaitUploads =>
    simp only [goOn]
    split_ifs
    · exact ⟨s.dispatcher, .idle, rfl, rfl, rfl⟩
    · exact ⟨s.dispatcher, .awaitUploads, (goTo_eq_self hpc).symm, rfl, rfl⟩
  | unlockExecution => exact ⟨s.dispatcher.unlockExecution, .idle, rfl, rfl, rfl⟩
  | _ => rw [hpc] at hrest; cases hrest

/-- So does the worker, unless it takes a task. -/
theorem goOn_worker_of_resting (hrest : (s.pcs .worker).resting = true) :
    ((s.goOn .worker timeout (s.pcs .worker)).pcs .worker).resting = true ∨
      s.pcs .worker = .idle ∧ s.item = none := by
  cases hpc : s.pcs .worker with
  | idle =>
    cases hitem : s.item with
    | none => exact .inr ⟨rfl, rfl⟩
    | some item =>
      refine .inl ?_
      simp only [goOn, workerIdle, hitem, goTo_pcs_self]
      rfl
  | awaitUploads =>
    simp only [goOn]
    split_ifs
    · exact .inl (by rw [goTo_pcs_self]; rfl)
    · exact .inl (by rw [hpc]; rfl)
  | unlockExecution => exact .inl (by rw [goOn, goTo_pcs_self]; rfl)
  | _ => rw [hpc] at hrest; cases hrest

/-- Of two threads one rests, if one that has moved rests or all others
do. -/
theorem Alone.moved (h : s.Alone) (hother : ∀ u, u ≠ t → s'.pcs u = s.pcs u)
    (hrest : (s'.pcs t).resting = true ∨ ∀ u, u ≠ t → (s.pcs u).resting = true) : s'.Alone := by
  intro u v huv
  by_cases hu : u = t
  · subst hu
    rw [hother v huv.symm]
    exact hrest.imp_right fun hall => hall v huv.symm
  · rw [hother u hu]
    by_cases hv : v = t
    · subst hv
      exact hrest.symm.imp_left fun hall => hall u hu
    · rw [hother v hv]
      exact h u v huv

omit [DecidableEq κ] in
/-- If a thread does not rest, the others do. -/
theorem Alone.others (h : s.Alone) (ht : ¬(s.pcs t).resting = true) (hu : u ≠ t) :
    (s.pcs u).resting = true := (h u t hu).resolve_right ht

theorem Alone.go (h : s.Alone) (hseq : s.InSequence (.go t timeout)) :
    (s.goOn t timeout (s.pcs t)).Alone := by
  refine h.moved (fun u hu => (s.goOn_moves t timeout).pcs_of_ne hu) ?_
  by_cases hrest : (s.pcs t).resting = true
  · cases t with
    | worker =>
      exact (goOn_worker_of_resting hrest).imp_right fun hidle => hseq hidle.1 hidle.2
    | caller k =>
      obtain ⟨w, pc, heq, -, hpc⟩ := goOn_caller_of_resting (b := timeout) hrest
      exact .inl (by rw [heq, goTo_pcs_self]; exact hpc)
  · exact .inr fun u hu => h.others hrest hu

theorem Alone.step (h : s.Alone) {a : PolicyAction κ} (hseq : s.InSequence a) :
    (s.step a).Alone := by
  cases a with
  | call t c =>
    simp only [PolicyRun.step]
    split_ifs
    · exact h.moved (fun u hu => goTo_pcs_of_ne hu) (.inr hseq)
    · exact h
  | go t timeout => exact h.go hseq
  | queueOther timed targetTime =>
    simp only [PolicyRun.step]
    split_ifs <;> exact h
  | profiles p | tick => exact h

/-! ## The tasks that wait -/

/-- A task that waits behind a step of a thread has waited before it, or
is new. -/
theorem Moves.timerQueue (h : Moves s t s') {task : Task TaskBody}
    (htask : task ∈ s'.dispatcher.timerQueue) :
    (∃ before ∈ s.dispatcher.timerQueue, before.id = task.id ∧ before.body = task.body) ∨
      task.id = s.nextTask := by
  cases h with
  | @creates request hpc =>
    rcases mem_cons.1 ((timerInsert_perm (s.uploadTask request) _).subset htask) with
      rfl | hbefore
    · exact .inr rfl
    · exact .inl ⟨task, hbefore, rfl, rfl⟩
  | cancelsQueued hpc hhandle hnoted =>
    exact .inl ⟨task, eraseP_subset htask, rfl, rfl⟩
  | looks hself hpc hitem htakes =>
    cases htakes with
    | nothing => exact .inl ⟨task, htask, rfl, rfl⟩
    | @forward item rest target htimers htarget =>
      rw [htimers]
      rcases mem_cons.1 ((timerInsert_perm { item with targetTime := target } rest).subset
        htask) with rfl | hrest
      · exact .inl ⟨item, mem_cons_self, rfl, rfl⟩
      · exact .inl ⟨task, mem_cons_of_mem item hrest, rfl, rfl⟩
  | takes hself hpc hitem htakes =>
    cases htakes with
    | timer htimers =>
      rw [htimers]
      exact .inl ⟨task, mem_cons_of_mem _ htask, rfl, rfl⟩
    | task hqueue => exact .inl ⟨task, htask, rfl, rfl⟩
  | _ => exact .inl ⟨task, htask, rfl, rfl⟩

theorem Moves.nextTask_le (h : Moves s t s') : s.nextTask ≤ s'.nextTask := by
  cases h with
  | creates => exact Nat.le_succ _
  | _ => exact le_rfl

end PolicyRun

namespace AnsweredRun

variable {κ : Type*} [DecidableEq κ] {s : AnsweredRun κ} {t u : Thread κ} {pc : Pc} {timeout : Bool}

/-- The manager as it is constructed. -/
def initial (maxPendingReq : ℕ) (timers : ℤ × ℤ := (0, 0)) : AnsweredRun κ :=
  { policy := .initial maxPendingReq timers }

/-- One step. -/
def step (s : AnsweredRun κ) (a : PolicyAction κ) : AnsweredRun κ where
  policy := s.policy.step a
  answered := s.policy.answers a ++ s.answered

/-- The task asks for no more than any call answered since it was
scheduled. -/
def Modest (s : AnsweredRun κ) (task : Task TaskBody) : Prop :=
  ∀ latency, task.body = .uploadAsync latency → ∀ e ∈ s.answered, task.id < e.1 →
    latency.toInt ≤ e.2.toInt

/-- **What holds where the worker is**: the task it has taken is modest
until it has started an upload, and from its first statement on the
running latency is its own. -/
def Asserts (s : AnsweredRun κ) : Pc → Prop
  | .lockExecution | .testItem => ∀ task, s.policy.item = some task → s.Modest task
  | .beginUpload latency => ∃ task, s.policy.item = some task ∧
      task.body = .uploadAsync latency ∧ s.Modest task
  | .lockUpload | .clearScheduled | .testUpload | .openUpload none => ∃ task,
      s.policy.item = some task ∧ task.body = .uploadAsync s.policy.runningLatency ∧ s.Modest task
  | _ => True

/-- **The invariant.** -/
structure Modesty (s : AnsweredRun κ) : Prop where
  placed : PolicyRun.Placed s.policy
  alone : PolicyRun.Alone s.policy
  counted : ∀ e ∈ s.answered, e.1 ≤ s.policy.nextTask
  waiting : ∀ task ∈ s.policy.dispatcher.timerQueue, s.Modest task
  worker : s.Asserts (s.policy.pcs .worker)

omit [DecidableEq κ] in
theorem asserts_of_resting (h : pc.resting = true) : s.Asserts pc := by
  cases pc <;> trivial

omit [DecidableEq κ] in
/-- The places whose assertion depends on nothing are reached freely. -/
theorem asserts_of_calm (h : pc.calm) : s.Asserts pc := by
  cases pc <;> trivial

omit [DecidableEq κ] in
/-- Nothing is asserted where a call begins. -/
theorem asserts_entry (c : PolicyCall) : s.Asserts (s.policy.entry c) := by
  cases c <;> trivial

variable {q : PolicyRun κ}

section

variable (h : s.Modesty)
include h

/-- **The worker goes on** and nothing is logged; its first statement is
for itself. -/
theorem Modesty.worker_moves (hmoves : PolicyRun.Moves s.policy .worker q)
    (hbegin : ∀ latency, s.policy.pcs .worker ≠ .beginUpload latency) :
    Asserts ⟨q, s.answered⟩ (q.pcs .worker) := by
  have hworker := h.worker
  cases hmoves with
  | waits => exact hworker
  | goes hpc hleads =>
    rw [PolicyRun.goTo_pcs_self]
    cases hleads with
    | calm hfrom hto => exact asserts_of_calm hto
    | beginUpload => exact absurd hpc (hbegin _)
    | _ => trivial
  | locks hpc hlocks hfree =>
    rw [PolicyRun.goTo_pcs_self]
    cases hlocks with
    | upload => rw [hpc] at hworker; exact hworker
    | _ => trivial
  | unlocks hpc hunlocks =>
    rw [PolicyRun.goTo_pcs_self]
    cases hunlocks with
    | upload => rw [hpc] at hworker; exact hworker
    | _ => trivial
  | finishes hpc hto =>
    rw [PolicyRun.goTo_pcs_self]
    exact asserts_of_calm hto
  | clears hpc | locksExecution hpc =>
    rw [hpc] at hworker
    rw [PolicyRun.goTo_pcs_self]
    exact hworker
  | meets hpc hhandle hself hnoted => cases hself
  | @cancelled answer next hpc =>
    rw [PolicyRun.goTo_pcs_self]
    cases next <;> trivial
  | looks hself hpc hitem htakes =>
    rw [hpc]
    trivial
  | @takes item w hself hpc hitem htakes =>
    rw [PolicyRun.goTo_pcs_self]
    intro task htask
    obtain rfl : item = task := Option.some.inj htask
    cases htakes with
    | timer htimers => exact h.waiting item (by rw [htimers]; exact mem_cons_self)
    | task hqueue =>
      -- what is not timed is not an upload
      intro latency hbody
      have hother := h.placed.2 item (by rw [hqueue]; exact mem_cons_self)
      cases hother.symm.trans hbody
  | begins hpc hnoted =>
    rw [hpc] at hworker
    rw [PolicyRun.goTo_pcs_self]
    cases hitem : s.policy.item with
    | none => trivial
    | some task =>
      obtain ⟨id, type, targetTime, body⟩ := task
      cases body with
      | uploadAsync latency => exact ⟨_, hitem, rfl, hworker _ hitem⟩
      | other => trivial
  | _ =>
    rw [PolicyRun.goTo_pcs_self]
    trivial

/-- The tasks that wait, where nothing is logged. -/
theorem Modesty.waiting_moves (hmoves : PolicyRun.Moves s.policy t q) :
    ∀ task ∈ q.dispatcher.timerQueue, Modest ⟨q, s.answered⟩ task := by
  intro task htask latency hbody e he hlt
  rcases hmoves.timerQueue htask with ⟨before, hbefore, hid, hsame⟩ | hnew
  · exact h.waiting before hbefore latency (hsame.trans hbody) e he (hid ▸ hlt)
  · -- a new task comes behind every entry
    have hcount := h.counted e he
    omega

/-- What the worker asserts is not disturbed by another thread. -/
theorem Modesty.worker_undisturbed {k : κ} :
    Asserts ⟨s.policy.goOn (.caller k) timeout (s.policy.pcs (.caller k)), s.answered⟩
      ((s.policy.goOn (.caller k) timeout (s.policy.pcs (.caller k))).pcs .worker) := by
  have hmoves := s.policy.goOn_moves (.caller k) timeout
  have hne : (Thread.worker : Thread κ) ≠ .caller k := nofun
  rw [hmoves.pcs_of_ne hne]
  by_cases hrest : (s.policy.pcs (.caller k)).resting = true
  · obtain ⟨w, pc, heq, -, -⟩ := PolicyRun.goOn_caller_of_resting (b := timeout) hrest
    rw [heq]
    exact h.worker
  · exact asserts_of_resting (h.alone.others hrest hne)

/-- The worker's own step, where nothing is logged. -/
theorem Modesty.worker_goes :
    Asserts ⟨s.policy.goOn .worker timeout (s.policy.pcs .worker), s.answered⟩
      ((s.policy.goOn .worker timeout (s.policy.pcs .worker)).pcs .worker) := by
  by_cases hbegin : ∃ latency, s.policy.pcs .worker = .beginUpload latency
  · obtain ⟨latency, hpc⟩ := hbegin
    have hworker := h.worker
    rw [hpc] at hworker ⊢
    rw [PolicyRun.goOn, PolicyRun.goTo_pcs_self]
    exact hworker
  · exact h.worker_moves (s.policy.goOn_moves .worker timeout) fun latency hpc =>
      hbegin ⟨latency, hpc⟩

/-- **A call that has not been refused returns.** -/
theorem Modesty.returns {request : UploadRequest} {read : ℕ}
    (hpc : s.policy.pcs t = .returns request read) (hplaced : (s.step (.go t timeout)).policy.Placed)
    (halone : (s.step (.go t timeout)).policy.Alone)
    (hlow : s.policy.LeavesNoHigher (.go t timeout)) : (s.step (.go t timeout)).Modesty := by
  have hstep : s.step (.go t timeout) =
      ⟨{ s.policy with scheduledUploadMutex := none }.goTo t .idle,
        (s.policy.nextTask, request.latency) :: s.answered⟩ := by
    simp only [AnsweredRun.step, PolicyRun.step, PolicyRun.answers, hpc, PolicyRun.goOn]
    rfl
  simp only [PolicyRun.LeavesNoHigher, hpc] at hlow
  rw [hstep] at hplaced halone ⊢
  refine ⟨hplaced, halone, fun e he => ?_, fun task htask latency hbody e he hlt => ?_, ?_⟩
  · rcases mem_cons.1 he with rfl | he
    · exact le_rfl
    · exact h.counted e he
  · rcases mem_cons.1 he with rfl | he
    · exact hlow task htask latency hbody
    · exact h.waiting task htask latency hbody e he hlt
  · refine asserts_of_resting (PolicyRun.goTo_forall (P := fun _ pc => pc.resting = true) rfl
      (fun u hu => h.alone.others ?_ hu) .worker)
    rw [hpc]
    rintro ⟨⟩

/-- **A thread goes on.** -/
theorem Modesty.go (hplaced : (s.step (.go t timeout)).policy.Placed)
    (halone : (s.step (.go t timeout)).policy.Alone)
    (hlow : s.policy.LeavesNoHigher (.go t timeout)) : (s.step (.go t timeout)).Modesty := by
  by_cases hreturns : ∃ request read, s.policy.pcs t = .returns request read
  · obtain ⟨request, read, hpc⟩ := hreturns
    exact h.returns hpc hplaced halone hlow
  · have hmoves := s.policy.goOn_moves t timeout
    have hlog : s.policy.answers (.go t timeout) = [] := by
      simp only [PolicyRun.answers]
      split
      next request read hpc => exact absurd ⟨request, read, hpc⟩ hreturns
      next => rfl
    have hstep : s.step (.go t timeout) =
        ⟨s.policy.goOn t timeout (s.policy.pcs t), s.answered⟩ := by
      rw [AnsweredRun.step, hlog]
      rfl
    rw [hstep] at hplaced halone ⊢
    refine ⟨hplaced, halone, fun e he => ?_, h.waiting_moves hmoves, ?_⟩
    · exact le_trans (h.counted e he) hmoves.nextTask_le
    · cases t with
      | worker => exact h.worker_goes
      | caller k => exact h.worker_undisturbed

/-- **Every step of such a run keeps it.** -/
theorem Modesty.step {a : PolicyAction κ} (hseq : s.policy.InSequence a)
    (hlow : s.policy.LeavesNoHigher a) : (s.step a).Modesty := by
  have hsteps := s.policy.step_steps a
  have hplaced : (s.step a).policy.Placed := h.placed.step hsteps
  have halone : (s.step a).policy.Alone := h.alone.step hseq
  cases a with
  | go t timeout => exact h.go hplaced halone hlow
  | call t c =>
    change Modesty ⟨s.policy.step (.call t c), s.answered⟩
    simp only [AnsweredRun.step] at hplaced halone
    generalize s.policy.step (.call t c) = q at *
    cases hsteps with
    | stays => exact h
    | calls hidle =>
      refine ⟨hplaced, halone, h.counted, h.waiting, ?_⟩
      exact PolicyRun.goTo_forall (P := fun u pc => u = .worker → s.Asserts pc)
        (fun _ => asserts_entry c) (fun u _ hu => hu ▸ h.worker) .worker rfl
  | queueOther timed targetTime =>
    change Modesty ⟨s.policy.step (.queueOther timed targetTime), s.answered⟩
    simp only [AnsweredRun.step] at hplaced halone
    generalize s.policy.step (.queueOther timed targetTime) = q at *
    cases hsteps with
    | stays => exact h
    | queues =>
      refine ⟨hplaced, halone, fun e he => Nat.le_succ_of_le (h.counted e he), ?_, h.worker⟩
      intro task htask latency hbody
      cases timed with
      | false => exact h.waiting task htask latency hbody
      | true =>
        rcases mem_cons.1 ((timerInsert_perm (s.policy.otherTask true targetTime) _).subset
          htask) with rfl | hbefore
        · cases hbody
        · exact h.waiting task hbefore latency hbody
  | profiles p | tick => exact ⟨hplaced, halone, h.counted, h.waiting, h.worker⟩

end

/-- A run whose calls and tasks do not overlap, and none of whose calls
leaves a higher task behind. -/
def InOrder (s : AnsweredRun κ) (a : PolicyAction κ) : Prop :=
  s.policy.InSequence a ∧ s.policy.LeavesNoHigher a

instance [Fintype κ] (s : AnsweredRun κ) (a : PolicyAction κ) : Decidable (s.InOrder a) :=
  inferInstanceAs (Decidable (_ ∧ _))

omit [DecidableEq κ] in
theorem Modesty.initial (maxPendingReq : ℕ) {timers : ℤ × ℤ} :
    (initial maxPendingReq timers : AnsweredRun κ).Modesty where
  placed := .initial maxPendingReq
  alone := fun _ _ _ => .inl rfl
  counted := nofun
  waiting := nofun
  worker := trivial

/-- **When an upload asks for no more than was asked for.** For every
limit, every set of callers and every run without overlaps: if no call
that passes the guards leaves a task waiting that was scheduled with a
higher latency than its own, then where the worker starts an upload it has
a task of `uploadAsync` in progress, and the upload asks for no more than
any call that has passed the guards and returned since that task was
scheduled. -/
theorem upload_asks_at_most (maxPendingReq : ℕ) {timers : ℤ × ℤ} (as : List (PolicyAction κ)) (timeout : Bool)
    (horder : RunMeets InOrder step (initial maxPendingReq timers) as)
    (hopens : (run step (initial maxPendingReq timers : AnsweredRun κ) as).policy.pcs .worker =
      .openUpload none) :
    let s := run step (initial maxPendingReq timers : AnsweredRun κ) as
    ∃ task, s.policy.item = some task ∧ task.body.isUpload = true ∧
      ∀ e ∈ s.answered, task.id < e.1 →
        ((s.policy.step (.go .worker timeout)).requestedMinLatency s.policy.nextContext).toInt ≤
          e.2.toInt := by
  intro s
  have hmodesty : s.Modesty :=
    run_invariant (fun s a h hok => h.step hok.1 hok.2) (.initial maxPendingReq) horder
  have hworker := hmodesty.worker
  rw [show s.policy.pcs .worker = .openUpload none from hopens] at hworker
  obtain ⟨task, hitem, hbody, hmodest⟩ := hworker
  refine ⟨task, hitem, by rw [hbody]; rfl, fun e he hlt => ?_⟩
  have hasks : (s.policy.step (.go .worker timeout)).requestedMinLatency s.policy.nextContext =
      s.policy.runningLatency := by
    rw [PolicyRun.step, show s.policy.pcs .worker = .openUpload none from hopens]
    exact update_self ..
  rw [hasks]
  exact hmodest _ hbody e he hlt

/-- The built-in profiles with the device on a free network and on the
charger. -/
def charging : TransmitProfiles := (TransmitProfiles.reset {}).updateStates .unmetered .charging |>.2

/-- The manager is started, asked for an upload at once, and asked again
with another latency while the upload waits; then the worker takes the task
and comes to start the upload. -/
def askedTwice (first second : EventLatency) : List (PolicyAction Unit) :=
  .profiles charging ::
    .call (.caller ()) .handleStart :: PolicyRun.goes (.caller ()) 11 ++
    .call (.caller ()) (.scheduleUpload ⟨0, first, false⟩) :: PolicyRun.goes (.caller ()) 11 ++
    .call (.caller ()) (.scheduleUpload ⟨5000, second, false⟩) :: PolicyRun.goes (.caller ()) 6 ++
    PolicyRun.goes .worker 7

theorem upload_asks_at_most_twice :
    (∃ task, (run step (initial 4) (askedTwice .normal .realTime)).policy.item = some task ∧
      task.id < 2 ∧ (2, .realTime) ∈ (run step (initial 4) (askedTwice .normal .realTime)).answered) ∧
    ∃ task, (run step (initial 4) (askedTwice .normal .realTime)).policy.item = some task ∧
      task.body.isUpload = true ∧
      ∀ e ∈ (run step (initial 4) (askedTwice .normal .realTime)).answered, task.id < e.1 →
        (((run step (initial 4) (askedTwice .normal .realTime)).policy.step
          (.go .worker false)).requestedMinLatency
            (run step (initial 4) (askedTwice .normal .realTime)).policy.nextContext).toInt ≤
          e.2.toInt := by
  refine ⟨⟨_, rfl, by decide +kernel, by decide +kernel⟩,
    upload_asks_at_most 4 (askedTwice .normal .realTime) false ?_ ?_⟩
  · decide +kernel
  · decide +kernel

/-- **A lowered latency is lost.** The second request has passed the
guards and lowered `m_runningLatency`, and the upload asks for more. -/
theorem lowered_latency_lost :
    RunMeets (fun s => s.policy.InSequence) step (initial 4) (askedTwice .realTime .normal) ∧
    (run step (initial 4) (askedTwice .realTime .normal)).policy.pcs .worker = .openUpload none ∧
    (run step (initial 4) (askedTwice .realTime .normal)).policy.item.map Task.id = some 1 ∧
    (2, .normal) ∈ (run step (initial 4) (askedTwice .realTime .normal)).answered ∧
    ((run step (initial 4) (askedTwice .realTime .normal)).policy.step
      (.go .worker false)).requestedMinLatency 0 = .realTime ∧
    EventLatency.normal.toInt < EventLatency.realTime.toInt := by
  decide +kernel

end AnsweredRun

end ClientTelemetry
