import ClientTelemetry.Common.Run
import ClientTelemetry.Pal.Helpers.WorkerThread
import ClientTelemetry.Tpm.Model.Scheduling
/-!
# Steps of the threads of the transmission policy manager

`PolicyRun.Moves` lists what a step of a thread can do, and `Leads` the
steps among them that change timers and latencies at most. A place is
`calm` if nothing about uploads depends on a thread being there.
-/

namespace ClientTelemetry

open Function

namespace PolicyRun

variable {κ : Type*} [DecidableEq κ] {s : PolicyRun κ} {t u : Thread κ} {pc : Pc}

@[simp] theorem goTo_pcs_self : (s.goTo t pc).pcs t = pc := update_self ..

theorem goTo_pcs_of_ne (h : u ≠ t) : (s.goTo t pc).pcs u = s.pcs u := update_of_ne h ..

/-- What holds of the place a thread goes to and of the places of the
others holds of every place. -/
theorem goTo_forall {P : Thread κ → Pc → Prop} (hpc : P t pc) (h : ∀ u, u ≠ t → P u (s.pcs u))
    (u : Thread κ) : P u ((s.goTo t pc).pcs u) :=
  (forall_update_iff _ P).2 ⟨hpc, h⟩ u

omit [DecidableEq κ] in
/-- Only the timers are read anew. -/
theorem updateTimersIfNecessary_eq (s : PolicyRun κ) :
    ∃ timers profiles, s.updateTimersIfNecessary.2 =
      { s with timers := timers, profiles := profiles } := by
  unfold updateTimersIfNecessary
  split_ifs
  · exact ⟨_, _, rfl⟩
  · exact ⟨s.timers, s.profiles, rfl⟩

omit [DecidableEq κ] in
theorem calculateNewPriority_snd (s : PolicyRun κ) :
    s.calculateNewPriority.2 = s.updateTimersIfNecessary.2 := by
  simp only [calculateNewPriority]
  split_ifs <;> rfl

end PolicyRun

/-- Nothing about uploads depends on a thread being at this place. -/
def Pc.calm : Pc → Bool
  | .idle | .resume | .pause | .lockStop | .awaitUploads | .testArrived _ | .testScheduled
  | .restartTimers | .propose _ | .finishUpload _ _ | .reschedule _ | .lockSchedule _ => true
  | _ => false

/-- The checks `scheduleUpload` makes first. -/
def Pc.checks : Pc → Bool
  | .checkDelay _ | .checkCount _ | .checkPaused _ => true
  | _ => false

namespace PolicyRun

variable {κ : Type*} [DecidableEq κ]

/-- **A thread goes on and nothing changes but timers and latencies.** -/
inductive Leads (s : PolicyRun κ) : Pc → Pc → Prop
  | calm {pc pc'} (hfrom : pc.calm) (hto : pc'.calm) : Leads s pc pc'
  | arrives {latency} (hrun : s.isPaused = false)
      (hmax : EventLatency.realTime.toInt < latency.toInt) :
    Leads s (.testArrived latency) (.openUpload (some latency))
  | refuses {pc} (hfrom : pc.checks) : Leads s pc .unlock
  | checkDelay {request} (hdelay : 0 ≤ request.delay) (hrun : s.scheduledUploadAborted = false) :
    Leads s (.checkDelay request) (.checkCount request)
  | checkCount {request} : Leads s (.checkCount request) (.checkPaused request)
  | checkPaused {request} : Leads s (.checkPaused request) (.checkScheduled request)
  | early {request request'} (hdelay : request'.delay = request.delay)
      (hforce : request.force = false) (hflag : s.isUploadScheduled)
      (hearly : (abs64 s.scheduledUploadTime s.now : ℤ) ≤ request.delay) :
    Leads s (.checkScheduled request) (.returns request' s.now)
  | forced {request request'} (hdelay : request'.delay = request.delay)
      (hforce : request.force ∨ request.delay = 0) :
    Leads s (.checkScheduled request) (.cancel (.exchange request' s.now))
  | unforced {request request'} (hdelay : request'.delay = request.delay)
      (hforce : ¬ (request.force ∨ request.delay = 0)) :
    Leads s (.checkScheduled request) (.exchange request' s.now)
  | exchanged {request read} (hflag : s.isUploadScheduled) :
    Leads s (.exchange request read) (.returns request read)
  | beginUpload {latency} : Leads s (.beginUpload latency) .lockUpload
  | testUpload : Leads s .testUpload (.cancel .unlock)

/-- A thread takes `m_scheduledUploadMutex`. -/
inductive Locks : Pc → Pc → Prop
  | stop : Locks .lockStop .abort
  | schedule {request} : Locks (.lockSchedule request) (.checkDelay request)
  | upload : Locks .lockUpload .clearScheduled

/-- A thread gives `m_scheduledUploadMutex` back. -/
inductive Unlocks (s : PolicyRun κ) : Pc → Pc → Prop
  | stop : Unlocks s .unlockStop .awaitUploads
  | returns {request read} : Unlocks s (.returns request read) .idle
  | unlock : Unlocks s .unlock .idle
  | upload (hrun : s.isPaused = false) : Unlocks s .testUpload (.openUpload none)

/-- **What a step of a thread can do.** -/
inductive Moves (s : PolicyRun κ) (t : Thread κ) : PolicyRun κ → Prop
  | waits : Moves s t s
  | goes {pc pc' time delay latency timers profiles} (hpc : s.pcs t = pc) (hleads : Leads s pc pc') :
    Moves s t ({ s with
      scheduledUploadTime := time, timerdelay := delay, runningLatency := latency
      timers := timers, profiles := profiles }.goTo t pc')
  | resumes (hpc : s.pcs t = .resume) :
    Moves s t ({ s with isPaused := false }.goTo t (.reschedule 1000))
  | pauses (hpc : s.pcs t = .pause) : Moves s t ({ s with isPaused := true }.goTo t (.cancel .idle))
  | aborts (hpc : s.pcs t = .abort) :
    Moves s t ({ s with scheduledUploadAborted := true }.goTo t (.cancel .unlockStop))
  | locks {pc pc'} (hpc : s.pcs t = pc) (hlocks : Locks pc pc')
      (hfree : s.scheduledUploadMutex = none) :
    Moves s t ({ s with scheduledUploadMutex := some t }.goTo t pc')
  | unlocks {pc pc'} (hpc : s.pcs t = pc) (hunlocks : Unlocks s pc pc') :
    Moves s t ({ s with scheduledUploadMutex := none }.goTo t pc')
  | opens {latency latency'} (hpc : s.pcs t = .openUpload latency) :
    Moves s t ((s.addUpload latency').goTo t (.initiateUpload s.nextContext))
  | initiates {ctx} (hpc : s.pcs t = .initiateUpload ctx) :
    Moves s t ({ s with initiated := ctx :: s.initiated }.goTo t .idle)
  | finishes {ctx next pc'} (hpc : s.pcs t = .finishUpload ctx next) (hto : pc'.calm) :
    Moves s t ({ s with activeUploads := s.activeUploads.erase ctx }.goTo t pc')
  | exchanges {request read} (hpc : s.pcs t = .exchange request read)
      (hflag : s.isUploadScheduled = false) :
    Moves s t ({ s with
      isUploadScheduled := true
      scheduledUploadTime := s.now + request.delay.toNat
      runningLatency := request.latency }.goTo t (.createTask request))
  | creates {request} (hpc : s.pcs t = .createTask request) :
    Moves s t ({ s with
      dispatcher := s.dispatcher.queueItem (s.uploadTask request)
      nextTask := s.nextTask + 1 }.goTo t (.assign s.nextTask request s.now))
  | assigns {id request read} (hpc : s.pcs t = .assign id request read) :
    Moves s t ({ s with scheduledUpload := some id }.goTo t (.returns request read))
  | clears (hpc : s.pcs t = .clearScheduled) :
    Moves s t ({ s with isUploadScheduled := false }.goTo t .testUpload)
  | cancelsNothing {next} (hpc : s.pcs t = .cancel next) (hhandle : s.scheduledUpload = none) :
    Moves s t (s.goTo t (.cancelled true next))
  | cancelsItself {id next} (hpc : s.pcs t = .cancel next) (hhandle : s.scheduledUpload = some id)
      (hself : t = .worker) (hnoted : s.dispatcher.itemInProgress = some id) :
    Moves s t (s.goTo t (.cancelled true next))
  | cancelsQueued {id next} (hpc : s.pcs t = .cancel next) (hhandle : s.scheduledUpload = some id)
      (hnoted : s.dispatcher.itemInProgress ≠ some id) :
    Moves s t ({ s with
      dispatcher := { s.dispatcher with
        timerQueue := s.dispatcher.timerQueue.eraseP fun item => item.id = id } }.goTo t
          (.cancelled true next))
  | meets {id next k} (hpc : s.pcs t = .cancel next) (hhandle : s.scheduledUpload = some id)
      (hself : t = .caller k) (hnoted : s.dispatcher.itemInProgress = some id) :
    Moves s t ({ s with dispatcher := { s.dispatcher with lock := some k } }.goTo t
      (if s.scheduledUploadAborted then .awaits id next else .decides id next))
  | timesOut {id next} (hpc : s.pcs t = .awaits id next) : Moves s t (s.goTo t (.decides id next))
  | holds {id next k} (hpc : s.pcs t = .awaits id next) (hself : t = .caller k) :
    Moves s t ({ s with dispatcher := s.dispatcher.cancelHold k }.goTo t (.holds id next))
  | takesBack {id next} (hpc : s.pcs t = .holds id next) :
    Moves s t ({ s with dispatcher := s.dispatcher.cancelClear }.goTo t (.decides id next))
  | decides {id next} (hpc : s.pcs t = .decides id next) :
    Moves s t ({ s with dispatcher := { s.dispatcher with lock := none } }.goTo t
      (.cancelled (decide (s.dispatcher.itemInProgress ≠ some id)) next))
  | cancelled {answer next} (hpc : s.pcs t = .cancelled answer next) :
    Moves s t ({ s with
      isUploadScheduled := if answer then false else s.isUploadScheduled }.goTo t (nextPc next))
  | looks {w} (hself : t = .worker) (hpc : s.pcs t = .idle) (hitem : s.item = none)
      (htakes : s.dispatcher.Takes (none, w)) : Moves s t { s with dispatcher := w }
  | takes {item w} (hself : t = .worker) (hpc : s.pcs t = .idle) (hitem : s.item = none)
      (htakes : s.dispatcher.Takes (some item, w)) :
    Moves s t ({ s with dispatcher := w, item := some item }.goTo t .lockExecution)
  | ends {item} (hself : t = .worker) (hpc : s.pcs t = .idle) (hitem : s.item = some item) :
    Moves s t ({ s with dispatcher := s.dispatcher.resetProgress, item := none }.goTo t
      .unlockExecution)
  | locksExecution (hpc : s.pcs t = .lockExecution) :
    Moves s t ({ s with dispatcher := s.dispatcher.lockExecution }.goTo t .testItem)
  | begins (hpc : s.pcs t = .testItem) (hnoted : s.dispatcher.itemInProgress ≠ none) :
    Moves s t (s.goTo t (bodyPc s.item))
  | skips (hpc : s.pcs t = .testItem) (hnoted : s.dispatcher.itemInProgress = none) :
    Moves s t ({ s with item := none }.goTo t .unlockExecution)
  | unlocksExecution (hpc : s.pcs t = .unlockExecution) :
    Moves s t ({ s with dispatcher := s.dispatcher.unlockExecution }.goTo t .idle)

/-- A step of a thread moves no other. -/
theorem Moves.pcs_of_ne {s' : PolicyRun κ} (h : Moves s t s') (hu : u ≠ t) :
    s'.pcs u = s.pcs u := by
  cases h with
  | waits | looks => rfl
  | _ => exact goTo_pcs_of_ne hu

/-- So what holds of its place, and of the places of the others before,
holds of every place. -/
theorem Moves.forall_pcs {s' : PolicyRun κ} {P : Thread κ → Pc → Prop} (h : Moves s t s')
    (ht : P t (s'.pcs t)) (hu : ∀ u, u ≠ t → P u (s.pcs u)) (u : Thread κ) : P u (s'.pcs u) := by
  by_cases hut : u = t
  · exact hut ▸ ht
  · rw [h.pcs_of_ne hut]
    exact hu u hut

variable {s : PolicyRun κ} {t : Thread κ} {pc pc' : Pc}

/-- The timers may be read anew on the way. -/
theorem Moves.timers (hpc : s.pcs t = pc) (hleads : Leads s pc pc') :
    Moves s t (s.updateTimersIfNecessary.2.goTo t pc') := by
  obtain ⟨timers, profiles, heq⟩ := s.updateTimersIfNecessary_eq
  rw [heq]
  exact .goes hpc hleads

/-- And nothing else. -/
theorem Moves.plain (hpc : s.pcs t = pc) (hleads : Leads s pc pc') :
    Moves s t (s.goTo t pc') := .goes hpc hleads

theorem lockThen_moves (hpc : s.pcs t = pc) (hlocks : Locks pc pc') :
    Moves s t (s.lockThen t pc') := by
  unfold lockThen
  split_ifs with hfree
  · exact .locks hpc hlocks hfree
  · exact .waits

omit [DecidableEq κ] in
theorem raised_delay (request : UploadRequest) : (s.raised request).delay = request.delay := by
  unfold raised
  split_ifs <;> rfl

omit [DecidableEq κ] in
theorem raised_force (request : UploadRequest) : (s.raised request).force = request.force := by
  unfold raised
  split_ifs <;> rfl

theorem checkScheduled_moves {request : UploadRequest} (hpc : s.pcs t = .checkScheduled request) :
    Moves s t (s.checkScheduled t request) := by
  obtain ⟨timers, profiles, heq⟩ := s.updateTimersIfNecessary_eq
  unfold checkScheduled
  rw [heq]
  simp only [raised_delay, raised_force]
  split_ifs with hflag hlower hearly hforce hearly hforce hforce
  · exact .goes hpc (.early (raised_delay _) hflag.1 hflag.2 hearly)
  · exact .goes hpc (.forced (raised_delay _) hforce)
  · exact .goes hpc (.unforced (raised_delay _) hforce)
  · exact .goes hpc (.early (raised_delay _) hflag.1 hflag.2 hearly)
  · exact .goes hpc (.forced (raised_delay _) hforce)
  · exact .goes hpc (.unforced (raised_delay _) hforce)
  · exact .goes hpc (.forced (raised_delay _) hforce)
  · exact .goes hpc (.unforced (raised_delay _) hforce)

theorem cancel_moves {next : AfterCancel} (hpc : s.pcs t = .cancel next) :
    Moves s t (s.cancel t next) := by
  unfold cancel
  split
  next hhandle => exact .cancelsNothing hpc hhandle
  next id hhandle =>
    split
    next hlock =>
      by_cases hnoted : s.dispatcher.itemInProgress = some id
      · cases t with
        | worker =>
          simp only [WorkerThread.cancelBegin, hnoted, if_true]
          exact .cancelsItself hpc hhandle rfl hnoted
        | caller k =>
          rw [WorkerThread.cancelBegin_of_noted hnoted]
          exact .meets hpc hhandle rfl hnoted
      · rw [WorkerThread.cancelBegin_of_ne hnoted]
        exact .cancelsQueued hpc hhandle hnoted
    next => exact .waits

theorem workerIdle_moves (hpc : s.pcs .worker = .idle) : Moves s .worker s.workerIdle := by
  unfold workerIdle
  split
  next hitem =>
    split
    next =>
      have htakes := s.dispatcher.takes_takeItem s.now
      generalize s.dispatcher.takeItem s.now = result at htakes
      rcases result with ⟨_ | item, w⟩
      · exact .looks rfl hpc hitem htakes
      · exact .takes rfl hpc hitem htakes
    next => exact .waits
  next item hitem => exact .ends rfl hpc hitem

/-- **The steps of a thread are those.** -/
theorem goOn_moves (s : PolicyRun κ) (t : Thread κ) (timeout : Bool) :
    Moves s t (s.goOn t timeout (s.pcs t)) := by
  cases hpc : s.pcs t with
  | idle =>
    cases t with
    | worker => exact workerIdle_moves hpc
    | caller k => exact .waits
  | resume => exact .resumes hpc
  | pause => exact .pauses hpc
  | lockStop => exact lockThen_moves hpc .stop
  | abort => exact .aborts hpc
  | unlockStop => exact .unlocks hpc .stop
  | awaitUploads =>
    simp only [goOn]
    split_ifs
    · exact .plain hpc (.calm rfl rfl)
    · exact .waits
  | testArrived latency =>
    simp only [goOn]
    split_ifs with hpaused hmax
    · exact .plain hpc (.calm rfl rfl)
    · exact .plain hpc (.arrives (Bool.eq_false_iff.2 hpaused) hmax)
    · exact .plain hpc (.calm rfl rfl)
  | testScheduled =>
    simp only [goOn]
    split_ifs
    · exact .plain hpc (.calm rfl rfl)
    · exact .plain hpc (.calm rfl rfl)
  | restartTimers =>
    obtain ⟨timers, profiles, heq⟩ := s.updateTimersIfNecessary_eq
    simp only [goOn, heq]
    split_ifs
    · exact .goes hpc (.calm rfl rfl)
    · exact .goes hpc (.calm rfl rfl)
  | propose force =>
    simp only [goOn, calculateNewPriority_snd]
    split_ifs
    · exact .timers hpc (.calm rfl rfl)
    · exact .timers hpc (.calm rfl rfl)
  | openUpload latency => exact .opens hpc
  | initiateUpload ctx => exact .initiates hpc
  | finishUpload ctx nextUpload =>
    refine .finishes hpc ?_
    split_ifs <;> rfl
  | reschedule delay =>
    simp only [goOn, calculateNewPriority_snd]
    exact .timers hpc (.calm rfl rfl)
  | lockSchedule request => exact lockThen_moves hpc .schedule
  | checkDelay request =>
    simp only [goOn]
    split_ifs with hrefused
    · exact .plain hpc (.refuses rfl)
    · rw [not_or, not_or, not_lt] at hrefused
      exact .plain hpc (.checkDelay hrefused.1 (Bool.eq_false_iff.2 hrefused.2.2))
  | checkCount request =>
    simp only [goOn]
    split_ifs
    · exact .plain hpc (.refuses rfl)
    · exact .plain hpc .checkCount
  | checkPaused request =>
    simp only [goOn]
    split_ifs
    · exact .plain hpc (.refuses rfl)
    · exact .plain hpc .checkPaused
  | checkScheduled request => exact checkScheduled_moves hpc
  | exchange request read =>
    simp only [goOn]
    split_ifs with hflag
    · exact .plain hpc (.exchanged hflag)
    · exact .exchanges hpc (Bool.eq_false_iff.2 hflag)
  | createTask request =>
    simp only [goOn]
    split_ifs
    · exact .creates hpc
    · exact .waits
  | assign id request read =>
    simp only [goOn]
    split_ifs
    · exact .assigns hpc
    · exact .waits
  | returns request read => exact .unlocks hpc .returns
  | unlock => exact .unlocks hpc .unlock
  | beginUpload latency => exact .goes hpc .beginUpload
  | lockUpload => exact lockThen_moves hpc .upload
  | clearScheduled => exact .clears hpc
  | testUpload =>
    simp only [goOn]
    split_ifs with hstopped
    · exact .plain hpc .testUpload
    · rw [not_or] at hstopped
      exact .unlocks hpc (.upload (Bool.eq_false_iff.2 hstopped.1))
  | cancel next => exact cancel_moves hpc
  | awaits id next =>
    cases t with
    | worker => exact .waits
    | caller k =>
      simp only [goOn, awaits]
      split_ifs
      · exact .timesOut hpc
      · exact .holds hpc rfl
      · exact .waits
  | holds id next => exact .takesBack hpc
  | decides id next => exact .decides hpc
  | cancelled answer next => exact .cancelled hpc
  | lockExecution =>
    simp only [goOn]
    split_ifs
    · exact .locksExecution hpc
    · exact .waits
  | testItem =>
    simp only [goOn]
    split_ifs with hnoted
    · exact .begins hpc hnoted
    · exact .skips hpc (not_not.1 hnoted)
  | unlockExecution => exact .unlocksExecution hpc

/-- **What a step can do.** -/
inductive Steps (s : PolicyRun κ) : PolicyAction κ → PolicyRun κ → Prop
  | stays {a} : Steps s a s
  | calls {t c} (hidle : s.pcs t = .idle) : Steps s (.call t c) (s.goTo t (s.entry c))
  | goes {t timeout s'} (hmoves : Moves s t s') : Steps s (.go t timeout) s'
  | queues {timed targetTime} :
    Steps s (.queueOther timed targetTime) { s with
      dispatcher := s.dispatcher.queueItem (s.otherTask timed targetTime)
      nextTask := s.nextTask + 1 }
  | profiles {p} : Steps s (.profiles p) { s with profiles := p }
  | ticks : Steps s .tick { s with now := s.now + 1 }

/-- **The steps are those.** -/
theorem step_steps (s : PolicyRun κ) (a : PolicyAction κ) : Steps s a (s.step a) := by
  cases a with
  | call t c =>
    simp only [step]
    split_ifs with hcan
    · exact .calls (of_decide_eq_true hcan).1
    · exact .stays
  | go t timeout => exact .goes (s.goOn_moves t timeout)
  | queueOther timed targetTime =>
    simp only [step]
    split_ifs
    · exact .queues
    · exact .stays
  | profiles p => exact .profiles
  | tick => exact .ticks

/-- A thread goes on, `n` times. -/
def goes (t : Thread κ) (n : ℕ) : List (PolicyAction κ) := List.replicate n (.go t false)

end PolicyRun

/-! ## The timers behind a queued task -/

namespace PolicyRun

variable {κ : Type*} (s : PolicyRun κ)

/-- The upload task `scheduleUpload` queues is among the timers. -/
theorem timers_queueItem (request : UploadRequest) :
    ((s.dispatcher.queueItem (s.uploadTask request)).timerQueue.filter
      fun task => task.body.isUpload).Perm
      (s.uploadTask request :: s.dispatcher.timerQueue.filter fun task => task.body.isUpload) :=
  (timerInsert_perm (s.uploadTask request) s.dispatcher.timerQueue).filter
    fun task => task.body.isUpload

/-- A task of another component is no upload. -/
theorem timers_queueOther (timed : Bool) (targetTime : ℕ) :
    ((s.dispatcher.queueItem (s.otherTask timed targetTime)).timerQueue.filter
      fun task => task.body.isUpload).Perm
      (s.dispatcher.timerQueue.filter fun task => task.body.isUpload) := by
  unfold WorkerThread.queueItem
  split_ifs
  · exact (timerInsert_perm (s.otherTask timed targetTime) s.dispatcher.timerQueue).filter
      fun task => task.body.isUpload
  · exact .refl _

end PolicyRun

/-! ## Where the callers are -/

/-- Places that only the worker comes to. -/
def Pc.ofWorker : Pc → Bool
  | .beginUpload _ | .lockUpload | .clearScheduled | .testUpload | .lockExecution | .testItem
  | .unlockExecution => true
  | _ => false

theorem Pc.ofWorker_of_calm {pc : Pc} (h : pc.calm) : pc.ofWorker = false := by
  cases pc <;> first | rfl | cases h

namespace PolicyRun

variable {κ : Type*} [DecidableEq κ] {s : PolicyRun κ} {t : Thread κ} {s' : PolicyRun κ} {pc : Pc}

/-- The callers are at their own places, and what is not timed is not an
upload. -/
abbrev Placed (s : PolicyRun κ) : Prop :=
  (∀ k, (s.pcs (.caller k)).ofWorker = false) ∧ ∀ item ∈ s.dispatcher.queue, item.body = .other

omit [DecidableEq κ] in
theorem Placed.eq_worker (h : Placed s) (hpc : (s.pcs t).ofWorker = true) : t = .worker := by
  cases t with
  | worker => rfl
  | caller k => cases (h.1 k).symm.trans hpc

theorem Placed.goTo (h : Placed s)
    (hpc : pc.ofWorker = true → (s.pcs t).ofWorker = true ∨ t = .worker) : Placed (s.goTo t pc) := by
  refine ⟨fun k => Bool.eq_false_iff.2 fun hworker => ?_, h.2⟩
  refine nomatch goTo_forall (P := fun u pc => pc.ofWorker = true → u = .worker) ?_
    (fun u _ => h.eq_worker) (.caller k) hworker
  exact fun hto => (hpc hto).elim h.eq_worker id

omit [DecidableEq κ] in
theorem Leads.ofWorker {pc' : Pc} (hleads : Leads s pc pc') (h : pc'.ofWorker = true) :
    pc.ofWorker = true := by
  cases hleads with
  | calm _ hto => cases (Pc.ofWorker_of_calm hto).symm.trans h
  | beginUpload => rfl
  | _ => cases h

omit [DecidableEq κ] in
theorem queueItem_plain (h : Placed s) (item : Task TaskBody)
    (hitem : item.type = .timedCall ∨ item.body = .other) :
    ∀ task ∈ (s.dispatcher.queueItem item).queue, task.body = .other := by
  intro task htask
  unfold WorkerThread.queueItem at htask
  split_ifs at htask with htype
  · exact h.2 task htask
  · rcases List.mem_append.1 htask with hin | hlast
    · exact h.2 task hin
    · rw [List.mem_singleton.1 hlast]
      exact hitem.resolve_left htype

theorem Placed.moves (h : Placed s) (hmoves : Moves s t s') : Placed s' := by
  cases hmoves with
  | waits => exact h
  | goes hpc hleads =>
    refine h.goTo fun hto => .inl ?_
    rw [hpc]
    exact hleads.ofWorker hto
  | locks hpc hlocks hfree =>
    refine h.goTo fun hto => .inl ?_
    rw [hpc]
    cases hlocks with
    | upload => rfl
    | _ => cases hto
  | unlocks hpc hunlocks =>
    exact h.goTo fun hto => by cases hunlocks <;> cases hto
  | finishes hpc hto =>
    exact h.goTo fun hworker =>
      nomatch (Pc.ofWorker_of_calm hto).symm.trans hworker
  | @creates request hpc =>
    have hplain := queueItem_plain h (s.uploadTask request) (.inl rfl)
    exact Placed.goTo (s := { s with dispatcher := _ }) ⟨h.1, hplain⟩ nofun
  | clears hpc | locksExecution hpc | begins hpc hnoted | skips hpc hnoted =>
    exact h.goTo fun _ => .inl (by rw [hpc]; rfl)
  | meets hpc hhandle hself hnoted =>
    refine h.goTo fun hto => ?_
    split_ifs at hto <;> cases hto
  | @cancelled answer next hpc =>
    exact h.goTo fun hto => by cases next <;> cases hto
  | looks hself hpc hitem htakes =>
    cases htakes with
    | nothing => exact h
    | forward htimers htarget => exact h
  | takes hself hpc hitem htakes =>
    cases htakes with
    | timer htimers => exact h.goTo fun _ => .inr hself
    | task hqueue =>
      have hplain (item) (hitem : item ∈ _) := h.2 item (hqueue ▸ List.mem_cons_of_mem _ hitem)
      exact Placed.goTo (s := { s with dispatcher := _ }) ⟨h.1, hplain⟩ fun _ => .inr hself
  | ends hself hpc hitem => exact h.goTo fun _ => .inr hself
  | _ => exact h.goTo nofun

theorem Placed.step {a : PolicyAction κ} (h : Placed s) (hsteps : Steps s a s') :
    Placed s' := by
  cases hsteps with
  | stays => exact h
  | @calls t c hidle =>
    refine h.goTo fun hto => ?_
    cases c <;> cases hto
  | goes hmoves => exact h.moves hmoves
  | queues => exact ⟨h.1, queueItem_plain h (s.otherTask _ _) (.inr rfl)⟩
  | profiles | ticks => exact h

omit [DecidableEq κ] in
theorem Placed.initial (maxPendingReq : ℕ) {timers : ℤ × ℤ} :
    Placed (initial maxPendingReq timers : PolicyRun κ) :=
  ⟨fun _ => rfl, fun _ h => nomatch h⟩

end PolicyRun

end ClientTelemetry
