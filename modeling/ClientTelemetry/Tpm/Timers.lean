import ClientTelemetry.Tpm.Helpers.Scheduling
import ClientTelemetry.Tpm.Model.Process
import ClientTelemetry.Tpm.Profiles
/-!
# The timers of the managers

What a step does to the timers of its manager depends on the place of the
thread alone (`goOn_timing`): most places leave them, three fetch them
where the flag is set, and one, in `handleEventArrived`, also takes over
the delay. Timers that are current stay so until the profiles change, since
fetching them again gives the same (`getTimers_getTimers`). Hence an event
finds or makes the timers current if the flag is still set, or if it was
`handleEventArrived` of the same manager that has cleared it.
-/

namespace ClientTelemetry

open Function

/-- What `updateTimersIfNecessary` reads and writes, and the delay. -/
structure Timing where
  profiles : TransmitProfiles
  timers : ℤ × ℤ
  timerdelay : ℤ

namespace TransmitProfiles

variable (s : TransmitProfiles)

theorem entries_ensureDefaultProfiles_ne_nil : s.ensureDefaultProfiles.profiles.entries ≠ [] := by
  unfold ensureDefaultProfiles
  split_ifs with hempty
  · exact (settled_reset s).1.entries_ne_nil
  · exact hempty

theorem ensureDefaultProfiles_of_ne_nil {s : TransmitProfiles} (h : s.profiles.entries ≠ []) :
    s.ensureDefaultProfiles = s := if_neg h

/-- **Timers that are fetched twice are the same.** -/
theorem getTimers_getTimers : s.getTimers.2.getTimers.1 = s.getTimers.1 := by
  have hne := s.entries_ensureDefaultProfiles_ne_nil
  cases htimers : s.ensureDefaultProfiles.currTimers with
  | none =>
    have hget : s.getTimers = ((-1, -1), s.ensureDefaultProfiles) := by
      simp only [getTimers, htimers]
    rw [hget]
    simp only [getTimers, ensureDefaultProfiles_of_ne_nil hne, htimers]
  | some timers =>
    have hget : s.getTimers = (timers, { s.ensureDefaultProfiles with isTimerUpdated := false }) := by
      simp only [getTimers, htimers]
    generalize hread : ({ s.ensureDefaultProfiles with isTimerUpdated := false } :
      TransmitProfiles) = read at hget
    have hsame : read.currTimers = some timers := by rw [← hread]; exact htimers
    have hensured : read.ensureDefaultProfiles = read :=
      ensureDefaultProfiles_of_ne_nil (by rw [← hread]; exact hne)
    rw [hget]
    simp only [getTimers, hensured, hsame]

end TransmitProfiles

namespace Timing

variable (x : Timing)

/-- `updateTimersIfNecessary`. -/
def fetch : Timing :=
  if x.profiles.isTimerUpdateRequired then
    { x with timers := x.profiles.getTimers.1, profiles := x.profiles.getTimers.2 }
  else x

/-- The same in `handleEventArrived`, which takes over the delay. -/
def restart : Timing :=
  if x.profiles.isTimerUpdateRequired then { x.fetch with timerdelay := x.fetch.timers.2 } else x

/-- What a thread does from a place. -/
def after : Pc → Timing
  | .restartTimers => x.restart
  | .propose _ | .reschedule _ | .checkScheduled _ => x.fetch
  | _ => x

/-- **The timers are those of the current rule**, and so is the delay. -/
def Current : Prop := x.timers = x.profiles.getTimers.1 ∧ x.timerdelay = x.timers.2

instance : Decidable x.Current := inferInstanceAs (Decidable (_ ∧ _))

variable {x}

theorem fetch_of_required (h : x.profiles.isTimerUpdateRequired = true) : x.fetch =
    { x with timers := x.profiles.getTimers.1, profiles := x.profiles.getTimers.2 } := if_pos h

/-- Without the flag nothing happens. -/
theorem after_of_not_required (h : ¬x.profiles.isTimerUpdateRequired = true) (pc : Pc) :
    x.after pc = x := by
  have hfetch : x.fetch = x := if_neg h
  have hrestart : x.restart = x := if_neg h
  cases pc <;> first | exact hfetch | exact hrestart | rfl

/-- A fetch does not change what the next one would give. -/
theorem getTimers_after (pc : Pc) :
    (x.after pc).profiles.getTimers.1 = x.profiles.getTimers.1 := by
  by_cases h : x.profiles.isTimerUpdateRequired = true
  · have hfetch : x.fetch.profiles.getTimers.1 = x.profiles.getTimers.1 := by
      rw [fetch_of_required h]
      exact x.profiles.getTimers_getTimers
    have hrestart : x.restart.profiles.getTimers.1 = x.profiles.getTimers.1 := by
      rw [restart, if_pos h]
      exact hfetch
    cases pc <;> first | exact hfetch | exact hrestart | rfl
  · rw [after_of_not_required h]

/-- **With the flag set**, `handleEventArrived` makes the timers current. -/
theorem current_restart (h : x.profiles.isTimerUpdateRequired = true) : x.restart.Current := by
  rw [restart, if_pos h, fetch_of_required h]
  exact ⟨x.profiles.getTimers_getTimers.symm, rfl⟩

theorem Current.fetch (hx : x.Current) : x.fetch.Current := by
  by_cases h : x.profiles.isTimerUpdateRequired = true
  · rw [fetch_of_required h]
    exact ⟨x.profiles.getTimers_getTimers.symm, by rw [hx.2, hx.1]⟩
  · rwa [Timing.fetch, if_neg h]

/-- **Timers that are current stay so**, wherever a thread goes on from. -/
theorem Current.after (hx : x.Current) (pc : Pc) : (x.after pc).Current := by
  have hrestart : x.restart.Current := by
    by_cases h : x.profiles.isTimerUpdateRequired = true
    · exact current_restart h
    · rwa [restart, if_neg h]
  cases pc <;> first | exact hx | exact hx.fetch | exact hrestart

end Timing

namespace PolicyRun

variable {κ : Type*} [DecidableEq κ] {s : PolicyRun κ} {t : Thread κ} {latency : EventLatency}

def timing (s : PolicyRun κ) : Timing := ⟨s.profiles, s.timers, s.timerdelay⟩

omit [DecidableEq κ] in
theorem timing_ite {p : Prop} [Decidable p] {a b : PolicyRun κ} {x : Timing} (ha : a.timing = x)
    (hb : b.timing = x) : (if p then a else b).timing = x := by
  split_ifs
  · exact ha
  · exact hb

omit [DecidableEq κ] in
theorem timing_updateTimersIfNecessary : s.updateTimersIfNecessary.2.timing = s.timing.fetch := by
  unfold updateTimersIfNecessary Timing.fetch
  by_cases h : s.profiles.isTimerUpdateRequired = true
  · rw [if_pos h, if_pos (show s.timing.profiles.isTimerUpdateRequired = true from h)]
    rfl
  · rw [if_neg h, if_neg (show ¬s.timing.profiles.isTimerUpdateRequired = true from h)]

omit [DecidableEq κ] in
theorem timing_calculateNewPriority : s.calculateNewPriority.2.timing = s.timing.fetch := by
  rw [← timing_updateTimersIfNecessary]
  unfold calculateNewPriority
  generalize s.updateTimersIfNecessary.2 = s'
  simp only
  split_ifs <;> rfl

theorem timing_lockThen (pc : Pc) : (s.lockThen t pc).timing = s.timing := timing_ite rfl rfl

theorem timing_checkScheduled (request : UploadRequest) :
    (s.checkScheduled t request).timing = s.timing.fetch := by
  rw [← timing_updateTimersIfNecessary]
  unfold checkScheduled
  generalize s.updateTimersIfNecessary.2 = s'
  refine timing_ite ?_ rfl
  have hlowered : (if (s'.raised request).latency.toInt < s'.runningLatency.toInt then
      { s' with runningLatency := (s'.raised request).latency } else s').timing = s'.timing :=
    timing_ite rfl rfl
  exact timing_ite hlowered hlowered

theorem timing_cancel (next : AfterCancel) : (s.cancel t next).timing = s.timing := by
  unfold cancel
  cases s.scheduledUpload with
  | none => rfl
  | some id =>
    refine timing_ite ?_ rfl
    rcases s.dispatcher.cancelBegin t (some id) with ⟨_ | answer, w⟩
    · rfl
    · rfl

theorem timing_awaits (id : ℕ) (next : AfterCancel) (timeout : Bool) :
    (s.awaits id next timeout t).timing = s.timing := by
  cases t with
  | worker => rfl
  | caller k => exact timing_ite rfl (timing_ite rfl rfl)

theorem timing_workerIdle : s.workerIdle.timing = s.timing := by
  unfold workerIdle
  cases s.item with
  | none =>
    refine timing_ite ?_ rfl
    rcases s.dispatcher.takeItem s.now with ⟨_ | item, w⟩
    · rfl
    · rfl
  | some item => rfl

theorem timing_restartTimers {timeout : Bool} :
    (s.goOn t timeout .restartTimers).timing = s.timing.restart := by
  unfold goOn Timing.restart
  rw [← timing_updateTimersIfNecessary]
  unfold updateTimersIfNecessary
  by_cases h : s.profiles.isTimerUpdateRequired = true
  · rw [if_pos h, if_pos (show s.timing.profiles.isTimerUpdateRequired = true from h)]
    rfl
  · rw [if_neg h, if_neg (show ¬s.timing.profiles.isTimerUpdateRequired = true from h)]
    rfl

/-- **What a step does to the timers.** -/
theorem goOn_timing (timeout : Bool) (pc : Pc) :
    (s.goOn t timeout pc).timing = s.timing.after pc := by
  cases pc with
  | restartTimers => exact timing_restartTimers
  | propose force =>
    rw [Timing.after, ← timing_calculateNewPriority]
    exact timing_ite rfl rfl
  | reschedule delay => exact timing_calculateNewPriority
  | checkScheduled request => exact timing_checkScheduled request
  | idle =>
    cases t with
    | worker => exact timing_workerIdle
    | caller k => rfl
  | lockStop | lockSchedule request | lockUpload => exact timing_lockThen _
  | cancel next => exact timing_cancel next
  | awaits id next => exact timing_awaits id next timeout
  | testArrived latency => exact timing_ite rfl (timing_ite rfl rfl)
  | awaitUploads | testScheduled | checkDelay _ | checkCount _ | checkPaused _ | exchange _ _
  | createTask _ | assign _ _ _ | testUpload | lockExecution | testItem =>
    exact timing_ite rfl rfl
  | _ => rfl

/-- A thread alone in the manager. -/
def thread (t : Thread κ) (timeouts : List Bool) : List (PolicyAction κ) :=
  timeouts.map (.go t)

theorem Current.run (h : s.timing.Current) (timeouts : List Bool) :
    (run step s (thread t timeouts)).timing.Current := by
  induction timeouts generalizing s with
  | nil => exact h
  | cons timeout timeouts ih =>
    refine ih ?_
    rw [step, goOn_timing]
    exact h.after _

theorem timing_run_of_not_required (h : ¬s.profiles.isTimerUpdateRequired = true)
    (timeouts : List Bool) : (run step s (thread t timeouts)).timing = s.timing := by
  induction timeouts generalizing s with
  | nil => rfl
  | cons timeout timeouts ih =>
    have hsame : (s.step (.go t timeout)).timing = s.timing := by
      rw [step, goOn_timing, Timing.after_of_not_required h]
    refine (ih ?_).trans hsame
    rwa [show (s.step (.go t timeout)).profiles = s.profiles from congrArg Timing.profiles hsame]

/-- **An event comes to the timers** in three steps. -/
theorem timing_arrived (hcall : s.canCall t = true)
    (hpaused : s.isPaused = false) (hscheduled : s.isUploadScheduled = false)
    (hlatency : latency.toInt ≤ EventLatency.realTime.toInt) (b₁ b₂ b₃ : Bool) :
    (run step s (.call t (.handleEventArrived latency) :: thread t [b₁, b₂, b₃])).timing =
      s.timing.restart := by
  have hentry : s.step (.call t (.handleEventArrived latency)) = s.goTo t (.testArrived latency) := by
    rw [step, if_pos hcall]
    rfl
  have htest : ((s.goTo t (.testArrived latency)).step (.go t b₁)) =
      (s.goTo t (.testArrived latency)).goTo t .testScheduled := by
    rw [step, goTo_pcs_self, goOn, show (s.goTo t (.testArrived latency)).isPaused = false from hpaused,
      if_neg Bool.false_ne_true, if_neg (not_lt.2 hlatency)]
  have hnone : ((s.goTo t (.testArrived latency)).goTo t .testScheduled).step (.go t b₂) =
      ((s.goTo t (.testArrived latency)).goTo t .testScheduled).goTo t .restartTimers := by
    rw [step, goTo_pcs_self, goOn, if_pos (.inl hscheduled)]
  rw [run_cons, hentry, thread, List.map_cons, run_cons, htest, List.map_cons, run_cons, hnone,
    List.map_cons, run_cons, step, goTo_pcs_self]
  exact goOn_timing b₃ .restartTimers

/-- **The timers after an event**: they are current if and only if the
flag was set or they were. -/
theorem current_arrived_iff (hcall : s.canCall t = true)
    (hpaused : s.isPaused = false) (hscheduled : s.isUploadScheduled = false)
    (hlatency : latency.toInt ≤ EventLatency.realTime.toInt) {timeouts : List Bool}
    (hsteps : 3 ≤ timeouts.length) :
    (run step s (.call t (.handleEventArrived latency) :: thread t timeouts)).timing.Current ↔
      s.profiles.isTimerUpdateRequired = true ∨ s.timing.Current := by
  match timeouts, hsteps with
  | b₁ :: b₂ :: b₃ :: rest, _ =>
    have hsplit : (.call t (.handleEventArrived latency) :: thread t (b₁ :: b₂ :: b₃ :: rest)) =
        (.call t (.handleEventArrived latency) :: thread t [b₁, b₂, b₃]) ++ thread t rest := rfl
    have harrived := timing_arrived hcall hpaused hscheduled hlatency b₁ b₂ b₃
    rw [hsplit, run_append]
    generalize run step s (.call t (.handleEventArrived latency) :: thread t [b₁, b₂, b₃]) = s'
      at harrived
    by_cases h : s.profiles.isTimerUpdateRequired = true
    · refine iff_of_true (Current.run ?_ rest) (.inl h)
      rw [harrived]
      exact Timing.current_restart h
    · have hsame : s'.timing = s.timing := harrived.trans (if_neg h)
      rw [timing_run_of_not_required ?_ rest, hsame]
      · exact (or_iff_right h).symm
      · rwa [show s'.profiles = s.profiles from congrArg Timing.profiles hsame]

end PolicyRun

/-! ## The managers of a process -/

namespace Process

variable {ι κ : Type*} [DecidableEq ι] [DecidableEq κ] {s : Process ι κ} {lib : JsonLibrary}
  {i j : ι} {a : PolicyAction κ} {t : Thread κ}

/-- The timing of a manager. -/
def timing (s : Process ι κ) (i : ι) : Timing := (s.view i).timing

/-- **The timers of a manager are those of the current rule** of the
current profile, and its delay is the second of them. -/
def Current (s : Process ι κ) (i : ι) : Prop :=
  (s.instances i).timers = s.profiles.getTimers.1 ∧
    (s.instances i).timerdelay = (s.instances i).timers.2

instance (s : Process ι κ) (i : ι) : Decidable (s.Current i) :=
  inferInstanceAs (Decidable (_ ∧ _))

theorem view_onInstance (i : ι) (a : PolicyAction κ) :
    (s.onInstance i a).view i = (s.view i).step a := by
  have hself : (s.onInstance i a).instances i = (s.view i).step a := update_self ..
  rw [view, hself]
  rfl

/-- A manager whose step leaves the common profiles with the same timers
disturbs no other. -/
theorem Current.onInstance
    (hkept : (s.view j).timing.Current → ((s.view j).step a).timing.Current)
    (hprofiles : ((s.view j).step a).timing.profiles.getTimers.1 = s.profiles.getTimers.1)
    (h : s.Current i) : (s.onInstance j a).Current i := by
  by_cases hij : i = j
  · subst hij
    have hcurrent : ((s.onInstance i a).view i).timing.Current := by
      rw [view_onInstance]
      exact hkept h
    exact hcurrent
  · have hother : (s.onInstance j a).instances i = s.instances i := update_of_ne hij ..
    rw [Current, hother]
    exact ⟨h.1.trans hprofiles.symm, h.2⟩

/-- **A step of a manager keeps every manager current.** -/
theorem Current.onInstance_go {timeout : Bool} (h : s.Current i) :
    (s.onInstance j (.go t timeout)).Current i := by
  have htiming : ((s.view j).step (.go t timeout)).timing =
      (s.view j).timing.after ((s.view j).pcs t) := PolicyRun.goOn_timing timeout _
  refine h.onInstance (fun hj => ?_) ?_
  · rw [htiming]
    exact hj.after _
  · rw [htiming]
    exact Timing.getTimers_after _

/-- A step that is not of a thread in the manager leaves all timers. -/
theorem Current.onInstance_of_eq
    (htiming : ((s.view j).step a).timing = (s.view j).timing) (h : s.Current i) :
    (s.onInstance j a).Current i := by
  refine h.onInstance (fun hj => htiming ▸ hj) ?_
  rw [htiming]
  rfl

/-- The invariant: who has heard of the last change is current. -/
def Heard (s : Process ι κ) : Prop := ∀ i, s.heard i = true → s.Current i

theorem Heard.step (h : s.Heard) (a : ProcessAction ι κ) : (s.step lib a).Heard := by
  intro i hi
  cases a with
  | call j t c => exact Current.onInstance_of_eq (PolicyRun.timing_ite rfl rfl) (h i hi)
  | queueOther j timed targetTime =>
    exact Current.onInstance_of_eq (PolicyRun.timing_ite rfl rfl) (h i hi)
  | tick => exact h i hi
  | profile c =>
    by_cases hc : c = .getTimers
    · subst hc
      have hbefore := h i hi
      exact ⟨hbefore.1.trans s.profiles.getTimers_getTimers.symm, hbefore.2⟩
    · simp only [Process.step, if_neg hc] at hi
      cases hi
  | go j t timeout =>
    by_cases hhears : s.hears j t = true
    · by_cases hij : i = j
      · -- the manager fetches the timers itself
        subst hij
        simp only [hears, Bool.and_eq_true, decide_eq_true_eq] at hhears
        have hcurrent : ((s.onInstance i (.go t timeout)).view i).timing.Current := by
          rw [view_onInstance, PolicyRun.step, show (s.view i).pcs t = .restartTimers from hhears.2,
            PolicyRun.goOn_timing]
          exact Timing.current_restart hhears.1
        exact hcurrent
      · simp only [Process.step, if_pos hhears, update_of_ne hij] at hi
        exact (h i hi).onInstance_go
    · simp only [Process.step, if_neg hhears] at hi
      exact (h i hi).onInstance_go

/-- A thread of a manager, alone. -/
theorem view_run (timeouts : List Bool) : (run (step lib) s (timeouts.map (.go i t))).view i =
      run PolicyRun.step (s.view i) (PolicyRun.thread t timeouts) := by
  induction timeouts generalizing s with
  | nil => rfl
  | cons timeout timeouts ih =>
    rw [List.map_cons, run_cons, ih]
    exact congrArg (run PolicyRun.step · (PolicyRun.thread t timeouts)) (view_onInstance i _)

/-- **When the timers follow the profile.** For every run of any managers
with their threads, of calls and of changes of the profiles and the device:
let an event of latency at most `RealTime` arrive at a manager that is not
paused and has no upload scheduled. From the third step of its thread on,
and so when the call has returned, the timers of the manager are those of
the current rule and its delay is the second of them, if the flag was set
when the event arrived or `handleEventArrived` of this manager has found it
set since the last change; and they are exactly if the flag was set or they
were so already. -/
theorem timers_follow_profile (lib : JsonLibrary) (maxPendingReq : ι → ℕ) {timers : ι → ℤ × ℤ}
    (as : List (ProcessAction ι κ)) (i : ι) (t : Thread κ) (latency : EventLatency)
    (timeouts : List Bool) :
    let s := run (step lib) (initial maxPendingReq timers) as
    let s' := run (step lib) s (.call i t (.handleEventArrived latency) :: timeouts.map (.go i t))
    (s.instances i).canCall t = true → (s.instances i).isPaused = false →
    (s.instances i).isUploadScheduled = false →
    latency.toInt ≤ EventLatency.realTime.toInt → 3 ≤ timeouts.length →
    (s.profiles.isTimerUpdateRequired = true ∨ s.heard i = true → s'.Current i) ∧
      (s'.Current i ↔ s.profiles.isTimerUpdateRequired = true ∨ s.Current i) := by
  intro s s' hcall hpaused hscheduled hlatency hsteps
  have hview : s'.view i = run PolicyRun.step (s.view i)
      (.call t (.handleEventArrived latency) :: PolicyRun.thread t timeouts) := by
    rw [run_cons, ← view_onInstance]
    exact view_run timeouts
  have hiff : s'.Current i ↔ s.profiles.isTimerUpdateRequired = true ∨ s.Current i := by
    have hcurrent : (s'.view i).timing.Current ↔
        (s.view i).profiles.isTimerUpdateRequired = true ∨ (s.view i).timing.Current := by
      rw [hview]
      exact PolicyRun.current_arrived_iff (s := s.view i) hcall hpaused hscheduled hlatency hsteps
    exact hcurrent
  have hheard : s.Heard := run_preserves (fun s a h => h.step a) (fun _ => nofun) as
  exact ⟨fun h => hiff.2 (h.imp_right (hheard i)), hiff⟩

/-- A library that reads nothing; no text is loaded here. -/
def noJson : JsonLibrary := ⟨fun _ => none, fun _ => 0⟩

/-- A thread of a manager takes some steps. -/
def goes (i : Bool) (t : Thread Unit) (n : ℕ) : List (ProcessAction Bool Unit) :=
  (List.replicate n false).map (.go i t)

/-- A manager is started and asked for an upload at once, which its worker
starts. -/
def uploaded (i : Bool) : List (ProcessAction Bool Unit) :=
  .call i (.caller ()) .handleStart :: goes i (.caller ()) 11 ++
    .call i (.caller ()) (.scheduleUpload ⟨0, .normal, false⟩) :: goes i (.caller ()) 11 ++
    goes i .worker 9

/-- An event arrives. -/
def arrives (i : Bool) : List (ProcessAction Bool Unit) :=
  .call i (.caller ()) (.handleEventArrived .normal) :: goes i (.caller ()) 16

/-- The device is on a free network and on the charger when the first
manager is started. -/
def oneUploaded : List (ProcessAction Bool Unit) :=
  .profile .reset :: .profile (.updateStates .unmetered .charging) :: uploaded false

/-- Both managers are started, and then the network is a metered one. -/
def metered : List (ProcessAction Bool Unit) :=
  oneUploaded ++ uploaded true ++ [.profile (.updateStates .metered .charging)]

theorem timers_follow_profile_metered :
    (run (step noJson) (initial fun _ => 4) metered).profiles.isTimerUpdateRequired = true ∧
      (run (step noJson) (run (step noJson) (initial fun _ => 4) metered) (arrives false)).Current
        false := by
  have hflag : (run (step noJson) (initial fun _ => 4) metered).profiles.isTimerUpdateRequired =
      true := by decide +kernel
  refine ⟨hflag, (timers_follow_profile noJson (fun _ => 4) metered false (.caller ()) .normal
    (List.replicate 16 false) ?_ ?_ ?_ ?_ ?_).1 (.inl hflag)⟩
  all_goals decide +kernel

/-- **Timers that do not follow.** The flag of the first rule is cleared by
`handleStart`, which does not take over the delay. The flag of the second
is cleared by an event at the other manager, and this one keeps timers it
has never fetched. -/
theorem timers_stay_behind :
    let s₁ : Process Bool Unit := run (step noJson) (initial fun _ => 4) oneUploaded
    let s₂ : Process Bool Unit :=
      run (step noJson) (initial fun _ => 4) (metered ++ arrives false)
    ((s₁.instances false).canCall (.caller ()) = true ∧ (s₁.instances false).isPaused = false ∧
      (s₁.instances false).isUploadScheduled = false ∧
      ((run (step noJson) s₁ (arrives false)).instances false).pcs (.caller ()) = .idle ∧
      ((run (step noJson) s₁ (arrives false)).instances false).timers = (4000, 1000) ∧
      ((run (step noJson) s₁ (arrives false)).instances false).timerdelay = 2000) ∧
    ((s₂.instances true).canCall (.caller ()) = true ∧ (s₂.instances true).isPaused = false ∧
      (s₂.instances true).isUploadScheduled = false ∧
      ((run (step noJson) s₂ (arrives true)).instances true).pcs (.caller ()) = .idle ∧
      ((run (step noJson) s₂ (arrives true)).instances true).timers = (0, 0) ∧
      (run (step noJson) s₂ (arrives true)).profiles.getTimers.1 = (12000, 3000)) := by
  decide +kernel

end Process

end ClientTelemetry
