import ClientTelemetry.Tpm.Helpers.Thread
/-!
# What is scheduled, step by step

`scheduleUpload` leaves the task that is scheduled alone unless the call is
forced or asks for no delay: it returns early if that task is soon enough,
and the exchange of the flag finds the flag set if it is not. So a call is
served in time if that task is due in time (`PolicyRun.InOrder`). The flag
of the `Schedule` stands for the task (`Schedule.InTime`), but a
cancellation that does not hold the mutex takes the task away before it
clears the flag; one that overlaps a call is excluded too.
-/

namespace ClientTelemetry

variable {pc : Pc}

open Function List

/-- In the section of `scheduleUpload`. -/
def Pc.scheduling : Pc → Bool
  | .checkDelay _ => true
  | pc => pc.accepted

/-- `Cancel` has begun, and its answer has not taken effect. -/
def Pc.cancelling : Pc → Bool
  | .decides _ _ | .cancelled _ _ => true
  | _ => false

/-- The flag is set although nothing is scheduled: the task has been taken
away, or has not been queued. -/
def Pc.excuses : Pc → Bool
  | .cancelled true _ | .createTask _ => true
  | _ => false

/-- The task has been queued and the handle is the old one. -/
def Pc.assigning : Pc → Bool
  | .assign _ _ _ => true
  | _ => false

theorem Pc.locked_of_scheduling (h : pc.scheduling = true) : pc.locked = true := by
  cases pc <;> first | rfl | exact Pc.locked_of_accepted h

theorem Pc.scheduling_of_assigning (h : pc.assigning = true) : pc.scheduling = true := by
  cases pc <;> first | rfl | cases h

theorem Pc.scheduling_or_cancelling_of_excuses (h : pc.excuses = true) :
    pc.scheduling = true ∨ pc.cancelling = true := by
  cases pc <;> first | exact .inl rfl | exact .inr rfl | cases h

/-- A place that has no part in the scheduling of uploads. -/
def Pc.aside (pc : Pc) : Bool :=
  !pc.cancelling && !pc.excuses && !pc.assigning && !pc.beforeClear && !pc.scheduling

theorem Pc.checks_roles (h : pc.checks) :
    pc.beforeClear = false ∧ pc.excuses = false ∧ pc.assigning = false := by
  cases pc <;> first | exact ⟨rfl, rfl, rfl⟩ | cases h

theorem Pc.aside_of_calm (h : pc.calm) : pc.aside = true := by
  cases pc <;> first | rfl | cases h

/-- **What is scheduled**: the flag, the handle, the upload tasks that wait
and the one the worker has. -/
structure Schedule where
  flag : Bool
  handle : Option ℕ
  pending : List (Task TaskBody)
  taken : List ℕ

namespace Schedule

variable {κ : Type*} {q q' : Schedule} {pcs : Thread κ → Pc} {t u : Thread κ} {pc : Pc}
  {next : AfterCancel} {pending : List (Task TaskBody)} {taken : List ℕ}

/-- The upload tasks that have not cleared the flag. -/
def unserved (q : Schedule) : List ℕ := q.pending.map Task.id ++ q.taken

/-- The upload tasks that wait are due by then. -/
def Timely (q : Schedule) (deadline : ℤ) : Prop :=
  ∀ task ∈ q.pending, (task.targetTime : ℤ) ≤ deadline

/-- **What holds while a thread is at a place.** -/
def At (q : Schedule) : Pc → Prop
  | .exchange request read => q.flag = true → q.Timely (read + request.delay)
  | .createTask _ => q.unserved = [] ∧ q.flag = true
  | .assign id request read => q.unserved = [id] ∧ q.Timely (read + request.delay)
  | .returns request read => q.unserved ≠ [] ∧ q.Timely (read + request.delay)
  | .decides id _ => q.handle = some id ∧ q.pending = []
  | .cancelled true _ => q.unserved = []
  | .cancelled false _ => q.pending = []
  | _ => True

/-- **The flag stands for the task that is scheduled**, and the handle is
its handle. -/
structure InTime (q : Schedule) (pcs : Thread κ → Pc) : Prop where
  places : ∀ t, q.At (pcs t)
  /-- No cancellation overlaps a call of `scheduleUpload`. -/
  apart : ∀ t u, t ≠ u → (pcs t).scheduling = true → (pcs u).cancelling = false
  handle : (∀ t, (pcs t).assigning = false) → ∀ id ∈ q.unserved, q.handle = some id
  single : q.unserved.length ≤ 1
  flagged : q.unserved ≠ [] → q.flag = true
  served : q.flag = true → q.unserved ≠ [] ∨ ∃ t, (pcs t).excuses = true

/-! ## What the places assert -/

/-- The assertions survive when tasks are taken or brought forward. -/
theorem At.mono (h : q.At pc) (hunserved : pending.map Task.id ++ taken = q.unserved)
    (hforward : ∀ task ∈ pending, ∃ old ∈ q.pending, task.targetTime ≤ old.targetTime) :
    At ⟨q.flag, q.handle, pending, taken⟩ pc := by
  have hpending (hnone : q.pending = []) : pending = [] := by
    refine eq_nil_iff_forall_not_mem.2 fun task htask => ?_
    obtain ⟨old, hold, -⟩ := hforward task htask
    rw [hnone] at hold
    cases hold
  have htimely (deadline : ℤ) (hdue : q.Timely deadline) (task : Task TaskBody)
      (htask : task ∈ pending) : (task.targetTime : ℤ) ≤ deadline := by
    obtain ⟨old, hold, hle⟩ := hforward task htask
    have hlate := hdue old hold
    omega
  cases pc with
  | exchange request read => exact fun hset => htimely _ (h hset)
  | createTask request => exact ⟨hunserved.trans h.1, h.2⟩
  | assign id request read => exact ⟨hunserved.trans h.1, htimely _ h.2⟩
  | returns request read => exact ⟨fun hnone => h.1 (hunserved.symm.trans hnone), htimely _ h.2⟩
  | decides id next => exact ⟨h.1, hpending h.2⟩
  | cancelled answer next =>
    cases answer with
    | true => exact hunserved.trans h
    | false => exact hpending h
  | _ => trivial

/-- Outside the section a place asserts what is not there, and the
handle. -/
theorem At.of_not_scheduling (h : q.At pc)
    (hpc : pc.scheduling = false) (hhandle : q'.handle = q.handle)
    (hpending : q.pending = [] → q'.pending = [])
    (hunserved : q.unserved = [] → q'.unserved = []) : q'.At pc := by
  cases pc with
  | exchange request read | createTask request | assign id request read | returns request read =>
    cases hpc
  | decides id next => exact ⟨hhandle.trans h.1, hpending h.2⟩
  | cancelled answer next =>
    cases answer with
    | true => exact hunserved h
    | false => exact hpending h
  | _ => trivial

/-- Outside the section a place asserts something in a cancellation
only. -/
theorem At.of_apart (hscheduling : pc.scheduling = false)
    (hcancelling : pc.cancelling = false) : q.At pc := by
  cases pc <;> trivial

theorem At.of_aside (h : pc.aside = true) : q.At pc := by
  cases pc <;> trivial

/-- Behind a cancellation nothing that waits is late. -/
theorem At.nextPc (next : AfterCancel) (hdue : q.flag = true → ∀ deadline, q.Timely deadline) :
    q.At (PolicyRun.nextPc next) := by
  cases next with
  | exchange request read => exact fun hset => hdue hset _
  | _ => trivial

/-! ## A thread goes on -/

variable (h : q.InTime pcs)
include h

theorem InTime.not_scheduling (ht : (pcs t).cancelling = true) (hut : u ≠ t) :
    (pcs u).scheduling = false := by
  by_contra hscheduling
  cases (h.apart u t hut (Bool.not_eq_false _ ▸ hscheduling)).symm.trans ht

/-- Nobody goes on and what is scheduled stays scheduled. -/
theorem InTime.unmoved (hunserved : pending.map Task.id ++ taken = q.unserved)
    (hforward : ∀ task ∈ pending, ∃ old ∈ q.pending, task.targetTime ≤ old.targetTime) :
    InTime ⟨q.flag, q.handle, pending, taken⟩ pcs where
  places := fun t => (h.places t).mono hunserved hforward
  apart := h.apart
  handle := fun hassigning id hid => h.handle hassigning id (hunserved ▸ hid)
  single := (congrArg length hunserved).trans_le h.single
  flagged := fun hne => h.flagged (hunserved ▸ hne)
  served := fun hset => (h.served hset).imp_left fun hne hnone => hne (hunserved.symm.trans hnone)

/-- There is one task at most, so its place among the timers does not
matter. -/
theorem InTime.unserved_eq {ids : List ℕ} (hperm : ids.Perm q.unserved) : ids = q.unserved := by
  have hsingle := h.single
  generalize q.unserved = ids at hperm hsingle
  rcases ids with _ | ⟨id, _ | ⟨other, rest⟩⟩
  · exact hperm.eq_nil
  · exact perm_singleton.1 hperm
  · simp at hsingle

variable [DecidableEq κ]

/-- A thread goes on: its new place asserts what holds, and so do those of
the others. -/
theorem InTime.of_goTo (hat : q'.At pc) (hothers : ∀ u, u ≠ t → q'.At (pcs u))
    (hscheduling : pc.scheduling = true → ∀ u, u ≠ t → (pcs u).cancelling = false)
    (hcancelling : pc.cancelling = true → ∀ u, u ≠ t → (pcs u).scheduling = false)
    (hhandle : (∀ u, (update pcs t pc u).assigning = false) →
      ∀ id ∈ q'.unserved, q'.handle = some id)
    (hsingle : q'.unserved.length ≤ 1) (hflagged : q'.unserved ≠ [] → q'.flag = true)
    (hserved : q'.flag = true → q'.unserved ≠ [] ∨ ∃ u, (update pcs t pc u).excuses = true) :
    q'.InTime (update pcs t pc) where
  places := (forall_update_iff _ fun _ pc => q'.At pc).2 ⟨hat, hothers⟩
  apart := by
    intro u v huv hu
    by_cases hut : u = t
    · subst hut
      rw [update_self] at hu
      rw [update_of_ne huv.symm]
      exact hscheduling hu v huv.symm
    · rw [update_of_ne hut] at hu
      by_cases hvt : v = t
      · subst hvt
        rw [update_self]
        by_contra hcancels
        cases (hcancelling (Bool.not_eq_false _ ▸ hcancels) u hut).symm.trans hu
      · rw [update_of_ne hvt]
        exact h.apart u v huv hu
  handle := hhandle
  single := hsingle
  flagged := hflagged
  served := hserved

/-- A thread goes on and leaves nothing scheduled, while no other is in the
section. -/
theorem InTime.of_none (hhandle : q'.handle = q.handle) (hnone : q'.unserved = [])
    (hat : q'.At pc) (hout : ∀ u, u ≠ t → (pcs u).scheduling = false)
    (hscheduling : pc.scheduling = true → (pcs t).scheduling = true)
    (hexcuses : q'.flag = true → pc.excuses = true) : q'.InTime (update pcs t pc) := by
  refine h.of_goTo hat (fun u hut => ?_) (fun hto u hut => ?_) (fun _ => hout)
    (fun _ id hid => ?_) ?_ (fun hne => absurd hnone hne) fun hset => .inr ⟨t, ?_⟩
  · have hpending := map_eq_nil_iff.1 (append_eq_nil_iff.1 hnone).1
    exact (h.places u).of_not_scheduling (hout u hut) hhandle (fun _ => hpending) fun _ => hnone
  · exact h.apart t u hut.symm (hscheduling hto)
  · rw [hnone] at hid
    cases hid
  · rw [hnone]
    exact Nat.zero_le 1
  · rw [update_self]
    exact hexcuses hset

/-- A call of `scheduleUpload` goes on with one task scheduled. -/
theorem InTime.of_one {id : ℕ} (hone : q'.unserved = [id]) (hflag : q'.flag = true)
    (hat : q'.At pc) (ht : (pcs t).scheduling = true)
    (hout : ∀ u, u ≠ t → (pcs u).scheduling = false) (hcancelling : pc.cancelling = false)
    (hhandle : pc.assigning = true ∨ q'.handle = some id) : q'.InTime (update pcs t pc) := by
  have hapart (u : Thread κ) (hut : u ≠ t) := h.apart t u hut.symm ht
  refine h.of_goTo hat (fun u hut => .of_apart (hout u hut) (hapart u hut)) (fun _ => hapart)
    (fun hto => nomatch hcancelling.symm.trans hto) (fun hassigning other hother => ?_)
    (congrArg length hone).le (fun _ => hflag) fun _ => .inl ?_
  · rw [hone, mem_singleton] at hother
    have ht' := hassigning t
    rw [update_self] at ht'
    rw [hother]
    exact hhandle.resolve_left fun hto => nomatch ht'.symm.trans hto
  · rw [hone]
    exact cons_ne_nil _ _

/-- A thread goes on and what is scheduled stays scheduled. -/
theorem InTime.keeps (hunserved : pending.map Task.id ++ taken = q.unserved)
    (hforward : ∀ task ∈ pending, ∃ old ∈ q.pending, task.targetTime ≤ old.targetTime)
    (hfrom : (pcs t).excuses = false ∧ (pcs t).assigning = false) (hat : q.At pc)
    (hscheduling : pc.scheduling = true → ∀ u, u ≠ t → (pcs u).cancelling = false)
    (hcancelling : pc.cancelling = true → ∀ u, u ≠ t → (pcs u).scheduling = false) :
    InTime ⟨q.flag, q.handle, pending, taken⟩ (update pcs t pc) := by
  have hkept := h.unmoved hunserved hforward
  refine h.of_goTo (hat.mono hunserved hforward) (fun u _ => hkept.places u) hscheduling hcancelling
    (fun hassigning => hkept.handle fun u => ?_) hkept.single hkept.flagged fun hset =>
      (hkept.served hset).imp_right ?_
  · by_cases hut : u = t
    · rw [hut]
      exact hfrom.2
    · have hu := hassigning u
      rwa [update_of_ne hut] at hu
  · rintro ⟨u, hu⟩
    by_cases hut : u = t
    · subst hut
      cases hfrom.1.symm.trans hu
    · refine ⟨u, ?_⟩
      rwa [update_of_ne hut]

end Schedule

namespace PolicyRun

variable {κ : Type*} [DecidableEq κ] {s : PolicyRun κ} {t u : Thread κ}
  {pc pc' : Pc} {timeout : Bool} {request : UploadRequest} {read id : ℕ} {next : AfterCancel}
  {w : WorkerThread κ TaskBody}

/-- The upload tasks that wait are due by then. -/
def Timely (s : PolicyRun κ) (deadline : ℤ) : Prop :=
  ∀ task ∈ s.pending, (task.targetTime : ℤ) ≤ deadline

def schedule (s : PolicyRun κ) : Schedule :=
  ⟨s.isUploadScheduled, s.scheduledUpload, s.pending, s.taken⟩

/-- **What is scheduled is in time.** -/
abbrev InTime (s : PolicyRun κ) : Prop := s.schedule.InTime s.pcs

/-- The step does not leave a scheduled task that is late, and no
cancellation without the mutex overlaps a call of `scheduleUpload`. -/
def InOrder (s : PolicyRun κ) : PolicyAction κ → Prop
  | .go t _ =>
    (∀ request, s.pcs t = .checkScheduled request → request.force = false →
      (request.delay = 0 → s.scheduledUploadTime = s.now) → s.Timely (s.now + request.delay)) ∧
    (∀ next, s.pcs t = .cancel next → next.locked = false → ∀ u, (s.pcs u).scheduling = false) ∧
    ∀ request, s.pcs t = .lockSchedule request → s.scheduledUploadMutex = none →
      ∀ u, (s.pcs u).cancelling = false
  | _ => True

/-! ## The steps of a call -/

/-- A thread goes on and no task moves. -/
theorem InTime.goTo (h : InTime s) (hpc : s.pcs t = pc) (hworker : pc'.beforeClear = pc.beforeClear)
    (hfrom : pc.excuses = false ∧ pc.assigning = false) (hat : s.schedule.At pc')
    (hscheduling : pc'.scheduling = true → pc.scheduling = true)
    (hcancelling : pc'.cancelling = true → ∀ u, u ≠ t → (s.pcs u).scheduling = false) :
    InTime (s.goTo t pc') := by
  subst hpc
  exact h.keeps (unserved_goTo fun _ => hworker) (fun task htask => ⟨task, htask, le_rfl⟩) hfrom hat
    (fun hto u hut => h.apart t u hut.symm (hscheduling hto)) hcancelling

/-- A thread goes on from one place aside to another. -/
theorem InTime.aside (h : InTime s) (hpc : s.pcs t = pc)
    (hfrom : pc.aside = true) (hto : pc'.aside = true) : InTime (s.goTo t pc') := by
  have hat : s.schedule.At pc' := .of_aside hto
  simp only [Pc.aside, Bool.and_eq_true, Bool.not_eq_true'] at hfrom hto
  obtain ⟨⟨⟨⟨-, hexcuses⟩, hassigning⟩, hbefore⟩, -⟩ := hfrom
  obtain ⟨⟨⟨⟨hcancelling, -⟩, -⟩, hbefore'⟩, hscheduling⟩ := hto
  refine h.goTo hpc (hbefore'.trans hbefore.symm) ⟨hexcuses, hassigning⟩ hat (fun hin => ?_)
    fun hin => ?_
  · cases hscheduling.symm.trans hin
  · cases hcancelling.symm.trans hin

omit [DecidableEq κ] in
/-- Where no call of `scheduleUpload` is under way but that of the thread,
a flag that is set stands for a task. -/
theorem InTime.unserved_ne_nil (h : InTime s) (howned : Owned s)
    (hscheduling : (s.pcs t).scheduling = true) (hpc : (s.pcs t).excuses = false)
    (hflag : s.isUploadScheduled = true) : s.unserved ≠ [] := by
  rcases h.served hflag with hne | ⟨u, hu⟩
  · exact hne
  · have hut : u ≠ t := by
      rintro rfl
      cases hpc.symm.trans hu
    rcases Pc.scheduling_or_cancelling_of_excuses hu with hother | hother
    · have hlocked := Pc.locked_of_scheduling hother
      exact absurd (howned.eq hlocked (Pc.locked_of_scheduling hscheduling)) hut
    · cases (h.apart t u hut.symm hscheduling).symm.trans hother

theorem eq_of_abs64 {a b : ℕ} (h : (abs64 a b : ℤ) ≤ 0) : a = b := by
  unfold abs64 at h
  split_ifs at h <;> omega

/-- A call of `scheduleUpload` goes on. -/
theorem InTime.leads (h : InTime s) (howned : Owned s) (hok : InOrder s (.go t timeout))
    (hpc : s.pcs t = pc) (hleads : Leads s pc pc') : InTime (s.goTo t pc') := by
  cases hleads with
  | calm hfrom hto =>
    exact h.aside hpc (Pc.aside_of_calm hfrom) (Pc.aside_of_calm hto)
  | arrives hrun hmax | testUpload => exact h.aside hpc rfl rfl
  | refuses hfrom =>
    obtain ⟨hbefore, hroles⟩ := Pc.checks_roles hfrom
    exact h.goTo hpc hbefore.symm hroles trivial nofun nofun
  | checkDelay hdelay hrun | checkCount | checkPaused | forced hdelay hforce =>
    exact h.goTo hpc rfl ⟨rfl, rfl⟩ trivial (fun _ => rfl) nofun
  | beginUpload => exact h.goTo hpc rfl ⟨rfl, rfl⟩ trivial nofun nofun
  | @early request request' hdelay hforce hflag hearly =>
    have hne := h.unserved_ne_nil howned (t := t) (hpc ▸ rfl) (hpc ▸ rfl) hflag
    have hdue : s.Timely (s.now + request.delay) := by
      refine hok.1 request hpc hforce fun hzero => ?_
      rw [hzero] at hearly
      exact eq_of_abs64 hearly
    refine h.goTo hpc rfl ⟨rfl, rfl⟩ ⟨hne, ?_⟩ (fun _ => rfl) nofun
    rwa [hdelay]
  | @unforced request request' hdelay hforce =>
    rw [not_or] at hforce
    have hdue : s.Timely (s.now + request.delay) :=
      hok.1 request hpc (Bool.eq_false_iff.2 hforce.1) fun hzero => absurd hzero hforce.2
    refine h.goTo hpc rfl ⟨rfl, rfl⟩ (fun _ => ?_) (fun _ => rfl) nofun
    rwa [hdelay]
  | exchanged hflag =>
    have hne := h.unserved_ne_nil howned (t := t) (hpc ▸ rfl) (hpc ▸ rfl) hflag
    have hdue := h.places t
    rw [hpc] at hdue
    exact h.goTo hpc rfl ⟨rfl, rfl⟩ ⟨hne, hdue hflag⟩ (fun _ => rfl) nofun

/-! ## The steps of a call that schedules -/

omit [DecidableEq κ] in
/-- No other thread is in the section while the thread holds the mutex. -/
theorem Owned.not_scheduling (howned : Owned s) (ht : (s.pcs t).locked = true) (hut : u ≠ t) :
    (s.pcs u).scheduling = false := by
  by_contra hscheduling
  have hlocked := Pc.locked_of_scheduling (Bool.not_eq_false _ ▸ hscheduling)
  exact hut (howned.eq hlocked ht)

/-- The flag is set and the task comes next. -/
theorem InTime.exchanges (h : InTime s) (howned : Owned s) (hpc : s.pcs t = .exchange request read)
    (hflag : s.isUploadScheduled = false) :
    InTime ({ s with isUploadScheduled := true }.goTo t (.createTask request)) := by
  have hnone : s.unserved = [] := by
    by_contra hne
    cases hflag.symm.trans (h.flagged hne)
  have hnone' : (s.goTo t (.createTask request)).unserved = [] :=
    (unserved_goTo fun _ => by rw [hpc]; rfl).trans hnone
  exact h.of_none rfl hnone' ⟨hnone', rfl⟩
    (fun _ => howned.not_scheduling (by rw [hpc]; rfl)) (fun _ => by rw [hpc]; rfl)
    fun _ => rfl

/-- The task is queued. -/
theorem InTime.creates (h : InTime s)
    (howned : Owned s) (hdelay : 0 ≤ request.delay) (hpc : s.pcs t = .createTask request) :
    InTime ({ s with dispatcher := s.dispatcher.queueItem (s.uploadTask request) }.goTo t
      (.assign s.nextTask request s.now)) := by
  have hat := h.places t
  rw [hpc] at hat
  obtain ⟨hnone, hset⟩ := hat
  obtain ⟨hmap, htaken⟩ := append_eq_nil_iff.1 hnone
  have hpending : (s.dispatcher.queueItem (s.uploadTask request)).timerQueue.filter
      (fun task => task.body.isUpload) = [s.uploadTask request] := by
    have hperm := s.timers_queueItem request
    rw [← pending, show s.pending = [] from map_eq_nil_iff.1 hmap] at hperm
    exact perm_singleton.1 hperm
  have hunserved : ({ s with dispatcher := s.dispatcher.queueItem (s.uploadTask request) }.goTo t
      (.assign s.nextTask request s.now)).unserved = [s.nextTask] := by
    rw [unserved, pending]
    refine congrArg₂ (fun tasks ids => tasks.map Task.id ++ ids) hpending (Eq.trans ?_ htaken)
    exact taken_goTo (s := s) fun _ => by rw [hpc]; rfl
  refine h.of_one hunserved hset ⟨hunserved, fun task htask => ?_⟩ (by rw [hpc]; rfl)
    (fun _ => howned.not_scheduling (by rw [hpc]; rfl)) rfl (.inl rfl)
  have htask : task ∈ (s.dispatcher.queueItem (s.uploadTask request)).timerQueue.filter
    (fun task => task.body.isUpload) := htask
  rw [hpending, mem_singleton] at htask
  have hwrap : request.delay.toNat % 2 ^ 32 ≤ request.delay.toNat := Nat.mod_le _ _
  rw [htask, uploadTask]
  push_cast
  omega

/-- The handle is assigned. -/
theorem InTime.assigns (h : InTime s)
    (howned : Owned s) (hpc : s.pcs t = .assign id request read) :
    InTime ({ s with scheduledUpload := some id }.goTo t (.returns request read)) := by
  have hat := h.places t
  rw [hpc] at hat
  obtain ⟨hone, hdue⟩ := hat
  have hunserved : (s.goTo t (.returns request read)).unserved = [id] :=
    (unserved_goTo fun _ => by rw [hpc]; rfl).trans hone
  refine h.of_one hunserved (h.flagged ?_) ⟨fun hnone => ?_, hdue⟩ (by rw [hpc]; rfl)
    (fun _ => howned.not_scheduling (by rw [hpc]; rfl)) rfl (.inr rfl)
  · rw [hone]
    exact cons_ne_nil _ _
  · cases hunserved.symm.trans hnone

/-- The worker clears the flag, in the one task there is. -/
theorem InTime.clears (h : InTime s) (howned : Owned s) (htracked : Tracked s)
    (hself : t = .worker) (hpc : s.pcs t = .clearScheduled) :
    InTime ({ s with isUploadScheduled := false }.goTo t .testUpload) := by
  subst hself
  have hnone : (s.goTo .worker .testUpload).unserved = [] := by
    have htaken := htracked.taken_ne_nil (by rw [hpc]; rfl) (by rw [hpc]; rfl)
    have hsingle : (s.pending.map Task.id ++ s.taken).length ≤ 1 := h.single
    rw [length_append, length_map] at hsingle
    have hpos := length_pos_iff.2 htaken
    have hpending : s.pending = [] := length_eq_zero_iff.1 (by omega)
    rw [unserved, taken_eq_nil (by rw [goTo_pcs_self]; rfl), append_nil]
    exact congrArg (List.map Task.id) hpending
  exact h.of_none rfl hnone trivial
    (fun _ => howned.not_scheduling (by rw [hpc]; rfl)) (by rintro ⟨⟩) (by rintro ⟨⟩)

/-! ## The steps of a cancellation -/

omit [DecidableEq κ] in
/-- **A cancellation overlaps no call of `scheduleUpload` but its own.** -/
theorem InOrder.not_scheduling
    (hok : InOrder s (.go t timeout)) (howned : Owned s) (hpc : s.pcs t = .cancel next)
    (hut : u ≠ t) : (s.pcs u).scheduling = false := by
  cases hlocked : next.locked with
  | false => exact hok.2.1 next hpc hlocked u
  | true => exact howned.not_scheduling (by rw [hpc]; exact hlocked) hut

/-- Then the handle is that of the task. -/
theorem InTime.eq_handle (h : InTime s) (hpc : (s.pcs t).assigning = false)
    (hout : ∀ u, u ≠ t → (s.pcs u).scheduling = false) :
    ∀ id ∈ s.unserved, s.scheduledUpload = some id := by
  refine h.handle fun u => ?_
  by_cases hut : u = t
  · rwa [hut]
  · by_contra hassigning
    have hscheduling := Pc.scheduling_of_assigning (Bool.not_eq_false _ ▸ hassigning)
    cases (hout u hut).symm.trans hscheduling

omit [DecidableEq κ] in
/-- If that task is in progress none waits. -/
theorem Tracked.pending_eq_nil (htracked : Tracked s)
    (heq : ∀ id ∈ s.unserved, s.scheduledUpload = some id) (hhandle : s.scheduledUpload = some id)
    (hnoted : s.dispatcher.itemInProgress = some id) : s.pending = [] := by
  refine eq_nil_iff_forall_not_mem.2 fun task htask => ?_
  have hid := heq task.id (mem_append_left _ (mem_map_of_mem htask))
  exact htracked.not_noted_of_pending htask (hnoted.trans (hhandle.symm.trans hid))

omit [DecidableEq κ] in
/-- If it is not, none has been taken. -/
theorem Tracked.taken_eq_nil_of_ne (htracked : Tracked s)
    (heq : ∀ id ∈ s.unserved, s.scheduledUpload = some id) (hhandle : s.scheduledUpload = some id)
    (hnoted : s.dispatcher.itemInProgress ≠ some id) : s.taken = [] := by
  refine eq_nil_iff_forall_not_mem.2 fun other hother => hnoted ?_
  have hid := heq other (mem_append_right _ hother)
  rw [htracked.noted_of_mem_taken hother, ← hid, hhandle]

omit [DecidableEq κ] in
/-- The task is taken out of the timers. -/
theorem Tracked.filter_eraseP_eq_nil (htracked : Tracked s)
    (heq : ∀ id ∈ s.unserved, s.scheduledUpload = some id) (hhandle : s.scheduledUpload = some id) :
    (s.dispatcher.timerQueue.eraseP fun item => item.id = id).filter
      (fun task => task.body.isUpload) = [] := by
  refine eq_nil_iff_forall_not_mem.2 fun task htask => ?_
  obtain ⟨hleft, hupload⟩ := List.mem_filter.1 htask
  have hpending : task ∈ s.pending := List.mem_filter.2 ⟨mem_of_mem_eraseP hleft, hupload⟩
  have hid : task.id = id := by
    have hsome := heq task.id (mem_append_left _ (mem_map_of_mem hpending))
    exact Option.some.inj (hsome.symm.trans hhandle)
  exact not_mem_eraseP htracked.distinct id (mem_map.2 ⟨task, hleft, hid⟩)

/-- A cancellation that leaves nothing scheduled. -/
theorem InTime.cancels (h : InTime s)
    (hpc : s.pcs t = .cancel next) (hout : ∀ u, u ≠ t → (s.pcs u).scheduling = false)
    (hpending : w.timerQueue.filter (fun task => task.body.isUpload) = []) (htaken : s.taken = []) :
    InTime ({ s with dispatcher := w }.goTo t (.cancelled true next)) := by
  have hnone : ({ s with dispatcher := w }.goTo t (.cancelled true next)).unserved = [] := by
    rw [unserved, pending]
    refine congrArg₂ (fun tasks ids => tasks.map Task.id ++ ids) hpending (Eq.trans ?_ htaken)
    exact taken_goTo (s := s) fun _ => by rw [hpc]; rfl
  exact h.of_none rfl hnone hnone hout (fun hto => by rw [hpc]; exact hto) fun _ => rfl

/-- The lock is taken back and `Cancel` gives its answer. -/
theorem InTime.decides (h : InTime s) (htracked : Tracked s) (hpc : s.pcs t = .decides id next) :
    InTime (s.goTo t (.cancelled (decide (s.dispatcher.itemInProgress ≠ some id)) next)) := by
  have hat := h.places t
  rw [hpc] at hat
  obtain ⟨hhandle, hpending⟩ := hat
  have hout (u : Thread κ) (hut : u ≠ t) : (s.pcs u).scheduling = false :=
    h.not_scheduling (by rw [hpc]; rfl) hut
  refine h.goTo hpc rfl ⟨rfl, rfl⟩ ?_ (fun hto => hto) fun _ => hout
  by_cases hnoted : s.dispatcher.itemInProgress = some id
  · rw [decide_eq_false (not_not.2 hnoted)]
    exact hpending
  · rw [decide_eq_true hnoted]
    have heq := h.eq_handle (t := t) (by rw [hpc]; rfl) hout
    have htaken := htracked.taken_eq_nil_of_ne heq hhandle hnoted
    exact append_eq_nil_iff.2 ⟨map_eq_nil_iff.2 hpending, htaken⟩

section

variable (next : AfterCancel)

theorem scheduling_nextPc : (nextPc next).scheduling = next.scheduling := by
  cases next <;> rfl

theorem beforeClear_nextPc : (nextPc next).beforeClear = false := by
  cases next <;> rfl

end

variable (h : InTime s)
include h

/-- The answer takes effect. -/
theorem InTime.cancelled {answer : Bool} (hpc : s.pcs t = .cancelled answer next) :
    InTime ({ s with
      isUploadScheduled := if answer then false else s.isUploadScheduled }.goTo t
        (nextPc next)) := by
  have hat := h.places t
  rw [hpc] at hat
  have hout (u : Thread κ) (hut : u ≠ t) : (s.pcs u).scheduling = false :=
    h.not_scheduling (by rw [hpc]; rfl) hut
  cases answer with
  | false =>
    refine h.goTo hpc (beforeClear_nextPc next) ⟨rfl, rfl⟩ ?_ (scheduling_nextPc next).symm.trans
      fun _ => hout
    refine .nextPc next fun _ deadline task htask => ?_
    rw [show s.schedule.pending = [] from hat] at htask
    cases htask
  | true =>
    have hnone : (s.goTo t (nextPc next)).unserved = [] := by
      refine (unserved_goTo fun _ => ?_).trans hat
      rw [hpc]
      exact beforeClear_nextPc next
    refine h.of_none rfl hnone (.nextPc next (by rintro ⟨⟩)) hout (fun hto => ?_) (by rintro ⟨⟩)
    rw [hpc]
    exact (scheduling_nextPc next).symm.trans hto

/-! ## The steps of the worker -/

omit [DecidableEq κ] in
theorem InTime.looks
    (htakes : s.dispatcher.Takes (none, w)) : InTime { s with dispatcher := w } := by
  obtain ⟨hids, htargets⟩ := pending_of_looks htakes
  exact h.unmoved (h.unserved_eq (hids.append_right s.taken)) htargets

/-- The worker takes a task. -/
theorem InTime.takes {item : Task TaskBody}
    (hplaced : Placed s) (hpc : s.pcs .worker = .idle)
    (htakes : s.dispatcher.Takes (some item, w)) :
    InTime ({ s with dispatcher := w, item := some item }.goTo .worker .lockExecution) := by
  have hpending : (w.timerQueue.filter fun task => task.body.isUpload).Sublist s.pending := by
    cases htakes with
    | timer htimers =>
      rw [pending, htimers]
      exact (sublist_cons_self _ _).filter _
    | task hqueue => exact .refl _
  exact h.keeps (h.unserved_eq (unserved_takes hplaced hpc htakes))
    (fun task htask => ⟨task, hpending.subset htask, le_rfl⟩) (by rw [hpc]; exact ⟨rfl, rfl⟩) trivial
    (by rintro ⟨⟩) (by rintro ⟨⟩)

/-- The worker is done with a task that has no part in this. -/
theorem InTime.leaves {taken : List ℕ} (htaken : s.taken = []) (htaken' : taken = [])
    (hfrom : (s.pcs .worker).excuses = false ∧ (s.pcs .worker).assigning = false)
    (hto : pc.aside = true) :
    Schedule.InTime ⟨s.isUploadScheduled, s.scheduledUpload, s.pending, taken⟩
      (update s.pcs .worker pc) := by
  have hat : s.schedule.At pc := .of_aside hto
  simp only [Pc.aside, Bool.and_eq_true, Bool.not_eq_true'] at hto
  obtain ⟨⟨⟨⟨hcancelling, -⟩, -⟩, hbefore⟩, hscheduling⟩ := hto
  refine h.keeps ?_ (fun task htask => ⟨task, htask, le_rfl⟩) hfrom hat
    (fun hpc => by cases hscheduling.symm.trans hpc) fun hpc => by cases hcancelling.symm.trans hpc
  exact congrArg (s.pending.map Task.id ++ ·) (htaken'.trans htaken.symm)

theorem InTime.begins (hself : t = .worker) (hpc : s.pcs t = .testItem) :
    InTime (s.goTo t (bodyPc s.item)) := by
  subst hself
  have hidle : (s.goTo .worker .idle).taken = [] := taken_eq_nil (by rw [goTo_pcs_self]; rfl)
  rcases hitem : s.item with _ | ⟨id, type, targetTime, latency | _⟩
  · refine h.leaves ?_ hidle (by rw [hpc]; exact ⟨rfl, rfl⟩) rfl
    simp [taken, hitem]
  · exact h.goTo hpc rfl ⟨rfl, rfl⟩ trivial (by rintro ⟨⟩) (by rintro ⟨⟩)
  · refine h.leaves ?_ hidle (by rw [hpc]; exact ⟨rfl, rfl⟩) rfl
    simp [taken, hitem, TaskBody.isUpload]

end PolicyRun

end ClientTelemetry
