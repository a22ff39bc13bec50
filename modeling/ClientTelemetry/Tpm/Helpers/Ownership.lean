import ClientTelemetry.Tpm.Helpers.Scheduling
/-!
# Who holds the mutex of the scheduled upload

A thread at a place between the lock and the unlock holds
`m_scheduledUploadMutex`, so there is at most one. And a call of
`scheduleUpload` that has found `m_scheduledUploadAborted` unset keeps it
so, as a stop sets it under the same mutex. The delay it goes on with is
not negative. Nobody waits in `Cancel` before a stop.
-/

namespace ClientTelemetry

variable {pc : Pc}

open Function

/-- The mutex is held while the upload task is cancelled. -/
def AfterCancel.locked : AfterCancel → Bool
  | .unlockStop | .unlock | .exchange _ _ => true
  | .idle | .awaitUploads => false

/-- A call of `scheduleUpload` cancels the upload task. -/
def AfterCancel.scheduling : AfterCancel → Bool
  | .exchange _ _ => true
  | _ => false

/-- The mutex is held at this place. -/
def Pc.locked : Pc → Bool
  | .abort | .unlockStop | .checkDelay _ | .checkCount _ | .checkPaused _ | .checkScheduled _
  | .exchange _ _ | .createTask _ | .assign _ _ _ | .returns _ _ | .unlock | .clearScheduled
  | .testUpload => true
  | .cancel next | .awaits _ next | .holds _ next | .decides _ next | .cancelled _ next =>
    next.locked
  | _ => false

/-- A call of `scheduleUpload` that has found the manager not aborted. -/
def Pc.accepted : Pc → Bool
  | .checkCount _ | .checkPaused _ | .checkScheduled _ | .exchange _ _ | .createTask _
  | .assign _ _ _ | .returns _ _ => true
  | .cancel next | .awaits _ next | .holds _ next | .decides _ next | .cancelled _ next =>
    next.scheduling
  | _ => false

/-- The delay a call goes on with behind a cancellation is not
negative. -/
def AfterCancel.Nonneg : AfterCancel → Prop
  | .exchange request _ => 0 ≤ request.delay
  | _ => True

/-- The delay a call goes on with is not negative. -/
def Pc.Nonneg : Pc → Prop
  | .checkCount request | .checkPaused request | .checkScheduled request | .exchange request _
  | .createTask request | .assign _ request _ | .returns request _ => 0 ≤ request.delay
  | .cancel next | .awaits _ next | .holds _ next | .decides _ next | .cancelled _ next =>
    next.Nonneg
  | _ => True

theorem Pc.nonneg_of_calm (h : pc.calm) : pc.Nonneg := by
  cases pc <;> trivial

/-- In the wait of `Cancel`, or behind it with the execution mutex. -/
def Pc.waits : Pc → Bool
  | .awaits _ _ | .holds _ _ => true
  | _ => false

theorem Pc.waits_of_calm (h : pc.calm) : pc.waits = false := by
  cases pc <;> first | rfl | cases h

theorem Pc.locked_of_calm (h : pc.calm) : pc.locked = false := by
  cases pc <;> first | rfl | cases h

theorem Pc.locked_of_checks (h : pc.checks) : pc.locked = true := by
  cases pc <;> first | rfl | cases h

theorem AfterCancel.locked_of_scheduling {next : AfterCancel} (h : next.scheduling = true) :
    next.locked = true := by
  cases next <;> first | rfl | cases h

theorem Pc.locked_of_accepted (h : pc.accepted = true) : pc.locked = true := by
  cases pc <;> first | rfl | exact AfterCancel.locked_of_scheduling h | cases h

namespace PolicyRun

variable {κ : Type*} [DecidableEq κ] {s : PolicyRun κ} {t u : Thread κ} {s' : PolicyRun κ}
  {pc pc' : Pc} {a : PolicyAction κ}

theorem locked_nextPc (next : AfterCancel) : (nextPc next).locked = next.locked := by
  cases next <;> rfl

theorem accepted_nextPc (next : AfterCancel) : (nextPc next).accepted = next.scheduling := by
  cases next <;> rfl

/-- **Who is between the lock and the unlock holds the mutex.** -/
abbrev Owned (s : PolicyRun κ) : Prop :=
  (∀ t, (s.pcs t).locked = true → s.scheduledUploadMutex = some t) ∧
    ∀ t, (s.pcs t).accepted = true → s.scheduledUploadAborted = false

section

variable (h : Owned s)
include h

omit [DecidableEq κ] in
/-- **Only one thread is.** -/
theorem Owned.eq (ht : (s.pcs t).locked = true) (hu : (s.pcs u).locked = true) :
    t = u :=
  Option.some.inj ((h.1 t ht).symm.trans (h.1 u hu))

/-- A thread goes on without taking the mutex or giving it back. -/
theorem Owned.goTo (hlocked : pc.locked = true → (s.pcs t).locked = true)
    (haccepted : pc.accepted = true → s.scheduledUploadAborted = false) : Owned (s.goTo t pc) :=
  ⟨goTo_forall (P := fun u pc => pc.locked = true → s.scheduledUploadMutex = some u)
    (fun hto => h.1 t (hlocked hto)) fun u _ => h.1 u,
   goTo_forall (P := fun _ pc => pc.accepted = true → s.scheduledUploadAborted = false)
    haccepted fun u _ => h.2 u⟩

/-- A thread goes on to a place of the same kind. -/
theorem Owned.stays (hpc : s.pcs t = pc) (hlocked : pc'.locked = true → pc.locked = true)
    (haccepted : pc'.accepted = true → pc.accepted = true) : Owned (s.goTo t pc') := by
  subst hpc
  exact h.goTo hlocked fun hto => h.2 t (haccepted hto)

theorem Owned.locks (hlocks : Locks pc pc') (hfree : s.scheduledUploadMutex = none) :
    Owned ({ s with scheduledUploadMutex := some t }.goTo t pc') := by
  constructor
  · exact goTo_forall (P := fun u pc => pc.locked = true → some t = some u) (fun _ => rfl)
      fun u _ hu => nomatch hfree.symm.trans (h.1 u hu)
  · exact goTo_forall (P := fun _ pc => pc.accepted = true → s.scheduledUploadAborted = false)
      (fun hto => by cases hlocks <;> exact nomatch hto) fun u _ => h.2 u

theorem Owned.unlocks (hpc : s.pcs t = pc) (hunlocks : Unlocks s pc pc') :
    Owned ({ s with scheduledUploadMutex := none }.goTo t pc') := by
  have ht : (s.pcs t).locked = true := by
    rw [hpc]
    cases hunlocks <;> rfl
  have hto : pc'.locked = false := by cases hunlocks <;> rfl
  constructor
  · exact goTo_forall (P := fun u pc => pc.locked = true → none = some u)
      (fun hlocked => nomatch hto.symm.trans hlocked) fun u hut hu => absurd (h.eq hu ht) hut
  · exact goTo_forall (P := fun _ pc => pc.accepted = true → s.scheduledUploadAborted = false)
      (fun haccepted => nomatch hto.symm.trans (Pc.locked_of_accepted haccepted)) fun u _ => h.2 u

/-- A stop sets the flag while no call of `scheduleUpload` has tested
it. -/
theorem Owned.aborts (hpc : s.pcs t = .abort) :
    Owned ({ s with scheduledUploadAborted := true }.goTo t (.cancel .unlockStop)) := by
  have ht : (s.pcs t).locked = true := by rw [hpc]; rfl
  constructor
  · exact goTo_forall (P := fun u pc => pc.locked = true → s.scheduledUploadMutex = some u)
      (fun _ => h.1 t ht) fun u _ => h.1 u
  · exact goTo_forall (P := fun _ pc => pc.accepted = true → true = false) nofun
      fun u hut hu => absurd (h.eq (Pc.locked_of_accepted hu) ht) hut

theorem Owned.moves (hmoves : Moves s t s') : Owned s' := by
  cases hmoves with
  | waits => exact h
  | goes hpc hleads =>
    cases hleads with
    | calm hfrom hto =>
      have hlocked := Pc.locked_of_calm hto
      exact h.stays hpc (fun h => nomatch hlocked.symm.trans h)
        fun h => nomatch hlocked.symm.trans (Pc.locked_of_accepted h)
    | refuses hfrom => exact h.stays hpc (fun _ => Pc.locked_of_checks hfrom) nofun
    | checkDelay hdelay hrun =>
      exact h.goTo (fun _ => by rw [hpc]; rfl) fun _ => hrun
    | arrives hrun hmax | beginUpload => exact h.stays hpc nofun nofun
    | testUpload => exact h.stays hpc (fun _ => rfl) nofun
    | _ => exact h.stays hpc (fun _ => rfl) fun _ => rfl
  | aborts hpc => exact h.aborts hpc
  | locks hpc hlocks hfree => exact h.locks hlocks hfree
  | unlocks hpc hunlocks => exact h.unlocks hpc hunlocks
  | finishes hpc hto =>
    have hlocked := Pc.locked_of_calm hto
    exact h.stays hpc (fun h => nomatch hlocked.symm.trans h)
      fun h => nomatch hlocked.symm.trans (Pc.locked_of_accepted h)
  | exchanges hpc hflag | creates hpc | assigns hpc =>
    exact h.stays hpc (fun _ => rfl) fun _ => rfl
  | clears hpc => exact h.stays hpc (fun _ => rfl) nofun
  | cancelsNothing hpc hhandle | cancelsItself hpc hhandle hself hnoted
  | cancelsQueued hpc hhandle hnoted | timesOut hpc | holds hpc hself | takesBack hpc
  | decides hpc => exact h.stays hpc id id
  | meets hpc hhandle hself hnoted =>
    refine h.stays hpc ?_ ?_ <;> split_ifs <;> exact id
  | cancelled hpc =>
    refine h.stays hpc ?_ ?_
    · rw [locked_nextPc]
      exact id
    · rw [accepted_nextPc]
      exact id
  | looks hself hpc hitem htakes => exact h
  | begins hpc hnoted =>
    refine h.stays hpc ?_ ?_ <;> unfold bodyPc <;> split <;> exact nofun
  | takes hself hpc hitem htakes | ends hself hpc hitem => exact h.stays hpc nofun nofun
  | _ hpc => exact h.stays hpc nofun nofun

end

omit [DecidableEq κ] in
theorem locked_entry (s : PolicyRun κ) (c : PolicyCall) : (s.entry c).locked = false := by
  cases c <;> rfl

theorem Owned.step (h : Owned s) (hsteps : Steps s a s') :
    Owned s' := by
  cases hsteps with
  | stays => exact h
  | @calls t c hidle =>
    have hlocked := s.locked_entry c
    exact h.goTo (fun hto => nomatch hlocked.symm.trans hto)
      fun hto => nomatch hlocked.symm.trans (Pc.locked_of_accepted hto)
  | goes hmoves => exact h.moves hmoves
  | _ => exact h

/-- **A call that has not been refused has a delay.** -/
def Delayed (s : PolicyRun κ) : Prop := ∀ t, (s.pcs t).Nonneg

omit [DecidableEq κ] in
theorem Leads.nonneg (hleads : Leads s pc pc') (h : pc.Nonneg) : pc'.Nonneg := by
  cases hleads with
  | calm hfrom hto => exact Pc.nonneg_of_calm hto
  | checkDelay hdelay hrun => exact hdelay
  | checkCount | checkPaused | exchanged hflag => exact h
  | early hdelay hforce hflag hearly | forced hdelay hforce | unforced hdelay hforce =>
    exact h.trans_eq hdelay.symm
  | _ => trivial

theorem Moves.nonneg (hmoves : Moves s t s') (h : (s.pcs t).Nonneg) : (s'.pcs t).Nonneg := by
  cases hmoves with
  | waits | looks => exact h
  | goes hpc hleads => simpa using hleads.nonneg (hpc ▸ h)
  | locks _ hlocks _ => cases hlocks <;> simp [Pc.Nonneg]
  | unlocks _ hunlocks => cases hunlocks <;> simp [Pc.Nonneg]
  | finishes _ hcalm => simpa using Pc.nonneg_of_calm hcalm
  | meets hpc _ _ _ =>
    rw [hpc] at h
    rw [goTo_pcs_self]
    split_ifs <;> exact h
  | @cancelled _ next hpc =>
    rw [hpc] at h
    rw [goTo_pcs_self]
    cases next <;> exact h
  | begins =>
    rw [goTo_pcs_self]
    unfold bodyPc
    split <;> trivial
  | exchanges hpc _ | creates hpc | assigns hpc | cancelsNothing hpc _ | cancelsItself hpc _ _ _
  | cancelsQueued hpc _ _ | timesOut hpc | holds hpc _ | takesBack hpc | decides hpc =>
    rw [hpc] at h
    rw [goTo_pcs_self]
    exact h
  | _ =>
    rw [goTo_pcs_self]
    trivial

theorem Delayed.step (h : Delayed s) (hsteps : Steps s a s') : Delayed s' := by
  cases hsteps with
  | @calls t c hidle => exact goTo_forall (by cases c <;> trivial) fun u _ => h u
  | goes hmoves =>
    exact hmoves.forall_pcs (P := fun _ pc => pc.Nonneg) (hmoves.nonneg (h _)) fun u _ => h u
  | _ => exact h

/-- **Nobody waits in `Cancel` unless the manager is aborted.** -/
def Waiting (s : PolicyRun κ) : Prop :=
  ∀ t, (s.pcs t).waits = true → s.scheduledUploadAborted = true

/-- A stop is not taken back. -/
theorem Moves.aborted (hmoves : Moves s t s') (h : s.scheduledUploadAborted = true) :
    s'.scheduledUploadAborted = true := by
  cases hmoves with
  | aborts => rfl
  | _ => exact h

theorem Moves.waits_aborted (hmoves : Moves s t s')
    (h : (s.pcs t).waits = true → s.scheduledUploadAborted = true)
    (hto : (s'.pcs t).waits = true) : s'.scheduledUploadAborted = true := by
  cases hmoves with
  | waits | looks => exact h hto
  | goes hpc hleads =>
    rw [goTo_pcs_self] at hto
    cases hleads with
    | calm _ hcalm => cases (Pc.waits_of_calm hcalm).symm.trans hto
    | _ => cases hto
  | aborts => rfl
  | locks _ hlocks _ => cases hlocks <;> simp [Pc.waits] at hto
  | unlocks _ hunlocks => cases hunlocks <;> simp [Pc.waits] at hto
  | finishes _ hcalm => simp [Pc.waits_of_calm hcalm] at hto
  | meets =>
    rw [goTo_pcs_self] at hto
    split_ifs at hto with haborted
    · exact haborted
    · cases hto
  | holds hpc _ => exact h (by rw [hpc]; rfl)
  | @cancelled _ next => cases next <;> simp [nextPc, Pc.waits] at hto
  | begins =>
    rw [goTo_pcs_self] at hto
    unfold bodyPc at hto
    split at hto <;> cases hto
  | _ => simp [Pc.waits] at hto

theorem Waiting.step (h : Waiting s) (hsteps : Steps s a s') : Waiting s' := by
  cases hsteps with
  | @calls t c hidle =>
    exact goTo_forall (P := fun _ pc => pc.waits = true → _)
      (fun hto => by cases c <;> cases hto) fun u _ => h u
  | goes hmoves =>
    exact hmoves.forall_pcs (P := fun _ pc => pc.waits = true → _) (hmoves.waits_aborted (h _))
      fun u _ hu => hmoves.aborted (h u hu)
  | _ => exact h

/-- And so before a step too. -/
theorem Steps.aborted (hsteps : Steps s a s')
    (h : s'.scheduledUploadAborted = false) : s.scheduledUploadAborted = false := by
  cases hsteps with
  | goes hmoves => exact Bool.eq_false_iff.2 fun hs => nomatch h.symm.trans (hmoves.aborted hs)
  | _ => exact h

end PolicyRun

end ClientTelemetry
