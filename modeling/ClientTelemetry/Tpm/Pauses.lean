import ClientTelemetry.Tpm.Helpers.Scheduling
/-!
# Uploads after a pause or a stop

`initiateUpload` is reached from two tests: that of `handleEventArrived`
and that of `uploadAsync`. Both read `m_isPaused` before the upload is
started and neither is repeated. So once a pause or a stop has returned
nothing starts any more exactly if the manager is paused then and no thread
is between a test and the start: `PolicyRun.Settled`. A stop does not pause,
and a pause does not wait.
-/

namespace ClientTelemetry

open Function

/-- Between a test and the start of an upload. -/
def Pc.uploads : Pc → Bool
  | .openUpload _ | .initiateUpload _ => true
  | _ => false

theorem Pc.uploads_of_calm {pc : Pc} (h : pc.calm) : pc.uploads = false := by
  cases pc <;> first | rfl | cases h

namespace PolicyRun

variable {κ : Type*} [DecidableEq κ]

/-- **Paused, and nobody is about to start an upload.** -/
structure Settled (s : PolicyRun κ) : Prop where
  paused : s.isPaused = true
  none : ∀ t, (s.pcs t).uploads = false

/-- The step is not the one in which `handleStart` takes effect. -/
def NotResuming (s : PolicyRun κ) : PolicyAction κ → Prop
  | .go t _ => s.pcs t ≠ .resume
  | _ => True

instance (s : PolicyRun κ) (a : PolicyAction κ) : Decidable (NotResuming s a) :=
  match a with
  | .go t _ => inferInstanceAs (Decidable (s.pcs t ≠ .resume))
  | .call _ _ | .queueOther _ _ | .profiles _ | .tick => .isTrue trivial

variable {s : PolicyRun κ} {t : Thread κ} {s' : PolicyRun κ} {pc : Pc}

/-- A thread that goes to a place from which nothing is started. -/
theorem Settled.goTo (h : Settled s) (hpcs : s'.pcs = s.pcs)
    (hpaused : s'.isPaused = true) (hpc : pc.uploads = false) : Settled (s'.goTo t pc) where
  paused := hpaused
  none := by
    intro u
    by_cases hu : u = t
    · rw [hu, goTo_pcs_self, hpc]
    · rw [goTo_pcs_of_ne hu, hpcs, h.none u]

omit [DecidableEq κ] in
/-- While it is paused nobody gets past a test. -/
theorem Leads.uploads_of_paused {pc' : Pc} (hleads : Leads s pc pc')
    (hpaused : s.isPaused = true) : pc'.uploads = false := by
  cases hleads with
  | calm _ hto => exact Pc.uploads_of_calm hto
  | arrives hrun hmax => cases hpaused.symm.trans hrun
  | _ => rfl

theorem Settled.moves (h : Settled s) (hmoves : Moves s t s')
    (hresume : s.pcs t ≠ .resume) : Settled s' ∧ s'.initiated = s.initiated := by
  have hnone := h.none t
  cases hmoves with
  | waits => exact ⟨h, rfl⟩
  | goes hpc hleads => exact ⟨h.goTo rfl h.paused (hleads.uploads_of_paused h.paused), rfl⟩
  | resumes hpc => exact absurd hpc hresume
  | pauses hpc => exact ⟨h.goTo rfl rfl rfl, rfl⟩
  | locks hpc hlocks hfree => exact ⟨h.goTo rfl h.paused (by cases hlocks <;> rfl), rfl⟩
  | unlocks hpc hunlocks =>
    refine ⟨h.goTo rfl h.paused ?_, rfl⟩
    cases hunlocks with
    | upload hrun => cases h.paused.symm.trans hrun
    | _ => rfl
  | opens hpc | initiates hpc =>
    rw [hpc] at hnone
    cases hnone
  | finishes hpc hto => exact ⟨h.goTo rfl h.paused (Pc.uploads_of_calm hto), rfl⟩
  | meets hpc hhandle hself hnoted =>
    refine ⟨h.goTo rfl h.paused ?_, rfl⟩
    split_ifs <;> rfl
  | @cancelled answer next hpc => exact ⟨h.goTo rfl h.paused (by cases next <;> rfl), rfl⟩
  | looks hself hpc hitem htakes => exact ⟨⟨h.paused, h.none⟩, rfl⟩
  | begins hpc hnoted =>
    refine ⟨h.goTo rfl h.paused ?_, rfl⟩
    unfold bodyPc
    split <;> rfl
  | _ => exact ⟨h.goTo rfl h.paused rfl, rfl⟩

/-- **Nothing is started from a settled state**, and it stays settled. -/
theorem Settled.step {a : PolicyAction κ} (h : Settled s) (hok : NotResuming s a)
    (hsteps : Steps s a s') : Settled s' ∧ s'.initiated = s.initiated := by
  cases hsteps with
  | stays => exact ⟨h, rfl⟩
  | @calls t c hidle =>
    refine ⟨h.goTo rfl h.paused ?_, rfl⟩
    cases c <;> rfl
  | goes hmoves => exact h.moves hmoves hok
  | _ => exact ⟨⟨h.paused, h.none⟩, rfl⟩

theorem Settled.run {cs : List (PolicyAction κ)} (h : Settled s)
    (hok : RunMeets NotResuming PolicyRun.step s cs) :
    (ClientTelemetry.run PolicyRun.step s cs).initiated = s.initiated := by
  have hrun : Settled (ClientTelemetry.run PolicyRun.step s cs) ∧
      (ClientTelemetry.run PolicyRun.step s cs).initiated = s.initiated :=
    @run_invariant _ _ PolicyRun.step NotResuming s cs
      (fun s' => Settled s' ∧ s'.initiated = s.initiated)
      (fun s a h hok => (h.1.step hok (s.step_steps a)).imp_right fun heq => heq.trans h.2)
      ⟨h, rfl⟩ hok
  exact hrun.2

/-- A thread goes on from a place that is known. -/
theorem step_go (hpc : s.pcs t = pc) (timeout : Bool) :
    s.step (.go t timeout) = s.goOn t timeout pc := by
  rw [PolicyRun.step, hpc]

/-! ## What a pause leaves -/

/-- The thread has paused the manager, or is about to. -/
def Pausing (t : Thread κ) (s : PolicyRun κ) : Prop := s.isPaused = true ∨ s.pcs t = .pause

/-- It stays so until a start takes effect. -/
theorem Pausing.step {a : PolicyAction κ} (h : Pausing t s) (hok : NotResuming s a) :
    Pausing t (s.step a) := by
  rcases h with hpaused | hpc
  · refine .inl ?_
    have hsteps := s.step_steps a
    generalize s.step a = s' at hsteps
    cases hsteps with
    | goes hmoves =>
      cases hmoves with
      | resumes hpc => exact absurd hpc hok
      | pauses => rfl
      | _ => exact hpaused
    | _ => exact hpaused
  · by_cases hself : ∃ timeout, a = .go t timeout
    · obtain ⟨timeout, rfl⟩ := hself
      rw [step_go hpc]
      exact .inl rfl
    · refine .inr ?_
      have hsteps := s.step_steps a
      generalize s.step a = s' at hsteps
      cases hsteps with
      | @calls u c hidle =>
        rwa [goTo_pcs_of_ne]
        rintro rfl
        cases hidle.symm.trans hpc
      | @goes u timeout s' hmoves =>
        exact (hmoves.pcs_of_ne fun htu => hself ⟨timeout, by rw [htu]⟩).trans hpc
      | _ => exact hpc

/-! ## The ways out -/

/-- A thread that is about to start an upload starts it. -/
theorem starts_of_uploads (h : (s.pcs t).uploads = true) :
    ∃ cs, RunMeets NotResuming step s cs ∧ (run step s cs).initiated ≠ s.initiated := by
  cases hpc : s.pcs t with
  | openUpload latency =>
    refine ⟨[.go t false, .go t false], ⟨?_, ?_, trivial⟩, ?_⟩
    · simp [NotResuming, hpc]
    · simp [NotResuming, step_go hpc, goOn]
    · have hnext : (s.step (.go t false)).pcs t = .initiateUpload s.nextContext := by
        rw [step_go hpc, goOn, goTo_pcs_self]
      rw [run_cons, run_cons, run_nil, step_go hnext, step_go hpc]
      exact List.cons_ne_self _ _
  | initiateUpload ctx =>
    refine ⟨[.go t false], ⟨?_, trivial⟩, ?_⟩
    · simp [NotResuming, hpc]
    · rw [run_cons, run_nil, step_go hpc]
      exact List.cons_ne_self _ _
  | _ => cases hpc ▸ h

/-- While the manager is not paused, an event of the highest latency is
uploaded at once. -/
theorem starts_of_running {k : κ} (hidle : s.pcs (.caller k) = .idle) (hrun : s.isPaused = false) :
    ∃ cs, RunMeets NotResuming step s cs ∧ (run step s cs).initiated ≠ s.initiated := by
  have hcall : s.step (.call (.caller k) (.handleEventArrived .max)) =
      s.goTo (.caller k) (.testArrived .max) := by
    simp [PolicyRun.step, canCall, hidle, entry]
  have htest : (s.goTo (.caller k) (.testArrived .max)).step (.go (.caller k) false) =
      (s.goTo (.caller k) (.testArrived .max)).goTo (.caller k) (.openUpload (some .max)) := by
    rw [step_go goTo_pcs_self, goOn]
    simp [goTo, hrun, EventLatency.toInt]
  obtain ⟨cs, hok, hstarts⟩ := starts_of_uploads (t := .caller k)
    (s := (s.goTo (.caller k) (.testArrived .max)).goTo (.caller k) (.openUpload (some .max)))
    (by rw [goTo_pcs_self]; rfl)
  refine ⟨.call (.caller k) (.handleEventArrived .max) :: .go (.caller k) false :: cs,
    ⟨trivial, ?_, ?_⟩, ?_⟩
  · rw [hcall]
    simp [NotResuming]
  · rwa [hcall, htest]
  · rwa [run_cons, run_cons, hcall, htest]

/-- A call of a caller has returned: the caller made it in a run from the
start, and is in no function of the manager now. -/
def Returned (maxPendingReq : ℕ) (k : κ) (c : PolicyCall) (s : PolicyRun κ) : Prop :=
  ∃ timers as bs, (run step (initial maxPendingReq timers) as).canCall (.caller k) ∧
    s = run step (initial maxPendingReq timers) (as ++ .call (.caller k) c :: bs) ∧
    s.pcs (.caller k) = .idle

/-- A pause of a caller has returned, and no start has taken effect since
the call. -/
def PausedSince (maxPendingReq : ℕ) (k : κ) (s : PolicyRun κ) : Prop :=
  ∃ timers as bs, (run step (initial maxPendingReq timers) as).canCall (.caller k) ∧
    s = run step (initial maxPendingReq timers) (as ++ .call (.caller k) .handlePause :: bs) ∧
    RunMeets NotResuming step (run step (initial maxPendingReq timers)
      (as ++ [.call (.caller k) .handlePause])) bs ∧
    s.pcs (.caller k) = .idle

/-- **A pause leaves the manager paused.** -/
theorem isPaused_of_pausedSince {maxPendingReq : ℕ} {k : κ} (h : PausedSince maxPendingReq k s) :
    s.isPaused = true := by
  obtain ⟨timers, as, bs, hcall, rfl, hok, hidle⟩ := h
  have hpausing : Pausing (.caller k) (run step (initial maxPendingReq timers)
      (as ++ [.call (.caller k) .handlePause])) := by
    refine .inr ?_
    rw [run_append, run_cons, run_nil, step, if_pos hcall, goTo_pcs_self]
    rfl
  have hend := run_invariant (fun s a (h : Pausing (.caller k) s) hok => h.step hok) hpausing hok
  rw [← run_append, List.append_assoc] at hend
  refine hend.resolve_right fun hpc => ?_
  cases hidle.symm.trans hpc

/-- **When nothing is started after a pause or a stop.** For every run of
any callers with the worker, and every state after a pause or a stop has
returned in it: in all that follows until a start takes effect
`initiateUpload` is not called any more, if and only if the manager is
paused in that state and no thread is between its test of `m_isPaused` and
the start of an upload. After a pause it is paused, if no start has taken
effect since. -/
theorem quiet_after_pause_iff (maxPendingReq : ℕ) (k : κ) (s : PolicyRun κ)
    (hreturned : Returned maxPendingReq k .handlePause s ∨ Returned maxPendingReq k .handleStop s) :
    ((∀ cs, RunMeets NotResuming step s cs → (run step s cs).initiated = s.initiated) ↔
      s.isPaused = true ∧ ∀ t, (s.pcs t).uploads = false) ∧
    (PausedSince maxPendingReq k s → s.isPaused = true) := by
  have hidle : s.pcs (.caller k) = .idle := by
    rcases hreturned with ⟨_, _, _, -, -, hidle⟩ | ⟨_, _, _, -, -, hidle⟩
    · exact hidle
    · exact hidle
  refine ⟨?_, isPaused_of_pausedSince⟩
  constructor
  · intro hquiet
    refine ⟨?_, fun t => ?_⟩
    · by_contra hrun
      obtain ⟨cs, hok, hstarts⟩ := starts_of_running hidle (Bool.eq_false_iff.2 hrun)
      exact hstarts (hquiet cs hok)
    · by_contra huploads
      obtain ⟨cs, hok, hstarts⟩ := starts_of_uploads (Bool.not_eq_false _ ▸ huploads)
      exact hstarts (hquiet cs hok)
  · rintro ⟨hpaused, hnone⟩ cs hok
    exact Settled.run ⟨hpaused, hnone⟩ hok

/-- A caller starts the manager and pauses it. -/
def pausedAlone : List (PolicyAction Unit) :=
  .call (.caller ()) .handleStart :: goes (.caller ()) 11 ++
    .call (.caller ()) .handlePause :: goes (.caller ()) 3

theorem quiet_after_pause_iff_started :
    Returned 4 () .handlePause (run step (initial 4) pausedAlone) ∧
    ∀ cs, RunMeets NotResuming step (run step (initial 4) pausedAlone) cs →
      (run step (run step (initial 4) pausedAlone) cs).initiated = [] := by
  have hreturned : Returned 4 () .handlePause (run step (initial 4) pausedAlone) := by
    refine ⟨(0, 0), _, goes (.caller ()) 3, ?_, rfl, ?_⟩ <;> decide +kernel
  refine ⟨hreturned, (quiet_after_pause_iff 4 () _ (.inl hreturned)).1.2 ⟨by decide +kernel, ?_⟩⟩
  rintro (_ | ⟨⟨⟩⟩) <;> decide +kernel

/-- A caller starts the manager, and an event of the highest latency passes
the test on another thread before the first caller pauses it. -/
def pausedBehindTest : List (PolicyAction Bool) :=
  .call (.caller false) .handleStart :: goes (.caller false) 11 ++
    .call (.caller true) (.handleEventArrived .max) :: goes (.caller true) 1 ++
    .call (.caller false) .handlePause :: goes (.caller false) 3

/-- A caller starts the manager and stops it. -/
def stoppedAlone : List (PolicyAction Bool) :=
  .call (.caller false) .handleStart :: goes (.caller false) 11 ++
    .call (.caller false) .handleStop :: goes (.caller false) 6

/-- An upload is started after the pause has returned, and one after the
stop has returned, for an event that arrives then. -/
theorem upload_starts_after_return :
    (Returned 4 false .handlePause (run step (initial 4) pausedBehindTest) ∧
      RunMeets NotResuming step (run step (initial 4) pausedBehindTest) (goes (.caller true) 2) ∧
      (run step (run step (initial 4) pausedBehindTest) (goes (.caller true) 2)).initiated ≠
        (run step (initial 4) pausedBehindTest).initiated) ∧
    (Returned 4 false .handleStop (run step (initial 4) stoppedAlone) ∧
      RunMeets NotResuming step (run step (initial 4) stoppedAlone)
        (.call (.caller true) (.handleEventArrived .max) :: goes (.caller true) 3) ∧
      (run step (run step (initial 4) stoppedAlone)
        (.call (.caller true) (.handleEventArrived .max) :: goes (.caller true) 3)).initiated ≠
        (run step (initial 4) stoppedAlone).initiated) := by
  refine ⟨⟨⟨(0, 0), _, goes (.caller false) 3, ?_, rfl, ?_⟩, ?_, ?_⟩,
    ⟨(0, 0), _, goes (.caller false) 6, ?_, rfl, ?_⟩, ?_, ?_⟩
  all_goals decide +kernel

end PolicyRun

end ClientTelemetry
