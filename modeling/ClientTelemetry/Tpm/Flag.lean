import ClientTelemetry.Tpm.Helpers.SlotCapi
import Mathlib.Data.Fintype.Basic
/-!
# What the scheduled flag says

Whenever nobody is in a function of the manager, `m_isUploadScheduled`
should say whether an upload task waits, and there should be one at most.
It does on both dispatchers as long as no cancellation without the mutex
overlaps the setting of the flag and the handle, and the host's cancel
function answers true (`scheduled_flag_tells_truth`). Otherwise a flag can
be taken down while its task waits, and on a host's dispatcher it can stay
up for ever (`scheduled_flag_lies`).
-/

namespace ClientTelemetry

open Function List

/-- In no function of the manager. -/
def Pc.outside : Pc → Bool
  | .idle | .lockExecution | .testItem | .unlockExecution => true
  | _ => false

theorem Pc.role_of_outside {pc : Pc} (h : pc.outside = true) (noted : Option ℕ) :
    pc.role noted = .apart := by
  cases pc <;> first | rfl | cases h

/-- The worker has a task it has not begun with. -/
def Pc.unbegun : Pc → Bool
  | .lockExecution | .testItem => true
  | _ => false

theorem Pc.beforeClear_of_outside {pc : Pc} (h : pc.outside = true) :
    pc.beforeClear = pc.unbegun := by
  cases pc <;> first | rfl | cases h

/-- All threads can be looked at where all callers can. -/
instance Thread.decidableForall {κ : Type*} [Fintype κ] (p : Thread κ → Prop) [DecidablePred p] :
    Decidable (∀ t, p t) :=
  decidable_of_iff (p .worker ∧ ∀ k, p (.caller k))
    ⟨fun h t => match t with
      | .worker => h.1
      | .caller k => h.2 k, fun h => ⟨h .worker, fun k => h (.caller k)⟩⟩

namespace PolicyRun

variable {κ : Type*} {s : PolicyRun κ}

/-- **Nobody is in a function of the manager.** -/
def Quiet (s : PolicyRun κ) : Prop := ∀ t, (s.pcs t).outside = true

/-- **The upload tasks that wait**: among the timers, or taken by the worker
and neither begun nor taken back. -/
def waitingUploads (s : PolicyRun κ) : List (Task TaskBody) :=
  s.pending ++
    if (s.pcs .worker).unbegun = true ∧ s.dispatcher.itemInProgress ≠ none then
      s.item.toList.filter fun task => task.body.isUpload
    else []

/-- **The flag tells the truth** when nobody is in between. -/
def FlagTrue (s : PolicyRun κ) : Prop :=
  s.Quiet → (s.isUploadScheduled = true ↔ s.waitingUploads ≠ []) ∧ s.waitingUploads.length ≤ 1

instance [Fintype κ] (s : PolicyRun κ) : Decidable s.Quiet := Thread.decidableForall _

instance [Fintype κ] (s : PolicyRun κ) : ∀ a, Decidable (s.CancelsApart a)
  | .go _ _ => inferInstanceAs (Decidable (_ ∧ _))
  | .call _ _ | .queueOther _ _ | .profiles _ | .tick => .isTrue trivial

theorem standing_of_quiet (h : s.Quiet) :
    s.slot.standing = ↑(s.waitingUploads.map Task.id) := by
  refine congrArg (fun ids : List ℕ => (ids : Multiset ℕ)) ?_
  rw [waitingUploads, map_append, held, taken, Pc.beforeClear_of_outside (h .worker)]
  refine congrArg (s.pending.map Task.id ++ ·) ?_
  by_cases hnone : s.dispatcher.itemInProgress = none
  · rw [if_pos hnone, if_neg fun hboth => hboth.2 hnone]
    rfl
  · rw [if_neg hnone, apply_ite (List.map Task.id)]
    exact if_congr (and_iff_left hnone).symm rfl rfl

theorem Truthful.flagTrue [DecidableEq κ] (h : Truthful s) : s.FlagTrue := by
  intro hquiet
  have hiff := h.sound.flag_iff fun t => Pc.role_of_outside (hquiet t) _
  have hcard := h.sound.card_standing_le
  rw [standing_of_quiet hquiet] at hiff hcard
  rw [Multiset.coe_card, length_map] at hcard
  refine ⟨hiff.trans (not_congr ?_), hcard⟩
  rw [Multiset.coe_eq_zero, map_eq_nil_iff]

end PolicyRun

namespace CapiPolicyRun

variable {κ : Type*}

/-- **Nobody is in a function of the manager.** -/
def Quiet (s : CapiPolicyRun κ) : Prop := ∀ k, s.manager.pcs (.caller k) = .idle

/-- **The flag tells the truth** when nobody is in between. -/
def FlagTrue (s : CapiPolicyRun κ) : Prop :=
  s.Quiet → (s.manager.isUploadScheduled = true ↔ s.pending ≠ []) ∧ s.pending.length ≤ 1

instance [Fintype κ] (s : CapiPolicyRun κ) : Decidable s.Quiet :=
  inferInstanceAs (Decidable (∀ _, _))

instance [Fintype κ] (s : CapiPolicyRun κ) : ∀ a, Decidable (s.CancelsApart a)
  | .go k _ => inferInstanceAs (Decidable (s.manager.CancelsApart (.go (.caller k) false)))
  | .call _ _ | .callback _ _ | .queueOther _ _ | .profiles _ | .tick => .isTrue trivial

instance (s : CapiPolicyRun κ) : ∀ a, Decidable (s.HostCancels a)
  | .go _ _ => inferInstanceAs (Decidable (_ → ∀ _ ∈ _, _))
  | .call _ _ | .callback _ _ | .queueOther _ _ | .profiles _ | .tick => .isTrue trivial

theorem Truthful.flagTrue [DecidableEq κ] {s : CapiPolicyRun κ} (h : Truthful s) : s.FlagTrue := by
  intro hquiet
  have hbegun : s.begun = [] := by
    refine eq_nil_iff_forall_not_mem.2 fun e he => ?_
    have hserving := (h.enrolled.serving e.1).2 ⟨e.2, he⟩
    rw [hquiet e.1] at hserving
    cases hserving
  have hstanding : s.slot.standing = ↑(s.pending.map Task.id) := by
    refine congrArg (fun ids : List ℕ => (ids : Multiset ℕ)) ?_
    rw [hbegun, map_nil, append_nil]
  have hiff := h.sound.flag_iff fun k => congrArg (Pc.role none) (hquiet k)
  have hcard := h.sound.card_standing_le
  rw [hstanding] at hiff hcard
  rw [Multiset.coe_card, length_map] at hcard
  refine ⟨hiff.trans (not_congr ?_), hcard⟩
  rw [Multiset.coe_eq_zero, map_eq_nil_iff]

/-! ## A flag that stays up -/

/-- **The flag is up and the task of the handle is gone**, and nobody is
about to make one or to take the flag down. -/
abbrev Stuck (s : CapiPolicyRun κ) : Prop :=
  s.manager.isUploadScheduled = true ∧
  (∃ id, s.manager.scheduledUpload = some id ∧ id < s.manager.nextTask ∧
    ∀ task ∈ s.dispatcher.tasks, task.id ≠ id) ∧
  s.pending = [] ∧
  ∀ k, (s.manager.pcs (.caller k)).role none = .apart ∧
    (s.manager.pcs (.caller k)).serving = false

namespace Stuck

variable [DecidableEq κ] {s : CapiPolicyRun κ} {k : κ} {m : PolicyRun κ}

variable (h : Stuck s)
include h

/-- A thread goes on to a place of the same kind. -/
theorem goTo {pc : Pc} (hrole : pc.role none = .apart) (hserving : pc.serving = false) :
    Stuck { s with manager := s.manager.goTo (.caller k) pc } := by
  refine ⟨h.1, h.2.1, h.2.2.1, fun other => ?_⟩
  by_cases hother : other = k
  · rw [hother, PolicyRun.goTo_pcs_self]
    exact ⟨hrole, hserving⟩
  · rw [PolicyRun.goTo_pcs_of_ne fun h => hother (Thread.caller.inj h)]
    exact h.2.2.2 other

/-- Who exchanges the flag finds it set. -/
theorem moves (hplace : (s.manager.pcs (.caller k)).hosted = true)
    (hmoves : s.manager.Moves (.caller k) m) : Stuck { s with manager := m } := by
  obtain ⟨hrole, hserving⟩ := h.2.2.2 k
  have hexcluded {pc : Pc} (hpc : s.manager.pcs (.caller k) = pc) (hnot : pc.hosted = false) :
      Stuck { s with manager := m } := by
    rw [hpc, hnot] at hplace
    cases hplace
  cases hmoves with
  | waits => exact h
  | goes hpc hleads =>
    rw [hpc] at hrole hserving
    exact h.goTo ((hleads.role none).trans hrole) (hleads.serving.trans hserving)
  | locks hpc hlocks hfree =>
    rw [hpc] at hserving
    exact h.goTo (by cases hlocks <;> rfl)
      (by cases hlocks <;> first | rfl | exact nomatch hserving)
  | unlocks hpc hunlocks =>
    exact h.goTo (by cases hunlocks <;> rfl) (by cases hunlocks <;> rfl)
  | finishes hpc hcalm =>
    exact h.goTo (Pc.role_of_calm hcalm none) (Pc.serving_of_calm hcalm)
  | exchanges hpc hflag => cases hflag.symm.trans h.1
  | assigns hpc =>
    rw [hpc] at hrole
    cases hrole
  | @cancelled answer next hpc =>
    rw [hpc] at hrole
    cases answer with
    | true => cases hrole
    | false =>
      exact h.goTo (PolicyRun.role_nextPc next none) (by cases next <;> rfl)
  | resumes hpc | pauses hpc | aborts hpc | opens hpc | initiates hpc =>
    exact h.goTo rfl rfl
  | looks hself | takes hself | ends hself => cases hself
  | _ hpc => exact hexcluded hpc rfl

/-- `Cancel` finds no task and answers false. -/
theorem cancels {host : Bool} {next : AfterCancel} :
    Stuck (s.cancel k next host) := by
  obtain ⟨id, hid, -, hgone⟩ := h.2.1
  have hnot : ∀ e ∈ s.dispatcher.pending, e.2.id ≠ id :=
    fun e he => hgone e.2 (mem_map_of_mem he)
  obtain ⟨hsame, hanswer⟩ := s.dispatcher.cancel_of_not_mem hnot host
  simp only [CapiPolicyRun.cancel, hid, hsame, hanswer]
  exact h.goTo rfl rfl

theorem callback {s' : CapiPolicyRun κ} (hcalls : CallsBack s k s') : Stuck s' := by
  cases hcalls with
  | nothing => exact h
  | @begins task d hperm =>
    have hpending : ((task :: d.tasks).filter fun task => task.body.isUpload).Perm s.pending :=
      (hperm.filter fun task => task.body.isUpload).symm
    rw [h.2.2.1] at hpending
    have hfilter := filter_eq_nil_iff.1 hpending.eq_nil
    have hnone : (d.tasks.filter fun task => task.body.isUpload) = [] :=
      filter_eq_nil_iff.2 fun other hother => hfilter other (mem_cons_of_mem _ hother)
    have hbody : PolicyRun.bodyPc (some task) = .idle := by
      have hother := hfilter task mem_cons_self
      obtain ⟨id, type, targetTime, latency | _⟩ := task
      · exact absurd rfl hother
      · rfl
    have hupload : ¬ task.body.isUpload = true := hfilter task mem_cons_self
    rw [hbody, if_neg hupload]
    have hgoes : Stuck { s with manager := s.manager.goTo (.caller k) .idle } := h.goTo rfl rfl
    obtain ⟨id, hid, hlt, hgone⟩ := h.2.1
    refine ⟨h.1, ⟨id, hid, hlt, fun other hother => ?_⟩, hnone, hgoes.2.2.2⟩
    exact hgone other (hperm.symm.subset (mem_cons_of_mem _ hother))

/-- **Nothing that happens changes that.** -/
theorem step (a : CapiPolicyAction κ) : Stuck (s.step a) := by
  cases a with
  | call k c =>
    have hsteps := s.manager.step_steps (.call (.caller k) c)
    rw [CapiPolicyRun.step]
    generalize s.manager.step (.call (.caller k) c) = m at hsteps
    cases hsteps with
    | stays => exact h
    | calls hidle => exact h.goTo (by cases c <;> rfl) (by cases c <;> rfl)
  | go k host =>
    obtain ⟨hrole, hserving⟩ := h.2.2.2 k
    rw [CapiPolicyRun.step]
    by_cases hplace : (s.manager.pcs (.caller k)).hosted = true
    · rw [goOn_of_hosted hplace]
      exact h.moves hplace (s.manager.goOn_moves (.caller k) false)
    · cases hpc : s.manager.pcs (.caller k) with
      | createTask request =>
        rw [hpc] at hrole
        cases hrole
      | cancel next => exact h.cancels
      | clearScheduled =>
        rw [hpc] at hserving
        cases hserving
      | awaits | holds | decides | lockExecution | testItem | unlockExecution => exact h
      | _ =>
        rw [hpc] at hplace
        exact absurd rfl hplace
  | callback k taskId =>
    rw [CapiPolicyRun.step]
    split_ifs
    · exact h.callback (s.callback_callsBack k taskId)
    · exact h
  | queueOther timed targetTime =>
    have htasks : (s.dispatcher.queueItem (s.manager.otherTask timed targetTime)).tasks =
        s.dispatcher.tasks ++ [s.manager.otherTask timed targetTime] :=
      s.dispatcher.tasks_queueItem (by cases timed <;> rintro ⟨⟩)
    obtain ⟨id, hid, hlt, hgone⟩ := h.2.1
    refine ⟨h.1, ⟨id, hid, Nat.lt_succ_of_lt hlt, fun task htask => ?_⟩, ?_, h.2.2.2⟩
    · rw [CapiPolicyRun.step, htasks] at htask
      rcases mem_append.1 htask with htask | htask
      · exact hgone task htask
      · rw [mem_singleton.1 htask]
        exact hlt.ne'
    · rw [CapiPolicyRun.step, CapiPolicyRun.pending, htasks, filter_append]
      exact (append_nil _).trans h.2.2.1
  | profiles p | tick => exact h

end Stuck

end CapiPolicyRun

/-- **The scheduled flag tells the truth** on both dispatchers, in every run
in which no cancellation without the mutex overlaps the setting of the flag
and the handle, and in which the host cancels what it is asked to. -/
theorem scheduled_flag_tells_truth {κ : Type*} [DecidableEq κ] (maxPendingReq : ℕ) {timers : ℤ × ℤ} :
    (∀ as : List (PolicyAction κ),
      RunMeets PolicyRun.CancelsApart PolicyRun.step (.initial maxPendingReq timers) as →
        (run PolicyRun.step (.initial maxPendingReq timers) as).FlagTrue) ∧
    ∀ as : List (CapiPolicyAction κ),
      RunMeets (fun s a => s.CancelsApart a ∧ s.HostCancels a) CapiPolicyRun.step
          (.initial maxPendingReq timers) as →
        (run CapiPolicyRun.step (.initial maxPendingReq timers) as).FlagTrue := by
  constructor
  · intro as hok
    have htruthful : (run PolicyRun.step (.initial maxPendingReq timers) as).Truthful :=
      run_invariant (fun _ _ h hok => h.step hok) (.initial maxPendingReq) hok
    exact htruthful.flagTrue
  · intro as hok
    have htruthful : (run CapiPolicyRun.step (.initial maxPendingReq timers) as).Truthful :=
      run_invariant (fun _ _ h hok => h.step hok.1 hok.2) (.initial maxPendingReq) hok
    exact htruthful.flagTrue

/-- A thread goes on, `n` times, and the host answers the same. -/
def CapiPolicyRun.goes {κ : Type*} (k : κ) (host : Bool) (n : ℕ) : List (CapiPolicyAction κ) :=
  List.replicate n (.go k host)

/-- One thread starts the manager and pauses it. -/
def startedAndPaused : List (PolicyAction Bool) :=
  .call (.caller false) .handleStart :: PolicyRun.goes (.caller false) 11 ++
    .call (.caller false) .handlePause :: PolicyRun.goes (.caller false) 3

/-- The same on a host's dispatcher, with the host's answer. -/
def startedAndPausedOnHost (host : Bool) : List (CapiPolicyAction Unit) :=
  .call () .handleStart :: CapiPolicyRun.goes () host 11 ++
    .call () .handlePause :: CapiPolicyRun.goes () host 3

theorem scheduled_flag_tells_truth_paused :
    (run PolicyRun.step (.initial 4) startedAndPaused).FlagTrue ∧
    (run CapiPolicyRun.step (.initial 4) (startedAndPausedOnHost true)).FlagTrue :=
  ⟨(scheduled_flag_tells_truth 4).1 startedAndPaused (by decide +kernel),
    (scheduled_flag_tells_truth 4).2 (startedAndPausedOnHost true) (by decide +kernel)⟩

/-- One thread starts the manager and has set the flag; another pauses it;
the first goes on to the end. -/
def pausedInStart : List (PolicyAction Bool) :=
  .call (.caller false) .handleStart :: PolicyRun.goes (.caller false) 8 ++
    .call (.caller true) .handlePause :: PolicyRun.goes (.caller true) 3 ++
    PolicyRun.goes (.caller false) 3

/-- And the second starts it again. -/
def startedAgain : List (PolicyAction Bool) :=
  pausedInStart ++ .call (.caller true) .handleStart :: PolicyRun.goes (.caller true) 11

/-- **The flag lies.** On a worker thread a pause takes it down while the
task it was set for is being queued, and the next start queues a second
one. On a host's dispatcher it stays up when the host's cancel function
answers false, and whatever happens no upload task waits again. -/
theorem scheduled_flag_lies : ((run PolicyRun.step (.initial 4) pausedInStart).Quiet ∧
      (run PolicyRun.step (.initial 4) pausedInStart).isUploadScheduled = false ∧
      (run PolicyRun.step (.initial 4) pausedInStart).waitingUploads.length = 1) ∧
    ((run PolicyRun.step (.initial 4) startedAgain).Quiet ∧
      (run PolicyRun.step (.initial 4) startedAgain).waitingUploads.length = 2) ∧
    (run CapiPolicyRun.step (.initial 4) (startedAndPausedOnHost false)).Quiet ∧
    ∀ as : List (CapiPolicyAction Unit), (run CapiPolicyRun.step (.initial 4)
        (startedAndPausedOnHost false ++ as)).manager.isUploadScheduled = true ∧
      (run CapiPolicyRun.step (.initial 4) (startedAndPausedOnHost false ++ as)).pending = [] := by
  refine ⟨⟨by decide +kernel, by decide +kernel, by decide +kernel⟩,
    ⟨by decide +kernel, by decide +kernel⟩, by decide +kernel, fun as => ?_⟩
  have hstuck : (run CapiPolicyRun.step (.initial 4) (startedAndPausedOnHost false)).Stuck :=
    ⟨by decide +kernel, ⟨0, by decide +kernel, by decide +kernel, by decide +kernel⟩,
      by decide +kernel, fun ⟨⟩ => ⟨rfl, by decide +kernel⟩⟩
  have hlater : (run CapiPolicyRun.step
      (run CapiPolicyRun.step (.initial 4) (startedAndPausedOnHost false)) as).Stuck :=
    run_preserves (fun _ a h => h.step a) hstuck as
  rw [run_append]
  exact ⟨hlater.1, hlater.2.2.1⟩

end ClientTelemetry
