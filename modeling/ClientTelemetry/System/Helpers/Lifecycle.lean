import ClientTelemetry.System.Model.Lifecycle
import ClientTelemetry.Tpm.Helpers.Scheduling
/-!
# What the steps of the system do

Frame lemmas for the instructions, and what a thread in `handleStop` or
`handleCleanup` can do: it leaves them only where it has seen that no
upload is active. `LifecycleRun.Steps` lists what a step of the system can
do, and `LifecycleRun.Awaited` says that nobody is about to raise
`allUploadsFinished` while an upload is active.
-/

namespace ClientTelemetry

open Function List

/-- In `handleStop` or `handleCleanup`, before the wait for the uploads is
over. -/
def Pc.finishing : Pc → Bool
  | .lockStop | .abort | .unlockStop | .awaitUploads => true
  | .cancel next | .awaits _ next | .holds _ next | .decides _ next | .cancelled _ next =>
    next = .unlockStop ∨ next = .awaitUploads
  | _ => false

/-- A context is about to be added. -/
def Pc.opens : Pc → Bool
  | .openUpload _ => true
  | _ => false

theorem Pc.not_finishing_of_opens {pc : Pc} (h : pc.opens = true) : pc.finishing = false := by
  cases pc with
  | openUpload latency => rfl
  | _ => cases h

namespace PolicyRun

variable {κ : Type*} [DecidableEq κ] {s s' : PolicyRun κ} {t u : Thread κ}

/-- Uploads are added at one place only. -/
theorem Moves.activeUploads_subset (h : Moves s t s') (hopens : (s.pcs t).opens = false) :
    s'.activeUploads ⊆ s.activeUploads := by
  cases h with
  | opens hpc =>
    rw [hpc] at hopens
    cases hopens
  | finishes hpc hto => exact Finset.erase_subset ..
  | _ => exact Finset.Subset.refl _

theorem finishing_nextPc {next : AfterCancel} (h : next = .unlockStop ∨ next = .awaitUploads) :
    (nextPc next).finishing = true := by
  rcases h with rfl | rfl <;> rfl

theorem finishing_goTo (s : PolicyRun κ) {pc : Pc} (h : pc.finishing = true) :
    ((s.goTo t pc).pcs t).finishing = true := by
  rw [goTo_pcs_self]
  exact h

/-- The first part of `Cancel` stays in it. -/
theorem finishing_cancel {next : AfterCancel} (hpc : s.pcs t = .cancel next)
    (h : next = .unlockStop ∨ next = .awaitUploads) :
    ((s.cancel t next).pcs t).finishing = true := by
  have hmoves := cancel_moves hpc
  generalize s.cancel t next = s' at hmoves
  cases hmoves with
  | waits =>
    rw [hpc]
    exact decide_eq_true h
  | cancelsNothing hpc' _ | cancelsItself hpc' _ _ _ | cancelsQueued hpc' _ _ =>
    cases hpc.symm.trans hpc'
    refine finishing_goTo _ ?_
    exact decide_eq_true h
  | meets hpc' _ _ _ =>
    cases hpc.symm.trans hpc'
    refine finishing_goTo _ ?_
    split_ifs
    · exact decide_eq_true h
    · exact decide_eq_true h
  | goes hpc' hleads =>
    rw [hpc] at hpc'
    subst hpc'
    cases hleads with
    | calm hfrom | refuses hfrom => cases hfrom
  | locks hpc' hlocks =>
    rw [hpc] at hpc'
    subst hpc'
    cases hlocks
  | unlocks hpc' hunlocks =>
    rw [hpc] at hpc'
    subst hpc'
    cases hunlocks
  | looks _ hpc' | takes _ hpc' | ends _ hpc' => cases hpc.symm.trans hpc'
  | _ hpc' => cases hpc.symm.trans hpc'

/-- **The wait for the uploads ends where there are none.** -/
theorem goOn_finishing (timeout : Bool) (h : (s.pcs t).finishing = true) :
    ((s.goOn t timeout (s.pcs t)).pcs t).finishing = true ∨
      (s.goOn t timeout (s.pcs t)).pcs t = .idle ∧ s.activeUploads = ∅ := by
  have hstays (pc : Pc) (hpc : s.pcs t = pc) (hpc' : pc.finishing = true) :
      (s.pcs t).finishing = true := by
    rw [hpc]
    exact hpc'
  cases hpc : s.pcs t with
  | lockStop =>
    left
    simp only [goOn, lockThen]
    split_ifs
    · exact finishing_goTo _ rfl
    · exact hstays _ hpc rfl
  | abort | unlockStop => exact .inl (finishing_goTo _ rfl)
  | awaitUploads =>
    simp only [goOn]
    split_ifs with hnone
    · exact .inr ⟨goTo_pcs_self, Finset.card_eq_zero.1 hnone⟩
    · exact .inl (hstays _ hpc rfl)
  | cancel next =>
    rw [hpc] at h
    exact .inl (finishing_cancel hpc (of_decide_eq_true h))
  | awaits id next =>
    rw [hpc] at h
    left
    cases t with
    | worker => exact hstays _ hpc h
    | caller k =>
      simp only [goOn, awaits]
      split_ifs
      · exact finishing_goTo _ h
      · exact finishing_goTo _ h
      · exact hstays _ hpc h
  | holds id next | decides id next =>
    rw [hpc] at h
    exact .inl (finishing_goTo _ h)
  | cancelled answer next =>
    rw [hpc] at h
    exact .inl (finishing_goTo _ (finishing_nextPc (of_decide_eq_true h)))
  | _ =>
    rw [hpc] at h
    cases h

omit [DecidableEq κ] in
/-- The handlers that wait begin there. -/
theorem finishing_entry {f : Finisher} (h : f ≠ .finishAllUploads) :
    (s.entry f.handler).finishing = true := by
  cases f with
  | finishAllUploads => exact absurd rfl h
  | stop | cleanup => rfl

end PolicyRun

/-! ## Instructions -/

/-- Neither on the way of a signal nor the end of a stop. -/
def Instr.plain : Instr → Bool
  | .finish _ | .raise _ | .testInterval (.finished _) | .rollUp (.finished _) | .stopped _ => false
  | _ => true

/-- A send is cancelled or created, or an event sent. -/
def Instr.sends : Instr → Bool
  | .cancelSend | .createSend | .sendEvent _ _ => true
  | _ => false

/-- The signal. -/
def Instr.isRaise : Instr → Bool
  | .raise _ => true
  | _ => false

theorem Instr.isRaise_of_plain {i : Instr} (h : i.plain = true) : i.isRaise = false := by
  cases i with
  | raise f => cases h
  | _ => rfl

namespace LifecycleRun

variable {κ : Type*} [DecidableEq κ]

/-- **What a step can do.** -/
inductive Steps (s : LifecycleRun κ) : LifecycleAction κ → LifecycleRun κ → Prop
  | stays {a} : Steps s a s
  | begins {t c} (hnone : s.programs t = []) (hidle : s.manager.pcs t = .idle) :
    Steps s (.call t c) { (s.begins t c).1 with
      programs := update (s.begins t c).1.programs t (s.begins t c).2 }
  | manages {t answer} (hbusy : s.manager.pcs t ≠ .idle ∨ s.programs t = []) :
    Steps s (.go t answer) (s.manage (.go t answer.timeout))
  | executes {t answer instr rest} (hidle : s.manager.pcs t = .idle)
      (hnext : s.programs t = instr :: rest) :
    Steps s (.go t answer) { (s.execute t answer instr).1 with
      programs := update (s.execute t answer instr).1.programs t
        ((s.execute t answer instr).2 ++ rest) }
  | sends {answer sends} (hnone : s.programs .worker = []) :
    Steps s (.go .worker answer) { s with
      sends := sends, programs := update s.programs .worker (send .ongoing) }
  | configures {intervalSec teardownTime} :
    Steps s (.configure intervalSec teardownTime) { s with
      intervalSec := intervalSec, teardownTime := teardownTime }
  | outside {a m} (hpcs : m.pcs = s.manager.pcs)
      (huploads : m.activeUploads = s.manager.activeUploads) : Steps s a { s with manager := m }

variable {s : LifecycleRun κ} {t u : Thread κ} {answer : Answer} {instr : Instr}

theorem goIdle_steps (hnone : s.programs t = []) :
    Steps s (.go t answer) (s.goIdle t answer) := by
  cases t with
  | caller k => exact .manages (.inr hnone)
  | worker =>
    unfold goIdle
    split
    next item heq =>
      split_ifs
      · exact .sends hnone
      · exact .manages (.inr hnone)
    next => exact .manages (.inr hnone)

/-- **The steps are those.** -/
theorem step_steps (s : LifecycleRun κ) (a : LifecycleAction κ) : Steps s a (s.step a) := by
  cases a with
  | call t c =>
    rw [step]
    split_ifs with hcan
    · exact .begins (List.isEmpty_iff.1 hcan.2) (of_decide_eq_true hcan.1).1
    · exact .stays
  | go t answer =>
    rw [step, go]
    split_ifs with hidle
    · cases hnext : s.programs t with
      | nil => exact goIdle_steps hnext
      | cons instr rest => exact .executes hidle hnext
    · exact .manages (.inl hidle)
  | configure intervalSec teardownTime => exact .configures
  | queueOther timed targetTime =>
    rw [step, manage, PolicyRun.step]
    split_ifs
    · exact .outside rfl rfl
    · exact .outside rfl rfl
  | profiles p | tick => exact .outside rfl rfl

/-! ## What is added to the instructions -/

/-- Only plain instructions. -/
def Plain (is : List Instr) : Prop := ∀ i ∈ is, i.plain = true

instance (is : List Instr) : Decidable (Plain is) := inferInstanceAs (Decidable (∀ _ ∈ _, _))

theorem plain_nil : Plain [] := fun _ h => nomatch h

theorem plain_singleton (h : instr.plain = true) : Plain [instr] := by
  intro i hi
  rw [mem_singleton.1 hi]
  exact h

theorem plain_cons {is : List Instr} (h : instr.plain = true) (his : Plain is) :
    Plain (instr :: is) := forall_mem_cons.2 ⟨h, his⟩

theorem plain_ite {p : Prop} [Decidable p] {is js : List Instr} (his : Plain is) (hjs : Plain js) :
    Plain (if p then is else js) := by
  split_ifs
  · exact his
  · exact hjs

/-- **A task of the statistics is cancelled or queued, or an event handed
over**: where the threads of the manager stand and its uploads are the
same. -/
theorem execute_of_sends {P : LifecycleRun κ × List Instr → Prop} (h : instr.sends = true)
    (hP : ∀ m sends scheduled is, m.pcs = s.manager.pcs →
      m.activeUploads = s.manager.activeUploads → Plain is → P ({ s with
        manager := m
        sends := sends
        stats := { s.stats with scheduledSend := scheduled } }, is)) :
    P (s.execute t answer instr) := by
  have hstays {is : List Instr} (his : Plain is) : P (s, is) := hP _ _ _ _ rfl rfl his
  cases instr with
  | cancelSend =>
    simp only [execute, cancelSend]
    split
    · exact hstays plain_nil
    · split_ifs
      · split
        · exact hP _ _ _ _ rfl rfl plain_nil
        · exact hstays plain_nil
      · exact hstays (plain_singleton rfl)
  | createSend =>
    simp only [execute, createSend]
    split_ifs with hfree
    · refine hP _ _ _ _ ?_ ?_ plain_nil
      · simp only [manage, PolicyRun.step, if_pos hfree]
      · simp only [manage, PolicyRun.step, if_pos hfree]
    · exact hstays (plain_singleton rfl)
  | sendEvent tenantToken latency =>
    simp only [execute]
    split
    · exact hstays plain_nil
    · exact hstays (plain_cons rfl (plain_singleton rfl))
    · exact hstays (plain_singleton rfl)
  | _ => cases h

/-- **What a thread leaves alone** when it carries an instruction out. -/
structure Keeps (t : Thread κ) (s s' : LifecycleRun κ) : Prop where
  programs : s'.programs = s.programs
  uploads : s'.manager.activeUploads = s.manager.activeUploads
  others : ∀ u, u ≠ t → s'.manager.pcs u = s.manager.pcs u

omit [DecidableEq κ] in
theorem Keeps.of_manager {s' : LifecycleRun κ} (hprograms : s'.programs = s.programs)
    (hmanager : s'.manager = s.manager) : Keeps t s s' :=
  ⟨hprograms, congrArg _ hmanager, fun u _ => congrArg (fun m => m.pcs u) hmanager⟩

theorem enter_keeps (c : PolicyCall) : Keeps t s (s.enter t c) :=
  ⟨rfl, rfl, fun _ hne => PolicyRun.goTo_pcs_of_ne hne⟩

theorem rollUp_keeps (cause : SendCause) : Keeps t s (s.rollUp t cause).1 := by
  unfold rollUp
  split
  · exact .of_manager rfl rfl
  · exact .of_manager rfl rfl

theorem execute_keeps : Keeps t s (s.execute t answer instr).1 := by
  cases instr with
  | call c => exact enter_keeps c
  | finish f => exact enter_keeps f.handler
  | cancelSend | createSend | sendEvent tenantToken latency =>
    exact execute_of_sends (P := fun r => Keeps t s r.1) rfl
      fun _ _ _ _ hpcs huploads _ => ⟨rfl, huploads, fun u _ => congrFun hpcs u⟩
  | rollUp cause => exact rollUp_keeps cause
  | _ => exact .of_manager rfl rfl

theorem begins_keeps (c : SystemCall) : (s.begins t c).1.programs = s.programs ∧
    (s.begins t c).1.manager = s.manager ∧ (s.begins t c).1.raised = s.raised := by
  cases c with
  | start | stop =>
    simp only [begins]
    split_ifs
    · exact ⟨rfl, rfl, rfl⟩
    · exact ⟨rfl, rfl, rfl⟩
  | _ => exact ⟨rfl, rfl, rfl⟩

theorem plain_rollUp (cause : SendCause) : Plain (s.rollUp t cause).2 := by
  unfold rollUp
  split
  · exact plain_nil
  · intro i hi
    obtain ⟨_, _, rfl⟩ := mem_map.1 hi
    rfl

/-- **Plain instructions add plain ones.** -/
theorem plain_execute (h : instr.plain = true) : Plain (s.execute t answer instr).2 := by
  cases instr with
  | finish f | raise f | stopped due => cases h
  | exchangePaused => exact plain_ite plain_nil (by decide)
  | exchangeResumed => exact plain_ite (by decide) plain_nil
  | testInterval cause =>
    cases cause with
    | finished f => cases h
    | start | ongoing => exact plain_ite (by decide) plain_nil
  | cancelSend | createSend | sendEvent tenantToken latency =>
    exact execute_of_sends (P := fun r => Plain r.2) rfl fun _ _ _ _ _ _ his => his
  | rollUp cause => exact plain_rollUp cause
  | teardown => exact plain_ite (plain_cons rfl (plain_singleton rfl)) plain_nil
  | upload | awaitTeardown | exchangeScheduled | scheduleSend | exchangeSend | notify =>
    exact plain_ite (plain_singleton rfl) plain_nil
  | awaitDone | cancelAllRequests => exact plain_ite plain_nil (plain_singleton rfl)
  | _ => exact plain_nil

/-! ## Where the signal stands -/

/-- No signal among these. -/
def Silent (is : List Instr) : Prop := ∀ i ∈ is, i.isRaise = false

instance (is : List Instr) : Decidable (Silent is) := inferInstanceAs (Decidable (∀ _ ∈ _, _))

theorem silent_nil : Silent [] := fun _ h => nomatch h

theorem Plain.silent {is : List Instr} (h : Plain is) : Silent is :=
  fun i hi => Instr.isRaise_of_plain (h i hi)

theorem silent_begins (c : SystemCall) : Silent (s.begins t c).2 := by
  cases c with
  | start =>
    simp only [begins]
    split_ifs
    · exact silent_nil
    · exact show Silent (onStart ++ [.clearPaused]) by decide
  | stop =>
    simp only [begins]
    split_ifs
    · refine forall_mem_append.2 ⟨show Silent onStop by decide, fun i hi => ?_⟩
      rw [mem_singleton.1 hi]
      rfl
    · exact silent_nil
  | cleanup =>
    simp only [begins]
    split_ifs
    · exact show Silent onCleanup by decide
    · exact silent_nil
  | pause | resume => exact (plain_ite (plain_singleton rfl) plain_nil).silent
  | upload | sendEvent | nothingToUpload | notify => exact (plain_singleton rfl).silent
  | sendRequest | compressionFailed => exact (plain_cons rfl (plain_singleton rfl)).silent
  | requestDone => exact (plain_cons rfl (plain_cons rfl (plain_singleton rfl))).silent

/-- **A signal is put up by its own handler only**, which has just been
called. -/
theorem silent_execute (h : ∀ f, instr ≠ .finish f) : Silent (s.execute t answer instr).2 := by
  by_cases hplain : instr.plain = true
  · exact (plain_execute hplain).silent
  · cases instr with
    | finish f => exact absurd rfl (h f)
    | raise f => exact show Silent (allUploadsFinished f) by cases f <;> decide
    | testInterval cause =>
      have hsend : Silent (send cause) := forall_mem_cons.2 ⟨rfl, fun i hi => by
        rw [mem_singleton.1 hi]
        rfl⟩
      simp only [execute]
      split_ifs
      · exact hsend
      · exact silent_nil
    | rollUp cause => exact (plain_rollUp cause).silent
    | stopped due => exact silent_nil
    | _ => exact absurd rfl hplain

/-- The history of the signal is its own. -/
theorem raised_execute (h : ∀ f, instr ≠ .raise f) :
    (s.execute t answer instr).1.raised = s.raised := by
  cases instr with
  | raise f => exact absurd rfl (h f)
  | cancelSend | createSend | sendEvent tenantToken latency =>
    exact execute_of_sends (P := fun r => r.1.raised = s.raised) rfl fun _ _ _ _ _ _ _ => rfl
  | rollUp cause =>
    simp only [execute, rollUp]
    split <;> rfl
  | _ => rfl

/-- The thread is about to raise `allUploadsFinished`: `finishAllUploads` has
been called, or a wait for the uploads is over. -/
def signals (s : LifecycleRun κ) (t : Thread κ) : Bool :=
  match s.programs t with
  | .raise f :: _ => f = .finishAllUploads ∨ s.manager.pcs t = .idle
  | _ => false

/-- **Uploads are over when they are finished.** `finishAllUploads` is
called where no upload is active, and none is added while somebody is about
to raise the signal. -/
def UploadsOver (s : LifecycleRun κ) : LifecycleAction κ → Prop
  | .go t _ =>
    match s.manager.pcs t, s.programs t with
    | .idle, .finish .finishAllUploads :: _ => s.manager.activeUploads = ∅
    | .openUpload _, _ => ∀ u, s.signals u = false
    | _, _ => True
  | _ => True

/-- **Where a thread stands that will raise the signal**: on its way to the
end of the wait, or about to raise it, with no upload active. -/
inductive Stands (uploads : Finset ContextId) (pc : Pc) : List Instr → Prop
  | apart {is} (hsilent : Silent is) : Stands uploads pc is
  | waits {f rest} (hrest : Silent rest) (hpc : pc.finishing = true) :
    Stands uploads pc (.raise f :: rest)
  | ready {f rest} (hrest : Silent rest) (hplace : f = .finishAllUploads ∨ pc = .idle)
      (hnone : uploads = ∅) : Stands uploads pc (.raise f :: rest)

namespace Stands

variable {uploads uploads' : Finset ContextId} {pc : Pc} {is : List Instr}

theorem mono (h : Stands uploads pc is) (hsubset : uploads' ⊆ uploads) : Stands uploads' pc is := by
  cases h with
  | apart hsilent => exact .apart hsilent
  | waits hrest hpc => exact .waits hrest hpc
  | ready hrest hplace hnone => exact .ready hrest hplace (Finset.subset_empty.1 (hnone ▸ hsubset))

/-- The signal is raised where no upload is active. -/
theorem none {f : Finisher} (h : Stands uploads pc (.raise f :: is)) (hidle : pc = .idle) :
    uploads = ∅ := by
  cases h with
  | apart hsilent => cases hsilent (.raise f) mem_cons_self
  | waits hrest hpc =>
    rw [hidle] at hpc
    cases hpc
  | ready hrest hplace hnone => exact hnone

theorem tail (h : Stands uploads pc (instr :: is)) : Silent is := by
  cases h with
  | apart hsilent => exact fun i hi => hsilent i (mem_cons_of_mem _ hi)
  | waits hrest | ready hrest => exact hrest

end Stands

/-- **Whoever is about to raise the signal finds no upload**, and so has
everybody before. -/
structure Awaited (s : LifecycleRun κ) : Prop where
  stands : ∀ t, Stands s.manager.activeUploads (s.manager.pcs t) (s.programs t)
  raised : ∀ uploads ∈ s.raised, uploads = ∅

namespace Awaited

omit [DecidableEq κ] in
theorem initial (maxPendingReq intervalSec teardownTime : ℕ) (metaStats : MetaStats)
    (isScheduled : Bool) {timers : ℤ × ℤ} : Awaited (κ := κ)
      (.initial maxPendingReq intervalSec teardownTime metaStats isScheduled timers) where
  stands := fun _ => .apart silent_nil
  raised := fun _ h => nomatch h

variable (h : Awaited s)
include h

/-- A thread is left with other instructions, and nobody else is
concerned. -/
theorem programs {s' : LifecycleRun κ} (hkeeps : Keeps t s s')
    (hraised : ∀ uploads ∈ s'.raised, uploads = ∅) {is : List Instr}
    (his : Stands s'.manager.activeUploads (s'.manager.pcs t) is) :
    Awaited { s' with programs := update s'.programs t is } where
  stands := fun u => by
    by_cases hu : u = t
    · rw [hu]
      dsimp only
      rw [update_self]
      exact his
    · dsimp only
      rw [update_of_ne hu, hkeeps.programs, hkeeps.uploads, hkeeps.others u hu]
      exact h.stands u
  raised := hraised

omit [DecidableEq κ] in
/-- A thread that is not about to signal is on its way, or has no signal to
raise. -/
theorem silent_or_finishing (hnot : s.signals t = false) :
    Silent (s.programs t) ∨ (s.manager.pcs t).finishing = true := by
  have hstands := h.stands t
  rw [signals] at hnot
  generalize s.programs t = is at hstands hnot
  cases hstands with
  | apart hsilent => exact .inl hsilent
  | waits hrest hpc => exact .inr hpc
  | ready hrest hplace hnone => exact absurd hplace (of_decide_eq_false hnot)

omit [DecidableEq κ] in
/-- So it does not mind what the others open. -/
theorem stands_of_not_signals (hnot : s.signals t = false)
    (uploads : Finset ContextId) : Stands uploads (s.manager.pcs t) (s.programs t) := by
  rcases h.silent_or_finishing hnot with hsilent | hpc
  · exact .apart hsilent
  · have hstands := h.stands t
    generalize s.programs t = is at hstands
    cases hstands with
    | apart hsilent => exact .apart hsilent
    | waits hrest | ready hrest => exact .waits hrest hpc

/-- **The manager goes a step.** -/
theorem manages (hbusy : s.manager.pcs t ≠ .idle ∨ s.programs t = [])
    (hover : s.UploadsOver (.go t answer)) : Awaited (s.manage (.go t answer.timeout)) := by
  have hmoves := s.manager.goOn_moves t answer.timeout
  refine ⟨fun u => ?_, h.raised⟩
  change Stands (s.manager.goOn t answer.timeout (s.manager.pcs t)).activeUploads
    ((s.manager.goOn t answer.timeout (s.manager.pcs t)).pcs u) (s.programs u)
  by_cases hopens : (s.manager.pcs t).opens = true
  · have hquiet : ∀ u, s.signals u = false := by
      cases hpc : s.manager.pcs t with
      | openUpload latency =>
        simp only [UploadsOver, hpc] at hover
        exact hover
      | _ =>
        rw [hpc] at hopens
        cases hopens
    by_cases hu : u = t
    · rw [hu]
      rcases h.silent_or_finishing (hquiet t) with hsilent | hpc
      · exact .apart hsilent
      · cases (Pc.not_finishing_of_opens hopens).symm.trans hpc
    · rw [hmoves.pcs_of_ne hu]
      exact h.stands_of_not_signals (hquiet u) _
  · have hsubset := hmoves.activeUploads_subset (Bool.eq_false_iff.2 hopens)
    by_cases hu : u = t
    · rw [hu]
      have hstands := h.stands t
      generalize s.programs t = is at hstands hbusy
      cases hstands with
      | apart hsilent => exact .apart hsilent
      | waits hrest hpc =>
        rcases PolicyRun.goOn_finishing answer.timeout hpc with hpc' | ⟨hidle, hnone⟩
        · exact .waits hrest hpc'
        · exact .ready hrest (.inr hidle) (Finset.subset_empty.1 (hnone ▸ hsubset))
      | ready hrest hplace hnone =>
        have hfinish := hplace.resolve_right (hbusy.resolve_right nofun)
        exact .ready hrest (.inl hfinish) (Finset.subset_empty.1 (hnone ▸ hsubset))
    · rw [hmoves.pcs_of_ne hu]
      exact (h.stands u).mono hsubset

/-- **A thread carries an instruction out.** -/
theorem executes {rest : List Instr} (hidle : s.manager.pcs t = .idle)
    (hnext : s.programs t = instr :: rest) (hover : s.UploadsOver (.go t answer)) :
    Awaited { (s.execute t answer instr).1 with
      programs := update (s.execute t answer instr).1.programs t
        ((s.execute t answer instr).2 ++ rest) } := by
  have hstands := h.stands t
  rw [hnext] at hstands
  have hrest := hstands.tail
  refine h.programs execute_keeps ?_ ?_
  · intro uploads huploads
    by_cases hraise : ∃ f, instr = .raise f
    · obtain ⟨f, rfl⟩ := hraise
      rcases mem_cons.1 huploads with rfl | huploads
      · exact hstands.none hidle
      · exact h.raised uploads huploads
    · rw [raised_execute fun f hf => hraise ⟨f, hf⟩] at huploads
      exact h.raised uploads huploads
  · by_cases hfinish : ∃ f, instr = .finish f
    · obtain ⟨f, rfl⟩ := hfinish
      have hpc : (s.enter t f.handler).manager.pcs t = s.manager.entry f.handler :=
        PolicyRun.goTo_pcs_self
      by_cases hf : f = .finishAllUploads
      · subst hf
        simp only [UploadsOver, hidle, hnext] at hover
        exact .ready hrest (.inl rfl) hover
      · refine .waits hrest ?_
        dsimp only [execute]
        rw [hpc]
        exact PolicyRun.finishing_entry hf
    · exact .apart (forall_mem_append.2 ⟨silent_execute fun f hf => hfinish ⟨f, hf⟩, hrest⟩)

/-- **No step lets an upload in before a signal.** -/
theorem step {a : LifecycleAction κ} (hover : s.UploadsOver a) :
    Awaited (s.step a) := by
  have hsteps := s.step_steps a
  generalize s.step a = s' at hsteps
  cases hsteps with
  | stays => exact h
  | @begins t c hnone hidle =>
    obtain ⟨hprograms, hmanager, hraised⟩ := begins_keeps (s := s) (t := t) c
    refine h.programs (.of_manager hprograms hmanager) ?_ (.apart (silent_begins c))
    rw [hraised]
    exact h.raised
  | manages hbusy => exact h.manages hbusy hover
  | executes hidle hnext => exact h.executes hidle hnext hover
  | sends hnone =>
    have hsend : Plain (send .ongoing) := by decide
    have hprogram := h.programs (t := .worker) (.of_manager rfl rfl) h.raised
      (.apart hsend.silent)
    exact ⟨hprogram.stands, hprogram.raised⟩
  | configures => exact ⟨h.stands, h.raised⟩
  | outside hpcs huploads =>
    refine ⟨fun u => ?_, h.raised⟩
    dsimp only
    rw [hpcs, huploads]
    exact h.stands u

end Awaited

end LifecycleRun

end ClientTelemetry
