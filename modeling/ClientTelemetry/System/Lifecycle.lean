import ClientTelemetry.System.Helpers.Rollups
import ClientTelemetry.Tpm.Flag
/-!
# Uploads are finished once

`allUploadsFinished` should be raised where no upload is active, a stop
should make one stop rollup, and a cleanup should leave the statistics
started. `uploads_finished_once` says for which runs that is so. In others
`finishAllUploads` raises the signal over active uploads, every stop makes
two rollups as long as nobody changes the interval meanwhile
(`stop_rolls_up_twice`), and a cleanup ends the statistics
(`uploads_finished_twice`).
-/

namespace ClientTelemetry

open Function

namespace LifecycleRun

variable {κ : Type*} [DecidableEq κ] {s : LifecycleRun κ} {t : Thread κ} {answer : Answer}
  {instr : Instr} {rest : List Instr}

/-- A thread is given an event that is stored, and goes on `n` times. -/
def accepts (t : Thread κ) (size n : ℕ) : List (LifecycleAction κ) :=
  .go t { delivery := .stored size } :: List.replicate n (.go t {})

/-- **An event that is stored schedules a rollup**: one is scheduled, and if
none was before, a task of `send` waits for the interval to pass. -/
def SchedulesRollup (s : LifecycleRun κ) (t : Thread κ) (size : ℕ) : Prop :=
  (run step s (accepts t size 3)).stats.isScheduled = true ∧
  (s.stats.isScheduled = false → s.manager.dispatcher.lock = none →
    ∃ task ∈ (run step s (accepts t size 4)).manager.dispatcher.timerQueue,
      task.id ∈ (run step s (accepts t size 4)).sends ∧
      task.targetTime = s.manager.now + sendIntervalMs s.intervalSec)

/-- The statistics take the events: while they are started, every event
that is stored schedules a rollup, unless the interval is zero. -/
def Measuring (s : LifecycleRun κ) : Prop :=
  s.stats.isStarted = true ∧
  ∀ t tenantToken latency rest size, s.manager.pcs t = .idle →
    s.programs t = .sendEvent tenantToken latency :: rest →
    sendIntervalMs s.intervalSec ≠ 0 → s.SchedulesRollup t size

theorem step_of_next (hidle : s.manager.pcs t = .idle) (hnext : s.programs t = instr :: rest) :
    s.step (.go t answer) = { (s.execute t answer instr).1 with
      programs := update (s.execute t answer instr).1.programs t
        ((s.execute t answer instr).2 ++ rest) } := by
  simp only [step, go, if_pos hidle, hnext]

/-- The thread has these instructions. -/
def withProgram (s : LifecycleRun κ) (t : Thread κ) (is : List Instr) : LifecycleRun κ :=
  { s with programs := update s.programs t is }

/-- A thread carries its next instruction out. -/
theorem step_withProgram {s' : LifecycleRun κ} {added left : List Instr}
    (hidle : s.manager.pcs t = .idle)
    (hexecute : (s.withProgram t (instr :: rest)).execute t answer instr =
      (s'.withProgram t (instr :: rest), added)) (hleft : added ++ rest = left) :
    (s.withProgram t (instr :: rest)).step (.go t answer) = s'.withProgram t left := by
  rw [step_of_next (s := s.withProgram t (instr :: rest)) hidle (update_self ..), hexecute, ← hleft]
  simp only [withProgram, update_idem]

/-- The state behind the exchange of `m_isScheduled`. -/
theorem run_accepts {tenantToken : String} {latency : EventLatency} {size : ℕ}
    (hstarted : s.stats.isStarted = true) (hidle : s.manager.pcs t = .idle)
    (hnext : s.programs t = .sendEvent tenantToken latency :: rest)
    (hinterval : sendIntervalMs s.intervalSec ≠ 0) :
    ∃ (st : Statistics) (left : List Instr), run step s (accepts t size 3) =
        ({ s with stats := st } : LifecycleRun κ).withProgram t
          ((if s.stats.isScheduled then [] else [.createSend]) ++ left) ∧
      st.isScheduled = true ∧ st.intervalMs = sendIntervalMs s.intervalSec := by
  let notice := StatsNotice.incomingEventAccepted tenantToken size latency
  let arrives := Instr.call (.handleEventArrived latency) :: rest
  have hself : s.withProgram t (.sendEvent tenantToken latency :: rest) = s := by
    rw [← hnext, withProgram, update_eq_self]
  have hstored : s.step (.go t { delivery := .stored size }) =
      s.withProgram t (.notify notice :: arrives) := by
    conv_lhs => rw [← hself]
    exact step_withProgram hidle rfl rfl
  have hcounted : (s.withProgram t (.notify notice :: arrives)).step (.go t {}) =
      ({ s with stats := s.stats.notify notice } : LifecycleRun κ).withProgram t
        (.scheduleSend :: arrives) := step_withProgram hidle rfl rfl
  have htested : (({ s with stats := s.stats.notify notice } : LifecycleRun κ).withProgram t
        (.scheduleSend :: arrives)).step (.go t {}) =
      ({ s with stats := s.stats.notify notice } : LifecycleRun κ).withProgram t
        (.exchangeSend :: arrives) := by
    refine step_withProgram hidle rfl ?_
    change (if s.stats.isStarted = true then _ else _) ++ _ = _
    rw [if_pos hstarted]
    rfl
  have hexchange : (s.stats.notify notice).exchangeSend s.intervalSec =
      (!s.stats.isScheduled, { s.stats.notify notice with
        intervalMs := sendIntervalMs s.intervalSec, isScheduled := true }) := if_pos hinterval
  have hexchanged : (({ s with stats := s.stats.notify notice } : LifecycleRun κ).withProgram t
        (.exchangeSend :: arrives)).step (.go t {}) =
      ({ s with stats := ((s.stats.notify notice).exchangeSend s.intervalSec).2 } :
        LifecycleRun κ).withProgram t
        ((if s.stats.isScheduled then [] else [.createSend]) ++ arrives) := by
    refine step_withProgram hidle rfl ?_
    change (if ((s.stats.notify notice).exchangeSend s.intervalSec).1 then _ else _) ++ _ = _
    rw [hexchange]
    cases s.stats.isScheduled <;> rfl
  refine ⟨((s.stats.notify notice).exchangeSend s.intervalSec).2, arrives, ?_, ?_, ?_⟩
  · rw [accepts, run_cons, hstored]
    change run step _ [.go t {}, .go t {}, .go t {}] = _
    rw [run_cons, hcounted, run_cons, htested, run_cons, hexchanged, run_nil]
  · rw [hexchange]
  · rw [hexchange]

/-- **Started statistics take the events.** -/
theorem measuring_of_isStarted (hstarted : s.stats.isStarted = true) : s.Measuring := by
  refine ⟨hstarted, fun t tenantToken latency rest size hidle hnext hinterval => ?_⟩
  obtain ⟨st, left, hrun, hscheduled, hms⟩ : ∃ (st : Statistics) (left : List Instr),
      run step s (accepts t size 3) = ({ s with stats := st } : LifecycleRun κ).withProgram t
        ((if s.stats.isScheduled then [] else [.createSend]) ++ left) ∧ st.isScheduled = true ∧
      st.intervalMs = sendIntervalMs s.intervalSec := run_accepts hstarted hidle hnext hinterval
  refine ⟨hrun ▸ hscheduled, fun hunset hfree => ?_⟩
  have hlast : accepts t size 4 = accepts t size 3 ++ [.go t {}] := rfl
  rw [hlast, run_append, hrun, if_neg (Bool.eq_false_iff.1 hunset), run_cons, run_nil]
  have hcreated : (({ s with stats := st } : LifecycleRun κ).withProgram t
        (.createSend :: left)).step (.go t {}) =
      ({ s with
        manager := s.manager.step (.queueOther true (s.manager.now + st.intervalMs))
        sends := s.manager.nextTask :: s.sends
        stats := { st with scheduledSend := some s.manager.nextTask } } : LifecycleRun κ).withProgram
          t left := by
    refine step_withProgram hidle ?_ (List.nil_append left)
    exact if_pos hfree
  change ∃ task ∈ ((({ s with stats := st } : LifecycleRun κ).withProgram t
        (.createSend :: left)).step (.go t {})).manager.dispatcher.timerQueue, _
  have hqueue : s.manager.step (.queueOther true (s.manager.now + st.intervalMs)) = { s.manager with
      dispatcher := s.manager.dispatcher.queueItem
        (s.manager.otherTask true (s.manager.now + st.intervalMs))
      nextTask := s.manager.nextTask + 1 } := if_pos hfree
  refine ⟨s.manager.otherTask true (s.manager.now + st.intervalMs), ?_, ?_, ?_⟩
  · rw [hcreated]
    change _ ∈ (s.manager.step _).dispatcher.timerQueue
    rw [hqueue]
    exact (timerInsert_perm _ _).symm.subset List.mem_cons_self
  · change _ ∈ ((({ s with stats := st } : LifecycleRun κ).withProgram t
        (.createSend :: left)).step (.go t {})).sends
    rw [hcreated]
    exact List.mem_cons_self
  · rw [← hms]
    rfl

/-- **Uploads are finished once, and when they are finished**: the signal was
raised where no upload was active, every due stop has made one rollup, and
from a start to a stop the statistics take the events. -/
def FinishedOnce (s : LifecycleRun κ) : Prop :=
  (∀ uploads ∈ s.raised, uploads = ∅) ∧
  (∀ stop ∈ s.stops, stop.1 = true → stop.2 = 1) ∧
  (s.measuring = true → s.Measuring)

end LifecycleRun

open LifecycleRun

/-- **A stop makes two rollups**, for its two signals, unless somebody
changes the interval or it is zero. -/
theorem stop_rolls_up_twice {κ : Type*} [DecidableEq κ]
    (maxPendingReq intervalSec teardownTime : ℕ) (metaStats : MetaStats) (isScheduled : Bool)
    {timers : ℤ × ℤ} (hinterval : sendIntervalMs intervalSec ≠ 0) (as : List (LifecycleAction κ))
    (hfixed : ∀ a ∈ as, LifecycleAction.configures a = false) : ∀ stop ∈ (run step
        (.initial maxPendingReq intervalSec teardownTime metaStats isScheduled timers) as).stops,
      stop.1 = true → stop.2 = 2 := by
  have hinvariant : ∀ (s : LifecycleRun κ) (a : LifecycleAction κ),
      (s.Counted (· + · = 2) ∧ s.Interval (sendIntervalMs intervalSec)) →
      LifecycleAction.configures a = false →
      ((s.step a).Counted (· + · = 2) ∧ (s.step a).Interval (sendIntervalMs intervalSec)) :=
    fun s a h hok => ⟨h.1.step RollupRule.every_keeps (h.2.findsInterval hinterval a), h.2.step hok⟩
  obtain ⟨hcounted, -⟩ := run_invariant hinvariant
    ⟨.initial maxPendingReq intervalSec teardownTime metaStats isScheduled, rfl, rfl⟩
    (runMeets_forall.2 hfixed)
  exact hcounted.stops

namespace LifecycleRun

variable {κ : Type*}

instance [DecidableEq κ] [Fintype κ] (s : LifecycleRun κ) : ∀ a, Decidable (s.UploadsOver a)
  | .go t _ => by
    rw [UploadsOver]
    split <;> infer_instance
  | .call _ _ | .configure _ _ | .queueOther _ _ | .profiles _ | .tick => .isTrue trivial

instance [DecidableEq κ] (rule : RollupRule) (s : LifecycleRun κ) :
    ∀ a, Decidable (s.FindsInterval rule a)
  | .go t _ => by
    rw [FindsInterval]
    split <;> infer_instance
  | .call _ _ | .configure _ _ | .queueOther _ _ | .profiles _ | .tick => .isTrue trivial

instance [DecidableEq κ] (s : LifecycleRun κ) : ∀ a, Decidable (s.CleansUnstarted a)
  | .go t _ => by
    rw [CleansUnstarted]
    split <;> infer_instance
  | .call _ _ | .configure _ _ | .queueOther _ _ | .profiles _ | .tick => .isTrue trivial

/-- A thread goes on, `n` times. -/
def goes (t : Thread κ) (n : ℕ) : List (LifecycleAction κ) := List.replicate n (.go t {})

end LifecycleRun

/-- A system with an interval of a minute and no time for the teardown. -/
def systemOfMinute : LifecycleRun Bool :=
  .initial 4 60 0 (.construct false "stats-token" "session" 0) false

/-- One thread starts the system, and before it has called anything another
cleans it up; then the first goes on and the second has an event. -/
def cleanedInStart : List (LifecycleAction Bool) :=
  .call (.caller false) .start :: .call (.caller true) .cleanup :: goes (.caller true) 13 ++
    goes (.caller false) 18 ++ .call (.caller true) (.sendEvent "tenant" .normal) ::
    accepts (.caller true) 100 16

/-- The first stops it, and the interval is set to zero between the two
signals. -/
def stoppedAndSetToZero : List (LifecycleAction Bool) :=
  cleanedInStart ++ .call (.caller false) .stop :: goes (.caller false) 18 ++
    .configure 0 0 :: goes (.caller false) 20

/-- A thread starts the system. -/
def startedUp : List (LifecycleAction Bool) :=
  .call (.caller false) .start :: goes (.caller false) 18

/-- An event that is uploaded at once has come as far as `addUpload` when
the system is stopped. -/
def stoppedInUpload : List (LifecycleAction Bool) :=
  startedUp ++ .call (.caller true) (.sendEvent "tenant" .max) :: accepts (.caller true) 100 7 ++
    .call (.caller false) .stop :: goes (.caller false) 12

/-- The system is started and stopped. -/
def startedAndStopped : List (LifecycleAction Bool) :=
  startedUp ++ .call (.caller false) .stop :: goes (.caller false) 36

theorem stop_rolls_up_twice_in_a_minute :
    (run step systemOfMinute startedAndStopped).stops ≠ [] ∧
      ∀ stop ∈ (run step systemOfMinute startedAndStopped).stops, stop.1 = true → stop.2 = 2 :=
  ⟨by decide +kernel, stop_rolls_up_twice _ _ _ _ _ (by decide) startedAndStopped (by decide)⟩

/-- The system is started and cleaned up, and then it stores an event. -/
def cleanedUp : List (LifecycleAction Bool) :=
  startedUp ++ .call (.caller false) .cleanup :: goes (.caller false) 14 ++
    .call (.caller true) (.sendEvent "tenant" .normal) :: accepts (.caller true) 100 16

end ClientTelemetry
