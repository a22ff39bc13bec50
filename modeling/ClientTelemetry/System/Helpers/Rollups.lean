import ClientTelemetry.System.Helpers.Lifecycle
/-!
# The rollups of a stop

A stop raises `allUploadsFinished` twice, and each time the statistics make
a rollup if they find their interval not zero. `Instr.owes` is what an
instruction can still contribute, so that the rollups a stop has made and
those its instructions owe keep to what the rule for its signals makes of
them (`LifecycleRun.Counted`).
`LifecycleRun.Measured` says that what was started is started.
-/

namespace ClientTelemetry

open Function List

/-- The end of a stop for which a rollup was due. -/
def Instr.isDueStop : Instr → Bool
  | .stopped due => due
  | _ => false

theorem Instr.isDueStop_of_plain {i : Instr} (h : i.plain = true) : i.isDueStop = false := by
  cases i with
  | stopped due => cases h
  | _ => rfl

/-- The rollup of a signal counts for its stop. -/
def Finisher.weight : Finisher → ℕ
  | .finishAllUploads | .stop => 1
  | .cleanup => 0

/-- **What an instruction can still contribute** to the rollups of a stop. -/
def Instr.owes : Instr → ℕ
  | .finish f | .raise f | .testInterval (.finished f) | .rollUp (.finished f) => f.weight
  | _ => 0

theorem Instr.owes_of_plain {i : Instr} (h : i.plain = true) : i.owes = 0 := by
  cases i with
  | finish f | raise f => cases h
  | testInterval cause | rollUp cause =>
    cases cause with
    | finished f => cases h
    | _ => rfl
  | _ => rfl

/-- The rollups that are still to come. -/
def owed (is : List Instr) : ℕ := (is.map Instr.owes).sum

theorem owed_append {is js : List Instr} : owed (is ++ js) = owed is + owed js := by
  rw [owed, map_append, sum_append]
  rfl

/-- **What the signals of a stop should find**, by the rollups it has made
and those still to come: the interval is not zero where they must find it
so, and only where they may. -/
structure RollupRule where
  must : ℕ → ℕ → Bool
  may : ℕ → ℕ → Bool

namespace RollupRule

/-- Every signal finds it not zero. -/
def every : RollupRule := ⟨fun _ _ => true, fun _ _ => true⟩

/-- One does: only one before which no other did, and the last if no other
did. -/
def once : RollupRule := ⟨fun made ahead => made = 0 ∧ ahead = 0, fun made _ => made = 0⟩

/-- A relation of the rollups made to those to come that holds at first,
and behind every signal that finds what it should. -/
structure Keeps (rule : RollupRule) (ok : ℕ → ℕ → Prop) : Prop where
  start : ok 0 (owed onStop)
  skips : ∀ {made ahead} (f : Finisher), ok made (f.weight + ahead) →
    ¬ rule.must made ahead = true → ok made ahead
  makes : ∀ {made ahead} (f : Finisher), ok made (f.weight + ahead) →
    rule.may made ahead = true → ok (made + f.weight) ahead

theorem every_keeps : every.Keeps fun made ahead => made + ahead = 2 where
  start := rfl
  skips := fun _ _ hnot => absurd rfl hnot
  makes := fun _ hok _ => (Nat.add_assoc ..).trans hok

theorem once_keeps : once.Keeps fun made ahead => made ≤ 1 ∧ (ahead = 0 → made = 1) where
  start := ⟨Nat.zero_le 1, nofun⟩
  skips := by
    intro made ahead f hok hnot
    simp only [once, decide_eq_true_eq] at hnot
    omega
  makes := by
    intro made ahead f hok hmay
    have hzero : made = 0 := of_decide_eq_true hmay
    have hone : f.weight ≤ 1 := by cases f <;> decide
    omega

end RollupRule

/-- Starts and ends of the statistics, rollups, and ends of stops are on
record. -/
def Instr.recorded : Instr → Bool
  | .startStats | .endStats _ | .rollUp _ | .stopped _ => true
  | _ => false

namespace LifecycleRun

/-- No due stop ends here. -/
def Undue (is : List Instr) : Prop := ∀ i ∈ is, i.isDueStop = false

instance (is : List Instr) : Decidable (Undue is) := inferInstanceAs (Decidable (∀ _ ∈ _, _))

theorem Plain.undue {is : List Instr} (h : Plain is) : Undue is :=
  fun i hi => Instr.isDueStop_of_plain (h i hi)

theorem Plain.owed {is : List Instr} (h : Plain is) : owed is = 0 := by
  refine sum_eq_zero fun n hn => ?_
  obtain ⟨i, hi, rfl⟩ := mem_map.1 hn
  exact Instr.owes_of_plain (h i hi)

/-! ## What the records say -/

variable {κ : Type*} {s : LifecycleRun κ} {t u : Thread κ} {answer : Answer} {instr : Instr}

/-- **What most instructions leave alone.** -/
structure SameRecords (s s' : LifecycleRun κ) : Prop where
  stopRollups : s'.stopRollups = s.stopRollups
  stops : s'.stops = s.stops
  measuring : s'.measuring = s.measuring
  isStarted : s'.stats.isStarted = s.stats.isStarted

theorem exchangeSend_isStarted (st : Statistics) (intervalSec : ℕ) :
    (st.exchangeSend intervalSec).2.isStarted = st.isStarted := by
  unfold Statistics.exchangeSend
  dsimp only
  split_ifs <;> rfl

theorem rollUp_isStarted (st : Statistics) (kind : RollUpKind) (intervalSec : ℕ) (now : ℤ) :
    (st.rollUp kind intervalSec now).2.isStarted = st.isStarted := by
  unfold Statistics.rollUp
  dsimp only
  split_ifs <;> rfl

variable [DecidableEq κ] (cause : SendCause)

theorem execute_sameRecords (h : instr.recorded = false) :
    SameRecords s (s.execute t answer instr).1 := by
  cases instr with
  | startStats | endStats f | rollUp cause | stopped due => cases h
  | cancelSend | createSend | sendEvent tenantToken latency =>
    exact execute_of_sends (P := fun r => SameRecords s r.1) rfl
      fun _ _ _ _ _ _ _ => ⟨rfl, rfl, rfl, rfl⟩
  | exchangeSend => exact ⟨rfl, rfl, rfl, exchangeSend_isStarted ..⟩
  | _ => exact ⟨rfl, rfl, rfl, rfl⟩

/-- Where the interval is zero there is no rollup. -/
theorem rollUp_of_zero (hzero : sendIntervalMs s.intervalSec = 0) :
    (s.rollUp t cause).1.stopRollups = s.stopRollups := by
  simp only [rollUp, Statistics.rollUp, if_pos hzero]

/-- Where it is not, there is one. -/
theorem rollUp_of_ne_zero (f : Finisher) (hne : sendIntervalMs s.intervalSec ≠ 0) :
    (s.rollUp t (.finished f)).1.stopRollups t = s.stopRollups t + f.weight := by
  simp only [rollUp, Statistics.rollUp, if_neg hne]
  rw [update_self]
  cases f <;> rfl

theorem rollUp_plain {cause : SendCause} (h : (Instr.rollUp cause).plain = true) :
    (s.rollUp t cause).1.stopRollups = s.stopRollups := by
  by_cases hzero : sendIntervalMs s.intervalSec = 0
  · exact rollUp_of_zero cause hzero
  · simp only [rollUp, Statistics.rollUp, if_neg hzero]
    cases cause with
    | finished f => cases h
    | _ => exact update_eq_self ..

theorem rollUp_others (hne : u ≠ t) :
    (s.rollUp t cause).1.stopRollups u = s.stopRollups u := by
  unfold rollUp
  split
  · rfl
  · exact update_of_ne hne ..

theorem rollUp_records : (s.rollUp t cause).1.stops = s.stops ∧
    (s.rollUp t cause).1.measuring = s.measuring ∧
    (s.rollUp t cause).1.stats.isStarted = s.stats.isStarted := by
  have hstarted := rollUp_isStarted s.stats cause.kind s.intervalSec s.manager.now
  unfold rollUp
  split
  next st hroll =>
    rw [hroll] at hstarted
    exact ⟨rfl, rfl, hstarted⟩
  next records st hroll =>
    rw [hroll] at hstarted
    exact ⟨rfl, rfl, hstarted⟩

/-- The rollups of the other threads are theirs. -/
theorem execute_others (hne : u ≠ t) :
    (s.execute t answer instr).1.stopRollups u = s.stopRollups u := by
  by_cases hrecorded : instr.recorded = false
  · exact congrFun (execute_sameRecords hrecorded).stopRollups u
  · cases instr with
    | startStats | endStats f | stopped due => rfl
    | rollUp cause => exact rollUp_others cause hne
    | _ => exact absurd rfl hrecorded

/-! ## What a stop makes -/

/-- **The signals of a due stop find the interval as the rule says.** -/
def FindsInterval (rule : RollupRule) (s : LifecycleRun κ) : LifecycleAction κ → Prop
  | .go t _ =>
    match s.manager.pcs t, s.programs t with
    | .idle, .testInterval (.finished _) :: rest =>
      rest.any Instr.isDueStop = true →
        rule.must (s.stopRollups t) (owed rest) = true → s.stats.intervalMs ≠ 0
    | .idle, .rollUp (.finished _) :: rest =>
      rest.any Instr.isDueStop = true →
        (rule.must (s.stopRollups t) (owed rest) = true → sendIntervalMs s.intervalSec ≠ 0) ∧
        (sendIntervalMs s.intervalSec ≠ 0 → rule.may (s.stopRollups t) (owed rest) = true)
    | _, _ => True
  | _ => True

variable {rule : RollupRule} {ok : ℕ → ℕ → Prop}

/-- **A thread in a due stop**: what it has made and what its instructions
owe is related as the rule keeps it. -/
inductive Counts (ok : ℕ → ℕ → Prop) (made : ℕ) : List Instr → Prop
  | apart {is} (hundue : Undue is) : Counts ok made is
  | within {is} (hundue : Undue is) (hok : ok made (owed (is ++ [.stopped true]))) :
    Counts ok made (is ++ [.stopped true])

omit [DecidableEq κ] in
/-- At the end of a due stop nothing is owed. -/
theorem Counts.stopped {made : ℕ} {due : Bool} {rest : List Instr}
    (h : Counts ok made (.stopped due :: rest)) (hdue : due = true) : ok made 0 := by
  subst hdue
  generalize hprogram : Instr.stopped true :: rest = is at h
  cases h with
  | apart hundue => cases hundue (.stopped true) (hprogram ▸ mem_cons_self)
  | @within is hundue hok =>
    cases is with
    | nil => exact hok
    | cons instr is =>
      obtain ⟨rfl, -⟩ := List.cons.inj hprogram
      cases hundue (.stopped true) mem_cons_self

/-- **What an instruction makes and adds is what it owes**, as far as the
rule goes. -/
theorem execute_owed (hkeeps : rule.Keeps ok) {rest : List Instr}
    (hidle : s.manager.pcs t = .idle) (hnext : s.programs t = instr :: rest)
    (hdue : rest.any Instr.isDueStop = true) (hfinds : s.FindsInterval rule (.go t answer))
    (hok : ok (s.stopRollups t) (instr.owes + owed rest)) :
    ok ((s.execute t answer instr).1.stopRollups t)
      (owed (s.execute t answer instr).2 + owed rest) := by
  by_cases hplain : instr.plain = true
  · have hsame : (s.execute t answer instr).1.stopRollups t = s.stopRollups t := by
      by_cases hrecorded : instr.recorded = false
      · rw [(execute_sameRecords hrecorded).stopRollups]
      · cases instr with
        | startStats | endStats f => rfl
        | rollUp cause => exact congrFun (rollUp_plain hplain) t
        | stopped due => cases hplain
        | _ => exact absurd rfl hrecorded
    rwa [hsame, (plain_execute hplain).owed, ← Instr.owes_of_plain hplain]
  · simp only [FindsInterval, hidle, hnext] at hfinds
    cases instr with
    | finish f | stopped due => exact hok
    | raise f =>
      have howed : owed (allUploadsFinished f) = f.weight := by cases f <;> rfl
      change ok _ (owed (allUploadsFinished f) + _)
      rwa [howed]
    | testInterval cause =>
      cases cause with
      | finished f =>
        simp only [execute]
        split_ifs with hinterval
        · rwa [show owed (send (.finished f)) = f.weight from Nat.zero_add _]
        · rw [show owed [] = 0 from rfl, Nat.zero_add]
          exact hkeeps.skips f hok fun hmust => hinterval (hfinds hdue hmust)
      | _ => exact absurd rfl hplain
    | rollUp cause =>
      cases cause with
      | finished f =>
        change ok ((s.rollUp t (.finished f)).1.stopRollups t) (owed (s.rollUp t _).2 + _)
        rw [(plain_rollUp _).owed, Nat.zero_add]
        by_cases hzero : sendIntervalMs s.intervalSec = 0
        · rw [rollUp_of_zero _ hzero]
          exact hkeeps.skips f hok fun hmust => (hfinds hdue).1 hmust hzero
        · rw [rollUp_of_ne_zero f hzero]
          exact hkeeps.makes f hok ((hfinds hdue).2 hzero)
      | _ => exact absurd rfl hplain
    | _ => exact absurd rfl hplain

/-- The stops that are over. -/
theorem stops_execute (h : ∀ due, instr ≠ .stopped due) :
    (s.execute t answer instr).1.stops = s.stops := by
  by_cases hrecorded : instr.recorded = false
  · exact (execute_sameRecords hrecorded).stops
  · cases instr with
    | startStats | endStats f => rfl
    | rollUp cause => exact (rollUp_records cause).1
    | stopped due => exact absurd rfl (h due)
    | _ => exact absurd rfl hrecorded

/-- What is added ends no stop. -/
theorem undue_execute : Undue (s.execute t answer instr).2 := by
  by_cases hplain : instr.plain = true
  · exact (plain_execute hplain).undue
  · cases instr with
    | finish f => exact show Undue [.raise f] by cases f <;> decide
    | raise f => exact show Undue (allUploadsFinished f) by cases f <;> decide
    | testInterval cause =>
      simp only [execute]
      split_ifs
      · intro i hi
        rcases mem_cons.1 hi with rfl | hi
        · rfl
        · rw [mem_singleton.1 hi]
          rfl
      · exact plain_nil.undue
    | rollUp cause => exact (plain_rollUp cause).undue
    | stopped due => exact plain_nil.undue
    | _ => exact absurd rfl hplain

/-- **The rollups of the stops**, those under way and those that are over. -/
structure Counted (ok : ℕ → ℕ → Prop) (s : LifecycleRun κ) : Prop where
  counts : ∀ t, Counts ok (s.stopRollups t) (s.programs t)
  stops : ∀ stop ∈ s.stops, stop.1 = true → ok stop.2 0

namespace Counted

omit [DecidableEq κ] in
theorem initial (maxPendingReq intervalSec teardownTime : ℕ) (metaStats : MetaStats)
    (isScheduled : Bool) {timers : ℤ × ℤ} : Counted (κ := κ) ok
      (.initial maxPendingReq intervalSec teardownTime metaStats isScheduled timers) where
  counts := fun _ => .apart plain_nil.undue
  stops := fun _ h => nomatch h

variable (h : Counted ok s)
include h

/-- A thread is left with other instructions, and nobody else is
concerned. -/
theorem programs {s' : LifecycleRun κ} (hprograms : s'.programs = s.programs)
    (hothers : ∀ u, u ≠ t → s'.stopRollups u = s.stopRollups u)
    (hstops : ∀ stop ∈ s'.stops, stop.1 = true → ok stop.2 0) {is : List Instr}
    (his : Counts ok (s'.stopRollups t) is) :
    Counted ok { s' with programs := update s'.programs t is } where
  counts := fun u => by
    by_cases hu : u = t
    · rw [hu]
      dsimp only
      rw [update_self]
      exact his
    · dsimp only
      rw [update_of_ne hu, hprograms, hothers u hu]
      exact h.counts u
  stops := hstops

variable (hkeeps : rule.Keeps ok)
include hkeeps

theorem begins (c : SystemCall) :
    Counted ok { (s.begins t c).1 with
      programs := update (s.begins t c).1.programs t (s.begins t c).2 } := by
  have hsame (hrecords : SameRecords s (s.begins t c).1) (hundue : Undue (s.begins t c).2) :
      Counted ok { (s.begins t c).1 with
        programs := update (s.begins t c).1.programs t (s.begins t c).2 } :=
    h.programs (begins_keeps c).1 (fun u _ => congrFun hrecords.stopRollups u)
      (hrecords.stops ▸ h.stops) (.apart hundue)
  cases c with
  | start =>
    refine hsame ?_ ?_
    · simp only [LifecycleRun.begins]
      split_ifs
      · exact ⟨rfl, rfl, rfl, rfl⟩
      · exact ⟨rfl, rfl, rfl, rfl⟩
    · simp only [LifecycleRun.begins]
      split_ifs
      · exact plain_nil.undue
      · exact show Undue (onStart ++ [.clearPaused]) by decide
  | stop =>
    simp only [LifecycleRun.begins]
    split_ifs
    · have hprograms : ({ s with
          isStarted := false, stopRollups := update s.stopRollups t 0 } : LifecycleRun κ).programs =
          s.programs := rfl
      refine h.programs hprograms (fun u hu => update_of_ne hu ..) h.stops ?_
      have hstop : Undue onStop := by decide
      cases hdue : decide (sendIntervalMs s.intervalSec ≠ 0) with
      | true =>
        refine .within hstop ?_
        dsimp only
        rw [update_self]
        exact hkeeps.start
      | false =>
        refine .apart (forall_mem_append.2 ⟨hstop, fun i hi => ?_⟩)
        rw [mem_singleton.1 hi]
        rfl
    · exact h.programs rfl (fun _ _ => rfl) h.stops (.apart plain_nil.undue)
  | cleanup =>
    refine hsame ⟨rfl, rfl, rfl, rfl⟩ ?_
    simp only [LifecycleRun.begins]
    split_ifs
    · exact show Undue onCleanup by decide
    · exact plain_nil.undue
  | pause | resume =>
    exact hsame ⟨rfl, rfl, rfl, rfl⟩ (plain_ite (plain_singleton rfl) plain_nil).undue
  | upload | sendEvent | nothingToUpload | notify =>
    exact hsame ⟨rfl, rfl, rfl, rfl⟩ (plain_singleton rfl).undue
  | sendRequest | compressionFailed =>
    exact hsame ⟨rfl, rfl, rfl, rfl⟩ (plain_cons rfl (plain_singleton rfl)).undue
  | requestDone =>
    exact hsame ⟨rfl, rfl, rfl, rfl⟩ (plain_cons rfl (plain_cons rfl (plain_singleton rfl))).undue

/-- **A thread carries an instruction out.** -/
theorem executes {rest : List Instr} (hidle : s.manager.pcs t = .idle)
    (hnext : s.programs t = instr :: rest) (hfinds : s.FindsInterval rule (.go t answer)) :
    Counted ok { (s.execute t answer instr).1 with
      programs := update (s.execute t answer instr).1.programs t
        ((s.execute t answer instr).2 ++ rest) } := by
  have hcounts := h.counts t
  rw [hnext] at hcounts
  refine h.programs execute_keeps.programs (fun u hu => execute_others hu) ?_ ?_
  · intro stop hstop hdue
    by_cases hstopped : ∃ due, instr = .stopped due
    · obtain ⟨due, rfl⟩ := hstopped
      rcases mem_cons.1 hstop with rfl | hstop
      · exact hcounts.stopped hdue
      · exact h.stops stop hstop hdue
    · rw [stops_execute fun due hdue => hstopped ⟨due, hdue⟩] at hstop
      exact h.stops stop hstop hdue
  · generalize hprogram : instr :: rest = is at hcounts
    cases hcounts with
    | apart hundue =>
      rw [← hprogram] at hundue
      exact .apart (forall_mem_append.2 ⟨undue_execute, (forall_mem_cons.1 hundue).2⟩)
    | @within is hundue hok =>
      cases is with
      | nil =>
        obtain ⟨rfl, rfl⟩ := List.cons.inj hprogram
        exact .apart plain_nil.undue
      | cons instr' is =>
        obtain ⟨rfl, rfl⟩ := List.cons.inj hprogram
        have hdue : (is ++ [Instr.stopped true]).any Instr.isDueStop = true := by
          rw [any_append]
          exact Bool.or_true _
        have hexecuted : ok _ (owed _ + owed (is ++ [.stopped true])) :=
          execute_owed hkeeps hidle hnext hdue hfinds hok
        change Counts ok _ (_ ++ (is ++ [.stopped true]))
        rw [← owed_append, ← append_assoc] at hexecuted
        rw [← append_assoc]
        exact .within (forall_mem_append.2 ⟨undue_execute, (forall_mem_cons.1 hundue).2⟩) hexecuted

/-- **No step loses a rollup or makes one too many.** -/
theorem step {a : LifecycleAction κ} (hfinds : s.FindsInterval rule a) :
    Counted ok (s.step a) := by
  have hsteps := s.step_steps a
  generalize s.step a = s' at hsteps
  cases hsteps with
  | stays => exact h
  | @begins t c hnone hidle => exact h.begins hkeeps c
  | manages hbusy | configures | outside hpcs huploads => exact ⟨h.counts, h.stops⟩
  | executes hidle hnext => exact h.executes hkeeps hidle hnext hfinds
  | sends hnone =>
    have hsend : Plain (send .ongoing) := by decide
    have hprogram := h.programs (t := .worker) rfl (fun _ _ => rfl) h.stops (.apart hsend.undue)
    exact ⟨hprogram.counts, hprogram.stops⟩

end Counted

/-! ## An interval nobody changes -/

/-- The statistics have read the interval there is, and it is this one. -/
def Interval (ms : ℕ) (s : LifecycleRun κ) : Prop :=
  s.stats.intervalMs = ms ∧ sendIntervalMs s.intervalSec = ms

/-- The configuration changes. -/
def LifecycleAction.configures : LifecycleAction κ → Bool
  | .configure _ _ => true
  | _ => false

theorem Interval.execute {ms : ℕ} (h : Interval ms s) :
    Interval ms (s.execute t answer instr).1 := by
  cases instr with
  | cancelSend | createSend | sendEvent tenantToken latency =>
    exact execute_of_sends (P := fun r => Interval ms r.1) rfl fun _ _ _ _ _ _ _ => h
  | exchangeSend =>
    refine ⟨?_, h.2⟩
    simp only [LifecycleRun.execute, Statistics.exchangeSend]
    split_ifs
    · exact h.2
    · exact h.2
  | rollUp cause =>
    simp only [LifecycleRun.execute, rollUp, Statistics.rollUp]
    split_ifs
    · exact ⟨h.2, h.2⟩
    · exact ⟨h.2, h.2⟩
  | _ => exact h

theorem Interval.step {ms : ℕ} {a : LifecycleAction κ} (h : Interval ms s)
    (hfixed : LifecycleAction.configures a = false) : Interval ms (s.step a) := by
  have hsteps := s.step_steps a
  generalize s.step a = s' at hsteps
  cases hsteps with
  | @begins t c hnone hidle =>
    cases c with
    | start | stop =>
      simp only [begins]
      split_ifs
      · exact h
      · exact h
    | _ => exact h
  | executes hidle hnext =>
    exact ⟨h.execute.1, h.execute.2⟩
  | configures => cases hfixed
  | _ => exact h

omit [DecidableEq κ] in
/-- Where it is not zero every signal finds it so. -/
theorem Interval.findsInterval {ms : ℕ} (h : Interval ms s) (hms : ms ≠ 0)
    (a : LifecycleAction κ) : s.FindsInterval .every a := by
  cases a with
  | go t answer =>
    have hcached : s.stats.intervalMs ≠ 0 := h.1.trans_ne hms
    have hset : sendIntervalMs s.intervalSec ≠ 0 := h.2.trans_ne hms
    rw [FindsInterval]
    split
    · exact fun _ _ => hcached
    · exact fun _ => ⟨fun _ => hset, fun _ => rfl⟩
    · trivial
  | _ => trivial

/-! ## What was started is started -/

/-- **Statistics that are started are not cleaned up.** -/
def CleansUnstarted (s : LifecycleRun κ) : LifecycleAction κ → Prop
  | .go t _ =>
    match s.manager.pcs t, s.programs t with
    | .idle, .endStats .cleanup :: _ => s.stats.isStarted = false
    | _, _ => True
  | _ => True

/-- The statistics are started from a start to a stop. -/
def Measured (s : LifecycleRun κ) : Prop := s.measuring = true → s.stats.isStarted = true

variable (h : Measured s)
include h

omit [DecidableEq κ] in
theorem Measured.of_same {s' : LifecycleRun κ}
    (hmeasuring : s'.measuring = s.measuring)
    (hstarted : s'.stats.isStarted = s.stats.isStarted) : Measured s' := by
  intro hon
  rw [hstarted]
  exact h (hmeasuring ▸ hon)

theorem Measured.execute {rest : List Instr} (hidle : s.manager.pcs t = .idle)
    (hnext : s.programs t = instr :: rest) (hcleans : s.CleansUnstarted (.go t answer)) :
    Measured (s.execute t answer instr).1 := by
  by_cases hrecorded : instr.recorded = false
  · have hsame : SameRecords s (s.execute t answer instr).1 := execute_sameRecords hrecorded
    exact h.of_same hsame.measuring hsame.isStarted
  · cases instr with
    | startStats => exact fun _ => rfl
    | endStats f =>
      intro hon
      cases f with
      | cleanup =>
        simp only [CleansUnstarted, hidle, hnext] at hcleans
        cases hcleans.symm.trans (h hon)
      | finishAllUploads | stop => cases hon
    | rollUp cause =>
      exact h.of_same (rollUp_records cause).2.1 (rollUp_records cause).2.2
    | stopped due => exact h
    | _ => exact absurd rfl hrecorded

/-- **Only a stop ends the statistics.** -/
theorem Measured.step {a : LifecycleAction κ} (hcleans : s.CleansUnstarted a) :
    Measured (s.step a) := by
  have hsteps := s.step_steps a
  generalize s.step a = s' at hsteps
  cases hsteps with
  | @begins t c hnone hidle =>
    cases c with
    | start | stop =>
      simp only [begins]
      split_ifs
      · exact h
      · exact h
    | _ => exact h
  | executes hidle hnext => exact h.execute hidle hnext hcleans
  | _ => exact h

end LifecycleRun

end ClientTelemetry
