import ClientTelemetry.Common.Run
import ClientTelemetry.Stats.Model.MetaStats
/-!
# The cumulative statistics and the tenants

Each update adds a number to each counter, once in the cumulative
statistics (`cumulativeAdds`) and once over the tenants (`tenantAdds`), and
a rollup resets both. The sides stay equal exactly as long as they are
added the same: a package that has been sent adds one to the cumulative
counter however many records it had, and rejected records are not added
to it at all.
-/

namespace ClientTelemetry

open List

/-- The counters of records. -/
inductive RecordCounter where
  | received
  | sent
  | rejected
  | dropped
  | overflown
  deriving DecidableEq

/-- A counter of some statistics. -/
def RecordCounter.read : RecordCounter → RecordStats → ℕ
  | .received, r => r.received
  | .sent, r => r.sent
  | .rejected, r => r.rejected
  | .dropped, r => r.dropped
  | .overflown, r => r.overflown

namespace RecordStats

variable (r : RecordStats) {c : RecordCounter}

theorem read_addDropped (reason count : ℕ) :
    c.read (r.addDropped reason count) = c.read r + if c = .dropped then count else 0 := by
  cases c <;> rfl

theorem read_addOverflown (count : ℕ) :
    c.read (r.addOverflown count) = c.read r + if c = .overflown then count else 0 := by
  cases c <;> rfl

theorem read_addRejected (reason count : ℕ) :
    c.read (r.addRejected reason count) = c.read r + if c = .rejected then count else 0 := by
  cases c <;> rfl

theorem read_addRejectedByReason (reason count : ℕ) :
    c.read (r.addRejectedByReason reason count) = c.read r := by
  cases c <;> rfl

end RecordStats

/-! ## What an update adds -/

namespace StatsUpdate

/-- **What an update adds to a cumulative counter.** -/
def cumulativeAdds : StatsUpdate → RecordCounter → ℕ
  | .eventIncoming _ _ _ _, .received => 1
  | .packageSentSucceeded _ _ _ _ _, .sent => 1
  | .recordsDropped _ counts, .dropped => MetaStats.overallCount counts
  | .recordsOverFlown counts, .overflown => MetaStats.overallCount counts
  | _, _ => 0

/-- **What it adds to that counter of the tenants**, taken together. -/
def tenantAdds : StatsUpdate → RecordCounter → ℕ
  | .eventIncoming _ _ _ _, .received => 1
  | .packageSentSucceeded ids _ _ _ _, .sent => ids.entries.length
  | .recordsDropped _ counts, .dropped => MetaStats.overallCount counts
  | .recordsOverFlown counts, .overflown => MetaStats.overallCount counts
  | .recordsRejected _ counts, .rejected => MetaStats.overallCount counts
  | _, _ => 0

/-- The records of a package that has been sent. -/
def recordsSent : StatsUpdate → ℕ
  | .packageSentSucceeded ids _ _ _ _ => ids.entries.length
  | _ => 0

/-- **An update that counts the same on both sides**: a package with one
record, or a rejection of none. -/
def CountsAlike : StatsUpdate → Prop
  | .packageSentSucceeded ids _ _ _ _ => ids.entries.length = 1
  | .recordsRejected _ counts => MetaStats.overallCount counts = 0
  | _ => True

instance : ∀ u, Decidable (CountsAlike u)
  | .packageSentSucceeded _ _ _ _ _ => inferInstanceAs (Decidable (_ = _))
  | .recordsRejected _ _ => inferInstanceAs (Decidable (_ = _))
  | .eventIncoming _ _ _ _ | .postData _ _ | .packageFailed _ | .packageRetry _ _
  | .recordsDropped _ _ | .recordsOverFlown _ | .storageOpened _ | .storageFailed _
  | .generateStatsEvent _ _ => .isTrue trivial

theorem countsAlike_iff (u : StatsUpdate) : u.CountsAlike ↔
      (∀ c, u.cumulativeAdds c = u.tenantAdds c) ∧ u.cumulativeAdds .sent = u.recordsSent := by
  cases u with
  | packageSentSucceeded ids latency retries duration metastatsOnly =>
    constructor
    · intro hone
      refine ⟨fun c => ?_, hone.symm⟩
      cases c with
      | sent => exact hone.symm
      | _ => rfl
    · intro h
      exact h.2.symm
  | recordsRejected reason counts =>
    constructor
    · intro hnone
      refine ⟨fun c => ?_, rfl⟩
      cases c with
      | rejected => exact hnone.symm
      | _ => rfl
    · intro h
      exact (h.1 .rejected).symm
  | _ => exact iff_of_true trivial ⟨fun c => by cases c <;> rfl, rfl⟩

end StatsUpdate

/-- The change adds to the counter. -/
def RecordCounter.Adds (c : RecordCounter) (change : TelemetryStats → TelemetryStats) (k : ℕ) :
    Prop := ∀ t, c.read (change t).recordStats = c.read t.recordStats + k

namespace MetaStats

variable {s : MetaStats} {c : RecordCounter} {token : String}
  {change : TelemetryStats → TelemetryStats}

/-- A cumulative counter. -/
def cumulative (s : MetaStats) (c : RecordCounter) : ℕ := c.read s.telemetryStats.recordStats

/-- **The sum of a counter over the tenants.** -/
def total (s : MetaStats) (c : RecordCounter) : ℕ :=
  (s.telemetryTenantStats.values.map fun t => c.read t.recordStats).sum

/-! ## One place -/

/-- **A change of tenants only.** -/
structure SameAll (s s' : MetaStats) : Prop where
  split : s'.enableTenantStats = s.enableTenantStats
  cumulative : s'.telemetryStats = s.telemetryStats

theorem sameAll_foldl_onTenant {α : Type*} {token : α → String}
    {change : α → TelemetryStats → TelemetryStats} (es : List α) :
    SameAll s (es.foldl (fun s e => s.onTenant (token e) (change e)) s) := by
  induction es generalizing s with
  | nil => exact ⟨rfl, rfl⟩
  | cons e es ih => exact ⟨ih.split, ih.cumulative⟩

theorem sameAll_countLatency {size : ℕ} {latency : ℤ} :
    SameAll s (s.countLatency token size latency) := by
  unfold countLatency
  split_ifs <;> exact ⟨rfl, rfl⟩

theorem sameAll_addPerTenant {counts : OrdMap String ℕ} {add : ℕ → RecordStats → RecordStats} :
    SameAll s (s.addPerTenant counts add) := by
  unfold addPerTenant
  split_ifs
  · exact sameAll_foldl_onTenant counts.entries
  · exact ⟨rfl, rfl⟩

theorem total_onTenant {k : ℕ} (hchange : c.Adds change k) :
    (s.onTenant token change).total c = s.total c + k := by
  have hsum := OrdMap.sum_insert (m := s.telemetryTenantStats) (k := token)
    (v := change (s.tenant token)) fun t => c.read t.recordStats
  have hbefore : ((s.telemetryTenantStats.find? token).map fun t => c.read t.recordStats).getD 0 =
      c.read (s.tenant token).recordStats := by
    rw [tenant]
    cases s.telemetryTenantStats.find? token with
    | none => cases c <;> rfl
    | some t => rfl
  rw [hbefore, hchange] at hsum
  simp only [total, onTenant]
  omega

theorem total_onTenants : (s.onTenants change).total c =
      (s.telemetryTenantStats.values.map fun t => c.read (change t).recordStats).sum := by
  simp only [total, onTenants, OrdMap.values, map_map]
  rfl

/-- **What a counter shows**, in statistics that are split by tenant. -/
structure Counts (s : MetaStats) (c : RecordCounter) (all tenants : ℕ) : Prop where
  split : s.enableTenantStats = true
  cumulative : s.cumulative c = all
  total : s.total c = tenants

namespace Counts

variable {n m k : ℕ} {change : TelemetryStats → TelemetryStats}

theorem onAll (h : s.Counts c n m) (hchange : c.Adds change k) :
    (s.onAll change).Counts c (n + k) m :=
  ⟨h.split, (hchange _).trans (congrArg (· + k) h.cumulative), h.total⟩

theorem onRecords {add : RecordStats → RecordStats} (h : s.Counts c n m)
    (hadd : ∀ r, c.read (add r) = c.read r + k) : (s.onAll (·.onRecords add)).Counts c (n + k) m :=
  h.onAll fun t => hadd t.recordStats

theorem onTenant {token : String} (h : s.Counts c n m) (hchange : c.Adds change k) :
    (s.onTenant token change).Counts c n (m + k) :=
  ⟨h.split, h.cumulative, (total_onTenant hchange).trans (congrArg (· + k) h.total)⟩

/-- **A loop over tenants** adds what its turns add. -/
theorem foldl_onTenant {α : Type*} {token : α → String}
    {change : α → TelemetryStats → TelemetryStats} {k : α → ℕ} (h : s.Counts c n m) (es : List α)
    (hchange : ∀ e, c.Adds (change e) (k e)) :
    (es.foldl (fun s e => s.onTenant (token e) (change e)) s).Counts c n (m + (es.map k).sum) := by
  induction es generalizing s m with
  | nil => exact h
  | cons e es ih =>
    rw [foldl_cons, map_cons, sum_cons, ← Nat.add_assoc]
    exact ih (h.onTenant (hchange e))

theorem countLatency (h : s.Counts c n m) (token : String) (size : ℕ) (latency : ℤ) :
    (s.countLatency token size latency).Counts c n m := by
  unfold MetaStats.countLatency
  split_ifs
  · exact h.onTenant (k := 0) fun t => rfl
  · exact h

/-- A loop over the counts of tenants adds their sum to the counter it is
about. -/
theorem addPerTenant {add : ℕ → RecordStats → RecordStats} {which : RecordCounter}
    (h : s.Counts c n m) (counts : OrdMap String ℕ)
    (hadd : ∀ count r, c.read (add count r) = c.read r + if c = which then count else 0) :
    (s.addPerTenant counts add).Counts c n (m + if c = which then overallCount counts else 0) := by
  have hsum : (counts.entries.map fun e => if c = which then castUnsigned e.2 else 0).sum =
      if c = which then overallCount counts else 0 := by
    split_ifs
    · rw [overallCount, OrdMap.values, map_map]
      rfl
    · rw [map_const', sum_replicate, smul_zero]
  rw [MetaStats.addPerTenant, if_pos h.split, ← hsum]
  exact h.foldl_onTenant counts.entries fun e t => hadd (castUnsigned e.2) t.recordStats

theorem resetStats {start : Bool} {now : ℤ} (hsplit : s.enableTenantStats = true) :
    (s.resetStats start now).Counts c 0 0 := by
  have hzero : ∀ t : TelemetryStats,
      c.read (t.resetStats s.sessionId start now).recordStats = 0 := by
    intro t
    cases c <;> rfl
  unfold MetaStats.resetStats
  dsimp only
  rw [if_pos (show (s.onAll _).enableTenantStats = true from hsplit)]
  refine ⟨hsplit, hzero s.telemetryStats, total_onTenants.trans (sum_eq_zero fun n hn => ?_)⟩
  obtain ⟨t, -, rfl⟩ := mem_map.1 hn
  exact hzero t

theorem clearStats (h : s.Counts c n m) : s.clearStats.Counts c n m := by
  unfold MetaStats.clearStats
  dsimp only
  rw [if_pos (show (s.onAll _).enableTenantStats = true from h.split)]
  exact ⟨h.split, h.cumulative, total_onTenants.trans h.total⟩

end Counts

/-! ## One update -/

/-- The statistics are reset by the update. -/
def resets (s : MetaStats) : StatsUpdate → Bool
  | .generateStatsEvent rollupKind _ => s.rollsUp rollupKind
  | _ => false

/-- The statistics behind `generateStatsEvent`, but for what `clearStats`
clears. -/
def rolled (s : MetaStats) (rollupKind : RollUpKind) (now : ℤ) : MetaStats :=
  if s.rollsUp rollupKind then
    (s.onAll fun t => { t with tenantId := tenantTokenId s.metaStatsTenantToken }).resetStats false
      now
  else s

theorem generateStatsEvent_eq {rollupKind : RollUpKind} {now : ℤ} :
    (s.generateStatsEvent rollupKind now).2 =
      if rollupKind = .stop then (s.rolled rollupKind now).clearStats
      else s.rolled rollupKind now := by
  unfold generateStatsEvent rolled
  by_cases h : s.rollsUp rollupKind = true
  · simp only [if_pos h]
  · simp only [if_neg h]

namespace Counts

variable {n m : ℕ}

variable (h : s.Counts c n m)
include h

/-- **A rollup** resets the counters on both sides, or leaves them. -/
theorem generateStatsEvent (rollupKind : RollUpKind) (now : ℤ) :
    (s.generateStatsEvent rollupKind now).2.Counts c (if s.rollsUp rollupKind then 0 else n)
      (if s.rollsUp rollupKind then 0 else m) := by
  have hrolled : (s.rolled rollupKind now).Counts c (if s.rollsUp rollupKind then 0 else n)
      (if s.rollsUp rollupKind then 0 else m) := by
    unfold rolled
    split_ifs
    · exact resetStats h.split
    · exact h
  rw [generateStatsEvent_eq]
  split_ifs at hrolled ⊢ <;> first | exact hrolled | exact hrolled.clearStats

/-- An event that comes in, on both sides. -/
theorem updateOnEventIncoming (token : String) (size : ℕ) (latency : ℤ)
    (metastats : Bool) : (s.updateOnEventIncoming token size latency metastats).Counts c
      (n + if c = .received then 1 else 0) (m + if c = .received then 1 else 0) := by
  have hread : c.Adds (·.onRecords (·.incoming size metastats))
      (if c = .received then 1 else 0) := by
    intro t
    cases c <;> rfl
  have hfirst := (h.onAll hread).countLatency token size latency
  unfold MetaStats.updateOnEventIncoming
  dsimp only
  rw [if_pos hfirst.split]
  refine countLatency (onTenant (m := m) ?_ hread) token size latency
  exact hfirst.onTenant (k := 0) fun t => rfl

/-- A package that has been sent. -/
theorem updateOnPackageSentSucceeded (ids : OrdMap String String)
    (latency : ℤ) (retries duration : ℕ) (metastatsOnly : Bool) :
    (s.updateOnPackageSentSucceeded ids latency retries duration metastatsOnly).Counts c
      (n + if c = .sent then 1 else 0) (m + if c = .sent then ids.entries.length else 0) := by
  have hread : c.Adds (·.packageSent latency) (if c = .sent then 1 else 0) := by
    intro t
    unfold TelemetryStats.packageSent
    dsimp only
    split_ifs <;> cases c <;> first | rfl | contradiction
  have hsum : (ids.entries.map fun _ => if c = .sent then 1 else 0).sum =
      if c = .sent then ids.entries.length else 0 := by
    rw [map_const', sum_replicate]
    split_ifs
    · exact mul_one _
    · exact smul_zero _
  have hacked : (s.packageAcked retries duration metastatsOnly).Counts c n m :=
    { h with }
  unfold MetaStats.updateOnPackageSentSucceeded
  dsimp only
  rw [if_pos (hacked.onAll hread).split, ← hsum]
  exact (hacked.onAll hread).foldl_onTenant ids.entries fun _ => hread

/-- **What an update does to the counters**, on both sides. -/
theorem step (u : StatsUpdate) :
    (s.step u).Counts c (if s.resets u then 0 else n + u.cumulativeAdds c)
      (if s.resets u then 0 else m + u.tenantAdds c) := by
  cases u with
  | eventIncoming token size latency metastats =>
    have hcounts := h.updateOnEventIncoming token size latency metastats
    cases c <;> exact hcounts
  | packageSentSucceeded ids latency retries duration metastatsOnly =>
    have hcounts := h.updateOnPackageSentSucceeded ids latency retries duration metastatsOnly
    cases c <;> exact hcounts
  | recordsDropped reason counts =>
    have hcounts := (h.addPerTenant counts fun count r =>
      r.read_addDropped reason count).onRecords fun r =>
        r.read_addDropped reason (overallCount counts)
    cases c <;> exact hcounts
  | recordsOverFlown counts =>
    have hcounts := (h.addPerTenant counts fun count r =>
      r.read_addOverflown count).onRecords fun r => r.read_addOverflown (overallCount counts)
    cases c <;> exact hcounts
  | recordsRejected reason counts =>
    have hcounts := (h.addPerTenant counts fun count r =>
      r.read_addRejected reason count).onRecords (k := 0) fun r =>
        r.read_addRejectedByReason reason (overallCount counts)
    cases c <;> exact hcounts
  | generateStatsEvent rollupKind now => exact h.generateStatsEvent rollupKind now
  | _ => cases c <;> exact { h with }

end Counts

end MetaStats

/-! ## Runs -/

/-- **The statistics, with a count of the records** of the packages that
have been sent since the last reset. -/
structure CountedStats where
  stats : MetaStats
  recordsSent : ℕ := 0

namespace CountedStats

variable {s : CountedStats}

/-- The statistics as they are constructed. -/
def construct (split : Bool) (metaStatsTenantToken sessionId : String) (now : ℤ) : CountedStats where
  stats := .construct split metaStatsTenantToken sessionId now

/-- One call. -/
def step (s : CountedStats) (u : StatsUpdate) : CountedStats where
  stats := s.stats.step u
  recordsSent := if s.stats.resets u then 0 else s.recordsSent + u.recordsSent

/-- **The two sides agree**: each cumulative counter is the sum over the
tenants, and `sent` counts the records. -/
def Agrees (s : CountedStats) : Prop :=
  (∀ c, s.stats.cumulative c = s.stats.total c) ∧ s.stats.cumulative .sent = s.recordsSent

/-- **A step keeps the agreement** exactly if it counts alike. -/
theorem agrees_step_iff (henabled : s.stats.enableTenantStats = true) (h : s.Agrees)
    (u : StatsUpdate) : (s.step u).Agrees ↔ u.CountsAlike := by
  have hcounts c := MetaStats.Counts.step (c := c) ⟨henabled, rfl, rfl⟩ u
  have hcumulative c : (s.step u).stats.cumulative c = _ := (hcounts c).cumulative
  have htotal c : (s.step u).stats.total c = _ := (hcounts c).total
  cases hresets : s.stats.resets u with
  | true =>
    -- both sides are zero, and a rollup counts nothing
    have halike : u.CountsAlike := by
      cases u with
      | generateStatsEvent rollupKind now => trivial
      | _ => cases hresets
    refine iff_of_true ⟨fun c => ?_, ?_⟩ halike
    · rw [hcumulative, htotal, hresets]
      rfl
    · rw [hcumulative, step, hresets]
      rfl
  | false =>
    have hrecords : (s.step u).recordsSent = s.stats.cumulative .sent + u.recordsSent := by
      rw [step, hresets, h.2]
      rfl
    rw [StatsUpdate.countsAlike_iff, Agrees]
    simp only [hcumulative, htotal, hrecords, hresets, Bool.false_eq_true, if_false, ← h.1,
      Nat.add_left_cancel_iff]

/-- **When the cumulative statistics are the sum over the tenants.** For
statistics that are split by tenant, and every sequence of updates and
rollups in which each package that was sent has one record and each
rejection counts none: each cumulative counter of records is the sum of that counter
over the tenants, and `sent` counts one for each record sent since the last
reset. From there one more update keeps this if and only if it is of that
kind. -/
theorem cumulative_eq_total (metaStatsTenantToken sessionId : String) (now : ℤ)
    (us : List StatsUpdate) (halike : ∀ u ∈ us, u.CountsAlike) :
    let s := run step (construct true metaStatsTenantToken sessionId now) us
    ((∀ c, s.stats.cumulative c = s.stats.total c) ∧ s.stats.cumulative .sent = s.recordsSent) ∧
      ∀ u, (s.step u).Agrees ↔ u.CountsAlike := by
  intro s
  have hstep (s : CountedStats) (u : StatsUpdate)
      (h : s.stats.enableTenantStats = true ∧ s.Agrees) (hu : u.CountsAlike) :
      (s.step u).stats.enableTenantStats = true ∧ (s.step u).Agrees :=
    ⟨(MetaStats.Counts.step (c := .sent) ⟨h.1, rfl, rfl⟩ u).split,
      (agrees_step_iff h.1 h.2 u).2 hu⟩
  have hinvariant : s.stats.enableTenantStats = true ∧ s.Agrees := by
    refine run_invariant hstep ⟨rfl, fun c => ?_, rfl⟩ (runMeets_forall.2 halike)
    cases c <;> rfl
  exact ⟨hinvariant.2, agrees_step_iff hinvariant.1 hinvariant.2⟩

/-- Two tenants, of which one has a record sent, one drops two and one has
three that do not fit. -/
def oneOfEach : List StatsUpdate :=
  [.eventIncoming "a-1" 10 1 false, .eventIncoming "b-1" 20 3 false,
    .packageSentSucceeded (.singleton "id" "a-1") 1 0 50 false,
    .recordsDropped 1 ((OrdMap.singleton "a-1" 2).insert "b-1" 1),
    .recordsOverFlown (.singleton "b-1" 3)]

theorem cumulative_eq_total_oneOfEach :
    let s := run step (construct true "m-1" "session" 0) oneOfEach
    s.stats.cumulative .dropped = 3 ∧ s.stats.total .dropped = 3 ∧
      (∀ c, s.stats.cumulative c = s.stats.total c) := by
  refine ⟨by decide +kernel, by decide +kernel, ?_⟩
  exact (cumulative_eq_total "m-1" "session" 0 oneOfEach (by decide +kernel)).1.1

/-- **Counters that differ.** A package with records of two tenants counts
as one, and what is rejected is not counted. -/
theorem cumulative_ne_total :
    let sent := run step (construct true "m-1" "session" 0)
      [.packageSentSucceeded ((OrdMap.singleton "id" "a-1").insert "id2" "b-1") 1 0 50 false]
    let rejected := run step (construct true "m-1" "session" 0)
      [.recordsRejected 0 (.singleton "a-1" 2)]
    (sent.stats.cumulative .sent = 1 ∧ sent.stats.total .sent = 2 ∧ sent.recordsSent = 2) ∧
      rejected.stats.cumulative .rejected = 0 ∧ rejected.stats.total .rejected = 2 := by
  decide +kernel

end CountedStats

end ClientTelemetry
