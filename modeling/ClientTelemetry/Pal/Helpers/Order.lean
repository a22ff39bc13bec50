import ClientTelemetry.Pal.Cancel
/-!
# Orders of the worker thread

`Turns` says what a step does to the queues, guards included. Three
invariants follow from it: `TakenBack` (a task that was taken and is not
run was cancelled by a thread that waited for it), `TimerOrder` (the timers
are sorted, the one that has been taken is due and leaves no earlier one
behind) and `Fifo` (the other tasks are what is done, what is taken and what
waits, in this order).
-/

namespace ClientTelemetry

open Function List

variable {κ β : Type*}

namespace WorkerRun

variable {item first second : Task β} {s : WorkerRun κ β}

theorem InTime.queuedOnce {a : WorkerAction κ β} (h : s.InTime a) :
    QueuedOnce s a := by
  cases a with
  | queue | bodyQueue => exact h.1
  | cancel | go | work | bodyCancel | clock => trivial

/-! ## Cancellations that waited -/

/-- **Where a task that is not run any more was taken back.** -/
structure TakenBack (waited : ℕ → Prop) (s : WorkerRun κ β) : Prop where
  /-- Who waits for the execution mutex has asked for it. -/
  asked : ∀ k id, s.callers k = .awaits id ∨ s.callers k = .holds id → waited id
  /-- While a task is being cancelled no other is in progress. -/
  noted : ∀ k id, (s.callers k).target = some id →
    s.dispatcher.itemInProgress = some id ∨ s.dispatcher.itemInProgress = none
  reset : ∀ item ∈ s.worker.unstarted, s.dispatcher.itemInProgress = none → waited item.id

namespace TakenBack

variable {waited called : ℕ → Prop}

variable (h : TakenBack waited s)
include h

theorem mono (hsub : ∀ id, waited id → called id) : TakenBack called s :=
  ⟨fun k id hk => hsub id (h.asked k id hk), h.noted,
    fun item hitem hnone => hsub item.id (h.reset item hitem hnone)⟩

/-- A caller goes on, and no other task is in progress. -/
theorem update_callers [DecidableEq κ] {k : κ} {pc : CancelPc}
    {w : WorkerThread κ β}
    (hnoted : w.itemInProgress = s.dispatcher.itemInProgress)
    (hasked : ∀ id, pc = .awaits id ∨ pc = .holds id → waited id) (hpc : ∀ id, pc.target = some id →
      s.dispatcher.itemInProgress = some id ∨ s.dispatcher.itemInProgress = none) :
    TakenBack waited { s with dispatcher := w, callers := update s.callers k pc } where
  asked := (forall_update_iff s.callers fun _ pc => ∀ id, pc = .awaits id ∨ pc = .holds id →
    waited id).2 ⟨hasked, fun other _ => h.asked other⟩
  noted := by
    dsimp only
    rw [hnoted]
    exact (forall_update_iff s.callers fun _ pc => ∀ id, pc.target = some id →
      s.dispatcher.itemInProgress = some id ∨ s.dispatcher.itemInProgress = none).2
        ⟨hpc, fun other _ => h.noted other⟩
  reset := fun item hitem hnone => h.reset item hitem (hnoted ▸ hnone)

theorem step [DecidableEq κ] {a : WorkerAction κ β} (hs : Grips s)
    (ha : ∀ id, a.WaitsFor id → waited id) : TakenBack waited (s.step a) := by
  have hturns := s.step_turns a
  generalize s.step a = s' at hturns
  cases hturns with
  | stays => exact h
  | clock | erases _ | forwards _ _ => exact { h with }
  | @queues _ item _ _ =>
    have hsame := s.dispatcher.queueItem_itemInProgress item
    refine ⟨h.asked, fun k id hk => ?_, fun item hitem hnone => ?_⟩
    · exact hsame ▸ h.noted k id hk
    · exact h.reset item hitem (hsame ▸ hnone)
  | @meets k id waits _ _ hnoted =>
    refine h.update_callers rfl ?_ ?_
    · rintro id' (hpc | hpc)
      · cases waits <;> cases hpc
        exact ha id rfl
      · cases waits <;> cases hpc
    · intro id' htarget
      cases waits <;> exact .inl (hnoted.trans htarget)
  | @timesOut k id _ hpc =>
    exact h.update_callers rfl (fun _ h => by rcases h with h | h <;> cases h) fun id' htarget =>
      h.noted k id' (hpc ▸ htarget)
  | @holds k id _ hpc _ =>
    refine h.update_callers rfl ?_ fun id' htarget => h.noted k id' (hpc ▸ htarget)
    rintro id' (hpc' | hpc')
    · cases hpc'
    · exact h.asked k id' (.inl (CancelPc.holds.inj hpc' ▸ hpc))
  | @clears k id _ hpc =>
    refine ⟨?_, fun _ _ _ => Or.inr rfl, fun item hitem _ => ?_⟩
    · exact (forall_update_iff s.callers fun _ pc => ∀ id, pc = .awaits id ∨ pc = .holds id →
        waited id).2 ⟨fun _ h => by rcases h with h | h <;> (cases h), fun other _ => h.asked other⟩
    · -- the task taken back is the one that is being cancelled, or had been taken back before
      rcases h.noted k id (hpc ▸ rfl) with hnoted | hnone
      · have hshown := hs.noted
        rw [hnoted] at hshown
        have hid : item.id = id := by
          cases hworker : s.worker with
          | taken task | locked task =>
            rw [hworker] at hshown hitem
            rcases hshown with hshown | hshown
            · rw [mem_singleton.1 hitem, ← Option.some.inj hshown]
            · cases hshown
          | idle | executing task | finished | stopped =>
            simp only [hworker] at hitem
            cases hitem
        rw [hid]
        exact h.asked k id (Or.inr hpc)
      · exact h.reset item hitem hnone
  | decides _ =>
    exact h.update_callers rfl (fun _ h => by rcases h with h | h <;> cases h) (by rintro _ ⟨⟩)
  | takesTimer hpc hlock | takesTask hpc hlock =>
    refine ⟨h.asked, fun k id hk => ?_, by rintro _ _ ⟨⟩⟩
    rw [hs.idle_of_unlocked hlock k] at hk
    cases hk
  | stops | finishes => exact ⟨h.asked, fun _ _ _ => Or.inr rfl, by rintro _ ⟨⟩⟩
  | @locks item hpc _ _ =>
    refine ⟨h.asked, h.noted, fun task htask hnone => h.reset task ?_ hnone⟩
    rw [hpc]
    exact htask
  | starts | skips | unlocks => exact ⟨h.asked, h.noted, by rintro _ ⟨⟩⟩

end TakenBack

/-! ## The timers -/

/-- **The timers are in order, and so is the one that has been taken.** -/
structure TimerOrder (called : ℕ → Prop) (s : WorkerRun κ β) : Prop where
  known : ∀ item ∈ s.dispatcher.timerQueue, item ∈ s.queued ∧ item.type = .timedCall
  sorted : s.dispatcher.timerQueue.Pairwise fun first second =>
    first.targetTime ≤ second.targetTime
  within : ∀ item ∈ s.dispatcher.timerQueue, item.targetTime ≤ s.now + maxFutureDelta
  /-- The task that has been taken is due, and no earlier one due before it
  is left behind. -/
  due : ∀ item ∈ s.worker.unstarted, item ∈ s.queued ∧ (item.type = .timedCall →
    item.targetTime ≤ s.now ∧ ∀ other, s.ArrivedBefore other item →
      other.targetTime < item.targetTime → other ∉ s.dispatcher.timerQueue)
  /-- No timed task is lost. -/
  kept : ∀ item ∈ s.queued, item.type = .timedCall →
    item ∈ s.dispatcher.timerQueue ∨ item ∈ s.worker.unstarted ∨ item.id ∈ s.started ∨
      called item.id

theorem arrivedBefore_cons {s' : WorkerRun κ β}
    (hqueued : s'.queued = item :: s.queued) (hne : second ≠ item)
    (h : s'.ArrivedBefore first second) : s.ArrivedBefore first second := by
  obtain ⟨later, earlier, hsplit, hfirst⟩ := h
  rw [hqueued] at hsplit
  cases later with
  | nil => exact absurd (List.cons.inj hsplit).1.symm hne
  | cons _ later => exact ⟨later, earlier, (List.cons.inj hsplit).2, hfirst⟩

theorem ArrivedBefore.mem (h : s.ArrivedBefore first second) :
    first ∈ s.queued := by
  obtain ⟨later, earlier, hsplit, hfirst⟩ := h
  rw [hsplit]
  exact mem_append_right _ (mem_cons_of_mem _ hfirst)

namespace TimerOrder

variable {called : ℕ → Prop} {item : Task β} {rest : List (Task β)}

variable (h : TimerOrder called s)
include h

theorem queues (hnew : item.id ∉ s.queued.map Task.id)
    (hwithin : item.type = .timedCall → item.targetTime ≤ s.now + maxFutureDelta) :
    TimerOrder called { s with
      dispatcher := s.dispatcher.queueItem item, queued := item :: s.queued } := by
  have hold : ∀ other ∈ s.queued, other ≠ item := by
    rintro other hother rfl
    exact hnew (mem_map_of_mem hother)
  obtain ⟨hmem, hsorted⟩ : (∀ other, other ∈ (s.dispatcher.queueItem item).timerQueue ↔
      other = item ∧ item.type = .timedCall ∨ other ∈ s.dispatcher.timerQueue) ∧
      (s.dispatcher.queueItem item).timerQueue.Pairwise fun first second =>
        first.targetTime ≤ second.targetTime := by
    rw [WorkerThread.queueItem]
    split_ifs with htype
    · refine ⟨fun other => ?_, timerInsert_sorted h.sorted⟩
      rw [and_iff_left htype]
      exact (timerInsert_perm item _).mem_iff.trans mem_cons
    · exact ⟨fun other => (or_iff_right fun hnew => htype hnew.2).symm, h.sorted⟩
  refine ⟨fun other hother => ?_, hsorted, fun other hother => ?_,
    fun other hother => ⟨mem_cons_of_mem _ (h.due other hother).1, fun htimed =>
      ⟨((h.due other hother).2 htimed).1, fun first hfirst hlt hin => ?_⟩⟩,
    fun other hother htimed => ?_⟩
  · rcases (hmem other).1 hother with ⟨rfl, htype⟩ | hother
    · exact ⟨mem_cons_self, htype⟩
    · exact ⟨mem_cons_of_mem _ (h.known other hother).1, (h.known other hother).2⟩
  · rcases (hmem other).1 hother with ⟨rfl, htype⟩ | hother
    · exact hwithin htype
    · exact h.within other hother
  · have hbefore := arrivedBefore_cons rfl (hold other (h.due other hother).1) hfirst
    rcases (hmem first).1 hin with ⟨rfl, -⟩ | hin
    · exact hold first hbefore.mem rfl
    · exact ((h.due other hother).2 htimed).2 first hbefore hlt hin
  · rcases mem_cons.1 hother with rfl | hother
    · exact .inl ((hmem _).2 (.inl ⟨rfl, htimed⟩))
    · exact (h.kept other hother htimed).imp_left fun hin => (hmem other).2 (.inr hin)

theorem erases {id : ℕ} (hid : called id) :
    TimerOrder called { s with
      dispatcher := { s.dispatcher with
        timerQueue := s.dispatcher.timerQueue.eraseP fun item => item.id = id } } := by
  have hsub : s.dispatcher.timerQueue.eraseP (fun item => decide (item.id = id)) ⊆
      s.dispatcher.timerQueue := eraseP_sublist.subset
  refine ⟨fun item hitem => h.known item (hsub hitem), h.sorted.sublist eraseP_sublist,
    fun item hitem => h.within item (hsub hitem),
    fun item hitem => ⟨(h.due item hitem).1, fun htimed => ⟨((h.due item hitem).2 htimed).1,
      fun other hother hlt hin => ((h.due item hitem).2 htimed).2 other hother hlt (hsub hin)⟩⟩,
    fun item hitem htimed => ?_⟩
  by_cases hsame : item.id = id
  · exact Or.inr (Or.inr (Or.inr (hsame ▸ hid)))
  · refine (h.kept item hitem htimed).imp_left fun hin => ?_
    exact (mem_eraseP_of_neg (by simpa using hsame)).2 hin

theorem takesTimer
    (hpc : s.worker = .idle) (htimers : s.dispatcher.timerQueue = item :: rest)
    (hdue : item.targetTime ≤ s.now) :
    TimerOrder called { s with
      dispatcher := { s.dispatcher with timerQueue := rest, itemInProgress := some item.id }
      worker := .taken item } := by
  obtain ⟨known, sorted, within, due, kept⟩ := h
  rw [htimers] at known sorted within kept
  rw [pairwise_cons] at sorted
  refine ⟨fun other hother => known other (mem_cons_of_mem _ hother), sorted.2,
    fun other hother => within other (mem_cons_of_mem _ hother), fun other hother => ?_,
    fun other hother htimed => ?_⟩
  · obtain rfl := mem_singleton.1 hother
    refine ⟨(known other mem_cons_self).1, fun _ => ⟨hdue, fun first _ hlt hin => ?_⟩⟩
    exact absurd (sorted.1 first hin) (Nat.not_le.2 hlt)
  · rcases kept other hother htimed with hin | hin | hrest
    · rcases mem_cons.1 hin with rfl | hin
      · exact Or.inr (Or.inl mem_cons_self)
      · exact Or.inl hin
    · rw [hpc] at hin
      cases hin
    · exact Or.inr (Or.inr hrest)

theorem takesTask (hs : Sound s)
    (hpc : s.worker = .idle) (hqueue : s.dispatcher.queue = item :: rest) :
    TimerOrder called { s with
      dispatcher := { s.dispatcher with queue := rest, itemInProgress := some item.id }
      worker := .taken item } := by
  have hitem := hs.plain item (hqueue ▸ mem_cons_self)
  refine ⟨h.known, h.sorted, h.within, fun other hother => ?_, fun other hother htimed => ?_⟩
  · obtain rfl := mem_singleton.1 hother
    exact ⟨hitem.1, fun htimed => absurd htimed hitem.2⟩
  · rcases h.kept other hother htimed with hin | hin | hrest
    · exact Or.inl hin
    · rw [hpc] at hin
      cases hin
    · exact Or.inr (Or.inr hrest)

/-- The thread is done with the task it had taken. -/
theorem drops {w : WorkerThread κ β} {pc : WorkerPc β}
    {started : List ℕ} (htimers : w.timerQueue = s.dispatcher.timerQueue)
    (hpc : pc.unstarted = []) (hstarted : s.started ⊆ started)
    (hdone : ∀ item ∈ s.worker.unstarted, item.type = .timedCall →
      item.id ∈ started ∨ called item.id) :
    TimerOrder called { s with dispatcher := w, worker := pc, started := started } := by
  refine ⟨htimers ▸ h.known, htimers ▸ h.sorted, htimers ▸ h.within, fun other hother => ?_,
    fun other hother htimed => ?_⟩
  · dsimp only at hother
    rw [hpc] at hother
    cases hother
  · dsimp only
    rw [htimers]
    rcases h.kept other hother htimed with hin | hin | hin | hin
    · exact Or.inl hin
    · exact Or.inr (Or.inr (hdone other hin htimed))
    · exact Or.inr (Or.inr (Or.inl (hstarted hin)))
    · exact Or.inr (Or.inr (Or.inr hin))

theorem step [DecidableEq κ] {a : WorkerAction κ β} (hs : Sound s)
    (hback : TakenBack called s) (hok : InTime s a) (ha : ∀ id, a.Cancels id → called id) :
    TimerOrder called (s.step a) := by
  have hturns := s.step_turns a
  generalize s.step a = s' at hturns
  cases hturns with
  | stays => exact h
  | @clock now =>
    have hle : s.now ≤ now := hok
    refine ⟨h.known, h.sorted, fun item hitem => ?_, fun item hitem => ⟨(h.due item hitem).1,
      fun htimed => ⟨?_, ((h.due item hitem).2 htimed).2⟩⟩, h.kept⟩
    · exact (h.within item hitem).trans (Nat.add_le_add_right hle _)
    · exact ((h.due item hitem).2 htimed).1.trans hle
  | queues hnew hwithin => exact h.queues (hnew hok.queuedOnce) (hwithin hok)
  | erases hcancel => exact h.erases (ha _ hcancel)
  | meets | timesOut | holds | clears | decides => exact { h with }
  | forwards htimers hfar =>
    have hnear := h.within _ (htimers ▸ mem_cons_self)
    omega
  | takesTimer hpc _ htimers hdue => exact h.takesTimer hpc htimers hdue
  | takesTask hpc _ hqueue => exact h.takesTask hs hpc hqueue
  | stops hpc htype =>
    refine h.drops rfl rfl (List.Subset.refl _) fun task htask htimed => ?_
    rw [hpc] at htask
    rw [mem_singleton.1 htask, htype] at htimed
    cases htimed
  | @locks item hpc _ _ =>
    have hsame : (WorkerPc.locked item).unstarted = s.worker.unstarted := by rw [hpc]; rfl
    exact ⟨h.known, h.sorted, h.within, fun other hother => h.due other (hsame ▸ hother),
      fun other hother htimed => hsame ▸ h.kept other hother htimed⟩
  | starts hpc _ =>
    refine h.drops rfl rfl (subset_cons_self _ _) fun task htask _ => Or.inl ?_
    rw [hpc] at htask
    rw [mem_singleton.1 htask]
    exact mem_cons_self
  | skips hpc hnoted =>
    exact h.drops rfl rfl (List.Subset.refl _) fun task htask _ =>
      Or.inr (hback.reset task htask hnoted)
  | finishes hpc | unlocks hpc =>
    refine h.drops rfl rfl (List.Subset.refl _) fun task htask _ => ?_
    rw [hpc] at htask
    cases htask

end TimerOrder

/-! ## The other tasks -/

/-- **What is done, what is taken, what waits.** -/
structure Fifo (waited : ℕ → Prop) (s : WorkerRun κ β) (done : List (Task β)) : Prop where
  split : s.arrivals = done ++
    (s.worker.unstarted.filter (fun item => item.type ≠ .timedCall) ++ s.dispatcher.queue)
  /-- A call the thread is done with has been run or was taken back. -/
  ran : ∀ item ∈ done, item.type = .call → item.id ∈ s.started ∨ waited item.id
  order : s.startedArrivals.Sublist (done.map Task.id)
  /-- Until the thread stops it has met no shutdown item. -/
  running : s.worker ≠ .stopped → ∀ item ∈ done, item.type ≠ .shutdown
  locked : ∀ item, s.worker = .locked item → item.type ≠ .shutdown
  /-- It has stopped at the first one. -/
  stopped : s.worker = .stopped → ∃ before last, done = before ++ [last] ∧
    last.type = .shutdown ∧ ∀ item ∈ before, item.type ≠ .shutdown

/-- A task that is queued has not been started. -/
theorem Sound.notMem_started (hs : Sound s)
    (hnew : item.id ∉ s.queued.map Task.id) : item.id ∉ s.started :=
  fun hin => hnew (hs.known (mem_append_right _ hin))

theorem mem_arrivals :
    item ∈ s.arrivals ↔ item ∈ s.queued ∧ item.type ≠ .timedCall := by
  simp [arrivals]

namespace Fifo

variable {waited : ℕ → Prop} {done : List (Task β)} {item : Task β} {w : WorkerThread κ β}
  {pc : WorkerPc β}

section

variable (h : Fifo waited s done)
include h

theorem queues (hs : Sound s) (hnew : item.id ∉ s.queued.map Task.id) :
    Fifo waited { s with
      dispatcher := s.dispatcher.queueItem item, queued := item :: s.queued } done := by
  have harrivals : ∀ w : WorkerThread κ β,
      ({ s with dispatcher := w, queued := item :: s.queued } : WorkerRun κ β).arrivals =
        s.arrivals ++ [item].filter fun item => item.type ≠ .timedCall := by
    intro w
    unfold arrivals
    rw [reverse_cons, filter_append]
  have hsplit : ({ s with
      dispatcher := s.dispatcher.queueItem item
      queued := item :: s.queued } : WorkerRun κ β).arrivals = done ++
        (s.worker.unstarted.filter (fun item => item.type ≠ .timedCall) ++
          (s.dispatcher.queueItem item).queue) := by
    rw [harrivals, h.split, WorkerThread.queueItem]
    by_cases htype : item.type = .timedCall
    · simp [htype]
    · simp [htype]
  -- the new task is not among those that have been started
  have hstarted : ({ s with
      dispatcher := s.dispatcher.queueItem item
      queued := item :: s.queued } : WorkerRun κ β).startedArrivals = s.startedArrivals := by
    unfold startedArrivals
    refine filter_congr fun id hid => ?_
    have hne : id ≠ item.id := by
      rintro rfl
      exact hs.notMem_started hnew (mem_reverse.1 hid)
    rw [harrivals]
    by_cases htype : item.type = .timedCall
    · simp [htype]
    · simp [htype, hne]
  exact ⟨hsplit, h.ran, hstarted ▸ h.order, h.running, h.locked, h.stopped⟩

/-- The thread takes a task, and is not done with it yet. -/
theorem takes (hpc : s.worker = .idle) (hqueue : s.dispatcher.queue =
      [item].filter (fun item => item.type ≠ .timedCall) ++ w.queue) :
    Fifo waited { s with dispatcher := w, worker := .taken item } done := by
  refine ⟨?_, h.ran, h.order, fun _ => h.running (hpc ▸ nofun), nofun, nofun⟩
  have hsplit := h.split
  rw [hpc, hqueue] at hsplit
  exact hsplit

end

/-- The number of a timed task is not that of another one. -/
theorem notMem_arrivals (hs : Sound s) (hmem : item ∈ s.queued)
    (htype : item.type = .timedCall) : item.id ∉ s.arrivals.map Task.id := by
  intro hin
  obtain ⟨other, hother, hid⟩ := mem_map.1 hin
  obtain ⟨hqueued, hplain⟩ := mem_arrivals.1 hother
  rw [inj_on_of_nodup_map hs.once hqueued hmem hid] at hplain
  exact hplain htype

/-- What the start of the task that has been taken adds. -/
theorem startedArrivals_starts (hs : Sound s) (hmem : item ∈ s.queued) :
    ({ s with
      dispatcher := w
      worker := pc
      started := item.id :: s.started } : WorkerRun κ β).startedArrivals =
      s.startedArrivals ++ ([item].filter fun item => item.type ≠ .timedCall).map Task.id := by
  have hcons : ({ s with
      dispatcher := w
      worker := pc
      started := item.id :: s.started } : WorkerRun κ β).startedArrivals =
      s.startedArrivals ++ [item.id].filter fun id => id ∈ s.arrivals.map Task.id := by
    unfold startedArrivals
    rw [reverse_cons, filter_append]
    rfl
  rw [hcons]
  by_cases htype : item.type = .timedCall
  · rw [filter_cons_of_neg (by simpa using notMem_arrivals hs hmem htype),
      filter_cons_of_neg (by simpa using htype)]
    rfl
  · have hin : item.id ∈ s.arrivals.map Task.id :=
      mem_map_of_mem (mem_arrivals.2 ⟨hmem, htype⟩)
    rw [filter_cons_of_pos (by simpa using hin), filter_cons_of_pos (by simpa using htype)]
    rfl

/-- The thread is done with the task it has taken. -/
theorem drops (h : Fifo waited s done) {started : List ℕ} (hunstarted : s.worker.unstarted = [item])
    (hqueue : w.queue = s.dispatcher.queue) (hpc : pc.unstarted = [])
    (hsub : s.started ⊆ started) (hran : item.type = .call → item.id ∈ started ∨ waited item.id)
    (horder : ({ s with dispatcher := w, worker := pc, started := started } :
      WorkerRun κ β).startedArrivals.Sublist
        ((done ++ [item].filter fun item => item.type ≠ .timedCall).map Task.id))
    (hstopped : pc = .stopped ↔ item.type = .shutdown) :
    Fifo waited { s with dispatcher := w, worker := pc, started := started }
      (done ++ [item].filter fun item => item.type ≠ .timedCall) := by
  have hrunning : s.worker ≠ .stopped := by
    intro hstop
    rw [hstop] at hunstarted
    cases hunstarted
  refine ⟨?_, fun other hother hcall => ?_, horder, fun hpc' other hother => ?_, ?_,
    fun hstop => ⟨done, item, ?_, hstopped.1 hstop, h.running hrunning⟩⟩
  · have hsplit := h.split
    rw [hunstarted] at hsplit
    dsimp only
    rw [hpc, hqueue, append_assoc, filter_nil, nil_append]
    exact hsplit
  · rcases mem_append.1 hother with hother | hother
    · exact (h.ran other hother hcall).imp_left fun hin => hsub hin
    · obtain rfl := mem_singleton.1 (mem_of_mem_filter hother)
      exact hran hcall
  · rcases mem_append.1 hother with hother | hother
    · exact h.running hrunning other hother
    · rw [mem_singleton.1 (mem_of_mem_filter hother)]
      exact fun htype => hpc' (hstopped.2 htype)
  · intro other hlocked
    dsimp only at hlocked
    rw [hlocked] at hpc
    cases hpc
  · rw [filter_cons_of_pos (by simp [hstopped.1 hstop]), filter_nil]

theorem step [DecidableEq κ] {a : WorkerAction κ β} (h : Fifo waited s done) (hs : Sound s)
    (hback : TakenBack waited s) {called : ℕ → Prop} (htimers : TimerOrder called s)
    (hok : QueuedOnce s a) : ∃ done', Fifo waited (s.step a) done' := by
  have hturns := s.step_turns a
  generalize s.step a = s' at hturns
  cases hturns with
  | stays => exact ⟨done, h⟩
  | clock | erases | meets | timesOut | holds | clears | decides | forwards =>
    exact ⟨done, { h with }⟩
  | queues hnew _ => exact ⟨done, h.queues hs (hnew hok)⟩
  | @takesTimer item rest hpc _ hqueue _ =>
    have htimed := (htimers.known item (hqueue ▸ mem_cons_self)).2
    refine ⟨done, h.takes hpc ?_⟩
    rw [filter_cons_of_neg (by simpa using htimed)]
    rfl
  | @takesTask item rest hpc _ hqueue =>
    have hplain := (hs.plain item (hqueue ▸ mem_cons_self)).2
    refine ⟨done, h.takes hpc ?_⟩
    rw [filter_cons_of_pos (by simpa using hplain), hqueue]
    rfl
  | @stops item hpc htype =>
    refine ⟨_, h.drops (by rw [hpc]; rfl) rfl rfl (List.Subset.refl _) ?_ ?_ ?_⟩
    · intro hcall
      rw [htype] at hcall
      cases hcall
    · rw [map_append]
      exact h.order.trans (sublist_append_left _ _)
    · exact iff_of_true rfl htype
  | @locks item hpc htype _ =>
    refine ⟨done, ?_, h.ran, h.order, fun _ => h.running (hpc ▸ nofun), ?_, nofun⟩
    · have hsplit := h.split
      rw [hpc] at hsplit
      exact hsplit
    · rintro other hlocked
      cases hlocked
      exact htype
  | @starts item hpc _ =>
    have hmem := (htimers.due item (by rw [hpc]; exact mem_cons_self)).1
    refine ⟨_, h.drops (by rw [hpc]; rfl) rfl rfl (subset_cons_self _ _) ?_ ?_ ?_⟩
    · exact fun _ => Or.inl mem_cons_self
    · rw [startedArrivals_starts hs hmem, map_append]
      exact h.order.append (List.Sublist.refl _)
    · exact iff_of_false nofun (h.locked item hpc)
  | @skips item hpc hnoted =>
    refine ⟨_, h.drops (by rw [hpc]; rfl) rfl rfl (List.Subset.refl _) ?_ ?_ ?_⟩
    · exact fun _ => Or.inr (hback.reset item (by rw [hpc]; exact mem_cons_self) hnoted)
    · rw [map_append]
      exact h.order.trans (sublist_append_left _ _)
    · exact iff_of_false nofun (h.locked item hpc)
  | finishes hpc | unlocks hpc =>
    refine ⟨done, ?_, h.ran, h.order, fun _ => h.running (hpc ▸ nofun), nofun, nofun⟩
    have hsplit := h.split
    rw [hpc] at hsplit
    exact hsplit

end Fifo

/-! ## All of it -/

/-- **The invariant of the order**, for the numbers `Cancel` has been called
for and those a thread has waited for. -/
structure Tidy (waited called : ℕ → Prop) (s : WorkerRun κ β) : Prop where
  sound : Sound s
  back : TakenBack waited s
  timers : TimerOrder called s
  fifo : ∃ done, Fifo waited s done

namespace Tidy

variable {waited called : ℕ → Prop}

theorem initial : Tidy waited called ({} : WorkerRun κ β) where
  sound := Sound.initial
  back := ⟨fun _ _ h => h.elim nofun nofun, nofun, nofun⟩
  timers := ⟨nofun, List.Pairwise.nil, nofun, nofun, nofun⟩
  fifo := ⟨[], rfl, nofun, List.Sublist.refl _, nofun, nofun, nofun⟩

theorem step [DecidableEq κ] {a : WorkerAction κ β} (h : Tidy waited called s) (hok : InTime s a)
    (hsub : ∀ id, waited id → called id) (hwaits : ∀ id, a.WaitsFor id → waited id)
    (hcancels : ∀ id, a.Cancels id → called id) : Tidy waited called (s.step a) := by
  obtain ⟨done, hfifo⟩ := h.fifo
  exact ⟨h.sound.step hok.queuedOnce, h.back.step h.sound.toGrips hwaits,
    h.timers.step h.sound (h.back.mono hsub) hok hcancels,
    hfifo.step h.sound h.back h.timers hok.queuedOnce⟩

end Tidy

end WorkerRun

end ClientTelemetry
