import ClientTelemetry.Pal.Helpers.Order
/-!
# In which order tasks start

The timers are kept by target time, the other tasks in the order of their
arrival. While no target time is more than an hour ahead nothing is brought
forward, so **the timers stay sorted, no timed task starts early, and a
timed task starts only when every earlier one due before it has left**
(`worker_keeps_order`). The other tasks start in the order of their arrival,
and before the thread stops all of them that came before the shutdown item,
unless another thread has cancelled one and waited.

Of timed tasks with the same target time the last one queued is the first
in line, and a call that is cancelled while the thread has it is not run
(`equals_turn_round_and_calls_are_dropped`).
-/

namespace ClientTelemetry

open List

variable {κ β : Type*}

namespace WorkerRun

/-- **The order of the tasks**, in a state reached by these actions. -/
structure InOrder (as : List (WorkerAction κ β)) (s : WorkerRun κ β) : Prop where
  /-- The timers are sorted by target time. -/
  sorted : s.dispatcher.timerQueue.Pairwise fun first second =>
    first.targetTime ≤ second.targetTime
  /-- A timed task does not start before its target time. -/
  due : ∀ a item, s.starts a = some item → item.type = .timedCall → item.targetTime ≤ s.now
  /-- When it starts, those queued before it and due before it do not wait
  any more: they have been started or cancelled. -/
  timed : ∀ a item, s.starts a = some item → item.type = .timedCall →
    ∀ other, s.ArrivedBefore other item → other.type = .timedCall →
      other.targetTime < item.targetTime → other ∉ s.dispatcher.timerQueue ∧
        (other.id ∈ s.started ∨ ∃ a ∈ as, a.Cancels other.id)
  /-- The other tasks start in the order they were queued, each once. -/
  order : s.startedArrivals.Sublist (s.arrivals.map Task.id)
  once : (s.arrivals.map Task.id).Nodup
  /-- Those queued before the shutdown item have all been started when the
  thread stops, but for those that were cancelled by a thread that waited. -/
  all : s.worker = .stopped → ∀ item ∈ s.beforeShutdown,
    item.id ∈ s.started ∨ ∃ a ∈ as, a.WaitsFor item.id

variable {s : WorkerRun κ β} {a : WorkerAction κ β} {item : Task β}

/-- The task a step starts is the one that has been taken. -/
theorem worker_of_starts (h : s.starts a = some item) :
    s.worker = .locked item := by
  cases a with
  | work =>
    unfold starts at h
    cases hpc : s.worker with
    | locked task =>
      simp only [hpc] at h
      split_ifs at h
      cases h
      rfl
    | idle | taken | executing | finished | stopped => simp only [hpc] at h; cases h
  | queue | cancel | go | bodyQueue | bodyCancel | clock => cases h

/-- The tasks before the first shutdown item are done with when the thread
has stopped at it. -/
theorem Fifo.mem_of_beforeShutdown {waited : ℕ → Prop} {done : List (Task β)}
    (h : Fifo waited s done) (hstop : s.worker = .stopped)
    (hitem : item ∈ s.beforeShutdown) : item ∈ done ∧ item.type = .call := by
  obtain ⟨before, last, hdone, hlast, hbefore⟩ := h.stopped hstop
  have hkind := mem_takeWhile_imp hitem
  have hplain := (mem_arrivals.1 (takeWhile_sublist _ |>.subset hitem)).2
  have hcall : item.type = .call := by
    cases htype : item.type with
    | call => rfl
    | timedCall => exact absurd htype hplain
    | shutdown => simp [htype] at hkind
  have hall : ∀ item ∈ before, decide (item.type ≠ .shutdown) = true := by
    intro item hitem
    simpa using hbefore item hitem
  have hwhile : s.beforeShutdown = before := by
    unfold beforeShutdown
    rw [h.split, hdone, append_assoc, takeWhile_append_of_pos hall, singleton_append,
      takeWhile_cons_of_neg (by simp [hlast]), append_nil]
  rw [hwhile] at hitem
  exact ⟨hdone ▸ mem_append_left _ hitem, hcall⟩

/-- Who waits for a cancellation has called for it. -/
theorem cancels_of_waitsFor {id : ℕ} (h : a.WaitsFor id) :
    a.Cancels id := by
  cases a with
  | cancel k item waits =>
    rcases item with _ | target
    · cases h
    · cases waits
      · cases h
      · exact h
  | queue | go | work | bodyQueue | bodyCancel | clock => cases h

/-- What the invariant says of the order. -/
theorem Tidy.inOrder {as : List (WorkerAction κ β)}
    (h : Tidy (fun id => ∃ a ∈ as, a.WaitsFor id) (fun id => ∃ a ∈ as, a.Cancels id) s) :
    InOrder as s := by
  obtain ⟨done, hfifo⟩ := h.fifo
  have htaken : ∀ {a item}, s.starts a = some item → item ∈ s.worker.unstarted := by
    intro a item hstarts
    rw [worker_of_starts hstarts]
    exact mem_cons_self
  refine ⟨h.timers.sorted, fun a item hstarts htimed => ?_,
    fun a item hstarts htimed other hother hkind hlt => ?_, ?_, ?_, fun hstop item hitem => ?_⟩
  · exact ((h.timers.due item (htaken hstarts)).2 htimed).1
  · have hout := ((h.timers.due item (htaken hstarts)).2 htimed).2 other hother hlt
    refine ⟨hout, ?_⟩
    rcases h.timers.kept other hother.mem hkind with hin | hin | hdone
    · exact absurd hin hout
    · -- the thread has taken the later one, and only that
      rw [worker_of_starts hstarts] at hin
      rw [mem_singleton.1 hin] at hlt
      exact absurd hlt (lt_irrefl _)
    · exact hdone
  · rw [hfifo.split, map_append]
    exact hfifo.order.trans (sublist_append_left _ _)
  · have hqueued : (s.queued.reverse.map Task.id).Nodup := by
      rw [map_reverse]
      exact nodup_reverse.2 h.sound.once
    exact hqueued.sublist (filter_sublist.map _)
  · obtain ⟨hdone, hcall⟩ := hfifo.mem_of_beforeShutdown hstop hitem
    exact hfifo.ran item hdone hcall

variable [DecidableEq κ]

/-- **The worker thread keeps the order**, in every state of every run. -/
theorem worker_keeps_order (as : List (WorkerAction κ β))
    (hrun : RunMeets InTime WorkerRun.step {} as) :
    InOrder as (run WorkerRun.step {} as) := by
  have hnamed : RunMeets (fun (_ : WorkerRun κ β) a => a ∈ as) WorkerRun.step {} as :=
    runMeets_forall.2 fun _ ha => ha
  refine Tidy.inOrder (run_invariant (fun s a hinv hok => ?_) Tidy.initial
    (runMeets_and.2 ⟨hrun, hnamed⟩))
  refine hinv.step hok.1 ?_ (fun id h => ⟨a, hok.2, h⟩) fun id h => ⟨a, hok.2, h⟩
  rintro id ⟨a, ha, hwaits⟩
  exact ⟨a, ha, cancels_of_waitsFor hwaits⟩

/-- A timer due first, queued last, is started first; the call behind them
waits for its turn. -/
theorem worker_keeps_order_three :
    InOrder [.queue () ⟨0, .timedCall, 5, ()⟩, .queue () ⟨1, .call, 0, ()⟩,
      .queue () ⟨2, .timedCall, 3, ()⟩, .clock 3, .work, .work]
    (run WorkerRun.step {} [.queue () ⟨0, .timedCall, 5, ()⟩, .queue () ⟨1, .call, 0, ()⟩,
      .queue () ⟨2, .timedCall, 3, ()⟩, .clock 3, .work, .work]) :=
  worker_keeps_order _ (by decide +kernel)

/-- **Of two timers with the same target time the later one is first, and a
call can be taken back.** Two timed tasks are queued for the same time, and
the second is started while the first still waits. A call that the thread
has taken is cancelled by a thread that waits, and is not started although
it was queued before the shutdown item. -/
theorem equals_turn_round_and_calls_are_dropped :
    (∃ as : List (WorkerAction Unit Unit), RunMeets InTime WorkerRun.step {} as ∧
      ∃ first second : Task Unit, (run WorkerRun.step {} as).ArrivedBefore first second ∧
        first.type = .timedCall ∧ second.type = .timedCall ∧ first.targetTime ≤ second.targetTime ∧
        (run WorkerRun.step {} as).starts .work = some second ∧
        first ∈ (run WorkerRun.step {} as).dispatcher.timerQueue) ∧
    ∃ as : List (WorkerAction Unit Unit), RunMeets InTime WorkerRun.step {} as ∧
      (run WorkerRun.step {} as).worker = .stopped ∧
      ∃ item ∈ (run WorkerRun.step {} as).beforeShutdown,
        item.id ∉ (run WorkerRun.step {} as).started := by
  refine ⟨⟨[.queue () ⟨0, .timedCall, 5, ()⟩, .queue () ⟨1, .timedCall, 5, ()⟩, .clock 5, .work,
    .work], by decide +kernel, ⟨0, .timedCall, 5, ()⟩, ⟨1, .timedCall, 5, ()⟩,
    ⟨[], [_], rfl, mem_singleton_self _⟩, rfl, rfl, le_refl _, by decide +kernel,
    by decide +kernel⟩,
    [.queue () ⟨0, .call, 0, ()⟩, .work, .cancel () (some 0) true, .go () false, .go () false,
      .go () false, .work, .work, .work, .queue () ⟨1, .shutdown, 0, ()⟩, .work, .work],
    by decide +kernel, rfl, ⟨0, .call, 0, ()⟩, by decide +kernel, by decide +kernel⟩

end WorkerRun

end ClientTelemetry
