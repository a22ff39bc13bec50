import ClientTelemetry.Api.Shutdown
/-!
# Tearing a manager down under its calls

`FlushAndTeardown` takes the lock of the manager and, with the lock, waits
in `RecordShutdown` of each logger until no call is active. An active call
whose event is to be sent takes the same lock in `sendEvent`. So a call
that stands there when its logger is shut down is waited for by the thread
it waits for, and neither goes on (`Deadlocked.run`). Any call whose event
passes can come to stand there, and no other call can
(`teardown_without_deadlock_iff`).
-/

namespace ClientTelemetry

open Prog Machine Function List

/-- One `FlushAndTeardown`, as the first thread, and any calls. -/
def teardownStart (f : DiagLevelFilter) (m : LogManager) (calls : List (ℕ × LogCall)) : Machine :=
  .start (withCalls f (flushAndTeardown m) calls)

/-- **The teardown waits for a call that waits for the teardown.** It has
the lock and waits in `RecordShutdown` for the calls of a logger; one of
these is at the lock. -/
def Deadlocked (s : Machine) : Prop :=
  ∃ logger i, s.owner = some 0 ∧ (∃ next, s.prog 0 = .drain logger next) ∧ s.holds logger ≠ 0 ∧
    (∃ next, s.prog i = lock next) ∧ 0 < held logger (s.prog i)

section Deadlock

variable {f : DiagLevelFilter} {m : LogManager} {calls : List (ℕ × LogCall)} {s : Machine}
  {n i logger : ℕ} {P : Prog → Prop} {loggers : List ℕ} {last p next : Prog} {s' : Machine} {l : ℕ}

/-! ## A deadlock is for ever -/

/-- Only the owner gives the lock up. -/
theorem owner_step (h : s.Sound n) (howner : s.owner = some i) {j : ℕ} (hj : j ≠ i) :
    (s.step j).owner = some i := by
  refine step_induction (P := fun s' => s'.owner = some i) howner fun s' hmove => ?_
  have hnot : ∀ next, s.prog j ≠ unlock next := by
    intro next hp
    have hown : s.owner = some j := h.owner_of_locks (by rw [hp, locks]; exact Nat.succ_pos _)
    exact hj (Option.some.inj (hown.symm.trans howner))
  cases hmove with
  | lock hp hfree =>
    rcases hfree with hnone | hown
    · cases howner.symm.trans hnone
    · exact absurd (Option.some.inj (hown.symm.trans howner)) hj
  | unlockLast hp | unlock hp => exact absurd hp (hnot _)
  | pass | refuse | leave | note | close | drain => exact howner

theorem Deadlocked.step (h : Deadlocked s) (hsound : s.Sound n) (j : ℕ) :
    Deadlocked (s.step j) := by
  obtain ⟨logger, i, howner, ⟨next, hwaits⟩, hheld, ⟨next', hlock⟩, hguard⟩ := h
  have hi : i ≠ 0 := fun hi => by
    rw [hi, hwaits] at hlock
    cases hlock
  by_cases hstuck : j = 0 ∨ j = i
  · have hsame : s.step j = s := by
      rcases hstuck with rfl | rfl
      · simp only [Machine.step, hwaits, if_neg hheld]
      · have hblocked : ¬ (s.owner = none ∨ s.owner = some j) := by
          rw [howner]
          rintro (heq | heq)
          · cases heq
          · exact hi (Option.some.inj heq).symm
        simp only [Machine.step, hlock, if_neg hblocked]
    rw [hsame]
    exact ⟨logger, i, howner, ⟨next, hwaits⟩, hheld, ⟨next', hlock⟩, hguard⟩
  · rw [not_or] at hstuck
    have hprog : (s.step j).prog i = s.prog i := step_prog_of_ne (Ne.symm hstuck.2)
    have hguard' : 0 < held logger ((s.step j).prog i) := hprog ▸ hguard
    refine ⟨logger, i, owner_step hsound howner hstuck.1,
      ⟨next, (step_prog_of_ne (Ne.symm hstuck.1)).trans hwaits⟩, ?_, ⟨next', hprog.trans hlock⟩,
      hguard'⟩
    exact Nat.pos_iff_ne_zero.1 (lt_of_lt_of_le hguard' ((hsound.step j).held_le logger i))

/-- **Once deadlocked, deadlocked for ever.** -/
theorem Deadlocked.run (h : Deadlocked s) (hsound : s.Sound n) (schedule : List ℕ) :
    Deadlocked (run Machine.step s schedule) := by
  induction schedule generalizing s with
  | nil => exact h
  | cons j schedule ih => exact ih (h.step hsound j) (hsound.step j)

/-! ## Who can be waited for -/

theorem shutdowns_all (hlast : last.All P)
    (hclose : ∀ l ∈ loggers, ∀ p, P (close l p)) (hdrain : ∀ l ∈ loggers, ∀ p, P (.drain l p)) :
    (loggers.foldr recordShutdown last).All P := by
  induction loggers with
  | nil => exact hlast
  | cons l loggers ih =>
    refine ⟨hclose l mem_cons_self _, hdrain l mem_cons_self _, ih ?_ ?_⟩
    · exact fun l' hl' => hclose l' (mem_cons_of_mem _ hl')
    · exact fun l' hl' => hdrain l' (mem_cons_of_mem _ hl')

theorem shutdowns_hold (loggers : List ℕ) (last : Prog) :
    locks (loggers.foldr recordShutdown last) = locks last ∧
      ∀ g, held g (loggers.foldr recordShutdown last) = held g last := by
  induction loggers with
  | nil => exact ⟨rfl, fun _ => rfl⟩
  | cons l loggers ih => exact ⟨ih.1, fun g => ih.2 g⟩

/-- The programs of the teardown. -/
theorem flushAndTeardown_all (hlock : ∀ p, 0 < locks p → P (lock p))
    (hunlock : ∀ p, P (unlock p)) (hdone : P done)
    (hclose : m.alive = true → ∀ l ∈ m.addresses, ∀ p, P (close l p))
    (hdrain : m.alive = true → ∀ l ∈ m.addresses, ∀ p, P (.drain l p)) :
    (flushAndTeardown m).All P := by
  have hlast : (unlock done).All P := ⟨hunlock done, hdone⟩
  unfold flushAndTeardown
  rcases halive : m.alive with _ | _
  · exact ⟨hlock _ Nat.one_pos, hlast⟩
  · refine ⟨hlock _ ?_, shutdowns_all hlast (hclose halive) (hdrain halive)⟩
    rw [if_pos rfl, (shutdowns_hold _ _).1]
    exact Nat.one_pos

theorem teardownStart_sound : (teardownStart f m calls).Sound (calls.length + 1) := by
  refine withCalls_sound ?_ (fun g => ?_) ?_
  · exact flushAndTeardown_all (fun _ hpos => hpos) (fun _ => trivial) trivial
      (fun _ _ _ _ => trivial) (fun _ _ _ _ => trivial)
  · show held g (if m.alive then m.addresses.foldr recordShutdown (unlock done) else unlock done) = 0
    split_ifs
    · rw [(shutdowns_hold _ _).2]
      rfl
    · rfl
  · show locks (if m.alive then m.addresses.foldr recordShutdown (unlock done) else unlock done) - 1 =
      0
    split_ifs
    · rw [(shutdowns_hold _ _).1]
      rfl
    · rfl

/-- **Only a call whose event passes, on a logger of a live manager, can be
waited for so.** -/
theorem Deadlocked.call (schedule : List ℕ)
    (h : Deadlocked (ClientTelemetry.run Machine.step (teardownStart f m calls) schedule)) :
    m.alive = true ∧ ∃ call ∈ calls, call.1 ∈ m.addresses ∧ call.2.Passes f := by
  obtain ⟨logger, i, -, ⟨next, hwaits⟩, -, ⟨next', hlock⟩, hguard⟩ := h
  -- the teardown waits for loggers of the manager only
  have hfirst : ((teardownStart f m calls).prog 0).All fun p => ∀ g next, p = .drain g next →
      m.alive = true ∧ g ∈ m.addresses := by
    refine flushAndTeardown_all ?_ ?_ ?_ ?_ ?_
    · rintro p - g next ⟨⟩
    · rintro p g next ⟨⟩
    · rintro g next ⟨⟩
    · rintro - l - p g next ⟨⟩
    · rintro halive l hl p g next ⟨⟩
      exact ⟨halive, hl⟩
  obtain ⟨halive, hlogger⟩ := (all_run hfirst schedule).self logger next hwaits
  refine ⟨halive, ?_⟩
  have hi : i ≠ 0 := fun hi => by
    rw [hi, hwaits] at hlock
    cases hlock
  obtain ⟨k, rfl⟩ : ∃ k, i = k + 1 := ⟨i - 1, by omega⟩
  rcases hcall : calls[k]? with _ | call
  · -- a thread without a call does nothing
    have hnone : ((teardownStart f m calls).prog (k + 1)).All (· = done) := by
      show (withCalls f (flushAndTeardown m) calls (k + 1)).All _
      rw [withCalls_of_none hcall]
      exact rfl
    have hdone := (all_run hnone schedule).self
    rw [hdone] at hlock
    cases hlock
  · have hholds : ((teardownStart f m calls).prog (k + 1)).All (CallHolds f call.1 call.2) := by
      show (withCalls f (flushAndTeardown m) calls (k + 1)).All _
      rw [withCalls_of_some hcall]
      exact logEvent_holds
    have hstands := (all_run hholds schedule).self
    refine ⟨call, mem_of_getElem? hcall, ?_, hstands.sends next' hlock⟩
    by_contra hother
    have hzero := hstands.elsewhere logger fun heq => hother (heq ▸ hlogger)
    omega

/-! ## The way there -/

section

/-- One thread runs while the others have not begun. -/
structure Alone (m : LogManager) (logger i : ℕ) (p : Prog) (s : Machine) : Prop where
  prog : s.prog i = p
  first : s.prog 0 = flushAndTeardown m
  isOpen : s.isOpen logger = true
  owner : s.owner = none
  others : ∀ g, g ≠ logger → s.holds g = 0

variable (hi : i ≠ 0)
include hi

theorem Alone.pass {inside refused : Prog}
    (h : Alone m logger i (enter logger inside refused) s) :
    Alone m logger i inside (s.step i) := by
  rw [step_pass h.prog h.isOpen]
  exact { h with
    prog := update_self ..
    first := (update_of_ne hi.symm ..).trans h.first
    others := fun g hg => (update_of_ne hg ..).trans (h.others g hg) }

theorem Alone.leave (h : Alone m logger i (leave logger next) s) :
    Alone m logger i next (s.step i) := by
  rw [step_leave h.prog]
  exact { h with
    prog := update_self ..
    first := (update_of_ne hi.symm ..).trans h.first
    others := fun g hg => (update_of_ne hg ..).trans (h.others g hg) }

theorem Alone.note (h : Alone m logger i (note next) s) :
    Alone m logger i next (s.step i) := by
  rw [step_note h.prog]
  exact { h with
    prog := update_self ..
    first := (update_of_ne hi.symm ..).trans h.first }

/-- What is left of a call at the lock of `sendEvent`. -/
def atLock (logger : ℕ) : Prog :=
  lock (unlock (leave logger (dispatchEvent logger (leave logger done))))

/-- A call whose event passes comes to the lock in seven steps. -/
theorem Alone.reaches_lock {c : LogCall} (hpasses : c.Passes f)
    (h : Alone m logger i (logEvent f logger c) s) :
    Alone m logger i (atLock logger) (run step s [i, i, i, i, i, i, i]) := by
  have hfilters : Alone m logger i (atFilters f logger c) _ := (logEvent_eq ▸ h).pass hi
  rw [atFilters_eq hpasses] at hfilters
  have hdecorators := (hfilters.pass hi).leave hi
  rw [atDecorators_eq hpasses] at hdecorators
  have hsubmit := (hdecorators.pass hi).leave hi
  rw [atSubmit_eq hpasses] at hsubmit
  exact (hsubmit.pass hi).note hi

/-- The teardown has the lock and a call is at it. -/
structure Holding (logger i : ℕ) (p : Prog) (s : Machine) : Prop where
  prog : s.prog i = atLock logger
  first : s.prog 0 = p
  owner : s.owner = some 0
  others : ∀ g, g ≠ logger → s.holds g = 0

theorem Alone.lock (halive : m.alive = true) (h : Alone m logger i (atLock logger) s) :
    Holding logger i (m.addresses.foldr recordShutdown (unlock done)) (s.step 0) := by
  have hfirst : s.prog 0 = .lock (m.addresses.foldr recordShutdown (unlock done)) := by
    rw [h.first, flushAndTeardown, halive, if_pos rfl]
  have hstep : s.step 0 = { s with
      prog := update s.prog 0 (m.addresses.foldr recordShutdown (unlock done))
      owner := some 0
      depth := s.depth + 1 } := by
    simp only [Machine.step, hfirst, h.owner, true_or, if_true]
  rw [hstep]
  refine ⟨?_, ?_, rfl, h.others⟩
  · dsimp only
    rw [update_of_ne hi, h.prog]
  · dsimp only
    rw [update_self]

theorem Holding.close
    (h : Holding logger i (close l next) s) : Holding logger i next (s.step 0) := by
  rw [step_close h.first]
  exact { h with prog := (update_of_ne hi ..).trans h.prog, first := update_self 0 next s.prog }

theorem Holding.drain (hl : l ≠ logger)
    (h : Holding logger i (.drain l next) s) : Holding logger i next (s.step 0) := by
  have hstep : s.step 0 = { s with prog := update s.prog 0 next } := by
    simp only [Machine.step, h.first, if_pos (h.others l hl)]
  rw [hstep]
  exact { h with prog := (update_of_ne hi ..).trans h.prog, first := update_self 0 next s.prog }

/-- Loggers nobody calls are shut down at once. -/
theorem Holding.shutdowns (hlogger : logger ∉ loggers)
    (h : Holding logger i (loggers.foldr recordShutdown last) s) :
    ∃ schedule, Holding logger i last (run step s schedule) := by
  induction loggers generalizing s with
  | nil => exact ⟨[], h⟩
  | cons l loggers ih =>
    rw [mem_cons, not_or] at hlogger
    obtain ⟨schedule, hlast⟩ := ih hlogger.2 ((h.close hi).drain hi (Ne.symm hlogger.1))
    exact ⟨0 :: 0 :: schedule, hlast⟩

end

theorem Holding.deadlocked (h : Holding logger i (.drain logger next) s)
    (hsound : s.Sound n) : Deadlocked s := by
  have hguard : 0 < held logger (s.prog i) := by
    simp only [h.prog, atLock, dispatchEvent, held, if_true]
    omega
  refine ⟨logger, i, h.owner, ⟨next, h.first⟩, ?_, ⟨_, h.prog⟩, hguard⟩
  exact Nat.pos_iff_ne_zero.1 (lt_of_lt_of_le hguard (hsound.held_le logger i))

/-- **A call whose event passes can be caught.** -/
theorem exists_deadlock (halive : m.alive = true) {call : ℕ × LogCall} (hcall : call ∈ calls)
    (hlogger : call.1 ∈ m.addresses) (hpasses : call.2.Passes f) :
    ∃ schedule, Deadlocked (run step (teardownStart f m calls) schedule) := by
  obtain ⟨k, hk, hget⟩ := getElem_of_mem hcall
  have hi : k + 1 ≠ 0 := Nat.succ_ne_zero k
  have hstart : Alone m call.1 (k + 1) (logEvent f call.1 call.2) (teardownStart f m calls) := by
    have hget? : calls[k]? = some call := by rw [getElem?_eq_getElem hk, hget]
    have hprog : withCalls f (flushAndTeardown m) calls (k + 1) = _ := withCalls_of_some hget?
    exact ⟨hprog, rfl, rfl, rfl, fun _ _ => rfl⟩
  have hlocked := (hstart.reaches_lock hi hpasses).lock hi halive
  obtain ⟨others, rest, hsplit, hothers⟩ := eq_append_cons_of_mem hlogger
  rw [hsplit, foldr_append, foldr_cons] at hlocked
  obtain ⟨schedule, hshut⟩ := hlocked.shutdowns hi hothers
  have hwaits := hshut.close hi
  have hreached : Holding call.1 (k + 1) (.drain call.1 (rest.foldr recordShutdown (unlock done)))
      (run step (teardownStart f m calls)
        ([k + 1, k + 1, k + 1, k + 1, k + 1, k + 1, k + 1] ++ [0] ++ schedule ++ [0])) := by
    rw [run_append, run_append, run_append]
    exact hshut.close hi
  exact ⟨_, hreached.deadlocked (teardownStart_sound.run _)⟩

/-- **`FlushAndTeardown` never waits for a call that waits for it, whatever
the interleaving, iff the manager is gone or no event of the calls on its
loggers passes.** -/
theorem teardown_without_deadlock_iff (f : DiagLevelFilter) (m : LogManager)
    (calls : List (ℕ × LogCall)) :
    (∀ schedule, ¬ Deadlocked (run step (teardownStart f m calls) schedule)) ↔
      m.alive = false ∨ ∀ call ∈ calls, call.1 ∈ m.addresses → ¬ call.2.Passes f := by
  constructor
  · intro hnever
    rcases halive : m.alive with _ | _
    · exact Or.inl rfl
    · refine Or.inr fun call hcall hlogger hpasses => ?_
      obtain ⟨schedule, hdead⟩ := exists_deadlock halive hcall hlogger hpasses
      exact hnever schedule hdead
  · rintro (hgone | hnone) schedule hdead
    · exact absurd (hdead.call schedule).1 (by rw [hgone]; exact Bool.false_ne_true)
    · obtain ⟨-, call, hcall, hlogger, hpasses⟩ := hdead.call schedule
      exact hnone call hcall hlogger hpasses

end Deadlock

/-- A manager that has made one logger. -/
def oneLogger : LogManager := (LogManager.started diagLevelDefault).makeLogger ⟨"a", "", ""⟩

/-- **A teardown that never ends.** The call stands at the lock of
`sendEvent` when `FlushAndTeardown` takes it and shuts the logger down; no
schedule leads on from there. -/
theorem teardown_waits_for_ever :
    let reached := run step (teardownStart {} oneLogger [(0, passingCall)])
      [1, 1, 1, 1, 1, 1, 1, 0, 0]
    Deadlocked reached ∧ ∀ schedule, Deadlocked (run step reached schedule) := by
  intro reached
  have hdead : Deadlocked reached := by
    refine ⟨0, 1, by decide, ⟨unlock done, by decide⟩, by decide, ⟨_, rfl⟩, by decide⟩
  exact ⟨hdead, fun schedule => hdead.run (teardownStart_sound.run _) schedule⟩

end ClientTelemetry
