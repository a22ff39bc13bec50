import ClientTelemetry.Api.Helpers.Logger
/-!
# Shutting a logger down

Any number of calls of `LogEvent` on a logger, and one `RecordShutdown`,
in any interleaving. When `RecordShutdown` has returned, no call stands
behind a guard and no call reaches `sendEvent` any more. But a call the
shutdown finds between its outermost guard and the guard of `submit` is
lost: its own guard keeps the shutdown waiting, and the guards below read
the flag again and give up. These are the only calls that are lost
(`shutdown_clean_iff`).
-/

namespace ClientTelemetry

open Prog Machine Function List

/-- One `RecordShutdown`, as the first thread, and calls on the logger. -/
def shutdownStart (f : DiagLevelFilter) (logger : ℕ) (calls : List LogCall) : Machine :=
  .start (withCalls f (recordShutdown logger done) (calls.map fun c => (logger, c)))

section Stages

variable (f : DiagLevelFilter) (logger : ℕ) (c : LogCall)

/-- What is left of a call at the guard of `submit`. -/
def atSubmit : Prog := submit f logger c (dispatchEvent logger (leave logger done))

/-- What is left of a call at the guard of `applyCommonDecorators`. -/
def atDecorators : Prog :=
  applyCommonDecorators logger c fun decorated =>
    if !decorated then leave logger done else atSubmit f logger c

/-- What is left of a call at the guard of `CanEventPropertiesBeSent`. -/
def atFilters : Prog :=
  canEventPropertiesBeSent logger c fun sent =>
    if !sent then dispatchEvent logger (leave logger done) else atDecorators f logger c

/-- **A call between its outermost guard and the guard of `submit`.** -/
def betweenGuards : List Prog :=
  [atFilters f logger c, leave logger (atDecorators f logger c), atDecorators f logger c,
    leave logger (atSubmit f logger c), atSubmit f logger c]

/-- **Where a call stands while the logger is active.** -/
inductive Stage (s : Machine) (i : ℕ) : Prop
  | waiting (hp : s.prog i = logEvent f logger c) (hentered : i ∉ s.entered) (hnoted : i ∉ s.noted)
  | between (hentered : i ∈ s.entered) (hnoted : i ∉ s.noted)
      (hp : s.prog i ∈ betweenGuards f logger c)
  | past (hentered : i ∈ s.entered) (hsize : size (s.prog i) < size (atSubmit f logger c))
      (hsends : i ∈ s.noted ∨ ∃ next, s.prog i = note next)

end Stages

section Active

variable {f : DiagLevelFilter} {logger : ℕ} {c : LogCall} {s : Machine} {i : ℕ}

theorem logEvent_eq : logEvent f logger c = enter logger (atFilters f logger c) done := rfl

theorem atFilters_eq (h : c.Passes f) : atFilters f logger c =
    enter logger (leave logger (atDecorators f logger c))
      (dispatchEvent logger (leave logger done)) := by
  rw [atFilters, canEventPropertiesBeSent, h.1]
  rfl

theorem atDecorators_eq (h : c.Passes f) : atDecorators f logger c =
    enter logger (leave logger (atSubmit f logger c)) (leave logger done) := by
  rw [atDecorators, applyCommonDecorators, h.2.1]
  rfl

theorem atSubmit_eq (h : c.Passes f) : atSubmit f logger c =
    enter logger (sendEvent (leave logger (dispatchEvent logger (leave logger done))))
      (dispatchEvent logger (leave logger done)) := by
  rw [atSubmit, submit, h.2.2.1, if_neg h.2.2.2]
  rfl

/-- Between the guards there is at least `submit` to do. -/
theorem size_betweenGuards (h : c.Passes f) {p : Prog} (hp : p ∈ betweenGuards f logger c) :
    size (atSubmit f logger c) ≤ size p := by
  have hdecorators : size (atSubmit f logger c) ≤ size (atDecorators f logger c) := by
    rw [atDecorators_eq h]
    simp only [size]
    omega
  have hfilters : size (atDecorators f logger c) ≤ size (atFilters f logger c) := by
    rw [atFilters_eq h]
    simp only [size]
    omega
  simp only [betweenGuards, mem_cons, not_mem_nil, or_false] at hp
  rcases hp with rfl | rfl | rfl | rfl | rfl
  · exact hdecorators.trans hfilters
  · exact hdecorators.trans (Nat.le_succ _)
  · exact hdecorators
  · exact Nat.le_succ _
  · exact le_rfl

/-- A call that goes on between the guards. -/
theorem Stage.between_pass (hentered : i ∈ s.entered) (hnoted : i ∉ s.noted)
    (hopen : s.isOpen logger = true) {inside refused : Prog}
    (hp : s.prog i = enter logger inside refused) (hnext : inside ∈ betweenGuards f logger c) :
    Stage f logger c (s.step i) i := by
  have hkept := entered_mono i hentered
  rw [step_pass hp hopen] at hkept ⊢
  refine .between hkept hnoted ?_
  dsimp only
  rwa [update_self]

theorem Stage.between_leave (hentered : i ∈ s.entered) (hnoted : i ∉ s.noted) {next : Prog}
    (hp : s.prog i = leave logger next) (hnext : next ∈ betweenGuards f logger c) :
    Stage f logger c (s.step i) i := by
  rw [step_leave hp]
  refine .between hentered hnoted ?_
  dsimp only
  rwa [update_self]

/-- A step takes a call from one stage to the next. -/
theorem Stage.step (h : Stage f logger c s i) (hpasses : c.Passes f)
    (hopen : s.isOpen logger = true) (j : ℕ) : Stage f logger c (s.step j) i := by
  by_cases hij : i = j
  · subst hij
    cases h with
    | waiting hp hentered hnoted =>
      rw [step_pass (hp.trans logEvent_eq) hopen]
      refine .between ?_ hnoted ?_
      · simp [held]
      · simp [betweenGuards]
    | between hentered hnoted hp =>
      simp only [betweenGuards, mem_cons, not_mem_nil, or_false] at hp
      rcases hp with hp | hp | hp | hp | hp
      · exact .between_pass hentered hnoted hopen (hp.trans (atFilters_eq hpasses))
          (by simp [betweenGuards])
      · exact .between_leave hentered hnoted hp (by simp [betweenGuards])
      · exact .between_pass hentered hnoted hopen (hp.trans (atDecorators_eq hpasses))
          (by simp [betweenGuards])
      · exact .between_leave hentered hnoted hp (by simp [betweenGuards])
      · have hkept := entered_mono i hentered
        rw [step_pass (hp.trans (atSubmit_eq hpasses)) hopen] at hkept ⊢
        refine .past hkept ?_ (Or.inr ⟨_, update_self _ _ _⟩)
        dsimp only
        rw [update_self, atSubmit_eq hpasses]
        simp only [size]
        omega
    | past hentered hsize hsends =>
      refine .past (entered_mono i hentered) (lt_of_le_of_lt (size_step_le i i) hsize) (Or.inl ?_)
      rcases hsends with hnoted | ⟨next, hp⟩
      · exact noted_mono i hnoted
      · rw [step_note hp]
        simp
  · have hseen := step_seen_of_ne (s := s) hij
    have hprog := step_prog_of_ne (s := s) hij
    cases h with
    | waiting hp hentered hnoted =>
      exact .waiting (hprog.trans hp) (hseen.1.not.2 hentered) (hseen.2.not.2 hnoted)
    | between hentered hnoted hp =>
      exact .between (hseen.1.2 hentered) (hseen.2.not.2 hnoted) (hprog ▸ hp)
    | past hentered hsize hsends =>
      refine .past (hseen.1.2 hentered) (hprog ▸ hsize) ?_
      rw [hprog, hseen.2]
      exact hsends

/-! ## The calls the shutdown finds -/

/-- **The logger closed under a call.** A call between the guards will not
send, and one past them will. -/
theorem Stage.reaches_iff (h : Stage f logger c s i) (hpasses : c.Passes f)
    (hentered : i ∈ s.entered) {isOpen : ℕ → Bool} (hclosed : isOpen logger = false) :
    (i ∈ s.noted ∨ (s.prog i).reaches isOpen = true) ↔ s.prog i ∉ betweenGuards f logger c := by
  have hbetween : ∀ p ∈ betweenGuards f logger c, p.reaches isOpen = false := by
    simp only [betweenGuards, mem_cons, not_mem_nil, or_false]
    rintro p (rfl | rfl | rfl | rfl | rfl)
    · simp [atFilters_eq hpasses, reaches, dispatchEvent, hclosed]
    · simp [atDecorators_eq hpasses, reaches, hclosed]
    · simp [atDecorators_eq hpasses, reaches, hclosed]
    · simp [atSubmit_eq hpasses, reaches, dispatchEvent, hclosed]
    · simp [atSubmit_eq hpasses, reaches, dispatchEvent, hclosed]
  cases h with
  | waiting hp hnot => exact absurd hentered hnot
  | between _ hnoted hp =>
    simp only [hbetween _ hp, hnoted, hp, or_self, not_true_eq_false, Bool.false_eq_true]
  | past _ hsize hsends =>
    have hnot : s.prog i ∉ betweenGuards f logger c := fun hp =>
      absurd hsize (not_lt.2 (size_betweenGuards hpasses hp))
    refine iff_of_true ?_ hnot
    rcases hsends with hnoted | ⟨next, hp⟩
    · exact Or.inl hnoted
    · exact Or.inr (by rw [hp, reaches])

end Active

/-! ## The shutdown -/

section Shutdown

variable {f : DiagLevelFilter} {logger : ℕ} {calls : List LogCall} {s : Machine} {n : ℕ}

theorem shutdownStart_sound : (shutdownStart f logger calls).Sound (calls.length + 1) := by
  have h : (shutdownStart f logger calls).Sound
      ((calls.map fun c => (logger, c)).length + 1) :=
    withCalls_sound ⟨trivial, trivial, trivial⟩ (fun _ => rfl) rfl
  rwa [length_map] at h

/-- What holds of `RecordShutdown` and wherever a call on the logger
stands holds of every thread. -/
theorem shutdownStart_all {P : Prog → Prop} (hfirst : (recordShutdown logger done).All P)
    (hcalls : ∀ c p, CallHolds f logger c p → P p) (hdone : P done) (i : ℕ) :
    ((shutdownStart f logger calls).prog i).All P := by
  refine withCalls_induction (P := fun p => p.All P) hfirst (fun call hcall => ?_) hdone i
  obtain ⟨c, -, rfl⟩ := mem_map.1 hcall
  exact logEvent_holds.imp (hcalls c)

/-- **Before the flag is cleared**, every gate is open and every call
whose event passes is at one of its stages. -/
structure Active (f : DiagLevelFilter) (logger : ℕ) (calls : List LogCall) (s : Machine) : Prop where
  first : s.prog 0 = recordShutdown logger done
  isOpen : s.isOpen logger = true
  closes : ∀ i, i ≠ 0 → (s.prog i).All NeverCloses
  stages : ∀ i c, calls[i]? = some c → c.Passes f → Stage f logger c s (i + 1)

theorem Active.start : Active f logger calls (shutdownStart f logger calls) where
  first := rfl
  isOpen := rfl
  closes := by
    intro i hi
    obtain ⟨k, rfl⟩ : ∃ k, i = k + 1 := ⟨i - 1, by omega⟩
    -- the first program has no part in the others
    show (withCalls f done (calls.map fun c => (logger, c)) (k + 1)).All NeverCloses
    exact withCalls_induction (P := fun p => p.All NeverCloses) (by trivial)
      (fun _ _ => logEvent_holds.imp fun _ h => h.closes) (by trivial) (k + 1)
  stages := by
    intro i c hc hpasses
    have hcall : (calls.map fun c => (logger, c))[i]? = some (logger, c) := by
      rw [getElem?_map, hc]
      rfl
    refine .waiting ?_ not_mem_nil not_mem_nil
    show withCalls f (recordShutdown logger done) (calls.map fun c => (logger, c)) (i + 1) = _
    rw [withCalls_of_some hcall]

theorem Active.step (h : Active f logger calls s) {i : ℕ} (hi : i ≠ 0) :
    Active f logger calls (s.step i) where
  first := (step_prog_of_ne hi.symm).trans h.first
  isOpen := by rw [isOpen_step (h.closes i hi), h.isOpen]
  closes k hk := all_step (h.closes k hk)
  stages k c hc hpasses := (h.stages k c hc hpasses).step hpasses h.isOpen i

theorem Active.run (h : Active f logger calls s) {schedule : List ℕ} (hschedule : 0 ∉ schedule) :
    Active f logger calls (run Machine.step s schedule) := by
  induction schedule generalizing s with
  | nil => exact h
  | cons i schedule ih =>
    rw [mem_cons, not_or] at hschedule
    exact ih (h.step fun hi => hschedule.1 hi.symm) hschedule.2

/-- **After the flag is cleared.** `RecordShutdown` waits, or has returned
and no guard is left. -/
structure Retired (n logger : ℕ) (s : Machine) : Prop extends Sound n s where
  closed : s.isOpen logger = false
  waits : s.prog 0 = .drain logger done ∨ s.prog 0 = done ∧ s.holds logger = 0

theorem Retired.step (h : Retired n logger s) (i : ℕ) : Retired n logger (s.step i) := by
  refine ⟨h.toSound.step i, closed_step h.closed, ?_⟩
  by_cases hi : 0 = i
  · subst hi
    rcases h.waits with hwaits | hreturned
    · by_cases hnone : s.holds logger = 0
      · have hstep : s.step 0 = { s with prog := update s.prog 0 done } := by
          simp only [Machine.step, hwaits, if_pos hnone]
        rw [hstep]
        refine Or.inr ⟨?_, hnone⟩
        dsimp only
        rw [update_self]
      · have hstep : s.step 0 = s := by
          simp only [Machine.step, hwaits, if_neg hnone]
        rw [hstep]
        exact Or.inl hwaits
    · have hstep : s.step 0 = s := by
        simp only [Machine.step, hreturned.1]
      rw [hstep]
      exact Or.inr hreturned
  · rw [step_prog_of_ne hi]
    exact h.waits.imp id fun hreturned => ⟨hreturned.1, empty_step h.closed hreturned.2⟩

theorem Retired.run (h : Retired n logger s) (schedule : List ℕ) :
    Retired n logger (run Machine.step s schedule) :=
  run_preserves (fun _ i hs => hs.step i) h schedule

end Shutdown

/-- **A clean shutdown, and whom it loses.** Any number of calls on a
logger, in any interleaving with one `RecordShutdown`, which clears the
flag after the steps `before`:

* once `RecordShutdown` has returned, no call stands behind a guard, and
  no step from there on reaches `sendEvent`;
* every run can be brought to its end;
* of the calls whose outermost guard saw the logger active and whose event
  passes filters and decorators, a call at its end has reached `sendEvent`
  exactly if the flag was not cleared while it stood between its outermost
  guard and the guard of `submit`. -/
theorem shutdown_clean_iff (f : DiagLevelFilter) (logger : ℕ) (calls : List LogCall)
    (before after : List ℕ) (hbefore : 0 ∉ before) :
    let closing := run step (shutdownStart f logger calls) before
    let final := run step closing (0 :: after)
    (final.prog 0 = done →
      (∀ i, held logger (final.prog i) = 0) ∧
        ∀ more, (run step final more).noted = final.noted) ∧
    (∃ more, ∀ i, (run step final more).prog i = done) ∧
    ∀ i c, calls[i]? = some c → c.Passes f → i + 1 ∈ final.entered → final.prog (i + 1) = done →
      (i + 1 ∈ final.noted ↔ closing.prog (i + 1) ∉ betweenGuards f logger c) := by
  intro closing final
  have hsound : closing.Sound (calls.length + 1) := shutdownStart_sound.run before
  have hactive : Active f logger calls closing := Active.start.run hbefore
  have hcleared : closing.step 0 = { closing with
      prog := update closing.prog 0 (.drain logger done)
      isOpen := update closing.isOpen logger false } := step_close hactive.first
  have hretired : Retired (calls.length + 1) logger (closing.step 0) := by
    refine ⟨hsound.step 0, ?_, Or.inl ?_⟩
    · rw [hcleared]
      dsimp only
      rw [update_self]
    · rw [hcleared]
      dsimp only
      rw [update_self]
  have hfinal : Retired (calls.length + 1) logger final := hretired.run after
  have hclosing : ∀ {P : Prog → Prop} (i : ℕ), ((shutdownStart f logger calls).prog i).All P →
      (final.prog i).All P := fun i h => all_run (all_run h before) (0 :: after)
  refine ⟨fun hreturned => ?_, ?_, fun i c hc hpasses hentered hdone => ?_⟩
  · have hdrained : final.Drained (calls.length + 1) logger := by
      refine ⟨hfinal.toSound, hfinal.closed, ?_, fun i => hclosing i ?_⟩
      · rcases hfinal.waits with hwaits | hreturned'
        · rw [hreturned] at hwaits
          cases hwaits
        · exact hreturned'.2
      · exact shutdownStart_all (P := NotesBehind logger) ⟨trivial, trivial, trivial⟩
          (fun _ _ h => h.behind) trivial i
    exact ⟨hdrained.held_eq_zero, fun more => (hdrained.run more).2⟩
  · refine hfinal.toSound.can_finish fun i => hclosing i ?_
    exact shutdownStart_all (P := DrainsFree) ⟨trivial, ⟨rfl, fun _ => rfl⟩, trivial⟩
      (fun _ _ h => h.drains) trivial i
  · have hnever : ∀ j, ((closing.step 0).prog j).All NeverCloses := by
      intro j
      by_cases hj : j = 0
      · rw [hj, hcleared]
        dsimp only
        rw [update_self]
        exact ⟨trivial, trivial⟩
      · rw [step_prog_of_ne hj]
        exact hactive.closes j hj
    have hgates : ∀ j, ((closing.step 0).prog j).All (EntersOnly logger) := fun j =>
      all_step (all_run (shutdownStart_all (P := EntersOnly logger) ⟨trivial, trivial, trivial⟩
        (fun _ _ h => h.gates) trivial j) before)
    -- a call that got in got in before
    have hin : i + 1 ∈ closing.entered := by
      have hsame : final.entered = (closing.step 0).entered :=
        entered_run hgates hretired.closed after
      rw [hsame, hcleared] at hentered
      exact hentered
    calc i + 1 ∈ final.noted
        ↔ Reaches final (i + 1) := (reaches_done hdone).symm
      _ ↔ Reaches (closing.step 0) (i + 1) := reaches_run hnever after
      _ ↔ i + 1 ∈ closing.noted ∨
          (closing.prog (i + 1)).reaches (update closing.isOpen logger false) = true := by
        rw [Reaches, hcleared]
        dsimp only
        rw [update_of_ne (Nat.succ_ne_zero i)]
      _ ↔ closing.prog (i + 1) ∉ betweenGuards f logger c :=
        (hactive.stages i c hc hpasses).reaches_iff hpasses hin (update_self _ _ _)

/-- A call whose event passes where no level is set. -/
def passingCall : LogCall := ⟨true, true, none, diagLevelDefault, .normal⟩

theorem shutdown_clean_iff_past_submit :
    let closing := run step (shutdownStart {} 7 [passingCall]) [1, 1, 1, 1, 1, 1]
    let final := run step closing [0, 1, 1, 1, 1, 1, 1, 0]
    (final.prog 0 = done ∧ final.prog 1 = done) ∧ 1 ∈ final.noted := by
  intro closing final
  have h := (shutdown_clean_iff {} 7 [passingCall] [1, 1, 1, 1, 1, 1] [1, 1, 1, 1, 1, 1, 0]
    (by decide)).2.2
  exact ⟨⟨by decide, by decide⟩,
    (h 0 passingCall rfl (by decide) (by decide) (by decide)).2 (by decide)⟩

/-- **A call lost half-way.** The flag is cleared when the call has passed
its outermost guard; the call ends without `sendEvent`, and
`RecordShutdown` has waited for it. -/
theorem shutdown_loses_call :
    let closing := run step (shutdownStart {} 7 [passingCall]) [1]
    let final := run step closing [0, 1, 1, 1, 0]
    passingCall.Passes {} ∧ 1 ∈ final.entered ∧ final.prog 0 = done ∧ final.prog 1 = done ∧
      final.noted = [] := by
  refine ⟨by decide, by decide, by decide, by decide, by decide⟩

end ClientTelemetry
