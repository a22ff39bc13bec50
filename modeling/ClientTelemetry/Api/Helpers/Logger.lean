import ClientTelemetry.Api.Model.Logger
/-!
# What a call of a logger holds

A call gives back every guard it takes, and behind its outermost guard it
holds its logger once between two guarded calls (`Behind`). So the threads
of any number of calls, with one more that holds nothing at the start,
keep the books of the gates (`withCalls_sound`).
-/

namespace ClientTelemetry

open Prog

/-! ## What the calls hold -/

variable {f : DiagLevelFilter} {logger : ℕ} {c : LogCall}

/-- **What holds wherever a call stands.** It gives back what it takes, and
holds no gate but that of its logger; it reaches `sendEvent` behind that
gate; it neither closes a gate nor waits for one; and only a call whose
event passes takes the lock. -/
structure CallHolds (f : DiagLevelFilter) (logger : ℕ) (c : LogCall) (p : Prog) : Prop where
  balances : Balances p
  behind : NotesBehind logger p
  gates : EntersOnly logger p
  closes : NeverCloses p
  drains : DrainsFree p
  elsewhere : ∀ g, g ≠ logger → held g p = 0
  sends : ∀ next, p = lock next → c.Passes f

theorem done_holds : (done).All (CallHolds f logger c) :=
  ⟨trivial, trivial, trivial, trivial, trivial, fun _ _ => rfl, fun _ hnext => nomatch hnext⟩

/-- A part of a call behind its outermost guard, and no other. -/
structure Behind (f : DiagLevelFilter) (logger : ℕ) (c : LogCall) (p : Prog) : Prop where
  holds : p.All (CallHolds f logger c)
  guards : ∀ g, held g p = if g = logger then 1 else 0
  locks : locks p = 0

section Behind

variable {p q : Prog}

theorem leave_holds (h : p.All (CallHolds f logger c)) :
    (leave logger p).All (CallHolds f logger c) := by
  refine ⟨⟨trivial, trivial, trivial, trivial, trivial, fun g hg => ?_,
    fun next hnext => nomatch hnext⟩, h⟩
  rw [held, if_neg hg, h.self.elsewhere g hg]

theorem Behind.last : Behind f logger c (leave logger done) where
  holds := leave_holds done_holds
  guards g := by
    rw [held, held, Nat.zero_add]
  locks := rfl

/-- A guard around what gives it back. -/
theorem enter_holds (hp : p.All (CallHolds f logger c)) (hq : q.All (CallHolds f logger c))
    (hheld : ∀ g, held g p = held g q + if g = logger then 1 else 0)
    (hlocks : Prog.locks p = Prog.locks q) : (enter logger p q).All (CallHolds f logger c) :=
  ⟨⟨⟨hheld, hlocks⟩, trivial, rfl, trivial, trivial, hq.self.elsewhere,
    fun _ hnext => nomatch hnext⟩, hp, hq⟩

theorem Behind.enter (hp : p.All (CallHolds f logger c)) (hq : Behind f logger c q)
    (hheld : ∀ g, held g p = held g q + if g = logger then 1 else 0)
    (hlocks : Prog.locks p = 0) : Behind f logger c (enter logger p q) where
  holds := enter_holds hp hq.holds hheld (hlocks.trans hq.locks.symm)
  guards := hq.guards
  locks := hq.locks

/-- A guarded question, whatever the answer. -/
theorem Behind.guarded (hp : Behind f logger c p) (hq : Behind f logger c q) :
    Behind f logger c (.enter logger (leave logger p) q) := by
  refine .enter (leave_holds hp.holds) hq (fun g => ?_) hp.locks
  rw [held, hp.guards, hq.guards]

theorem Behind.dispatchEvent (h : Behind f logger c p) :
    Behind f logger c (dispatchEvent logger p) := h.guarded h

theorem Behind.submit (hfilters : c.filtersPass = true) (hdecorates : c.decorates = true)
    (h : Behind f logger c p) : Behind f logger c (submit f logger c p) := by
  have hback := leave_holds h.holds
  have hheld : ∀ g, held g (leave logger p) = held g p + if g = logger then 1 else 0 := fun _ => rfl
  have hdropped : (ClientTelemetry.dispatchEvent logger (leave logger p)).All
      (CallHolds f logger c) := by
    refine enter_holds (leave_holds hback) hback (fun g => ?_) rfl
    rw [held]
  unfold ClientTelemetry.submit
  split_ifs with hlevel hoff
  · exact .enter hdropped h hheld h.locks
  · exact .enter hdropped h hheld h.locks
  · -- the one place where the lock is taken
    have hpasses : c.Passes f := ⟨hfilters, hdecorates, by simpa using hlevel, hoff⟩
    have helsewhere := hback.self.elsewhere
    refine .enter
      ⟨⟨trivial, ?_, trivial, trivial, trivial, helsewhere, by rintro _ ⟨⟩⟩,
        ⟨?_, trivial, trivial, trivial, trivial, helsewhere, fun _ _ => hpasses⟩,
        ⟨trivial, trivial, trivial, trivial, trivial, helsewhere, by rintro _ ⟨⟩⟩,
        hback⟩ h hheld h.locks
    · show 0 < held logger p + if logger = logger then 1 else 0
      rw [if_pos rfl]
      exact Nat.succ_pos _
    · exact Nat.succ_pos _

end Behind

/-- Behind the outermost guard a call holds its logger once. -/
theorem logEvent_behind : ∃ inside, logEvent f logger c = enter logger inside done ∧
    Behind f logger c inside := by
  refine ⟨_, rfl, .guarded ?_ (Behind.last.dispatchEvent)⟩
  rcases hfilters : c.filtersPass with _ | _
  · exact Behind.last.dispatchEvent
  · refine .guarded ?_ Behind.last
    rcases hdecorates : c.decorates with _ | _
    · exact Behind.last
    · exact .submit hfilters hdecorates Behind.last.dispatchEvent

theorem logEvent_holds : (logEvent f logger c).All (CallHolds f logger c) := by
  obtain ⟨inside, heq, hinside⟩ := @logEvent_behind f logger c
  rw [heq]
  refine enter_holds hinside.holds done_holds (fun g => ?_) hinside.locks
  rw [hinside.guards, held, Nat.zero_add]

/-! ## Calls side by side -/

variable {first : Prog} {calls : List (ℕ × LogCall)} {i : ℕ}

theorem withCalls_of_some {call : ℕ × LogCall} (h : calls[i]? = some call) :
    withCalls f first calls (i + 1) = logEvent f call.1 call.2 := by
  rw [withCalls, h]

theorem withCalls_of_none (h : calls[i]? = none) :
    withCalls f first calls (i + 1) = done := by
  rw [withCalls, h]

/-- **The rule for all threads**: the first, those of the calls, and those
that have nothing to do. -/
theorem withCalls_induction {P : Prog → Prop} (hfirst : P first)
    (hcalls : ∀ call ∈ calls, P (logEvent f call.1 call.2)) (hdone : P done) (i : ℕ) :
    P (withCalls f first calls i) := by
  cases i with
  | zero => exact hfirst
  | succ i =>
    rcases hcall : calls[i]? with _ | call
    · rw [withCalls_of_none hcall]
      exact hdone
    · rw [withCalls_of_some hcall]
      exact hcalls call (List.mem_of_getElem? hcall)

/-- **The threads keep the books.** -/
theorem withCalls_sound (hbalances : first.All Balances) (hheld : ∀ g, held g first = 0)
    (hlocks : locks first = 0) :
    (Machine.start (withCalls f first calls)).Sound (calls.length + 1) := by
  refine .start (fun i hi => ?_) (fun i => ?_) (fun i => ?_) fun i => ?_
  · obtain ⟨k, rfl⟩ : ∃ k, i = k + 1 := ⟨i - 1, by omega⟩
    exact withCalls_of_none (List.getElem?_eq_none_iff.2 (by omega))
  · exact withCalls_induction hbalances (fun _ _ => logEvent_holds.imp fun _ h => h.balances)
      trivial i
  · exact withCalls_induction (P := fun p => ∀ g, held g p = 0) hheld (fun _ _ _ => rfl)
      (fun _ => rfl) i
  · exact withCalls_induction (P := fun p => locks p = 0) hlocks (fun _ _ => rfl) rfl i

end ClientTelemetry
