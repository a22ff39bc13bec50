import ClientTelemetry.Common.Run
import Mathlib.Algebra.Order.BigOperators.Group.Finset
import Mathlib.Data.Finset.Basic
/-!
# Threads, gates and a lock

Threads that run side by side over one recursive lock and a number of
gates. A thread passes a gate while it is open, and then holds it until it
leaves; another closes the gate and drains it, which means to wait until
nobody holds it. A program says what a thread has still to do, so that
what the thread holds can be read from it: the gates it has still to leave
(`held`) and the lock it has still to give up (`locks`).

A gate counts the holds of all threads (`Sound`). Once closed and drained
it is held by nobody, and nobody gets in. Where no program waits for a
gate while it holds the lock or a gate, every run can be brought to its
end (`can_finish`).
-/

namespace ClientTelemetry

open Function

/-! ## Programs -/

/-- **What a thread has still to do.** -/
inductive Prog where
  | done
  /-- Pass a gate and go on with the first, if it is open; with the second
  if it is closed. -/
  | enter (gate : ℕ) (inside refused : Prog)
  | leave (gate : ℕ) (next : Prog)
  | lock (next : Prog)
  | unlock (next : Prog)
  /-- The place to be reached. -/
  | note (next : Prog)
  | close (gate : ℕ) (next : Prog)
  /-- Wait until nobody holds the gate. -/
  | drain (gate : ℕ) (next : Prog)
  deriving DecidableEq

namespace Prog

variable {P : Prog → Prop} {p : Prog}

/-- How often the thread holds a gate. -/
def held (g : ℕ) : Prog → ℕ
  | done => 0
  | enter _ _ refused => held g refused
  | leave gate next => held g next + if g = gate then 1 else 0
  | lock next => held g next
  | unlock next => held g next
  | note next => held g next
  | close _ next => held g next
  | drain _ next => held g next

/-- How often the thread holds the lock. -/
def locks : Prog → ℕ
  | done => 0
  | enter _ _ refused => locks refused
  | leave _ next => locks next
  | lock next => locks next - 1
  | unlock next => locks next + 1
  | note next => locks next
  | close _ next => locks next
  | drain _ next => locks next

/-- The most steps a thread can take. -/
def size : Prog → ℕ
  | done => 0
  | enter _ inside refused => size inside + size refused + 1
  | leave _ next => size next + 1
  | lock next => size next + 1
  | unlock next => size next + 1
  | note next => size next + 1
  | close _ next => size next + 1
  | drain _ next => size next + 1

/-- A condition on a program and all that may be left of it. -/
def All (P : Prog → Prop) : Prog → Prop
  | done => P done
  | enter gate inside refused => P (enter gate inside refused) ∧ All P inside ∧ All P refused
  | leave gate next => P (leave gate next) ∧ All P next
  | lock next => P (lock next) ∧ All P next
  | unlock next => P (unlock next) ∧ All P next
  | note next => P (note next) ∧ All P next
  | close gate next => P (close gate next) ∧ All P next
  | drain gate next => P (drain gate next) ∧ All P next

theorem All.self (h : p.All P) : P p := by
  cases p with
  | done => exact h
  | enter | leave | lock | unlock | note | close | drain => exact h.1

theorem All.imp {Q : Prog → Prop} (h : ∀ p, P p → Q p) (hp : p.All P) : p.All Q := by
  induction p with
  | done => exact h _ hp
  | enter gate inside refused hinside hrefused =>
    exact ⟨h _ hp.1, hinside hp.2.1, hrefused hp.2.2⟩
  | leave _ _ ih | lock _ ih | unlock _ ih | note _ ih | close _ _ ih | drain _ _ ih =>
    exact ⟨h _ hp.1, ih hp.2⟩

/-- **A program gives back what it takes**: behind a gate it holds the
gate once more than if it was refused. -/
def Balances : Prog → Prop
  | enter gate inside refused =>
    (∀ g, held g inside = held g refused + if g = gate then 1 else 0) ∧ locks inside = locks refused
  | lock next => 0 < locks next
  | _ => True

/-- A program that waits for a gate holds nothing meanwhile. -/
def DrainsFree : Prog → Prop
  | drain _ next => locks next = 0 ∧ ∀ g, held g next = 0
  | _ => True

/-- The place is reached behind the gate. -/
def NotesBehind (g : ℕ) : Prog → Prop
  | note next => 0 < held g next
  | _ => True

/-- The program passes no other gate. -/
def EntersOnly (g : ℕ) : Prog → Prop
  | enter gate _ _ => gate = g
  | _ => True

/-- The program closes no gate. -/
def NeverCloses : Prog → Prop
  | close _ _ => False
  | _ => True

/-- **A program run by itself reaches the place**, with the gates as they
are. -/
def reaches (isOpen : ℕ → Bool) : Prog → Bool
  | done => false
  | enter gate inside refused =>
    if isOpen gate then reaches isOpen inside else reaches isOpen refused
  | leave _ next => reaches isOpen next
  | lock next => reaches isOpen next
  | unlock next => reaches isOpen next
  | note _ => true
  | close _ next => reaches isOpen next
  | drain _ next => reaches isOpen next

end Prog

open Prog

/-! ## The machine -/

/-- **The threads**, the gates and the lock. -/
structure Machine where
  prog : ℕ → Prog
  isOpen : ℕ → Bool
  /-- How often each gate is held. -/
  holds : ℕ → ℕ
  /-- The thread that has the lock. -/
  owner : Option ℕ
  /-- How often it has it. -/
  depth : ℕ
  /-- The threads that passed a gate they did not hold before. -/
  entered : List ℕ
  /-- The threads that reached the place. -/
  noted : List ℕ

namespace Machine

/-- All gates open and nothing held. -/
def start (progs : ℕ → Prog) : Machine where
  prog := progs
  isOpen _ := true
  holds _ := 0
  owner := none
  depth := 0
  entered := []
  noted := []

/-- **A step of a thread.** One that has to wait does nothing. -/
def step (s : Machine) (i : ℕ) : Machine :=
  match s.prog i with
  | done => s
  | enter gate inside refused =>
    if s.isOpen gate then
      { s with
        prog := update s.prog i inside
        holds := update s.holds gate (s.holds gate + 1)
        entered := if held gate refused = 0 then s.entered ++ [i] else s.entered }
    else { s with prog := update s.prog i refused }
  | leave gate next =>
    { s with prog := update s.prog i next, holds := update s.holds gate (s.holds gate - 1) }
  | lock next =>
    if s.owner = none ∨ s.owner = some i then
      { s with prog := update s.prog i next, owner := some i, depth := s.depth + 1 }
    else s
  | unlock next =>
    if s.depth ≤ 1 then { s with prog := update s.prog i next, owner := none, depth := 0 }
    else { s with prog := update s.prog i next, depth := s.depth - 1 }
  | note next => { s with prog := update s.prog i next, noted := s.noted ++ [i] }
  | close gate next => { s with prog := update s.prog i next, isOpen := update s.isOpen gate false }
  | .drain gate next => if s.holds gate = 0 then { s with prog := update s.prog i next } else s

/-- **What a step can do.** -/
inductive Moves (s : Machine) (i : ℕ) : Machine → Prop
  | pass {gate : ℕ} {inside refused : Prog} (hp : s.prog i = enter gate inside refused)
      (hopen : s.isOpen gate = true) :
      Moves s i { s with
        prog := update s.prog i inside
        holds := update s.holds gate (s.holds gate + 1)
        entered := if held gate refused = 0 then s.entered ++ [i] else s.entered }
  | refuse {gate : ℕ} {inside refused : Prog} (hp : s.prog i = enter gate inside refused)
      (hclosed : s.isOpen gate = false) : Moves s i { s with prog := update s.prog i refused }
  | leave {gate : ℕ} {next : Prog} (hp : s.prog i = leave gate next) :
      Moves s i { s with
        prog := update s.prog i next
        holds := update s.holds gate (s.holds gate - 1) }
  | lock {next : Prog} (hp : s.prog i = lock next) (hfree : s.owner = none ∨ s.owner = some i) :
      Moves s i { s with prog := update s.prog i next, owner := some i, depth := s.depth + 1 }
  | unlockLast {next : Prog} (hp : s.prog i = unlock next) (hlast : s.depth ≤ 1) :
      Moves s i { s with prog := update s.prog i next, owner := none, depth := 0 }
  | unlock {next : Prog} (hp : s.prog i = unlock next) (hmore : 1 < s.depth) :
      Moves s i { s with prog := update s.prog i next, depth := s.depth - 1 }
  | note {next : Prog} (hp : s.prog i = note next) :
      Moves s i { s with prog := update s.prog i next, noted := s.noted ++ [i] }
  | close {gate : ℕ} {next : Prog} (hp : s.prog i = close gate next) :
      Moves s i { s with prog := update s.prog i next, isOpen := update s.isOpen gate false }
  | drain {gate : ℕ} {next : Prog} (hp : s.prog i = .drain gate next) (hnone : s.holds gate = 0) :
      Moves s i { s with prog := update s.prog i next }

/-- A thread that need not wait. -/
def Enabled (s : Machine) (i : ℕ) : Prop :=
  match s.prog i with
  | done => False
  | lock _ => s.owner = none ∨ s.owner = some i
  | .drain gate _ => s.holds gate = 0
  | _ => True

variable {s s' : Machine} {i j n : ℕ} {gate g : ℕ} {next p : Prog} {P : Prog → Prop}

/-- A step moves the thread, or the thread had to wait. -/
theorem step_moves (s : Machine) (i : ℕ) :
    (s.Enabled i ∧ Moves s i (s.step i)) ∨ (¬ s.Enabled i ∧ s.step i = s) := by
  rcases hp : s.prog i with _ | ⟨gate, inside, refused⟩ | ⟨gate, next⟩ | next | next | next |
    ⟨gate, next⟩ | ⟨gate, next⟩ <;> simp only [step, Enabled, hp, true_and, not_true, false_and,
      or_false, false_or, not_false_eq_true]
  · by_cases hopen : s.isOpen gate = true
    · rw [if_pos hopen]
      exact .pass hp hopen
    · rw [if_neg hopen]
      exact .refuse hp (by simpa using hopen)
  · exact .leave hp
  · by_cases hfree : s.owner = none ∨ s.owner = some i
    · rw [if_pos hfree]
      exact Or.inl ⟨hfree, .lock hp hfree⟩
    · rw [if_neg hfree]
      exact Or.inr ⟨hfree, rfl⟩
  · split_ifs with hlast
    · exact .unlockLast hp hlast
    · exact .unlock hp (not_le.1 hlast)
  · exact .note hp
  · exact .close hp
  · by_cases hnone : s.holds gate = 0
    · rw [if_pos hnone]
      exact Or.inl ⟨hnone, .drain hp hnone⟩
    · rw [if_neg hnone]
      exact Or.inr ⟨hnone, rfl⟩

/-- The rule for what a step preserves. -/
theorem step_induction {P : Machine → Prop} (h : P s) (hmoves : ∀ s', Moves s i s' → P s') :
    P (s.step i) := by
  rcases step_moves s i with ⟨-, hmove⟩ | ⟨-, hsame⟩
  · exact hmoves _ hmove
  · rw [hsame]
    exact h

/-- The part of a program a step leads to. -/
theorem Moves.prog_eq (h : Moves s i s') : ∃ p, s'.prog = update s.prog i p ∧
    (∀ P : Prog → Prop, (s.prog i).All P → p.All P) ∧ p.size < (s.prog i).size := by
  cases h with
  | @pass gate inside refused hp _ =>
    refine ⟨inside, rfl, fun P hP => ?_, ?_⟩
    · rw [hp] at hP
      exact hP.2.1
    · rw [hp, size]
      omega
  | @refuse gate inside refused hp _ =>
    refine ⟨refused, rfl, fun P hP => ?_, ?_⟩
    · rw [hp] at hP
      exact hP.2.2
    · rw [hp, size]
      omega
  | @leave gate next hp | @lock next hp _ | @unlockLast next hp _ | @unlock next hp _
  | @note next hp | @close gate next hp | @drain gate next hp _ =>
    refine ⟨next, rfl, fun P hP => ?_, ?_⟩
    · rw [hp] at hP
      exact hP.2
    · rw [hp, size]
      omega

/-- A step of one thread leaves the programs of the others. -/
theorem step_prog_of_ne (h : j ≠ i) : (s.step i).prog j = s.prog j := by
  refine step_induction (P := fun s' => s'.prog j = s.prog j) rfl fun s' hmove => ?_
  obtain ⟨p, hp, -⟩ := hmove.prog_eq
  rw [hp, update_of_ne h]

/-- A step of one thread says nothing of where another has been. -/
theorem step_seen_of_ne (h : j ≠ i) : (j ∈ (s.step i).entered ↔ j ∈ s.entered) ∧
    (j ∈ (s.step i).noted ↔ j ∈ s.noted) := by
  refine step_induction (P := fun s' => (j ∈ s'.entered ↔ j ∈ s.entered) ∧
    (j ∈ s'.noted ↔ j ∈ s.noted)) ⟨Iff.rfl, Iff.rfl⟩ fun s' hmove => ?_
  cases hmove with
  | pass hp hopen =>
    refine ⟨?_, Iff.rfl⟩
    dsimp only
    split_ifs
    · simp [h]
    · rfl
  | note hp => exact ⟨Iff.rfl, by simp [h]⟩
  | refuse | leave | lock | unlockLast | unlock | close | drain => exact ⟨Iff.rfl, Iff.rfl⟩

/-- A thread before an open gate passes it. -/
theorem step_pass {inside refused : Prog} (hp : s.prog i = enter gate inside refused)
    (hopen : s.isOpen gate = true) :
    s.step i = { s with
      prog := update s.prog i inside
      holds := update s.holds gate (s.holds gate + 1)
      entered := if held gate refused = 0 then s.entered ++ [i] else s.entered } := by
  simp only [step, hp, hopen, if_true]

theorem step_leave (hp : s.prog i = leave gate next) :
    s.step i = { s with
      prog := update s.prog i next
      holds := update s.holds gate (s.holds gate - 1) } := by
  simp only [step, hp]

theorem step_note (hp : s.prog i = note next) :
    s.step i = { s with prog := update s.prog i next, noted := s.noted ++ [i] } := by
  simp only [step, hp]

theorem step_close (hp : s.prog i = close gate next) :
    s.step i = { s with prog := update s.prog i next, isOpen := update s.isOpen gate false } := by
  simp only [step, hp]

/-- Where a thread has been it has been. -/
theorem entered_mono (i : ℕ) (h : j ∈ s.entered) : j ∈ (s.step i).entered := by
  refine step_induction (P := fun s' => j ∈ s'.entered) h fun s' hmove => ?_
  cases hmove with
  | pass hp hopen =>
    dsimp only
    split_ifs
    · exact List.mem_append_left _ h
    · exact h
  | refuse | leave | lock | unlockLast | unlock | note | close | drain => exact h

theorem noted_mono (i : ℕ) (h : j ∈ s.noted) : j ∈ (s.step i).noted := by
  refine step_induction (P := fun s' => j ∈ s'.noted) h fun s' hmove => ?_
  cases hmove with
  | note hp => exact List.mem_append_left _ h
  | pass | refuse | leave | lock | unlockLast | unlock | close | drain => exact h

/-- Nobody gets more to do. -/
theorem size_step_le (i j : ℕ) : size ((s.step i).prog j) ≤ size (s.prog j) := by
  by_cases hij : j = i
  · subst hij
    refine step_induction (P := fun s' => size (s'.prog j) ≤ size (s.prog j)) le_rfl
      fun s' hmove => ?_
    obtain ⟨p, hp, -, hsize⟩ := hmove.prog_eq
    rw [hp, update_self]
    exact le_of_lt hsize
  · rw [step_prog_of_ne hij]

/-- What holds of all that may be left of a program stays so. -/
theorem all_step (h : (s.prog j).All P) : ((s.step i).prog j).All P := by
  by_cases hij : j = i
  · subst hij
    refine step_induction (P := fun s' => (s'.prog j).All P) h fun s' hmove => ?_
    obtain ⟨p, hp, hall, -⟩ := hmove.prog_eq
    rw [hp, update_self]
    exact hall P h
  · rwa [step_prog_of_ne hij]

theorem all_run (h : (s.prog j).All P) (schedule : List ℕ) :
    ((run step s schedule).prog j).All P := by
  have hstep : ∀ (s : Machine) i, (s.prog j).All P → ((s.step i).prog j).All P :=
    fun _ _ hs => all_step hs
  exact run_preserves hstep h schedule

/-! ## What is held -/

/-- **The gates count the holds of the threads**, the lock knows its
owner, and programs give back what they take. The threads from a number on
have no program. -/
structure Sound (n : ℕ) (s : Machine) : Prop where
  bounded : ∀ i, n ≤ i → s.prog i = .done
  balanced : ∀ i, (s.prog i).All Balances
  counted : ∀ g, s.holds g = ∑ j ∈ Finset.range n, held g (s.prog j)
  owned : ∀ i, s.owner = some i → s.depth = locks (s.prog i) ∧ 0 < s.depth
  unowned : ∀ i, s.owner ≠ some i → locks (s.prog i) = 0
  free : s.owner = none → s.depth = 0

/-- One program exchanged for another in a sum over the threads. -/
theorem sum_update (f : Prog → ℕ) (progs : ℕ → Prog) (p : Prog) (hi : i < n) :
    ∑ j ∈ Finset.range n, f (update progs i p j) + f (progs i) =
      ∑ j ∈ Finset.range n, f (progs j) + f p := by
  have hmem : i ∈ Finset.range n := Finset.mem_range.2 hi
  rw [← Finset.add_sum_erase _ _ hmem, ← Finset.add_sum_erase _ (fun j => f (progs j)) hmem,
    update_self]
  have hrest : ∑ j ∈ (Finset.range n).erase i, f (update progs i p j) =
      ∑ j ∈ (Finset.range n).erase i, f (progs j) :=
    Finset.sum_congr rfl fun j hj => by rw [update_of_ne (Finset.ne_of_mem_erase hj)]
  omega

theorem Sound.lt_of_ne_done (h : Sound n s) (hp : s.prog i ≠ .done) : i < n :=
  not_le.1 fun hle => hp (h.bounded i hle)

/-- A gate is held at least as often as one thread holds it. -/
theorem Sound.held_le (h : Sound n s) (g i : ℕ) : held g (s.prog i) ≤ s.holds g := by
  by_cases hlt : i < n
  · rw [h.counted g]
    exact Finset.single_le_sum (f := fun j => held g (s.prog j)) (fun j _ => Nat.zero_le _)
      (Finset.mem_range.2 hlt)
  · rw [h.bounded i (not_lt.1 hlt)]
    exact Nat.zero_le _

/-- Programs that hold nothing at the start. -/
theorem Sound.start {progs : ℕ → Prog} (hbounded : ∀ i, n ≤ i → progs i = .done)
    (hbalanced : ∀ i, (progs i).All Balances) (hheld : ∀ i g, held g (progs i) = 0)
    (hlocks : ∀ i, locks (progs i) = 0) : Sound n (Machine.start progs) where
  bounded := hbounded
  balanced := hbalanced
  counted g := by
    show 0 = ∑ j ∈ Finset.range n, held g (progs j)
    exact (Finset.sum_eq_zero fun j _ => hheld j g).symm
  owned i hi := nomatch hi
  unowned i _ := hlocks i
  free _ := rfl

section

variable (h : Sound n s)
include h

/-- The books after a move, from what it did to the holds and the lock. -/
theorem Sound.of_move (hmove : Moves s i s') (hprog : s'.prog = update s.prog i p)
    (hholds : ∀ g, s'.holds g + held g (s.prog i) = s.holds g + held g p)
    (howned : ∀ k, s'.owner = some k → s'.depth = locks (s'.prog k) ∧ 0 < s'.depth)
    (hunowned : ∀ k, s'.owner ≠ some k → locks (s'.prog k) = 0)
    (hfree : s'.owner = none → s'.depth = 0) : Sound n s' := by
  obtain ⟨p', hprog', hall, hsize⟩ := hmove.prog_eq
  obtain rfl : p = p' := by
    have := congrFun (hprog.symm.trans hprog') i
    rwa [update_self, update_self] at this
  have hlt : i < n := h.lt_of_ne_done fun hdone => by
    rw [hdone] at hsize
    exact Nat.not_lt_zero _ hsize
  refine ⟨fun k hk => ?_, fun k => ?_, fun g => ?_, howned, hunowned, hfree⟩
  · rw [hprog, update_of_ne (by omega)]
    exact h.bounded k hk
  · rw [hprog]
    by_cases hki : k = i
    · rw [hki, update_self]
      exact hall _ (h.balanced i)
    · rw [update_of_ne hki]
      exact h.balanced k
  · have hsum := sum_update (held g) s.prog p hlt
    rw [← hprog, ← h.counted g] at hsum
    have := hholds g
    omega

/-- A move that has nothing to do with the lock. -/
theorem Sound.of_move_unlocked (hmove : Moves s i s')
    (hprog : s'.prog = update s.prog i p) (howner : s'.owner = s.owner)
    (hdepth : s'.depth = s.depth) (hlocks : locks p = locks (s.prog i))
    (hholds : ∀ g, s'.holds g + held g (s.prog i) = s.holds g + held g p) : Sound n s' := by
  have hsame : ∀ k, locks (s'.prog k) = locks (s.prog k) := by
    intro k
    rw [hprog]
    by_cases hki : k = i
    · rw [hki, update_self, hlocks]
    · rw [update_of_ne hki]
  refine h.of_move hmove hprog hholds (fun k hk => ?_) (fun k hk => ?_) fun hnone => ?_
  · rw [hsame, hdepth]
    exact h.owned k (howner ▸ hk)
  · rw [hsame]
    exact h.unowned k (howner ▸ hk)
  · rw [hdepth]
    exact h.free (howner ▸ hnone)

/-- A thread that has still to give the lock up is its owner. -/
theorem Sound.owner_of_locks (hpos : 0 < locks (s.prog i)) : s.owner = some i := by
  by_contra hne
  have := h.unowned i hne
  omega

/-- **A step keeps the books.** -/
theorem Sound.step (i : ℕ) : Sound n (s.step i) := by
  refine step_induction h fun s' hmove => ?_
  have hbal := (h.balanced i).self
  have hmoves := hmove
  cases hmove with
  | @pass gate inside refused hp hopen =>
    rw [hp] at hbal
    refine h.of_move_unlocked hmoves rfl rfl rfl (by rw [hp, locks, hbal.2]) fun g => ?_
    rw [hp, held, hbal.1 g]
    dsimp only
    by_cases hg : g = gate
    · subst hg
      rw [if_pos rfl, update_self]
      omega
    · rw [if_neg hg, update_of_ne hg, Nat.add_zero]
  | @leave gate next hp =>
    refine h.of_move_unlocked hmoves rfl rfl rfl (by rw [hp, locks]) fun g => ?_
    rw [hp, held]
    dsimp only
    by_cases hg : g = gate
    · -- the thread is among those the gate counts
      subst hg
      have hle := h.held_le g i
      rw [hp, held, if_pos rfl] at hle
      rw [if_pos rfl, update_self]
      omega
    · rw [if_neg hg, update_of_ne hg, Nat.add_zero]
  | @lock next hp hfree =>
    rw [hp] at hbal
    have hpos : 0 < locks next := hbal
    have hdepth : s.depth + 1 = locks next := by
      rcases hfree with hnone | hown
      · have hzero := h.unowned i (by rw [hnone]; exact fun heq => nomatch heq)
        rw [hp, locks] at hzero
        have := h.free hnone
        omega
      · obtain ⟨heq, -⟩ := h.owned i hown
        rw [hp, locks] at heq
        omega
    refine h.of_move hmoves rfl (fun g => by rw [hp, held]) (fun k hk => ?_)
      (fun k hk => ?_) fun hnone => nomatch hnone
    · obtain rfl : i = k := Option.some.inj hk
      dsimp only
      rw [update_self]
      omega
    · have hki : k ≠ i := fun hki => hk (by rw [hki])
      have hother : s.owner ≠ some k := by
        rcases hfree with hnone | hown
        · rw [hnone]
          exact fun heq => nomatch heq
        · rw [hown]
          exact fun heq => hki (Option.some.inj heq).symm
      dsimp only
      rw [update_of_ne hki]
      exact h.unowned k hother
  | @unlockLast next hp hlast =>
    have hown : s.owner = some i := h.owner_of_locks (by rw [hp, locks]; omega)
    obtain ⟨hdepth, -⟩ := h.owned i hown
    rw [hp, locks] at hdepth
    refine h.of_move hmoves rfl (fun g => by rw [hp, held])
      (fun k hk => nomatch hk) (fun k _ => ?_) fun _ => rfl
    dsimp only
    by_cases hki : k = i
    · rw [hki, update_self]
      omega
    · rw [update_of_ne hki]
      refine h.unowned k ?_
      rw [hown]
      exact fun heq => hki (Option.some.inj heq).symm
  | @unlock next hp hmore =>
    have hown : s.owner = some i := h.owner_of_locks (by rw [hp, locks]; omega)
    obtain ⟨hdepth, -⟩ := h.owned i hown
    rw [hp, locks] at hdepth
    refine h.of_move hmoves rfl (fun g => by rw [hp, held]) (fun k hk => ?_)
      (fun k hk => ?_) fun hnone => nomatch hown.symm.trans hnone
    · obtain rfl : i = k := Option.some.inj (hown.symm.trans hk)
      dsimp only
      rw [update_self]
      omega
    · have hki : k ≠ i := fun hki => hk (by rw [hki]; exact hown)
      dsimp only
      rw [update_of_ne hki]
      exact h.unowned k hk
  | refuse hp | note hp | close hp | drain hp =>
    refine h.of_move_unlocked hmoves rfl rfl rfl (by rw [hp, locks]) fun g => ?_
    rw [hp, held]

theorem Sound.run (schedule : List ℕ) : Sound n (run Machine.step s schedule) :=
  run_preserves (fun _ i hs => hs.step i) h schedule

end

/-! ## A gate closed and drained -/

/-- **A gate that is closed and held by nobody**, behind which the place
is. -/
structure Drained (n g : ℕ) (s : Machine) : Prop extends Sound n s where
  closed : s.isOpen g = false
  empty : s.holds g = 0
  behind : ∀ i, (s.prog i).All (NotesBehind g)

theorem Drained.held_eq_zero (h : Drained n g s) (i : ℕ) : held g (s.prog i) = 0 :=
  Nat.le_zero.1 (h.empty ▸ h.held_le g i)

/-- A closed gate stays closed. -/
theorem closed_step (h : s.isOpen g = false) : (s.step i).isOpen g = false := by
  refine step_induction (P := fun s' => s'.isOpen g = false) h fun s' hmove => ?_
  cases hmove with
  | @close gate next hp =>
    dsimp only
    by_cases hg : g = gate
    · rw [← hg, update_self]
    · rw [update_of_ne hg, h]
  | pass | refuse | leave | lock | unlockLast | unlock | note | drain => exact h

/-- A closed gate that nobody holds stays so. -/
theorem empty_step (hclosed : s.isOpen g = false) (h : s.holds g = 0) :
    (s.step i).holds g = 0 := by
  refine step_induction (P := fun s' => s'.holds g = 0) h fun s' hmove => ?_
  cases hmove with
  | @pass gate inside refused hp hopen =>
    have hne : g ≠ gate := fun heq => by
      rw [← heq, hclosed] at hopen
      cases hopen
    exact (update_of_ne hne _ _).trans h
  | @leave gate next hp =>
    dsimp only
    by_cases hg : g = gate
    · rw [← hg, update_self, h]
    · rw [update_of_ne hg, h]
  | refuse | lock | unlockLast | unlock | note | close | drain => exact h

/-- It stays so, and nobody reaches the place. -/
theorem Drained.step (h : Drained n g s) (i : ℕ) :
    Drained n g (s.step i) ∧ (s.step i).noted = s.noted := by
  refine ⟨⟨h.toSound.step i, closed_step h.closed, empty_step h.closed h.empty,
    fun k => all_step (h.behind k)⟩, ?_⟩
  refine step_induction (P := fun s' => s'.noted = s.noted) rfl fun s' hmove => ?_
  cases hmove with
  | @note next hp =>
    -- the thread would hold the gate
    have hbehind := (h.behind i).self
    have hnone := h.held_eq_zero i
    rw [hp] at hbehind hnone
    exact absurd hnone (Nat.pos_iff_ne_zero.1 hbehind)
  | pass | refuse | leave | lock | unlockLast | unlock | close | drain => rfl

theorem Drained.run (h : Drained n g s) (schedule : List ℕ) :
    Drained n g (run Machine.step s schedule) ∧
      (run Machine.step s schedule).noted = s.noted := by
  induction schedule generalizing s with
  | nil => exact ⟨h, rfl⟩
  | cons i schedule ih =>
    obtain ⟨hdrained, hnoted⟩ := ih (h.step i).1
    exact ⟨hdrained, hnoted.trans (h.step i).2⟩

/-! ## Who reaches the place -/

/-- A thread that closes no gate leaves the gates as they are. -/
theorem isOpen_step (h : (s.prog i).All NeverCloses) : (s.step i).isOpen = s.isOpen := by
  refine step_induction (P := fun s' => s'.isOpen = s.isOpen) rfl fun s' hmove => ?_
  cases hmove with
  | close hp =>
    rw [hp] at h
    exact h.self.elim
  | pass | refuse | leave | lock | unlockLast | unlock | note | drain => rfl

/-- A thread that passes no gate but a closed one gets in nowhere. -/
theorem entered_step (h : (s.prog i).All (EntersOnly g)) (hclosed : s.isOpen g = false) :
    (s.step i).entered = s.entered := by
  refine step_induction (P := fun s' => s'.entered = s.entered) rfl fun s' hmove => ?_
  cases hmove with
  | @pass gate inside refused hp hopen =>
    rw [hp] at h
    have hgate : gate = g := h.self
    rw [hgate, hclosed] at hopen
    cases hopen
  | refuse | leave | lock | unlockLast | unlock | note | close | drain => rfl

theorem entered_run (h : ∀ i, (s.prog i).All (EntersOnly g)) (hclosed : s.isOpen g = false)
    (schedule : List ℕ) : (run step s schedule).entered = s.entered := by
  induction schedule generalizing s with
  | nil => rfl
  | cons i schedule ih =>
    exact (ih (fun k => all_step (h k)) (closed_step hclosed)).trans (entered_step (h i) hclosed)

/-- The thread has reached the place, or will with the gates as they
are. -/
def Reaches (s : Machine) (i : ℕ) : Prop := i ∈ s.noted ∨ (s.prog i).reaches s.isOpen = true

/-- **Only a gate closed decides who reaches the place.** -/
theorem reaches_step (h : (s.prog j).All NeverCloses) : Reaches (s.step j) i ↔ Reaches s i := by
  refine step_induction (P := fun s' => Reaches s' i ↔ Reaches s i) Iff.rfl fun s' hmove => ?_
  unfold Reaches
  by_cases hij : i = j
  · subst hij
    cases hmove with
    | pass hp hopen => simp [hp, reaches, hopen]
    | refuse hp hclosed => simp [hp, reaches, hclosed]
    | close hp =>
      rw [hp] at h
      exact h.self.elim
    | leave hp | lock hp | unlockLast hp | unlock hp | note hp | drain hp => simp [hp, reaches]
  · cases hmove with
    | close hp =>
      rw [hp] at h
      exact h.self.elim
    | pass | refuse | leave | lock | unlockLast | unlock | note | drain =>
      simp [hij]

theorem reaches_run (h : ∀ j, (s.prog j).All NeverCloses) (schedule : List ℕ) :
    Reaches (run step s schedule) i ↔ Reaches s i := by
  induction schedule generalizing s with
  | nil => exact Iff.rfl
  | cons j schedule ih =>
    exact (ih fun k => all_step (h k)).trans (reaches_step (h j))

/-- A thread at its end has reached the place or never will. -/
theorem reaches_done (h : s.prog i = done) : Reaches s i ↔ i ∈ s.noted := by
  simp [Reaches, h, reaches]

/-! ## Runs that can be finished -/

theorem enabled_of (hp : s.prog i ≠ done)
    (hlock : ∀ next, s.prog i = lock next → s.owner = none ∨ s.owner = some i)
    (hdrain : ∀ gate next, s.prog i = .drain gate next → s.holds gate = 0) : s.Enabled i := by
  unfold Enabled
  split
  case h_1 heq => exact hp heq
  case h_2 next heq => exact hlock next heq
  case h_3 gate next heq => exact hdrain gate next heq
  case h_4 => trivial

variable (h : Sound n s)
include h

/-- **Somebody can go on.** Where nobody waits for a gate with something in
hand, a thread that waits for the lock waits for its owner, and a thread
that waits for a gate waits for somebody behind it. -/
theorem Sound.exists_enabled (hfree : ∀ i, (s.prog i).All DrainsFree)
    (hleft : ∃ i, s.prog i ≠ done) : ∃ i, s.Enabled i := by
  rcases howner : s.owner with _ | k
  · obtain ⟨i, hi⟩ := hleft
    by_cases hstuck : ∃ gate next, s.prog i = .drain gate next ∧ s.holds gate ≠ 0
    · -- somebody holds the gate, and does not wait for a gate
      obtain ⟨gate, next, -, hholds⟩ := hstuck
      rw [h.counted gate] at hholds
      obtain ⟨j, -, hheld⟩ := Finset.exists_ne_zero_of_sum_ne_zero hholds
      refine ⟨j, enabled_of (fun hdone => ?_) (fun _ _ => Or.inl howner) fun gate' next' hj => ?_⟩
      · rw [hdone] at hheld
        exact hheld rfl
      · have hnothing := (hfree j).self
        rw [hj] at hnothing hheld
        exact absurd (hnothing.2 gate) hheld
    · refine ⟨i, enabled_of hi (fun _ _ => Or.inl howner) fun gate next hp => ?_⟩
      by_contra hholds
      exact hstuck ⟨gate, next, hp, hholds⟩
  · -- the owner of the lock has still to give it up
    obtain ⟨hdepth, hpos⟩ := h.owned k howner
    refine ⟨k, enabled_of (fun hdone => ?_) (fun _ _ => Or.inr howner) fun gate next hp => ?_⟩
    · rw [hdone, locks] at hdepth
      omega
    · have hnothing := (hfree k).self
      rw [hp] at hnothing hdepth
      have hzero : locks next = 0 := hnothing.1
      rw [locks] at hdepth
      omega

/-- A thread that goes on has less to do. -/
theorem Sound.size_step (hi : s.Enabled i) :
    ∑ j ∈ Finset.range n, size ((s.step i).prog j) < ∑ j ∈ Finset.range n, size (s.prog j) := by
  rcases step_moves s i with ⟨-, hmove⟩ | ⟨hnot, -⟩
  · obtain ⟨p, hprog, -, hsize⟩ := hmove.prog_eq
    have hlt : i < n := h.lt_of_ne_done fun hdone => by
      rw [hdone] at hsize
      exact Nat.not_lt_zero _ hsize
    have hsum := sum_update size s.prog p hlt
    rw [hprog]
    omega
  · exact absurd hi hnot

/-- **Every run can be brought to its end.** -/
theorem Sound.can_finish (hfree : ∀ i, (s.prog i).All DrainsFree) :
    ∃ schedule, ∀ i, (ClientTelemetry.run Machine.step s schedule).prog i = done := by
  -- induction on what the threads have still to do
  induction hm : ∑ j ∈ Finset.range n, size (s.prog j) using Nat.strong_induction_on
    generalizing s with
  | _ m ih =>
    by_cases hleft : ∃ i, s.prog i ≠ done
    · obtain ⟨i, hi⟩ := h.exists_enabled hfree hleft
      obtain ⟨schedule, hdone⟩ := ih _ (hm ▸ h.size_step hi) (h.step i) (fun k => all_step (hfree k))
        rfl
      exact ⟨i :: schedule, hdone⟩
    · exact ⟨[], fun i => not_not.1 fun hi => hleft ⟨i, hi⟩⟩

end Machine

end ClientTelemetry
