import Mathlib.Data.List.Basic
/-!
# Runs

A machine that takes one action at a time, the state a list of actions
leaves it in, and the runs all of whose steps meet a condition on the
state they start from. `run_invariant` is the induction every safety
result over runs goes through: it asks what one step preserves.
-/

namespace ClientTelemetry

open List

variable {σ α : Type*}

/-- The state a list of actions leads to. -/
def run (step : σ → α → σ) (s : σ) (as : List α) : σ := as.foldl step s

/-- **Every step of the run meets the condition**, in the state it is
taken in. -/
def RunMeets (ok : σ → α → Prop) (step : σ → α → σ) : σ → List α → Prop
  | _, [] => True
  | s, a :: as => ok s a ∧ RunMeets ok step (step s a) as

variable {step : σ → α → σ} {ok : σ → α → Prop} {s : σ} {a : α} {as bs : List α}
  {ok' : σ → α → Prop} {Inv : σ → Prop}

@[simp] theorem run_nil : run step s [] = s := rfl

@[simp] theorem run_cons : run step s (a :: as) = run step (step s a) as := rfl

@[simp] theorem runMeets_cons :
    RunMeets ok step s (a :: as) ↔ ok s a ∧ RunMeets ok step (step s a) as := Iff.rfl

instance RunMeets.decidable [∀ s a, Decidable (ok s a)] :
    ∀ (s : σ) (as : List α), Decidable (RunMeets ok step s as)
  | _, [] => .isTrue trivial
  | s, a :: as =>
    match (inferInstance : Decidable (ok s a)), RunMeets.decidable (step s a) as with
    | .isTrue h, .isTrue h' => .isTrue ⟨h, h'⟩
    | .isFalse h, _ => .isFalse fun h' => h h'.1
    | _, .isFalse h => .isFalse fun h' => h h'.2

theorem run_append : run step s (as ++ bs) = run step (run step s as) bs := foldl_append

theorem runMeets_append :
    RunMeets ok step s (as ++ bs) ↔ RunMeets ok step s as ∧ RunMeets ok step (run step s as) bs := by
  induction as generalizing s with
  | nil => simp [RunMeets]
  | cons a as ih => rw [cons_append, runMeets_cons, runMeets_cons, ih, run_cons, and_assoc]

/-- A condition on the actions alone is met by a run if it is by each of
them. -/
theorem runMeets_forall {p : α → Prop} :
    RunMeets (fun _ a => p a) step s as ↔ ∀ a ∈ as, p a := by
  induction as generalizing s with
  | nil => simp [RunMeets]
  | cons a as ih => rw [runMeets_cons, ih, forall_mem_cons]

/-- A run meets two conditions if it meets each of them. -/
theorem runMeets_and :
    RunMeets (fun s a => ok s a ∧ ok' s a) step s as ↔
      RunMeets ok step s as ∧ RunMeets ok' step s as := by
  induction as generalizing s with
  | nil => exact ⟨fun _ => ⟨trivial, trivial⟩, fun _ => trivial⟩
  | cons a as ih =>
    rw [runMeets_cons, runMeets_cons, runMeets_cons, ih]
    exact and_and_and_comm

/-- **The invariant rule.** What every step that meets the condition
preserves holds wherever a run of such steps leads. -/
theorem run_invariant (hstep : ∀ s a, Inv s → ok s a → Inv (step s a))
    (h : Inv s) (hrun : RunMeets ok step s as) : Inv (run step s as) := by
  induction as generalizing s with
  | nil => exact h
  | cons a as ih => exact ih (hstep s a h hrun.1) hrun.2

/-- Conditions that agree under an invariant, which their steps preserve,
are met by the same runs. -/
theorem runMeets_congr (hiff : ∀ s, ∀ a ∈ as, Inv s → (ok s a ↔ ok' s a))
    (hstep : ∀ s, ∀ a ∈ as, Inv s → ok s a → Inv (step s a))
    (h : Inv s) : RunMeets ok step s as ↔ RunMeets ok' step s as := by
  induction as generalizing s with
  | nil => exact Iff.rfl
  | cons a as ih =>
    rw [runMeets_cons, runMeets_cons, ← hiff s a mem_cons_self h]
    refine and_congr_right fun hok => ih (fun s b hb => hiff s b (mem_cons_of_mem a hb))
      (fun s b hb => hstep s b (mem_cons_of_mem a hb)) ?_
    exact hstep s a mem_cons_self h hok

/-- What every step preserves holds wherever a run leads. -/
theorem run_preserves (hstep : ∀ s a, Inv s → Inv (step s a)) (h : Inv s)
    (as : List α) : Inv (run step s as) := by
  induction as generalizing s with
  | nil => exact h
  | cons a as ih => exact ih (hstep s a h)

/-- **The simulation rule.** A relation that every step in common
preserves holds wherever two machines are led by the same actions. -/
theorem run_simulates {τ : Type*} {step' : τ → α → τ} {R : σ → τ → Prop} {t : τ}
    (hstep : ∀ s t a, R s t → ok s a → R (step s a) (step' t a)) (h : R s t)
    (hrun : RunMeets ok step s as) : R (run step s as) (run step' t as) := by
  induction as generalizing s t with
  | nil => exact h
  | cons a as ih => exact ih (hstep s t a h hrun.1) hrun.2

end ClientTelemetry
