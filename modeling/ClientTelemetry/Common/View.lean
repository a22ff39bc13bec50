import Mathlib.Data.List.Basic
import Mathlib.Data.List.Forall2
/-!
# Two runs under a view

A view says what of a state can be seen. Two functions agree under a view
if they lead from states that look the same to states that look the same.
A function whose visible outcome depends on what is visible agrees with
every other that depends on it in the same way, and agreement is kept by
composition and along lists, so that two runs are compared step by step.
-/

namespace ClientTelemetry

variable {σ ο α β : Type*}

/-- **The functions agree under the view.** -/
def Agree (view : σ → ο) (f g : σ → σ) : Prop := ∀ s t, view s = view t → view (f s) = view (g t)

variable {view : σ → ο} {f g f' g' : σ → σ}

/-- **The factor rule.** What can be seen afterwards depends on what could
be seen before, and in the same way. -/
theorem Agree.of_factor (k : ο → ο) (hf : ∀ s, view (f s) = k (view s))
    (hg : ∀ t, view (g t) = k (view t)) : Agree view f g := by
  intro s t h
  rw [hf, hg, h]

/-- What changes nothing that can be seen agrees with any other such
function. -/
theorem Agree.of_hidden (hf : ∀ s, view (f s) = view s) (hg : ∀ t, view (g t) = view t) :
    Agree view f g :=
  .of_factor id hf hg

/-- **The list rule.** Steps that agree one by one agree together. -/
theorem Agree.foldl {step : σ → α → σ} {step' : σ → β → σ} {as : List α} {bs : List β}
    (h : List.Forall₂ (fun a b => Agree view (fun s => step s a) fun t => step' t b) as bs) :
    Agree view (fun s => as.foldl step s) fun t => bs.foldl step' t := by
  induction h with
  | nil => exact fun _ _ h => h
  | cons hab _ ih => exact fun s t h => ih _ _ (hab s t h)

end ClientTelemetry
