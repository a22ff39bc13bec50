import Mathlib.Data.List.Basic
/-!
# Offering a list to a consumer

A consumer is asked about the elements of a list one by one, carries its
own state between the questions, and ends the walk at the first element
it turns down. `offer` is that walk. The elements it took are an initial
segment of the list (`offer_initial`), and a walk over a concatenation
goes on into the second list exactly when the first was taken whole
(`offer_append_of_whole`). What a consumer took, and what it was asked
about, can be read from consumers that keep a log (`offer_logged`,
`offer_asked`).
-/

namespace ClientTelemetry

open List

variable {κ α β : Type*}

/-- **The walk**: the elements the consumer took, and its state when the
walk ended. -/
def offer (c : κ → α → Bool × κ) : κ → List α → List α × κ
  | k, [] => ([], k)
  | k, a :: as =>
    match c k a with
    | (true, k') => (a :: (offer c k' as).1, (offer c k' as).2)
    | (false, k') => ([], k')

/-- A consumer, with the state it starts from. -/
structure Consumer (α : Type) where
  State : Type
  start : State
  accept : State → α → Bool × State

variable {c : κ → α → Bool × κ} {k : κ} {a : α} {as bs : List α}

@[simp] theorem offer_nil : offer c k [] = ([], k) := rfl

theorem offer_cons_true (h : (c k a).1 = true) :
    offer c k (a :: as) = (a :: (offer c (c k a).2 as).1, (offer c (c k a).2 as).2) := by
  rcases hc : c k a with ⟨_ | _, k'⟩
  · rw [hc] at h; cases h
  · rw [offer, hc]

theorem offer_cons_false (h : (c k a).1 = false) : offer c k (a :: as) = ([], (c k a).2) := by
  rcases hc : c k a with ⟨_ | _, k'⟩
  · rw [offer, hc]
  · rw [hc] at h; cases h

/-- **What was taken is an initial segment of what was offered.** -/
theorem offer_initial (c : κ → α → Bool × κ) (k : κ) (as : List α) : (offer c k as).1 <+: as := by
  induction as generalizing k with
  | nil => exact prefix_refl _
  | cons a as ih =>
    rcases hc : (c k a).1 with _ | _
    · rw [offer_cons_false hc]; exact nil_prefix
    · rw [offer_cons_true hc]; exact (prefix_cons_inj a).2 (ih _)

theorem offer_take (c : κ → α → Bool × κ) (k : κ) (as : List α) :
    (offer c k as).1 = as.take (offer c k as).1.length :=
  prefix_iff_eq_take.1 (offer_initial c k as)

theorem offer_subset (h : a ∈ (offer c k as).1) : a ∈ as :=
  (offer_initial c k as).subset h

/-- A first list taken whole leaves the walk to the second, from the
state reached. -/
theorem offer_append_of_whole (h : (offer c k as).1 = as) : offer c k (as ++ bs) =
      (as ++ (offer c (offer c k as).2 bs).1, (offer c (offer c k as).2 bs).2) := by
  induction as generalizing k with
  | nil => simp
  | cons a as ih =>
    rcases hc : (c k a).1 with _ | _
    · rw [offer_cons_false hc] at h; cases h
    · rw [offer_cons_true hc] at h ⊢
      have hrest : (offer c (c k a).2 as).1 = as := (List.cons.inj h).2
      rw [cons_append, offer_cons_true hc, ih hrest]
      rfl

/-- A first list not taken whole ends the walk. -/
theorem offer_append_of_not_whole (h : (offer c k as).1 ≠ as) :
    offer c k (as ++ bs) = offer c k as := by
  induction as generalizing k with
  | nil => exact absurd rfl h
  | cons a as ih =>
    rcases hc : (c k a).1 with _ | _
    · rw [cons_append, offer_cons_false hc, offer_cons_false hc]
    · rw [offer_cons_true hc] at h
      have hrest : (offer c (c k a).2 as).1 ≠ as := fun he => h (by rw [he])
      rw [cons_append, offer_cons_true hc, offer_cons_true hc, ih hrest]

/-- What the consumer preserves holds of its state after a walk. -/
theorem offer_state {P : κ → Prop} (hc : ∀ k a, P k → P (c k a).2) (hk : P k) (as : List α) :
    P (offer c k as).2 := by
  induction as generalizing k with
  | nil => exact hk
  | cons a as ih =>
    rcases hans : (c k a).1 with _ | _
    · rw [offer_cons_false hans]
      exact hc k a hk
    · rw [offer_cons_true hans]
      exact ih (hc k a hk)

/-- A consumer that also keeps the list of what it accepted. -/
def logged (c : κ → α → Bool × κ) (k : κ × List α) (a : α) : Bool × κ × List α :=
  ((c k.1 a).1, (c k.1 a).2, if (c k.1 a).1 then k.2 ++ [a] else k.2)

/-- **The log is what the walk took**, and keeping it changes nothing. -/
theorem offer_logged (c : κ → α → Bool × κ) (k : κ) (log : List α) (as : List α) :
    offer (logged c) (k, log) as = ((offer c k as).1, (offer c k as).2, log ++ (offer c k as).1) := by
  induction as generalizing k log with
  | nil => simp
  | cons a as ih =>
    rcases hc : (c k a).1 with _ | _
    · rw [offer_cons_false (c := logged c) (k := (k, log)) (a := a) hc, offer_cons_false hc]
      simp [logged, hc]
    · rw [offer_cons_true (c := logged c) (k := (k, log)) (a := a) hc, offer_cons_true hc]
      simp [logged, hc, ih]

/-- **What the consumer is asked about**: what it takes, and the element
it turns down. -/
def asks (c : κ → α → Bool × κ) (k : κ) (as : List α) : List α :=
  as.take ((offer c k as).1.length + 1)

theorem asks_initial (c : κ → α → Bool × κ) (k : κ) (as : List α) : asks c k as <+: as :=
  take_prefix _ _

/-- A consumer that also keeps the list of what it was asked about. -/
def asked (c : κ → α → Bool × κ) (k : κ × List α) (a : α) : Bool × κ × List α :=
  ((c k.1 a).1, (c k.1 a).2, k.2 ++ [a])

/-- **The log is what the walk asked about**, and keeping it changes
nothing. The walk may show its elements in another form. -/
theorem offer_asked (c : κ → α → Bool × κ) (f : β → α) (k : κ) (log : List α) (bs : List β) :
    offer (fun k b => asked c k (f b)) (k, log) bs =
      ((offer (fun k b => c k (f b)) k bs).1, (offer (fun k b => c k (f b)) k bs).2,
        log ++ (asks (fun k b => c k (f b)) k bs).map f) := by
  induction bs generalizing k log with
  | nil => simp [asks]
  | cons b bs ih =>
    rcases hc : (c k (f b)).1 with _ | _
    · rw [offer_cons_false (c := fun k b => asked c k (f b)) (k := (k, log)) (a := b) hc, asks,
        offer_cons_false (c := fun k b => c k (f b)) hc]
      simp [asked]
    · rw [offer_cons_true (c := fun k b => asked c k (f b)) (k := (k, log)) (a := b) hc, asks,
        offer_cons_true (c := fun k b => c k (f b)) hc]
      have hrest := ih (c k (f b)).2 (log ++ [f b])
      simp only [asked] at hrest ⊢
      rw [hrest]
      simp [asks]

end ClientTelemetry
