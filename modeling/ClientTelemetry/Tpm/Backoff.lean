import ClientTelemetry.Common.Run
import Mathlib.Analysis.SpecialFunctions.Pow.Real
/-!
# The backoff between uploads

What an increase makes of base and range together is the rounded end of
the range of its step, cut at the maximum (`total_increase`). That end
grows with the step and without bound. So the total never decreases and
comes to the maximum, and what is drawn stays in range.
-/

namespace ClientTelemetry

/-- What the constructor of `Backoff_ExponentialWithJitter` is given. -/
structure Backoff where
  initialValue : ℤ
  maximumValue : ℤ
  multiplier : ℝ
  jitter : ℝ

/-- The members that change. Base and range are rounded. -/
structure BackoffState where
  currentBase : ℤ := 0
  currentRange : ℤ := 0
  step : ℕ := 0

/-- Base and range together. -/
def BackoffState.total (s : BackoffState) : ℤ := s.currentBase + s.currentRange

/-- The calls that change the members. -/
inductive BackoffCall
  | increase
  | reset

namespace Backoff

variable (b : Backoff) (s : BackoffState) {k n : ℕ} {random : ℝ}

def Good : Prop :=
  0 ≤ b.initialValue ∧ b.initialValue ≤ b.maximumValue ∧ 1 < b.multiplier ∧ 0 ≤ b.jitter

/-- `increase_private`, with exact arithmetic. -/
noncomputable def increase : BackoffState :=
  if b.maximumValue ≤ s.currentBase + s.currentRange then s
  else
    let base := ⌊b.initialValue * b.multiplier ^ (s.step : ℝ)⌋
    let range :=
      if 0 < b.jitter then ⌊b.initialValue * b.multiplier ^ (s.step + b.jitter) - base⌋ else 0
    if b.maximumValue < base + range then
      let clipped := max b.initialValue (b.maximumValue - range)
      ⟨clipped, min range (b.maximumValue - clipped), s.step + 1⟩
    else ⟨base, range, s.step + 1⟩

/-- The constructor. -/
noncomputable def new : BackoffState := b.increase {}

/-- `reset_private`. -/
noncomputable def reset : BackoffState :=
  b.increase { currentBase := 0, currentRange := 0, step := 0 }

noncomputable def after : BackoffCall → BackoffState
  | .increase => b.increase s
  | .reset => b.reset

/-- The value for a random number. -/
noncomputable def getValue (random : ℝ) : ℤ :=
  ⌊s.currentBase + if 0 < s.currentRange then random * s.currentRange else 0⌋

/-- The end of the range of a step, before it is cut. -/
noncomputable def top (k : ℕ) : ℤ := ⌊b.initialValue * b.multiplier ^ (k + b.jitter)⌋

/-- **What holds between the calls.** -/
structure InRange : Prop where
  base : b.initialValue ≤ s.currentBase
  range : 0 ≤ s.currentRange
  step : 0 < s.step
  total : s.total = min (b.top (s.step - 1)) b.maximumValue

variable {b s}

theorem floor_le_top (hgood : b.Good) {x : ℝ} (hx : x ≤ k + b.jitter) :
    ⌊b.initialValue * b.multiplier ^ x⌋ ≤ b.top k := by
  have hpow := Real.rpow_le_rpow_of_exponent_le hgood.2.2.1.le hx
  exact Int.floor_le_floor (mul_le_mul_of_nonneg_left hpow (Int.cast_nonneg hgood.1))

/-- **What an increase does below the maximum.** -/
theorem total_increase (hgood : b.Good) (hbelow : s.total < b.maximumValue) :
    b.InRange (b.increase s) ∧ (b.increase s).step = s.step + 1 := by
  have hmax := hgood.2.1
  have hpow : 1 ≤ b.multiplier ^ (s.step : ℝ) :=
    Real.one_le_rpow hgood.2.2.1.le (Nat.cast_nonneg _)
  have hbase : b.initialValue ≤ ⌊b.initialValue * b.multiplier ^ (s.step : ℝ)⌋ :=
    Int.le_floor.2 (le_mul_of_one_le_right (Int.cast_nonneg hgood.1) hpow)
  have htop := floor_le_top hgood (le_add_of_nonneg_right (a := (s.step : ℝ)) hgood.2.2.2)
  -- the range is what is left up to the end, with jitter or without
  have hrange : (if 0 < b.jitter then ⌊b.initialValue * b.multiplier ^ (s.step + b.jitter) -
      ⌊b.initialValue * b.multiplier ^ (s.step : ℝ)⌋⌋ else 0) =
        b.top s.step - ⌊b.initialValue * b.multiplier ^ (s.step : ℝ)⌋ := by
    split_ifs with hjitter
    · exact Int.floor_sub_intCast _ _
    · rw [top, le_antisymm (not_lt.1 hjitter) hgood.2.2.2, add_zero, sub_self]
  rw [increase, if_neg (not_le.2 (show s.currentBase + s.currentRange < _ from hbelow))]
  simp only [hrange]
  generalize ⌊b.initialValue * b.multiplier ^ (s.step : ℝ)⌋ = base at *
  split_ifs <;> refine ⟨⟨?_, ?_, Nat.succ_pos _, ?_⟩, rfl⟩ <;>
    simp only [BackoffState.total, Nat.add_sub_cancel] <;> omega

namespace InRange

section

variable (hgood : b.Good)
include hgood

theorem new (hone : 1 ≤ b.initialValue) : b.InRange b.new := by
  have hmax := hgood.2.1
  exact (total_increase (s := {}) hgood (show (0 : ℤ) + 0 < b.maximumValue by omega)).1

/-- At the maximum an increase changes nothing, and below it makes a
step. -/
theorem increase (h : b.InRange s) : b.InRange (b.increase s) ∧
    (s.total = b.maximumValue ∧ b.increase s = s ∨ (b.increase s).step = s.step + 1) := by
  by_cases hbelow : s.total < b.maximumValue
  · obtain ⟨hrange, hstep⟩ := total_increase hgood hbelow
    exact ⟨hrange, .inr hstep⟩
  · have hsame : b.increase s = s := if_pos (not_lt.1 hbelow)
    have htotal := h.total
    exact ⟨hsame.symm ▸ h, .inl ⟨by omega, hsame⟩⟩

theorem total_le (h : b.InRange s) : s.total ≤ (b.increase s).total := by
  obtain ⟨hnext, ⟨-, hsame⟩ | hstep⟩ := h.increase hgood
  · rw [hsame]
  · have hgrows : b.top (s.step - 1) ≤ b.top s.step := by
      refine floor_le_top hgood (add_le_add_left ?_ b.jitter)
      exact_mod_cast Nat.sub_le _ _
    rw [h.total, hnext.total, hstep]
    exact min_le_min_right _ hgrows

theorem iterate (h : b.InRange s) (n : ℕ) : b.InRange (b.increase^[n] s) ∧
      ((b.increase^[n] s).total = b.maximumValue ∨ n < (b.increase^[n] s).step) := by
  induction n with
  | zero => exact ⟨h, .inr h.step⟩
  | succ n ih =>
    rw [Function.iterate_succ_apply']
    obtain ⟨hnext, ⟨hmax, hsame⟩ | hstep⟩ := ih.1.increase hgood
    · exact ⟨hnext, .inl (hsame.symm ▸ hmax)⟩
    · refine ⟨hnext, ih.2.imp (fun hmax => ?_) fun hlt => by omega⟩
      have hle := ih.1.total_le hgood
      have htotal := hnext.total
      omega

theorem reaches (hone : 1 ≤ b.initialValue) (h : b.InRange s) :
    ∃ n, (b.increase^[n] s).total = b.maximumValue := by
  obtain ⟨n, hn⟩ := pow_unbounded_of_one_lt (b.maximumValue : ℝ) hgood.2.2.1
  obtain ⟨hrange, hmax | hlt⟩ := h.iterate hgood n
  · exact ⟨n, hmax⟩
  · have hle : b.maximumValue ≤ ⌊b.initialValue * b.multiplier ^ (n : ℝ)⌋ := by
      have hinit : (1 : ℝ) ≤ b.initialValue := by exact_mod_cast hone
      rw [Real.rpow_natCast]
      refine Int.le_floor.2 (hn.le.trans (le_mul_of_one_le_left ?_ hinit))
      exact pow_nonneg (zero_le_one.trans hgood.2.2.1.le) n
    have htop : ⌊b.initialValue * b.multiplier ^ (n : ℝ)⌋ ≤ b.top ((b.increase^[n] s).step - 1) := by
      refine floor_le_top hgood (le_add_of_le_of_nonneg ?_ hgood.2.2.2)
      exact_mod_cast Nat.le_sub_one_of_lt hlt
    exact ⟨n, hrange.total.trans (min_eq_right (hle.trans htop))⟩

end

/-- What is drawn lies between the base and the total. -/
theorem getValue_bounds (h : b.InRange s) (h0 : 0 ≤ random) (h1 : random ≤ 1) :
    s.currentBase ≤ getValue s random ∧ getValue s random ≤ s.total := by
  have hrange : (0 : ℝ) ≤ s.currentRange := Int.cast_nonneg h.range
  have hmul := mul_nonneg h0 hrange
  have hle := mul_le_of_le_one_left hrange h1
  unfold getValue
  rw [Int.le_floor, Int.floor_le_iff, BackoffState.total]
  push_cast
  split_ifs <;> constructor <;> linarith

end InRange

/-- **The backoff stays in range and grows**, for every object that is good
and starts at 1 at least, after every sequence of calls. -/
theorem backoff_in_range (b : Backoff) (hgood : b.Good) (hone : 1 ≤ b.initialValue)
    (calls : List BackoffCall) :
    let s := run b.after b.new calls
    b.initialValue ≤ s.currentBase ∧ s.currentBase + s.currentRange ≤ b.maximumValue ∧
      (∀ random : ℝ, 0 ≤ random → random ≤ 1 →
        b.initialValue ≤ getValue s random ∧ getValue s random ≤ b.maximumValue) ∧
      s.total ≤ (b.increase s).total ∧ (∃ n, (b.increase^[n] s).total = b.maximumValue) ∧
      b.after s .reset = b.new := by
  intro s
  have hstep (s : BackoffState) (call : BackoffCall) (h : b.InRange s) :
      b.InRange (b.after s call) := by
    cases call with
    | increase => exact (h.increase hgood).1
    | reset => exact .new hgood hone
  have hrange : b.InRange s := run_preserves hstep (.new hgood hone) calls
  have hmax : s.total ≤ b.maximumValue := hrange.total.trans_le (min_le_right _ _)
  refine ⟨hrange.base, hmax, fun random h0 h1 => ?_, hrange.total_le hgood,
    hrange.reaches hgood hone, rfl⟩
  obtain ⟨hlow, hhigh⟩ := hrange.getValue_bounds h0 h1
  exact ⟨hrange.base.trans hlow, hhigh.trans hmax⟩

theorem backoff_in_range_doubling :
    100 ≤ (run (after ⟨100, 1000, 2, 1⟩) (new ⟨100, 1000, 2, 1⟩) [.increase]).currentBase :=
  (backoff_in_range ⟨100, 1000, 2, 1⟩ ⟨by decide, by decide, one_lt_two, zero_le_one⟩ (by decide)
    [.increase]).1

end Backoff

end ClientTelemetry
