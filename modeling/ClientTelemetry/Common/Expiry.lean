import Mathlib
/-!
# Deadlines purged when they are looked at

A table of deadlines may drop an entry once it has run out, and need not
do so at once. What such a table stores under a key (`stored`) tracks
what was last set there (`set`): it is the same, or it is gone and had
run out (`Tracks`). A test for a deadline still ahead then cannot tell
the two apart (`Tracks.live_iff`), at the time the table was last
touched or later.
-/

namespace ClientTelemetry

variable {τ : Type*} [LinearOrder τ]

/-- A deadline that is set and still ahead. -/
def Live (deadline : Option τ) (now : τ) : Prop := ∃ e, deadline = some e ∧ now < e

instance (deadline : Option τ) (now : τ) : Decidable (Live deadline now) :=
  match deadline with
  | none => .isFalse fun ⟨_, h, _⟩ => by cases h
  | some e => decidable_of_iff (now < e) ⟨fun h => ⟨e, rfl, h⟩, fun ⟨_, he, h⟩ => by cases he; exact h⟩

/-- **What is stored tracks what was set**, as of a time. -/
def Tracks (stored set : Option τ) (now : τ) : Prop :=
  stored = set ∨ (stored = none ∧ ∃ e, set = some e ∧ e ≤ now)

variable {stored set : Option τ} {now now' e : τ}

@[simp] theorem not_live_none : ¬ Live (none : Option τ) now := fun ⟨_, h, _⟩ => by cases h

@[simp] theorem live_some : Live (some e) now ↔ now < e :=
  ⟨fun ⟨_, he, h⟩ => by cases he; exact h, fun h => ⟨e, rfl, h⟩⟩

theorem Tracks.refl (set : Option τ) (now : τ) : Tracks set set now := Or.inl rfl

variable (h : Tracks stored set now)
include h

/-- Time only confirms that an entry had run out. -/
theorem Tracks.mono (hle : now ≤ now') : Tracks stored set now' :=
  h.imp_right fun ⟨hs, e, he, hle'⟩ => ⟨hs, e, he, le_trans hle' hle⟩

/-- **The test for a live deadline reads the same off both.** -/
theorem Tracks.live_iff (hle : now ≤ now') :
    Live stored now' ↔ Live set now' := by
  rcases h with rfl | ⟨rfl, e, rfl, he⟩
  · exact Iff.rfl
  · rw [live_some]
    exact iff_of_false not_live_none (not_lt.2 (le_trans he hle))

/-- Dropping an entry that is not live. -/
theorem Tracks.purge (hdead : ¬ Live stored now) :
    Tracks none set now := by
  rcases h with rfl | ⟨-, h⟩
  · rcases stored with _ | e
    · exact Or.inl rfl
    · exact Or.inr ⟨rfl, e, rfl, not_lt.1 fun hlt => hdead ⟨e, rfl, hlt⟩⟩
  · exact Or.inr ⟨rfl, h⟩

end ClientTelemetry
