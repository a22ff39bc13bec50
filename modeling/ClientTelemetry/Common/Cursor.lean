import Mathlib.Data.List.Basic
/-!
# Readers over a buffer

A cursor is a buffer with a position in it; a reader moves the cursor
forward and returns a value, or fails. `Reads r bytes a` says that `r`
finds `a` in `bytes` wherever these stand, and stops behind them. It is
closed under composition (`Reads.bind`, `Reads.mapM`), so that a reader
of a format is shown to read what the writer of the format has appended
one part at a time.
-/

namespace ClientTelemetry

open List

universe u

/-- **A buffer and a position in it.** -/
structure Cursor (β : Type u) where
  input : List β
  ofs : ℕ
  within : ofs ≤ input.length

/-- A reader, which may fail. -/
abbrev Reading (β α : Type u) := StateT (Cursor β) Option α

namespace Reading

variable {β α γ : Type u}

/-- The next symbol. -/
def next : Reading β β := fun c =>
  if h : c.ofs < c.input.length then some (c.input.get ⟨c.ofs, h⟩, ⟨c.input, c.ofs + 1, h⟩)
  else none

/-- The next `n` symbols. -/
def block (n : ℕ) : Reading β (List β) := fun c =>
  if h : n ≤ c.input.length - c.ofs then
    some ((c.input.drop c.ofs).take n, ⟨c.input, c.ofs + n, by have := c.within; omega⟩)
  else none

end Reading

namespace Cursor

variable {β : Type u}

/-- The cursor between two parts of a buffer. -/
def between (pre post : List β) : Cursor β := ⟨pre ++ post, pre.length, by simp⟩

theorem between_append (pre bytes post : List β) : between (pre ++ bytes) post =
      ⟨pre ++ (bytes ++ post), pre.length + bytes.length, by simp only [length_append]; omega⟩ := by
  simp [between, append_assoc]

end Cursor

open Cursor Reading

variable {β α γ : Type u} {r : Reading β α} {bytes bytes' : List β} {a : α}

/-- **The reader finds the value in the bytes**, and stops behind them. -/
def Reads (r : Reading β α) (bytes : List β) (a : α) : Prop :=
  ∀ pre post, r (between pre (bytes ++ post)) = some (a, between (pre ++ bytes) post)

theorem reads_pure (a : α) : Reads (pure a : Reading β α) [] a := by
  intro pre post
  rw [append_nil]
  rfl

theorem reads_next (b : β) : Reads next [b] b := by
  intro pre post
  rw [between_append]
  simp [Reading.next, between]

theorem reads_block (bytes : List β) : Reads (block bytes.length) bytes bytes := by
  intro pre post
  rw [between_append]
  simp [block, between]

/-- **Composition.** -/
theorem Reads.bind {k : α → Reading β γ} {c : γ} (h : Reads r bytes a)
    (hk : Reads (k a) bytes' c) : Reads (r >>= k) (bytes ++ bytes') c := by
  intro pre post
  rw [append_assoc, ← append_assoc pre]
  calc (r >>= k) (between pre (bytes ++ (bytes' ++ post)))
      = (r (between pre (bytes ++ (bytes' ++ post)))).bind fun p => k p.1 p.2 := rfl
    _ = k a (between (pre ++ bytes) (bytes' ++ post)) := by rw [h pre]; rfl
    _ = _ := hk (pre ++ bytes) post

/-- A value computed from what is read. -/
theorem Reads.map (f : α → γ) (h : Reads r bytes a) :
    Reads (do let x ← r; pure (f x)) bytes (f a) := by
  have hbind := h.bind (k := fun x => pure (f x)) (reads_pure (f a))
  rwa [append_nil] at hbind

theorem Reads.fmap (f : α → γ) (h : Reads r bytes a) : Reads (f <$> r) bytes (f a) := by
  rw [map_eq_pure_bind]
  exact h.map f

/-- **A sequence of readers.** -/
theorem Reads.mapM {κ : Type u} {f : κ → Reading β α} {write : α → List β} {kind : α → κ}
    {as : List α} (h : ∀ a ∈ as, Reads (f (kind a)) (write a) a) :
    Reads ((as.map kind).mapM f) (as.flatMap write) as := by
  induction as with
  | nil => exact reads_pure []
  | cons a as ih =>
    rw [map_cons, mapM_cons, flatMap_cons]
    refine (h a mem_cons_self).bind ?_
    exact (ih fun b hb => h b (mem_cons_of_mem a hb)).map (a :: ·)

/-- **A whole buffer.** -/
theorem Reads.whole (h : Reads r bytes a) :
    r ⟨bytes, 0, Nat.zero_le _⟩ = some (a, ⟨bytes, bytes.length, Nat.le_refl _⟩) := by
  have hall := h [] []
  simpa [between] using hall

end ClientTelemetry
