import Mathlib
/-!
# Families of queues

A store that keeps several queues is a function from queue names to
lists, and what it holds is the queues of a list of names, one after the
other. A change to one queue changes what is held by what that queue
gained or lost (`flatMap_perm_of_eq_off`), and emptying a budget element by
element subtracts what the elements weigh (`drain_eq`).
-/

namespace ClientTelemetry

open List

variable {ι α : Type*}
variable {f g : ι → List α} {l : ι} {ls : List ι} {ys : List α}

/-- **A change to one queue adds what that queue gained.** -/
theorem flatMap_perm_of_eq_off (hls : ls.Nodup) (hl : l ∈ ls) (hoff : ∀ i, i ≠ l → g i = f i)
    (h : (g l).Perm (ys ++ f l)) : (ls.flatMap g).Perm (ys ++ ls.flatMap f) := by
  induction ls with
  | nil => cases hl
  | cons i ls ih =>
    rw [nodup_cons] at hls
    rw [flatMap_cons, flatMap_cons]
    rcases eq_or_ne i l with rfl | hne
    · have hrest : ls.flatMap g = ls.flatMap f :=
        flatMap_congr fun j hj => hoff j (ne_of_mem_of_not_mem hj hls.1)
      rw [hrest, ← append_assoc]
      exact h.append_right _
    · have hl' : l ∈ ls := (mem_cons.1 hl).resolve_left hne.symm
      rw [hoff i hne]
      refine ((ih hls.2 hl').append_left (f i)).trans ?_
      rw [← append_assoc, ← append_assoc]
      exact perm_append_comm.append_right _

/-- What is left of a budget when the elements of a list are taken out of
it one by one, never below zero. -/
def drain (weight : α → ℕ) (n : ℕ) (as : List α) : ℕ :=
  as.foldl (fun n a => n - min n (weight a)) n

variable {weight : α → ℕ} {n : ℕ} {a : α} {as bs cs : List α}

@[simp] theorem drain_nil : drain weight n [] = n := rfl

@[simp] theorem drain_cons :
    drain weight n (a :: as) = drain weight (n - min n (weight a)) as := rfl

theorem drain_append : drain weight n (as ++ bs) = drain weight (drain weight n as) bs :=
  foldl_append

/-- **A budget that covers the elements is charged their weight**, and no
subtraction is cut short. -/
theorem drain_eq (weight : α → ℕ) (n : ℕ) (as : List α) :
    drain weight ((as.map weight).sum + n) as = n := by
  induction as generalizing n with
  | nil => simp
  | cons a as ih =>
    rw [drain_cons, map_cons, sum_cons]
    have hle : min (weight a + (as.map weight).sum + n) (weight a) = weight a := by omega
    rw [hle, show weight a + (as.map weight).sum + n - weight a = (as.map weight).sum + n by omega]
    exact ih n

/-- Each subtraction from a budget that covers the elements is whole. -/
theorem le_drain_of_covered (h : (as.map weight).sum ≤ n) (hsplit : as = bs ++ a :: cs) :
    weight a ≤ drain weight n bs := by
  subst hsplit
  simp only [map_append, map_cons, sum_append, sum_cons] at h
  obtain ⟨d, hd⟩ : ∃ d, n = (bs.map weight).sum + (weight a + d) :=
    ⟨n - (bs.map weight).sum - weight a, by omega⟩
  rw [hd, drain_eq]
  omega

end ClientTelemetry
