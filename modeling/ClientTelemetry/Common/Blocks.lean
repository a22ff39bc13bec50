import Mathlib.Data.List.Sort
/-!
# Lists in blocks and in order

What a store does with a list of rows. It hands a long list over in
blocks (`blocksOf`), which put together are the list, so that an update
made block after block is the update by the whole list
(`foldl_blocksOf`). It counts rows in parts (`countP_eq_add`). And it
reads the first rows of an order again and again, marking what it has
read: sorting is stable, so it commutes with leaving rows out
(`filter_insertionSort`), and each read goes on where the last one
stopped (`filter_not_mem_take`).
-/

namespace ClientTelemetry

open List

variable {α β : Type*}

/-! ## Blocks -/

/-- The blocks of a list, at most as many as the first number. -/
def blocksOf (size : ℕ) : ℕ → List α → List (List α)
  | 0, _ => []
  | _ + 1, [] => []
  | n + 1, xs => xs.take size :: blocksOf size n (xs.drop size)

variable {size n : ℕ} {xs block : List α} {l : List α}

/-- The blocks are the list, cut. -/
theorem flatten_blocksOf (hsize : 0 < size) (h : xs.length ≤ n) :
    (blocksOf size n xs).flatten = xs := by
  induction n generalizing xs with
  | zero => simpa [blocksOf] using (length_eq_zero_iff.1 (by omega)).symm
  | succ n ih =>
    rcases xs with _ | ⟨x, xs⟩
    · rfl
    · have hdrop : ((x :: xs).drop size).length ≤ n := by
        rw [length_drop]
        simp only [length_cons] at h ⊢
        omega
      rw [blocksOf, flatten_cons, ih hdrop, take_append_drop]
      exact cons_ne_nil _ _

theorem length_le_of_mem_blocksOf (h : block ∈ blocksOf size n xs) : block.length ≤ size := by
  induction n generalizing xs with
  | zero => simp [blocksOf] at h
  | succ n ih =>
    rcases xs with _ | ⟨x, xs⟩
    · simp [blocksOf] at h
    · rw [blocksOf] at h
      · rcases mem_cons.1 h with rfl | h
        · exact length_take_le _ _
        · exact ih h
      · exact cons_ne_nil _ _

/-- **The rule for blocks.** What a block and then another do, the two
together do at once; so the blocks of a list do what the list would. -/
theorem foldl_blocksOf {update : List α → β → β} (hnil : ∀ b, update [] b = b)
    (happend : ∀ as bs b, update bs (update as b) = update (as ++ bs) b) (hsize : 0 < size)
    (xs : List α) (b : β) :
    (blocksOf size xs.length xs).foldl (fun b block => update block b) b = update xs b := by
  have hflatten : ∀ (blocks : List (List α)) (b : β),
      blocks.foldl (fun b block => update block b) b = update blocks.flatten b := by
    intro blocks
    induction blocks with
    | nil => exact fun b => (hnil b).symm
    | cons block blocks ih =>
      intro b
      rw [foldl_cons, ih, happend, flatten_cons]
  rw [hflatten, flatten_blocksOf hsize le_rfl]

/-! ## Counts -/

/-- What meets one of two tests that exclude each other is counted by one
of them. -/
theorem countP_eq_add {p q r : α → Bool}
    (h : ∀ a ∈ l, (r a = true ↔ p a = true ∨ q a = true) ∧ ¬ (p a = true ∧ q a = true)) :
    l.countP r = l.countP p + l.countP q := by
  induction l with
  | nil => rfl
  | cons a l ih =>
    have hrest := ih fun b hb => h b (mem_cons_of_mem _ hb)
    obtain ⟨hor, hnot⟩ := h a mem_cons_self
    rw [countP_cons, countP_cons, countP_cons, hrest]
    by_cases hp : p a = true
    · have hq : ¬ q a = true := fun hq => hnot ⟨hp, hq⟩
      rw [if_pos (hor.2 (Or.inl hp)), if_pos hp, if_neg hq]
      omega
    · by_cases hq : q a = true
      · rw [if_pos (hor.2 (Or.inr hq)), if_neg hp, if_pos hq]
        omega
      · rw [if_neg fun hr => (hor.1 hr).elim hp hq, if_neg hp, if_neg hq]
        omega

/-! ## Order -/

section Order

variable {r : α → α → Prop} [DecidableRel r] {p : α → Bool} {a : α} {l : List α}

theorem orderedInsert_of_forall (h : ∀ x ∈ l, r a x) : l.orderedInsert r a = a :: l := by
  cases l with
  | nil => rfl
  | cons b l => exact orderedInsert_cons_of_le r l (h b mem_cons_self)

theorem filter_orderedInsert_of_pos [IsTrans α r] (hp : p a = true) (hl : l.Pairwise r) :
    (l.orderedInsert r a).filter p = (l.filter p).orderedInsert r a := by
  induction l with
  | nil => simp [hp]
  | cons b l ih =>
    obtain ⟨hb, hl'⟩ := pairwise_cons.1 hl
    by_cases hab : r a b
    · have hall : ∀ x ∈ (b :: l).filter p, r a x := by
        intro x hx
        rcases mem_cons.1 (mem_of_mem_filter hx) with rfl | hx
        · exact hab
        · exact IsTrans.trans a b x hab (hb x hx)
      rw [orderedInsert_cons_of_le r l hab, filter_cons_of_pos hp,
        orderedInsert_of_forall hall]
    · rw [orderedInsert_of_not_le r l hab]
      by_cases hpb : p b = true
      · rw [filter_cons_of_pos hpb, ih hl', filter_cons_of_pos hpb,
          orderedInsert_of_not_le r _ hab]
      · rw [filter_cons_of_neg hpb, ih hl', filter_cons_of_neg hpb]

theorem filter_orderedInsert_of_neg (hp : ¬ p a = true) :
    (l.orderedInsert r a).filter p = l.filter p := by
  induction l with
  | nil => simp [hp]
  | cons b l ih =>
    by_cases hab : r a b
    · rw [orderedInsert_cons_of_le r l hab, filter_cons_of_neg hp]
    · rw [orderedInsert_of_not_le r l hab, filter_cons, filter_cons, ih]

/-- **Leaving elements out commutes with sorting.** -/
theorem filter_insertionSort [IsTrans α r] [Std.Total r] (p : α → Bool) (l : List α) :
    (l.insertionSort r).filter p = (l.filter p).insertionSort r := by
  induction l with
  | nil => rfl
  | cons a l ih =>
    have hsorted := pairwise_insertionSort r l
    rw [insertionSort_cons]
    by_cases hp : p a = true
    · rw [filter_orderedInsert_of_pos hp hsorted, ih, filter_cons_of_pos hp,
        insertionSort_cons]
    · rw [filter_orderedInsert_of_neg hp, ih, filter_cons_of_neg hp]

end Order

/-- The elements whose key is not among those of the first few are the
rest. -/
theorem filter_not_mem_take [DecidableEq β] {f : α → β} (hnodup : (l.map f).Nodup)
    (n : ℕ) : l.filter (fun x => f x ∉ (l.take n).map f) = l.drop n := by
  have hsplit : (((l.take n) ++ (l.drop n)).map f).Nodup := by rwa [take_append_drop]
  rw [map_append, nodup_append] at hsplit
  obtain ⟨-, -, hdisj⟩ := hsplit
  conv_lhs => rw [← take_append_drop n l]
  rw [filter_append, filter_eq_nil_iff.2, nil_append, filter_eq_self.2]
  · intro x hx
    have hne : f x ∉ (l.take n).map f := fun hmem => hdisj _ hmem _ (mem_map_of_mem hx) rfl
    simpa [take_append_drop] using hne
  · intro x hx hnot
    have hmem : f x ∈ (l.take n).map f := mem_map_of_mem hx
    have : f x ∉ (l.take n).map f := by simpa [take_append_drop] using hnot
    exact this hmem

end ClientTelemetry
