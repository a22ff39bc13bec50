import Mathlib.Data.List.Perm.Basic
import Mathlib.Data.List.Nodup
import Mathlib.Data.List.Flatten
import Mathlib.Data.List.Induction
/-!
# Groups in order of first appearance

A list sorted into groups by a key: the keys in the order in which they
first occur (`firstKeys`), and with each the elements that have it, in
their own order (`groups`). One more element goes to the end of its group
(`groups_concat_of_getElem?`), or opens a group behind all others
(`groups_concat_of_notMem`).
-/

namespace ClientTelemetry

open List

variable {α β κ : Type*} [DecidableEq κ] {key : α → κ} {f : α → β} {as : List α} {a : α} {k : κ}

/-- The keys of a list, in the order in which they first occur. -/
def firstKeys (key : α → κ) (as : List α) : List κ := (as.map key).eraseDups

theorem mem_firstKeys : k ∈ firstKeys key as ↔ ∃ a ∈ as, key a = k := by
  rw [firstKeys, mem_eraseDups, mem_map]

theorem firstKeys_concat : firstKeys key (as ++ [a]) =
    if key a ∈ firstKeys key as then firstKeys key as else firstKeys key as ++ [key a] := by
  have hmem : key a ∈ firstKeys key as ↔ key a ∈ as.map key := mem_eraseDups
  rw [firstKeys, map_append, eraseDups_append]
  by_cases h : key a ∈ as.map key
  · rw [if_pos (hmem.2 h), map_singleton, List.removeAll, filter_cons_of_neg (by simpa using h)]
    simp [firstKeys]
  · rw [if_neg (mt hmem.1 h), map_singleton, List.removeAll, filter_cons_of_pos (by simpa using h)]
    simp [firstKeys, eraseDups_cons]

theorem nodup_firstKeys (key : α → κ) (as : List α) : (firstKeys key as).Nodup := by
  induction as using List.reverseRecOn with
  | nil => exact nodup_nil
  | append_singleton as a ih =>
    rw [firstKeys_concat]
    split_ifs with h
    · exact ih
    · exact ih.append (nodup_singleton _) (disjoint_singleton.2 h)

/-- **The groups**, each with its key. -/
def groups (key : α → κ) (f : α → β) (as : List α) : List (κ × List β) :=
  (firstKeys key as).map fun k => (k, (as.filter (key · = k)).map f)

/-- The group of a key takes one more element. -/
theorem filter_concat_key (as : List α) (a : α) (k : κ) :
    (as ++ [a]).filter (key · = k) = as.filter (key · = k) ++ if key a = k then [a] else [] := by
  rw [filter_append]
  by_cases h : key a = k <;> simp [h]

/-- **An element with a known key** goes to the end of its group. -/
theorem groups_concat_of_getElem? {i : ℕ} (h : (firstKeys key as)[i]? = some (key a)) :
    groups key f (as ++ [a]) =
      (groups key f as).modify i fun group => (group.1, group.2 ++ [f a]) := by
  have hmem : key a ∈ firstKeys key as := mem_of_getElem? h
  unfold groups
  rw [firstKeys_concat, if_pos hmem]
  refine ext_getElem? fun j => ?_
  rw [getElem?_modify, getElem?_map, getElem?_map]
  cases hj : (firstKeys key as)[j]? with
  | none => simp
  | some k =>
    -- the keys are distinct, so the one at the place is at no other
    have hplace : i = j ↔ key a = k := by
      constructor
      · rintro rfl
        exact Option.some.inj (h.symm.trans hj)
      · rintro rfl
        exact (getElem?_inj (List.getElem?_eq_some_iff.1 h).1 (nodup_firstKeys key as)).1
          (h.trans hj.symm)
    by_cases hk : key a = k
    · simp [hplace.2 hk, hk]
    · simp [mt hplace.1 hk, hk]

/-- **An element with a new key** opens a group. -/
theorem groups_concat_of_notMem (h : key a ∉ firstKeys key as) :
    groups key f (as ++ [a]) = groups key f as ++ [(key a, [f a])] := by
  have hnone : ∀ b ∈ as, key b ≠ key a := fun b hb heq => h (mem_firstKeys.2 ⟨b, hb, heq⟩)
  unfold groups
  rw [firstKeys_concat, if_neg h, map_append, map_singleton]
  congr 1
  · refine map_congr_left fun k hk => ?_
    have hne : key a ≠ k := fun heq => h (heq ▸ hk)
    rw [filter_concat_key, if_neg hne, append_nil]
  · have hnil : as.filter (key · = key a) = [] :=
      filter_eq_nil_iff.2 fun b hb => by simpa using hnone b hb
    rw [filter_concat_key, hnil, if_pos rfl, nil_append, map_singleton]

theorem flatMap_filter_perm {ks : List κ} (hks : ks.Nodup) (h : ∀ a ∈ as, key a ∈ ks) :
    (ks.flatMap fun k => as.filter (key · = k)).Perm as := by
  induction ks generalizing as with
  | nil =>
    cases as with
    | nil => exact List.Perm.refl _
    | cons a as => exact absurd (h a mem_cons_self) not_mem_nil
  | cons k ks ih =>
    have hothers : ∀ a ∈ as.filter (key · ≠ k), key a ∈ ks := fun a ha => by
      obtain ⟨hmem, hne⟩ := List.mem_filter.1 ha
      exact (mem_cons.1 (h a hmem)).resolve_left (by simpa using hne)
    have hrest := ih (nodup_cons.1 hks).2 hothers
    have hsame : (ks.flatMap fun k' => (as.filter (key · ≠ k)).filter (key · = k')) =
        ks.flatMap fun k' => as.filter (key · = k') := by
      refine flatMap_congr fun k' hk' => ?_
      have hne : k' ≠ k := fun heq => (nodup_cons.1 hks).1 (heq ▸ hk')
      rw [filter_filter]
      refine filter_congr fun b _ => ?_
      by_cases hb : key b = k' <;> simp [hb, hne]
    rw [hsame] at hrest
    rw [flatMap_cons]
    refine (hrest.append_left _).trans ?_
    simpa using filter_append_perm (key · = k) as

/-- **The groups hold each element once.** -/
theorem flatMap_groups_perm (key : α → κ) (f : α → β) (as : List α) :
    ((groups key f as).flatMap Prod.snd).Perm (as.map f) := by
  have hflat : (groups key f as).flatMap Prod.snd =
      ((firstKeys key as).flatMap fun k => as.filter (key · = k)).map f := by
    rw [groups, flatMap_map, map_flatMap]
  rw [hflat]
  exact (flatMap_filter_perm (nodup_firstKeys key as)
    fun a ha => mem_firstKeys.2 ⟨a, ha, rfl⟩).map f

end ClientTelemetry
