import Mathlib.Algebra.GroupWithZero.Nat
import Mathlib.Data.String.Basic
import Mathlib.Data.List.Nodup
/-!
# Ordered maps

A map kept as the list of its entries in increasing key order, the order
an ordered dictionary is walked in. The order is a field of the
structure, so a key occurs at most once in every value of the type and
no operation has to be told so. What the file offers is membership after
each operation (`mem_insert`, `mem_filter`) and, for insertions under
new keys, that nothing else moves (`insert_perm`, `insertAll_perm`). A
map is what is found in it (`ext_find?`), so that a count of keys
(`tally`) does not depend on the order they are counted in.
-/

namespace ClientTelemetry

open List

/-- **A map in key order.** -/
structure OrdMap (κ ν : Type*) [LinearOrder κ] where
  /-- The entries, walked in this order. -/
  entries : List (κ × ν)
  /-- The keys increase strictly along the entries. -/
  sorted : (entries.map Prod.fst).Pairwise (· < ·)

namespace OrdMap

variable {κ ν : Type*} [LinearOrder κ]

@[ext] theorem ext {m m' : OrdMap κ ν} (h : m.entries = m'.entries) : m = m' := by
  cases m; cases m'; cases h; rfl

instance [DecidableEq ν] : DecidableEq (OrdMap κ ν) := fun m m' =>
  decidable_of_iff (m.entries = m'.entries) ⟨ext, fun h => h ▸ rfl⟩

/-- The map with no entry. -/
def empty : OrdMap κ ν := ⟨[], List.Pairwise.nil⟩

/-- The map with one entry. -/
def singleton (k : κ) (v : ν) : OrdMap κ ν := ⟨[(k, v)], pairwise_singleton _ _⟩

/-- The keys, in order. -/
def keys (m : OrdMap κ ν) : List κ := m.entries.map Prod.fst

/-- The values, in key order. -/
def values (m : OrdMap κ ν) : List ν := m.entries.map Prod.snd

/-- The value stored under a key. -/
def find? (m : OrdMap κ ν) (k : κ) : Option ν :=
  (m.entries.find? fun e => e.1 = k).map Prod.snd

/-- Assignment under a key, on the entries: an existing entry of the key
is overwritten where it stands. -/
def insertEntry (k : κ) (v : ν) : List (κ × ν) → List (κ × ν)
  | [] => [(k, v)]
  | e :: es =>
    if k < e.1 then (k, v) :: e :: es
    else if k = e.1 then (k, v) :: es
    else e :: insertEntry k v es

variable {k k' : κ} {v v' : ν} {es : List (κ × ν)}

theorem mem_insertEntry_imp {e : κ × ν} (h : e ∈ insertEntry k v es) :
    e = (k, v) ∨ e ∈ es := by
  induction es with
  | nil => simpa [insertEntry] using h
  | cons a es ih =>
    rw [insertEntry] at h
    split_ifs at h with h₁ h₂
    · rcases mem_cons.1 h with rfl | h
      · exact Or.inl rfl
      · exact Or.inr h
    · rcases mem_cons.1 h with rfl | h
      · exact Or.inl rfl
      · exact Or.inr (mem_cons_of_mem _ h)
    · rcases mem_cons.1 h with rfl | h
      · exact Or.inr mem_cons_self
      · exact (ih h).imp_right (mem_cons_of_mem _)

theorem insertEntry_sorted (hs : (es.map Prod.fst).Pairwise (· < ·)) :
    ((insertEntry k v es).map Prod.fst).Pairwise (· < ·) := by
  induction es with
  | nil => exact pairwise_singleton _ _
  | cons a es ih =>
    rw [map_cons, pairwise_cons] at hs
    rw [insertEntry]
    split_ifs with h₁ h₂
    · simp only [map_cons, pairwise_cons, mem_cons, forall_eq_or_imp]
      exact ⟨⟨h₁, fun x hx => lt_trans h₁ (hs.1 x hx)⟩, hs⟩
    · simp only [map_cons, pairwise_cons]
      exact ⟨fun x hx => h₂ ▸ hs.1 x hx, hs.2⟩
    · simp only [map_cons, pairwise_cons]
      refine ⟨fun x hx => ?_, ih hs.2⟩
      obtain ⟨e, he, rfl⟩ := mem_map.1 hx
      rcases mem_insertEntry_imp he with rfl | he
      · exact lt_of_le_of_ne (not_lt.1 h₁) (Ne.symm h₂)
      · exact hs.1 _ (mem_map_of_mem he)

/-- Assignment under a key. -/
def insert (m : OrdMap κ ν) (k : κ) (v : ν) : OrdMap κ ν :=
  ⟨insertEntry k v m.entries, insertEntry_sorted m.sorted⟩

/-- The entries a test keeps. -/
def filter (m : OrdMap κ ν) (p : κ × ν → Bool) : OrdMap κ ν :=
  ⟨m.entries.filter p, m.sorted.sublist (filter_sublist.map _)⟩

/-- Removal of a key. -/
def erase (m : OrdMap κ ν) (k : κ) : OrdMap κ ν := m.filter fun e => e.1 ≠ k

/-! ## Membership -/

variable {m : OrdMap κ ν}

theorem keys_nodup (m : OrdMap κ ν) : m.keys.Nodup := m.sorted.imp fun h => ne_of_lt h

/-- A key names one entry. -/
theorem entry_unique {e e' : κ × ν} (he : e ∈ m.entries) (he' : e' ∈ m.entries)
    (h : e.1 = e'.1) : e = e' :=
  inj_on_of_nodup_map m.keys_nodup he he' h

theorem mem_insertEntry (hs : (es.map Prod.fst).Pairwise (· < ·)) {e : κ × ν} :
    e ∈ insertEntry k v es ↔ e = (k, v) ∨ (e ∈ es ∧ e.1 ≠ k) := by
  induction es with
  | nil => simp [insertEntry]
  | cons a es ih =>
    rw [map_cons, pairwise_cons] at hs
    -- the keys behind the head are above it
    have habove : ∀ e ∈ es, a.1 < e.1 := fun e he => hs.1 _ (mem_map_of_mem he)
    rw [insertEntry]
    split_ifs with h₁ h₂
    · have hne : ∀ e ∈ a :: es, e.1 ≠ k := by
        intro e he
        rcases mem_cons.1 he with rfl | he
        · exact ne_of_gt h₁
        · exact ne_of_gt (lt_trans h₁ (habove e he))
      rw [mem_cons]
      exact or_congr_right ⟨fun h => ⟨h, hne e h⟩, fun h => h.1⟩
    · rw [mem_cons, mem_cons]
      refine or_congr_right ⟨fun h => ⟨Or.inr h, ?_⟩, ?_⟩
      · exact ne_of_gt (h₂ ▸ habove e h)
      · rintro ⟨rfl | h, hk⟩
        · exact absurd h₂.symm hk
        · exact h
    · rw [mem_cons, ih hs.2, mem_cons]
      constructor
      · rintro (rfl | rfl | ⟨h, hk⟩)
        · exact Or.inr ⟨Or.inl rfl, fun h => h₂ h.symm⟩
        · exact Or.inl rfl
        · exact Or.inr ⟨Or.inr h, hk⟩
      · rintro (rfl | ⟨rfl | h, hk⟩)
        · exact Or.inr (Or.inl rfl)
        · exact Or.inl rfl
        · exact Or.inr (Or.inr ⟨h, hk⟩)

theorem mem_insert {e : κ × ν} :
    e ∈ (m.insert k v).entries ↔ e = (k, v) ∨ (e ∈ m.entries ∧ e.1 ≠ k) :=
  mem_insertEntry m.sorted

@[simp] theorem mem_filter {p : κ × ν → Bool} {e : κ × ν} :
    e ∈ (m.filter p).entries ↔ e ∈ m.entries ∧ p e = true := List.mem_filter

theorem mem_keys : k ∈ m.keys ↔ ∃ v, (k, v) ∈ m.entries := by
  simp [keys]

theorem mem_keys_insert : k' ∈ (m.insert k v).keys ↔ k' = k ∨ k' ∈ m.keys := by
  simp only [mem_keys, mem_insert, Prod.mk.injEq]
  constructor
  · rintro ⟨w, ⟨rfl, -⟩ | ⟨h, -⟩⟩
    · exact Or.inl rfl
    · exact Or.inr ⟨w, h⟩
  · rintro (rfl | ⟨w, h⟩)
    · exact ⟨v, Or.inl ⟨rfl, rfl⟩⟩
    · by_cases hk : k' = k
      · exact ⟨v, Or.inl ⟨hk, rfl⟩⟩
      · exact ⟨w, Or.inr ⟨h, hk⟩⟩

theorem insertEntry_perm (h : k ∉ es.map Prod.fst) : (insertEntry k v es).Perm ((k, v) :: es) := by
  induction es with
  | nil => exact List.Perm.refl _
  | cons a es ih =>
    rw [map_cons, mem_cons, not_or] at h
    rw [insertEntry]
    split_ifs with h₁ h₂
    · exact List.Perm.refl _
    · exact absurd h₂ h.1
    · exact ((ih h.2).cons a).trans (List.Perm.swap _ _ _)

/-- **An insertion under a new key adds its entry and moves nothing
else.** -/
theorem insert_perm (h : k ∉ m.keys) : (m.insert k v).entries.Perm ((k, v) :: m.entries) :=
  insertEntry_perm h

/-- The value found under a key is the value of its entry. -/
theorem find?_eq_some : m.find? k = some v ↔ (k, v) ∈ m.entries := by
  unfold find?
  constructor
  · intro h
    obtain ⟨e, he, rfl⟩ := Option.map_eq_some_iff.1 h
    have hk : e.1 = k := by simpa using find?_some he
    exact hk ▸ mem_of_find?_eq_some he
  · intro h
    rcases hf : m.entries.find? (fun e => e.1 = k) with _ | e
    · have := find?_eq_none.1 hf _ h
      simp at this
    · have hk : e.1 = k := by simpa using find?_some hf
      rw [hf, entry_unique (mem_of_find?_eq_some hf) h hk]
      rfl

theorem find?_singleton_of_ne (h : k' ≠ k) : (singleton k v).find? k' = none := by
  simp [find?, singleton, Ne.symm h]

@[simp] theorem find?_singleton_self : (singleton k v).find? k = some v := by
  simp [find?, singleton]

theorem find?_insert : (m.insert k v).find? k' = if k' = k then some v else m.find? k' := by
  refine Option.ext fun w => ?_
  rw [find?_eq_some, mem_insert, Prod.mk.injEq]
  split_ifs with h
  · simp [h, eq_comm]
  · simp [h, find?_eq_some]

theorem find?_erase : (m.erase k).find? k' = if k' = k then none else m.find? k' := by
  refine Option.ext fun w => ?_
  rw [find?_eq_some, erase, mem_filter]
  split_ifs with h
  · simp [h]
  · simp [h, find?_eq_some]

theorem sum_insertEntry (f : ν → ℕ) (hs : (es.map Prod.fst).Pairwise (· < ·)) :
    ((insertEntry k v es).map fun e => f e.2).sum +
        ((es.find? fun e => e.1 = k).map fun e => f e.2).getD 0 =
      (es.map fun e => f e.2).sum + f v := by
  induction es with
  | nil => simp [insertEntry]
  | cons e es ih =>
    obtain ⟨hlt, hs⟩ := pairwise_cons.1 hs
    unfold insertEntry
    split_ifs with hbefore hsame
    · -- the key comes before all the others
      have hnone : (e :: es).find? (fun e => decide (e.1 = k)) = none := by
        rw [find?_eq_none]
        intro e' he' heq
        rw [decide_eq_true_eq] at heq
        rcases mem_cons.1 he' with rfl | he'
        · exact absurd heq (ne_of_gt hbefore)
        · exact absurd heq (ne_of_gt (hbefore.trans (hlt _ (mem_map_of_mem he'))))
      rw [hnone]
      simp only [map_cons, sum_cons, Option.map_none, Option.getD_none]
      omega
    · rw [find?_cons_of_pos (by simp [hsame])]
      simp only [map_cons, sum_cons, Option.map_some, Option.getD_some]
      omega
    · rw [find?_cons_of_neg (by rw [decide_eq_true_eq]; exact Ne.symm hsame)]
      simp only [map_cons, sum_cons]
      have hrest := ih hs
      omega

/-- **A sum over the values** changes by the value that is assigned, and
by the one it replaces. -/
theorem sum_insert (f : ν → ℕ) :
    ((m.insert k v).values.map f).sum + ((m.find? k).map f).getD 0 = (m.values.map f).sum + f v := by
  rw [values, values, map_map, map_map, find?, Option.map_map]
  exact sum_insertEntry f m.sorted

theorem mem_keys_iff_find? : k ∈ m.keys ↔ ∃ v, m.find? k = some v := by
  simp only [mem_keys, find?_eq_some]

theorem mem_keys_erase : k' ∈ (m.erase k).keys ↔ k' ∈ m.keys ∧ k' ≠ k := by
  rw [mem_keys_iff_find?, mem_keys_iff_find?, find?_erase]
  split_ifs with h <;> simp [h]

/-- **Maps that find the same are the same.** -/
theorem ext_find? {m m' : OrdMap κ ν} (h : ∀ k, m.find? k = m'.find? k) : m = m' := by
  have hsorted : ∀ m : OrdMap κ ν, m.entries.Pairwise fun e e' => e.1 < e'.1 :=
    fun m => pairwise_map.1 m.sorted
  have hnodup : ∀ m : OrdMap κ ν, m.entries.Nodup :=
    fun m => (hsorted m).imp fun hlt heq => absurd hlt (by rw [heq]; exact lt_irrefl _)
  have hperm : m.entries.Perm m'.entries := by
    refine (perm_ext_iff_of_nodup (hnodup m) (hnodup m')).2 fun e => ?_
    rw [← find?_eq_some, ← find?_eq_some, h]
  refine ext (hperm.eq_of_pairwise (fun a b _ _ hab hba => ?_) (hsorted m) (hsorted m'))
  exact absurd hab (lt_asymm hba)

/-- The later assignment under a key stands. -/
theorem insert_insert : (m.insert k v).insert k v' = m.insert k v' := by
  refine ext_find? fun k' => ?_
  simp only [find?_insert]
  split_ifs <;> rfl

/-- A new key taken out again. -/
theorem erase_insert_of_find?_eq_none (h : m.find? k = none) : (m.insert k v).erase k = m := by
  refine ext_find? fun k' => ?_
  rw [find?_erase, find?_insert]
  split_ifs with hk
  · rw [hk, h]
  · rfl

theorem insert_empty : (empty : OrdMap κ ν).insert k v = singleton k v := rfl

theorem insert_singleton : (singleton k v).insert k v' = singleton k v' := by
  rw [← insert_empty, insert_insert, insert_empty]

theorem erase_singleton : (singleton k v).erase k = empty := by
  rw [← insert_empty, erase_insert_of_find?_eq_none rfl]

/-! ## Several insertions -/

/-- The values of a list assigned one after the other, each under its own
key. -/
def insertAll (m : OrdMap κ ν) (key : ν → κ) (vs : List ν) : OrdMap κ ν :=
  vs.foldl (fun m v => m.insert (key v) v) m

variable {key : ν → κ} {vs ws : List ν}

@[simp] theorem insertAll_nil : m.insertAll key [] = m := rfl

@[simp] theorem insertAll_cons :
    m.insertAll key (v :: vs) = (m.insert (key v) v).insertAll key vs := rfl

theorem insertAll_append : m.insertAll key (vs ++ ws) = (m.insertAll key vs).insertAll key ws :=
  foldl_append

/-- An entry of the result was assigned, or was there. -/
theorem mem_insertAll_imp {e : κ × ν} (h : e ∈ (m.insertAll key vs).entries) :
    e ∈ m.entries ∨ ∃ v ∈ vs, e = (key v, v) := by
  induction vs generalizing m with
  | nil => exact Or.inl h
  | cons v vs ih =>
    rcases ih h with h | ⟨w, hw, rfl⟩
    · rcases mem_insert.1 h with rfl | ⟨h, -⟩
      · exact Or.inr ⟨v, mem_cons_self, rfl⟩
      · exact Or.inl h
    · exact Or.inr ⟨w, mem_cons_of_mem _ hw, rfl⟩

theorem mem_keys_insertAll : k ∈ (m.insertAll key vs).keys ↔ k ∈ m.keys ∨ k ∈ vs.map key := by
  induction vs generalizing m with
  | nil => simp
  | cons v vs ih =>
    rw [insertAll_cons, ih, mem_keys_insert, map_cons, mem_cons]
    tauto

/-- The last value of a list under a key. -/
def lastUnder (key : ν → κ) (vs : List ν) (k : κ) : Option ν := (vs.filter (key · = k)).getLast?

theorem lastUnder_eq_none : lastUnder key vs k = none ↔ k ∉ vs.map key := by
  simp [lastUnder]

theorem mem_of_lastUnder (h : lastUnder key vs k = some v) : v ∈ vs ∧ key v = k := by
  simpa using mem_of_getLast? h

/-- **A key finds the last value assigned under it**, or else what it
found. -/
theorem find?_insertAll :
    (m.insertAll key vs).find? k = (lastUnder key vs k).or (m.find? k) := by
  induction vs generalizing m with
  | nil => rfl
  | cons v vs ih =>
    rw [insertAll_cons, ih, find?_insert, lastUnder, lastUnder]
    by_cases hk : key v = k
    · rw [if_pos hk.symm, filter_cons_of_pos (by simpa using hk), getLast?_cons]
      cases (vs.filter (key · = k)).getLast? <;> rfl
    · rw [if_neg (Ne.symm hk), filter_cons_of_neg (by simpa using hk)]

theorem exists_lastUnder (h : k ∈ vs.map key) : ∃ v, lastUnder key vs k = some v :=
  Option.ne_none_iff_exists'.1 fun hnone => lastUnder_eq_none.1 hnone h

/-- **Insertions under new and different keys add their values and move
nothing else.** -/
theorem insertAll_perm (hnew : ∀ v ∈ vs, key v ∉ m.keys) (hvs : (vs.map key).Nodup) :
    (m.insertAll key vs).values.Perm (m.values ++ vs) := by
  induction vs generalizing m with
  | nil => simp
  | cons v vs ih =>
    rw [map_cons, nodup_cons] at hvs
    have hv : key v ∉ m.keys := hnew v mem_cons_self
    have hrest : ∀ w ∈ vs, key w ∉ (m.insert (key v) v).keys := by
      intro w hw hmem
      rcases mem_keys_insert.1 hmem with h | h
      · exact hvs.1 (h ▸ mem_map_of_mem hw)
      · exact hnew w (mem_cons_of_mem _ hw) h
    have hone : (m.insert (key v) v).values.Perm (v :: m.values) := (insert_perm hv).map Prod.snd
    refine (ih hrest hvs.2).trans ((hone.append_right vs).trans ?_)
    exact perm_middle.symm

/-! ## Counting keys -/

/-- One more for each key of a list. -/
def tally (m : OrdMap κ ℕ) (ks : List κ) : OrdMap κ ℕ :=
  ks.foldl (fun m k => m.insert k ((m.find? k).getD 0 + 1)) m

variable {c : OrdMap κ ℕ} {ks ks' : List κ}

theorem tally_append : c.tally (ks ++ ks') = (c.tally ks).tally ks' := foldl_append

theorem find?_tally : (c.tally ks).find? k =
    if k ∈ ks then some ((c.find? k).getD 0 + ks.count k) else c.find? k := by
  induction ks generalizing c with
  | nil => simp [tally]
  | cons k' ks ih =>
    have hcons : c.tally (k' :: ks) = (c.insert k' ((c.find? k').getD 0 + 1)).tally ks := rfl
    rw [hcons, ih, find?_insert]
    by_cases hk : k = k'
    · subst hk
      by_cases hmem : k ∈ ks
      · rw [if_pos rfl, if_pos hmem, if_pos mem_cons_self, count_cons_self,
          Option.getD_some]
        congr 1
        omega
      · rw [if_pos rfl, if_neg hmem, if_pos mem_cons_self, count_cons_self,
          count_eq_zero_of_not_mem hmem]
    · have hcount : (k' :: ks).count k = ks.count k := count_cons_of_ne (Ne.symm hk)
      have hmem : k ∈ k' :: ks ↔ k ∈ ks := by simp [hk]
      simp only [if_neg hk, hcount, hmem]

theorem getD_tally : ((c.tally ks).find? k).getD 0 = (c.find? k).getD 0 + ks.count k := by
  rw [find?_tally]
  split_ifs with h
  · rfl
  · rw [count_eq_zero_of_not_mem h, Nat.add_zero]

/-- **A count does not depend on the order.** -/
theorem tally_perm (h : ks.Perm ks') : c.tally ks = c.tally ks' := by
  refine ext_find? fun k => ?_
  rw [find?_tally, find?_tally, h.count_eq]
  simp only [h.mem_iff]

/-- Nothing is counted only where there is nothing to count. -/
theorem entries_tally_eq_nil : ((empty : OrdMap κ ℕ).tally ks).entries = [] ↔ ks = [] := by
  constructor
  · intro h
    by_contra hne
    obtain ⟨k, rest, rfl⟩ := exists_cons_of_ne_nil hne
    have hfind : ((empty : OrdMap κ ℕ).tally (k :: rest)).find? k = some _ :=
      find?_tally.trans (if_pos mem_cons_self)
    have hmem := find?_eq_some.1 hfind
    rw [h] at hmem
    cases hmem
  · rintro rfl
    rfl

end OrdMap

end ClientTelemetry
