import ClientTelemetry.Common.OrdMap
/-!
# Entries in key order

The entries of an ordered map as a plain list, for trees whose nodes hold
maps of nodes: there the order cannot be a field of the map's type, so it
is a hypothesis (`Sorted`). What a list of entries is, is what is found in
it (`ext_lookup`). A loop that walks one map and writes each key of
another one (`update`) is described key by key (`lookup_update`), and so
are the ways its result compares: with the map that was walked
(`map_update_eq_walked_iff`) and with the map that was written
(`map_update_eq_written_iff`).
-/

namespace ClientTelemetry

open List

namespace Entries

variable {κ μ ν γ : Type*} [LinearOrder κ]

/-- The keys increase strictly along the entries. -/
def Sorted (es : List (κ × ν)) : Prop := (es.map Prod.fst).Pairwise (· < ·)

/-- The value stored under a key. -/
def lookup (es : List (κ × ν)) (k : κ) : Option ν := (es.find? fun e => e.1 = k).map Prod.snd

/-- **Walking one map and writing another**: under each key of `es`, what
`f` makes of the value written so far and the value walked. -/
def update (f : Option ν → μ → ν) (m : List (κ × ν)) (es : List (κ × μ)) : List (κ × ν) :=
  es.foldl (fun m e => OrdMap.insertEntry e.1 (f (lookup m e.1) e.2) m) m

variable {es es' m : List (κ × ν)} {ws : List (κ × μ)} {k k' : κ} {v : ν} {w : μ}
variable {f : Option ν → μ → ν} {g : ν → γ}

theorem sorted_nil : Sorted ([] : List (κ × ν)) := List.Pairwise.nil

theorem lookup_cons_self : lookup ((k, v) :: es) k = some v := by
  simp [lookup]

theorem lookup_cons_of_ne (h : k' ≠ k) : lookup ((k, v) :: es) k' = lookup es k' := by
  simp [lookup, Ne.symm h]

/-! ## Lookups -/

theorem mem_of_lookup (h : lookup es k = some v) : (k, v) ∈ es := by
  obtain ⟨e, he, rfl⟩ := Option.map_eq_some_iff.1 h
  have hk : e.1 = k := by simpa using find?_some he
  exact hk ▸ mem_of_find?_eq_some he

theorem sorted_insertEntry (hs : Sorted es) : Sorted (OrdMap.insertEntry k v es) :=
  OrdMap.insertEntry_sorted hs

theorem lookup_insertEntry (hs : Sorted es) :
    lookup (OrdMap.insertEntry k v es) k' = if k' = k then some v else lookup es k' :=
  OrdMap.find?_insert (m := ⟨es, hs⟩)

/-- **Maps that find the same are the same.** -/
theorem ext_lookup (hs : Sorted es) (hs' : Sorted es') (h : ∀ k, lookup es k = lookup es' k) :
    es = es' :=
  congrArg OrdMap.entries (@OrdMap.ext_find? κ ν _ ⟨es, hs⟩ ⟨es', hs'⟩ h)

theorem ext_lookup_iff (hs : Sorted es) (hs' : Sorted es') :
    es = es' ↔ ∀ k, lookup es k = lookup es' k :=
  ⟨fun h _ => h ▸ rfl, ext_lookup hs hs'⟩

/-! ## Values replaced where they stand -/

/-- Each value replaced by a function of it. -/
def mapValues (g : ν → γ) (es : List (κ × ν)) : List (κ × γ) := es.map fun e => (e.1, g e.2)

theorem sorted_mapValues (hs : Sorted es) : Sorted (mapValues g es) := by
  unfold Sorted mapValues
  rw [map_map]
  exact hs

theorem lookup_mapValues : lookup (mapValues g es) k = (lookup es k).map g := by
  induction es with
  | nil => rfl
  | cons e es ih =>
    obtain ⟨k', v⟩ := e
    have hcons : mapValues g ((k', v) :: es) = (k', g v) :: mapValues g es := rfl
    rw [hcons]
    by_cases hk : k = k'
    · rw [hk, lookup_cons_self, lookup_cons_self, Option.map_some]
    · rw [lookup_cons_of_ne hk, lookup_cons_of_ne hk, ih]

/-! ## What a walk writes -/

theorem update_cons :
    update f m ((k, w) :: ws) = update f (OrdMap.insertEntry k (f (lookup m k) w) m) ws := rfl

theorem sorted_update (hm : Sorted m) : Sorted (update f m ws) := by
  induction ws generalizing m with
  | nil => exact hm
  | cons e ws ih => exact ih (sorted_insertEntry hm)

/-- A key that is not walked keeps its value. -/
theorem lookup_update_of_notMem (hm : Sorted m) (h : k ∉ ws.map Prod.fst) :
    lookup (update f m ws) k = lookup m k := by
  induction ws generalizing m with
  | nil => rfl
  | cons e ws ih =>
    rw [map_cons, mem_cons, not_or] at h
    rw [update_cons, ih (sorted_insertEntry hm) h.2, lookup_insertEntry hm, if_neg h.1]

/-- **Under each key, what the function makes of the two values**; the
other keys keep theirs. -/
theorem lookup_update (hm : Sorted m) (hws : (ws.map Prod.fst).Nodup) : lookup (update f m ws) k =
      match lookup ws k with
      | none => lookup m k
      | some w => some (f (lookup m k) w) := by
  induction ws generalizing m with
  | nil => rfl
  | cons e ws ih =>
    obtain ⟨k', w⟩ := e
    rw [map_cons, nodup_cons] at hws
    rw [update_cons]
    by_cases hk : k = k'
    · subst hk
      rw [lookup_update_of_notMem (sorted_insertEntry hm) hws.1, lookup_insertEntry hm, if_pos rfl,
        lookup_cons_self]
    · rw [ih (sorted_insertEntry hm) hws.2, lookup_insertEntry hm, if_neg hk, lookup_cons_of_ne hk]

theorem Sorted.nodup (hs : Sorted es) : (es.map Prod.fst).Nodup := hs.imp fun h => ne_of_lt h

theorem lookup_update_some (hm : Sorted m) (hws : Sorted ws) (hk : lookup ws k = some w) :
    lookup (update f m ws) k = some (f (lookup m k) w) := by
  rw [lookup_update hm hws.nodup, hk]

theorem lookup_update_none (hm : Sorted m) (hws : Sorted ws) (hk : lookup ws k = none) :
    lookup (update f m ws) k = lookup m k := by
  rw [lookup_update hm hws.nodup, hk]

/-- The result shows the map that was walked iff nothing else was there
and each value written shows the one walked. -/
theorem map_update_eq_walked_iff {h : μ → γ} (hm : Sorted m) (hws : Sorted ws) :
    mapValues g (update f m ws) = mapValues h ws ↔ (∀ k, lookup ws k = none → lookup m k = none) ∧
        ∀ k w, lookup ws k = some w → g (f (lookup m k) w) = h w := by
  rw [ext_lookup_iff (sorted_mapValues (sorted_update hm)) (sorted_mapValues hws)]
  simp only [lookup_mapValues]
  constructor
  · intro hall
    refine ⟨fun k hk => ?_, fun k w hk => ?_⟩
    · have := hall k
      rw [lookup_update_none hm hws hk, hk] at this
      simpa using this
    · have := hall k
      rw [lookup_update_some hm hws hk, hk] at this
      simpa using this
  · rintro ⟨hnone, hsome⟩ k
    rcases hk : lookup ws k with _ | w
    · rw [lookup_update_none hm hws hk, hnone k hk]
      rfl
    · rw [lookup_update_some hm hws hk, Option.map_some, hsome k w hk]
      rfl

/-- The result shows the map as it was before iff each key walked was
there and its value still shows the same. -/
theorem map_update_eq_written_iff (hm : Sorted m) (hws : Sorted ws) :
    mapValues g (update f m ws) = mapValues g m ↔
      ∀ k w, lookup ws k = some w → ∃ v, lookup m k = some v ∧ g (f (some v) w) = g v := by
  rw [ext_lookup_iff (sorted_mapValues (sorted_update hm)) (sorted_mapValues hm)]
  simp only [lookup_mapValues]
  constructor
  · intro hall k w hk
    have hsame := hall k
    rw [lookup_update_some hm hws hk, Option.map_some] at hsame
    obtain ⟨v, hv, hg⟩ := Option.map_eq_some_iff.1 hsame.symm
    rw [hv] at hg
    exact ⟨v, hv, hg.symm⟩
  · intro hall k
    rcases hk : lookup ws k with _ | w
    · rw [lookup_update_none hm hws hk]
    · obtain ⟨v, hv, hg⟩ := hall k w hk
      rw [lookup_update_some hm hws hk, hv, Option.map_some, hg]
      rfl

end Entries

end ClientTelemetry
