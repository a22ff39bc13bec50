import ClientTelemetry.Config.Model.Variant
/-!
# Configuration values — equations and induction

The recursions of the model are loops over entries (`assignEntries_eq_update`,
`mergeMap_eq_update`), so that what they write is known key by key. An
induction over a tree goes through the storage of every kind, because an
assignment can bring storage back that did not count.
-/

namespace ClientTelemetry

namespace Variant

/-! ## The recursions as loops over entries -/

theorem assignEntries_eq_update (m es : VariantMap) :
    assignEntries m es = Entries.update (fun o w => assign (at? o) w) m es := by
  induction es generalizing m with
  | nil => rfl
  | cons e es ih =>
    obtain ⟨k, w⟩ := e
    rw [assignEntries, ih, Entries.update_cons]

theorem mergeMap_eq_update (overwrite : Bool) (m es : VariantMap) : mergeMap overwrite m es =
      Entries.update (fun o w => mergeItem overwrite (at? o) w) m es := by
  induction es generalizing m with
  | nil => rfl
  | cons e es ih =>
    obtain ⟨k, w⟩ := e
    rw [mergeMap, ih, Entries.update_cons]

theorem valueEntries_eq_mapValues (es : VariantMap) :
    valueEntries es = Entries.mapValues value es := by
  induction es with
  | nil => rfl
  | cons e es ih =>
    obtain ⟨k, w⟩ := e
    rw [valueEntries, ih]
    rfl

theorem valueElements_eq_map (a : VariantArray) : valueElements a = a.map value := by
  induction a with
  | nil => rfl
  | cons v a ih => rw [valueElements, ih, List.map_cons]

variable {v w item : Variant} {overwrite : Bool} {m : VariantMap}

/-! ## One equation for each kind -/

theorem value_of_null (h : v.type = .null) : v.value = .null := by
  cases v; cases h; rfl

theorem value_of_obj (h : v.type = .obj) : v.value = .obj (Entries.mapValues value v.mV) := by
  cases v; cases h; rw [value, valueEntries_eq_mapValues]

theorem value_of_arr (h : v.type = .arr) : v.value = .arr (v.aV.map value) := by
  cases v; cases h; rw [value, valueElements_eq_map]

theorem assign_of_obj (h : w.type = .obj) :
    v.assign w = { v with
      type := .obj, mV := Entries.update (fun o w => assign (at? o) w) v.mV w.mV } := by
  cases w; cases h; rw [assign, assignEntries_eq_update]

theorem assign_of_arr (h : w.type = .arr) : v.assign w = { v with type := .arr } := by
  cases w; cases h; rfl

/-- A scalar is copied by its own storage alone, whatever was there
before. -/
theorem value_assign_of_scalar (hobj : w.type ≠ .obj) (harr : w.type ≠ .arr) :
    (v.assign w).value = w.value := by
  obtain ⟨type, scalar, SV, mV, aV⟩ := w
  cases type <;> first | rfl | contradiction

theorem mergeItem_of_obj (h : item.type = .obj) :
    mergeItem overwrite item w = { item with
      mV := Entries.update (fun o w => mergeItem overwrite (at? o) w) item.mV w.mV } := by
  cases w; rw [mergeItem, if_pos h, mergeMap_eq_update]

theorem mergeItem_of_null (h : item.type = .null) :
    mergeItem overwrite item w = item.assign w := by
  cases w
  rw [mergeItem, if_neg (by rw [h]; decide), if_pos (Or.inl h)]

theorem mergeItem_of_scalar (hobj : item.type ≠ .obj) (hnull : item.type ≠ .null) :
    mergeItem false item w = item := by
  cases w
  rw [mergeItem, if_neg hobj, if_neg (by simp [hnull])]

/-! ## Whole trees -/

/-- **Induction over a tree**: through the storage of every kind, whether
it counts or not. -/
theorem induction_on {P : Variant → Prop} (v : Variant)
    (h : ∀ v : Variant, (∀ e ∈ v.mV, P e.2) → (∀ x ∈ v.aV, P x) → P v) : P v := by
  refine Variant.rec (motive_1 := P) (motive_2 := fun m => ∀ e ∈ m, P e.2)
    (motive_3 := fun a => ∀ x ∈ a, P x) (motive_4 := fun e => P e.2) ?_ ?_ ?_ ?_ ?_ ?_ v
  · intro type scalar SV mV aV hm ha
    exact h _ hm ha
  · intro e he
    cases he
  · intro e es he hes e' he'
    rcases List.mem_cons.1 he' with rfl | he'
    · exact he
    · exact hes e' he'
  · intro x hx
    cases hx
  · intro x xs hx hxs x' hx'
    rcases List.mem_cons.1 hx' with rfl | hx'
    · exact hx
    · exact hxs x' hx'
  · intro k v hv
    exact hv

namespace Ordered

theorem map (h : v.Ordered) : OrderedMap v.mV := by
  cases h with
  | mk hs hm _ => exact ⟨hs, hm⟩

theorem elements (h : v.Ordered) : ∀ x ∈ v.aV, Ordered x := by
  cases h with
  | mk _ _ ha => exact ha

theorem of_noMap (hm : v.mV = []) (ha : v.aV = []) : v.Ordered := by
  refine .mk ?_ ?_ ?_
  · rw [hm]
    exact Entries.sorted_nil
  · rw [hm]
    intro e he
    cases he
  · rw [ha]
    intro x hx
    cases hx

end Ordered

theorem ordered_null : null.Ordered := .of_noMap rfl rfl

namespace OrderedMap

variable {m es : VariantMap} {k : String}

theorem lookup (h : OrderedMap m) (hk : Entries.lookup m k = some v) : v.Ordered :=
  h.values _ (Entries.mem_of_lookup hk)

theorem at? (h : OrderedMap m) (k : String) : (Variant.at? (Entries.lookup m k)).Ordered := by
  rcases hk : Entries.lookup m k with _ | v
  · exact ordered_null
  · exact h.lookup hk

theorem nil : OrderedMap [] := ⟨Entries.sorted_nil, by intro e he; cases he⟩

/-- A walk keeps the order where each value it writes is in order. -/
theorem update {f : Option Variant → Variant → Variant} (h : OrderedMap m)
    (hf : ∀ e ∈ es, ∀ o, (Variant.at? o).Ordered → (f o e.2).Ordered) :
    OrderedMap (Entries.update f m es) := by
  induction es generalizing m with
  | nil => exact h
  | cons e es ih =>
    refine ih ⟨Entries.sorted_insertEntry h.sorted, fun e' he' => ?_⟩
      fun e' he' => hf e' (List.mem_cons_of_mem _ he')
    rcases OrdMap.mem_insertEntry_imp he' with rfl | he'
    · exact hf e List.mem_cons_self _ (h.at? e.1)
    · exact h.values e' he'

end OrderedMap

/-- Assignment keeps every map in key order. -/
theorem Ordered.assign (hv : v.Ordered) (hw : w.Ordered) : (v.assign w).Ordered := by
  induction w using induction_on generalizing v with
  | h w ih _ =>
    by_cases hobj : w.type = .obj
    · rw [assign_of_obj hobj]
      have hmap : OrderedMap (Entries.update (fun o w => Variant.assign (at? o) w) v.mV w.mV) :=
        hv.map.update fun e he o ho => ih e he ho (hw.map.values e he)
      exact .mk hmap.sorted hmap.values hv.elements
    · -- no other kind writes the map or the array
      have hkept : (v.assign w).mV = v.mV ∧ (v.assign w).aV = v.aV := by
        obtain ⟨type, scalar, SV, mV, aV⟩ := w
        cases type <;> first | exact ⟨rfl, rfl⟩ | contradiction
      refine .mk ?_ ?_ ?_
      · rw [hkept.1]
        exact hv.map.sorted
      · rw [hkept.1]
        exact hv.map.values
      · rw [hkept.2]
        exact hv.elements

theorem orderedMap_assignEntries {es : VariantMap} (hm : OrderedMap m)
    (hes : ∀ e ∈ es, Ordered e.2) : OrderedMap (assignEntries m es) := by
  rw [assignEntries_eq_update]
  exact hm.update fun e he o ho => ho.assign (hes e he)

/-- The constructors build trees in key order. -/
theorem Fresh.ordered (h : v.Fresh) : v.Ordered := by
  have hnone : ∀ x ∈ ([] : VariantArray), Ordered x := by
    intro x hx
    cases hx
  induction h with
  | null => exact ordered_null
  | int i | bool b | cString s | string s => exact .of_noMap rfl rfl
  | map hs _ ih | pairs _ ih =>
    have hmap := orderedMap_assignEntries .nil ih
    exact .mk hmap.sorted hmap.values hnone
  | mapMoved hs _ ih => exact .mk hs ih hnone
  | array _ ih => exact .mk Entries.sorted_nil OrderedMap.nil.values ih

/-- A written key keeps the map in order. -/
theorem OrderedMap.insertEntry {k : String} (hm : OrderedMap m) (hv : v.Ordered) :
    OrderedMap (OrdMap.insertEntry k v m) := by
  refine ⟨Entries.sorted_insertEntry hm.sorted, fun e he => ?_⟩
  rcases OrdMap.mem_insertEntry_imp he with rfl | he
  · exact hv
  · exact hm.values e he

/-- An assignment through subscripts keeps every map in key order. -/
theorem Ordered.assignAt {path : List Subscript} (hv : v.Ordered) (hw : w.Ordered) :
    (v.assignAt path w).Ordered := by
  induction path generalizing v with
  | nil => exact hv.assign hw
  | cons subscript path ih =>
    cases subscript with
    | key k =>
      rw [Variant.assignAt]
      split
      · have hmap := hv.map.insertEntry (k := k) (ih (hv.map.at? k))
        exact .mk hmap.sorted hmap.values hv.elements
      · have hmap := hv.map.insertEntry (k := k) (ih ((hv.map.at? k).assign ordered_null))
        exact .mk hmap.sorted hmap.values hv.elements
      · exact hv
    | index i =>
      rw [Variant.assignAt]
      split
      · next x _ hx =>
        refine .mk hv.map.sorted hv.map.values fun y hy => ?_
        rcases List.mem_or_eq_of_mem_set hy with hy | rfl
        · exact hv.elements y hy
        · exact ih (hv.elements x (List.mem_of_getElem? hx))
      · exact hv

theorem Built.ordered (h : v.Built) : v.Ordered := by
  induction h with
  | fresh h => exact h.ordered
  | assignAt path _ _ ihv ihw => exact ihv.assignAt ihw

end Variant

end ClientTelemetry
