import ClientTelemetry.Config.Assign
/-!
# Defaults laid under a configuration

`merge_map` walks the defaults and fills in what the configuration does
not say. What that should give is stated of values alone (`OverlayAt`, one
constructor for each case of a key). **It is what the call gives exactly
when no storage that does not count comes into it** (`OverlayFits`): the
map of a right item is merged into a left map whatever the type of the
right item, and a null variant on the left is assigned to, so it has to
be one an assignment copies into.

Merging the same defaults again changes nothing, in every case
(`unchanged_mergeItem`).
-/

namespace ClientTelemetry

namespace Variant

open Entries (lookup)

/-! ## The overlay, of values -/

/-- **What a key should have afterwards**, from what it has on the left and
on the right. -/
inductive OverlayAt : Option VariantValue → Option VariantValue → Option VariantValue → Prop
  /-- A key that is missing on the left gets what the right has. -/
  | missing {r : Option VariantValue} : OverlayAt none r r
  /-- A key that is null on the left gets the right value. -/
  | null {r : VariantValue} : OverlayAt (some .null) (some r) (some r)
  /-- A key that only the left has is unchanged. -/
  | only {l : VariantValue} : OverlayAt (some l) none (some l)
  /-- A left value that is neither null nor a map is kept. -/
  | scalar {l r : VariantValue} : l ≠ .null → (∀ m, l ≠ .obj m) → OverlayAt (some l) (some r) (some l)
  /-- A left map is kept if the right value is not a map. -/
  | kept {l : List (String × VariantValue)} {r : VariantValue} : (∀ m, r ≠ .obj m) →
      OverlayAt (some (.obj l)) (some r) (some (.obj l))
  /-- Two maps are merged recursively. -/
  | merged {l r m : List (String × VariantValue)} :
      (∀ k, OverlayAt (lookup l k) (lookup r k) (lookup m k)) →
      OverlayAt (some (.obj l)) (some (.obj r)) (some (.obj m))

/-- The third map is the overlay of the first over the second. -/
def IsOverlay (l r m : List (String × VariantValue)) : Prop :=
  ∀ k, OverlayAt (lookup l k) (lookup r k) (lookup m k)

section Overlay

variable {l r m : VariantValue} {lm rm mm : List (String × VariantValue)}

theorem overlayAt_right_none {o : Option VariantValue} : OverlayAt o none o := by
  cases o with
  | none => exact .missing
  | some l => exact .only

theorem overlayAt_none_iff : OverlayAt none (some r) (some m) ↔ m = r := by
  constructor
  · intro h
    cases h
    rfl
  · rintro rfl
    exact .missing

theorem overlayAt_null_iff : OverlayAt (some .null) (some r) (some m) ↔ m = r := by
  constructor
  · intro h
    cases h with
    | null => rfl
    | scalar hnull _ => exact absurd rfl hnull
  · rintro rfl
    exact .null

theorem overlayAt_kept_iff (h : ∀ m, r ≠ .obj m) :
    OverlayAt (some (.obj lm)) (some r) (some (.obj mm)) ↔ mm = lm := by
  constructor
  · intro ho
    cases ho with
    | scalar _ hobj => exact absurd rfl (hobj _)
    | kept _ => rfl
    | merged _ => exact absurd rfl (h _)
  · rintro rfl
    exact .kept h

theorem overlayAt_merged_iff :
    OverlayAt (some (.obj lm)) (some (.obj rm)) (some (.obj mm)) ↔ IsOverlay lm rm mm := by
  constructor
  · intro ho
    cases ho with
    | scalar _ hobj | kept hobj => exact absurd rfl (hobj _)
    | merged hall => exact hall
  · exact .merged

end Overlay

variable {v w l r : Variant} {lhs rhs : VariantMap}

theorem value_ne_null (h : v.type ≠ .null) : v.value ≠ .null := by
  obtain ⟨type, scalar, SV, mV, aV⟩ := v
  cases type <;> first | exact absurd rfl h | (intro hv; cases hv)

theorem value_ne_obj (h : v.type ≠ .obj) (m : List (String × VariantValue)) :
    v.value ≠ .obj m := by
  obtain ⟨type, scalar, SV, mV, aV⟩ := v
  cases type <;> first | exact absurd rfl h | (intro hv; cases hv)

/-! ## What a merge leaves alone -/

/-- **Merging the right item into the left one changes no value.** -/
inductive Unchanged : Variant → Variant → Prop
  /-- A left scalar is not touched. -/
  | scalar {l r : Variant} : l.type ≠ .obj → l.type ≠ .null → Unchanged l r
  /-- A null variant is assigned another one. -/
  | null {l r : Variant} : l.type = .null → r.type = .null → Unchanged l r
  /-- The left map has every key the right storage has, and nothing changes
  under them. -/
  | obj {l r : Variant} : l.type = .obj → (∀ k, lookup l.mV k = none → lookup r.mV k = none) →
      (∀ k l' r', lookup l.mV k = some l' → lookup r.mV k = some r' → Unchanged l' r') →
      Unchanged l r

theorem unchanged_of_null (h : l.type = .null) : Unchanged l r ↔ r.type = .null := by
  constructor
  · intro hu
    cases hu with
    | scalar _ hnull => exact absurd h hnull
    | null _ hr => exact hr
    | obj hobj _ _ => rw [h] at hobj; cases hobj
  · exact .null h

theorem unchanged_of_obj (h : l.type = .obj) :
    Unchanged l r ↔ ∀ k r', lookup r.mV k = some r' → ∃ l', lookup l.mV k = some l' ∧
      Unchanged l' r' := by
  constructor
  · intro hu k r' hr
    cases hu with
    | scalar hobj _ => exact absurd h hobj
    | null hnull _ => rw [h] at hnull; cases hnull
    | obj _ hkeys hvalues =>
      rcases hl : lookup l.mV k with _ | l'
      · rw [hkeys k hl] at hr
        cases hr
      · exact ⟨l', rfl, hvalues k l' r' hl hr⟩
  · intro hall
    refine .obj h (fun k hl => ?_) fun k l' r' hl hr => ?_
    · rcases hr : lookup r.mV k with _ | r'
      · rfl
      · obtain ⟨l', hl', -⟩ := hall k r' hr
        rw [hl] at hl'
        cases hl'
    · obtain ⟨l'', hl', hu⟩ := hall k r' hr
      rw [hl] at hl'
      cases hl'
      exact hu

/-- A null variant that is assigned stays null iff it is assigned null. -/
theorem value_assign_eq_null_iff (v w : Variant) : (v.assign w).value = .null ↔ w.type = .null := by
  obtain ⟨type, scalar, SV, mV, aV⟩ := w
  cases type <;> simp [assign, value]

theorem value_mergeItem_of_obj (h : l.type = .obj) : (mergeItem false l r).value =
    .obj (Entries.mapValues value
      (Entries.update (fun o w => mergeItem false (at? o) w) l.mV r.mV)) := by
  rw [mergeItem_of_obj h]
  exact value_of_obj h

theorem value_mergeItem_eq_iff (hl : l.Ordered) (hr : r.Ordered) :
    (mergeItem false l r).value = l.value ↔ Unchanged l r := by
  induction r using induction_on generalizing l with
  | h r ih _ =>
    by_cases hobj : l.type = .obj
    · rw [value_mergeItem_of_obj hobj, value_of_obj hobj, unchanged_of_obj hobj,
        VariantValue.obj.injEq, Entries.map_update_eq_written_iff hl.map.sorted hr.map.sorted]
      refine forall₃_congr fun k r' hk => exists_congr fun l' => and_congr_right fun hl' => ?_
      exact ih (k, r') (Entries.mem_of_lookup hk) (hl.map.lookup hl') (hr.map.lookup hk)
    · by_cases hnull : l.type = .null
      · rw [mergeItem_of_null hnull, value_of_null hnull, value_assign_eq_null_iff,
          unchanged_of_null hnull]
      · rw [mergeItem_of_scalar hobj hnull]
        exact ⟨fun _ => .scalar hobj hnull, fun _ => rfl⟩

/-- The type a variant has once it is assigned. -/
theorem type_assign_eq_obj_iff : (v.assign w).type = .obj ↔ w.type = .obj := by
  obtain ⟨type, scalar, SV, mV, aV⟩ := w
  cases type <;> simp [assign]

theorem type_assign_eq_null_iff : (v.assign w).type = .null ↔ w.type = .null := by
  obtain ⟨type, scalar, SV, mV, aV⟩ := w
  cases type <;> simp [assign]

/-- What has just been assigned is not changed by a merge with the same. -/
theorem unchanged_assign (hv : v.Ordered) (hw : w.Ordered) : Unchanged (v.assign w) w := by
  induction w using induction_on generalizing v with
  | h w ih _ =>
    by_cases hobj : w.type = .obj
    · refine (unchanged_of_obj (type_assign_eq_obj_iff.2 hobj)).2 fun k w' hk => ?_
      refine ⟨assign (at? (lookup v.mV k)) w', ?_, ?_⟩
      · simp only [assign_of_obj hobj]
        rw [Entries.lookup_update_some hv.map.sorted hw.map.sorted hk]
      · exact ih (k, w') (Entries.mem_of_lookup hk) (hv.map.at? k) (hw.map.lookup hk)
    · by_cases hnull : w.type = .null
      · exact .null (type_assign_eq_null_iff.2 hnull) hnull
      · exact .scalar (mt type_assign_eq_obj_iff.1 hobj) (mt type_assign_eq_null_iff.1 hnull)

/-- **Merging the same item a second time changes nothing.** -/
theorem unchanged_mergeItem (hl : l.Ordered) (hr : r.Ordered) :
    Unchanged (mergeItem false l r) r := by
  induction r using induction_on generalizing l with
  | h r ih _ =>
    by_cases hobj : l.type = .obj
    · have htype : (mergeItem false l r).type = .obj := by rw [mergeItem_of_obj hobj]; exact hobj
      refine (unchanged_of_obj htype).2 fun k r' hk => ?_
      refine ⟨mergeItem false (at? (lookup l.mV k)) r', ?_, ?_⟩
      · simp only [mergeItem_of_obj hobj]
        rw [Entries.lookup_update_some hl.map.sorted hr.map.sorted hk]
      · exact ih (k, r') (Entries.mem_of_lookup hk) (hl.map.at? k) (hr.map.lookup hk)
    · by_cases hnull : l.type = .null
      · rw [mergeItem_of_null hnull]
        exact unchanged_assign hl hr
      · rw [mergeItem_of_scalar hobj hnull]
        exact .scalar hobj hnull

theorem Ordered.mergeItem {overwrite : Bool} (hl : l.Ordered) (hr : r.Ordered) :
    (mergeItem overwrite l r).Ordered := by
  induction r using induction_on generalizing l with
  | h r ih _ =>
    by_cases hobj : l.type = .obj
    · rw [mergeItem_of_obj hobj]
      have hmap : OrderedMap
          (Entries.update (fun o w => Variant.mergeItem overwrite (at? o) w) l.mV r.mV) :=
        hl.map.update fun e he o ho => ih e he ho (hr.map.values e he)
      exact .mk hmap.sorted hmap.values hl.elements
    · obtain ⟨type, scalar, SV, mV, aV⟩ := r
      rw [Variant.mergeItem, if_neg hobj]
      split
      · exact hl.assign hr
      · exact hl

/-! ## When the overlay comes out -/

/-- **No storage that does not count comes into the merge of an item.** -/
inductive FitsAt : Variant → Variant → Prop
  /-- A left scalar is kept anyway. -/
  | scalar {l r : Variant} : l.type ≠ .obj → l.type ≠ .null → FitsAt l r
  /-- What is left in a null variant must not show in the copy. -/
  | null {l r : Variant} : l.type = .null → Copies l r → FitsAt l r
  /-- The map left in a right item of another type must add nothing. -/
  | kept {l r : Variant} : l.type = .obj → r.type ≠ .obj → Unchanged l r → FitsAt l r
  /-- Two maps fit if they fit under every key of the right one. -/
  | merged {l r : Variant} : l.type = .obj → r.type = .obj →
      (∀ k r', lookup r.mV k = some r' → FitsAt (at? (lookup l.mV k)) r') → FitsAt l r

/-- The same of two maps. -/
def OverlayFits (lhs rhs : VariantMap) : Prop :=
  ∀ k r, lookup rhs k = some r → FitsAt (at? (lookup lhs k)) r

theorem fitsAt_of_null (h : l.type = .null) : FitsAt l r ↔ Copies l r := by
  constructor
  · intro hf
    cases hf with
    | scalar _ hnull => exact absurd h hnull
    | null _ hc => exact hc
    | kept hobj _ _ | merged hobj _ _ => rw [h] at hobj; cases hobj
  · exact .null h

theorem fitsAt_of_obj (hl : l.type = .obj) (hr : r.type = .obj) :
    FitsAt l r ↔ OverlayFits l.mV r.mV := by
  constructor
  · intro hf
    cases hf with
    | scalar hobj _ => exact absurd hl hobj
    | null hnull _ => rw [hl] at hnull; cases hnull
    | kept _ hobj _ => exact absurd hr hobj
    | merged _ _ hall => exact hall
  · exact .merged hl hr

theorem fitsAt_of_obj_of_ne (hl : l.type = .obj) (hr : r.type ≠ .obj) :
    FitsAt l r ↔ Unchanged l r := by
  constructor
  · intro hf
    cases hf with
    | scalar hobj _ => exact absurd hl hobj
    | null hnull _ => rw [hl] at hnull; cases hnull
    | kept _ _ hu => exact hu
    | merged _ hobj _ => exact absurd hobj hr
  · exact .kept hl hr

/-- A missing key is filled like a fresh null variant. -/
theorem overlayAt_map_value_iff {o : Option Variant} {r m : VariantValue} :
    OverlayAt (o.map value) (some r) (some m) ↔
      OverlayAt (some (at? o).value) (some r) (some m) := by
  cases o with
  | none => exact overlayAt_none_iff.trans overlayAt_null_iff.symm
  | some v => exact Iff.rfl

/-- The overlay of two maps, key by key of the right one. -/
theorem isOverlay_update_iff (hl : OrderedMap lhs) (hr : OrderedMap rhs) :
    IsOverlay (Entries.mapValues value lhs) (Entries.mapValues value rhs) (Entries.mapValues value
          (Entries.update (fun o w => mergeItem false (at? o) w) lhs rhs)) ↔
      ∀ k r, lookup rhs k = some r → OverlayAt (some (at? (lookup lhs k)).value) (some r.value)
          (some (mergeItem false (at? (lookup lhs k)) r).value) := by
  unfold IsOverlay
  simp only [Entries.lookup_mapValues]
  constructor
  · intro hall k r hk
    have hkey := hall k
    rw [Entries.lookup_update_some hl.sorted hr.sorted hk, hk] at hkey
    exact overlayAt_map_value_iff.1 hkey
  · intro hall k
    rcases hk : lookup rhs k with _ | r
    · rw [Entries.lookup_update_none hl.sorted hr.sorted hk]
      exact overlayAt_right_none
    · rw [Entries.lookup_update_some hl.sorted hr.sorted hk]
      exact overlayAt_map_value_iff.2 (hall k r hk)

theorem overlayAt_mergeItem_iff (hl : l.Ordered) (hr : r.Ordered) :
    OverlayAt (some l.value) (some r.value) (some (mergeItem false l r).value) ↔ FitsAt l r := by
  induction r using induction_on generalizing l with
  | h r ih _ =>
    by_cases hobj : l.type = .obj
    · by_cases hrobj : r.type = .obj
      · rw [value_mergeItem_of_obj hobj, value_of_obj hobj, value_of_obj hrobj,
          overlayAt_merged_iff, isOverlay_update_iff hl.map hr.map, fitsAt_of_obj hobj hrobj]
        refine forall₃_congr fun k r' hk => ?_
        exact ih (k, r') (Entries.mem_of_lookup hk) (hl.map.at? k) (hr.map.lookup hk)
      · rw [fitsAt_of_obj_of_ne hobj hrobj, ← value_mergeItem_eq_iff hl hr,
          value_mergeItem_of_obj hobj, value_of_obj hobj, overlayAt_kept_iff (value_ne_obj hrobj),
          VariantValue.obj.injEq]
    · by_cases hnull : l.type = .null
      · rw [mergeItem_of_null hnull, value_of_null hnull, overlayAt_null_iff,
          value_assign_eq_iff hl hr, fitsAt_of_null hnull]
      · rw [mergeItem_of_scalar hobj hnull]
        exact ⟨fun _ => .scalar hobj hnull,
          fun _ => .scalar (value_ne_null hnull) (value_ne_obj hobj)⟩

theorem values_merge_merge (hl : OrderedMap lhs) (hr : OrderedMap rhs) :
    valueEntries (mergeMap false (mergeMap false lhs rhs) rhs) =
      valueEntries (mergeMap false lhs rhs) := by
  have hmerged : OrderedMap (mergeMap false lhs rhs) := by
    rw [mergeMap_eq_update]
    exact hl.update fun e he o ho => ho.mergeItem (hr.values e he)
  rw [valueEntries_eq_mapValues, valueEntries_eq_mapValues,
    mergeMap_eq_update false (mergeMap false lhs rhs)]
  refine (Entries.map_update_eq_written_iff hmerged.sorted hr.sorted).2 fun k r hk => ?_
  have hitem : (mergeItem false (at? (lookup lhs k)) r).Ordered :=
    (hl.at? k).mergeItem (hr.lookup hk)
  refine ⟨mergeItem false (at? (lookup lhs k)) r, ?_, ?_⟩
  · rw [mergeMap_eq_update, Entries.lookup_update_some hl.sorted hr.sorted hk]
  · exact (value_mergeItem_eq_iff hitem (hr.lookup hk)).2
      (unchanged_mergeItem (hl.at? k) (hr.lookup hk))

/-- **`merge_map` leaves the overlay in the left map iff no storage that
does not count comes into it**; merging again changes nothing and the
right map stays as it is. -/
theorem merge_is_overlay_iff (c : MergeArgs) (hl : OrderedMap c.lhs) (hr : OrderedMap c.rhs) :
    (IsOverlay (valueEntries c.lhs) (valueEntries c.rhs) (valueEntries c.merge.lhs) ∧
        valueEntries c.merge.merge.lhs = valueEntries c.merge.lhs ∧ c.merge.rhs = c.rhs) ↔
      OverlayFits c.lhs c.rhs := by
  have hoverlay : IsOverlay (valueEntries c.lhs) (valueEntries c.rhs) (valueEntries c.merge.lhs) ↔
      OverlayFits c.lhs c.rhs := by
    rw [MergeArgs.merge, mergeMap_eq_update, valueEntries_eq_mapValues, valueEntries_eq_mapValues,
      valueEntries_eq_mapValues, isOverlay_update_iff hl hr]
    exact forall₃_congr fun k r hk => overlayAt_mergeItem_iff (hl.at? k) (hr.lookup hk)
  constructor
  · rintro ⟨h, -, -⟩
    exact hoverlay.1 h
  · intro h
    exact ⟨hoverlay.2 h, values_merge_merge hl hr, rfl⟩

/-- A configuration that says one of two things the defaults say, and has a
null variant for a map of theirs. -/
theorem merge_is_overlay_iff_sample : IsOverlay (valueEntries [("http", null), ("mode", ofInt 2)])
      (valueEntries [("http", ofPairs [("compress", ofBool true)]), ("mode", ofInt 0)])
      (valueEntries (MergeArgs.merge ⟨[("http", null), ("mode", ofInt 2)],
        [("http", ofPairs [("compress", ofBool true)]), ("mode", ofInt 0)]⟩).lhs) := by
  have hpairs : (ofPairs [("compress", ofBool true)]).Fresh := .pairs (by simpa using .bool true)
  have hl : OrderedMap [("http", null), ("mode", ofInt 2)] :=
    ⟨by unfold Entries.Sorted; decide +kernel,
      by simpa using ⟨Fresh.null.ordered, (Fresh.int 2).ordered⟩⟩
  have hr : OrderedMap [("http", ofPairs [("compress", ofBool true)]), ("mode", ofInt 0)] :=
    ⟨by unfold Entries.Sorted; decide +kernel,
      by simpa using ⟨hpairs.ordered, (Fresh.int 0).ordered⟩⟩
  refine ((merge_is_overlay_iff ⟨_, _⟩ hl hr).2 fun k r hk => ?_).1
  rcases List.mem_pair.1 (Entries.mem_of_lookup hk) with h | h <;> cases h
  · refine .null rfl (.obj rfl (fun k _ => rfl) fun k w' hk => ?_)
    have hmem : (k, w') ∈ [("compress", null.assign (ofBool true))] := Entries.mem_of_lookup hk
    cases List.mem_singleton.1 hmem
    exact .scalar (by decide) (by decide)
  · exact .scalar (by decide) (by decide)

/-- **A key named twice brings back a map.** The defaults name `a` first as
a map and then as a number; the number is what they say, and merged under
a configuration where `a` is a map the key of the first map appears. -/
theorem repeated_key_comes_through : (ofPairs [("a", ofPairs [("y", ofInt 2)])]).Fresh ∧
    (ofPairs [("a", ofPairs [("x", ofInt 1)]), ("a", ofInt 5)]).Fresh ∧
    ¬ IsOverlay (valueEntries [("cfg", ofPairs [("a", ofPairs [("y", ofInt 2)])])])
      (valueEntries [("cfg", ofPairs [("a", ofPairs [("x", ofInt 1)]), ("a", ofInt 5)])])
      (valueEntries (MergeArgs.merge ⟨[("cfg", ofPairs [("a", ofPairs [("y", ofInt 2)])])],
          [("cfg", ofPairs [("a", ofPairs [("x", ofInt 1)]), ("a", ofInt 5)])]⟩).lhs) := by
  refine ⟨.pairs (by simpa using .pairs (by simpa using .int 2)),
    .pairs (by simpa using ⟨.pairs (by simpa using .int 1), .int 5⟩), ?_⟩
  intro h
  have hcfg := overlayAt_merged_iff.1 (h "cfg")
  have ha := (overlayAt_kept_iff (fun m hm => by cases hm)).1 (hcfg "a")
  exact absurd (congrArg List.length ha) (by decide +kernel)

end Variant

end ClientTelemetry
