import ClientTelemetry.Config.Helpers.Variant
/-!
# What an assignment copies

An assignment changes the type of a variant and writes the storage of the
new kind. Scalars and strings are replaced. A map is written over key by
key, so the keys it had before are still there; an array is not written at
all, so the one from before counts again. **After `v = w` the two have the
same value exactly when what `v` kept from before happens to fit**
(`assign_copies_iff`): `Copies` says so of the two trees before the
assignment.
-/

namespace ClientTelemetry

namespace Variant

/-- **What is left in `v` does not show after `v = w`.** -/
inductive Copies : Variant → Variant → Prop
  /-- Scalars and strings bring their whole value. -/
  | scalar {v w : Variant} : w.type ≠ .obj → w.type ≠ .arr → Copies v w
  /-- The array of `v` has to say what the array of `w` says. -/
  | arr {v w : Variant} : w.type = .arr → v.aV.map value = w.aV.map value → Copies v w
  /-- The map of `v` may have no other keys, and what is under the keys of
  `w` must not show either. -/
  | obj {v w : Variant} : w.type = .obj →
      (∀ k, Entries.lookup w.mV k = none → Entries.lookup v.mV k = none) →
      (∀ k w', Entries.lookup w.mV k = some w' → Copies (at? (Entries.lookup v.mV k)) w') →
      Copies v w

variable {v w : Variant}

theorem copies_of_arr (h : w.type = .arr) :
    Copies v w ↔ v.aV.map value = w.aV.map value := by
  constructor
  · intro hc
    cases hc with
    | scalar _ harr => exact absurd h harr
    | arr _ hsame => exact hsame
    | obj hobj _ _ => rw [h] at hobj; cases hobj
  · exact .arr h

theorem copies_of_obj (h : w.type = .obj) :
    Copies v w ↔ (∀ k, Entries.lookup w.mV k = none → Entries.lookup v.mV k = none) ∧
      ∀ k w', Entries.lookup w.mV k = some w' → Copies (at? (Entries.lookup v.mV k)) w' := by
  constructor
  · intro hc
    cases hc with
    | scalar hobj _ => exact absurd h hobj
    | arr harr _ => rw [h] at harr; cases harr
    | obj _ hkeys hvalues => exact ⟨hkeys, hvalues⟩
  · rintro ⟨hkeys, hvalues⟩
    exact .obj h hkeys hvalues

/-- The value of `v` after `v = w`, for a map. -/
theorem value_assign_of_obj (h : w.type = .obj) : (v.assign w).value =
    .obj (Entries.mapValues value (Entries.update (fun o w => assign (at? o) w) v.mV w.mV)) := by
  rw [assign_of_obj h, value_of_obj rfl]

/-- The value is copied iff what is left does not show, for all trees whose
maps are in key order. -/
theorem value_assign_eq_iff (hv : v.Ordered) (hw : w.Ordered) :
    (v.assign w).value = w.value ↔ Copies v w := by
  induction w using induction_on generalizing v with
  | h w ih _ =>
    by_cases hobj : w.type = .obj
    · rw [value_assign_of_obj hobj, value_of_obj hobj, copies_of_obj hobj, VariantValue.obj.injEq,
        Entries.map_update_eq_walked_iff hv.map.sorted hw.map.sorted]
      refine and_congr_right fun _ => forall₃_congr fun k w' hk => ?_
      exact ih (k, w') (Entries.mem_of_lookup hk) (hv.map.at? k) (hw.map.lookup hk)
    · by_cases harr : w.type = .arr
      · rw [assign_of_arr harr, value_of_arr rfl, value_of_arr harr, copies_of_arr harr,
          VariantValue.arr.injEq]
      · exact ⟨fun _ => .scalar hobj harr, fun _ => value_assign_of_scalar hobj harr⟩

/-- **After `v = w` the value of `v` is the value of `w` iff what `v` kept
from before does not show**, for all trees the constructors and any
assignments can make. -/
theorem assign_copies_iff (v w : Variant) (hv : v.Built) (hw : w.Built) :
    (v.assign w).value = w.value ↔ Copies v w :=
  value_assign_eq_iff hv.ordered hw.ordered

/-- A map assigned to one that has no other keys. -/
theorem assign_copies_iff_same_keys :
    ((ofPairs [("a", ofInt 1)]).assign (ofPairs [("b", ofBool true), ("a", ofInt 2)])).value =
      (ofPairs [("b", ofBool true), ("a", ofInt 2)]).value := by
  have hv : (ofPairs [("a", ofInt 1)]).Fresh := .pairs (by simpa using .int 1)
  have hw : (ofPairs [("b", ofBool true), ("a", ofInt 2)]).Fresh :=
    .pairs (by simpa using ⟨.bool true, .int 2⟩)
  refine (assign_copies_iff _ _ (.fresh hv) (.fresh hw)).2 (.obj rfl ?_ ?_)
  · intro k hk
    by_cases ha : k = "a"
    · subst ha
      cases hk
    · exact Entries.lookup_cons_of_ne ha
  · -- both values of the map are scalars
    intro k w' hk
    have hmem : (k, w') ∈
        [("a", null.assign (ofInt 2)), ("b", null.assign (ofBool true))] :=
      Entries.mem_of_lookup hk
    rcases List.mem_pair.1 hmem with h | h <;> cases h <;> exact .scalar (by decide) (by decide)

/-- **An array is not copied, and the keys of an earlier map stay**: a null
variant assigned an array of one number is an empty array, and a map
assigned to another map leaves both keys. -/
theorem assignment_is_no_copy : (null.Fresh ∧ (ofArray [ofInt 1]).Fresh ∧
      (null.assign (ofArray [ofInt 1])).value ≠ (ofArray [ofInt 1]).value) ∧
    (ofPairs [("a", ofInt 1)]).Fresh ∧ (ofPairs [("b", ofInt 2)]).Fresh ∧
      ((ofPairs [("a", ofInt 1)]).assign (ofPairs [("b", ofInt 2)])).value ≠
        (ofPairs [("b", ofInt 2)]).value := by
  refine ⟨⟨.null, .array (by simpa using .int 1), ?_⟩, .pairs (by simpa using .int 1),
    .pairs (by simpa using .int 2), ?_⟩
  · intro h
    cases h
  · intro h
    have hlength := congrArg List.length (VariantValue.obj.inj h)
    exact absurd hlength (by decide +kernel)

end Variant

end ClientTelemetry
