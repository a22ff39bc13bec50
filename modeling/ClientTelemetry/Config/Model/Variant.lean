import ClientTelemetry.Common.Entries
/-!
# Configuration values

`Variant` is the dynamically typed value a configuration is a tree of. It
keeps separate storage for each kind of value — the union, the string, the
map, the array — and a type tag that says which of them counts. Reading
goes by the tag; writing changes the tag and the storage of the new kind,
and leaves the storage of the others as it is.

A map is the list of its entries in key order, as `std::map` walks them.
`mV[k] = v` finds the value under the key, or puts a fresh null variant
there, and assigns to it.
-/

namespace ClientTelemetry

/-- `Variant::Type`. -/
inductive VariantType where
  | null
  | int
  | double
  | string
  | string2
  | bool
  | obj
  | arr
  | ptr
  deriving DecidableEq, Repr

/-- The anonymous union, with the member that was written last. A C string
is the text at its address, a double its bits. -/
inductive VariantUnion where
  /-- The constructors from maps and arrays write no member. -/
  | unset
  | iV (i : ℤ)
  | dV (bits : BitVec 64)
  | sV (s : Option String)
  | bV (b : Bool)
  | pV (p : ℕ)
  deriving DecidableEq, Repr

namespace VariantUnion

/-- The integer member. -/
def toInt : VariantUnion → ℤ
  | iV i => i
  | _ => 0

/-- The floating point member. -/
def toDouble : VariantUnion → BitVec 64
  | dV bits => bits
  | _ => 0

/-- The C string member, read as `(sV) ? sV : ""`. -/
def toText : VariantUnion → String
  | sV (some s) => s
  | _ => ""

/-- The boolean member. -/
def toBool : VariantUnion → Bool
  | bV b => b
  | _ => false

/-- The pointer member. -/
def toPtr : VariantUnion → ℕ
  | pV p => p
  | _ => 0

end VariantUnion

/-- **A variant**: the tag, and the storage of every kind. -/
structure Variant where
  /-- Which storage counts. -/
  type : VariantType
  /-- The members of the union. -/
  scalar : VariantUnion
  /-- The owned string. -/
  SV : String
  /-- The map, in key order. -/
  mV : List (String × Variant)
  /-- The array. -/
  aV : List Variant

/-- `VariantMap`, a `std::map` from strings. -/
abbrev VariantMap := List (String × Variant)

/-- `VariantArray`, a `std::vector`. -/
abbrev VariantArray := List Variant

namespace Variant

/-! ## Constructors -/

/-- `Variant()`. -/
def null : Variant := ⟨.null, .iV 0, "", [], []⟩

/-- `mV[k]` before anything is written there: the value under the key, a
fresh null variant if there is none. -/
def at? (o : Option Variant) : Variant := o.getD null

mutual

/-- `Variant::assign`. The old map is written over key by key; the old
array is left where it is. -/
def assign (v : Variant) : Variant → Variant
  | ⟨type, scalar, SV, mV, _⟩ =>
    match type with
    | .null => { v with type := .null, scalar := .iV 0 }
    | .int => { v with type := .int, scalar := .iV scalar.toInt }
    | .double => { v with type := .double, scalar := .dV scalar.toDouble }
    | .string => { v with type := .string2, SV := scalar.toText }
    | .string2 => { v with type := .string2, SV := SV }
    | .bool => { v with type := .bool, scalar := .bV scalar.toBool }
    | .ptr => { v with type := .ptr, scalar := .pV scalar.toPtr }
    | .obj => { v with type := .obj, mV := assignEntries v.mV mV }
    | .arr => { v with type := .arr }
termination_by structural w => w

/-- The loop `for (kv : other) mV[kv.first] = kv.second`. -/
def assignEntries (mV : VariantMap) : VariantMap → VariantMap
  | [] => mV
  | (k, w) :: rest =>
    assignEntries (OrdMap.insertEntry k (assign (at? (Entries.lookup mV k)) w) mV) rest
termination_by structural other => other

end

/-- The constructors from the integer types, all kept in an `int64_t`. -/
def ofInt (i : ℤ) : Variant := { null with type := .int, scalar := .iV (Int.bmod i (2 ^ 64)) }

/-- `Variant(bool)`. -/
def ofBool (b : Bool) : Variant := { null with type := .bool, scalar := .bV b }

/-- `Variant(const char*)`: only the address is kept. -/
def ofCString (s : Option String) : Variant := { null with type := .string, scalar := .sV s }

/-- `Variant(std::string)`. -/
def ofString (s : String) : Variant :=
  { null with type := .string2, scalar := .sV (some s), SV := s }

/-- `Variant(VariantMap&)`: a fresh map, assigned key by key. -/
def ofMap (m : VariantMap) : Variant :=
  { null with type := .obj, scalar := .unset, mV := assignEntries [] m }

/-- `Variant(VariantMap&&)`: the map itself. -/
def ofMapMoved (m : VariantMap) : Variant :=
  { null with type := .obj, scalar := .unset, mV := m }

/-- The constructor from an initializer list of pairs, in any order and
with keys that may repeat. -/
def ofPairs (l : List (String × Variant)) : Variant :=
  { null with type := .obj, scalar := .unset, mV := assignEntries [] l }

/-- The constructors from arrays, and `from_array`. -/
def ofArray (a : VariantArray) : Variant :=
  { null with type := .arr, scalar := .unset, aV := a }

/-- What `operator []` and `operator ()` take. -/
inductive Subscript where
  | key (k : String)
  | index (i : ℕ)

/-- `v[k](i)… = w`. A null variant before a key becomes a map with a null
variant under the key. On anything else that is no map, or no array, the
subscript answers the constant null variant, which is not part of `v`. An
index beyond the array has no defined meaning. -/
def assignAt (v : Variant) : List Subscript → Variant → Variant
  | [], w => v.assign w
  | .key k :: path, w =>
    match v.type with
    | .obj => { v with
        mV := OrdMap.insertEntry k (assignAt (at? (Entries.lookup v.mV k)) path w) v.mV }
    | .null => { v with
        type := .obj,
        mV := OrdMap.insertEntry k
          (assignAt ((at? (Entries.lookup v.mV k)).assign null) path w) v.mV }
    | _ => v
  | .index i :: path, w =>
    match v.type, v.aV[i]? with
    | .arr, some x => { v with aV := v.aV.set i (assignAt x path w) }
    | _, _ => v

/-! ## Merging -/

mutual

/-- `Variant::merge_map`: every key of the right map is looked up in the
left one, which puts a null variant there if it was missing. -/
def mergeMap (overwrite : Bool) (lhs : VariantMap) : VariantMap → VariantMap
  | [] => lhs
  | (k, item) :: rest =>
    mergeMap overwrite
      (OrdMap.insertEntry k (mergeItem overwrite (at? (Entries.lookup lhs k)) item) lhs) rest
termination_by structural rhs => rhs

/-- What the loop of `merge_map` does to one left item. The right item's
map is taken whatever its type. -/
def mergeItem (overwrite : Bool) (item : Variant) : Variant → Variant
  | ⟨type, scalar, SV, mV, aV⟩ =>
    if item.type = .obj then { item with mV := mergeMap overwrite item.mV mV }
    else if item.type = .null ∨ overwrite = true then item.assign ⟨type, scalar, SV, mV, aV⟩
    else item
termination_by structural rhs => rhs

end

end Variant

/-- The two maps of a call of `merge_map`. -/
structure MergeArgs where
  lhs : VariantMap
  rhs : VariantMap

/-- The call without `overwrite`, as the constructor of
`RuntimeConfig_Default` makes it: the left map is written, the right one
only read. -/
def MergeArgs.merge (c : MergeArgs) : MergeArgs :=
  { c with lhs := Variant.mergeMap false c.lhs c.rhs }

/-! ## Values -/

/-- **What a variant says**, as a reader that goes by the type tag sees it:
the two string types are one. -/
inductive VariantValue where
  | null
  | int (i : ℤ)
  | double (bits : BitVec 64)
  | string (s : String)
  | bool (b : Bool)
  | obj (m : List (String × VariantValue))
  | arr (a : List VariantValue)
  | ptr (p : ℕ)

namespace Variant

mutual

/-- The value of a tree. -/
def value : Variant → VariantValue
  | ⟨type, scalar, SV, mV, aV⟩ =>
    match type with
    | .null => .null
    | .int => .int scalar.toInt
    | .double => .double scalar.toDouble
    | .string => .string scalar.toText
    | .string2 => .string SV
    | .bool => .bool scalar.toBool
    | .ptr => .ptr scalar.toPtr
    | .obj => .obj (valueEntries mV)
    | .arr => .arr (valueElements aV)

/-- The values of a map, under its keys. -/
def valueEntries : VariantMap → List (String × VariantValue)
  | [] => []
  | (k, v) :: rest => (k, value v) :: valueEntries rest

/-- The values of an array. -/
def valueElements : VariantArray → List VariantValue
  | [] => []
  | v :: rest => value v :: valueElements rest

end

/-! ## The trees there are -/

/-- **Every map of the tree is in key order**, the storage that does not
count included. -/
inductive Ordered : Variant → Prop
  | mk {v : Variant} : Entries.Sorted v.mV → (∀ e ∈ v.mV, Ordered e.2) → (∀ x ∈ v.aV, Ordered x) →
      Ordered v

/-- A map in key order of trees in key order. -/
structure OrderedMap (m : VariantMap) : Prop where
  sorted : Entries.Sorted m
  values : ∀ e ∈ m, Ordered e.2

/-- **Built by the public constructors**, from values that were. -/
inductive Fresh : Variant → Prop
  | null : Fresh null
  | int (i : ℤ) : Fresh (ofInt i)
  | bool (b : Bool) : Fresh (ofBool b)
  | cString (s : Option String) : Fresh (ofCString s)
  | string (s : String) : Fresh (ofString s)
  | map {m : VariantMap} : Entries.Sorted m → (∀ e ∈ m, Fresh e.2) → Fresh (ofMap m)
  | mapMoved {m : VariantMap} : Entries.Sorted m → (∀ e ∈ m, Fresh e.2) → Fresh (ofMapMoved m)
  | pairs {l : List (String × Variant)} : (∀ e ∈ l, Fresh e.2) → Fresh (ofPairs l)
  | array {a : VariantArray} : (∀ x ∈ a, Fresh x) → Fresh (ofArray a)

/-- **Built by the public constructors, with any assignments since**, to
the whole variant or through subscripts. -/
inductive Built : Variant → Prop
  | fresh {v : Variant} : Fresh v → Built v
  | assignAt {v w : Variant} (path : List Subscript) : Built v → Built w → Built (v.assignAt path w)

end Variant

end ClientTelemetry
