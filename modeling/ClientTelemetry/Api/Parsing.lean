import ClientTelemetry.Api.CorrelationVector
/-!
# What a correlation vector is parsed from

The form of a correlation vector is stated apart from the parser: a base
of 16 or 22 base64 characters and groups of decimal digits behind dots
(`written`, `IsVector`). `SetValue` accepts exactly the texts of that form
(`setValue_written` in one direction, `isVector_of_setValue` in the
other). What it keeps of the last group is its number, so that the value
is the text again when that group has no leading zeros
(`toString_digitsValue_iff`).
-/

namespace ClientTelemetry

open List

/-! ## Numbers and their texts -/

/-- Texts of one length that stand for one number are the same. -/
theorem eq_of_digitsValue_eq {a b : List Char} (ha : ∀ c ∈ a, c.isDigit = true)
    (hb : ∀ c ∈ b, c.isDigit = true) (hlen : a.length = b.length)
    (hvalue : digitsValue a = digitsValue b) : a = b := by
  rcases lt_trichotomy a b with hlt | heq | hgt
  · exact absurd hvalue (digitsValue_lt_of_lt ha hb hlen hlt).ne
  · exact heq
  · exact absurd hvalue (digitsValue_lt_of_lt hb ha hlen.symm hgt).ne'

/-- The first digit of a number of more than one. -/
theorem head?_toString_ne_zero {n : ℕ} (h : n ≠ 0) : (toString n).toList.head? ≠ some '0' := by
  intro hzero
  obtain ⟨rest, hrest⟩ : ∃ rest, (toString n).toList = '0' :: rest :=
    head?_eq_some_iff.1 hzero
  have hdigits : ∀ c ∈ rest, c.isDigit = true := fun c hc =>
    isDigit_of_mem_toString (n := n) (hrest ▸ mem_cons_of_mem _ hc)
  have hvalue : digitsValue rest = n := by
    have hcons := digitsValue_cons '0' rest
    rw [← hrest, digitsValue_toString] at hcons
    simpa using hcons.symm
  -- without the zero the text would be shorter, and no shorter text will do
  have hlength : (Nat.toDigits 10 n).length ≤ rest.length := by
    rcases Nat.eq_zero_or_pos rest.length with hnil | hpos
    · rw [length_eq_zero_iff.1 hnil] at hvalue
      exact absurd hvalue.symm h
    · rw [Nat.length_toDigits_le_iff (by decide) hpos, ← hvalue]
      exact digitsValue_lt hdigits
  rw [← length_toString, ← String.length_toList, hrest, length_cons] at hlength
  omega

/-- **A text of digits is written back** if it has no leading zeros. -/
theorem toString_digitsValue_iff {text : String} (hne : text.toList ≠ [])
    (hdigits : ∀ c ∈ text.toList, c.isDigit = true) :
    toString (digitsValue text.toList) = text ↔ text = "0" ∨ text.toList.head? ≠ some '0' := by
  constructor
  · intro hback
    by_cases hzero : digitsValue text.toList = 0
    · rw [hzero] at hback
      exact .inl hback.symm
    · have hhead := head?_toString_ne_zero hzero
      rw [hback] at hhead
      exact .inr hhead
  · rintro (rfl | hhead)
    · decide
    · obtain ⟨c, rest, htext⟩ := exists_cons_of_ne_nil hne
      have hc := hdigits c (htext ▸ mem_cons_self)
      have hrest : ∀ d ∈ rest, d.isDigit = true := fun d hd =>
        hdigits d (htext ▸ mem_cons_of_mem _ hd)
      have hpos : '0'.toNat < c.toNat := by
        have hle := (toNat_le_of_isDigit hc).1
        refine lt_of_le_of_ne hle fun heq => hhead ?_
        rw [htext, head?_cons, ← Char.ofNat_toNat c, ← heq]
        rfl
      have hlower : 10 ^ rest.length ≤ digitsValue text.toList := by
        rw [htext, digitsValue_cons]
        exact le_trans (Nat.le_mul_of_pos_right _ (by omega)) (Nat.le_add_right _ _)
      have hlen : (toString (digitsValue text.toList)).toList.length = text.toList.length := by
        have hupper : (Nat.toDigits 10 (digitsValue text.toList)).length ≤ text.toList.length := by
          rw [Nat.length_toDigits_le_iff (by decide) (length_pos_of_ne_nil hne)]
          exact digitsValue_lt hdigits
        rw [String.length_toList, length_toString]
        refine le_antisymm hupper ?_
        by_contra hshort
        have hfew : (Nat.toDigits 10 (digitsValue text.toList)).length ≤ rest.length := by
          rw [htext, length_cons] at hshort
          rw [htext]
          omega
        rw [Nat.length_toDigits_le_iff (by decide)] at hfew
        · omega
        · rw [← length_toString, ← String.length_toList] at hfew
          exact lt_of_lt_of_le (length_pos_of_ne_nil (toList_toString_ne_nil _)) hfew
      exact String.toList_inj.1 (eq_of_digitsValue_eq (fun _ => isDigit_of_mem_toString) hdigits
        hlen (digitsValue_toString _))

namespace CorrelationVector

variable {v : CorrelationVector} {w : LongWidth} {s base text : String} {groups : List String}

/-! ## The form -/

/-- A base64 character. -/
def IsBase64 (c : Char) : Prop := c.isAlphanum = true ∨ c = '+' ∨ c = '/'

/-- A base and groups, each behind a dot. -/
def written (base : String) (groups : List String) : String :=
  groups.foldl (fun text group => text ++ "." ++ group) base

/-- **The form of a correlation vector.** -/
structure IsVector (base : String) (groups : List String) : Prop where
  base64 : ∀ c ∈ base.toList, IsBase64 c
  digits : ∀ group ∈ groups, group.toList ≠ [] ∧ ∀ c ∈ group.toList, c.isDigit = true
  /-- The last group is a counter of 32 bits in at most ten digits. -/
  last : ∀ group ∈ groups.getLast?, group.length ≤ 10 ∧ digitsValue group.toList ≤ 4294967295
  /-- The length of the base tells the maximum. -/
  length : base.length = 16 ∧ (written base groups).length ≤ 63 ∨
    base.length = 22 ∧ (written base groups).length ≤ 127

@[simp] theorem written_nil : written base [] = base := rfl

@[simp] theorem written_concat : written base (groups ++ [text]) = written base groups ++ "." ++ text := by
  simp [written]

/-- The set the parser tests the base with. -/
theorem mem_base64CharSet_iff {c : Char} : c ∈ base64CharSet.toList ↔ IsBase64 c := by
  constructor
  · have hall : base64CharSet.toList.all
        (fun c => c.isAlphanum || c == '+' || c == '/') = true := by decide +kernel
    intro h
    simpa [IsBase64, or_assoc] using all_eq_true.1 hall c h
  · -- a range of characters is listed when each of its numbers is
    have hrange : ∀ first count : ℕ,
        (∀ i ≤ count, Char.ofNat (first + i) ∈ base64CharSet.toList) →
        first ≤ c.toNat → c.toNat ≤ first + count → c ∈ base64CharSet.toList := by
      intro first count hlisted hfirst hlast
      have hmem := hlisted (c.toNat - first) (by omega)
      rwa [Nat.add_sub_cancel' hfirst, Char.ofNat_toNat] at hmem
    rintro (halphanum | rfl | rfl)
    · simp only [Char.isAlphanum, Char.isAlpha, Char.isUpper, Char.isLower, Char.isDigit,
        Bool.or_eq_true, Bool.and_eq_true, decide_eq_true_eq] at halphanum
      rcases halphanum with (⟨hfirst, hlast⟩ | ⟨hfirst, hlast⟩) | ⟨hfirst, hlast⟩
      · exact hrange 65 25 (by decide +kernel) hfirst hlast
      · exact hrange 97 25 (by decide +kernel) hfirst hlast
      · exact hrange 48 9 (by decide +kernel) hfirst hlast
    · decide +kernel
    · decide +kernel

theorem firstLimit_eq_some_iff {m : ℕ} : firstLimit base = some m ↔
    (∀ c ∈ base.toList, IsBase64 c) ∧
      (base.length = 16 ∧ m = 63 ∨ base.length = 22 ∧ m = 127) := by
  have hlisted : areAllCharactersWhitelisted base base64CharSet = true ↔
      ∀ c ∈ base.toList, IsBase64 c := by
    simp [areAllCharactersWhitelisted, mem_base64CharSet_iff]
  unfold firstLimit
  rw [← hlisted]
  by_cases hall : areAllCharactersWhitelisted base base64CharSet = true
  · by_cases hv1 : base.length = 16
    · simp [baseCVLengthV1, maxCVLengthV1, hv1, hall, eq_comm]
    · by_cases hv2 : base.length = 22 <;>
        simp [baseCVLengthV1, baseCVLengthV2, maxCVLengthV2, hv1, hv2, hall, eq_comm]
  · simp [hall]

/-- A base has no dot, and is one group. -/
theorem splitString_base (hbase : ∀ c ∈ base.toList, IsBase64 c) (hne : base ≠ "") :
    splitString base '.' = [base] := by
  have hdot : '.' ∉ base.toList := fun hmem => by
    have hnot : ¬IsBase64 '.' := by
      unfold IsBase64
      decide
    exact hnot (hbase '.' hmem)
  rw [splitString_of_ne hne, splitOn_eq_singleton hdot]
  simp

theorem dot_notMem_of_digits (h : ∀ c ∈ text.toList, c.isDigit = true) : '.' ∉ text.toList :=
  fun hmem => absurd (h '.' hmem) (by decide)

theorem partsLimit_written (base : String)
    (hdigits : ∀ group ∈ groups, group.toList ≠ [] ∧ ∀ c ∈ group.toList, c.isDigit = true) :
    partsLimit (splitString (written base groups) '.') = partsLimit (splitString base '.') := by
  induction groups using List.reverseRecOn with
  | nil => rfl
  | append_singleton groups group ih =>
    have hgroup := hdigits group (by simp)
    rw [written_concat, partsLimit_value _ (dot_notMem_of_digits hgroup.2),
      if_pos (isElement_iff.2 hgroup)]
    exact ih fun g hg => hdigits g (by simp [hg])

/-! ## What is accepted -/

theorem toList_written (base : String) (groups : List String) :
    (written base groups).toList = ['.'].intercalate ((base :: groups).map String.toList) := by
  induction groups generalizing base with
  | nil => simp
  | cons group groups ih =>
    have hwritten : written base (group :: groups) = written (base ++ "." ++ group) groups := rfl
    rw [hwritten, ih, map_cons, map_cons, map_cons, toList_value,
      intercalate_cons_cons]
    cases groups with
    | nil => simp
    | cons next groups =>
      rw [map_cons, intercalate_cons_cons, intercalate_cons_cons]
      simp

/-- The groups of a text put together again. -/
theorem eq_written_of_splitString {first : String} {rest : List String}
    (h : splitString s '.' = first :: rest) : s = written first rest := by
  have hs : s ≠ "" := by
    rintro rfl
    exact absurd h (by simp [splitString])
  have hparts : (splitString s '.').map String.toList = s.toList.splitOn '.' := by
    rw [splitString_of_ne hs, map_map]
    simp [Function.comp_def]
  refine String.toList_inj.1 ?_
  rw [toList_written, ← h, hparts, intercalate_splitOn]

/-- **A text that is accepted has the form.** -/
theorem isVector_of_setValue (h : (v.setValue w s).1 = true) :
    ∃ base groups, s = written base groups ∧ IsVector base groups := by
  unfold setValue at h
  simp only at h
  split at h
  next => exact absurd h (by simp)
  next m hlimit =>
    split_ifs at h with hlong
    obtain ⟨first, rest, hparts⟩ := exists_cons_of_ne_nil
      (l := splitString s '.') (by rintro hnil; simp [hnil, partsLimit] at hlimit)
    have hs := eq_written_of_splitString hparts
    rw [hparts, partsLimit] at hlimit
    split_ifs at hlimit with helements
    obtain ⟨hbase, hversion⟩ := firstLimit_eq_some_iff.1 hlimit
    have hdigits : ∀ group ∈ rest, group.toList ≠ [] ∧ ∀ c ∈ group.toList, c.isDigit = true :=
      fun group hgroup => isElement_iff.1 (all_eq_true.1 helements group hgroup)
    refine ⟨first, rest, hs, hbase, hdigits, fun group hlast => ?_, ?_⟩
    · -- the last group is what stands behind the last dot
      obtain ⟨front, rfl⟩ := getLast?_eq_some_iff.1 hlast
      rw [hparts] at h
      split at h
      next part hone => exact absurd hone (by simp)
      next =>
        rw [hs, written_concat, afterLastDot_value
          (dot_notMem_of_digits (hdigits group (by simp)).2)] at h
        split at h
        next => exact absurd h (by simp)
        next n hn =>
          obtain ⟨rfl, hmax⟩ := parseElement_spec (isElement_iff.2 (hdigits group (by simp))) hn
          refine ⟨?_, hmax⟩
          unfold parseElement at hn
          split_ifs at hn with hrange
          have hten : maxVectorElementValue.length = 10 := rfl
          omega
    · rw [← hs]
      rcases hversion with ⟨hlen, rfl⟩ | ⟨hlen, rfl⟩
      · exact .inl ⟨hlen, by omega⟩
      · exact .inr ⟨hlen, by omega⟩

/-! ## What is kept of it -/

/-- The value a text of the form is turned into. -/
def keptValue (base : String) (groups : List String) : String :=
  match groups.getLast? with
  | none => base ++ ".0"
  | some last => written base groups.dropLast ++ "." ++ toString (digitsValue last.toList)

/-- **A text of the form is accepted**, and this is what is kept of it. -/
theorem setValue_written (w : LongWidth) (v : CorrelationVector) (h : IsVector base groups) :
    (v.setValue w (written base groups)).1 = true ∧
      (v.setValue w (written base groups)).2.getValue = keptValue base groups := by
  have hne : base ≠ "" := by
    rintro rfl
    rcases h.length with ⟨hlen, -⟩ | ⟨hlen, -⟩ <;> exact absurd hlen (by decide)
  obtain ⟨m, hfirst, hlen⟩ : ∃ m, firstLimit base = some m ∧ (written base groups).length ≤ m := by
    rcases h.length with ⟨hbase, hlen⟩ | ⟨hbase, hlen⟩
    · exact ⟨63, firstLimit_eq_some_iff.2 ⟨h.base64, .inl ⟨hbase, rfl⟩⟩, hlen⟩
    · exact ⟨127, firstLimit_eq_some_iff.2 ⟨h.base64, .inr ⟨hbase, rfl⟩⟩, hlen⟩
  have hbase := splitString_base h.base64 hne
  have hlimit : partsLimit (splitString (written base groups) '.') = some m := by
    rw [partsLimit_written base h.digits, hbase]
    exact hfirst
  unfold setValue
  simp only [hlimit, if_neg (Nat.not_lt.2 hlen)]
  rcases eq_nil_or_concat groups with rfl | ⟨front, last, rfl⟩
  · have hzero : "." ++ toString 0 = ".0" := by decide
    simp only [written_nil, hbase, true_and, getValue, if_true, String.append_assoc, hzero]
    rfl
  · have hlast := h.last last (by simp)
    have hdigits := h.digits last (by simp)
    have hdot := dot_notMem_of_digits hdigits.2
    have hread : parseElement w last = _ :=
      parseElement_eq w (isElement_iff.2 hdigits) hlast.1 hlast.2
    split
    next part hone =>
      obtain ⟨first, rest, hfront⟩ := exists_cons_of_ne_nil
        (splitOn_ne_nil '.' (written base front).toList)
      rw [concat_eq_append, written_concat, splitString_append _ hdot, hfront] at hone
      simp at hone
    next =>
      simp only [concat_eq_append, written_concat, afterLastDot_value hdot,
        beforeLastDot_value hdot, hread]
      simp [getValue, keptValue]

/-- The last group is the number it stands for. -/
theorem keptValue_eq_iff (h : IsVector base groups) : keptValue base groups = written base groups ↔
      ∃ last ∈ groups.getLast?, last = "0" ∨ last.toList.head? ≠ some '0' := by
  rcases eq_nil_or_concat groups with rfl | ⟨front, last, rfl⟩
  · refine iff_of_false (fun heq => ?_) (by simp)
    have hlen := congrArg String.length heq
    simp [keptValue, String.length_append] at hlen
  · have hdigits := h.digits last (by simp)
    rw [concat_eq_append, written_concat]
    have hback : written base front ++ "." ++ toString (digitsValue last.toList) =
        written base front ++ "." ++ last ↔ toString (digitsValue last.toList) = last := by
      rw [← String.toList_inj, toList_value, toList_value, append_cancel_left_eq,
        List.cons.injEq, String.toList_inj]
      simp
    simp only [keptValue, getLast?_concat, dropLast_concat, hback,
      toString_digitsValue_iff hdigits.1 hdigits.2]
    simp

/-- **Parsing is exact.** `SetValue` accepts the texts of the form and no
others. What it then holds is the text, `.0` added to a bare base, and the
last group without leading zeros; so it is the text itself when there is
a last group, and that has none. -/
theorem parsing_exact (w : LongWidth) (v : CorrelationVector) (s : String) :
    ((v.setValue w s).1 = true ↔ ∃ base groups, s = written base groups ∧ IsVector base groups) ∧
    ∀ base groups, s = written base groups → IsVector base groups → (v.setValue w s).2.getValue =
        (match groups.getLast? with
        | none => s ++ ".0"
        | some last => written base groups.dropLast ++ "." ++ toString (digitsValue last.toList)) ∧
      ((v.setValue w s).2.getValue = s ↔
        ∃ last ∈ groups.getLast?, last = "0" ∨ last.toList.head? ≠ some '0') := by
  refine ⟨⟨isVector_of_setValue, ?_⟩, ?_⟩
  · rintro ⟨base, groups, rfl, hvector⟩
    exact (setValue_written w v hvector).1
  · rintro base groups rfl hvector
    rw [(setValue_written w v hvector).2]
    refine ⟨?_, keptValue_eq_iff hvector⟩
    unfold keptValue
    rcases eq_nil_or_concat groups with rfl | ⟨front, last, rfl⟩
    · rfl
    · simp

theorem parsing_exact_plain : ({} : CorrelationVector).setValue .bits64 "AAAAAAAAAAAAAAAA.0.42" =
        (true, ⟨true, "AAAAAAAAAAAAAAAA.0", 42, 63⟩) ∧
      (({} : CorrelationVector).setValue .bits64 "AAAAAAAAAAAAAAAA.0.42").2.getValue =
        "AAAAAAAAAAAAAAAA.0.42" := by
  have hlisted : areAllCharactersWhitelisted "AAAAAAAAAAAAAAAA" base64CharSet = true := by
    decide +kernel
  have helements : ["0", "42"].all isElement = true := by decide +kernel
  have hvector : IsVector "AAAAAAAAAAAAAAAA" ["0", "42"] :=
    ⟨fun c hc => mem_base64CharSet_iff.1 (contains_iff_mem.1 (all_eq_true.1 hlisted c hc)),
      fun group hgroup => isElement_iff.1 (all_eq_true.1 helements group hgroup),
      by decide +kernel, .inl (by decide +kernel)⟩
  exact ⟨by decide +kernel, ((parsing_exact .bits64 {} _).2 "AAAAAAAAAAAAAAAA" ["0", "42"]
    (by decide +kernel) hvector).2.2 ⟨"42", by decide +kernel⟩⟩

/-- Of a last group with leading zeros only the number is kept. -/
theorem leading_zeros_are_dropped : "AAAAAAAAAAAAAAAA.007" = written "AAAAAAAAAAAAAAAA" ["007"] ∧
      (({} : CorrelationVector).setValue .bits64 "AAAAAAAAAAAAAAAA.007").1 = true ∧
      (({} : CorrelationVector).setValue .bits64 "AAAAAAAAAAAAAAAA.007").2.getValue =
        "AAAAAAAAAAAAAAAA.7" ∧
      (({} : CorrelationVector).setValue .bits64 "AAAAAAAAAAAAAAAA.007").2.getValue ≠
        "AAAAAAAAAAAAAAAA.007" := by
  decide +kernel

end CorrelationVector

end ClientTelemetry
