import ClientTelemetry.Api.Model.CorrelationVector
/-!
# Correlation vectors stay valid

A vector in use has a base of well-formed groups, a counter of 32 bits,
and a value no longer than its version allows (`Valid`). Such a vector is
what its own value is parsed to (`setValue_getValue`). Along a run the
values returned so far have fewer groups than the present one, or its
groups with a counter that is not larger (`Behind`); a raised counter or
one more group is therefore new.
-/

namespace ClientTelemetry

open List

/-! ## Groups between dots -/

theorem splitString_append (base : String) {text : String} (htext : '.' ∉ text.toList) :
    splitString (base ++ "." ++ text) '.' =
      (base.toList.splitOn '.').map String.ofList ++ [text] := by
  have hlist : (base ++ "." ++ text).toList = base.toList ++ '.' :: text.toList := by
    simp [String.toList_append]
  have hne : base ++ "." ++ text ≠ "" := by
    intro h
    rw [h] at hlist
    simp at hlist
  rw [splitString, if_neg hne, hlist, splitOn_append_cons_self,
    splitOn_eq_singleton htext]
  simp

theorem splitString_of_ne {base : String} (h : base ≠ "") :
    splitString base '.' = (base.toList.splitOn '.').map String.ofList := if_neg h

/-- A text of one group is that group. -/
theorem eq_of_splitString_eq_singleton {s part : String} {c : Char}
    (h : splitString s c = [part]) : part = s := by
  unfold splitString at h
  split_ifs at h with hs
  obtain ⟨piece, hpiece, rfl⟩ := map_eq_singleton_iff.1 h
  have hjoin : [c].intercalate (s.toList.splitOn c) = s.toList := intercalate_splitOn c
  rw [hpiece, intercalate_singleton] at hjoin
  rw [hjoin, String.ofList_toList]

namespace CorrelationVector

variable {v : CorrelationVector} {w : LongWidth} {cv base text : String} {n : ℕ} {m : ℕ}

theorem dot_notMem_toString (n : ℕ) : '.' ∉ (toString n).toList := fun h =>
  absurd (isDigit_of_mem_toString h) (by decide)

@[simp] theorem toList_value (base text : String) :
    (base ++ "." ++ text).toList = base.toList ++ '.' :: text.toList := by
  simp [String.toList_append]

theorem afterLastDot_value (h : '.' ∉ text.toList) :
    afterLastDot (base ++ "." ++ text) = text := by
  have htake : (text.toList.reverse ++ '.' :: base.toList.reverse).takeWhile (· ≠ '.') =
      text.toList.reverse := by
    rw [takeWhile_append_of_pos]
    · simp
    · intro c hc
      simpa using ne_of_mem_of_not_mem (mem_reverse.1 hc) h
  rw [afterLastDot, toList_value, List.rtakeWhile, reverse_append, reverse_cons,
    append_assoc, singleton_append, htake, reverse_reverse, String.ofList_toList]

theorem beforeLastDot_value (h : '.' ∉ text.toList) :
    beforeLastDot (base ++ "." ++ text) = base := by
  have hdrop : (text.toList.reverse ++ '.' :: base.toList.reverse).dropWhile (· ≠ '.') =
      '.' :: base.toList.reverse := by
    rw [dropWhile_append_of_pos]
    · simp
    · intro c hc
      simpa using ne_of_mem_of_not_mem (mem_reverse.1 hc) h
  rw [beforeLastDot, toList_value, List.rdropWhile, reverse_append, reverse_cons,
    append_assoc, singleton_append, hdrop, reverse_cons, reverse_reverse,
    dropLast_concat, String.ofList_toList]

/-- **A text with a dot** is what stands before the last one and what
stands behind it. -/
theorem eq_value_of_mem (h : '.' ∈ cv.toList) :
    cv = beforeLastDot cv ++ "." ++ afterLastDot cv ∧ '.' ∉ (afterLastDot cv).toList := by
  have hafter : '.' ∉ cv.toList.rtakeWhile (· ≠ '.') := by
    intro hmem
    simpa using mem_rtakeWhile_imp hmem
  have hne : cv.toList.rdropWhile (· ≠ '.') ≠ [] := by
    intro hnil
    simpa using rdropWhile_eq_nil_iff.1 hnil '.' h
  have hlast : (cv.toList.rdropWhile (· ≠ '.')).getLast hne = '.' := by
    simpa using rdropWhile_last_not _ _ hne
  have hbefore := dropLast_append_getLast hne
  rw [hlast] at hbefore
  refine ⟨String.toList_inj.1 ?_, by simpa [afterLastDot] using hafter⟩
  rw [toList_value, beforeLastDot, afterLastDot, String.toList_ofList, String.toList_ofList]
  calc cv.toList
      = cv.toList.rdropWhile (· ≠ '.') ++ cv.toList.rtakeWhile (· ≠ '.') :=
        rdropWhile_append_rtakeWhile.symm
    _ = ((cv.toList.rdropWhile (· ≠ '.')).dropLast ++ ['.']) ++
          cv.toList.rtakeWhile (· ≠ '.') := by rw [hbefore]
    _ = _ := by rw [append_assoc, singleton_append]

/-! ## Elements -/

theorem mem_base10CharSet {c : Char} : c ∈ base10CharSet.toList ↔ c.isDigit = true := by
  constructor
  · intro h
    have hall : base10CharSet.toList.all Char.isDigit = true := rfl
    exact all_eq_true.1 hall c h
  · intro h
    have hrange := toNat_le_of_isDigit h
    have hc : c = Char.ofNat c.toNat := (Char.ofNat_toNat c).symm
    have hall : ∀ i, i ≤ 9 → Char.ofNat ('0'.toNat + i) ∈ base10CharSet.toList := by
      decide +kernel
    have hmem := hall (c.toNat - '0'.toNat) (by omega)
    rwa [Nat.add_sub_cancel' hrange.1, ← hc] at hmem

theorem isElement_iff :
    isElement text = true ↔ text.toList ≠ [] ∧ ∀ c ∈ text.toList, c.isDigit = true := by
  simp only [isElement, areAllCharactersWhitelisted, Bool.and_eq_true, all_eq_true,
    contains_iff_mem, mem_base10CharSet, Bool.not_eq_true', beq_eq_false_iff_ne,
    ← String.length_toList, ne_eq, length_eq_zero_iff]

theorem isElement_toString (n : ℕ) : isElement (toString n) = true :=
  isElement_iff.2 ⟨toList_toString_ne_nil n, fun _ => isDigit_of_mem_toString⟩

theorem partsLimit_append {parts : List String} (hne : parts ≠ []) :
    partsLimit (parts ++ [text]) = if isElement text then partsLimit parts else none := by
  obtain ⟨first, rest, rfl⟩ := exists_cons_of_ne_nil hne
  simp only [cons_append, partsLimit, all_append, all_cons, all_nil,
    Bool.and_true, Bool.and_eq_true]
  by_cases htext : isElement text = true
  · simp [htext]
  · simp [htext]

/-- The text a group is compared with stands for the largest counter. -/
theorem digitsValue_maxVectorElementValue :
    digitsValue maxVectorElementValue.toList = unsignedMax := by
  decide +kernel

/-- **A group is read as the number it stands for.** -/
theorem parseElement_eq (w : LongWidth) (helem : isElement text = true)
    (hlen : text.length ≤ maxVectorElementValue.length)
    (hmax : digitsValue text.toList ≤ unsignedMax) :
    parseElement w text = some (digitsValue text.toList) := by
  obtain ⟨hne, hdigits⟩ := isElement_iff.1 helem
  have hulong : unsignedMax ≤ w.ulongMax := by cases w <;> decide
  have hread : stoul w text = .ok (digitsValue text.toList) := by
    rw [stoul_of_digits w hne hdigits, if_neg (by omega)]
  unfold parseElement
  rw [if_neg, hread]
  · exact if_neg (by omega)
  · rintro (hzero | hlong | ⟨heq, hlt⟩)
    · rw [← String.length_toList, length_eq_zero_iff] at hzero
      exact hne hzero
    · omega
    · -- a text of ten digits that is larger has a larger value
      have hall : maxVectorElementValue.toList.all Char.isDigit = true := rfl
      have hlarger := digitsValue_lt_of_lt (all_eq_true.1 hall) hdigits
        (by rw [String.length_toList, String.length_toList, heq]) hlt
      rw [digitsValue_maxVectorElementValue] at hlarger
      omega

/-- **A counter is read back.** -/
theorem parseElement_toString (w : LongWidth) (h : n ≤ unsignedMax) :
    parseElement w (toString n) = some n := by
  have hlen : (toString n).length ≤ maxVectorElementValue.length := by
    rw [length_toString]
    exact (Nat.length_toDigits_le_iff (by decide) (by decide)).2
      (lt_of_le_of_lt h (by decide))
  have hread := parseElement_eq w (isElement_toString n) hlen (by rwa [digitsValue_toString])
  rwa [digitsValue_toString] at hread

theorem parseElement_spec (helem : isElement text = true) (h : parseElement w text = some n) :
    n = digitsValue text.toList ∧ n ≤ unsignedMax := by
  obtain ⟨hne, hdigits⟩ := isElement_iff.1 helem
  unfold parseElement at h
  split_ifs at h with hlong
  split at h
  next fault hfault => exact absurd h (by simp)
  next m hm =>
    split_ifs at h with hbig
    obtain rfl : m = n := by simpa using h
    rw [stoul_of_digits w hne hdigits] at hm
    split_ifs at hm with hoverflow
    exact ⟨by simpa using hm.symm, by omega⟩

/-! ## The length of a value -/

theorem countDigits_eq (turns value : ℕ) (hturns : value ≤ turns) (digitCount : ℕ) :
    countDigits turns value digitCount + 1 = digitCount + (Nat.toDigits 10 value).length := by
  induction turns generalizing value digitCount with
  | zero =>
    obtain rfl : value = 0 := by omega
    rfl
  | succ turns ih =>
    rw [countDigits]
    split_ifs with hbig
    · have hrest := ih (value / 10) (by omega) (digitCount + 1)
      have hdigits : Nat.toDigits 10 value = _ := Nat.toDigits_of_base_le (by decide) (by omega)
      rw [hdigits, length_append, length_singleton]
      omega
    · have hdigit : Nat.toDigits 10 value = _ := Nat.toDigits_of_lt_base (by omega)
      rw [hdigit, length_singleton]

/-- **The digits are counted as they are written.** -/
theorem getDigitCount_eq (n : ℕ) : getDigitCount n = (toString n).length := by
  have hcount := countDigits_eq n n le_rfl 1
  rw [length_toString, getDigitCount]
  omega

theorem length_getValue (h : v.isInitialized = true) :
    v.getValue.length = v.getLengthInternal v.currentVector := by
  rw [getValue, if_pos h, getLengthInternal, getDigitCount_eq, String.length_append,
    String.length_append]
  rfl

/-- **A vector in use.** -/
structure Valid (v : CorrelationVector) : Prop where
  /-- The base is well formed, and its first group tells the maximum. -/
  limit : partsLimit (splitString v.baseVector '.') = some v.maxLength
  counter : v.currentVector ≤ unsignedMax
  length : v.getLengthInternal v.currentVector ≤ v.maxLength

/-- The groups of a value: those of its base, and the last one. -/
theorem partsLimit_value (base : String) (htext : '.' ∉ text.toList) :
    partsLimit (splitString (base ++ "." ++ text) '.') =
      if isElement text then partsLimit (splitString base '.') else none := by
  rw [splitString_append base htext, partsLimit_append (by simp [splitOn_ne_nil])]
  by_cases hbase : base = ""
  · have hfirst : firstLimit "" = none := by decide
    simp [hbase, splitString, partsLimit, hfirst]
  · rw [splitString_of_ne hbase]

theorem limit_of_partsLimit {first : String} {rest : List String}
    (h : partsLimit (first :: rest) = some m) : first.length = baseCVLengthV1 ∧ m = maxCVLengthV1 ∨
      first.length = baseCVLengthV2 ∧ m = maxCVLengthV2 := by
  simp only [partsLimit, firstLimit] at h
  split_ifs at h with hrest hv1 hv2
  · exact .inl ⟨hv1.1, by simpa using h.symm⟩
  · exact .inr ⟨hv2.1, by simpa using h.symm⟩

theorem partsLimit_getValue (h : v.Valid) (hinit : v.isInitialized = true) :
    partsLimit (splitString v.getValue '.') = some v.maxLength := by
  have hvalue : v.getValue = v.baseVector ++ "." ++ toString v.currentVector := if_pos hinit
  rw [hvalue, partsLimit_value _ (dot_notMem_toString _), if_pos (isElement_toString _), h.limit]

/-- **The value of a vector in use is parsed to that vector.** -/
theorem setValue_getValue (w : LongWidth) (u : CorrelationVector) (h : v.Valid)
    (hinit : v.isInitialized = true) : u.setValue w v.getValue = (true, v) := by
  have hdot := dot_notMem_toString v.currentVector
  have hvalue : v.getValue = v.baseVector ++ "." ++ toString v.currentVector := if_pos hinit
  have hlen : ¬v.getValue.length > v.maxLength := by
    rw [length_getValue hinit]
    exact Nat.not_lt.2 h.length
  obtain ⟨first, rest, hfirst⟩ := exists_cons_of_ne_nil (splitOn_ne_nil '.' v.baseVector.toList)
  have hparts : splitString v.getValue '.' = _ := hvalue ▸ splitString_append v.baseVector hdot
  simp only [setValue, partsLimit_getValue h hinit, if_neg hlen]
  split
  next part hone =>
    rw [hparts, hfirst] at hone
    simp at hone
  next =>
    rw [hvalue, afterLastDot_value hdot, beforeLastDot_value hdot,
      parseElement_toString w h.counter]
    simp [← hinit]

theorem valid_of_one (hone : splitString base '.' = [base])
    (hlimit : partsLimit (splitString base '.') = some m) : Valid ⟨true, base, 0, m⟩ := by
  refine ⟨hlimit, by simp, ?_⟩
  rw [hone] at hlimit
  have hzero : getDigitCount 0 = 1 := rfl
  simp only [getLengthInternal, hzero]
  rcases limit_of_partsLimit hlimit with ⟨hlen, rfl⟩ | ⟨hlen, rfl⟩ <;> rw [hlen] <;> decide

theorem dot_mem_of_many (hlimit : partsLimit (splitString cv '.') ≠ none)
    (hmany : ∀ part, splitString cv '.' ≠ [part]) : '.' ∈ cv.toList := by
  by_contra hdot
  have hcv : cv ≠ "" := by
    rintro rfl
    exact hlimit rfl
  apply hmany cv
  rw [splitString_of_ne hcv, splitOn_eq_singleton hdot]
  simp

theorem valid_of_value (htext : '.' ∉ text.toList)
    (hlimit : partsLimit (splitString (base ++ "." ++ text) '.') = some m)
    (hlen : (base ++ "." ++ text).length ≤ m) (hn : parseElement w text = some n) :
    Valid ⟨true, base, n, m⟩ := by
  rw [partsLimit_value base htext] at hlimit
  split_ifs at hlimit with helem
  obtain ⟨rfl, hmax⟩ := parseElement_spec helem hn
  obtain ⟨hne, hdigits⟩ := isElement_iff.1 helem
  refine ⟨hlimit, hmax, ?_⟩
  -- leading zeros only make the text longer than the counter
  have hdigit : (toString (digitsValue text.toList)).length ≤ text.length := by
    rw [length_toString, Nat.length_toDigits_le_iff (by decide)]
    · rw [← String.length_toList]
      exact digitsValue_lt hdigits
    · rw [← String.length_toList]
      exact length_pos_of_ne_nil hne
  have hone : ".".length = 1 := rfl
  rw [String.length_append, String.length_append, hone] at hlen
  simp only [getLengthInternal, getDigitCount_eq]
  omega

/-- **What `SetValue` can do.** -/
theorem setValue_cases (w : LongWidth) (v : CorrelationVector) (cv : String) :
    v.setValue w cv = (false, v) ∨
      ∃ v', v.setValue w cv = (true, v') ∧ v'.isInitialized = true ∧ v'.Valid := by
  unfold setValue
  simp only
  split
  next => exact .inl rfl
  next maxLength hlimit =>
    split_ifs with hlong
    · exact .inl rfl
    · split
      next part hone =>
        obtain rfl := eq_of_splitString_eq_singleton hone
        exact .inr ⟨_, rfl, rfl, valid_of_one hone hlimit⟩
      next hmany =>
        split
        next => exact .inl rfl
        next n hn =>
          obtain ⟨hvalue, hdot⟩ := eq_value_of_mem (dot_mem_of_many (by simp [hlimit]) hmany)
          refine .inr ⟨_, rfl, rfl, valid_of_value hdot (hvalue ▸ hlimit) ?_ hn⟩
          rw [← hvalue]
          omega

/-! ## The other calls -/

theorem mem_base64CharSet (i : Fin 64) :
    base64CharSet.toList.getD i 'A' ∈ base64CharSet.toList := by
  have hlen : base64CharSet.toList.length = 64 := rfl
  rw [getD_eq_getElem _ _ (by rw [hlen]; exact i.isLt)]
  exact getElem_mem _

theorem valid_of_drawn (draw : ℕ → Fin 64) {baseLength : ℕ}
    (h : baseLength = baseCVLengthV1 ∧ m = maxCVLengthV1 ∨
      baseLength = baseCVLengthV2 ∧ m = maxCVLengthV2) :
    Valid ⟨true, initializeInternal draw baseLength, 0, m⟩ := by
  have hlen : (initializeInternal draw baseLength).length = baseLength := by
    simp [initializeInternal]
  have hchars : ∀ c ∈ (initializeInternal draw baseLength).toList, c ∈ base64CharSet.toList := by
    intro c hc
    simp only [initializeInternal, String.toList_ofList, mem_map] at hc
    obtain ⟨i, -, rfl⟩ := hc
    exact mem_base64CharSet (draw i)
  have hdot : '.' ∉ (initializeInternal draw baseLength).toList := by
    intro hmem
    have hnot : base64CharSet.toList.contains '.' = false := rfl
    exact Bool.false_ne_true (hnot.symm.trans (contains_iff_mem.2 (hchars '.' hmem)))
  have hne : initializeInternal draw baseLength ≠ "" := by
    intro hempty
    rw [hempty] at hlen
    rcases h with ⟨rfl, -⟩ | ⟨rfl, -⟩ <;> exact absurd hlen (by decide)
  have hone : splitString (initializeInternal draw baseLength) '.' =
      [initializeInternal draw baseLength] := by
    rw [splitString_of_ne hne, splitOn_eq_singleton hdot]
    simp
  have hlisted : areAllCharactersWhitelisted (initializeInternal draw baseLength) base64CharSet =
      true := by
    simpa [areAllCharactersWhitelisted] using hchars
  refine valid_of_one hone ?_
  rw [hone]
  simp only [partsLimit, all_nil, if_true, firstLimit, hlen, hlisted, and_true]
  rcases h with ⟨rfl, rfl⟩ | ⟨rfl, rfl⟩ <;> rfl

/-- **What `Initialize` can do.** -/
theorem initializeWith_cases (v : CorrelationVector) (draw : ℕ → Fin 64) (version : ℤ) :
    v.initializeWith draw version = (false, v) ∨
      ∃ v', v.initializeWith draw version = (true, v') ∧ v'.isInitialized = true ∧ v'.Valid := by
  unfold initializeWith
  by_cases hother : version ≠ 1 ∧ version ≠ 2
  · exact .inl (if_pos hother)
  · rw [if_neg hother]
    refine .inr ⟨_, rfl, rfl, valid_of_drawn draw ?_⟩
    by_cases hone : version = 1
    · exact .inl ⟨if_pos hone, if_pos hone⟩
    · exact .inr ⟨if_neg hone, if_neg hone⟩

theorem isInitialized_of_canIncrement (h : v.canIncrement = true) : v.isInitialized = true := by
  simp only [canIncrement, Bool.and_eq_true] at h
  exact h.1.1

theorem isInitialized_of_canExtend (h : v.canExtend = true) : v.isInitialized = true := by
  simp only [canExtend, Bool.and_eq_true] at h
  exact h.1

theorem canIncrement_of_increment (h : v.increment.1 = true) : v.canIncrement = true := by
  by_contra hcan
  simp [CorrelationVector.increment, hcan] at h

theorem canExtend_of_extend (h : v.extend.1 = true) : v.canExtend = true := by
  by_contra hcan
  simp [CorrelationVector.extend, hcan] at h

theorem Valid.increment (h : v.Valid) (hcan : v.canIncrement = true) : v.increment.2.Valid := by
  simp only [CorrelationVector.increment, if_pos hcan]
  simp only [canIncrement, Bool.and_eq_true, Bool.not_eq_true', beq_eq_false_iff_ne,
    decide_eq_true_eq] at hcan
  have hcounter := h.counter
  exact ⟨h.limit, by simp only; omega, hcan.2⟩

theorem Valid.extend (h : v.Valid) (hcan : v.canExtend = true) : v.extend.2.Valid := by
  simp only [CorrelationVector.extend, if_pos hcan]
  simp only [canExtend, Bool.and_eq_true, decide_eq_true_eq] at hcan
  refine ⟨partsLimit_getValue h hcan.1, by simp, ?_⟩
  have hzero : getDigitCount 0 = 1 := rfl
  rw [← length_getValue hcan.1] at hcan
  simp only [getLengthInternal, hzero]
  omega

/-! ## Values behind the present one -/

/-- The number of dots. -/
def dots (text : String) : ℕ := text.toList.count '.'

theorem dots_value (base : String) (n : ℕ) : dots (base ++ "." ++ toString n) = dots base + 1 := by
  rw [dots, toList_value, count_append, count_cons_self,
    count_eq_zero.2 (dot_notMem_toString n)]
  rfl

theorem value_injective (h : base ++ "." ++ toString m = base ++ "." ++ toString n) :
    m = n := by
  have hlists := congrArg String.toList h
  rw [toList_value, toList_value] at hlists
  have hdigits := (List.cons.inj (append_cancel_left hlists)).2
  rw [← digitsValue_toString m, hdigits, digitsValue_toString]

/-- **A value the vector has passed, or has.** -/
def Behind (v : CorrelationVector) (text : String) : Prop :=
  dots text ≤ dots v.baseVector ∨
    ∃ n, n ≤ v.currentVector ∧ text = v.baseVector ++ "." ++ toString n

theorem behind_getValue (h : v.isInitialized = true) : v.Behind v.getValue :=
  .inr ⟨v.currentVector, le_rfl, if_pos h⟩

/-- A raised counter leaves all of them behind, and is none of them. -/
theorem Behind.increment (h : v.Behind text) (hcan : v.canIncrement = true) :
    v.increment.2.Behind text ∧ v.increment.2.getValue ≠ text := by
  have hinit := isInitialized_of_canIncrement hcan
  have hvalue : v.increment.2.getValue = v.baseVector ++ "." ++ toString (v.currentVector + 1) := by
    simp only [CorrelationVector.increment, if_pos hcan, getValue, if_pos hinit]
  simp only [CorrelationVector.increment, if_pos hcan] at hvalue ⊢
  rw [hvalue]
  rcases h with hdots | ⟨n, hn, rfl⟩
  · refine ⟨.inl hdots, ?_⟩
    rintro rfl
    rw [dots_value] at hdots
    omega
  · refine ⟨.inr ⟨n, Nat.le_succ_of_le hn, rfl⟩, fun heq => ?_⟩
    have := value_injective heq
    omega

/-- So does one more group. -/
theorem Behind.extend (h : v.Behind text) (hcan : v.canExtend = true) :
    v.extend.2.Behind text ∧ v.extend.2.getValue ≠ text := by
  have hinit := isInitialized_of_canExtend hcan
  have hbase : v.getValue = v.baseVector ++ "." ++ toString v.currentVector := if_pos hinit
  have hvalue : v.extend.2.getValue = v.getValue ++ "." ++ toString 0 := by
    simp only [CorrelationVector.extend, if_pos hcan, getValue, if_pos hinit]
  have hdots : dots text ≤ dots v.getValue := by
    rw [hbase, dots_value]
    rcases h with hdots | ⟨n, -, rfl⟩
    · omega
    · rw [dots_value]
  simp only [CorrelationVector.extend, if_pos hcan] at hvalue ⊢
  rw [hvalue]
  refine ⟨.inl hdots, ?_⟩
  rintro rfl
  rw [dots_value] at hdots
  omega

end CorrelationVector

/-! ## Runs -/

namespace CvRun

open CorrelationVector

variable {w : LongWidth} {s : CvRun}

/-- **What holds of a vector in use.** -/
structure Sound (s : CvRun) : Prop where
  valid : s.cv.isInitialized = true → s.cv.Valid
  behind : s.cv.isInitialized = true → ∀ text ∈ s.returned, s.cv.Behind text

/-- A vector that has just been given a base has returned nothing. -/
theorem sound_of_new {v : CorrelationVector} (h : v.Valid) : Sound ⟨v, []⟩ :=
  ⟨fun _ => h, fun _ _ htext => absurd htext not_mem_nil⟩

theorem Sound.increment (h : s.Sound) : Sound ⟨s.cv.increment.2, s.returned⟩ := by
  by_cases hcan : s.cv.canIncrement = true
  · have hinit := isInitialized_of_canIncrement hcan
    exact ⟨fun _ => (h.valid hinit).increment hcan,
      fun _ text htext => ((h.behind hinit text htext).increment hcan).1⟩
  · simpa only [CorrelationVector.increment, if_neg hcan] using h

theorem Sound.getValue (h : s.Sound) : Sound ⟨s.cv, s.cv.getValue :: s.returned⟩ := by
  refine ⟨h.valid, fun hinit text htext => ?_⟩
  rcases mem_cons.1 htext with rfl | htext
  · exact behind_getValue hinit
  · exact h.behind hinit text htext

theorem Sound.extend (h : s.Sound) : Sound ⟨s.cv.extend.2, s.returned⟩ := by
  by_cases hcan : s.cv.canExtend = true
  · have hinit := isInitialized_of_canExtend hcan
    exact ⟨fun _ => (h.valid hinit).extend hcan,
      fun _ text htext => ((h.behind hinit text htext).extend hcan).1⟩
  · simpa only [CorrelationVector.extend, if_neg hcan] using h

/-- **Every call keeps it.** -/
theorem Sound.step (h : s.Sound) (call : CvCall) : (s.step w call).Sound := by
  cases call with
  | initializeWith draw version =>
    simp only [CvRun.step]
    rcases initializeWith_cases s.cv draw version with hno | ⟨v', hyes, -, hvalid⟩
    · rw [hno]
      exact h
    · rw [hyes]
      exact sound_of_new hvalid
  | setValue cv =>
    simp only [CvRun.step]
    rcases setValue_cases w s.cv cv with hno | ⟨v', hyes, -, hvalid⟩
    · rw [hno]
      exact h
    · rw [hyes]
      exact sound_of_new hvalid
  | extend => exact h.extend
  | increment => exact h.increment
  | getValue => exact h.getValue
  | getNextValue => exact h.getValue.increment
  | uninit => exact ⟨fun hinit => absurd hinit (by simp [CvRun.step, uninit]),
      fun hinit => absurd hinit (by simp [CvRun.step, uninit])⟩

theorem sound_run (w : LongWidth) (calls : List CvCall) : (run (step w) initial calls).Sound :=
  run_preserves (fun _ call h => h.step call)
    ⟨fun hinit => absurd hinit (by decide), fun hinit => absurd hinit (by decide)⟩ calls

/-- **Correlation vectors stay valid.** Wherever any calls lead, a vector
in use has a value within the maximum of its version, and that value is
parsed to the same vector. A call that is refused changes nothing, and
one that is not yields a value that has not been returned since a base
was last set, nor is the present one. -/
theorem correlation_vector_valid (w : LongWidth) (calls : List CvCall) :
    let s := run (step w) initial calls
    (s.cv.isInitialized = true →
      s.cv.getValue.length ≤ s.cv.maxLength ∧
      (∃ first rest, splitString s.cv.getValue '.' = first :: rest ∧
        (first.length = baseCVLengthV1 ∧ s.cv.maxLength = maxCVLengthV1 ∨
          first.length = baseCVLengthV2 ∧ s.cv.maxLength = maxCVLengthV2)) ∧
      ({} : CorrelationVector).setValue w s.cv.getValue = (true, s.cv)) ∧
    (∀ cv, (s.cv.setValue w cv).1 = false → (s.cv.setValue w cv).2 = s.cv) ∧
    (s.cv.extend.1 = false → s.cv.extend.2 = s.cv) ∧
    (s.cv.increment.1 = false → s.cv.increment.2 = s.cv) ∧
    (s.cv.extend.1 = true → s.cv.extend.2.getValue ∉ s.cv.getValue :: s.returned) ∧
    (s.cv.increment.1 = true → s.cv.increment.2.getValue ∉ s.cv.getValue :: s.returned) := by
  intro s
  have hs : s.Sound := sound_run w calls
  refine ⟨fun hinit => ⟨?_, ?_, ?_⟩, fun cv hno => ?_, ?_, ?_, fun hyes => ?_, fun hyes => ?_⟩
  · rw [length_getValue hinit]
    exact (hs.valid hinit).length
  · have hlimit := partsLimit_getValue (hs.valid hinit) hinit
    obtain ⟨first, rest, hparts⟩ := exists_cons_of_ne_nil
      (l := splitString s.cv.getValue '.') (by rintro hnil; simp [hnil, partsLimit] at hlimit)
    exact ⟨first, rest, hparts, limit_of_partsLimit (hparts ▸ hlimit)⟩
  · exact setValue_getValue w {} (hs.valid hinit) hinit
  · rcases setValue_cases w s.cv cv with hcase | ⟨v', hcase, -⟩
    · rw [hcase]
    · rw [hcase] at hno
      simp at hno
  · unfold CorrelationVector.extend
    split_ifs <;> simp
  · unfold CorrelationVector.increment
    split_ifs <;> simp
  · have hcan := canExtend_of_extend hyes
    have hinit := isInitialized_of_canExtend hcan
    exact fun hmem => ((hs.getValue.behind hinit _ hmem).extend hcan).2 rfl
  · have hcan := canIncrement_of_increment hyes
    have hinit := isInitialized_of_canIncrement hcan
    exact fun hmem => ((hs.getValue.behind hinit _ hmem).increment hcan).2 rfl

/-- A vector received with leading zeros, extended and used once. -/
def usedCalls : List CvCall := [.setValue "AAAAAAAAAAAAAAAA.007", .extend, .getNextValue]

theorem correlation_vector_valid_used :
    (run (step .bits32) initial usedCalls).cv.getValue = "AAAAAAAAAAAAAAAA.7.1" ∧
      ({} : CorrelationVector).setValue .bits32 "AAAAAAAAAAAAAAAA.7.1" =
        (true, (run (step .bits32) initial usedCalls).cv) ∧
      (run (step .bits32) initial usedCalls).cv.increment.2.getValue ∉
        ["AAAAAAAAAAAAAAAA.7.1", "AAAAAAAAAAAAAAAA.7.0"] := by
  have hvalue : (run (step .bits32) initial usedCalls).cv.getValue = "AAAAAAAAAAAAAAAA.7.1" := by
    decide +kernel
  have hreturned : (run (step .bits32) initial usedCalls).returned = ["AAAAAAAAAAAAAAAA.7.0"] := by
    decide +kernel
  have hvalid := correlation_vector_valid .bits32 usedCalls
  simp only [hvalue, hreturned] at hvalid
  exact ⟨hvalue, (hvalid.1 (by decide +kernel)).2.2, hvalid.2.2.2.2.2 (by decide +kernel)⟩

end CvRun

end ClientTelemetry
