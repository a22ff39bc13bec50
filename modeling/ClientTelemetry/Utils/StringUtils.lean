import ClientTelemetry.Offline.Model.KillSwitch
/-!
# Text

`StringUtils` and the pieces of the C library that read numbers: parts
between separators, sets of allowed characters, and decimal numbers as
they are written (`digitsValue_toString`). A `std::string` is the list of
its characters.
-/

namespace ClientTelemetry

open List

variable {c : Char}

/-- `StringUtils::SplitString`: the rest after the last separator is
always a part. -/
def splitString (s : String) (separator : Char) : List String :=
  if s = "" then [] else (s.toList.splitOn separator).map String.ofList

/-- `StringUtils::AreAllCharactersWhitelisted`. -/
def areAllCharactersWhitelisted (stringToTest whitelist : String) : Bool :=
  stringToTest.toList.all fun c => whitelist.toList.contains c

/-- The width of `long`. -/
inductive LongWidth where
  | bits32
  | bits64
  deriving DecidableEq, Repr

namespace LongWidth

/-- `LONG_MAX`. -/
def longMax : LongWidth → ℕ
  | bits32 => 2 ^ 31 - 1
  | bits64 => 2 ^ 63 - 1

/-- `LONG_MIN`. -/
def longMin (w : LongWidth) : ℤ := -(w.longMax : ℤ) - 1

/-- `ULONG_MAX`. -/
def ulongMax (w : LongWidth) : ℕ := 2 * w.longMax + 1

end LongWidth

/-- `std::stoul`: a minus sign negates in the unsigned type. -/
def stoul (w : LongWidth) (text : String) : Except Fault ℕ :=
  let body := text.toList.dropWhile isSpace
  let (negative, body) : Bool × List Char :=
    match body with
    | '-' :: rest => (true, rest)
    | '+' :: rest => (false, rest)
    | rest => (false, rest)
  let digits := body.takeWhile Char.isDigit
  if digits = [] then .error .invalidArgument
  else
    let n := digitsValue digits
    if w.ulongMax < n then .error .outOfRange
    else if negative then .ok ((w.ulongMax + 1 - n) % (w.ulongMax + 1))
    else .ok n

/-! ## Digits -/

/-- A digit is neither skipped as white space nor read as a sign. -/
theorem lexed_of_isDigit (h : c.isDigit = true) :
    isSpace c = false ∧ c ≠ '-' ∧ c ≠ '+' := by
  refine ⟨?_, by rintro rfl; exact absurd h (by decide), by rintro rfl; exact absurd h (by decide)⟩
  by_contra hspace
  simp only [isSpace, Bool.not_eq_false, Bool.or_eq_true, beq_iff_eq] at hspace
  rcases hspace with ((((rfl | rfl) | rfl) | rfl) | rfl) | rfl <;> exact absurd h (by decide)

/-- A text of digits is neither cut nor given a sign. -/
theorem dropWhile_isSpace_of_digits {text : List Char} (h : ∀ c ∈ text, c.isDigit = true) :
    text.dropWhile isSpace = text := by
  cases text with
  | nil => rfl
  | cons c rest =>
    exact dropWhile_cons_of_neg (by simp [(lexed_of_isDigit (h c mem_cons_self)).1])

/-- The time as it is written: decimal digits. -/
theorem isDigit_of_mem_toString {n : ℕ} (h : c ∈ (toString n).toList) :
    c.isDigit = true := by
  rw [Nat.toString_eq_repr, Nat.toList_repr] at h
  exact Nat.isDigit_of_mem_toDigits (by decide) (le_refl 10) h

theorem digitsValue_toString (n : ℕ) : digitsValue (toString n).toList = n := by
  rw [Nat.toString_eq_repr, Nat.toList_repr]
  exact Nat.ofDigitChars_toDigits (by decide) (le_refl 10)

theorem toList_toString_ne_nil (n : ℕ) : (toString n).toList ≠ [] := by
  rw [Nat.toString_eq_repr, Nat.toList_repr]
  exact Nat.toDigits_ne_nil

theorem digitsValue_cons (c : Char) (digits : List Char) :
    digitsValue (c :: digits) = 10 ^ digits.length * (c.toNat - '0'.toNat) + digitsValue digits := by
  change Nat.ofDigitChars 10 digits (10 * 0 + (c.toNat - '0'.toNat)) = _ + Nat.ofDigitChars 10 digits 0
  rw [Nat.ofDigitChars_eq_ofDigitChars_zero, Nat.mul_zero, Nat.zero_add]

theorem toNat_le_of_isDigit (h : c.isDigit = true) :
    '0'.toNat ≤ c.toNat ∧ c.toNat ≤ '0'.toNat + 9 := by
  simp only [Char.isDigit, Bool.and_eq_true, decide_eq_true_eq] at h
  exact ⟨h.1, h.2⟩

theorem digitsValue_lt {digits : List Char} (h : ∀ c ∈ digits, c.isDigit = true) :
    digitsValue digits < 10 ^ digits.length := by
  induction digits with
  | nil => decide
  | cons c digits ih =>
    have hrest := ih fun d hd => h d (mem_cons_of_mem c hd)
    have hc := toNat_le_of_isDigit (h c mem_cons_self)
    have hmul : 10 ^ digits.length * (c.toNat - '0'.toNat) ≤ 10 ^ digits.length * 9 :=
      Nat.mul_le_mul_left _ (by omega)
    rw [digitsValue_cons, length_cons, pow_succ]
    omega

/-- **Numbers of one length compare as their texts do.** -/
theorem digitsValue_lt_of_lt {a b : List Char} (ha : ∀ c ∈ a, c.isDigit = true)
    (hb : ∀ c ∈ b, c.isDigit = true) (hlen : a.length = b.length) (hlt : a < b) :
    digitsValue a < digitsValue b := by
  induction a generalizing b with
  | nil =>
    rw [eq_nil_of_length_eq_zero hlen.symm] at hlt
    exact absurd hlt (List.lt_irrefl _)
  | cons c a ih =>
    obtain ⟨d, b, rfl⟩ := exists_cons_of_length_eq_add_one hlen.symm
    have hlen' : a.length = b.length := by simpa using hlen
    have ha' : ∀ c ∈ a, c.isDigit = true := fun x hx => ha x (mem_cons_of_mem _ hx)
    rw [digitsValue_cons, digitsValue_cons, hlen']
    rcases cons_lt_cons_iff.1 hlt with hfirst | ⟨rfl, hrest⟩
    · -- the first digits decide
      have hc := toNat_le_of_isDigit (ha c mem_cons_self)
      have hd : c.toNat < d.toNat := hfirst
      have hvalue : digitsValue a < 10 ^ b.length := hlen' ▸ digitsValue_lt ha'
      have hmul : 10 ^ b.length * (c.toNat - '0'.toNat + 1) ≤
          10 ^ b.length * (d.toNat - '0'.toNat) := Nat.mul_le_mul_left _ (by omega)
      rw [Nat.mul_add] at hmul
      omega
    · have hvalue := ih ha' (fun x hx => hb x (mem_cons_of_mem _ hx)) hlen' hrest
      omega

/-- **`stoul` on a text of digits.** -/
theorem stoul_of_digits (w : LongWidth) {text : String} (hne : text.toList ≠ [])
    (h : ∀ c ∈ text.toList, c.isDigit = true) :
    stoul w text = if w.ulongMax < digitsValue text.toList then .error .outOfRange
      else .ok (digitsValue text.toList) := by
  obtain ⟨c, rest, htext⟩ := exists_cons_of_ne_nil hne
  obtain ⟨-, hminus, hplus⟩ := lexed_of_isDigit (h c (htext ▸ mem_cons_self))
  unfold stoul
  simp only [dropWhile_isSpace_of_digits h]
  split
  next rest' hsign => exact absurd (List.cons.inj (htext.symm.trans hsign)).1 hminus
  next rest' hsign => exact absurd (List.cons.inj (htext.symm.trans hsign)).1 hplus
  next =>
    simp only [takeWhile_eq_self_iff.2 h, if_neg hne, Bool.false_eq_true, if_false]

theorem length_toString (n : ℕ) : (toString n).length = (Nat.toDigits 10 n).length := by
  rw [← String.length_toList, Nat.toString_eq_repr, Nat.toList_repr]

end ClientTelemetry
