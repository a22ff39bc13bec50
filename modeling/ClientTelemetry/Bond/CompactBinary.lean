import ClientTelemetry.Bond.Model.CompactBinary
/-!
# Compact binary, read back

Each call of the reader finds in the bytes what the corresponding call of
the writer was given. For numbers of several bytes the reader holds, at
every turn, the number modulo the bits read so far (`reads_varintLoop`).
Sequences follow from the rule for sequences of readers.
-/

namespace ClientTelemetry

open List

namespace CompactBinary

variable {w p : ℕ} {V acc value : BitVec w} {raw type x : Byte} {bits turns turns' i : ℕ}
  (order : ByteOrder)

/-! ## Seven bits at a time -/

section

variable (hw : 8 ≤ w)
include hw

theorem toNat_127 : (127#w).toNat = 127 := by
  rw [BitVec.toNat_ofNat]
  exact Nat.mod_eq_of_lt (lt_of_lt_of_le (by decide) (Nat.pow_le_pow_right (by decide) hw))

theorem toNat_128 : (128#w).toNat = 128 := by
  rw [BitVec.toNat_ofNat]
  exact Nat.mod_eq_of_lt (lt_of_lt_of_le (by decide) (Nat.pow_le_pow_right (by decide) hw))

theorem toNat_and_127 (value : BitVec w) :
    (value &&& 127#w).toNat = value.toNat % 128 := by
  rw [BitVec.toNat_and, toNat_127 hw]
  exact Nat.and_two_pow_sub_one_eq_mod value.toNat 7

/-- The last byte of a number. -/
theorem toNat_lastByte (value : BitVec w) :
    ((value &&& 127#w).setWidth 8).toNat = value.toNat % 128 := by
  rw [BitVec.toNat_setWidth, toNat_and_127 hw]
  omega

/-- A byte that is followed by another. -/
theorem toNat_moreByte (value : BitVec w) :
    (((value &&& 127#w) ||| 128#w).setWidth 8).toNat = value.toNat % 128 + 128 := by
  have hlt : value.toNat % 128 < 2 ^ 7 := Nat.mod_lt _ (by decide)
  have hor : 128 + value.toNat % 128 = 128 ||| value.toNat % 128 :=
    Nat.two_pow_add_eq_or_of_lt hlt 1
  rw [BitVec.toNat_setWidth, BitVec.toNat_or, toNat_and_127 hw, toNat_128 hw, Nat.or_comm]
  omega

end

theorem and_128_eq_zero (raw : Byte) : raw &&& 128 = 0 ↔ raw.toNat < 128 := by
  revert raw
  decide +kernel

/-- What the reader holds after one more byte. -/
theorem toNat_accumulate (hacc : acc.toNat = V.toNat % 2 ^ bits)
    (hraw : raw.toNat % 128 = V.toNat / 2 ^ bits % 128) :
    (acc ||| ((raw &&& 127).setWidth w <<< bits)).toNat = V.toNat % 2 ^ (bits + 7) := by
  have hpos : 0 < 2 ^ bits := Nat.two_pow_pos bits
  have hraw' : (raw &&& 127).toNat = V.toNat / 2 ^ bits % 128 := by
    rw [← hraw]
    exact toNat_and_127 (le_refl 8) raw
  have hle : V.toNat / 2 ^ bits % 128 * 2 ^ bits ≤ V.toNat := by
    calc V.toNat / 2 ^ bits % 128 * 2 ^ bits
        ≤ V.toNat / 2 ^ bits * 2 ^ bits := Nat.mul_le_mul_right _ (Nat.mod_le _ _)
      _ ≤ V.toNat := Nat.div_mul_le_self _ _
  have hV := V.isLt
  have hchunk : ((raw &&& 127).setWidth w <<< bits).toNat = 2 ^ bits * (V.toNat / 2 ^ bits % 128) := by
    have hsmall : V.toNat / 2 ^ bits % 128 < 2 ^ w :=
      lt_of_le_of_lt (le_trans (Nat.le_mul_of_pos_right _ hpos) hle) hV
    rw [BitVec.toNat_shiftLeft, BitVec.toNat_setWidth, hraw', Nat.mod_eq_of_lt hsmall,
      Nat.shiftLeft_eq, Nat.mod_eq_of_lt (by omega), Nat.mul_comm]
  have hor := Nat.two_pow_add_eq_or_of_lt (Nat.mod_lt V.toNat hpos) (V.toNat / 2 ^ bits % 128)
  rw [BitVec.toNat_or, hacc, hchunk, Nat.or_comm, ← hor, pow_add, Nat.mod_mul, Nat.add_comm]
  rfl

/-- The bytes of a number: one byte, or one and the bytes of the rest. -/
theorem varintLoop_last (hw : 8 ≤ w) (h : value.toNat < 128) (turns : ℕ) :
    varintLoop turns value = [(value &&& 127#w).setWidth 8] := by
  cases turns with
  | zero => rfl
  | succ turns =>
    rw [varintLoop, if_neg]
    rw [BitVec.lt_def, toNat_127 hw]
    omega

theorem varintLoop_more (hw : 8 ≤ w) (h : 128 ≤ value.toNat) (turns : ℕ) :
    varintLoop (turns + 1) value =
      ((value &&& 127#w) ||| 128#w).setWidth 8 :: varintLoop turns (value >>> 7) := by
  rw [varintLoop, if_pos]
  rw [BitVec.lt_def, toNat_127 hw]
  omega

/-- The reader's turn at the last byte, and at one that is not. -/
theorem reads_turn_last (hraw : raw.toNat < 128)
    (hV : acc ||| ((raw &&& 127).setWidth w <<< bits) = V) :
    Reads (readVarintLoop (turns + 1) acc bits) [raw] V := by
  have hlast := (and_128_eq_zero raw).2 hraw
  rw [← append_nil [raw]]
  exact (reads_next raw).bind (by simpa only [if_pos hlast, hV] using reads_pure V)

theorem reads_turn_more {bytes : List Byte} (hraw : 128 ≤ raw.toNat) (hbits : bits + 7 < w)
    (hrest : Reads (readVarintLoop turns (acc ||| ((raw &&& 127).setWidth w <<< bits)) (bits + 7))
      bytes V) :
    Reads (readVarintLoop (turns + 1) acc bits) (raw :: bytes) V := by
  have hmore : ¬raw &&& 128 = 0 := by
    rw [and_128_eq_zero]
    omega
  exact (reads_next raw).bind (by simpa only [if_neg hmore, if_neg (by omega : ¬bits + 7 ≥ w)])

theorem toNat_shifted (V : BitVec w) (bits : ℕ) : (V >>> bits).toNat = V.toNat / 2 ^ bits := by
  rw [BitVec.toNat_ushiftRight, Nat.shiftRight_eq_div_pow]

/-- The last byte: nothing of the number is left above it. -/
theorem reads_varintLoop_last (hw : 8 ≤ w)
    (hlast : V.toNat / 2 ^ bits < 128) (hacc : acc.toNat = V.toNat % 2 ^ bits) :
    Reads (readVarintLoop (turns' + 1) acc bits) (varintLoop turns (V >>> bits)) V := by
  have hshift := toNat_shifted V bits
  have hraw := toNat_lastByte hw (V >>> bits)
  rw [varintLoop_last hw (by omega)]
  refine reads_turn_last (by omega) (BitVec.eq_of_toNat_eq ?_)
  rw [toNat_accumulate hacc (by omega)]
  refine Nat.mod_eq_of_lt ?_
  rw [pow_add, Nat.mul_comm]
  exact (Nat.div_lt_iff_lt_mul (Nat.two_pow_pos bits)).1 hlast

/-- **Turn by turn.** The reader holds the number modulo the bits it has
read, and what remains to be read is the number without them. -/
theorem reads_varintLoop (hw : 8 ≤ w) (V : BitVec w)
    (hturns : V.toNat / 2 ^ bits < 128 ^ (turns + 1)) (hbits : bits < w)
    (hturns' : w ≤ bits + turns') (hacc : acc.toNat = V.toNat % 2 ^ bits) :
    Reads (readVarintLoop turns' acc bits) (varintLoop turns (V >>> bits)) V := by
  induction turns generalizing turns' bits acc with
  | zero =>
    obtain ⟨turns', rfl⟩ := Nat.exists_eq_add_of_lt (show 0 < turns' by omega)
    rw [Nat.zero_add]
    exact reads_varintLoop_last hw (by omega) hacc
  | succ turns ih =>
    obtain ⟨turns', rfl⟩ := Nat.exists_eq_add_of_lt (show 0 < turns' by omega)
    rw [Nat.zero_add]
    by_cases hlast : V.toNat / 2 ^ bits < 128
    · exact reads_varintLoop_last hw hlast hacc
    have hshift := toNat_shifted V bits
    have hraw := toNat_moreByte hw (V >>> bits)
    have hV := V.isLt
    have hbig : 2 ^ (bits + 7) ≤ V.toNat := by
      rw [pow_add, Nat.mul_comm]
      exact (Nat.le_div_iff_mul_le (Nat.two_pow_pos bits)).1 (by omega)
    -- so the reader does not give up here
    have hbits' : bits + 7 < w := by
      refine (Nat.pow_lt_pow_iff_right (by decide : 1 < 2)).1 ?_
      omega
    have hturns : V.toNat / 2 ^ (bits + 7) < 128 ^ (turns + 1) := by
      rw [pow_add, ← Nat.div_div_eq_div_mul]
      exact (Nat.div_lt_iff_lt_mul (by decide)).2 hturns
    rw [varintLoop_more hw (by omega), ← BitVec.shiftRight_add]
    refine reads_turn_more (by omega) hbits' (ih hturns hbits' (by omega) ?_)
    exact toNat_accumulate hacc (by omega)

/-- **A number is read back.** -/
theorem reads_varint (hw : 8 ≤ w) (V : BitVec w) : Reads (readVarint w) (writeVarint V) V := by
  have hread : Reads (readVarintLoop w 0 0) (varintLoop w (V >>> 0)) V := by
    refine reads_varintLoop hw V ?_ (by omega) (by omega) ?_
    · rw [pow_zero, Nat.div_one]
      calc V.toNat < 2 ^ w := V.isLt
        _ ≤ 128 ^ w := Nat.pow_le_pow_left (by decide) w
        _ ≤ 128 ^ (w + 1) := Nat.pow_le_pow_right (by decide) (Nat.le_succ w)
    · rw [pow_zero, Nat.mod_one]
      rfl
  rwa [BitVec.ushiftRight_zero] at hread

/-! ## The sign -/

/-- Above its own bits an extended number repeats its sign. -/
theorem getLsbD_signExtend_high (value : BitVec w) {j : ℕ} (hj : w - 1 ≤ j) (hp : j < p) :
    (value.signExtend p).getLsbD j = value.getLsbD (w - 1) := by
  rw [BitVec.getLsbD_signExtend, BitVec.msb_eq_getLsbD_last]
  by_cases hlast : j < w
  · obtain rfl : j = w - 1 := by omega
    simp [hp]
  · simp [hp, hlast]

/-- Folding, bit by bit: the sign comes lowest, and flips the others. -/
theorem getLsbD_zigzag (hw : 0 < w) (hp : w ≤ p) (value : BitVec w) (hi : i < w) :
    (zigzag p value).getLsbD i =
      ((decide (0 < i) && value.getLsbD (i - 1)) ^^ value.getLsbD (w - 1)) := by
  have hsign : ((value.signExtend p).sshiftRight (w - 1)).getLsbD i = value.getLsbD (w - 1) := by
    have hi' : i < p := by omega
    have hlast : (value.signExtend p).getLsbD (p - 1) = value.getLsbD (w - 1) :=
      getLsbD_signExtend_high value (by omega) (by omega)
    rw [BitVec.getLsbD_sshiftRight, BitVec.msb_eq_getLsbD_last, hlast]
    by_cases hin : w - 1 + i < p
    · rw [if_pos hin, getLsbD_signExtend_high value (by omega) hin]
      simp [hi']
    · rw [if_neg hin]
      simp [hi']
  have hshift : (value.signExtend p <<< 1).getLsbD i =
      (decide (0 < i) && value.getLsbD (i - 1)) := by
    rw [BitVec.getLsbD_shiftLeft, BitVec.getLsbD_signExtend]
    by_cases hpos : 0 < i
    · simp [hpos, show i < p by omega, show i - 1 < w by omega, show i - 1 < p by omega,
        show ¬i = 0 by omega]
    · simp [show i = 0 by omega]
  rw [zigzag, BitVec.getLsbD_setWidth, BitVec.getLsbD_xor, hsign, hshift]
  simp [hi]

/-- Unfolding, bit by bit. -/
theorem getLsbD_unzigzag (hp : w ≤ p) (uValue : BitVec w) (hi : i < w) :
    (unzigzag p uValue).getLsbD i = (uValue.getLsbD (i + 1) ^^ uValue.getLsbD 0) := by
  have hlow : ∀ j, ((uValue &&& 1#w).setWidth p).getLsbD j =
      (decide (j = 0) && uValue.getLsbD 0) := by
    intro j
    rw [BitVec.getLsbD_setWidth, BitVec.getLsbD_and, BitVec.getLsbD_one]
    by_cases hj : j = 0
    · simp [hj, show 0 < w by omega, show 0 < p by omega]
    · simp [hj]
  have hneg : (-((uValue &&& 1#w).setWidth p)).getLsbD i = uValue.getLsbD 0 := by
    rw [BitVec.getLsbD_neg]
    simp only [hlow, Bool.and_eq_true, decide_eq_true_eq]
    by_cases hzero : i = 0
    · simp [hzero]
    · have hex : (∃ j < i, j = 0 ∧ uValue.getLsbD 0 = true) ↔ uValue.getLsbD 0 = true :=
        ⟨fun ⟨_, _, _, hbit⟩ => hbit, fun hbit => ⟨0, by omega, rfl, hbit⟩⟩
      simp only [hex, hzero, decide_false, Bool.false_and, Bool.false_xor, Bool.decide_eq_true,
        show i < p by omega, decide_true, Bool.true_and]
  rw [unzigzag, BitVec.getLsbD_setWidth, BitVec.getLsbD_xor, hneg, BitVec.getLsbD_ushiftRight,
    BitVec.getLsbD_setWidth]
  by_cases hin : 1 + i < p
  · rw [Nat.add_comm 1 i] at hin ⊢
    simp [hi, hin]
  · -- there is no bit above
    rw [BitVec.getLsbD_of_ge uValue (i + 1) (by omega)]
    simp [hi, hin]

/-- **Folding is undone.** -/
theorem unzigzag_zigzag (hw : 0 < w) (hp : w ≤ p) (value : BitVec w) :
    unzigzag p (zigzag p value) = value := by
  refine BitVec.eq_of_getLsbD_eq fun i hi => ?_
  rw [getLsbD_unzigzag hp _ hi, getLsbD_zigzag hw hp value hw]
  by_cases hlast : i + 1 < w
  · rw [getLsbD_zigzag hw hp value hlast]
    simp
  · -- the bit above the last is 0
    obtain rfl : i = w - 1 := by omega
    rw [BitVec.getLsbD_of_ge _ _ (by omega)]
    simp

/-- **A signed number is read back.** -/
theorem reads_signed (hw : 8 ≤ w) (hp : w ≤ p) (value : BitVec w) :
    Reads (do let uValue ← readVarint w; pure (unzigzag p uValue)) (writeVarint (zigzag p value))
      value := by
  have hread := (reads_varint hw (zigzag p value)).map (unzigzag p)
  rwa [unzigzag_zigzag (by omega) hp] at hread

/-! ## Memory -/

theorem foldr_objectBytes (n : ℕ) (value : BitVec (8 * n)) {k m : ℕ} (h : k + m = n) :
    (List.range' k m).foldr
      (fun i (rest : BitVec (8 * n)) => (rest <<< 8) ||| (value.extractLsb' (8 * i) 8).setWidth (8 * n)) 0 =
      value >>> (8 * k) := by
  induction m generalizing k with
  | zero =>
    refine BitVec.eq_of_getLsbD_eq fun i hi => ?_
    rw [BitVec.getLsbD_ushiftRight, BitVec.getLsbD_of_ge value (8 * k + i) (by omega)]
    simp
  | succ m ih =>
    rw [range'_succ, foldr_cons, ih (by omega)]
    refine BitVec.eq_of_getLsbD_eq fun i hi => ?_
    simp only [BitVec.getLsbD_or, BitVec.getLsbD_shiftLeft, BitVec.getLsbD_ushiftRight,
      BitVec.getLsbD_setWidth, BitVec.getLsbD_extractLsb', hi, decide_true, Bool.true_and]
    by_cases hlow : i < 8
    · simp [hlow]
    · have hpos : 8 * (k + 1) + (i - 8) = 8 * k + i := by omega
      simp [hlow, hpos]

/-- **A number is copied bit for bit.** -/
theorem ofObjectBytes_objectBytes (n : ℕ) (value : BitVec (8 * n)) :
    ofObjectBytes order n (objectBytes order n value) = value := by
  have hfold : ((List.range n).map fun i => value.extractLsb' (8 * i) 8).foldr
      (fun byte (rest : BitVec (8 * n)) => (rest <<< 8) ||| byte.setWidth (8 * n)) 0 = value := by
    rw [foldr_map, range_eq_range', foldr_objectBytes n value (Nat.zero_add n)]
    simp
  cases order with
  | little => exact hfold
  | big =>
    simp only [ofObjectBytes, objectBytes, reverse_reverse]
    exact hfold

theorem length_objectBytes (n : ℕ) (value : BitVec (8 * n)) :
    (objectBytes order n value).length = n := by
  cases order <;> simp [objectBytes]

theorem reads_object {n : ℕ} (hn : n ≠ 0) (value : BitVec (8 * n)) :
    Reads (do let bytes ← readBlob n; pure (ofObjectBytes order n bytes))
      (objectBytes order n value) value := by
  have hblock : Reads (readBlob n) (objectBytes order n value) (objectBytes order n value) := by
    have hread := reads_block (objectBytes order n value)
    rw [length_objectBytes] at hread
    rwa [readBlob, if_neg hn]
  have hread := hblock.map (ofObjectBytes order n)
  rwa [ofObjectBytes_objectBytes] at hread

/-! ## Headers -/

section

variable (htype : type.toNat < 32)
include htype

theorem toNat_header (hx : x.toNat < 8) :
    (type ||| (x <<< 5)).toNat = 32 * x.toNat + type.toNat := by
  have hor : 32 * x.toNat + type.toNat = 32 * x.toNat ||| type.toNat :=
    Nat.two_pow_add_eq_or_of_lt (i := 5) htype x.toNat
  rw [BitVec.toNat_or, BitVec.toNat_shiftLeft, Nat.shiftLeft_eq, Nat.mod_eq_of_lt (by omega),
    Nat.or_comm, hor, Nat.mul_comm]

theorem header_type (hx : x.toNat < 8) :
    (type ||| (x <<< 5)) &&& 31 = type := by
  have hmask : ((type ||| (x <<< 5)) &&& 31).toNat = (type ||| (x <<< 5)).toNat % 32 :=
    Nat.and_two_pow_sub_one_eq_mod _ 5
  refine BitVec.eq_of_toNat_eq ?_
  rw [hmask, toNat_header htype hx]
  omega

theorem header_id (hx : x.toNat < 8) :
    (type ||| (x <<< 5)) >>> 5 = x := by
  refine BitVec.eq_of_toNat_eq ?_
  rw [toNat_shifted, toNat_header htype hx]
  omega

end

/-- An id that fits a byte, and one that does not, as it is put together
again. -/
theorem lowByte_setWidth {id : BitVec 16} (h : id.toNat ≤ 255) :
    ((id &&& 255).setWidth 8).setWidth 16 = id := by
  have hmask : (id &&& 255).toNat = id.toNat % 256 := Nat.and_two_pow_sub_one_eq_mod _ 8
  refine BitVec.eq_of_toNat_eq ?_
  rw [BitVec.toNat_setWidth, BitVec.toNat_setWidth, hmask]
  omega

theorem bytes_setWidth (id : BitVec 16) :
    ((id &&& 255).setWidth 8).setWidth 16 ||| (((id >>> 8).setWidth 8).setWidth 16 <<< 8) = id := by
  have hmask : (id &&& 255).toNat = id.toNat % 256 := Nat.and_two_pow_sub_one_eq_mod _ 8
  have hlow : (((id &&& 255).setWidth 8).setWidth 16).toNat = id.toNat % 256 := by
    rw [BitVec.toNat_setWidth, BitVec.toNat_setWidth, hmask]
    omega
  have hid := id.isLt
  have hhigh : ((((id >>> 8).setWidth 8).setWidth 16) <<< 8).toNat = 256 * (id.toNat / 256) := by
    rw [BitVec.toNat_shiftLeft, BitVec.toNat_setWidth, BitVec.toNat_setWidth, toNat_shifted,
      Nat.shiftLeft_eq]
    omega
  have hor : 256 * (id.toNat / 256) + id.toNat % 256 = 256 * (id.toNat / 256) ||| id.toNat % 256 :=
    Nat.two_pow_add_eq_or_of_lt (i := 8) (Nat.mod_lt _ (by decide)) (id.toNat / 256)
  refine BitVec.eq_of_toNat_eq ?_
  rw [BitVec.toNat_or, hlow, hhigh, Nat.or_comm, ← hor]
  omega

section

variable (htype : type.toNat < 32)
include htype

theorem reads_fieldBegin (id : BitVec 16) :
    Reads readFieldBegin (writeFieldBegin type id) (type, id) := by
  unfold writeFieldBegin
  split_ifs with hsmall hbyte
  · -- the id stands beside the type
    have hid : id.toNat ≤ 5 := hsmall
    have hx : (id.setWidth 8).toNat = id.toNat := by
      rw [BitVec.toNat_setWidth]
      omega
    have hback : (id.setWidth 8).setWidth 16 = id := by
      refine BitVec.eq_of_toNat_eq ?_
      rw [BitVec.toNat_setWidth, hx]
      omega
    have hle : id.setWidth 8 ≤ 5 := by
      rw [BitVec.le_def, hx]
      exact hid
    rw [← append_nil [_]]
    refine (reads_next _).bind ?_
    simp only [header_type htype (show (id.setWidth 8).toNat < 8 by omega),
      header_id htype (show (id.setWidth 8).toNat < 8 by omega), if_pos hle, hback]
    exact reads_pure _
  · change Reads _ ([_] ++ [_]) _
    refine (reads_next _).bind ?_
    simp only [header_type htype (by decide : (6 : Byte).toNat < 8),
      header_id htype (by decide : (6 : Byte).toNat < 8)]
    rw [if_neg (by decide), if_pos trivial]
    have hread := (reads_next ((id &&& 255).setWidth 8)).map fun raw => (type, raw.setWidth 16)
    rwa [lowByte_setWidth hbyte] at hread
  · change Reads _ ([_] ++ [_, _]) _
    refine (reads_next _).bind ?_
    simp only [header_type htype (by decide : (7 : Byte).toNat < 8),
      header_id htype (by decide : (7 : Byte).toNat < 8)]
    rw [if_neg (by decide), if_neg (by decide)]
    change Reads _ ([_] ++ [_]) _
    refine (reads_next _).bind ?_
    have hread := (reads_next ((id >>> 8).setWidth 8)).map fun (raw2 : Byte) =>
      (type, ((id &&& 255).setWidth 8).setWidth 16 ||| (raw2.setWidth 16 <<< 8))
    rwa [bytes_setWidth] at hread

/-! ## Calls -/

theorem shiftRight_eq_zero : type >>> 5 = 0 := by
  refine BitVec.eq_of_toNat_eq ?_
  rw [toNat_shifted]
  exact Nat.div_eq_of_lt htype

theorem and_31_eq_self : type &&& 31 = type := by
  have hmask : (type &&& 31).toNat = type.toNat % 32 := Nat.and_two_pow_sub_one_eq_mod _ 5
  refine BitVec.eq_of_toNat_eq ?_
  rw [hmask, Nat.mod_eq_of_lt htype]

end

theorem reads_bool (value : Bool) : Reads readBool (writeBool value) value := by
  rw [writeBool, ← append_nil [_]]
  refine (reads_next _).bind ?_
  cases value <;> exact reads_pure _

theorem reads_structEnd (isBase : Bool) (order : ByteOrder) :
    Reads (Kind.structEnd.read order) (writeStructEnd isBase) (.structEnd isBase) := by
  rw [writeStructEnd, writeUInt8, ← append_nil [_]]
  refine (reads_next _).bind ?_
  cases isBase <;> exact reads_pure _

theorem reads_uint32 (value : BitVec 32) : Reads readUInt32 (writeUInt32 value) value :=
  reads_varint (by decide) value

/-- A size survives the cast. -/
theorem toNat_size {size : ℕ} (h : size < 2 ^ 32) : (BitVec.ofNat 32 size).toNat = size := by
  rw [BitVec.toNat_ofNat, Nat.mod_eq_of_lt h]

theorem reads_string {value : List Byte} (h : value.length < 2 ^ 32) :
    Reads readString (writeString value) value := by
  have hread : Reads readString (writeUInt32 (BitVec.ofNat 32 value.length) ++ value) value :=
    (reads_uint32 _).bind (by rw [toNat_size h]; exact reads_block value)
  unfold writeString
  split_ifs with hempty
  · rw [hempty, append_nil] at hread
    rw [hempty]
    exact hread
  · exact hread

theorem reads_containerBegin (size : ℕ) {elementType : Byte} (helem : elementType.toNat < 32) :
    Reads readContainerBegin (writeContainerBegin size elementType)
      (BitVec.ofNat 32 size, elementType) := by
  refine (reads_next elementType).bind ?_
  rw [if_neg (not_not.2 (shiftRight_eq_zero helem)), and_31_eq_self helem]
  exact (reads_uint32 _).map fun size => (size, elementType)

theorem reads_mapContainerBegin (size : ℕ) {keyType valueType : Byte}
    (hkey : keyType.toNat < 32) (hvalue : valueType.toNat < 32) :
    Reads readMapContainerBegin (writeMapContainerBegin size keyType valueType)
      (BitVec.ofNat 32 size, keyType, valueType) := by
  rw [writeMapContainerBegin, append_assoc]
  refine (reads_next keyType).bind ?_
  rw [if_neg (not_not.2 (shiftRight_eq_zero hkey))]
  refine (reads_next valueType).bind ?_
  rw [if_neg (not_not.2 (shiftRight_eq_zero hvalue))]
  exact (reads_uint32 _).map fun size => (size, keyType, valueType)

/-- **What a writer may be given**: sizes of 32 bits, types of five. -/
def Item.Fits : Item → Prop
  | .string value => value.length < 2 ^ 32
  | .containerBegin size elementType => size < 2 ^ 32 ∧ elementType.toNat < 32
  | .mapContainerBegin size keyType valueType =>
    size < 2 ^ 32 ∧ keyType.toNat < 32 ∧ valueType.toNat < 32
  | .fieldBegin type _ => type.toNat < 32
  | _ => True

instance Item.Fits.decidable (item : Item) : Decidable item.Fits := by
  cases item <;> unfold Item.Fits <;> infer_instance

/-- **A call is read back.** -/
theorem Item.reads {item : Item} (h : item.Fits) :
    Reads (item.kind.read order) (item.bytes order) item := by
  cases item with
  | bool value => exact (reads_bool value).fmap Item.bool
  | uint8 value => exact (reads_next value).fmap Item.uint8
  | uint16 value => exact (reads_varint (by decide) value).fmap Item.uint16
  | uint32 value => exact (reads_varint (by decide) value).fmap Item.uint32
  | uint64 value => exact (reads_varint (by decide) value).fmap Item.uint64
  | int8 value => exact (reads_next value).fmap Item.int8
  | int16 value => exact (reads_signed (by decide) (by decide) value).fmap Item.int16
  | int32 value => exact (reads_signed (by decide) (by decide) value).fmap Item.int32
  | int64 value => exact (reads_signed (by decide) (by decide) value).fmap Item.int64
  | float value => exact (reads_object order (by decide) value).fmap Item.float
  | double value => exact (reads_object order (by decide) value).fmap Item.double
  | string value => exact (reads_string h).fmap Item.string
  | containerBegin size elementType =>
    have hread := (reads_containerBegin size h.2).fmap fun r =>
      Item.containerBegin r.1.toNat r.2
    rwa [toNat_size h.1] at hread
  | mapContainerBegin size keyType valueType =>
    have hread := (reads_mapContainerBegin size h.2.1 h.2.2).fmap fun r =>
      Item.mapContainerBegin r.1.toNat r.2.1 r.2.2
    rwa [toNat_size h.1] at hread
  | fieldBegin type id => exact (reads_fieldBegin h id).fmap fun r => Item.fieldBegin r.1 r.2
  | structEnd isBase => exact reads_structEnd isBase order

theorem write_eq_flatMap (output : List Byte) (items : List Item) :
    write order output items = output ++ items.flatMap (Item.bytes order) := by
  induction items generalizing output with
  | nil => simp [write]
  | cons item items ih =>
    rw [write, foldl_cons, ← write, ih, flatMap_cons, append_assoc]

/-- **Compact binary is read back.** -/
theorem compact_binary_round_trip (order : ByteOrder) (items : List Item)
    (h : ∀ item ∈ items, item.Fits) :
    read order (items.map Item.kind) ⟨write order [] items, 0, Nat.zero_le _⟩ =
      some (items, ⟨write order [] items, (write order [] items).length, Nat.le_refl _⟩) := by
  have hreads : Reads (read order (items.map Item.kind)) (items.flatMap (Item.bytes order)) items :=
    Reads.mapM fun item hitem => item.reads order (h item hitem)
  rw [write_eq_flatMap, nil_append]
  exact hreads.whole

/-- A field with a wide id, a negative number, a text and the end of the
struct. -/
def sampleItems : List Item :=
  [.fieldBegin 17 300, .int32 (-5), .fieldBegin 9 5, .string [104, 105], .structEnd false]

theorem compact_binary_round_trip_sample :
    write .little [] sampleItems = [241, 44, 1, 9, 169, 2, 104, 105, 0] ∧
      read .little [.fieldBegin, .int32, .fieldBegin, .string, .structEnd]
        ⟨write .little [] sampleItems, 0, Nat.zero_le _⟩ =
      some (sampleItems, ⟨write .little [] sampleItems, (write .little [] sampleItems).length,
        Nat.le_refl _⟩) :=
  ⟨by decide +kernel, compact_binary_round_trip .little sampleItems (by decide +kernel)⟩

end CompactBinary

end ClientTelemetry
