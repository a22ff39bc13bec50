import ClientTelemetry.Offline.Model.RoomStore
/-!
# The batch transfer to the Android store

`StoreRecords` flattens the records into four arrays, and
`storeFromBuffersIds` reads them back with running offsets, in numbers of
32 bits. At every record the offsets stand behind the records before it
(`Ahead`), so that all of them come back (`batch_transfer_lossless`).
-/

namespace ClientTelemetry

open List

namespace RoomStore

/-- A number as a Java `int`. -/
def jint (n : ℤ) : ℤ := n.bmod (2 ^ 32)

/-- The bytes of a text. -/
def utf8 (text : String) : List UInt8 := text.toUTF8.data.toList

/-- The arrays that are handed over. -/
structure Buffers where
  count : ℤ
  indices : List ℤ
  bytes : List UInt8
  small : List ℤ
  big : List ℤ

/-! What a record adds to each of them. -/

def indicesOf (r : StorageRecord) : List ℤ :=
  [jint (utf8 r.tenantToken).length, jint r.blob.length]

def bytesOf (r : StorageRecord) : List UInt8 := utf8 r.tenantToken ++ r.blob

def smallOf (r : StorageRecord) : List ℤ := [r.latency.toInt, r.persistence.toInt, r.retryCount]

def bigOf (r : StorageRecord) : List ℤ := [0, r.timestamp, r.reservedUntil]

/-- The arrays `OfflineStorage_Room::StoreRecords` makes, or throws. -/
def buffers (records : List StorageRecord) : Option Buffers :=
  if 2 ^ 32 - 1 ≤ (records.flatMap bytesOf).length then none
  else some
    { count := min records.length (2 ^ 31 - 1)
      indices := records.flatMap indicesOf
      bytes := records.flatMap bytesOf
      small := records.flatMap smallOf
      big := records.flatMap bigOf }

/-- An element of a Java array. Outside of the array this throws. -/
def element {α : Type} (xs : List α) (i : ℤ) : Option α := if 0 ≤ i then xs[i.toNat]? else none

/-- `new String(bytes, offset, length)`, of bytes that are a text. -/
def newString (bytes : List UInt8) (offset length : ℤ) : Option String :=
  if 0 ≤ offset ∧ 0 ≤ length ∧ offset + length ≤ bytes.length then
    String.fromUTF8? ⟨((bytes.drop offset.toNat).take length.toNat).toArray⟩
  else none

/-- The loop that copies a blob. -/
def copyBlob (bytes : List UInt8) (byteIndex size : ℤ) : Option StorageBlob :=
  if size < 0 then none
  else (range' 0 size.toNat).mapM fun (j : ℕ) => element bytes (jint (j + byteIndex))

/-- The body of the loop of `OfflineRoom.storeFromBuffersIds`: the record,
and `byteIndex` behind it. -/
def readRecord (b : Buffers) (i : ℕ) (byteIndex : ℤ) : Option (RoomRecord × ℤ) := do
  let indices (j : ℕ) := element b.indices (jint (2 * i + j : ℕ))
  let small (j : ℕ) := element b.small (jint (3 * i + j : ℕ))
  let big (j : ℕ) := element b.big (jint (3 * i + j : ℕ))
  let id ← big 0
  let tokenSize ← indices 0
  let tenantToken ← newString b.bytes byteIndex tokenSize
  let blobIndex := jint (byteIndex + tokenSize)
  let blobSize ← indices 1
  let blob ← copyBlob b.bytes blobIndex blobSize
  let latency ← small 0
  let persistence ← small 1
  let timestamp ← big 1
  let retryCount ← small 2
  let reservedUntil ← big 2
  return ({ id, tenantToken, latency, persistence, timestamp, retryCount, reservedUntil, blob },
    jint (blobIndex + blobSize))

def readRecords (b : Buffers) : ℕ → ℕ → ℤ → Option (List RoomRecord)
  | 0, _, _ => some []
  | n + 1, i, byteIndex => do
    let (record, byteIndex) ← readRecord b i byteIndex
    return record :: (← readRecords b n (i + 1) byteIndex)

/-- The records `OfflineRoom.storeFromBuffersIds` makes. -/
def storeFromBuffersIds (b : Buffers) : Option (List RoomRecord) :=
  if b.count < 0 then none else readRecords b b.count.toNat 0 0

/-! ## Reading back -/

variable {α : Type} {b : Buffers} {i ofs : ℕ} {after : List StorageRecord} {r : StorageRecord}

theorem jint_of_lt {n : ℕ} (h : n < 2 ^ 31) : jint n = n := Int.bmod_eq_of_le (by omega) (by omega)

theorem element_drop {xs : List α} {n j : ℕ} (h : n + j < 2 ^ 31) :
    element xs (jint (n + j : ℕ)) = (xs.drop n)[j]? := by
  rw [jint_of_lt h, element, if_pos (Int.natCast_nonneg _), Int.toNat_natCast, getElem?_drop]

theorem mapM_range' {f : ℕ → Option α} {xs : List α} (h : ∀ j, j < xs.length → f (i + j) = xs[j]?) :
    (range' i xs.length).mapM f = some xs := by
  induction xs generalizing i with
  | nil => rfl
  | cons x xs ih =>
    have hrest := ih (i := i + 1) fun j hj => by
      rw [Nat.add_assoc, Nat.add_comm 1, h (j + 1) (Nat.succ_lt_succ hj), getElem?_cons_succ]
    rw [length_cons, range'_succ, mapM_cons, hrest, show f i = some x from h 0 (Nat.succ_pos _)]
    rfl

/-- **What is ahead of a position in the arrays.** -/
structure Ahead (b : Buffers) (i ofs : ℕ) (after : List StorageRecord) : Prop where
  count : i + after.length < 2 ^ 29
  size : ofs + (after.flatMap bytesOf).length = b.bytes.length
  fits : b.bytes.length < 2 ^ 31
  indices : b.indices.drop (2 * i) = after.flatMap indicesOf
  bytes : b.bytes.drop ofs = after.flatMap bytesOf
  small : b.small.drop (3 * i) = after.flatMap smallOf
  big : b.big.drop (3 * i) = after.flatMap bigOf

/-- **One record is read**, and the next are ahead. -/
theorem Ahead.readRecord (h : Ahead b i ofs (r :: after)) :
    ∃ ofs' : ℕ, readRecord b i ofs = some (rowOf 0 r, (ofs' : ℤ)) ∧ Ahead b (i + 1) ofs' after := by
  obtain ⟨hcount, hsize, hfits, hindices, hbytes, hsmall, hbig⟩ := h
  rw [flatMap_cons, bytesOf] at hbytes hsize
  simp only [length_append, length_cons] at hcount hsize
  have hblobs : b.bytes.drop (ofs + (utf8 r.tenantToken).length) =
      r.blob ++ after.flatMap bytesOf := by
    rw [← drop_drop, hbytes, append_assoc, drop_left]
  have htoken : newString b.bytes ofs (utf8 r.tenantToken).length = some r.tenantToken := by
    rw [newString, if_pos (by omega), Int.toNat_natCast, Int.toNat_natCast, hbytes, append_assoc,
      take_left]
    exact dif_pos r.tenantToken.isValidUTF8
  have hblob : copyBlob b.bytes (ofs + (utf8 r.tenantToken).length : ℕ) r.blob.length =
      some r.blob := by
    rw [copyBlob, if_neg (by omega), Int.toNat_natCast]
    refine mapM_range' fun j hj => ?_
    rw [Nat.zero_add, ← Nat.cast_add, Nat.add_comm j, element_drop (by omega), hblobs,
      getElem?_append_left hj]
  refine ⟨ofs + (utf8 r.tenantToken).length + r.blob.length, ?_, by omega, by omega, hfits, ?_, ?_,
    ?_, ?_⟩
  · simp (disch := omega) only [RoomStore.readRecord, element_drop, hindices, hsmall, hbig]
    simp (disch := omega) only [flatMap_cons, indicesOf, smallOf, bigOf, cons_append, nil_append,
      getElem?_cons_zero, getElem?_cons_succ, Option.bind_eq_bind, Option.bind_some, jint_of_lt,
      htoken, ← Int.natCast_add, hblob]
    rfl
  · rw [Nat.mul_succ, ← drop_drop, hindices]
    rfl
  · rw [← drop_drop, hblobs, drop_left]
  · rw [Nat.mul_succ, ← drop_drop, hsmall]
    rfl
  · rw [Nat.mul_succ, ← drop_drop, hbig]
    rfl

theorem Ahead.readRecords (h : Ahead b i ofs after) :
    readRecords b after.length i ofs = some (after.map (rowOf 0)) := by
  induction after generalizing i ofs with
  | nil => rfl
  | cons r after ih =>
    obtain ⟨ofs', hread, hnext⟩ := h.readRecord
    rw [length_cons, RoomStore.readRecords, hread]
    simp only [Option.bind_eq_bind, Option.bind_some, ih hnext]
    rfl

/-- **The batch transfer is lossless**, for every list of fewer than 2^29
records with fewer than 2^31 bytes. -/
theorem batch_transfer_lossless (records : List StorageRecord) (hcount : records.length < 2 ^ 29)
    (hbytes : (records.flatMap bytesOf).length < 2 ^ 31) :
    (buffers records).bind storeFromBuffersIds = some (records.map (rowOf 0)) := by
  rw [buffers, if_neg (by omega), min_eq_left (by omega), Option.bind_some, storeFromBuffersIds,
    if_neg (Int.natCast_nonneg _).not_gt, Int.toNat_natCast]
  have hahead : Ahead ⟨records.length, _, _, _, _⟩ 0 0 records :=
    ⟨by omega, Nat.zero_add _, hbytes, rfl, rfl, rfl, rfl⟩
  exact hahead.readRecords

theorem batch_transfer_lossless_three :
    (buffers [⟨"a", "töken", .normal, .normal, 7, [1, 2, 3], 2, 9⟩,
      ⟨"b", "", .realTime, .critical, 8, [], 0, 0⟩,
      ⟨"c", "other", .max, .normal, 9, [255, 0], 1, 4⟩]).bind storeFromBuffersIds =
      some [⟨0, "töken", 1, 1, 7, 2, 9, [1, 2, 3]⟩, ⟨0, "", 3, 2, 8, 0, 0, []⟩,
        ⟨0, "other", 4, 1, 9, 1, 4, [255, 0]⟩] :=
  batch_transfer_lossless _ (by decide) (by decide +kernel)

end RoomStore

end ClientTelemetry
