import ClientTelemetry.Common.Cursor
import Mathlib
/-!
# Compact binary

`CompactBinaryProtocolWriter` appends values to a buffer of bytes,
`CompactBinaryProtocolReader` takes them off it. Unsigned numbers of more
than a byte are written seven bits at a time, lowest first; signed ones
are first folded so that the sign is the lowest bit. A small field id is
packed into one byte with the type of the field. Numbers are kept in the
width the source has them in, and shifts on a type smaller than `int` are
made in `int`.
-/

namespace ClientTelemetry

namespace CompactBinary

abbrev Byte := BitVec 8

/-- The order in which the bytes of a number stand in memory. -/
inductive ByteOrder where
  | little
  | big
  deriving DecidableEq, Repr

variable (order : ByteOrder)

/-! ## The writer -/

/-- The loop of `writeVarint`. A number of `w` bits is used up in fewer
than `w` turns. -/
def varintLoop {w : ℕ} : ℕ → BitVec w → List Byte
  | 0, value => [(value &&& 127#w).setWidth 8]
  | turns + 1, value =>
    if 127#w < value then
      ((value &&& 127#w) ||| 128#w).setWidth 8 :: varintLoop turns (value >>> 7)
    else [(value &&& 127#w).setWidth 8]

/-- `writeVarint`. -/
def writeVarint {w : ℕ} (value : BitVec w) : List Byte := varintLoop w value

/-- The folding of a signed number, made in `p` bits. -/
def zigzag (p : ℕ) {w : ℕ} (value : BitVec w) : BitVec w :=
  ((value.signExtend p <<< 1) ^^^ (value.signExtend p).sshiftRight (w - 1)).setWidth w

/-- The bytes of a number as they stand in memory. -/
def objectBytes (n : ℕ) (value : BitVec (8 * n)) : List Byte :=
  let bytes := (List.range n).map fun i => value.extractLsb' (8 * i) 8
  match order with
  | .little => bytes
  | .big => bytes.reverse

def writeBool (value : Bool) : List Byte := [if value then 1 else 0]

def writeUInt8 (value : BitVec 8) : List Byte := [value]

def writeUInt16 (value : BitVec 16) : List Byte := writeVarint value

def writeUInt32 (value : BitVec 32) : List Byte := writeVarint value

def writeUInt64 (value : BitVec 64) : List Byte := writeVarint value

def writeInt8 (value : BitVec 8) : List Byte := writeUInt8 value

def writeInt16 (value : BitVec 16) : List Byte := writeUInt16 (zigzag 32 value)

def writeInt32 (value : BitVec 32) : List Byte := writeUInt32 (zigzag 32 value)

def writeInt64 (value : BitVec 64) : List Byte := writeUInt64 (zigzag 64 value)

def writeFloat (value : BitVec (8 * 4)) : List Byte :=
  objectBytes order 4 value

def writeDouble (value : BitVec (8 * 8)) : List Byte :=
  objectBytes order 8 value

/-- `WriteString`; the size is cast to 32 bits. -/
def writeString (value : List Byte) : List Byte :=
  if value = [] then writeUInt32 0
  else writeUInt32 (BitVec.ofNat 32 value.length) ++ value

def writeContainerBegin (size : ℕ) (elementType : BitVec 8) : List Byte :=
  writeUInt8 elementType ++ writeUInt32 (BitVec.ofNat 32 size)

def writeMapContainerBegin (size : ℕ) (keyType valueType : BitVec 8) : List Byte :=
  writeUInt8 keyType ++ writeUInt8 valueType ++ writeUInt32 (BitVec.ofNat 32 size)

/-- `WriteFieldBegin`. -/
def writeFieldBegin (type : BitVec 8) (id : BitVec 16) : List Byte :=
  if id ≤ 5 then [type ||| (id.setWidth 8 <<< 5)]
  else if id ≤ 0xff then [type ||| ((6 : Byte) <<< 5), (id &&& 255).setWidth 8]
  else [type ||| ((7 : Byte) <<< 5), (id &&& 255).setWidth 8, (id >>> 8).setWidth 8]

/-- `WriteStructEnd`: `BT_STOP_BASE` or `BT_STOP`. -/
def writeStructEnd (isBase : Bool) : List Byte := writeUInt8 (if isBase then 1 else 0)

/-! ## The reader -/

open Reading

/-- The loop of `readVarint`. It gives up once `bits` has reached the
width, so `w` turns are enough. -/
def readVarintLoop {w : ℕ} : ℕ → BitVec w → ℕ → Reading Byte (BitVec w)
  | 0, _, _ => failure
  | turns + 1, value, bits => do
    let raw ← next
    let value := value ||| ((raw &&& 127).setWidth w <<< bits)
    if raw &&& 128 = 0 then pure value
    else if bits + 7 ≥ w then failure
    else readVarintLoop turns value (bits + 7)

/-- `readVarint`. -/
def readVarint (w : ℕ) : Reading Byte (BitVec w) := readVarintLoop w 0 0

/-- The unfolding of a signed number, made in `p` bits. -/
def unzigzag (p : ℕ) {w : ℕ} (uValue : BitVec w) : BitVec w :=
  ((uValue.setWidth p >>> 1) ^^^ -((uValue &&& 1#w).setWidth p)).setWidth w

/-- The number whose bytes in memory these are. -/
def ofObjectBytes (n : ℕ) (bytes : List Byte) : BitVec (8 * n) :=
  let bytes := match order with
    | .little => bytes
    | .big => bytes.reverse
  bytes.foldr (fun byte value => (value <<< 8) ||| byte.setWidth (8 * n)) 0

/-- `ReadBlob`: nothing is read for a size of 0. -/
def readBlob (size : ℕ) : Reading Byte (List Byte) :=
  if size = 0 then failure else block size

def readUInt8 : Reading Byte (BitVec 8) := next

def readBool : Reading Byte Bool := do
  let raw ← next
  if raw = 0 then pure false else if raw = 1 then pure true else failure

def readUInt16 : Reading Byte (BitVec 16) := readVarint 16

def readUInt32 : Reading Byte (BitVec 32) := readVarint 32

def readUInt64 : Reading Byte (BitVec 64) := readVarint 64

def readInt8 : Reading Byte (BitVec 8) := readUInt8

def readInt16 : Reading Byte (BitVec 16) := do
  let uValue ← readUInt16
  pure (unzigzag 32 uValue)

def readInt32 : Reading Byte (BitVec 32) := do
  let uValue ← readUInt32
  pure (unzigzag 32 uValue)

def readInt64 : Reading Byte (BitVec 64) := do
  let uValue ← readUInt64
  pure (unzigzag 64 uValue)

def readFloat : Reading Byte (BitVec (8 * 4)) := do
  let bytes ← readBlob 4
  pure (ofObjectBytes order 4 bytes)

def readDouble : Reading Byte (BitVec (8 * 8)) := do
  let bytes ← readBlob 8
  pure (ofObjectBytes order 8 bytes)

/-- `ReadString`. -/
def readString : Reading Byte (List Byte) := do
  let length ← readUInt32
  block length.toNat

/-- `ReadContainerBegin`: the size and the type of the elements. -/
def readContainerBegin : Reading Byte (BitVec 32 × BitVec 8) := do
  let raw ← readUInt8
  if raw >>> 5 ≠ 0 then failure
  else
    let size ← readUInt32
    pure (size, raw &&& 31)

/-- `ReadMapContainerBegin`. -/
def readMapContainerBegin : Reading Byte (BitVec 32 × BitVec 8 × BitVec 8) := do
  let keyType ← readUInt8
  if keyType >>> 5 ≠ 0 then failure
  else
    let valueType ← readUInt8
    if valueType >>> 5 ≠ 0 then failure
    else
      let size ← readUInt32
      pure (size, keyType, valueType)

/-- `ReadFieldBegin`: the type and the id. -/
def readFieldBegin : Reading Byte (BitVec 8 × BitVec 16) := do
  let raw ← readUInt8
  let type := raw &&& 31
  let raw := raw >>> 5
  if raw ≤ 5 then pure (type, raw.setWidth 16)
  else if raw = 6 then
    let raw ← readUInt8
    pure (type, raw.setWidth 16)
  else
    let raw ← readUInt8
    let raw2 ← readUInt8
    pure (type, raw.setWidth 16 ||| (raw2.setWidth 16 <<< 8))

/-! ## Sequences of calls -/

/-- A value with the call it is written or read by. -/
inductive Item where
  | bool (value : Bool)
  | uint8 (value : BitVec 8)
  | uint16 (value : BitVec 16)
  | uint32 (value : BitVec 32)
  | uint64 (value : BitVec 64)
  | int8 (value : BitVec 8)
  | int16 (value : BitVec 16)
  | int32 (value : BitVec 32)
  | int64 (value : BitVec 64)
  | float (value : BitVec (8 * 4))
  | double (value : BitVec (8 * 8))
  | string (value : List Byte)
  | containerBegin (size : ℕ) (elementType : BitVec 8)
  | mapContainerBegin (size : ℕ) (keyType valueType : BitVec 8)
  | fieldBegin (type : BitVec 8) (id : BitVec 16)
  | structEnd (isBase : Bool)
  deriving DecidableEq, Repr

/-- A call, without its value. -/
inductive Kind where
  | bool
  | uint8
  | uint16
  | uint32
  | uint64
  | int8
  | int16
  | int32
  | int64
  | float
  | double
  | string
  | containerBegin
  | mapContainerBegin
  | fieldBegin
  | structEnd
  deriving DecidableEq, Repr

def Item.kind : Item → Kind
  | .bool _ => .bool
  | .uint8 _ => .uint8
  | .uint16 _ => .uint16
  | .uint32 _ => .uint32
  | .uint64 _ => .uint64
  | .int8 _ => .int8
  | .int16 _ => .int16
  | .int32 _ => .int32
  | .int64 _ => .int64
  | .float _ => .float
  | .double _ => .double
  | .string _ => .string
  | .containerBegin _ _ => .containerBegin
  | .mapContainerBegin _ _ _ => .mapContainerBegin
  | .fieldBegin _ _ => .fieldBegin
  | .structEnd _ => .structEnd

/-- What a call appends. -/
def Item.bytes : Item → List Byte
  | .bool value => writeBool value
  | .uint8 value => writeUInt8 value
  | .uint16 value => writeUInt16 value
  | .uint32 value => writeUInt32 value
  | .uint64 value => writeUInt64 value
  | .int8 value => writeInt8 value
  | .int16 value => writeInt16 value
  | .int32 value => writeInt32 value
  | .int64 value => writeInt64 value
  | .float value => writeFloat order value
  | .double value => writeDouble order value
  | .string value => writeString value
  | .containerBegin size elementType => writeContainerBegin size elementType
  | .mapContainerBegin size keyType valueType => writeMapContainerBegin size keyType valueType
  | .fieldBegin type id => writeFieldBegin type id
  | .structEnd isBase => writeStructEnd isBase

/-- The call of the reader. The end of a struct is read as a byte, and
its value is told from that. -/
def Kind.read : Kind → Reading Byte Item
  | .bool => Item.bool <$> readBool
  | .uint8 => Item.uint8 <$> readUInt8
  | .uint16 => Item.uint16 <$> readUInt16
  | .uint32 => Item.uint32 <$> readUInt32
  | .uint64 => Item.uint64 <$> readUInt64
  | .int8 => Item.int8 <$> readInt8
  | .int16 => Item.int16 <$> readInt16
  | .int32 => Item.int32 <$> readInt32
  | .int64 => Item.int64 <$> readInt64
  | .float => Item.float <$> readFloat order
  | .double => Item.double <$> readDouble order
  | .string => Item.string <$> readString
  | .containerBegin => (fun r => Item.containerBegin r.1.toNat r.2) <$> readContainerBegin
  | .mapContainerBegin =>
    (fun r => Item.mapContainerBegin r.1.toNat r.2.1 r.2.2) <$> readMapContainerBegin
  | .fieldBegin => (fun r => Item.fieldBegin r.1 r.2) <$> readFieldBegin
  | .structEnd => do
    let raw ← readUInt8
    if raw = 0 then pure (.structEnd false)
    else if raw = 1 then pure (.structEnd true)
    else failure

/-- The buffer after a sequence of calls on a writer. -/
def write (output : List Byte) (items : List Item) : List Byte :=
  items.foldl (fun output item => output ++ item.bytes order) output

/-- A sequence of calls on a reader. -/
def read (kinds : List Kind) : Reading Byte (List Item) :=
  kinds.mapM (Kind.read order)

end CompactBinary

end ClientTelemetry
