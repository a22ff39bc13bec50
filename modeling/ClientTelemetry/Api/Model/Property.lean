import ClientTelemetry.Model.Record
/-!
# Properties of an event

`EventProperty` holds a value of one of ten types, a kind of personal
data and the part of the record it belongs to. A double is carried as its
bits, with the texts `std::to_string` and `operator<<` give for it, as
nothing here computes with it. A string ends where its first NUL is: the
constructors of `EventProperty` copy that much.
-/

namespace ClientTelemetry

/-- `GUID_t`. -/
structure Guid where
  data1 : UInt32
  data2 : UInt16
  data3 : UInt16
  data4 : Vector UInt8 8
  deriving DecidableEq

namespace Guid

/-- `GUID_t::to_bytes`. -/
def toBytes (guid : Guid) : List UInt8 :=
  [guid.data1.toUInt8, (guid.data1 >>> 8).toUInt8, (guid.data1 >>> 16).toUInt8,
    (guid.data1 >>> 24).toUInt8, guid.data2.toUInt8, (guid.data2 >>> 8).toUInt8,
    guid.data3.toUInt8, (guid.data3 >>> 8).toUInt8] ++ guid.data4.toList

/-- `inttoHex`. -/
def intToHex (n : ℕ) : Char := if n < 10 then Char.ofNat (48 + n) else Char.ofNat (55 + n)

/-- The hexadecimal digits of a number, the highest first. -/
def hexDigits (width n : ℕ) : List Char :=
  (List.range width).reverse.map fun i => intToHex (n >>> (4 * i) % 16)

/-- `to_string` of a `GUID_t`. -/
def toString (guid : Guid) : String :=
  String.ofList (hexDigits 8 guid.data1.toNat ++ ['-'] ++ hexDigits 4 guid.data2.toNat ++ ['-'] ++
    hexDigits 4 guid.data3.toNat ++ ['-'] ++
    (guid.data4.toList.take 2).flatMap (fun b => hexDigits 2 b.toNat) ++ ['-'] ++
    (guid.data4.toList.drop 2).flatMap fun b => hexDigits 2 b.toNat)

end Guid

/-- A `double`. -/
structure Double where
  bits : UInt64
  /-- `std::to_string`. -/
  printed : String
  /-- What a stream prints. -/
  streamed : String
  deriving DecidableEq

/-- The value of an `EventProperty`, by its type. -/
inductive PropertyValue where
  | string (value : String)
  | int64 (value : ℤ)
  | double (value : Double)
  | time (ticks : ℤ)
  | boolean (value : Bool)
  | guid (value : Guid)
  | stringArray (values : List String)
  | int64Array (values : List ℤ)
  | doubleArray (values : List Double)
  | guidArray (values : List Guid)
  deriving DecidableEq

/-- `PiiKind`. -/
inductive PiiKind where
  | none
  | distinguishedName
  | genericData
  | iPv4Address
  | iPv6Address
  | mailSubject
  | phoneNumber
  | queryString
  | sipAddress
  | smtpAddress
  | identity
  | uri
  | fqdn
  | iPv4AddressLegacy
  | customerContentGenericData
  deriving DecidableEq

/-- `DataCategory`. -/
inductive DataCategory where
  | partC
  | partB
  deriving DecidableEq

/-- `EventProperty`. -/
structure EventProperty where
  value : PropertyValue := .string ""
  piiKind : PiiKind := .none
  dataCategory : DataCategory := .partC
  deriving DecidableEq

/-- The elements of an array with commas between them. -/
def joined (elements : List String) : String := ",".intercalate elements

/-- `EventProperty::to_string`. -/
def EventProperty.toString (property : EventProperty) : String :=
  match property.value with
  | .string value => value
  | .int64 value => ToString.toString value
  | .double value => value.printed
  -- the time is not formatted, these are the ticks
  | .time ticks => ToString.toString ticks
  | .boolean value => if value then "true" else "false"
  | .guid value => value.toString
  | .stringArray values => joined values
  | .int64Array values => joined (values.map ToString.toString)
  | .doubleArray values => joined (values.map Double.streamed)
  | .guidArray values => joined (values.map Guid.toString)

end ClientTelemetry
