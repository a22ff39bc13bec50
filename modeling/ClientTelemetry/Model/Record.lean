import ClientTelemetry.Common.OrdMap
import Mathlib
/-!
# Records, headers, and the clock

The data the storage components pass around: a telemetry event as it is
stored (`StorageRecord`), the two enumerations that classify it, the
response headers a server sends back, and the faults a call can end in.
Everything here follows `IOfflineStorage.hpp`, `Enums.hpp` and
`IHttpClient.hpp`.
-/

namespace ClientTelemetry

/-- Latency for an event to be transmitted. -/
inductive EventLatency where
  | unspecified
  | off
  | normal
  | costDeferred
  | realTime
  | max
  deriving DecidableEq, Repr

namespace EventLatency

/-- The value the enumerator has in the source. -/
def toInt : EventLatency → ℤ
  | unspecified => -1
  | off => 0
  | normal => 1
  | costDeferred => 2
  | realTime => 3
  | max => 4

/-- `m_records` has slots, so a literal of `Fin 5` names one. -/
instance slots_neZero : NeZero (5 : ℕ) := ⟨by decide⟩

/-- The queue of `m_records` an event of this latency belongs to. The
array has one slot for each latency from `Off` to `Max`, and none for
`Unspecified`. -/
def index? : EventLatency → Option (Fin 5)
  | unspecified => none
  | off => some 0
  | normal => some 1
  | costDeferred => some 2
  | realTime => some 3
  | max => some 4

/-- The latency a queue of `m_records` is for. -/
def ofIndex : Fin 5 → EventLatency
  | 0 => off
  | 1 => normal
  | 2 => costDeferred
  | 3 => realTime
  | 4 => max

theorem index?_eq_some {a : EventLatency} {l : Fin 5} : a.index? = some l ↔ a = ofIndex l := by
  revert a l
  intro a l
  cases a <;> revert l <;> decide

/-- A latency that reaches a queue other than the one for `Off`. -/
def Storable (a : EventLatency) : Prop := a ≠ unspecified ∧ a ≠ off

instance (a : EventLatency) : Decidable a.Storable := inferInstanceAs (Decidable (_ ∧ _))

theorem storable_ofIndex {l : Fin 5} (h : l ≠ 0) : (ofIndex l).Storable := by
  revert l; decide

end EventLatency

/-- Persistence for an event. -/
inductive EventPersistence where
  | normal
  | critical
  | doNotStoreOnDisk
  deriving DecidableEq, Repr

/-- The value the enumerator has in the source. -/
def EventPersistence.toInt : EventPersistence → ℤ
  | normal => 1
  | critical => 2
  | doNotStoreOnDisk => 3

theorem EventPersistence.toInt_injective : Function.Injective EventPersistence.toInt := by
  intro a b h
  cases a <;> cases b <;> first | rfl | exact absurd h (by decide)

abbrev StorageRecordId := String

abbrev StorageBlob := List UInt8

/-- **One stored telemetry event.** -/
structure StorageRecord where
  id : StorageRecordId
  tenantToken : String
  latency : EventLatency := .unspecified
  persistence : EventPersistence := .normal
  timestamp : ℤ := 0
  blob : StorageBlob := []
  retryCount : ℤ := 0
  reservedUntil : ℤ := 0
  deriving DecidableEq, Repr

variable (r : StorageRecord)

/-- `sizeof(StorageRecord)`: two strings, a vector and five scalars under
a 64-bit library layout. The accounting adds and subtracts it and never
reads its value. -/
def sizeofStorageRecord : ℕ := 120

/-- What a queued record counts for in the size of the RAM queue. -/
def StorageRecord.queueSize : ℕ := r.blob.length + sizeofStorageRecord

theorem StorageRecord.queueSize_pos : 0 < r.queueSize :=
  Nat.add_pos_right _ (by decide)

/-- The record apart from its retry counter, which the stores advance. -/
def StorageRecord.payload : StorageRecord := { r with retryCount := 0 }

/-- The response headers, a multimap walked in insertion order. -/
abbrev HttpHeaders := List (String × String)

/-- The values a multimap holds under a name. -/
def HttpHeaders.equalRange (headers : HttpHeaders) (name : String) : List String :=
  (headers.filter fun h => h.1 = name).map Prod.snd

/-- The first value under a name, or the empty string. -/
def HttpHeaders.get (headers : HttpHeaders) (name : String) : String :=
  (HttpHeaders.equalRange headers name).head?.getD ""

/-- How a call can end other than by returning. -/
inductive Fault where
  /-- A member call through a null `unique_ptr`. -/
  | nullDereference
  /-- `std::invalid_argument`. -/
  | invalidArgument
  /-- `std::out_of_range`. -/
  | outOfRange
  deriving DecidableEq, Repr

/-- The seconds of a clock that counts milliseconds
(`PAL::getUtcSystemTime`). -/
def utcSeconds (nowMs : ℕ) : ℕ := nowMs / 1000

/-- `UINT_MAX`, the count that stands for no limit. -/
def uintMax : ℕ := 4294967295

end ClientTelemetry
