import ClientTelemetry.Api.Model.Decorators
import ClientTelemetry.Api.Model.Logger
/-!
# An event on its way to the storage

An `EventProperties` is filled by calls of its setters, from C++ or from
the packed properties `mat_log` is given, and logged: `LogEvent` works on
a local copy of the latency, which the decorators correct, and `submit`
reads the property again for the record it sends. The record then goes
through the serializer and the limit on its size to `StoreRecord`.

An enumerator is the `int` it is: a cast from a wider integer keeps the low
32 bits, and nothing checks the range. The logger is active or not each
time it is asked. Filters, inspectors and the serializer are given by
what they do.
-/

namespace ClientTelemetry

open CsProtocol

/-- A 64-bit integer, cast to an enumeration. -/
def asEnum (value : ℤ) : ℤ := value.bmod (2 ^ 32)

/-! ## The properties -/

/-- `EventPropertiesStorage`. Nothing here writes to the properties of
Part B. -/
structure EventPropertiesStorage where
  eventName : String := ""
  eventType : String := ""
  eventLatency : ℤ := EventLatency.normal.toInt
  eventPersistence : ℤ := EventPersistence.normal.toInt
  /-- The bits of the `double`. -/
  eventPopSample : UInt64 := 0x4059000000000000
  eventPolicyBitflags : UInt64 := 0
  timestampInMillis : ℤ := 0
  properties : OrdMap String EventProperty := OrdMap.empty

/-- `EventPriority_Low` and `EventPriority_High`. -/
def eventPriorityLow : ℤ := 1
def eventPriorityHigh : ℤ := 3

/-- **The calls that change the properties of an event.** -/
inductive PropertyCall where
  | setLatency (latency : ℤ)
  | setPriority (priority : ℤ)
  | setPersistence (persistence : ℤ)
  | setName (name : String)
  | setType (recordType : String)
  | setTimestamp (timestampInEpochMillis : ℤ)
  | setPopsample (popSample : UInt64)
  | setPolicyBitFlags (policyBitFlags : UInt64)
  | setProperty (name : String) (prop : EventProperty)
  | erase (key : String)

namespace EventPropertiesStorage

variable (p : EventPropertiesStorage)

/-- `EventProperties::SetPriority`. -/
def setPriority (priority : ℤ) : EventPropertiesStorage :=
  if eventPriorityHigh ≤ priority then
    { p with
      eventLatency := EventLatency.realTime.toInt
      eventPersistence := EventPersistence.critical.toInt }
  else if eventPriorityLow ≤ priority then
    { p with
      eventLatency := EventLatency.normal.toInt
      eventPersistence := EventPersistence.normal.toInt }
  else { p with eventLatency := priority }

/-- `EventProperties::SetName`. The name is not changed by
`sanitizeIdentifier`. -/
def setName (name : String) : EventPropertiesStorage :=
  if validateEventName name = .ok then { p with eventName := name } else p

/-- `EventProperties::SetType`. -/
def setType (recordType : String) : EventPropertiesStorage :=
  if validateEventName (toLower recordType) = .ok then { p with eventType := toLower recordType }
  else p

/-- `EventProperties::SetProperty`. -/
def setProperty (name : String) (prop : EventProperty) : EventPropertiesStorage :=
  if validatePropertyName name = .ok then { p with properties := p.properties.insert name prop }
  else p

/-- One call. -/
def call : PropertyCall → EventPropertiesStorage
  | .setLatency latency => { p with eventLatency := latency }
  | .setPriority priority => p.setPriority priority
  | .setPersistence persistence => { p with eventPersistence := persistence }
  | .setName name => p.setName name
  | .setType recordType => p.setType recordType
  | .setTimestamp timestampInEpochMillis => { p with timestampInMillis := timestampInEpochMillis }
  | .setPopsample popSample => { p with eventPopSample := popSample }
  | .setPolicyBitFlags policyBitFlags => { p with eventPolicyBitflags := policyBitFlags }
  | .setProperty name prop => p.setProperty name prop
  | .erase key => { p with properties := p.properties.erase key }

/-- `DefaultEventName`. -/
def defaultEventName : String := "undefined"

/-- `COMMONFIELDS_EVENT_LEVEL`. -/
def eventLevelName : String := "EventInfo.Level"

/-- The constructor with a name and a level. -/
def construct (name : String) (diagnosticLevel : UInt8) : EventPropertiesStorage :=
  (({} : EventPropertiesStorage).setName (if name = "" then defaultEventName else name)).setProperty
    eventLevelName { value := .int64 diagnosticLevel.toNat }

/-- `DIAG_LEVEL_OPTIONAL`, the level of the constructors without one. -/
def diagLevelOptional : UInt8 := 2

/-- What the decorators read. They tell a critical event from the others. -/
def forDecorators : EventProperties where
  name := p.eventName
  type := p.eventType
  popSample := p.eventPopSample
  policyBitFlags := p.eventPolicyBitflags
  persistence :=
    if p.eventPersistence = EventPersistence.critical.toInt then .critical else .normal
  properties := p.properties

end EventPropertiesStorage

/-! ## From the logger to the storage -/

/-- A `StorageRecord` as it is made from an event, with its enumerators. -/
structure IncomingRecord where
  id : StorageRecordId
  tenantToken : String
  latency : ℤ
  persistence : ℤ
  timestamp : ℤ := 0
  blob : StorageBlob := []

/-- **What a call of `LogEvent` is decided by** besides the event. -/
structure LogPath where
  /-- `LogEvent` finds the logger active. -/
  active : Bool
  /-- `CanEventPropertiesBeSent`. -/
  canSend : EventPropertiesStorage → Bool
  decorators : LoggerDecorators
  owner : Owner
  /-- `submit` finds the logger active. -/
  submitActive : Bool
  levelFilter : DiagLevelFilter
  /-- `m_level`. -/
  level : ℕ
  /-- What is in `as_int64` of a property, also of one of another type. -/
  asInt64 : EventProperty → ℤ
  /-- `PAL::generateUuidString`. -/
  uuid : StorageRecordId
  /-- `m_tenantToken`. -/
  tenantToken : String
  /-- `GetSystem()` returns one. -/
  hasSystem : Bool
  /-- The custom decorator and the data inspectors. -/
  inspect : Record → Record
  serialize : Record → StorageBlob
  /-- `CFG_INT_TPM_MAX_BLOB_BYTES`. -/
  maxBlobBytes : ℕ
  /-- `PAL::getUtcSystemTimeMs`. -/
  now : ℤ

namespace LogPath

variable (path : LogPath) (props : EventPropertiesStorage)

/-- From `LogManagerImpl::sendEvent` to `StoreRecord`: the record that is
handed over, if one is. -/
def sendEvent (source : Record) (record : IncomingRecord) : Option IncomingRecord :=
  if path.hasSystem then
    let record := { record with blob := path.serialize (path.inspect source) }
    if path.maxBlobBytes < record.blob.length then none
    else some { record with timestamp := path.now }
  else none

/-- The level filter of `submit`. -/
def passesLevel : Bool :=
  LogCall.passesLevel path.levelFilter
    { filtersPass := true
      decorates := true
      levelProperty :=
        (props.properties.find? EventPropertiesStorage.eventLevelName).map path.asInt64
      level := path.level
      latency := .normal }

/-- `Logger::submit`. -/
def submit (source : Record) (props : EventPropertiesStorage) : Option IncomingRecord :=
  if !path.submitActive then none
  else if !path.passesLevel props then none
  else if props.eventLatency = EventLatency.off.toInt then none
  else
    path.sendEvent source
      { id := path.uuid
        tenantToken := path.tenantToken
        latency := props.eventLatency
        persistence := props.eventPersistence }

/-- The local copy of the latency in `LogEvent`. -/
def localLatency : ℤ :=
  if EventLatency.unspecified.toInt < props.eventLatency then props.eventLatency
  else EventLatency.normal.toInt

/-- The latencies that the decorators tell apart. -/
def decoratedLatency (latency : ℤ) : EventLatency :=
  if EventLatency.realTime.toInt ≤ latency then .realTime
  else if latency = EventLatency.costDeferred.toInt then .costDeferred
  else .normal

/-- **`Logger::LogEvent`**, up to the record that is handed to
`StoreRecord`. -/
def logEvent : Option IncomingRecord :=
  if !path.active then none
  else if !path.canSend props then none
  else
    match (path.decorators.applyCommonDecorators path.owner props.forDecorators
      (decoratedLatency (localLatency props)) {}).1 with
    | .error _ => none
    | .ok (record, _) => path.submit record props

end LogPath

/-! ## The C interface -/

/-- `evt_prop_t`. -/
inductive EvtPropType where
  | string
  | int64
  | double
  | time
  | boolean
  | guid
  /-- Any of the arrays. -/
  | array
  | null
  deriving DecidableEq

/-- `evt_prop_v`: what each member of the union reads. -/
structure EvtPropValue where
  asString : String := ""
  asInt64 : ℤ := 0
  asDouble : Double := ⟨0, "0.000000", "0"⟩
  asTime : ℤ := 0
  asBool : Bool := false
  /-- The identifier in the string. -/
  asGuid : Guid := ⟨0, 0, 0, .replicate 8 0⟩

/-- `evt_prop`. -/
structure EvtProp where
  name : String
  type : EvtPropType := .int64
  value : EvtPropValue := {}
  piiKind : PiiKind := .none

/-- The value of a property that is none of the named ones. -/
def EvtProp.property? (prop : EvtProp) : Option PropertyValue :=
  match prop.type with
  | .string => some (.string prop.value.asString)
  | .int64 => some (.int64 prop.value.asInt64)
  | .double => some (.double prop.value.asDouble)
  | .time => some (.time prop.value.asTime)
  | .boolean => some (.boolean prop.value.asBool)
  | .guid => some (.guid prop.value.asGuid)
  | .array | .null => none

/-- One turn of the loop of `unpack`: the setter that is called. -/
def EvtProp.call? (prop : EvtProp) : Option PropertyCall :=
  if prop.name = "EventInfo.Priority" then some (.setPriority (asEnum prop.value.asInt64))
  else if prop.name = "EventInfo.Latency" then some (.setLatency (asEnum prop.value.asInt64))
  else if prop.name = "EventInfo.Persistence" then
    some (.setPersistence (asEnum prop.value.asInt64))
  else if prop.name = "name" ∨ prop.name = "EventInfo.Name" then
    some (.setName prop.value.asString)
  else if prop.name = "EventInfo.Time" ∨ prop.name = "time" then
    some (.setTimestamp prop.value.asInt64)
  else if prop.name = "popSample" then some (.setPopsample prop.value.asDouble.bits)
  else if prop.name = "EventInfo.PolicyFlags" then
    some (.setPolicyBitFlags (UInt64.ofNat (prop.value.asInt64 % 2 ^ 64).toNat))
  else prop.property?.map fun value => .setProperty prop.name { value, piiKind := prop.piiKind }

/-- The setters `unpack` calls. A null pointer gives none, and a size of
zero no bound. -/
def packedCalls (packed : Option (List EvtProp)) (size : ℕ) : List PropertyCall :=
  let props := ((packed.getD []).takeWhile fun prop => prop.type ≠ .null)
  (if size = 0 then props else props.take size).filterMap EvtProp.call?

/-- `EventProperties::unpack`. -/
def EventPropertiesStorage.unpack (p : EventPropertiesStorage) (packed : Option (List EvtProp))
    (size : ℕ) : EventPropertiesStorage :=
  (packedCalls packed size).foldl EventPropertiesStorage.call p

/-- What `mat_log` asks for: the string in a property, also of one of
another type, and the logger of a token and a source, if the handle has a
client and the client a logger. -/
structure CapiLog where
  asString : EventProperty → String
  getLogger : String → String → Option LogPath

/-- `COMMONFIELDS_IKEY`. -/
def iKeyName : String := "iKey"

/-- The source of an event. -/
def eventSource (properties : OrdMap String EventProperty) : String :=
  match properties.find? "EventInfo.Source" with
  | some ⟨.string source, _, _⟩ => source
  | _ => ""

/-- **`mat_log`**, up to the record that is handed to `StoreRecord`. -/
def CapiLog.matLog (capi : CapiLog) (packed : Option (List EvtProp)) (size : ℕ) :
    Option IncomingRecord :=
  let props := (EventPropertiesStorage.construct EventPropertiesStorage.defaultEventName
    EventPropertiesStorage.diagLevelOptional).unpack packed size
  let token := capi.asString ((props.properties.find? iKeyName).getD {})
  match capi.getLogger token (eventSource props.properties) with
  | none => none
  | some path => path.logEvent (props.call (.erase iKeyName))

end ClientTelemetry
