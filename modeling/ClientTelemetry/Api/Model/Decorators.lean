import ClientTelemetry.Api.Model.Context
/-!
# The decorators of a logger

`Logger::applyCommonDecorators` fills a record in three steps: the base
decorator writes what identifies the session, the semantic context writes
the fields of the contexts, and the decorator of event properties checks
the names of the event, writes its properties and, for an event with the
tag `MICROSOFT_EVENTTAG_DROP_PII`, takes the personal data out of Part A
again.
-/

namespace ClientTelemetry

open CsProtocol

/-! ## The base decorator -/

/-- What the base decorator asks the manager and the platform for. -/
structure Owner where
  /-- `PAL::getUtcSystemTimeinTicks`. -/
  time : ℤ
  /-- `PAL::getSdkVersion`. -/
  sdkVersion : String
  /-- `getSessionSDKUid` of the session data, if there is one. -/
  sessionSdkUid : Option String
  /-- `GetTickets` of the controller of tokens, if there is one. -/
  tickets : Option (List String)

/-- `BaseDecorator`. -/
structure BaseDecorator where
  /-- `m_initId`. -/
  initId : String
  /-- `m_sequenceId`. -/
  sequenceId : UInt64

/-- The tickets of the controller go behind the first list of the first
element, which is made if it is not there. -/
def addTickets (tickets : List String) (record : Record) : Record :=
  if tickets = [] then record
  else
    { record with extProtocol := (ensured {} record.extProtocol).modifyHead fun protocol =>
        { protocol with
          ticketKeys := (ensured [] protocol.ticketKeys).modifyHead (· ++ tickets) } }

namespace BaseDecorator

/-- `BaseDecorator::decorate`, on the record. -/
def decorate (decorator : BaseDecorator) (owner : Owner) (record : Record) : Record :=
  let named : Record :=
    { record with
      extSdk := (ensured {} record.extSdk).modifyHead fun sdk =>
        { libVer := owner.sdkVersion
          epoch := decorator.initId
          seq := (decorator.sequenceId + 1).toInt64
          installId := owner.sessionSdkUid.getD sdk.installId }
      time := owner.time
      ver := "3.0"
      baseType := if record.baseType = "" then record.name else record.baseType }
  addTickets (owner.tickets.getD []) named

/-- And on the decorator. -/
def next (decorator : BaseDecorator) : BaseDecorator :=
  { decorator with sequenceId := decorator.sequenceId + 1 }

end BaseDecorator

/-! ## Names -/

/-- `EventRejectedReason`, as far as names go. -/
inductive EventRejectedReason where
  | validationFailed
  | ok
  deriving DecidableEq

/-- The characters of the names of events and properties. -/
def isNameChar (ch : Char) : Bool := ch.isAlphanum || ch == '_' || ch == '.'

/-- `validateEventName`. -/
def validateEventName (name : String) : EventRejectedReason :=
  if name.toList.length < 4 ∨ 100 < name.toList.length then .validationFailed
  else if name.toList.any fun ch => !isNameChar ch then .validationFailed
  else .ok

/-- `validatePropertyName`. -/
def validatePropertyName (name : String) : EventRejectedReason :=
  if name.toList.length < 1 ∨ 100 < name.toList.length then .validationFailed
  else if name.toList.any fun ch => !isNameChar ch then .validationFailed
  else if name.toList.head? = some '.' ∨ name.toList.getLast? = some '.' then .validationFailed
  else .ok

/-! ## The decorator of event properties -/

/-- `EventProperties`, as far as the decorators read them. -/
structure EventProperties where
  name : String
  type : String := ""
  popSample : UInt64 := 0x4059000000000000
  policyBitFlags : UInt64 := 0
  persistence : EventPersistence := .normal
  /-- `GetProperties()`. -/
  properties : OrdMap String EventProperty := OrdMap.empty

variable (event : EventProperties)

/-- `MICROSOFT_EVENTTAG_DROP_PII`. -/
def microsoftEventtagDropPii : UInt64 := 0x02000000

/-- `MICROSOFT_EVENTTAG_MARK_PII`. -/
def microsoftEventtagMarkPii : UInt64 := 0x08000000

/-- `tagDropPii`. -/
def EventProperties.tagDropPii : Bool :=
  event.policyBitFlags &&& microsoftEventtagDropPii ≠ 0

/-- The flags of the record: the tags of the event, which have other bits
there, its persistence and its latency. -/
def recordFlags (latency : EventLatency) : UInt64 :=
  (if event.policyBitFlags &&& microsoftEventtagMarkPii ≠ 0 then 0x00080000 else 0) |||
    (if event.tagDropPii then 0x00200000 else 0) |||
    (if event.persistence = .critical then 0x02 else 0x01) |||
    (if EventLatency.realTime.toInt ≤ latency.toInt then 0x0200
      else if latency = .costDeferred then 0x0300 else 0x0100)

/-- The value of a property of an event. -/
def eventValue (property : EventProperty) : Value :=
  if property.piiKind = .customerContentGenericData then
    { attributes := [{ customerContent := [.genericContent] }], stringValue := property.toString }
  else if property.piiKind ≠ .none then piiValue property
  else
    match property.value with
    | .int64Array values => { type := .arrayInt64, longArray := [values] }
    | .doubleArray values => { type := .arrayDouble, doubleArray := [values.map Double.bits] }
    | .stringArray values => { type := .arrayString, stringArray := [values] }
    | .guidArray values => { type := .arrayGuid, guidArray := [values.map Guid.toBytes] }
    | _ => scalarValue property

/-- The properties, one after the other; those of Part B are set apart. -/
def addProperties : List (String × EventProperty) → Record → OrdMap String Value →
    Except EventRejectedReason (Record × OrdMap String Value)
  | [], record, extPartB => .ok (record, extPartB)
  | (k, v) :: properties, record, extPartB =>
    if validatePropertyName k ≠ .ok then .error (validatePropertyName k)
    else if v.dataCategory = .partB then
      addProperties properties record (extPartB.insert k (eventValue v))
    else addProperties properties (record.setProperty k (eventValue v)) extPartB

/-- The properties of Part B, if there are any. -/
def withPartB (extPartB : OrdMap String Value) (record : Record) : Record :=
  if extPartB.entries = [] then record
  else { record with baseData := record.baseData ++ [{ properties := extPartB }] }

/-- `CorrelationVector::PropertyName`. -/
def correlationVectorName : String := "__TlgCV__"

/-- The property with the correlation vector becomes a field. -/
def moveCorrelationVector (record : Record) : Record :=
  match record.data.head?.bind fun d => d.properties.find? correlationVectorName with
  | none => record
  | some value =>
    { record with
      cV := if value.type = .string then value.stringValue else record.cV
      data := record.data.modifyHead fun d =>
        { properties := d.properties.erase correlationVectorName } }

/-- `EventPropertiesDecorator::dropPiiPartA`. -/
def dropPiiPartA (randomLocalId : String) (record : Record) : Record :=
  { record with
    extProtocol := record.extProtocol.modifyHead fun protocol => { protocol with ticketKeys := [] }
    extDevice := record.extDevice.modifyHead fun device =>
      { device with localId := randomLocalId, authId := "", authSecId := "", id := "" }
    extUser := record.extUser.modifyHead fun user =>
      { user with localId := "", authId := "", id := "" }
    extSdk := record.extSdk.modifyHead fun sdk =>
      { sdk with seq := 0, epoch := "", installId := "" }
    cV := "" }

/-- What is written before the properties. -/
def withFlags (latency : EventLatency) (record : Record) : Record :=
  { record with
    data := ensured {} record.data
    popSample := event.popSample
    flags := recordFlags event latency }

/-- What is left to do behind the properties. -/
def finishRecord (randomLocalId : String) (event : EventProperties) (extPartB : OrdMap String Value)
    (record : Record) : Record :=
  let moved := moveCorrelationVector (withPartB extPartB record)
  if event.tagDropPii then dropPiiPartA randomLocalId moved else moved

/-- `EventPropertiesDecorator::decorate`, with the latency it corrects. -/
def EventProperties.decorate (randomLocalId : String) (latency : EventLatency) (record : Record) :
    Except EventRejectedReason (Record × EventLatency) :=
  let latency := if latency = .unspecified then .normal else latency
  if event.name ≠ "" ∧ validateEventName event.name ≠ .ok then
    .error (validateEventName event.name)
  else
    (addProperties event.properties.entries (withFlags event latency record) OrdMap.empty).map
      fun added => (finishRecord randomLocalId event added.2 added.1, latency)

/-! ## All of them -/

/-- **A logger**, as far as its decorators go. -/
structure LoggerDecorators where
  /-- The call finds the logger active. -/
  active : Bool := true
  /-- `m_iKey`. -/
  iKey : String
  /-- `m_allowDotsInType`. -/
  allowDotsInType : Bool := false
  base : BaseDecorator
  /-- The context of the logger, and its parents, the nearest first. -/
  context : Context
  parents : List Context
  randomLocalId : String

/-- Why there is no record: the logger is dead, or the event is rejected. -/
inductive Refusal where
  | loggerIsDead
  | rejected (reason : EventRejectedReason)
  deriving DecidableEq

namespace LoggerDecorators

variable (logger : LoggerDecorators)

/-- The name and the type of the record. -/
def nameRecord (event : EventProperties) (record : Record) : Record :=
  let evtType := if logger.allowDotsInType then event.type
    else String.ofList (event.type.toList.map fun ch => if ch = '.' then '_' else ch)
  { record with
    name := if event.name = "" then "NotSpecified" else event.name
    baseType := if event.type = "" then "custom" else "custom" ++ "." ++ evtType
    iKey := logger.iKey }

/-- `Logger::applyCommonDecorators`, and the decorators it leaves. -/
def applyCommonDecorators (owner : Owner) (event : EventProperties) (latency : EventLatency)
    (record : Record) : Except Refusal (Record × EventLatency) × LoggerDecorators :=
  if !logger.active then (.error .loggerIsDead, logger)
  else
    let based := logger.base.decorate owner (logger.nameRecord event record)
    let inContext := logger.context.writeToRecord logger.parents based false
    ((event.decorate logger.randomLocalId latency inContext).mapError .rejected,
      { logger with base := logger.base.next })

end LoggerDecorators

end ClientTelemetry
