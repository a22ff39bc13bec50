import ClientTelemetry.Api.Model.CsProtocol
import ClientTelemetry.Api.Model.LogManager
/-!
# Contexts

A `ContextFieldsProvider` holds fields that are written to every record of
its loggers. It may have a parent, whose fields are written first. The
common fields are read as strings, whatever they were set to, and every
setter of the interface sets them so; here they are strings.
-/

namespace ClientTelemetry

variable (property : EventProperty)

open CsProtocol

/-- `TicketType`. -/
inductive TicketType where
  | msaDevice
  | msaUser
  | xAuthDevice
  | xAuthUser
  | aad
  | aadUser
  | aadJwt
  deriving DecidableEq

/-- The value the enumerator has in the source. -/
def TicketType.toNat : TicketType → ℕ
  | msaDevice => 0
  | msaUser => 1
  | xAuthDevice => 2
  | xAuthUser => 3
  | aad => 4
  | aadUser => 5
  | aadJwt => 6

theorem TicketType.toNat_injective : Function.Injective TicketType.toNat := by
  intro a b h
  cases a <;> cases b <;> first | rfl | cases h

instance : LinearOrder TicketType := LinearOrder.lift' TicketType.toNat TicketType.toNat_injective

/-! ## The names of the common fields -/

def appExperimentIds : String := "AppInfo.ExperimentIds"
def appExperimentEtag : String := "AppInfo.ETag"
def sessionImpressionId : String := "Session.ImpressionId"
def appId : String := "AppInfo.Id"
def appEnv : String := "AppInfo.Env"
def appName : String := "AppInfo.Name"
def appVersion : String := "AppInfo.Version"
def appLanguage : String := "AppInfo.Language"
def deviceId : String := "DeviceInfo.Id"
def deviceOrgId : String := "DeviceInfo.OrgId"
def deviceMake : String := "DeviceInfo.Make"
def deviceModel : String := "DeviceInfo.Model"
def deviceClass : String := "DeviceInfo.Class"
def commercialId : String := "M365aInfo.EnrolledTenantId"
def osName : String := "DeviceInfo.OsName"
def osBuild : String := "DeviceInfo.OsBuild"
def userId : String := "UserInfo.Id"
def userLanguage : String := "UserInfo.Language"
def userTimezone : String := "UserInfo.TimeZone"
def networkCost : String := "DeviceInfo.NetworkCost"
def networkProvider : String := "DeviceInfo.NetworkProvider"
def networkType : String := "DeviceInfo.NetworkType"

/-- The fields of one `ContextFieldsProvider`. -/
structure Context where
  /-- `m_commonContextFields`. -/
  commonFields : OrdMap String String := OrdMap.empty
  /-- `m_customContextFields`. -/
  customFields : OrdMap String EventProperty := OrdMap.empty
  /-- `m_commonContextEventToConfigIds`. -/
  eventToConfigIds : OrdMap String String := OrdMap.empty
  /-- `m_ticketsMap`. -/
  tickets : OrdMap TicketType String := OrdMap.empty

/-! ## The values of fields -/

/-- The value of a property that is not personal data, but for arrays. -/
def scalarValue : Value :=
  match property.value with
  | .int64 value => { type := .int64, longValue := value }
  | .double value => { type := .double, doubleValue := value.bits }
  | .time ticks => { type := .dateTime, longValue := ticks }
  | .boolean value => { type := .bool, longValue := if value then 1 else 0 }
  | .guid value => { type := .guid, guidValue := [value.toBytes] }
  | _ => { stringValue := property.toString }

/-- A value of personal data. -/
def piiValue : Value :=
  { attributes := [{ pii := [property.piiKind] }], stringValue := property.toString }

/-- The value of a custom field. -/
def contextValue : Value :=
  if property.piiKind ≠ .none then piiValue property else scalarValue property

/-- The device id with the kind of id before it, and without the braces of
a GUID. -/
def localDeviceId (id : String) : String :=
  let kind := match id.toList with
    | c :: ':' :: _ => if c ∈ ['c', 'u', 'a', 's', 'x', 'i'] then "" else "c:"
    | _ => "c:"
  if id.toList.head? = some '\x7b' ∧ id.toList.getLast? = some '\x7d' then
    kind ++ String.ofList id.toList.tail.dropLast
  else kind ++ id

/-! ## Writing to a record -/

/-- The extensions the fields go to are there. -/
def ensureExtensions (record : Record) : Record :=
  { record with
    data := ensured {} record.data
    extApp := ensured {} record.extApp
    extDevice := ensured {} record.extDevice
    extOs := ensured {} record.extOs
    extUser := ensured {} record.extUser
    extLoc := ensured {} record.extLoc
    extNet := ensured {} record.extNet
    extProtocol := ensured {} record.extProtocol
    extM365a := ensured {} record.extM365a }

/-- One common field, if it is set. -/
def writeField (name : String) (set : Record → String → Record) (fields : OrdMap String String)
    (record : Record) : Record :=
  match fields.find? name with
  | some value => set record value
  | none => record

/-- `COMMONFIELDS_APP_NAME`; without it the name is the id, if that is set. -/
def writeAppName (fields : OrdMap String String) (record : Record) : Record :=
  match fields.find? appName with
  | some value => record.onApp fun app => { app with name := value }
  | none =>
    if (fields.find? appId).isSome then record.onApp fun app => { app with name := app.id }
    else record

/-- The common fields, in the order they are written in. -/
def commonWrites : List (OrdMap String String → Record → Record) :=
  [writeField sessionImpressionId fun r v => r.setProperty sessionImpressionId { stringValue := v },
    writeField appExperimentEtag fun r v => r.setProperty appExperimentEtag { stringValue := v },
    writeField appId fun r v => r.onApp fun app => { app with id := v },
    writeField appEnv fun r v => r.onApp fun app => { app with env := v },
    writeAppName,
    writeField appVersion fun r v => r.onApp fun app => { app with ver := v },
    writeField appLanguage fun r v => r.onApp fun app => { app with locale := v },
    writeField deviceId fun r v => r.onDevice fun device => { device with localId := localDeviceId v },
    writeField deviceOrgId fun r v => r.onDevice fun device => { device with orgId := v },
    writeField deviceMake fun r v => r.onProtocol fun protocol => { protocol with devMake := v },
    writeField deviceModel fun r v => r.onProtocol fun protocol => { protocol with devModel := v },
    writeField deviceClass fun r v => r.onDevice fun device => { device with deviceClass := v },
    writeField commercialId fun r v => r.onM365a fun _ => { enrolledTenantId := v },
    writeField osName fun r v => r.onOs fun os => { os with name := v },
    writeField osBuild fun r v => r.onOs fun os => { os with ver := v },
    writeField userId fun r v => r.onUser fun user => { user with localId := v },
    writeField userLanguage fun r v => r.onUser fun user => { user with locale := v },
    writeField userTimezone fun r v => r.onLoc fun loc => { loc with timezone := v },
    writeField networkCost fun r v => r.onNet fun net => { net with cost := v },
    writeField networkProvider fun r v => r.onNet fun net => { net with provider := v },
    writeField networkType fun r v => r.onNet fun net => { net with type := v }]

namespace Context

variable (context : Context) (record : Record)

/-- The experiment ids, those of the event first. Reading them with
`operator[]` leaves an empty text behind, so that the map of the common
fields is never found empty. -/
def writeExperimentIds : Record :=
  let value := (context.commonFields.find? appExperimentIds).getD ""
  if value = "" then record
  else
    let ids := if record.name = "" then value
      else (context.eventToConfigIds.find? record.name).getD value
    record.onApp fun app => { app with expId := ids }

def writeCommonFields : Record :=
  commonWrites.foldl (fun r write => write context.commonFields r) record

/-- The tickets of the context, as one more element of the extension. -/
def writeTickets : Record :=
  if context.tickets.entries = [] then record
  else { record with
    extProtocol := record.extProtocol ++ [{ ticketKeys := [context.tickets.values] }] }

def writeCustomFields : Record :=
  context.customFields.entries.foldl
    (fun r field => r.setProperty field.1 (contextValue field.2)) record

/-- `writeToRecord`, behind the call for the parent. -/
def writeOwn (commonOnly : Bool) : Record :=
  let common := context.writeTickets
    (context.writeCommonFields (context.writeExperimentIds (ensureExtensions record)))
  if commonOnly then common else context.writeCustomFields common

/-- `ContextFieldsProvider::writeToRecord`, with the parents of the
context, the nearest first. -/
def writeToRecord (context : Context) : List Context → Record → (commonOnly : Bool) → Record
  | [], record, commonOnly => context.writeOwn record commonOnly
  | parent :: parents, record, commonOnly =>
    context.writeOwn (parent.writeToRecord parents record false) commonOnly

/-! ## Experiment ids -/

/-- `ContextFieldsProvider::SetCommonField`. -/
def setCommonField (name value : String) : Context :=
  { context with commonFields := context.commonFields.insert name value }

/-- `ContextFieldsProvider::ClearExperimentIds`. -/
def clearExperimentIds : Context :=
  { context.setCommonField appExperimentIds "" with eventToConfigIds := OrdMap.empty }

/-- `ContextFieldsProvider::SetEventExperimentIds`. -/
def setEventExperimentIds (eventName experimentIds : String) : Context :=
  if eventName = "" then context
  else if experimentIds ≠ "" then
    { context with
      eventToConfigIds := context.eventToConfigIds.insert (toLower eventName) experimentIds }
  else { context with eventToConfigIds := context.eventToConfigIds.erase (toLower eventName) }

end Context

/-- **The calls that change the experiment ids of events.** -/
inductive ExperimentCall where
  | setEventExperimentIds (eventName experimentIds : String)
  | clearExperimentIds

/-- One call. -/
def Context.experimentCall (context : Context) : ExperimentCall → Context
  | .setEventExperimentIds eventName experimentIds =>
    context.setEventExperimentIds eventName experimentIds
  | .clearExperimentIds => context.clearExperimentIds

end ClientTelemetry
