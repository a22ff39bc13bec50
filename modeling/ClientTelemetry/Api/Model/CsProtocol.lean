import ClientTelemetry.Api.Model.Property
/-!
# Records of the Common Schema

`CsProtocol::Record`, the form in which an event is sent, as the build
without `HAVE_CS4` has it. Part A are the fields about the sender, each a
vector of which the first element is used. Part B and Part C, the data of
the event, are maps from names to values.

`record.extApp[0]` is the head of a list. What the code does to it is
`List.modifyHead`, which leaves an empty list as it is; the code never
comes to an empty one.
-/

namespace ClientTelemetry

namespace CsProtocol

/-! ## Values -/

/-- `ValueKind`, the enumerators the client uses. -/
inductive ValueKind where
  | int64
  | double
  | string
  | bool
  | dateTime
  | guid
  | arrayInt64
  | arrayDouble
  | arrayString
  | arrayGuid
  deriving DecidableEq

/-- `CustomerContentKind`. -/
inductive CustomerContentKind where
  | notSet
  | genericContent
  deriving DecidableEq

/-- `Attributes`. The kind of a `PII` is cast from a `PiiKind`. -/
structure Attributes where
  pii : List PiiKind := []
  customerContent : List CustomerContentKind := []
  deriving DecidableEq

/-- `Value`. -/
structure Value where
  type : ValueKind := .string
  attributes : List Attributes := []
  stringValue : String := ""
  longValue : ℤ := 0
  doubleValue : UInt64 := 0
  guidValue : List (List UInt8) := []
  stringArray : List (List String) := []
  longArray : List (List ℤ) := []
  doubleArray : List (List UInt64) := []
  guidArray : List (List (List UInt8)) := []
  deriving DecidableEq

/-- `Data`. -/
structure Data where
  properties : OrdMap String Value := OrdMap.empty
  deriving DecidableEq

/-! ## Part A -/

/-- `Protocol`. -/
structure Protocol where
  metadataCrc : ℤ := 0
  ticketKeys : List (List String) := []
  devMake : String := ""
  devModel : String := ""
  deriving DecidableEq

/-- `User`. -/
structure User where
  id : String := ""
  localId : String := ""
  authId : String := ""
  locale : String := ""
  deriving DecidableEq

/-- `Device`. -/
structure Device where
  id : String := ""
  localId : String := ""
  authId : String := ""
  authSecId : String := ""
  deviceClass : String := ""
  orgId : String := ""
  orgAuthId : String := ""
  make : String := ""
  model : String := ""
  deriving DecidableEq

/-- `Os`. -/
structure Os where
  locale : String := ""
  expId : String := ""
  bootId : ℤ := 0
  name : String := ""
  ver : String := ""
  deriving DecidableEq

/-- `App`. -/
structure App where
  expId : String := ""
  userId : String := ""
  env : String := ""
  asId : ℤ := 0
  id : String := ""
  ver : String := ""
  locale : String := ""
  name : String := ""
  deriving DecidableEq

/-- `Net`. -/
structure Net where
  provider : String := ""
  cost : String := ""
  type : String := ""
  deriving DecidableEq

/-- `Sdk`. -/
structure Sdk where
  libVer : String := ""
  epoch : String := ""
  seq : Int64 := 0
  installId : String := ""
  deriving DecidableEq

/-- `Loc`. -/
structure Loc where
  id : String := ""
  country : String := ""
  timezone : String := ""
  deriving DecidableEq

/-- `M365a`. -/
structure M365a where
  enrolledTenantId : String := ""
  deriving DecidableEq

/-! ## Records -/

/-- `Record`. The flags and the sampling rate are carried as their bits;
`0x4059000000000000` is 100. -/
structure Record where
  ver : String := ""
  name : String := ""
  time : ℤ := 0
  popSample : UInt64 := 0x4059000000000000
  iKey : String := ""
  flags : UInt64 := 0
  cV : String := ""
  extProtocol : List Protocol := []
  extUser : List User := []
  extDevice : List Device := []
  extOs : List Os := []
  extApp : List App := []
  extNet : List Net := []
  extSdk : List Sdk := []
  extLoc : List Loc := []
  extM365a : List M365a := []
  baseType : String := ""
  baseData : List Data := []
  data : List Data := []
  deriving DecidableEq

namespace Record

variable (record : Record)

/-! A change to the first element of an extension. -/

def onProtocol (change : Protocol → Protocol) : Record :=
  { record with extProtocol := record.extProtocol.modifyHead change }

def onUser (change : User → User) : Record :=
  { record with extUser := record.extUser.modifyHead change }

def onDevice (change : Device → Device) : Record :=
  { record with extDevice := record.extDevice.modifyHead change }

def onOs (change : Os → Os) : Record :=
  { record with extOs := record.extOs.modifyHead change }

def onApp (change : App → App) : Record :=
  { record with extApp := record.extApp.modifyHead change }

def onNet (change : Net → Net) : Record :=
  { record with extNet := record.extNet.modifyHead change }

def onLoc (change : Loc → Loc) : Record :=
  { record with extLoc := record.extLoc.modifyHead change }

def onM365a (change : M365a → M365a) : Record :=
  { record with extM365a := record.extM365a.modifyHead change }

/-- `record.data[0].properties[name] = value`. -/
def setProperty (name : String) (value : Value) : Record :=
  { record with
    data := record.data.modifyHead fun d => { properties := d.properties.insert name value } }

end Record

/-- A default element is put into an empty vector. -/
def ensured {α : Type} (default : α) : List α → List α
  | [] => [default]
  | a :: as => a :: as

end CsProtocol

end ClientTelemetry
