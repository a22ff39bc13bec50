import ClientTelemetry.Model.Record
/-!
# The upload context and the packager

An upload collects the records it sends in an `EventsUploadContext`. The
packager adds one record at a time, under the size limit, and tells
whether it wants more (`Packager.cpp`); the splicer keeps the blobs in
one buffer and the records of each tenant as spans of it
(`BondSplicer.cpp`). An allocation that fails is not modelled.
-/

namespace ClientTelemetry

/-! ## The splicer -/

/-- A stretch of the buffer. -/
structure Span where
  offset : ℕ
  length : ℕ
  deriving DecidableEq, Repr

/-- The records of one tenant. -/
structure PackageInfo where
  tenantToken : String
  header : Span
  records : List Span
  deriving DecidableEq, Repr

/-- **The state of the splicer.** -/
structure BondSplicer where
  buffer : List UInt8 := []
  packages : List PackageInfo := []
  overheadEstimate : ℕ := 0
  deriving DecidableEq, Repr

namespace BondSplicer

variable (s : BondSplicer)

/-- `BondSplicer::addTenantToken`, with the index of the new package. -/
def addTenantToken (tenantToken : String) : ℕ × BondSplicer :=
  (s.packages.length, { s with
    overheadEstimate := s.overheadEstimate + 8 + tenantToken.utf8ByteSize
    packages := s.packages ++ [⟨tenantToken, ⟨s.buffer.length, 0⟩, []⟩] })

/-- `BondSplicer::addRecord`. -/
def addRecord (dataPackageIndex : ℕ) (recordBlob : StorageBlob) : BondSplicer :=
  { s with
    packages := s.packages.modify dataPackageIndex fun p =>
      { p with records := p.records ++ [⟨s.buffer.length, recordBlob.length⟩] }
    buffer := s.buffer ++ recordBlob }

/-- `BondSplicer::getSizeEstimate`. -/
def getSizeEstimate : ℕ := s.buffer.length + s.overheadEstimate + 8

/-- `BondSplicer::splice`: the records, tenant after tenant. -/
def splice : List UInt8 :=
  s.packages.flatMap fun p => p.records.flatMap fun span =>
    (s.buffer.drop span.offset).take span.length

/-- `BondSplicer::clear`. -/
def clear (_ : BondSplicer) : BondSplicer := {}

end BondSplicer

/-! ## The context -/

/-- How a request ended. -/
inductive HttpResult where
  | ok
  | aborted
  | localFailure
  | networkFailure
  deriving DecidableEq, Repr

/-- The response to a request. -/
structure HttpResponse where
  result : HttpResult
  statusCode : ℕ
  headers : HttpHeaders
  body : List UInt8
  deriving DecidableEq

/-- **One upload**, from the request for records to the response. -/
structure EventsUploadContext where
  requestedMinLatency : EventLatency := .unspecified
  requestedMaxCount : ℕ := 0
  splicer : BondSplicer := {}
  maxUploadSize : ℕ := 0
  latency : EventLatency := .unspecified
  packageIds : OrdMap String ℕ := OrdMap.empty
  recordIdsAndTenantIds : OrdMap StorageRecordId String := OrdMap.empty
  recordTimestamps : List ℤ := []
  maxRetryCountSeen : ℤ := 0
  body : List UInt8 := []
  compressed : Bool := false
  httpResponse : Option HttpResponse := none
  fromMemory : Bool := false

/-- The ids a context has packaged. -/
def EventsUploadContext.recordIds (ctx : EventsUploadContext) : List StorageRecordId :=
  ctx.recordIdsAndTenantIds.keys

/-- The context of an upload before its records are retrieved. -/
def requested (minLatency : EventLatency) (maxCount : ℕ) : EventsUploadContext :=
  { requestedMinLatency := minLatency, requestedMaxCount := maxCount }

/-! ## The packager -/

/-- **The configuration of the packager.** -/
structure Packager where
  /-- `forcedTenantToken`, empty if there is none. -/
  forcedTenantToken : String
  /-- `GetMaximumUploadSizeBytes()`. -/
  maximumUploadSizeBytes : ℕ

namespace Packager

/-- The package of a tenant, which is opened if there is none. -/
def packageOf (ctx : EventsUploadContext) (tenantToken : String) : ℕ × EventsUploadContext :=
  match ctx.packageIds.find? tenantToken with
  | some i => (i, ctx)
  | none =>
    let (i, splicer) := ctx.splicer.addTenantToken tenantToken
    (i, { ctx with splicer := splicer, packageIds := ctx.packageIds.insert tenantToken i })

/-- The part of `handleAddEventToPackage` that adds. -/
def addEvent (p : Packager) (ctx : EventsUploadContext) (record : StorageRecord) :
    EventsUploadContext :=
  let latency := if ctx.latency = .unspecified then record.latency else ctx.latency
  let tenantToken := if p.forcedTenantToken = "" then record.tenantToken else p.forcedTenantToken
  let (i, ctx) := packageOf { ctx with latency := latency } tenantToken
  { ctx with
    splicer := ctx.splicer.addRecord i record.blob
    recordIdsAndTenantIds := ctx.recordIdsAndTenantIds.insert record.id record.tenantToken
    recordTimestamps := ctx.recordTimestamps ++ [record.timestamp]
    maxRetryCountSeen := max ctx.maxRetryCountSeen record.retryCount }

/-- `Packager::handleAddEventToPackage`, with the answer whether more is
wanted. A first record over the limit is added all the same. -/
def handleAddEventToPackage (p : Packager) (ctx : EventsUploadContext) (record : StorageRecord) :
    Bool × EventsUploadContext :=
  let ctx := if ctx.maxUploadSize = 0
    then { ctx with maxUploadSize := p.maximumUploadSizeBytes } else ctx
  if ctx.maxUploadSize < ctx.splicer.getSizeEstimate + record.blob.length then
    if ctx.recordIdsAndTenantIds.entries ≠ [] then (false, ctx)
    else (false, p.addEvent ctx record)
  else (true, p.addEvent ctx record)

/-- The two ends of `handleFinalizePackage`. -/
inductive Finalized where
  | emptyPackage
  | packagedEvents
  deriving DecidableEq, Repr

/-- `Packager::handleFinalizePackage`. -/
def handleFinalizePackage (ctx : EventsUploadContext) : Finalized × EventsUploadContext :=
  if ctx.packageIds.entries = [] then (.emptyPackage, ctx)
  else (.packagedEvents, { ctx with body := ctx.splicer.splice, splicer := ctx.splicer.clear })

end Packager

end ClientTelemetry
