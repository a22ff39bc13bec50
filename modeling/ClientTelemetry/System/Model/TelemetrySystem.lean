import ClientTelemetry.Http.Model.HttpResponseDecoder
import ClientTelemetry.Offline.Model.StorageObserver
import ClientTelemetry.Tpm.Model.TransmissionPolicyManager
/-!
# The routes of the telemetry system

`TelemetrySystem` wires the storage observer, the packager, the
compression, the HTTP client manager, the response decoder and the
transmission policy manager to one another. A context runs through the
routes from `initiateUpload` to `sendRequest` in one go, waits as a
callback of the client manager, and runs on when its response is in.

The pass-through handlers on these routes return true, but for a
compression that failed; encoding, the clock skew and the statistics
change nothing that is modelled. What the HTTP client, the compression and
the JSON library answer is arbitrary. An exception that leaves a handler
ends the process.
-/

namespace ClientTelemetry

open StorageObserver

/-- What the routes are configured with. -/
structure SystemConfig where
  packager : Packager
  /-- `IsHttpRequestCompressionEnabled()`. -/
  compressionEnabled : Bool
  /-- What deflating a body of a context gives, unless it fails. -/
  deflate : ContextId → List UInt8 → Option (List UInt8)
  parse : JsonParser

/-- What happens in the routes, in the order it happens. -/
inductive RouteEvent where
  /-- `addUpload`. -/
  | added
  /-- The call was made on the storage handler. -/
  | called (now : ℕ) (op : HandlerOp)
  /-- A terminal handler ran, on a context with these ids packaged. -/
  | closed (handler : Terminal) (packaged : List StorageRecordId)

/-- **The state of the system.** The trace is the history of its contexts
and of its storage; a call that settles no context is under none. -/
structure TelemetrySystem (δ : Type) where
  storage : Handler δ
  tpm : TransmissionPolicyManager := {}
  /-- `m_httpCallbacks`, each with its context. -/
  httpCallbacks : List (ContextId × EventsUploadContext) := []
  nextContext : ContextId := 0
  trace : List (Option ContextId × RouteEvent) := []
  /-- The exception that ended the process. -/
  fault : Option Fault := none

/-- How a call that settles records ends. -/
def HandlerOp.outcome {δ : Type} (D : DiskStorage δ) (h : Handler δ) (now : ℕ) :
    HandlerOp → Except Fault Unit
  | deleteRecords ids headers fromMemory => (h.deleteRecords D ids headers fromMemory now).1
  | releaseRecords ids inc headers fromMemory =>
    (h.releaseRecords D ids inc headers fromMemory now).1
  | _ => .ok ()

/-- A route to a terminal handler, by way of the storage observer. -/
abbrev StorageRoute := (EventsUploadContext → HandlerOp) × Terminal

/-- The routes out of the decoder. -/
def Decoded.route : Decoded → StorageRoute
  | eventsAccepted => (handleDeleteRecords, .eventsUploadSuccessful)
  | eventsRejected => (handleDeleteRecords, .eventsUploadRejected)
  | temporaryNetworkFailure => (handleReleaseRecords, .eventsUploadFailed)
  | temporaryServerFailure => (handleReleaseRecordsIncRetryCount, .eventsUploadFailed)
  | requestAborted => (handleReleaseRecords, .eventsUploadAborted)

/-- `HttpDeflateCompression::handleCompress`; none stands for
`compressionFailed`. -/
def SystemConfig.handleCompress (cfg : SystemConfig) (c : ContextId) (ctx : EventsUploadContext) :
    Option EventsUploadContext :=
  if !cfg.compressionEnabled then some ctx
  else (cfg.deflate c ctx.body).map fun body => { ctx with body := body, compressed := true }

namespace TelemetrySystem

variable {δ : Type} (D : DiskStorage δ) (cfg : SystemConfig) (s : TelemetrySystem δ)

/-- An event, noted. -/
def note (c : Option ContextId) (e : RouteEvent) : TelemetrySystem δ :=
  { s with trace := s.trace ++ [(c, e)] }

/-- A terminal handler. -/
def close (c : ContextId) (handler : Terminal) (ctx : EventsUploadContext) : TelemetrySystem δ :=
  { s with tpm := s.tpm.finishUpload c }.note c (.closed handler ctx.recordIds)

/-- A call on the storage handler. -/
def callStorage (c : Option ContextId) (now : ℕ) (op : HandlerOp) : TelemetrySystem δ :=
  { s with storage := s.storage.step D (now, op) }.note c (.called now op)

/-- A route through the storage to a terminal handler. -/
def settle (c : ContextId) (ctx : EventsUploadContext) (route : StorageRoute) (now : ℕ) :
    TelemetrySystem δ :=
  let s' := s.callStorage D c now (route.1 ctx)
  match (route.1 ctx).outcome D s.storage now with
  | .error e => { s' with fault := some e }
  | .ok () => s'.close c route.2 ctx

/-- `packagedEvents`, through the compression to `sendRequest`. -/
def packagedEvents (c : ContextId) (ctx : EventsUploadContext) (now : ℕ) : TelemetrySystem δ :=
  match cfg.handleCompress c ctx with
  | none => s.settle D c ctx (handleReleaseRecords, .packagingFailed) now
  | some ctx => { s with httpCallbacks := s.httpCallbacks ++ [(c, ctx)] }

/-- The call of a retrieval on the storage handler. -/
def retrieval (ctx : EventsUploadContext) : HandlerOp :=
  .getAndReserveRecords ⟨_, ctx, cfg.packager.handleAddEventToPackage⟩ leaseTimeMs
    ctx.requestedMinLatency ctx.requestedMaxCount

/-- `initiateUpload`, through the storage and the packager. -/
def initiateUpload (c : ContextId) (ctx : EventsUploadContext) (now : ℕ) : TelemetrySystem δ :=
  let s' := s.callStorage D none now (retrieval cfg ctx)
  match handleRetrieveEvents D cfg.packager s.storage ctx now with
  | (.retrievalFailed, ctx, _) => s'.close c .nothingToUpload ctx
  | (.retrievalFinished, ctx, _) =>
    match Packager.handleFinalizePackage ctx with
    | (.emptyPackage, ctx) => s'.close c .nothingToUpload ctx
    | (.packagedEvents, ctx) => s'.packagedEvents D cfg c ctx now

/-- A context is created and inserted. -/
def addContext : TelemetrySystem δ :=
  { s with
    nextContext := s.nextContext + 1
    tpm := s.tpm.addUpload s.nextContext }.note s.nextContext .added

/-- The end of `uploadAsync`, and the branch of `handleEventArrived` that
uploads at once. -/
def openUpload (latency : EventLatency) (now : ℕ) : TelemetrySystem δ :=
  s.addContext.initiateUpload D cfg s.nextContext (requested latency 0) now

/-- `uploadAsync`. -/
def uploadAsync (latency : EventLatency) (now : ℕ) : TelemetrySystem δ :=
  if s.tpm.uploadsAsync then s.openUpload D cfg latency now else s

/-- `handleEventArrived`. -/
def handleEventArrived (latency : EventLatency) (now : ℕ) : TelemetrySystem δ :=
  if s.tpm.uploadsArrived latency then s.openUpload D cfg latency now else s

/-- `preparedIncomingEvent`, through the storage to `eventArrived`. -/
def preparedIncomingEvent (record : StorageRecord) (now : ℕ) : TelemetrySystem δ :=
  let s' := s.callStorage D none now (.storeRecord (stamped record now))
  if (handleStoreRecord D s.storage record now).1 then
    s'.handleEventArrived D cfg record.latency now
  else s'

/-- The callback of a context is removed. -/
def removeCallback (c : ContextId) : TelemetrySystem δ :=
  { s with httpCallbacks := s.httpCallbacks.filter fun callback => callback.1 ≠ c }

/-- `HttpClientManager::onHttpResponse` for the callback of a context. -/
def onHttpResponse (c : ContextId) (response : HttpResponse) (now : ℕ) : TelemetrySystem δ :=
  match s.httpCallbacks.find? fun callback => callback.1 = c with
  | none => s
  | some (_, ctx) =>
    let (decoded, ctx) := HttpResponseDecoder.handleDecode cfg.parse
      { ctx with httpResponse := some response } response
    let s := s.settle D c ctx decoded.route now
    if s.fault.isSome then s else s.removeCallback c

end TelemetrySystem

/-! ## Runs -/

/-- What the system is driven by. The response of a context that waits for
none is no step of the HTTP client. -/
inductive SystemOp where
  | start
  | pause
  | stop
  | preparedIncomingEvent (record : StorageRecord)
  | uploadAsync (latency : EventLatency)
  | onHttpResponse (c : ContextId) (response : HttpResponse)
  /-- A call on the storage from elsewhere. -/
  | storage (op : HandlerOp)

/-- **One step of the system**, at a time. -/
def TelemetrySystem.step {δ : Type} (D : DiskStorage δ) (cfg : SystemConfig)
    (s : TelemetrySystem δ) (a : ℕ × SystemOp) : TelemetrySystem δ :=
  if s.fault.isSome then s
  else
    match a.2 with
    | .start => { s with tpm := s.tpm.handleStart }
    | .pause => { s with tpm := s.tpm.handlePause }
    | .stop => { s with tpm := s.tpm.handleStop }
    | .preparedIncomingEvent record => s.preparedIncomingEvent D cfg record a.1
    | .uploadAsync latency => s.uploadAsync D cfg latency a.1
    | .onHttpResponse c response => s.onHttpResponse D cfg c response a.1
    | .storage op => s.callStorage D none a.1 op

end ClientTelemetry
