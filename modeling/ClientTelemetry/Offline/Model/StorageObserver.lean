import ClientTelemetry.Offline.Model.Handler
import ClientTelemetry.Packager.Model.Packager
/-!
# The storage observer

`StorageObserver` stands between the routes of the system and the storage
handler: it stores incoming events, fills an upload context through the
packager, and passes the ids of a context on when its response is in. A
pass-through handler that returns false stops its route; the observer's
does so for an event that was not stored, after it has signalled
`storeRecordFailed`.
-/

namespace ClientTelemetry

namespace StorageObserver

variable {δ : Type} (D : DiskStorage δ) (h : Handler δ)

/-- The record as it is stored, with the time of its arrival. -/
def stamped (record : StorageRecord) (now : ℕ) : StorageRecord := { record with timestamp := now }

/-- `StorageObserver::handleStoreRecord`. True goes on to
`stats.onIncomingEventAccepted`; false was signalled through
`storeRecordFailed`. -/
def handleStoreRecord (record : StorageRecord) (now : ℕ) : Bool × Handler δ :=
  h.storeRecord D (stamped record now) now

/-- The two ends of `handleRetrieveEvents`. -/
inductive Retrieved where
  | retrievalFailed
  | retrievalFinished
  deriving DecidableEq, Repr

/-- The lease of a retrieval, in milliseconds. -/
def leaseTimeMs : ℕ := 120000

/-- `StorageObserver::handleRetrieveEvents`, with the packager behind
`retrievedEvent`. -/
def handleRetrieveEvents (p : Packager) (h : Handler δ) (ctx : EventsUploadContext) (now : ℕ) :
    Retrieved × EventsUploadContext × Handler δ :=
  let (found, ctx', h) := h.getAndReserveRecords D p.handleAddEventToPackage ctx leaseTimeMs
    ctx.requestedMinLatency ctx.requestedMaxCount now
  (if found then .retrievalFinished else .retrievalFailed,
    { ctx' with fromMemory := h.readFromMemory }, h)

/-- The headers of the context's response, if it has one. -/
def responseHeaders (ctx : EventsUploadContext) : HttpHeaders :=
  match ctx.httpResponse with
  | some response => response.headers
  | none => []

/-- The call of `StorageObserver::handleDeleteRecords` on the handler. -/
def handleDeleteRecords (ctx : EventsUploadContext) : HandlerOp :=
  .deleteRecords ctx.recordIds (responseHeaders ctx) ctx.fromMemory

/-- That of `StorageObserver::handleReleaseRecords`. -/
def handleReleaseRecords (ctx : EventsUploadContext) : HandlerOp :=
  .releaseRecords ctx.recordIds false (responseHeaders ctx) ctx.fromMemory

/-- That of `StorageObserver::handleReleaseRecordsIncRetryCount`. -/
def handleReleaseRecordsIncRetryCount (ctx : EventsUploadContext) : HandlerOp :=
  .releaseRecords ctx.recordIds true (responseHeaders ctx) ctx.fromMemory

end StorageObserver

end ClientTelemetry
