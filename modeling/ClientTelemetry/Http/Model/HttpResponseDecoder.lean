import ClientTelemetry.Packager.Model.Packager
/-!
# The response decoder

`HttpResponseDecoder` reads the result, the status and the body of a
response and chooses the signal that ends the upload. The JSON library is
a parameter: it turns a text into a value, or fails. Logging and the
debug events are not modelled, nor are the two counts of the body that
only the log shows.
-/

namespace ClientTelemetry

/-! ## The body -/

/-- A parsed JSON value. -/
inductive Json where
  | null
  | boolean (b : Bool)
  | number (text : String)
  | string (s : String)
  | array (elements : List Json)
  | object (members : List (String × Json))

namespace Json

/-- `json::find`, which finds nothing in what is not an object. -/
def find? : Json → String → Option Json
  | object members, key => (members.find? fun m => m.1 = key).map Prod.snd
  | _, _ => none

/-- The value is the text `all`. -/
def isAll : Json → Bool
  | string s => s = "all"
  | _ => false

/-- The loop over `efi`. An iterator over anything but an object has no
key, and asking for it throws before a value was looked at. -/
def failsAll : Json → Bool
  | object members => members.any fun m => m.2.isAll
  | _ => false

end Json

/-- The JSON library. -/
abbrev JsonParser := List UInt8 → Option Json

/-! ## The decoder -/

/-- The outcome of a request. -/
inductive HttpRequestResult where
  | accepted
  | rejected
  | abort
  | retryServer
  | retryNetwork
  deriving DecidableEq, Repr

/-- The signals of the decoder. -/
inductive Decoded where
  | eventsAccepted
  | eventsRejected
  | temporaryNetworkFailure
  | temporaryServerFailure
  | requestAborted
  deriving DecidableEq, Repr

namespace HttpResponseDecoder

variable (parse : JsonParser)

/-- The first switch of `handleDecode`, on the result and the status. -/
def outcomeOf (response : HttpResponse) : HttpRequestResult :=
  match response.result with
  | .ok =>
    if response.statusCode = 200 then .accepted
    else if 500 ≤ response.statusCode ∨ response.statusCode = 408 ∨ response.statusCode = 429 then
      .retryServer
    else .rejected
  | .aborted => .abort
  | .localFailure => .retryNetwork
  | .networkFailure => .retryNetwork

/-- `HttpResponseDecoder::processBody`. The text is handed to the parser
as a C string, and what it throws is caught. -/
def processBody (response : HttpResponse) (result : HttpRequestResult) : HttpRequestResult :=
  match parse (response.body.takeWhile (· ≠ 0)) with
  | none => result
  | some body =>
    match body.find? "efi" with
    | none => result
    | some efi => if efi.failsAll then .rejected else result

/-- The context after the first switch: a request that got no response
has none. -/
def dropsResponse (ctx : EventsUploadContext) (response : HttpResponse) : EventsUploadContext :=
  match response.result with
  | .ok => ctx
  | _ => { ctx with httpResponse := none }

/-- `HttpResponseDecoder::handleDecode`, for the response the context
points to. -/
def handleDecode (ctx : EventsUploadContext) (response : HttpResponse) :
    Decoded × EventsUploadContext :=
  let outcome := outcomeOf response
  let ctx := dropsResponse ctx response
  let outcome := if response.body ≠ [] then processBody parse response outcome else outcome
  match outcome with
  | .accepted => (.eventsAccepted, ctx)
  | .rejected => (.eventsRejected, ctx)
  | .abort => (.requestAborted, { ctx with httpResponse := none })
  | .retryServer => (.temporaryServerFailure, ctx)
  | .retryNetwork => (.temporaryNetworkFailure, ctx)

/-- Decoding leaves the packaged records alone. -/
theorem handleDecode_recordIds (ctx : EventsUploadContext)
    (response : HttpResponse) : (handleDecode parse ctx response).2.recordIds = ctx.recordIds := by
  have hdrop : (dropsResponse ctx response).recordIds = ctx.recordIds := by
    unfold dropsResponse
    split <;> rfl
  unfold handleDecode
  dsimp only
  split <;> exact hdrop

end HttpResponseDecoder

end ClientTelemetry
