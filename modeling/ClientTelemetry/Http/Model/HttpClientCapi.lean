import ClientTelemetry.Packager.Model.Packager
/-!
# The HTTP clients of the C API

`HttpClient_CAPI` hands a request to a function of the host and keeps it
among the pending operations, from where `OnHttpResponse` takes it. There
is one map of them in the process, for all clients. What the callbacks and
the cancel functions of the host are called with is kept as a history.
-/

namespace ClientTelemetry

/-- The id `CreateRequest` gives the request of this number. The counter is
an `int32_t`. -/
def capiRequestId (request : ℕ) : String :=
  "OneDS_HTTP-" ++ toString (BitVec.ofNat 32 request).toInt

/-- `http_response_t`. -/
structure CapiResponse where
  statusCode : BitVec 32
  headers : HttpHeaders
  body : List UInt8

/-- The response a host gives, as `SimpleHttpResponse`. -/
def simpleHttpResponse (result : ℕ) (capiResponse : Option CapiResponse) : HttpResponse where
  result := match result with
    | 0 => .ok
    | 1 => .aborted
    | 2 => .localFailure
    | 3 => .networkFailure
    | _ => .localFailure
  statusCode := (capiResponse.map fun r => r.statusCode.toNat).getD 0
  headers := (capiResponse.map CapiResponse.headers).getD []
  body := (capiResponse.map CapiResponse.body).getD []

/-- `HttpClient_Operation`: a request with the client whose cancel function
it has, and its callback, by the number of the send. -/
structure HttpOperation (κ : Type*) where
  client : κ
  request : ℕ
  callback : ℕ
  deriving DecidableEq

/-- **All the clients of a process.** -/
structure HttpClients (κ : Type*) where
  /-- `s_operations`. -/
  pending : OrdMap String (HttpOperation κ) := OrdMap.empty
  /-- How many sends there were. -/
  sends : ℕ := 0
  /-- The responses of the host, each for an id. -/
  given : List (String × HttpResponse) := []
  /-- The operations whose callbacks were called, with the response. -/
  answered : List (HttpOperation κ × String × HttpResponse) := []
  /-- The operations cancelled by `CancelRequestAsync`. -/
  cancelled : List (HttpOperation κ) := []
  /-- The operations cancelled by `CancelAllRequests`, each with the client
  it was called for. -/
  swept : List (κ × HttpOperation κ) := []

/-- **What can happen**, in any order. -/
inductive HttpClientAction (κ : Type*) where
  | sendRequestAsync (client : κ) (request : ℕ)
  | cancelRequestAsync (client : κ) (id : String)
  | cancelAllRequests (client : κ)
  | onHttpResponse (requestId : String) (result : ℕ) (capiResponse : Option CapiResponse)

namespace HttpClients

variable {κ : Type*} (s : HttpClients κ)

/-- `HttpClient_CAPI::SendRequestAsync`. -/
def sendRequestAsync (client : κ) (request : ℕ) : HttpClients κ :=
  { s with
    pending := s.pending.insert (capiRequestId request) ⟨client, request, s.sends⟩
    sends := s.sends + 1 }

/-- `HttpClient_CAPI::CancelRequestAsync`. The operation stays pending. -/
def cancelRequestAsync (id : String) : HttpClients κ :=
  match s.pending.find? id with
  | some operation => { s with cancelled := operation :: s.cancelled }
  | none => s

/-- `HttpClient_CAPI::CancelAllRequests`. -/
def cancelAllRequests (client : κ) : HttpClients κ :=
  { s with swept := s.pending.values.map (client, ·) ++ s.swept }

/-- `OnHttpResponse`. -/
def onHttpResponse (requestId : String) (response : HttpResponse) : HttpClients κ :=
  let s := { s with given := (requestId, response) :: s.given }
  match s.pending.find? requestId with
  | some operation =>
    { s with
      pending := s.pending.erase requestId
      answered := (operation, requestId, response) :: s.answered }
  | none => s

/-- One step. -/
def step : HttpClientAction κ → HttpClients κ
  | .sendRequestAsync client request => s.sendRequestAsync client request
  | .cancelRequestAsync _ id => s.cancelRequestAsync id
  | .cancelAllRequests client => s.cancelAllRequests client
  | .onHttpResponse requestId result capiResponse =>
    s.onHttpResponse requestId (simpleHttpResponse result capiResponse)

end HttpClients

end ClientTelemetry
