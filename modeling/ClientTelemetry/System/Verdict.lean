import ClientTelemetry.System.Uploads
/-!
# What a response does to the records of its upload

The decoder first looks at the result and the status of a response and
then lets the body overrule the outcome: a body that reports a failure of
all events makes it a rejection, whatever the status was
(`processBody_eq`). The routes turn a rejection into a deletion. So a
record is deleted, released with a retry or released without one as its
response asks for, exactly as long as such a body comes with a final
status only (`deleted_on_final_verdict_iff`).
-/

namespace ClientTelemetry

namespace HttpResponseDecoder

variable (parse : JsonParser)

/-- The body, read as JSON, reports a failure of all events. -/
def reportsAll (response : HttpResponse) : Bool :=
  match parse (response.body.takeWhile (· ≠ 0)) with
  | none => false
  | some body =>
    match body.find? "efi" with
    | none => false
    | some efi => efi.failsAll

/-- **The body makes the outcome a rejection.** An empty body is not
looked at. -/
def RejectsAll (response : HttpResponse) : Prop :=
  response.body ≠ [] ∧ reportsAll parse response = true

instance (parse : JsonParser) (response : HttpResponse) : Decidable (RejectsAll parse response) :=
  inferInstanceAs (Decidable (_ ∧ _))

/-- All that a body can do to an outcome. -/
theorem processBody_eq (response : HttpResponse) (result : HttpRequestResult) :
    processBody parse response result =
      if reportsAll parse response then .rejected else result := by
  rcases hparse : parse (response.body.takeWhile (· ≠ 0)) with _ | body
  · simp only [processBody, reportsAll, hparse, Bool.false_eq_true, if_false]
  · rcases hefi : body.find? "efi" with _ | efi
    · simp only [processBody, reportsAll, hparse, hefi, Bool.false_eq_true, if_false]
    · simp only [processBody, reportsAll, hparse, hefi]

/-- The signal an outcome is reported by. -/
def signalOf : HttpRequestResult → Decoded
  | .accepted => .eventsAccepted
  | .rejected => .eventsRejected
  | .abort => .requestAborted
  | .retryServer => .temporaryServerFailure
  | .retryNetwork => .temporaryNetworkFailure

/-- **The signal in one equation.** -/
theorem handleDecode_fst (ctx : EventsUploadContext) (response : HttpResponse) :
    (handleDecode parse ctx response).1 =
      if RejectsAll parse response then .eventsRejected else signalOf (outcomeOf response) := by
  have hsignal : (handleDecode parse ctx response).1 =
      signalOf (if response.body ≠ [] then processBody parse response (outcomeOf response)
        else outcomeOf response) := by
    unfold handleDecode
    dsimp only
    generalize (if response.body ≠ [] then processBody parse response (outcomeOf response)
      else outcomeOf response) = outcome
    cases outcome <;> rfl
  rw [hsignal, processBody_eq]
  by_cases hbody : response.body = []
  · have hnot : ¬ RejectsAll parse response := fun h => h.1 hbody
    rw [if_neg (not_not.2 hbody), if_neg hnot]
  · rw [if_pos hbody]
    by_cases hall : reportsAll parse response = true
    · have hrejects : RejectsAll parse response := ⟨hbody, hall⟩
      rw [if_pos hall, if_pos hrejects]
      rfl
    · have hnot : ¬ RejectsAll parse response := fun h => hall h.2
      rw [if_neg hall, if_neg hnot]

end HttpResponseDecoder

open HttpResponseDecoder

namespace HttpResponse

/-- A status that asks for another attempt. -/
def AsksRetry (response : HttpResponse) : Prop :=
  response.statusCode = 408 ∨ response.statusCode = 429 ∨ 500 ≤ response.statusCode

instance (response : HttpResponse) : Decidable response.AsksRetry :=
  inferInstanceAs (Decidable (_ ∨ _))

/-- **A final verdict**: the server answered, and does not ask for another
attempt. -/
def Final (response : HttpResponse) : Prop := response.result = .ok ∧ ¬ response.AsksRetry

instance (response : HttpResponse) : Decidable response.Final := inferInstanceAs (Decidable (_ ∧ _))

end HttpResponse

namespace HandlerOp

/-- **A call on the storage that suits a response.** Records are deleted
only on a final verdict, a server that asks for another attempt has them
released with a retry, and a request that got no answer without one. -/
structure Suits (op : HandlerOp) (response : HttpResponse) : Prop where
  deleted : ∀ ids headers fromMemory, op = .deleteRecords ids headers fromMemory → response.Final
  retried : response.result = .ok → response.AsksRetry →
    ∃ ids headers fromMemory, op = .releaseRecords ids true headers fromMemory
  unanswered : response.result ≠ .ok →
    ∃ ids headers fromMemory, op = .releaseRecords ids false headers fromMemory

/-- **What the call has done to the storage**: `DeleteRecords` or
`ReleaseRecords` ran on the records given, with the increment that the
call names. -/
def Settles {δ : Type} (D : DiskStorage δ) (ids : List StorageRecordId) (now : ℕ)
    (h h' : Handler δ) : HandlerOp → Prop
  | deleteRecords ids' headers fromMemory =>
    ids' = ids ∧ h' = (h.deleteRecords D ids headers fromMemory now).2
  | releaseRecords ids' inc headers fromMemory =>
    ids' = ids ∧ h' = (h.releaseRecords D ids inc headers fromMemory now).2
  | _ => False

/-- A deletion suits final verdicts only. -/
theorem deleteRecords_suits_iff {response : HttpResponse} {ids : List StorageRecordId}
    {headers : HttpHeaders} {fromMemory : Bool} :
    (deleteRecords ids headers fromMemory).Suits response ↔ response.Final := by
  constructor
  · exact fun h => h.deleted ids headers fromMemory rfl
  · exact fun h => ⟨fun _ _ _ _ => h, fun _ hretry => absurd hretry h.2, fun hne => absurd h.1 hne⟩

end HandlerOp

/-- The call a response leads to, through the decoder and its routes. -/
def SystemConfig.storageCall (cfg : SystemConfig) (ctx : EventsUploadContext)
    (response : HttpResponse) : HandlerOp :=
  let (decoded, ctx) := handleDecode cfg.parse { ctx with httpResponse := some response } response
  decoded.route.1 ctx

/-- Without the body, the call suits the response. -/
theorem suits_of_outcome (ctx : EventsUploadContext) (response : HttpResponse) :
    ((signalOf (outcomeOf response)).route.1 ctx).Suits response := by
  unfold outcomeOf
  rcases hres : response.result with _ | _ | _ | _
  · dsimp only
    have hretry : (500 ≤ response.statusCode ∨ response.statusCode = 408 ∨
        response.statusCode = 429) ↔ response.AsksRetry := by
      unfold HttpResponse.AsksRetry
      omega
    split_ifs with haccepted hserver
    · have hnot : ¬ response.AsksRetry := by
        unfold HttpResponse.AsksRetry
        omega
      exact HandlerOp.deleteRecords_suits_iff.2 ⟨hres, hnot⟩
    · exact ⟨(fun _ _ _ h => nomatch h), fun _ _ => ⟨_, _, _, rfl⟩, fun h => absurd hres h⟩
    · exact HandlerOp.deleteRecords_suits_iff.2 ⟨hres, fun h => hserver (hretry.2 h)⟩
  all_goals
    exact ⟨(fun _ _ _ h => nomatch h), (fun h => nomatch hres.symm.trans h),
      fun _ => ⟨_, _, _, rfl⟩⟩

namespace TelemetrySystem

variable {δ : Type} {D : DiskStorage δ} {cfg : SystemConfig} {s : TelemetrySystem δ}
  {c : ContextId} {ctx : EventsUploadContext}

theorem storage_settle (route : StorageRoute) (now : ℕ) :
    (s.settle D c ctx route now).storage = s.storage.step D (now, route.1 ctx) := by
  unfold settle
  dsimp only
  rcases (route.1 ctx).outcome D s.storage now with _ | _ <;> rfl

/-- What a response does to the storage is the one call it leads to. -/
theorem storage_onHttpResponse {c' : ContextId}
    (hfind : (s.httpCallbacks.find? fun callback => callback.1 = c) = some (c', ctx))
    (response : HttpResponse) (now : ℕ) : (s.onHttpResponse D cfg c response now).storage =
      s.storage.step D (now, cfg.storageCall ctx response) := by
  unfold onHttpResponse
  rw [hfind]
  dsimp only
  split_ifs
  · exact storage_settle _ now
  · exact storage_settle _ now

/-- A route of the decoder is a call on the records of its context. -/
theorem settles_route (decoded : Decoded) (h : Handler δ) (now : ℕ) :
    (decoded.route.1 ctx).Settles D ctx.recordIds now h
      (h.step D (now, decoded.route.1 ctx)) := by
  cases decoded <;> exact ⟨rfl, rfl⟩

end TelemetrySystem

/-- **No deletion without a final verdict, as long as the body does not
say otherwise.** For every response to an upload in flight, the storage is
left as `DeleteRecords` or `ReleaseRecords` on the records of the upload
leaves it. The call that the decoder and the routes choose suits the
response exactly if the body does not report a failure of all events, or
the verdict is final anyway. -/
theorem deleted_on_final_verdict_iff {δ : Type} (D : DiskStorage δ) (cfg : SystemConfig)
    (s : TelemetrySystem δ) (c : ContextId) (ctx : EventsUploadContext) (response : HttpResponse)
    (now : ℕ)
    (hfind : (s.httpCallbacks.find? fun callback => callback.1 = c) = some (c, ctx)) :
    (cfg.storageCall ctx response).Settles D ctx.recordIds now s.storage
        (s.onHttpResponse D cfg c response now).storage ∧
      ((cfg.storageCall ctx response).Suits response ↔
        ¬ RejectsAll cfg.parse response ∨ response.Final) := by
  rw [TelemetrySystem.storage_onHttpResponse hfind]
  unfold SystemConfig.storageCall
  have hids := handleDecode_recordIds cfg.parse { ctx with httpResponse := some response } response
  have hsignal := handleDecode_fst cfg.parse { ctx with httpResponse := some response } response
  generalize handleDecode cfg.parse { ctx with httpResponse := some response } response = res
    at hids hsignal ⊢
  obtain ⟨decoded, ctx'⟩ := res
  have hctx : ctx'.recordIds = ctx.recordIds := hids
  obtain rfl : decoded = _ := hsignal
  refine ⟨hctx ▸ TelemetrySystem.settles_route _ s.storage now, ?_⟩
  dsimp only
  by_cases hall : RejectsAll cfg.parse response
  · rw [if_pos hall]
    exact HandlerOp.deleteRecords_suits_iff.trans
      ⟨Or.inr, fun h => h.resolve_left (not_not.2 hall)⟩
  · rw [if_neg hall]
    exact iff_of_true (suits_of_outcome ctx' response) (Or.inl hall)

/-- A body in which every event of a tenant failed. -/
def failureBody : List UInt8 :=
  "\x7b\"efi\":\x7b\"t\":\"all\"\x7d\x7d".toList.map fun ch => UInt8.ofNat ch.toNat

/-- The routes of a short upload, with a library that reads that body. -/
def readingConfig : SystemConfig :=
  { smallConfig with
    parse := fun text =>
      if text = failureBody then some (.object [("efi", .object [("t", .string "all")])]) else none }

/-- A system with one upload in flight. -/
def oneInFlight : TelemetrySystem SQLite :=
  run (TelemetrySystem.step (sqliteStorage (SQLite.openOn SQLite.Engine.sound [])) readingConfig)
    { storage := retrievingHandler [⟨"a", "t", .normal, .normal, 0, [1, 2], 0, 0⟩] [] }
    [(0, .start), (1000, .uploadAsync .normal)]

theorem deleted_on_final_verdict_iff_rejected :
    ∃ ctx, (oneInFlight.httpCallbacks.find? fun callback => callback.1 = 0) = some (0, ctx) ∧
      (readingConfig.storageCall ctx ⟨.ok, 400, [], failureBody⟩).Suits
        ⟨.ok, 400, [], failureBody⟩ := by
  refine ⟨_, rfl, ?_⟩
  exact (deleted_on_final_verdict_iff (sqliteStorage (SQLite.openOn SQLite.Engine.sound []))
    readingConfig oneInFlight 0 _ ⟨.ok, 400, [], failureBody⟩ 2000 rfl).2.2 (Or.inr (by decide))

/-- **A server error that deletes.** The status 503 asks for another
attempt, and the body has the records of the upload deleted. -/
theorem server_error_deletes :
    let s := oneInFlight.onHttpResponse (sqliteStorage (SQLite.openOn SQLite.Engine.sound []))
      readingConfig 0 ⟨.ok, 503, [], failureBody⟩ 2000
    s.fault = none ∧
      s.eventsOf 0 = [.added, .called 2000 (.deleteRecords ["a"] [] true),
        .closed .eventsUploadRejected ["a"]] ∧
      ∀ ctx, (oneInFlight.httpCallbacks.find? fun callback => callback.1 = 0) = some (0, ctx) →
        ¬ (readingConfig.storageCall ctx ⟨.ok, 503, [], failureBody⟩).Suits
          ⟨.ok, 503, [], failureBody⟩ := by
  refine ⟨rfl, rfl, fun ctx _ hsuits => ?_⟩
  exact (hsuits.deleted _ _ _ rfl).2 (Or.inr (Or.inr (by decide)))

end ClientTelemetry
