import ClientTelemetry.Api.Model.EventProperties
/-!
# The latency a record is stored with

A record is handed to the storage with the latency of the properties as it
is (`logEvent_latency`): what `LogEvent` and the decorators correct is a
copy. Only `Off` does not get through. So the latency of the record is in
range exactly if the last call that set a latency or a priority was given
one that is, or a priority that is not negative.
-/

namespace ClientTelemetry

open List

/-! ## What gets through -/

namespace LogPath

variable {path : LogPath} {props : EventPropertiesStorage} {record : IncomingRecord}

theorem latency_sendEvent {source : CsProtocol.Record} {incoming : IncomingRecord}
    (h : path.sendEvent source incoming = some record) : record.latency = incoming.latency := by
  unfold sendEvent at h
  dsimp only at h
  split_ifs at h with hsystem hsize
  rw [← Option.some.inj h]

/-- **The record has the latency of the event**, and that is not `Off`. -/
theorem logEvent_latency (h : path.logEvent props = some record) :
    record.latency = props.eventLatency ∧ props.eventLatency ≠ EventLatency.off.toInt := by
  unfold logEvent at h
  split_ifs at h with hactive hsend
  split at h
  · cases h
  · unfold submit at h
    split_ifs at h with hsubmit hlevel hoff
    exact ⟨latency_sendEvent h, hoff⟩

end LogPath

/-! ## What the calls leave -/

/-- The calls that set the latency. -/
def PropertyCall.setsLatency : PropertyCall → Bool
  | .setLatency _ | .setPriority _ => true
  | _ => false

/-- **A call with a sound argument**: a latency from `Off` to `Max`, or a
priority that is not negative. -/
def PropertyCall.Sound : PropertyCall → Prop
  | .setLatency latency => EventLatency.off.toInt ≤ latency ∧ latency ≤ EventLatency.max.toInt
  | .setPriority priority => 0 ≤ priority
  | _ => True

/-- The last call that sets the latency is sound, if there is one. -/
def LastSound (calls : List PropertyCall) : Prop :=
  ∀ c, (calls.filter PropertyCall.setsLatency).getLast? = some c → c.Sound

namespace EventPropertiesStorage

variable {p : EventPropertiesStorage} {c : PropertyCall}

/-- The latency is one of those a record may have, or `Off`. -/
def InRange (p : EventPropertiesStorage) : Prop :=
  EventLatency.off.toInt ≤ p.eventLatency ∧ p.eventLatency ≤ EventLatency.max.toInt

@[simp] theorem eventLatency_setName (name : String) :
    (p.setName name).eventLatency = p.eventLatency := by
  unfold setName
  split_ifs <;> rfl

@[simp] theorem eventLatency_setType (recordType : String) :
    (p.setType recordType).eventLatency = p.eventLatency := by
  unfold setType
  split_ifs <;> rfl

@[simp] theorem eventLatency_setProperty (name : String) (prop : EventProperty) :
    (p.setProperty name prop).eventLatency = p.eventLatency := by
  unfold setProperty
  split_ifs <;> rfl

theorem eventLatency_setPriority (priority : ℤ) : (p.setPriority priority).eventLatency =
      if 3 ≤ priority then 3 else if 1 ≤ priority then 1 else priority := by
  unfold setPriority eventPriorityHigh eventPriorityLow
  split_ifs <;> rfl

theorem eventLatency_call_of_not (h : c.setsLatency = false) :
    (p.call c).eventLatency = p.eventLatency := by
  cases c with
  | setLatency | setPriority => cases h
  | setName name => exact eventLatency_setName name
  | setType recordType => exact eventLatency_setType recordType
  | setProperty name prop => exact eventLatency_setProperty name prop
  | _ => rfl

theorem inRange_call_iff (h : c.setsLatency = true) :
    (p.call c).InRange ↔ c.Sound := by
  cases c with
  | setLatency latency => exact Iff.rfl
  | setPriority priority =>
    rw [InRange, call, eventLatency_setPriority]
    simp only [PropertyCall.Sound, EventLatency.toInt]
    split_ifs <;> omega
  | _ => cases h

/-- **The last call decides.** -/
theorem inRange_calls_iff (hp : p.InRange) (calls : List PropertyCall) :
    (calls.foldl call p).InRange ↔ LastSound calls := by
  induction calls using List.reverseRecOn with
  | nil => exact iff_of_true hp nofun
  | append_singleton calls c ih =>
    rw [foldl_append, foldl_cons, foldl_nil]
    cases hsets : c.setsLatency with
    | true =>
      rw [inRange_call_iff hsets, LastSound, filter_append, filter_cons_of_pos hsets,
        filter_nil, getLast?_append]
      constructor
      · intro hsound c' hc'
        obtain rfl : c = c' := Option.some.inj hc'
        exact hsound
      · intro hlast
        exact hlast c rfl
    | false =>
      have hsame : ((calls.foldl call p).call c).InRange ↔ (calls.foldl call p).InRange := by
        rw [InRange, InRange, eventLatency_call_of_not hsets]
      have hfilter : (calls ++ [c]).filter PropertyCall.setsLatency =
          calls.filter PropertyCall.setsLatency := by
        rw [filter_append, filter_cons_of_neg (by rw [hsets]; exact Bool.false_ne_true),
          filter_nil, append_nil]
      rw [hsame, ih, LastSound, LastSound, hfilter]

theorem inRange_construct (name : String) (diagnosticLevel : UInt8) :
    (construct name diagnosticLevel).InRange := by
  have hlatency : (construct name diagnosticLevel).eventLatency = EventLatency.normal.toInt := by
    rw [construct, eventLatency_setProperty, eventLatency_setName]
  rw [InRange, hlatency]
  decide

end EventPropertiesStorage

/-! ## The storage -/

/-- **A valid latency has reached the storage**: it lies between `Normal`
and `Max`, and is `Normal` where the event left it unspecified. -/
def StoredValid (props : EventPropertiesStorage) (record : IncomingRecord) : Prop :=
  (EventLatency.normal.toInt ≤ record.latency ∧ record.latency ≤ EventLatency.max.toInt) ∧
    (props.eventLatency = EventLatency.unspecified.toInt → record.latency = EventLatency.normal.toInt)

/-- A record that is handed over is valid if and only if the event is in
range. -/
theorem storedValid_iff {path : LogPath} {props : EventPropertiesStorage} {record : IncomingRecord}
    (h : path.logEvent props = some record) : StoredValid props record ↔ props.InRange := by
  obtain ⟨hsame, hoff⟩ := LogPath.logEvent_latency h
  unfold StoredValid EventPropertiesStorage.InRange
  rw [hsame]
  simp only [EventLatency.toInt] at hoff ⊢
  omega

/-- The properties `mat_log` logs. -/
def packedProperties (packed : Option (List EvtProp)) (size : ℕ) : EventPropertiesStorage :=
  ((EventPropertiesStorage.construct EventPropertiesStorage.defaultEventName
    EventPropertiesStorage.diagLevelOptional).unpack packed size).call (.erase iKeyName)

theorem matLog_eq_logEvent {capi : CapiLog} {packed : Option (List EvtProp)} {size : ℕ} :
    capi.matLog packed size = none ∨
      ∃ path : LogPath, capi.matLog packed size = path.logEvent (packedProperties packed size) := by
  unfold CapiLog.matLog
  dsimp only
  split
  · exact .inl rfl
  · exact .inr ⟨_, rfl⟩

/-- **When only valid latencies reach the storage.** For every logger, with
its filters, decorators and levels, and every event that is made with any
name and level and any calls of the setters; and for every client of the C
interface and every packed event: if a record is handed to the storage, its
latency lies between `Normal` and `Max`, and is `Normal` for an unspecified
one, if and only if the last call or property that gave a latency or a
priority gave a latency from `Off` to `Max` or a priority that is not
negative. -/
theorem stored_latency_valid_iff (path : LogPath) (name : String) (diagnosticLevel : UInt8)
    (calls : List PropertyCall) (capi : CapiLog) (packed : Option (List EvtProp)) (size : ℕ) :
    (∀ record, path.logEvent (calls.foldl EventPropertiesStorage.call
          (EventPropertiesStorage.construct name diagnosticLevel)) = some record →
      (StoredValid (calls.foldl EventPropertiesStorage.call
        (EventPropertiesStorage.construct name diagnosticLevel)) record ↔ LastSound calls)) ∧
    (∀ record, capi.matLog packed size = some record →
      (StoredValid (packedProperties packed size) record ↔
        LastSound (packedCalls packed size))) := by
  constructor
  · intro record h
    rw [storedValid_iff h, EventPropertiesStorage.inRange_calls_iff
      (EventPropertiesStorage.inRange_construct name diagnosticLevel)]
  · intro record h
    have hrange : (packedProperties packed size).InRange ↔ LastSound (packedCalls packed size) :=
      EventPropertiesStorage.inRange_calls_iff (EventPropertiesStorage.inRange_construct _ _) _
    rcases @matLog_eq_logEvent capi packed size with hnone | ⟨path, hpath⟩
    · rw [hnone] at h
      cases h
    · rw [hpath] at h
      rw [storedValid_iff h, hrange]

/-- A logger with nothing in the way of its events. -/
def openPath : LogPath where
  active := true
  canSend _ := true
  decorators :=
    { iKey := "o:tenant"
      base := ⟨"epoch", 0⟩
      context := {}
      parents := []
      randomLocalId := "r:local" }
  owner := ⟨0, "3.0", none, none⟩
  submitActive := true
  levelFilter := {}
  level := diagLevelDefault
  asInt64 _ := 0
  uuid := "id"
  tenantToken := "tenant"
  hasSystem := true
  inspect record := record
  serialize _ := []
  maxBlobBytes := 2097152
  now := 0

/-- A client of the C interface with that logger. -/
def openCapi : CapiLog := ⟨fun _ => "tenant", fun _ _ => some openPath⟩

/-- A packed event that names a latency. -/
def packedLatency (latency : ℤ) : Option (List EvtProp) :=
  some [{ name := "EventInfo.Latency", value := { asInt64 := latency } }]

theorem stored_latency_valid_iff_realTime :
    (∃ record, openCapi.matLog (packedLatency 3) 0 = some record) ∧
      ∀ record, openCapi.matLog (packedLatency 3) 0 = some record →
        StoredValid (packedProperties (packedLatency 3) 0) record := by
  refine ⟨Option.isSome_iff_exists.1 (by decide +kernel), fun record h =>
    ((stored_latency_valid_iff openPath "" 0 [] openCapi (packedLatency 3) 0).2 record h).2 ?_⟩
  intro c hc
  obtain rfl : PropertyCall.setLatency 3 = c := Option.some.inj hc
  exact ⟨by decide, by decide⟩

/-- **Latencies out of range reach the storage**: the unspecified one as it
is, a number above `Max` through either interface, and a negative
priority. -/
theorem invalid_latency_stored :
    (openPath.logEvent ((EventPropertiesStorage.construct "event" 2).call
      (.setLatency EventLatency.unspecified.toInt))).map IncomingRecord.latency = some (-1) ∧
    (openPath.logEvent ((EventPropertiesStorage.construct "event" 2).call
      (.setLatency 5))).map IncomingRecord.latency = some 5 ∧
    (openPath.logEvent ((EventPropertiesStorage.construct "event" 2).call
      (.setPriority (-7)))).map IncomingRecord.latency = some (-7) ∧
    (openCapi.matLog (packedLatency 1000) 0).map IncomingRecord.latency = some 1000 := by
  decide +kernel

end ClientTelemetry
