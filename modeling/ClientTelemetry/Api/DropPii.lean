import ClientTelemetry.Api.Helpers.Decorators
/-!
# Two runs that differ in what identifies

Two runs of `applyCommonDecorators` on an event with the tag
`MICROSOFT_EVENTTAG_DROP_PII`, which differ in what identifies the user,
the device or the session only. `dropPiiPartA` clears the tickets of the
first element of `extProtocol`. The tickets of a context are in an element
of their own behind it, and stay. So Part A of the two records is the same
iff the tickets of the contexts are (`drop_pii_noninterfering_iff`).
-/

namespace ClientTelemetry

open CsProtocol

/-- **A run of `applyCommonDecorators`**, by all it reads. -/
structure DecoratorRun where
  logger : LoggerDecorators
  owner : Owner
  event : EventProperties
  latency : EventLatency := .normal
  record : Record := {}

/-- What the run returns. -/
def DecoratorRun.outcome (run : DecoratorRun) : Except Refusal (Record × EventLatency) :=
  (run.logger.applyCommonDecorators run.owner run.event run.latency run.record).1

/-- The lists of tickets of the contexts of the logger. -/
def DecoratorRun.ticketLists (run : DecoratorRun) : List (List String) :=
  ticketListsOf run.logger.context run.logger.parents

/-- **The runs differ only in what identifies**: the ids of the user and
the device, the tickets of the contexts and of the controller of tokens,
the id of the installation, the sequence number, the epoch and the
correlation vector. -/
structure SameButIdentity (a b : DecoratorRun) : Prop where
  iKey : a.logger.iKey = b.logger.iKey
  allowDotsInType : a.logger.allowDotsInType = b.logger.allowDotsInType
  randomLocalId : a.logger.randomLocalId = b.logger.randomLocalId
  context : SameContext a.logger.context b.logger.context
  parents : List.Forall₂ SameContext a.logger.parents b.logger.parents
  time : a.owner.time = b.owner.time
  sdkVersion : a.owner.sdkVersion = b.owner.sdkVersion
  name : a.event.name = b.event.name
  type : a.event.type = b.event.type
  popSample : a.event.popSample = b.event.popSample
  policyBitFlags : a.event.policyBitFlags = b.event.policyBitFlags
  persistence : a.event.persistence = b.event.persistence
  properties : ∀ name, name ≠ correlationVectorName →
    a.event.properties.find? name = b.event.properties.find? name
  latency : a.latency = b.latency
  record : a.record = b.record

/-- **The records are the same in Part A**, `cV` included: in everything
but the data of Part B and Part C. -/
def SameInPartA (record record' : Record) : Prop :=
  { record with baseData := [], data := [] } = { record' with baseData := [], data := [] }

instance (record record' : Record) : Decidable (SameInPartA record record') :=
  inferInstanceAs (Decidable (_ = _))

section TwoRuns

variable {a b : DecoratorRun} {randomLocalId : String}

/-- A record without personal data, from what can be seen of it and the
elements behind the first. -/
theorem dropPiiPartA_eq {record : Record} {protocol : Protocol}
    {protocols : List Protocol} (h : record.extProtocol = protocol :: protocols) :
    { dropPiiPartA randomLocalId record with baseData := [], data := [] } =
      { dropPiiPartA randomLocalId (scrubbed record) with
        extProtocol := (scrubbed record).extProtocol ++ protocols } := by
  simp only [dropPiiPartA, scrubbed, h, List.modifyHead_modifyHead]
  rfl

/-- **Two records that look the same without their personal data are the
same in Part A iff the elements behind the first are.** -/
theorem sameInPartA_iff {x y : Record} {p q : Protocol}
    {ps qs : List Protocol} (hx : x.extProtocol = p :: ps) (hy : y.extProtocol = q :: qs)
    (hscrubbed : scrubbed x = scrubbed y) :
    SameInPartA (dropPiiPartA randomLocalId x) (dropPiiPartA randomLocalId y) ↔ ps = qs := by
  unfold SameInPartA
  rw [dropPiiPartA_eq hx, dropPiiPartA_eq hy, hscrubbed]
  constructor
  · intro h
    exact List.append_cancel_left (congrArg Record.extProtocol h)
  · rintro rfl
    rfl

/-- The record a run with the tag returns, before the personal data is
dropped. -/
theorem DecoratorRun.outcome_dropped {result : Record × EventLatency}
    (hdrop : a.event.tagDropPii = true) (h : a.outcome = .ok result) :
    let based := a.logger.base.decorate a.owner (a.logger.nameRecord a.event a.record)
    let inContext := a.logger.context.writeToRecord a.logger.parents based false
    ∃ moved, result.1 = dropPiiPartA a.logger.randomLocalId moved ∧
      scrubbed moved = scrubbed (withFlags a.event
        (if a.latency = .unspecified then .normal else a.latency) inContext) ∧
      moved.extProtocol = inContext.extProtocol := by
  intro based inContext
  unfold DecoratorRun.outcome LoggerDecorators.applyCommonDecorators at h
  split_ifs at h
  rcases hdecorate : a.event.decorate a.logger.randomLocalId a.latency inContext with _ | decorated
  · dsimp only at h
    rw [hdecorate] at h
    cases h
  · dsimp only at h
    rw [hdecorate] at h
    cases h
    exact decorate_dropped hdrop hdecorate

/-- Before the properties, the records look the same. -/
theorem SameButIdentity.inContext (h : SameButIdentity a b) :
    scrubbed (a.logger.context.writeToRecord a.logger.parents
        (a.logger.base.decorate a.owner (a.logger.nameRecord a.event a.record)) false) =
      scrubbed (b.logger.context.writeToRecord b.logger.parents
        (b.logger.base.decorate b.owner (b.logger.nameRecord b.event b.record)) false) := by
  have hnamed : a.logger.nameRecord a.event a.record = b.logger.nameRecord b.event b.record := by
    unfold LoggerDecorators.nameRecord
    rw [h.record, h.name, h.type, h.iKey, h.allowDotsInType]
  rw [hnamed]
  exact writeToRecord_agree h.context h.parents false (baseDecorate_agree h.time h.sdkVersion)

theorem withFlags_agree (h : SameButIdentity a b) (latency : EventLatency) :
    Agree scrubbed (withFlags a.event latency) (withFlags b.event latency) := by
  have hflags : recordFlags b.event latency = recordFlags a.event latency := by
    unfold recordFlags EventProperties.tagDropPii
    rw [h.policyBitFlags, h.persistence]
  refine .of_factor (fun r => { r with popSample := a.event.popSample
                                       flags := recordFlags a.event latency }) ?_ ?_
  · exact fun _ => rfl
  · intro t
    unfold withFlags
    rw [hflags, ← h.popSample]
    rfl

/-- **Two runs on an event with the tag `DROP_PII` that differ only in what
identifies return records that are the same in Part A iff the contexts have
the same tickets.** -/
theorem drop_pii_noninterfering_iff {result result' : Record × EventLatency}
    (hsame : SameButIdentity a b) (hdrop : a.event.tagDropPii = true)
    (ha : a.outcome = .ok result) (hb : b.outcome = .ok result') :
    SameInPartA result.1 result'.1 ↔ a.ticketLists = b.ticketLists := by
  have hdrop' : b.event.tagDropPii = true := by
    unfold EventProperties.tagDropPii
    rw [← hsame.policyBitFlags]
    exact hdrop
  obtain ⟨moved, hresult, hscrubbed, hprotocol⟩ := a.outcome_dropped hdrop ha
  obtain ⟨moved', hresult', hscrubbed', hprotocol'⟩ := b.outcome_dropped hdrop' hb
  obtain ⟨p, hp⟩ := @extProtocol_writeToRecord
    (a.logger.base.decorate a.owner (a.logger.nameRecord a.event a.record)) a.logger.context
    a.logger.parents false
  obtain ⟨q, hq⟩ := @extProtocol_writeToRecord
    (b.logger.base.decorate b.owner (b.logger.nameRecord b.event b.record)) b.logger.context
    b.logger.parents false
  have hlook : scrubbed moved = scrubbed moved' := by
    rw [hscrubbed, hscrubbed', ← hsame.latency]
    exact withFlags_agree hsame _ _ _ hsame.inContext
  have hinjective : Function.Injective ticketElement := by
    intro tickets tickets' h
    exact (List.cons.inj (congrArg Protocol.ticketKeys h)).1
  rw [hresult, hresult', ← hsame.randomLocalId,
    sameInPartA_iff (hprotocol.trans hp) (hprotocol'.trans hq) hlook, extProtocol_baseDecorate,
    extProtocol_baseDecorate]
  show a.record.extProtocol.tail ++ _ = b.record.extProtocol.tail ++ _ ↔ _
  rw [hsame.record, List.append_cancel_left_eq, (List.map_injective_iff.2 hinjective).eq_iff]
  rfl

end TwoRuns

/-- A run with the tag, by what identifies in it. -/
def runFor (who : String) (sequenceId : UInt64) (contextTickets : OrdMap TicketType String) :
    DecoratorRun where
  logger :=
    { iKey := "o:tenant"
      base := ⟨who, sequenceId⟩
      context := { tickets := contextTickets }
      parents := [{ commonFields := (OrdMap.singleton userId who).insert deviceId who }]
      randomLocalId := "r:1" }
  owner := ⟨5, "sdk", some who, some [who]⟩
  event :=
    { name := "event"
      policyBitFlags := microsoftEventtagDropPii
      properties := OrdMap.singleton correlationVectorName { value := .string who } }

theorem runFor_same (who who' : String) (sequenceId sequenceId' : UInt64)
    (tickets tickets' : OrdMap TicketType String) :
    SameButIdentity (runFor who sequenceId tickets) (runFor who' sequenceId' tickets') := by
  have hparent : SameFields ((OrdMap.singleton userId who).insert deviceId who)
      ((OrdMap.singleton userId who').insert deviceId who') := by
    intro name hdevice huser
    rw [OrdMap.find?_insert, OrdMap.find?_insert, if_neg hdevice, if_neg hdevice,
      OrdMap.find?_singleton_of_ne huser, OrdMap.find?_singleton_of_ne huser]
  refine ⟨rfl, rfl, rfl, ⟨fun _ _ _ => rfl, fun _ _ => rfl, rfl⟩,
    .cons ⟨hparent, fun _ _ => rfl, rfl⟩ .nil, rfl, rfl, rfl, rfl, rfl, rfl, rfl, ?_, rfl, rfl⟩
  intro name hname
  exact (OrdMap.find?_singleton_of_ne hname).trans (OrdMap.find?_singleton_of_ne hname).symm

theorem DecoratorRun.exists_result {run : DecoratorRun} {keys : List (List (List String))}
    (h : run.outcome.toOption.map (fun result => result.1.extProtocol.map Protocol.ticketKeys) =
      some keys) :
    ∃ result, run.outcome = .ok result ∧ result.1.extProtocol.map Protocol.ticketKeys = keys := by
  cases houtcome : run.outcome with
  | error _ =>
    rw [houtcome] at h
    cases h
  | ok result =>
    rw [houtcome] at h
    exact ⟨result, rfl, Option.some.inj h⟩

theorem drop_pii_noninterfering_iff_without_tickets :
    ∃ result result', (runFor "user 1" 1 OrdMap.empty).outcome = .ok result ∧
      (runFor "user 2" 7 OrdMap.empty).outcome = .ok result' ∧ SameInPartA result.1 result'.1 := by
  obtain ⟨result, hresult, -⟩ := @DecoratorRun.exists_result (runFor "user 1" 1 OrdMap.empty) [[]]
    (by decide)
  obtain ⟨result', hresult', -⟩ := @DecoratorRun.exists_result (runFor "user 2" 7 OrdMap.empty) [[]]
    (by decide)
  exact ⟨result, result', hresult, hresult', (drop_pii_noninterfering_iff
    (runFor_same "user 1" "user 2" 1 7 OrdMap.empty OrdMap.empty) (by decide) hresult hresult').2 rfl⟩

/-- **A ticket of a context is sent with the tag set.** It is in the second
element of `extProtocol`. -/
theorem context_ticket_is_kept :
    let run := runFor "user 1" 1 (OrdMap.singleton .msaUser "ticket 1")
    let run' := runFor "user 1" 1 (OrdMap.singleton .msaUser "ticket 2")
    SameButIdentity run run' ∧ run.event.tagDropPii = true ∧
      ∃ result result', run.outcome = .ok result ∧ run'.outcome = .ok result' ∧
        result.1.extProtocol.map Protocol.ticketKeys = [[], [["ticket 1"]]] ∧
        result'.1.extProtocol.map Protocol.ticketKeys = [[], [["ticket 2"]]] ∧
        ¬ SameInPartA result.1 result'.1 := by
  intro run run'
  obtain ⟨result, hresult, hkeys⟩ := @DecoratorRun.exists_result run [[], [["ticket 1"]]]
    (by decide)
  obtain ⟨result', hresult', hkeys'⟩ := @DecoratorRun.exists_result run' [[], [["ticket 2"]]]
    (by decide)
  refine ⟨runFor_same _ _ _ _ _ _, by decide, result, result', hresult, hresult', hkeys, hkeys', ?_⟩
  intro hsame
  unfold SameInPartA at hsame
  have hprotocol := congrArg Record.extProtocol hsame
  dsimp only at hprotocol
  rw [hprotocol, hkeys'] at hkeys
  exact absurd hkeys (by decide)

end ClientTelemetry
