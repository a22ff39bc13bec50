import ClientTelemetry.Api.Model.Decorators
import ClientTelemetry.Common.View
/-!
# What the decorators write

Each write of the decorators, seen from Part A without the fields that
`dropPiiPartA` clears (`scrubbed`), and its effect on `extProtocol`, of
which `dropPiiPartA` clears the first element only
(`extProtocol_writeToRecord`). The lemmas on single writes are combined by
the rules of `Agree`.
-/

namespace ClientTelemetry

open CsProtocol List

/-- **What is left of Part A if the personal data is dropped**, but for the
elements of `extProtocol` behind the first. -/
def scrubbed (record : Record) : Record :=
  { dropPiiPartA "" record with
    extProtocol := (record.extProtocol.take 1).modifyHead fun protocol =>
      { protocol with ticketKeys := [] }
    data := []
    baseData := [] }

theorem modifyHead_comm {α : Type} {f g : α → α} (h : ∀ a, f (g a) = g (f a)) (l : List α) :
    (l.modifyHead g).modifyHead f = (l.modifyHead f).modifyHead g := by
  cases l with
  | nil => rfl
  | cons a as => simp only [modifyHead_cons, h]

section Writes

variable {record s t : Record} {fields fields' : OrdMap String String}
  {context context' : Context} {name : String} {set : Record → String → Record}
  {base : BaseDecorator} {owner : Owner}

/-! ## Common fields -/

/-- The same fields, but for those that identify. -/
def SameFields (fields fields' : OrdMap String String) : Prop :=
  ∀ name, name ≠ deviceId → name ≠ userId → fields.find? name = fields'.find? name

/-- A field that does not identify is written in the same way. -/
theorem writeField_agree
    (hsame : SameFields fields fields') (hname : name ≠ deviceId ∧ name ≠ userId)
    (hset : ∀ r v, scrubbed (set r v) = set (scrubbed r) v) :
    Agree scrubbed (writeField name set fields) (writeField name set fields') := by
  have hwrite : ∀ r, scrubbed (writeField name set fields r) =
      writeField name set fields (scrubbed r) := by
    intro r
    unfold writeField
    split
    · exact hset r _
    · rfl
  have hfind : writeField name set fields' = writeField name set fields := by
    unfold writeField
    rw [hsame name hname.1 hname.2]
  rw [hfind]
  exact .of_factor _ hwrite hwrite

/-- A field that identifies is not seen. -/
theorem writeField_hidden (hset : ∀ r v, scrubbed (set r v) = scrubbed r) :
    Agree scrubbed (writeField name set fields) (writeField name set fields') := by
  have hwrite : ∀ fields r, scrubbed (writeField name set fields r) = scrubbed r := by
    intro fields r
    unfold writeField
    split
    · exact hset r _
    · rfl
  exact .of_hidden (hwrite fields) (hwrite fields')

theorem writeAppName_agree (hsame : SameFields fields fields') :
    Agree scrubbed (writeAppName fields) (writeAppName fields') := by
  have hwrite : ∀ r, scrubbed (writeAppName fields r) = writeAppName fields (scrubbed r) := by
    intro r
    unfold writeAppName
    split
    · rfl
    · split_ifs <;> rfl
  have hfind : writeAppName fields' = writeAppName fields := by
    unfold writeAppName
    rw [hsame appName (by decide) (by decide), hsame appId (by decide) (by decide)]
  rw [hfind]
  exact .of_factor _ hwrite hwrite

theorem scrubbed_onProtocol {change : Protocol → Protocol}
    (h : ∀ p, { change p with ticketKeys := [] } = change { p with ticketKeys := [] }) :
    scrubbed (record.onProtocol change) = (scrubbed record).onProtocol change := by
  have htake : (record.extProtocol.modifyHead change).take 1 =
      (record.extProtocol.take 1).modifyHead change := by
    cases record.extProtocol <;> rfl
  simp only [scrubbed, dropPiiPartA, Record.onProtocol, htake]
  rw [modifyHead_comm h]

theorem scrubbed_onDevice {change : Device → Device}
    (h : ∀ d : Device, { change d with localId := "", authId := "", authSecId := "", id := "" } =
      change { d with localId := "", authId := "", authSecId := "", id := "" }) :
    scrubbed (record.onDevice change) = (scrubbed record).onDevice change := by
  simp only [scrubbed, dropPiiPartA, Record.onDevice]
  rw [modifyHead_comm h]

theorem scrubbed_onUser {change : User → User}
    (h : ∀ u : User, { change u with localId := "", authId := "", id := "" } =
      change { u with localId := "", authId := "", id := "" }) :
    scrubbed (record.onUser change) = (scrubbed record).onUser change := by
  simp only [scrubbed, dropPiiPartA, Record.onUser]
  rw [modifyHead_comm h]

/-- **The common fields are written in the same way, one by one.** -/
theorem commonWrites_agree (hsame : SameFields fields fields') :
    ∀ write ∈ commonWrites, Agree scrubbed (write fields) (write fields') := by
  simp only [commonWrites, forall_mem_cons]
  refine ⟨?_, ?_, ?_, ?_, writeAppName_agree hsame, ?_, ?_, ?deviceId, ?device, ?protocol,
    ?protocol', ?device', ?_, ?_, ?_, ?userId, ?user, ?_, ?_, ?_, ?_, fun _ h => nomatch h⟩
  case deviceId =>
    refine writeField_hidden fun r v => ?_
    simp only [scrubbed, dropPiiPartA, Record.onDevice, modifyHead_modifyHead]
    rfl
  case userId =>
    refine writeField_hidden fun r v => ?_
    simp only [scrubbed, dropPiiPartA, Record.onUser, modifyHead_modifyHead]
    rfl
  case device | device' =>
    exact writeField_agree hsame (by decide) fun _ _ => scrubbed_onDevice fun _ => rfl
  case protocol | protocol' =>
    exact writeField_agree hsame (by decide) fun _ _ => scrubbed_onProtocol fun _ => rfl
  case user => exact writeField_agree hsame (by decide) fun _ _ => scrubbed_onUser fun _ => rfl
  -- the other fields are not among what is dropped
  all_goals exact writeField_agree hsame (by decide) fun _ _ => rfl

/-! ## The first element of `extProtocol`, and the others -/

/-- A common field changes at most the first element. -/
theorem commonWrites_extProtocol : ∀ write ∈ commonWrites, ∀ fields r, ∃ change,
    (write fields r).extProtocol = r.extProtocol.modifyHead change := by
  have hkeep : ∀ r : Record, ∃ change, r.extProtocol = r.extProtocol.modifyHead change :=
    fun r => ⟨id, modifyHead_id.symm ▸ rfl⟩
  have hfield : ∀ name set, (∀ r v, ∃ change, (set r v).extProtocol =
      r.extProtocol.modifyHead change) → ∀ fields r, ∃ change,
      (writeField name set fields r).extProtocol = r.extProtocol.modifyHead change := by
    intro name set hset fields r
    unfold writeField
    split
    · exact hset r _
    · exact hkeep r
  have happ : ∀ fields r, ∃ change,
      (writeAppName fields r).extProtocol = r.extProtocol.modifyHead change := by
    intro fields r
    unfold writeAppName
    split
    · exact hkeep r
    · split_ifs <;> exact hkeep r
  simp only [commonWrites, forall_mem_cons]
  refine ⟨?_, ?_, ?_, ?_, happ, ?_, ?_, ?_, ?_, ?_, ?_, ?_, ?_, ?_, ?_, ?_, ?_, ?_, ?_, ?_, ?_,
    fun _ h => nomatch h⟩
  all_goals first
    | exact hfield _ _ fun r _ => hkeep r
    | exact hfield _ _ fun r v => ⟨_, rfl⟩

theorem extProtocol_writeCommonFields : ∃ change,
    (context.writeCommonFields record).extProtocol = record.extProtocol.modifyHead change := by
  unfold Context.writeCommonFields
  have hwrites := commonWrites_extProtocol
  generalize commonWrites = writes at hwrites
  induction writes generalizing record with
  | nil => exact ⟨id, modifyHead_id.symm ▸ rfl⟩
  | cons write writes ih =>
    obtain ⟨first, hfirst⟩ := hwrites write mem_cons_self context.commonFields record
    obtain ⟨rest, hrest⟩ := ih (fun w hw => hwrites w (mem_cons_of_mem _ hw))
    refine ⟨rest ∘ first, ?_⟩
    rw [foldl_cons, hrest, hfirst, modifyHead_modifyHead]

/-! ## One context -/

theorem ensureExtensions_agree : Agree scrubbed ensureExtensions ensureExtensions := by
  have hwrite : ∀ r, scrubbed (ensureExtensions r) = scrubbed (ensureExtensions (scrubbed r)) := by
    intro r
    rcases r with ⟨_, _, _, _, _, _, _, _ | ⟨_, _⟩, _ | ⟨_, _⟩, _ | ⟨_, _⟩, _, _, _, _ | ⟨_, _⟩⟩ <;>
      rfl
  exact .of_factor (fun r => scrubbed (ensureExtensions r)) hwrite hwrite

/-- The same context, but for what identifies. -/
structure SameContext (context context' : Context) : Prop where
  common : SameFields context.commonFields context'.commonFields
  custom : ∀ name, name ≠ correlationVectorName →
    context.customFields.find? name = context'.customFields.find? name
  configIds : context.eventToConfigIds = context'.eventToConfigIds

theorem writeExperimentIds_agree (hsame : SameContext context context') :
    Agree scrubbed context.writeExperimentIds context'.writeExperimentIds := by
  have hwrite : ∀ r, scrubbed (context.writeExperimentIds r) =
      context.writeExperimentIds (scrubbed r) := by
    intro r
    unfold Context.writeExperimentIds
    by_cases hempty : (context.commonFields.find? appExperimentIds).getD "" = ""
    · rw [if_pos hempty, if_pos hempty]
    · rw [if_neg hempty, if_neg hempty]
      rfl
  have hfind : context'.writeExperimentIds = context.writeExperimentIds := by
    unfold Context.writeExperimentIds
    rw [hsame.common appExperimentIds (by decide) (by decide), hsame.configIds]
  rw [hfind]
  exact .of_factor _ hwrite hwrite

theorem writeCommonFields_agree (hsame : SameContext context context') :
    Agree scrubbed context.writeCommonFields context'.writeCommonFields :=
  .foldl (List.forall₂_same.2 (commonWrites_agree hsame.common))

theorem scrubbed_writeCustomFields : scrubbed (context.writeCustomFields record) =
    scrubbed record := by
  unfold Context.writeCustomFields
  induction context.customFields.entries generalizing record with
  | nil => rfl
  | cons field fields ih => exact ih

/-- The tickets are not seen, as there is an element before them. -/
theorem scrubbed_writeTickets (h : record.extProtocol ≠ []) :
    scrubbed (context.writeTickets record) = scrubbed record := by
  obtain ⟨protocol, protocols, heq⟩ := exists_cons_of_ne_nil h
  unfold Context.writeTickets
  split_ifs
  · rfl
  · simp only [scrubbed, dropPiiPartA, heq]
    rfl

/-- The tickets of a context, if it has any. -/
def Context.ticketLists (context : Context) : List (List String) :=
  if context.tickets.entries = [] then [] else [context.tickets.values]

/-- The element a list of tickets makes. -/
def ticketElement (tickets : List String) : Protocol := { ticketKeys := [tickets] }

theorem extProtocol_writeTickets : (context.writeTickets record).extProtocol =
    record.extProtocol ++ context.ticketLists.map ticketElement := by
  unfold Context.writeTickets Context.ticketLists
  split_ifs
  · exact (append_nil _).symm
  · rfl

theorem extProtocol_writeCustomFields : (context.writeCustomFields record).extProtocol =
    record.extProtocol := by
  unfold Context.writeCustomFields
  induction context.customFields.entries generalizing record with
  | nil => rfl
  | cons field fields ih => exact ih

theorem extProtocol_writeExperimentIds : (context.writeExperimentIds record).extProtocol =
    record.extProtocol := by
  unfold Context.writeExperimentIds
  dsimp only
  split_ifs <;> rfl

/-- The record before the tickets have been written. -/
theorem extProtocol_common : ∃ protocol, (context.writeCommonFields
      (context.writeExperimentIds (ensureExtensions record))).extProtocol =
    protocol :: record.extProtocol.tail := by
  obtain ⟨change, hchange⟩ := @extProtocol_writeCommonFields
    (context.writeExperimentIds (ensureExtensions record)) context
  rw [hchange, extProtocol_writeExperimentIds]
  show ∃ protocol, (ensured {} record.extProtocol).modifyHead change = _
  cases record.extProtocol with
  | nil | cons protocol protocols => exact ⟨_, rfl⟩

/-- **A context adds its tickets behind what is there.** -/
theorem extProtocol_writeOwn (commonOnly : Bool) : ∃ protocol,
    (context.writeOwn record commonOnly).extProtocol =
      protocol :: (record.extProtocol.tail ++ context.ticketLists.map ticketElement) := by
  obtain ⟨protocol, hcommon⟩ := @extProtocol_common record context
  refine ⟨protocol, ?_⟩
  have htickets : (context.writeTickets (context.writeCommonFields
      (context.writeExperimentIds (ensureExtensions record)))).extProtocol =
      protocol :: (record.extProtocol.tail ++ context.ticketLists.map ticketElement) := by
    rw [extProtocol_writeTickets, hcommon, cons_append]
  unfold Context.writeOwn
  dsimp only
  split_ifs
  · exact htickets
  · rw [extProtocol_writeCustomFields, htickets]

theorem writeOwn_agree (hsame : SameContext context context') (commonOnly : Bool)
    (h : scrubbed (ensureExtensions s) = scrubbed (ensureExtensions t)) :
    scrubbed (context.writeOwn s commonOnly) = scrubbed (context'.writeOwn t commonOnly) := by
  have htickets : ∀ (c : Context) r, scrubbed (c.writeOwn r commonOnly) =
      scrubbed (c.writeCommonFields (c.writeExperimentIds (ensureExtensions r))) := by
    intro c r
    obtain ⟨protocol, hcommon⟩ := @extProtocol_common r c
    have hne := hcommon.trans_ne (cons_ne_nil _ _)
    unfold Context.writeOwn
    dsimp only
    split_ifs
    · exact scrubbed_writeTickets hne
    · rw [scrubbed_writeCustomFields, scrubbed_writeTickets hne]
  rw [htickets, htickets]
  exact writeCommonFields_agree hsame _ _ (writeExperimentIds_agree hsame _ _ h)

/-! ## The chain of contexts -/

/-- The lists of tickets of a context and its parents, in the order they
are written in. -/
def ticketListsOf (context : Context) : List Context → List (List String)
  | [] => context.ticketLists
  | parent :: parents => ticketListsOf parent parents ++ context.ticketLists

variable {parents parents' : List Context}

/-- **Each context of the chain adds an element with its tickets.** -/
theorem extProtocol_writeToRecord (commonOnly : Bool) : ∃ protocol,
    (context.writeToRecord parents record commonOnly).extProtocol =
      protocol :: (record.extProtocol.tail ++
        (ticketListsOf context parents).map ticketElement) := by
  induction parents generalizing context commonOnly with
  | nil => exact extProtocol_writeOwn commonOnly
  | cons parent parents ih =>
    obtain ⟨outer, houter⟩ := @ih parent false
    obtain ⟨protocol, hown⟩ := @extProtocol_writeOwn
      (parent.writeToRecord parents record false) context commonOnly
    refine ⟨protocol, ?_⟩
    rw [Context.writeToRecord, hown, houter, tail_cons, ticketListsOf, map_append,
      append_assoc]

/-- **The chain is written in the same way, but for what identifies.** -/
theorem writeToRecord_agree (hsame : SameContext context context')
    (hparents : List.Forall₂ SameContext parents parents') (commonOnly : Bool)
    (h : scrubbed (ensureExtensions s) = scrubbed (ensureExtensions t)) :
    scrubbed (context.writeToRecord parents s commonOnly) =
      scrubbed (context'.writeToRecord parents' t commonOnly) := by
  induction hparents generalizing context context' commonOnly with
  | nil => exact writeOwn_agree hsame commonOnly h
  | cons hparent _ ih =>
    exact writeOwn_agree hsame commonOnly (ensureExtensions_agree _ _ (ih hparent false))

/-! ## The base decorator -/

/-- The tickets of the controller are in the first element. -/
theorem scrubbed_addTickets (tickets : List String) :
    scrubbed (ensureExtensions (addTickets tickets record)) =
      scrubbed (ensureExtensions record) := by
  unfold addTickets
  split_ifs
  · rfl
  · simp only [scrubbed, dropPiiPartA, ensureExtensions]
    cases record.extProtocol <;> rfl

theorem extProtocol_addTickets (tickets : List String) :
    (addTickets tickets record).extProtocol.tail = record.extProtocol.tail := by
  unfold addTickets
  split_ifs
  · rfl
  · show ((ensured {} record.extProtocol).modifyHead _).tail = _
    cases record.extProtocol <;> rfl

/-- **What the base decorator writes is dropped again, but for the time and
the versions.** -/
theorem baseDecorate_agree {base' : BaseDecorator} {owner' : Owner}
    (htime : owner.time = owner'.time) (hversion : owner.sdkVersion = owner'.sdkVersion) :
    scrubbed (ensureExtensions (base.decorate owner record)) =
      scrubbed (ensureExtensions (base'.decorate owner' record)) := by
  unfold BaseDecorator.decorate
  dsimp only
  rw [scrubbed_addTickets, scrubbed_addTickets]
  simp only [scrubbed, dropPiiPartA, ensureExtensions, modifyHead_modifyHead, htime, hversion]
  rfl

theorem extProtocol_baseDecorate :
    (base.decorate owner record).extProtocol.tail = record.extProtocol.tail := by
  unfold BaseDecorator.decorate
  dsimp only
  rw [extProtocol_addTickets]

/-! ## The properties of the event -/

/-- Properties go to the data. -/
theorem addProperties_frame {properties : List (String × EventProperty)}
    {extPartB : OrdMap String Value} {added : Record × OrdMap String Value}
    (h : addProperties properties record extPartB = .ok added) :
    ∃ data, added.1 = { record with data := data } := by
  induction properties generalizing record extPartB with
  | nil =>
    cases h
    exact ⟨record.data, rfl⟩
  | cons property properties ih =>
    unfold addProperties at h
    split_ifs at h
    · exact ih h
    · obtain ⟨data, hdata⟩ := ih h
      exact ⟨data, hdata⟩

/-- And so does all that is left to do, but for the correlation vector. -/
theorem moveCorrelationVector_frame (extPartB : OrdMap String Value) :
    ∃ cV baseData data, moveCorrelationVector (withPartB extPartB record) =
      { record with cV := cV, baseData := baseData, data := data } := by
  have hpartB : ∃ baseData, withPartB extPartB record = { record with baseData := baseData } := by
    unfold withPartB
    split_ifs
    · exact ⟨record.baseData, rfl⟩
    · exact ⟨_, rfl⟩
  obtain ⟨baseData, hpartB⟩ := hpartB
  rw [hpartB]
  unfold moveCorrelationVector
  split
  · exact ⟨record.cV, baseData, record.data, rfl⟩
  · exact ⟨_, baseData, _, rfl⟩

/-- **A record decorated with the tag is one that the personal data has
been dropped from.** -/
theorem decorate_dropped {event : EventProperties} {randomLocalId : String}
    {latency : EventLatency} {decorated : Record × EventLatency} (hdrop : event.tagDropPii = true)
    (h : event.decorate randomLocalId latency record = .ok decorated) :
    ∃ moved, decorated.1 = dropPiiPartA randomLocalId moved ∧
      scrubbed moved = scrubbed (withFlags event
        (if latency = .unspecified then .normal else latency) record) ∧
      moved.extProtocol = record.extProtocol := by
  unfold EventProperties.decorate at h
  dsimp only at h
  generalize (if latency = .unspecified then EventLatency.normal else latency) = corrected at h ⊢
  split_ifs at h
  rcases hadded : addProperties event.properties.entries (withFlags event corrected record)
      OrdMap.empty with _ | added
  · rw [hadded] at h
    cases h
  · rw [hadded] at h
    cases h
    obtain ⟨data, hdata⟩ := addProperties_frame hadded
    obtain ⟨cV, baseData, data', hmoved⟩ := @moveCorrelationVector_frame added.1 added.2
    refine ⟨_, if_pos hdrop, ?_, ?_⟩
    · rw [hmoved, hdata]
      rfl
    · rw [hmoved, hdata]
      rfl

end Writes

end ClientTelemetry
