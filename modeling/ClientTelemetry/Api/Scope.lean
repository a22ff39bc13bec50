import ClientTelemetry.Api.Model.Context
import ClientTelemetry.Common.Run
/-!
# What a context writes to a record

The contexts of a logger are a chain, from its own to that of the manager.
Each writes its common fields to Part A of the record and its custom
fields to the properties. One equation says what is found under the name
of a custom field afterwards (`property?_writeToRecord`): with
`commonOnly` the context that is called leaves out its own custom fields,
but not those of its parents, since the flag is not handed on.

The ids of experiments are kept for the events by their names in lower
case, and read for the record by its name as it stands.
-/

namespace ClientTelemetry

open CsProtocol List

/-- `record.data[0].properties`, at one name. -/
def CsProtocol.Record.property? (record : Record) (name : String) : Option Value :=
  record.data.head?.bind fun d => d.properties.find? name

/-- `record.extApp[0].expId`. -/
def CsProtocol.Record.expId? (record : Record) : Option String := record.extApp.head?.map App.expId

/-- The names of the common fields. -/
def commonFieldNames : List String :=
  [sessionImpressionId, appExperimentEtag, appExperimentIds, appId, appEnv, appName, appVersion,
    appLanguage, deviceId, deviceOrgId, deviceMake, deviceModel, deviceClass, commercialId, osName,
    osBuild, userId, userLanguage, userTimezone, networkCost, networkProvider, networkType]

/-- The custom field of the nearest context that sets one. -/
def customField? (chain : List Context) (name : String) : Option EventProperty :=
  chain.findSome? fun context => context.customFields.find? name

variable {record r r' r'' : Record} {context : Context} {parents : List Context} {name : String}
  {eventName : String}

theorem property?_setProperty {name' : String} {value : Value} (hdata : record.data ≠ []) :
    (record.setProperty name' value).property? name =
      if name = name' then some value else record.property? name := by
  unfold Record.property? Record.setProperty
  cases hd : record.data with
  | nil => exact absurd hd hdata
  | cons d ds => exact OrdMap.find?_insert

theorem data_setProperty (name' : String) (value : Value) (hdata : record.data ≠ []) :
    (record.setProperty name' value).data ≠ [] := by
  unfold Record.setProperty
  cases hd : record.data with
  | nil => exact absurd hd hdata
  | cons d ds => exact cons_ne_nil _ _

/-! ## The common fields -/

/-- **What the common fields leave as it is**: the other properties, and
the experiment ids. -/
structure Spares (r r' : Record) : Prop where
  data : r.data ≠ [] → r'.data ≠ []
  properties : r.data ≠ [] → ∀ name ∉ commonFieldNames, r'.property? name = r.property? name
  expId : r'.expId? = r.expId?

namespace Spares

theorem refl : Spares r r := ⟨id, fun _ _ _ => rfl, rfl⟩

theorem trans (h : Spares r r') (h' : Spares r' r'') : Spares r r'' where
  data hr := h'.data (h.data hr)
  properties hr name hname :=
    (h'.properties (h.data hr) name hname).trans (h.properties hr name hname)
  expId := h'.expId.trans h.expId

/-- A change outside the properties that does not touch the ids. -/
theorem of_eq (hdata : r'.data = r.data) (hexp : r'.expId? = r.expId?) : Spares r r' := by
  refine ⟨fun hr => hdata ▸ hr, fun _ name _ => ?_, hexp⟩
  rw [Record.property?, hdata, Record.property?]

theorem onApp {change : App → App} (h : ∀ app, (change app).expId = app.expId) :
    Spares r (r.onApp change) := by
  refine of_eq rfl ?_
  unfold Record.expId? Record.onApp
  cases r.extApp with
  | nil => rfl
  | cons app apps => exact congrArg some (h app)

theorem setProperty {value : Value} (h : name ∈ commonFieldNames) :
    Spares r (r.setProperty name value) := by
  refine ⟨data_setProperty name value, fun hr other hother => ?_, rfl⟩
  rw [property?_setProperty hr, if_neg]
  rintro rfl
  exact hother h

theorem writeField {set : Record → String → Record} (h : ∀ v, Spares r (set r v))
    (fields : OrdMap String String) : Spares r (writeField name set fields r) := by
  unfold ClientTelemetry.writeField
  split
  · exact h _
  · exact refl

theorem writeAppName (fields : OrdMap String String) : Spares r (writeAppName fields r) := by
  unfold ClientTelemetry.writeAppName
  split
  · exact onApp fun _ => rfl
  · split_ifs
    · exact onApp fun _ => rfl
    · exact refl

theorem commonWrites : ∀ write ∈ commonWrites, ∀ fields r, Spares r (write fields r) := by
  simp only [ClientTelemetry.commonWrites, forall_mem_cons]
  refine ⟨?_, ?_, ?_, ?_, fun fields r => writeAppName fields, ?_, ?_, ?_, ?_, ?_, ?_, ?_, ?_, ?_, ?_,
    ?_, ?_, ?_, ?_, ?_, ?_, fun _ h => nomatch h⟩
  all_goals refine fun fields r => writeField (fun v => ?_) fields
  all_goals first
    | exact of_eq rfl rfl
    | exact onApp fun _ => rfl
    | exact setProperty (by simp [commonFieldNames])

theorem writeCommonFields : Spares r (context.writeCommonFields r) := by
  unfold Context.writeCommonFields
  have hwrites := commonWrites
  generalize ClientTelemetry.commonWrites = writes at hwrites
  induction writes generalizing r with
  | nil => exact refl
  | cons write writes ih =>
    have hfirst := hwrites write mem_cons_self context.commonFields r
    exact hfirst.trans (ih fun w hw => hwrites w (mem_cons_of_mem _ hw))

theorem writeTickets : Spares r (context.writeTickets r) := by
  unfold Context.writeTickets
  split_ifs
  · exact refl
  · exact of_eq rfl rfl

end Spares

/-! ## Custom fields -/

/-- The record when the common fields of a context are in it. -/
def Context.common (context : Context) (record : Record) : Record :=
  context.writeTickets
    (context.writeCommonFields (context.writeExperimentIds (ensureExtensions record)))

theorem Context.common_spares :
    Spares (context.writeExperimentIds (ensureExtensions record)) (context.common record) :=
  Spares.writeCommonFields.trans .writeTickets

theorem data_writeExperimentIds :
    (context.writeExperimentIds (ensureExtensions record)).data = ensured {} record.data := by
  unfold Context.writeExperimentIds
  dsimp only
  split_ifs <;> rfl

theorem data_experimentIds_ne_nil :
    (context.writeExperimentIds (ensureExtensions record)).data ≠ [] := by
  rw [data_writeExperimentIds]
  cases record.data <;> exact cons_ne_nil _ _

theorem property?_common (h : name ∉ commonFieldNames) :
    (context.common record).property? name = record.property? name := by
  rw [Context.common_spares.properties data_experimentIds_ne_nil name h, Record.property?,
    data_writeExperimentIds, Record.property?]
  cases record.data <;> rfl

/-- The custom fields, written one after another: their names differ. -/
theorem property?_writeCustomFields (hdata : record.data ≠ []) :
    (context.writeCustomFields record).property? name =
      ((context.customFields.find? name).map contextValue).or (record.property? name) := by
  unfold Context.writeCustomFields OrdMap.find?
  have hnodup : (context.customFields.entries.map Prod.fst).Nodup := context.customFields.keys_nodup
  generalize context.customFields.entries = fields at hnodup
  induction fields generalizing record with
  | nil => rfl
  | cons field fields ih =>
    obtain ⟨hnew, hrest⟩ := nodup_cons.1 hnodup
    rw [foldl_cons, ih (data_setProperty _ _ hdata) hrest, property?_setProperty hdata]
    by_cases hname : name = field.1
    · have hnone : fields.find? (fun e => e.1 = name) = none := by
        refine find?_eq_none.2 fun e he => ?_
        rw [decide_eq_true_iff, hname]
        exact fun heq => hnew (heq ▸ mem_map_of_mem he)
      rw [hnone, if_pos hname, find?_cons_of_pos (by simpa using hname.symm)]
      rfl
    · rw [if_neg hname, find?_cons_of_neg (by simpa using Ne.symm hname)]

/-- **What is found under a name that is not of a common field.** -/
theorem property?_writeToRecord (h : name ∉ commonFieldNames) (commonOnly : Bool) :
    (context.writeToRecord parents record commonOnly).property? name =
      ((customField? (if commonOnly then parents else context :: parents) name).map
        contextValue).or (record.property? name) := by
  have hown : ∀ (context : Context) (record : Record) (commonOnly : Bool),
      (context.writeOwn record commonOnly).property? name =
        if commonOnly then record.property? name
        else ((context.customFields.find? name).map contextValue).or (record.property? name) := by
    intro context record commonOnly
    have hdata : (context.common record).data ≠ [] :=
      Context.common_spares.data data_experimentIds_ne_nil
    have hcommon : (context.common record).property? name = record.property? name :=
      property?_common h
    cases commonOnly with
    | true => exact hcommon
    | false => exact (property?_writeCustomFields hdata).trans (by rw [hcommon]; rfl)
  induction parents generalizing context commonOnly with
  | nil =>
    rw [Context.writeToRecord, hown]
    cases commonOnly <;> simp [customField?]
  | cons parent parents ih =>
    rw [Context.writeToRecord, hown, ih]
    cases commonOnly with
    | true => rfl
    | false =>
      simp only [customField?, Bool.false_eq_true, if_false, findSome?_cons]
      cases context.customFields.find? name <;> rfl

/-- **Scope is respected**: with `commonOnly` nothing is written under the
name of a custom field of the chain, and without it the value of the
nearest context that sets the field. -/
def RespectsScope (context : Context) (parents : List Context) (record : Record) : Prop :=
  (∀ c ∈ context :: parents, ∀ name ∈ c.customFields.keys,
    (context.writeToRecord parents record true).property? name = record.property? name) ∧
  ∀ name property, customField? (context :: parents) name = some property →
    (context.writeToRecord parents record false).property? name = some (contextValue property)

/-- **When scope is respected.** The custom fields of the parents are
written with `commonOnly` as well; so exactly if the record has them
already, or there are none. -/
theorem respects_scope_iff (context : Context) (parents : List Context) (record : Record)
    (hnames : ∀ c ∈ context :: parents, ∀ name ∈ c.customFields.keys, name ∉ commonFieldNames) :
    RespectsScope context parents record ↔
      ∀ name property, customField? parents name = some property →
        record.property? name = some (contextValue property) := by
  have hset : ∀ {chain name property}, customField? chain name = some property →
      ∃ c ∈ chain, name ∈ c.customFields.keys := by
    intro chain name property hfound
    obtain ⟨c, hc, hfind⟩ := exists_of_findSome?_eq_some hfound
    exact ⟨c, hc, OrdMap.mem_keys_iff_find?.2 ⟨property, hfind⟩⟩
  constructor
  · rintro ⟨hcommon, -⟩ name property hfound
    obtain ⟨c, hc, hname⟩ := hset hfound
    have hkept := hcommon c (mem_cons_of_mem _ hc) name hname
    rw [property?_writeToRecord (hnames c (mem_cons_of_mem _ hc) name hname), if_pos rfl,
      hfound] at hkept
    exact hkept.symm
  · refine fun hheld => ⟨fun c hc name hname => ?_, fun name property hfound => ?_⟩
    · rw [property?_writeToRecord (hnames c hc name hname), if_pos rfl]
      cases hfound : customField? parents name with
      | none => rfl
      | some property => exact (hheld name property hfound).symm
    · obtain ⟨c, hc, hname⟩ := hset hfound
      rw [property?_writeToRecord (hnames c hc name hname), if_neg Bool.false_ne_true, hfound]
      rfl

/-- A context with one custom field. -/
def oneField (name value : String) : Context :=
  { customFields := OrdMap.singleton name { value := .string value } }

theorem respects_scope_alone : RespectsScope (oneField "a" "own") [{}] {} :=
  (respects_scope_iff (oneField "a" "own") [{}] {} (by decide +kernel)).2 (fun _ _ h => nomatch h)

/-- **The field of a parent comes with the common fields.** -/
theorem parent_field_with_common_only :
    (Context.writeToRecord {} [oneField "a" "parent"] {} true).property? "a" =
      some { stringValue := "parent" } ∧
    ¬ RespectsScope {} [oneField "a" "parent"] {} := by
  have hwritten : (Context.writeToRecord {} [oneField "a" "parent"] {} true).property? "a" =
      some { stringValue := "parent" } := by decide +kernel
  refine ⟨hwritten, fun h => ?_⟩
  have hkept := h.1 (oneField "a" "parent") (by simp) "a" (by decide)
  rw [hwritten] at hkept
  cases hkept

/-! ## Experiment ids -/

/-- The ids most recently set for a name that is this one but for the
case, unless they were cleared since. -/
def idsFor (eventName : String) (ids : Option String) : ExperimentCall → Option String
  | .setEventExperimentIds name experimentIds =>
    if name ≠ "" ∧ toLower name = toLower eventName then
      if experimentIds ≠ "" then some experimentIds else none
    else ids
  | .clearExperimentIds => none

theorem toLower_toLower (s : String) : toLower (toLower s) = toLower s := by
  have hchar (c : Char) : c.toLower.toLower = c.toLower := by
    unfold Char.toLower
    split_ifs with h h'
    · exfalso
      simp only [ge_iff_le, UInt32.le_iff_toNat_le, UInt32.toNat_add] at h h'
      have hgap : ('a'.val - 'A'.val).toNat = 32 := rfl
      have hlast : 'Z'.val.toNat = 90 := rfl
      have hfirst : 'A'.val.toNat = 65 := rfl
      omega
    · rfl
    · rfl
  simp only [toLower, String.toList_ofList, map_map]
  exact congrArg String.ofList (map_congr_left fun c _ => hchar c)

/-- The key of a call is the name of an event in lower case. -/
theorem eq_toLower_iff {other : String} : eventName = toLower other ↔
      toLower eventName = eventName ∧ toLower other = toLower eventName := by
  constructor
  · rintro rfl
    exact ⟨toLower_toLower other, (toLower_toLower other).symm⟩
  · rintro ⟨hlower, hsame⟩
    exact (hsame.trans hlower).symm

/-- **The map of the ids has what was set for names in lower case.** -/
theorem find?_experimentCalls {ids : Option String} (calls : List ExperimentCall)
    (h : context.eventToConfigIds.find? eventName =
      if toLower eventName = eventName then ids else none) :
    (run Context.experimentCall context calls).eventToConfigIds.find? eventName =
      if toLower eventName = eventName then run (idsFor eventName) ids calls else none := by
  induction calls generalizing context ids with
  | nil => exact h
  | cons call calls ih =>
    rw [run_cons, run_cons]
    refine ih ?_
    cases call with
    | clearExperimentIds => exact (ite_self none).symm
    | setEventExperimentIds other experimentIds =>
      have hmap (found : Option String) :
          (if eventName = toLower other then found else context.eventToConfigIds.find? eventName) =
            if toLower eventName = eventName then
              if toLower other = toLower eventName then found else ids
            else none := by
        rw [h]
        by_cases hlower : toLower eventName = eventName
        · by_cases hsame : toLower other = toLower eventName
          · rw [if_pos (eq_toLower_iff.2 ⟨hlower, hsame⟩), if_pos hlower, if_pos hsame]
          · rw [if_neg fun heq => hsame (eq_toLower_iff.1 heq).2, if_pos hlower, if_pos hlower,
              if_neg hsame]
        · rw [if_neg fun heq => hlower (eq_toLower_iff.1 heq).1, if_neg hlower, if_neg hlower]
      simp only [Context.experimentCall, Context.setEventExperimentIds, idsFor]
      by_cases hother : other = ""
      · simp only [hother, if_true, ne_eq, not_true_eq_false, false_and, if_false]
        exact h
      · simp only [hother, if_false, ne_eq, not_false_eq_true, true_and]
        by_cases hids : experimentIds = ""
        · rw [if_neg (not_not_intro hids), if_neg (not_not_intro hids), OrdMap.find?_erase]
          exact hmap none
        · rw [if_pos hids, if_pos hids, OrdMap.find?_insert]
          exact hmap (some experimentIds)

theorem expId?_writeOwn (commonOnly : Bool) : (context.writeOwn record commonOnly).expId? =
      (context.writeExperimentIds (ensureExtensions record)).expId? := by
  have hcommon : (context.common record).expId? = _ := Context.common_spares.expId
  cases commonOnly with
  | true => exact hcommon
  | false =>
    refine Eq.trans ?_ hcommon
    change (context.writeCustomFields (context.common record)).expId? = _
    unfold Context.writeCustomFields
    generalize context.common record = r
    induction context.customFields.entries generalizing r with
    | nil => rfl
    | cons field fields ih => exact ih _

/-- No ids are set for an event without a name. -/
theorem run_idsFor_empty (calls : List ExperimentCall) : run (idsFor "") none calls = none := by
  induction calls with
  | nil => rfl
  | cons call calls ih =>
    rw [run_cons]
    cases call with
    | clearExperimentIds => exact ih
    | setEventExperimentIds other experimentIds =>
      have hempty : toLower other = toLower "" → other = "" := by
        intro h
        have hlist := congrArg String.toList h
        simpa [toLower] using hlist
      rw [idsFor, if_neg fun h => h.1 (hempty h.2)]
      exact ih

/-- What is read for a record: what the map has under its very name. -/
theorem expId?_writeToRecord {ids : String} (hids : ids ≠ "") (commonOnly : Bool) :
    ((context.setCommonField appExperimentIds ids).writeToRecord [] record commonOnly).expId? =
      some (if record.name = "" then ids
        else (context.eventToConfigIds.find? record.name).getD ids) := by
  have hread : ((context.commonFields.insert appExperimentIds ids).find? appExperimentIds).getD "" =
      ids := by
    rw [OrdMap.find?_insert, if_pos rfl]
    rfl
  rw [Context.writeToRecord, expId?_writeOwn]
  simp only [Context.writeExperimentIds, Context.setCommonField, hread, if_neg hids]
  change ((ensured {} record.extApp).modifyHead _).head?.map App.expId = _
  cases record.extApp <;> rfl

/-- **When the ids of an event are applied.** They are found by names in
lower case only; so exactly if the name of the event is in lower case, or
the ids that apply are the common ones. -/
theorem event_experiment_ids_iff (context : Context) (calls : List ExperimentCall) (ids : String)
    (record : Record) (commonOnly : Bool) (hfresh : context.eventToConfigIds = OrdMap.empty)
    (hids : ids ≠ "") :
    (((run Context.experimentCall context calls).setCommonField appExperimentIds ids).writeToRecord
      [] record commonOnly).expId? = some ((run (idsFor record.name) none calls).getD ids) ↔
      toLower record.name = record.name ∨ (run (idsFor record.name) none calls).getD ids = ids := by
  have hfound : (run Context.experimentCall context calls).eventToConfigIds.find? record.name = _ :=
    find?_experimentCalls calls (by rw [hfresh]; exact (ite_self none).symm)
  rw [expId?_writeToRecord hids, Option.some_inj, hfound]
  by_cases hname : record.name = ""
  · rw [if_pos hname, hname, run_idsFor_empty]
    exact iff_of_true rfl (.inr rfl)
  · rw [if_neg hname]
    by_cases hlower : toLower record.name = record.name
    · rw [if_pos hlower]
      exact iff_of_true rfl (.inl hlower)
    · rw [if_neg hlower, or_iff_right hlower]
      exact eq_comm

theorem event_experiment_ids_lower :
    (((run Context.experimentCall {} [.setEventExperimentIds "Event" "own"]).setCommonField
      appExperimentIds "common").writeToRecord [] { name := "event" } false).expId? = some "own" :=
  (event_experiment_ids_iff {} [.setEventExperimentIds "Event" "own"] "common" { name := "event" }
    false rfl (by decide)).2 (.inl (by decide +kernel))

/-- **The ids of an event with a capital letter are not found.** -/
theorem capital_event_common_ids :
    run (idsFor "Event") none [.setEventExperimentIds "Event" "own"] = some "own" ∧
    (((run Context.experimentCall {} [.setEventExperimentIds "Event" "own"]).setCommonField
      appExperimentIds "common").writeToRecord [] { name := "Event" } false).expId? =
        some "common" := by
  constructor
  · decide +kernel
  · decide +kernel

end ClientTelemetry
