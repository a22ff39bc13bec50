import ClientTelemetry.Common.Groups
import ClientTelemetry.Packager.Helpers.Packager
/-!
# The body of a package

The splicer keeps one buffer and, for every tenant, the stretches of it
that are the tenant's records. Read off the buffer they are the records
that were accepted, grouped by tenant in order of first appearance
(`Packs.view`); a record added later moves none of the stretches
(`BondSplicer.view_addRecord`). The estimate the limit is compared with
is never less than the buffer, and a first record over the limit leaves
no room for a second, so a body of several records keeps to the limit.
-/

namespace ClientTelemetry

open List

namespace BondSplicer

variable {s : BondSplicer}

/-- What a span covers. -/
def cut (buffer : List UInt8) (span : Span) : StorageBlob :=
  (buffer.drop span.offset).take span.length

/-- The packages, with the blobs their spans cover. -/
def view (s : BondSplicer) : List (String × List StorageBlob) :=
  s.packages.map fun package => (package.tenantToken, package.records.map (cut s.buffer))

/-- The spans lie in the buffer. -/
def Inside (s : BondSplicer) : Prop :=
  ∀ package ∈ s.packages, ∀ span ∈ package.records, span.offset + span.length ≤ s.buffer.length

theorem splice_eq (s : BondSplicer) : s.splice = s.view.flatMap fun group => group.2.flatten := by
  unfold splice view
  rw [flatMap_map]
  rfl

theorem length_view : s.view.length = s.packages.length := length_map _

/-- What is behind a span does not change what it covers. -/
theorem cut_append {buffer : List UInt8} {span : Span} (blob : StorageBlob)
    (h : span.offset + span.length ≤ buffer.length) :
    cut (buffer ++ blob) span = cut buffer span := by
  unfold cut
  rw [drop_append_of_le_length (by omega), take_append_of_le_length]
  rw [length_drop]
  omega

theorem cut_last (buffer : List UInt8) (blob : StorageBlob) :
    cut (buffer ++ blob) ⟨buffer.length, blob.length⟩ = blob := by
  simp [cut]

/-- **A record goes to the end of its package**, and the others stay. -/
theorem view_addRecord (h : s.Inside) (i : ℕ) (blob : StorageBlob) :
    (s.addRecord i blob).view = s.view.modify i fun group => (group.1, group.2 ++ [blob]) := by
  unfold view addRecord
  refine ext_getElem? fun j => ?_
  rw [getElem?_modify, getElem?_map, getElem?_map, getElem?_modify]
  cases hj : s.packages[j]? with
  | none => simp
  | some package =>
    have hsame : package.records.map (cut (s.buffer ++ blob)) = package.records.map (cut s.buffer) :=
      map_congr_left fun span hspan =>
        cut_append blob (h package (mem_of_getElem? hj) span hspan)
    by_cases hij : i = j <;> simp [hij, hsame, cut_last]

theorem Inside.addRecord (h : s.Inside) (i : ℕ) (blob : StorageBlob) : (s.addRecord i blob).Inside := by
  intro package hpackage span hspan
  have hlen : (s.addRecord i blob).buffer.length = s.buffer.length + blob.length :=
    length_append
  rw [hlen]
  obtain ⟨j, hj⟩ := getElem?_of_mem hpackage
  unfold BondSplicer.addRecord at hj
  rw [getElem?_modify] at hj
  cases hold : s.packages[j]? with
  | none => simp [hold] at hj
  | some old =>
    have hin := h old (mem_of_getElem? hold)
    by_cases hij : i = j
    · simp only [hold, hij, if_true, Option.map_eq_map, Option.map_some, Option.some.injEq] at hj
      subst hj
      rcases mem_append.1 hspan with hspan | hspan
      · have := hin span hspan
        omega
      · rw [mem_singleton.1 hspan]
    · simp only [hold, hij, if_false, Option.map_eq_map, Option.map_some, Option.some.injEq] at hj
      subst hj
      have := hin span hspan
      omega

theorem view_addTenantToken (s : BondSplicer) (tenantToken : String) :
    (s.addTenantToken tenantToken).2.view = s.view ++ [(tenantToken, [])] := by
  unfold view addTenantToken
  simp

theorem Inside.addTenantToken (h : s.Inside) (tenantToken : String) :
    (s.addTenantToken tenantToken).2.Inside := by
  intro package hpackage span hspan
  rcases mem_append.1 hpackage with hpackage | hpackage
  · exact h package hpackage span hspan
  · rw [mem_singleton.1 hpackage] at hspan
    exact absurd hspan not_mem_nil

end BondSplicer

namespace Packager

variable {p : Packager} {ctx : EventsUploadContext} {record : StorageRecord}
  {accepted records : List StorageRecord}

/-- The tenant a record is packaged under. -/
def tokenOf (p : Packager) (record : StorageRecord) : String :=
  if p.forcedTenantToken = "" then record.tenantToken else p.forcedTenantToken

/-! ## What is packaged -/

/-- **A context that holds the accepted records.** -/
structure Packs (p : Packager) (ctx : EventsUploadContext) (accepted : List StorageRecord) :
    Prop where
  /-- The packages are the records by tenant. -/
  view : ctx.splicer.view = groups p.tokenOf (·.blob) accepted
  inside : ctx.splicer.Inside
  /-- Each tenant is known by the place of its package. -/
  indexes : ∀ tenantToken i, ctx.packageIds.find? tenantToken = some i ↔
    (firstKeys p.tokenOf accepted)[i]? = some tenantToken
  buffer : ctx.splicer.buffer.length = (accepted.flatMap (·.blob)).length
  /-- A body of several records keeps to the limit. -/
  size : accepted.length ≤ 1 ∨ ctx.splicer.buffer.length ≤ p.limitOf ctx

section

variable (h : p.Packs ctx accepted)
include h

theorem Packs.length_packages :
    ctx.splicer.packages.length = (firstKeys p.tokenOf accepted).length := by
  rw [← BondSplicer.length_view, h.view, groups, length_map]

theorem Packs.limited : p.Packs (p.limited ctx) accepted :=
  { h with size := by rw [limitOf_limited]; exact h.size }

/-- **The package of a tenant.** It is the tenant's place among those that
have one, the record's own included. -/
theorem Packs.packageOf (record : StorageRecord) :
    let opened := Packager.packageOf ctx (p.tokenOf record)
    (opened.2.splicer.view.modify opened.1 fun group => (group.1, group.2 ++ [record.blob])) =
        groups p.tokenOf (·.blob) (accepted ++ [record]) ∧
      opened.2.splicer.Inside ∧ opened.2.splicer.buffer = ctx.splicer.buffer ∧
      ∀ tenantToken i, opened.2.packageIds.find? tenantToken = some i ↔
        (firstKeys p.tokenOf (accepted ++ [record]))[i]? = some tenantToken := by
  intro opened
  cases hfind : ctx.packageIds.find? (p.tokenOf record) with
  | some i =>
    have hopened : opened = (i, ctx) := by
      simp only [opened, Packager.packageOf, hfind]
    have hplace := (h.indexes _ _).1 hfind
    rw [hopened, firstKeys_concat, if_pos (mem_of_getElem? hplace), h.view,
      groups_concat_of_getElem? hplace]
    exact ⟨rfl, h.inside, rfl, h.indexes⟩
  | none =>
    have hopened : opened = (ctx.splicer.packages.length, { ctx with
        splicer := (ctx.splicer.addTenantToken (p.tokenOf record)).2
        packageIds := ctx.packageIds.insert (p.tokenOf record) ctx.splicer.packages.length }) := by
      simp only [opened, Packager.packageOf, hfind]
      rfl
    have hnew : p.tokenOf record ∉ firstKeys p.tokenOf accepted := fun hmem => by
      obtain ⟨i, hi⟩ := getElem?_of_mem hmem
      rw [(h.indexes _ _).2 hi] at hfind
      exact absurd hfind (by simp)
    rw [hopened, firstKeys_concat, if_neg hnew, groups_concat_of_notMem hnew]
    refine ⟨?_, h.inside.addTenantToken _, rfl, fun tenantToken i => ?_⟩
    · rw [BondSplicer.view_addTenantToken, ← BondSplicer.length_view, h.view,
        modify_eq_take_cons_drop (by simp)]
      simp
    · rw [OrdMap.find?_insert, h.length_packages]
      split_ifs with hsame
      · -- the new tenant is at no earlier place
        subst hsame
        rw [Option.some.injEq]
        refine ⟨fun hi => by rw [← hi, getElem?_concat_length], fun hi => ?_⟩
        by_contra hne
        have hlt : i < (firstKeys p.tokenOf accepted).length := by
          have := (List.getElem?_eq_some_iff.1 hi).1
          simp only [length_append, length_singleton] at this
          omega
        rw [getElem?_append_left hlt] at hi
        exact hnew (mem_of_getElem? hi)
      · rw [h.indexes]
        rcases Nat.lt_trichotomy i (firstKeys p.tokenOf accepted).length with hlt | heq | hgt
        · rw [getElem?_append_left hlt]
        · rw [heq, getElem?_concat_length, getElem?_eq_none le_rfl]
          simp [Ne.symm hsame]
        · rw [getElem?_eq_none hgt.le, getElem?_eq_none (by simpa using hgt)]

/-- **A record that is added** is the last of those accepted. -/
theorem Packs.addEvent (hroom : p.Fits ctx record ∨ accepted = []) :
    p.Packs (p.addEvent ctx record) (accepted ++ [record]) := by
  have hlatency : p.Packs { ctx with
      latency := if ctx.latency = .unspecified then record.latency else ctx.latency } accepted :=
    { h with }
  obtain ⟨hview, hinside, hbuffer, hindexes⟩ := hlatency.packageOf record
  have hlength : (p.addEvent ctx record).splicer.buffer.length =
      ctx.splicer.buffer.length + record.blob.length :=
    (congrArg (fun buffer => (buffer ++ record.blob).length) hbuffer).trans length_append
  refine ⟨?_, hinside.addRecord _ _, hindexes, ?_, ?_⟩
  · rw [← hview]
    exact BondSplicer.view_addRecord hinside _ _
  · rw [hlength, h.buffer, flatMap_append, length_append]
    simp
  · rcases hroom with hfits | rfl
    · right
      rw [hlength, limitOf_addEvent]
      unfold Fits BondSplicer.getSizeEstimate at hfits
      omega
    · exact .inl le_rfl

end

/-! ## A stream of records -/

/-- The records given to the packager, one after the other. -/
def addAll (p : Packager) (ctx : EventsUploadContext) (records : List StorageRecord) :
    EventsUploadContext :=
  records.foldl (fun ctx record => (p.handleAddEventToPackage ctx record).2) ctx

/-- Those the context has packaged. -/
def acceptedOf (ctx : EventsUploadContext) (records : List StorageRecord) : List StorageRecord :=
  records.filter (·.id ∈ ctx.recordIds)

theorem addAll_concat (records : List StorageRecord) (record : StorageRecord) :
    p.addAll ctx (records ++ [record]) =
      (p.handleAddEventToPackage (p.addAll ctx records) record).2 := by
  simp [addAll]

theorem limitOf_handleAddEventToPackage :
    p.limitOf (p.handleAddEventToPackage ctx record).2 = p.limitOf ctx := by
  by_cases hfits : p.Fits ctx record
  · rw [handleAddEventToPackage_of_fits hfits, limitOf_addEvent, limitOf_limited]
  · rw [handleAddEventToPackage_of_not_fits hfits]
    dsimp only
    split_ifs
    · exact limitOf_limited
    · rw [limitOf_addEvent, limitOf_limited]

/-- **What a call can do.** The record is added, because it fits or is the
first; or it is turned down and nothing but the limit is written. -/
theorem handleAddEventToPackage_cases (p : Packager) (ctx : EventsUploadContext)
    (record : StorageRecord) :
    (p.handleAddEventToPackage ctx record).2 = p.addEvent (p.limited ctx) record ∧
        (p.Fits ctx record ∨ ctx.recordIds = []) ∨
      p.handleAddEventToPackage ctx record = (false, p.limited ctx) := by
  by_cases hfits : p.Fits ctx record
  · rw [handleAddEventToPackage_of_fits hfits]
    exact .inl ⟨rfl, .inl hfits⟩
  · rw [handleAddEventToPackage_of_not_fits hfits]
    by_cases hnil : ctx.recordIds = []
    · rw [if_neg (mt recordIds_ne_nil_iff.1 (not_not.2 hnil))]
      exact .inl ⟨rfl, .inr hnil⟩
    · rw [if_pos (recordIds_ne_nil_iff.2 hnil)]
      exact .inr rfl

/-- **A context that a stream of records has been given to.** -/
structure Accepts (p : Packager) (ctx : EventsUploadContext) (records : List StorageRecord) :
    Prop where
  packs : p.Packs ctx (acceptedOf ctx records)
  ids : ∀ i ∈ ctx.recordIds, i ∈ records.map (·.id)

theorem acceptedOf_concat_of_mem {ctx' : EventsUploadContext}
    (hids : ∀ i, i ∈ ctx'.recordIds ↔ i = record.id ∨ i ∈ ctx.recordIds)
    (hnew : record.id ∉ records.map (·.id)) :
    acceptedOf ctx' (records ++ [record]) = acceptedOf ctx records ++ [record] := by
  unfold acceptedOf
  rw [filter_append]
  congr 1
  · refine filter_congr fun r hr => ?_
    have hne : r.id ≠ record.id := fun heq => hnew (heq ▸ mem_map_of_mem hr)
    simp [hids, hne]
  · simp [hids]

theorem acceptedOf_concat_of_notMem (h : record.id ∉ ctx.recordIds) :
    acceptedOf ctx (records ++ [record]) = acceptedOf ctx records := by
  unfold acceptedOf
  rw [filter_append]
  simp [h]

theorem acceptedOf_eq_nil (records : List StorageRecord) (hnil : ctx.recordIds = []) :
    acceptedOf ctx records = [] := by
  simp [acceptedOf, hnil]

/-- **One more record** is the last of those accepted, or none of them. -/
theorem Accepts.acceptedOf_step (h : p.Accepts ctx records)
    (hnew : record.id ∉ records.map (·.id)) :
    (p.handleAddEventToPackage ctx record).2 = p.addEvent (p.limited ctx) record ∧
        (p.Fits ctx record ∨ ctx.recordIds = []) ∧
        acceptedOf (p.handleAddEventToPackage ctx record).2 (records ++ [record]) =
          acceptedOf ctx records ++ [record] ∨
      (p.handleAddEventToPackage ctx record).2 = p.limited ctx ∧
        acceptedOf (p.handleAddEventToPackage ctx record).2 (records ++ [record]) =
          acceptedOf ctx records := by
  rcases handleAddEventToPackage_cases p ctx record with ⟨hadded, hroom⟩ | hrefused
  · rw [hadded]
    exact .inl ⟨rfl, hroom, acceptedOf_concat_of_mem (fun i => mem_recordIds_addEvent) hnew⟩
  · rw [hrefused]
    have hout : record.id ∉ (p.limited ctx).recordIds := fun hmem => hnew (h.ids _ hmem)
    exact .inr ⟨rfl, acceptedOf_concat_of_notMem hout⟩

theorem Accepts.step (h : p.Accepts ctx records) (hnew : record.id ∉ records.map (·.id)) :
    p.Accepts (p.handleAddEventToPackage ctx record).2 (records ++ [record]) := by
  rcases h.acceptedOf_step hnew with ⟨hadded, hroom, haccepted⟩ | ⟨hrefused, haccepted⟩
  · refine ⟨?_, fun i hi => ?_⟩
    · rw [haccepted, hadded]
      refine h.packs.limited.addEvent (hroom.imp (fun hfits => ?_) (acceptedOf_eq_nil records))
      unfold Fits
      rw [limitOf_limited]
      exact hfits
    · rw [hadded, mem_recordIds_addEvent] at hi
      rcases hi with rfl | hi
      · simp
      · rw [map_append]
        exact mem_append_left _ (h.ids i hi)
  · refine ⟨?_, fun i hi => ?_⟩
    · rw [haccepted, hrefused]
      exact h.packs.limited
    · rw [hrefused] at hi
      rw [map_append]
      exact mem_append_left _ (h.ids i hi)

theorem accepts_requested (p : Packager) (minLatency : EventLatency) (maxCount : ℕ) :
    p.Accepts (requested minLatency maxCount) [] :=
  ⟨⟨rfl, fun _ h => absurd h not_mem_nil, fun _ _ => by simp [requested, firstKeys, acceptedOf, OrdMap.find?, OrdMap.empty],
    rfl, .inl (Nat.zero_le _)⟩, fun _ h => absurd h not_mem_nil⟩

/-- **A stream of records with distinct ids.** -/
theorem accepts_addAll (p : Packager) (minLatency : EventLatency) (maxCount : ℕ)
    (hids : (records.map (·.id)).Nodup) :
    p.Accepts (p.addAll (requested minLatency maxCount) records) records := by
  induction records using List.reverseRecOn with
  | nil => exact accepts_requested p minLatency maxCount
  | append_singleton records record ih =>
    rw [map_append, map_singleton] at hids
    have hparts := nodup_append.1 hids
    rw [addAll_concat]
    refine (ih hparts.1).step fun hmem => ?_
    exact hparts.2.2 _ hmem _ (mem_singleton.2 rfl) rfl

/-- What has been accepted so far stands first among what is accepted in
the end. -/
theorem acceptedOf_earlier (p : Packager) (minLatency : EventLatency) (maxCount : ℕ)
    (earlier later : List StorageRecord) (hids : ((earlier ++ later).map (·.id)).Nodup) :
    acceptedOf (p.addAll (requested minLatency maxCount) earlier) earlier <+:
      acceptedOf (p.addAll (requested minLatency maxCount) (earlier ++ later)) (earlier ++ later) := by
  induction later using List.reverseRecOn with
  | nil => rw [append_nil]
  | append_singleton later record ih =>
    rw [← append_assoc, map_append, map_singleton] at hids
    have hparts := nodup_append.1 hids
    rw [← append_assoc, addAll_concat]
    have hnew : record.id ∉ (earlier ++ later).map (·.id) := fun hmem =>
      hparts.2.2 _ hmem _ (mem_singleton.2 rfl) rfl
    refine (ih hparts.1).trans ?_
    rcases (accepts_addAll p minLatency maxCount hparts.1).acceptedOf_step hnew with
      ⟨-, -, haccepted⟩ | ⟨-, haccepted⟩
    · rw [haccepted]
      exact prefix_append _ _
    · rw [haccepted]

theorem packageOf_body (tenantToken : String) : (packageOf ctx tenantToken).2.body = ctx.body := by
  unfold Packager.packageOf
  split <;> rfl

theorem body_addAll (p : Packager) (minLatency : EventLatency) (maxCount : ℕ)
    (records : List StorageRecord) : (p.addAll (requested minLatency maxCount) records).body = [] ∧
      p.limitOf (p.addAll (requested minLatency maxCount) records) = p.maximumUploadSizeBytes := by
  induction records using List.reverseRecOn with
  | nil => exact ⟨rfl, rfl⟩
  | append_singleton records record ih =>
    rw [addAll_concat, limitOf_handleAddEventToPackage]
    refine ⟨?_, ih.2⟩
    rcases handleAddEventToPackage_cases p (p.addAll (requested minLatency maxCount) records) record
      with ⟨hadded, -⟩ | hrefused
    · rw [hadded]
      exact (packageOf_body _).trans ih.1
    · rw [hrefused]
      exact ih.1

/-! ## The body -/

section

variable (h : p.Packs ctx accepted)
include h

theorem Packs.splice_eq : ctx.splicer.splice =
    (firstKeys p.tokenOf accepted).flatMap fun tenantToken =>
      (accepted.filter (p.tokenOf · = tenantToken)).flatMap (·.blob) := by
  rw [BondSplicer.splice_eq, h.view, groups, flatMap_map]
  rfl

theorem Packs.length_splice :
    ctx.splicer.splice.length = ctx.splicer.buffer.length := by
  have hflat : ctx.splicer.splice = ((groups p.tokenOf (·.blob) accepted).flatMap Prod.snd).flatten := by
    rw [BondSplicer.splice_eq, h.view, flatMap_def, flatMap_def, flatten_flatten,
      map_map]
    rfl
  rw [hflat, h.buffer, (flatMap_groups_perm _ _ _).flatten.length_eq, flatMap_def]

/-- Without a package nothing was accepted. -/
theorem Packs.firstKeys_eq_nil (hnone : ctx.packageIds.entries = []) :
    firstKeys p.tokenOf accepted = [] := by
  cases hkeys : firstKeys p.tokenOf accepted with
  | nil => rfl
  | cons tenantToken rest =>
    have hfind := (h.indexes tenantToken 0).2 (by rw [hkeys]; rfl)
    have hmem := OrdMap.find?_eq_some.1 hfind
    rw [hnone] at hmem
    exact absurd hmem not_mem_nil

end

/-- **The body of a package is exactly the accepted records.** They stand
in it by tenant in order of first appearance, those of one tenant in
order of arrival, each once. Only the body of a single record can pass
the maximum. A record that is refused is answered with `false` and leaves
everything but the limit as it was, and what was accepted before any
record stands first among what is accepted in the end. -/
theorem package_body_exact (p : Packager) (minLatency : EventLatency) (maxCount : ℕ)
    (records : List StorageRecord) (hids : (records.map (·.id)).Nodup) :
    let ctx := p.addAll (requested minLatency maxCount) records
    let accepted := records.filter (·.id ∈ ctx.recordIds)
    let body := (handleFinalizePackage ctx).2.body
    body = (firstKeys p.tokenOf accepted).flatMap (fun tenantToken =>
        (accepted.filter (p.tokenOf · = tenantToken)).flatMap (·.blob)) ∧
      (∀ i, i ∈ ctx.recordIds ↔ i ∈ accepted.map (·.id)) ∧
      (body.length ≤ p.maximumUploadSizeBytes ∨ accepted.length = 1) ∧
      ∀ earlier record later, records = earlier ++ record :: later →
        let before := p.addAll (requested minLatency maxCount) earlier
        let result := p.handleAddEventToPackage before record
        earlier.filter (·.id ∈ before.recordIds) <+: accepted ∧
        (record.id ∉ result.2.recordIds →
          result = (false, { before with maxUploadSize := p.maximumUploadSizeBytes })) := by
  intro ctx accepted body
  have hctx : p.Accepts ctx records := accepts_addAll p minLatency maxCount hids
  have hpacks : p.Packs ctx accepted := hctx.packs
  obtain ⟨hbody, hlimit⟩ := body_addAll p minLatency maxCount records
  have hspliced : body = ctx.splicer.splice := by
    unfold body handleFinalizePackage
    split_ifs with hnone
    · rw [hpacks.splice_eq, hpacks.firstKeys_eq_nil hnone]
      exact hbody
    · rfl
  refine ⟨hspliced.trans hpacks.splice_eq, fun i => ⟨fun hi => ?_, fun hi => ?_⟩, ?_, ?_⟩
  · obtain ⟨record, hrecord, rfl⟩ := mem_map.1 (hctx.ids i hi)
    exact mem_map_of_mem (List.mem_filter.2 ⟨hrecord, by simpa using hi⟩)
  · obtain ⟨record, hrecord, rfl⟩ := mem_map.1 hi
    simpa using (List.mem_filter.1 hrecord).2
  · rw [hspliced, hpacks.length_splice]
    rcases hpacks.size with hfew | hfits
    · rcases Nat.le_one_iff_eq_zero_or_eq_one.1 hfew with hzero | hone
      · left
        rw [hpacks.buffer, length_eq_zero_iff.1 hzero]
        exact Nat.zero_le _
      · exact .inr hone
    · rw [hlimit] at hfits
      exact .inl hfits
  · rintro earlier record later rfl before result
    refine ⟨acceptedOf_earlier p minLatency maxCount earlier (record :: later) hids, fun hout => ?_⟩
    have hearlier := (body_addAll p minLatency maxCount earlier).2
    rcases handleAddEventToPackage_cases p before record with ⟨hadded, -⟩ | hrefused
    · exact absurd (hadded ▸ mem_recordIds_addEvent.2 (.inl rfl)) hout
    · rw [← hearlier]
      exact hrefused

/-- Two tenants in turn, and a last record that is too long. -/
def mixedRecords : List StorageRecord :=
  [{ id := "r1", tenantToken := "a", blob := [1, 0] },
    { id := "r2", tenantToken := "b", blob := [2, 0] },
    { id := "r3", tenantToken := "a", blob := [3, 0] },
    { id := "r4", tenantToken := "b", blob := List.replicate 40 0 }]

theorem package_body_exact_mixed : (mixedRecords.map (·.id)).Nodup ∧ (handleFinalizePackage
        (Packager.addAll ⟨"", 60⟩ (requested .normal 0) mixedRecords)).2.body = [1, 0, 3, 0, 2, 0] :=
  ⟨by decide, (package_body_exact ⟨"", 60⟩ .normal 0 mixedRecords (by decide)).1.trans
    (by decide +kernel)⟩

end Packager

end ClientTelemetry
