import ClientTelemetry.Common.Consume
import ClientTelemetry.Packager.Model.Packager
/-!
# The packager as a consumer

What a walk of records through `handleAddEventToPackage` packages. Once
something is packaged, a record is packaged exactly when it is wanted
(`offer_packages`), so that the ids of the context are those the walk
took. The first record is the exception: over the limit it is packaged
and turned down (`offer_first_oversize`), and the walk is over.
-/

namespace ClientTelemetry

open List

namespace Packager

variable {α : Type*} {p : Packager} {ctx : EventsUploadContext} {record : StorageRecord}

/-- The limit that applies to a context. -/
def limitOf (p : Packager) (ctx : EventsUploadContext) : ℕ :=
  if ctx.maxUploadSize = 0 then p.maximumUploadSizeBytes else ctx.maxUploadSize

/-- The record fits behind what is packaged. -/
def Fits (p : Packager) (ctx : EventsUploadContext) (record : StorageRecord) : Prop :=
  ctx.splicer.getSizeEstimate + record.blob.length ≤ p.limitOf ctx

/-- The context with its limit set. -/
def limited (p : Packager) (ctx : EventsUploadContext) : EventsUploadContext :=
  { ctx with maxUploadSize := p.limitOf ctx }

@[simp] theorem recordIds_limited : (p.limited ctx).recordIds = ctx.recordIds := rfl

@[simp] theorem splicer_limited : (p.limited ctx).splicer = ctx.splicer := rfl

theorem limitOf_limited : p.limitOf (p.limited ctx) = p.limitOf ctx := by
  unfold limitOf limited limitOf
  dsimp only
  split_ifs <;> simp_all

theorem limited_eq : (if ctx.maxUploadSize = 0
    then { ctx with maxUploadSize := p.maximumUploadSizeBytes } else ctx) = p.limited ctx := by
  unfold limited limitOf
  split_ifs <;> rfl

/-! ## One record -/

/-- A record that fits is added and more is wanted. -/
theorem handleAddEventToPackage_of_fits (h : p.Fits ctx record) :
    p.handleAddEventToPackage ctx record = (true, p.addEvent (p.limited ctx) record) := by
  unfold handleAddEventToPackage
  dsimp only
  rw [limited_eq, if_neg]
  unfold Fits at h
  have hlimit : (p.limited ctx).maxUploadSize = p.limitOf ctx := rfl
  rw [hlimit, splicer_limited]
  omega

/-- One that does not is turned down, and added only to an empty
context. -/
theorem handleAddEventToPackage_of_not_fits (h : ¬ p.Fits ctx record) :
    p.handleAddEventToPackage ctx record =
      (false, if ctx.recordIdsAndTenantIds.entries ≠ [] then p.limited ctx
        else p.addEvent (p.limited ctx) record) := by
  unfold handleAddEventToPackage
  dsimp only
  rw [limited_eq, if_pos]
  · have hsame : (p.limited ctx).recordIdsAndTenantIds = ctx.recordIdsAndTenantIds := rfl
    rw [hsame]
    split_ifs <;> rfl
  · unfold Fits at h
    have hlimit : (p.limited ctx).maxUploadSize = p.limitOf ctx := rfl
    rw [hlimit, splicer_limited]
    omega

theorem packageOf_recordIds (tenantToken : String) :
    (packageOf ctx tenantToken).2.recordIdsAndTenantIds = ctx.recordIdsAndTenantIds := by
  unfold packageOf
  split <;> rfl

theorem packageOf_maxUploadSize (tenantToken : String) :
    (packageOf ctx tenantToken).2.maxUploadSize = ctx.maxUploadSize := by
  unfold packageOf
  split <;> rfl

theorem packageOf_sizeEstimate (ctx : EventsUploadContext) (tenantToken : String) :
    ctx.splicer.getSizeEstimate ≤ (packageOf ctx tenantToken).2.splicer.getSizeEstimate := by
  unfold packageOf
  split
  · exact le_rfl
  · show ctx.splicer.getSizeEstimate ≤ (ctx.splicer.addTenantToken tenantToken).2.getSizeEstimate
    unfold BondSplicer.addTenantToken BondSplicer.getSizeEstimate
    dsimp only
    omega

theorem mem_recordIds_addEvent {i : StorageRecordId} :
    i ∈ (p.addEvent ctx record).recordIds ↔ i = record.id ∨ i ∈ ctx.recordIds := by
  unfold addEvent EventsUploadContext.recordIds
  dsimp only
  rw [packageOf_recordIds, OrdMap.mem_keys_insert]

theorem limitOf_addEvent : p.limitOf (p.addEvent ctx record) = p.limitOf ctx := by
  unfold limitOf addEvent
  dsimp only
  rw [packageOf_maxUploadSize]

/-- The estimate grows by the record's blob at least. -/
theorem sizeEstimate_addEvent (p : Packager) (ctx : EventsUploadContext) (record : StorageRecord) :
    ctx.splicer.getSizeEstimate + record.blob.length ≤
      (p.addEvent ctx record).splicer.getSizeEstimate := by
  unfold addEvent
  dsimp only
  set tenantToken := if p.forcedTenantToken = "" then record.tenantToken else p.forcedTenantToken
  have hopen := packageOf_sizeEstimate { ctx with
    latency := if ctx.latency = .unspecified then record.latency else ctx.latency } tenantToken
  generalize packageOf { ctx with
    latency := if ctx.latency = .unspecified then record.latency else ctx.latency }
      tenantToken = opened at hopen ⊢
  have hadd : (opened.2.splicer.addRecord opened.1 record.blob).getSizeEstimate =
      opened.2.splicer.getSizeEstimate + record.blob.length := by
    unfold BondSplicer.addRecord BondSplicer.getSizeEstimate
    simp only [length_append]
    omega
  rw [hadd]
  have hsame : ctx.splicer.getSizeEstimate ≤ opened.2.splicer.getSizeEstimate := hopen
  omega

theorem recordIds_ne_nil_iff : ctx.recordIdsAndTenantIds.entries ≠ [] ↔ ctx.recordIds ≠ [] := by
  unfold EventsUploadContext.recordIds OrdMap.keys
  simp

/-- A context has a package when it has a record. -/
def Tidy (ctx : EventsUploadContext) : Prop :=
  ctx.packageIds.entries = [] ↔ ctx.recordIds = []

theorem packageOf_packageIds (ctx : EventsUploadContext) (tenantToken : String) :
    tenantToken ∈ (packageOf ctx tenantToken).2.packageIds.keys := by
  unfold packageOf
  split
  · next i hi => exact OrdMap.mem_keys_iff_find?.2 ⟨i, hi⟩
  · exact OrdMap.mem_keys_insert.2 (Or.inl rfl)

theorem tidy_addEvent (p : Packager) (ctx : EventsUploadContext) (record : StorageRecord) :
    Tidy (p.addEvent ctx record) := by
  refine iff_of_false (fun hnil => ?_) (fun hnil => ?_)
  · -- the package of the record's tenant is there
    have hkey := packageOf_packageIds
      { ctx with latency := if ctx.latency = .unspecified then record.latency else ctx.latency }
      (if p.forcedTenantToken = "" then record.tenantToken else p.forcedTenantToken)
    have hnone : (p.addEvent ctx record).packageIds.keys = [] := by
      unfold OrdMap.keys
      rw [hnil]
      rfl
    exact ne_nil_of_mem hkey hnone
  · exact ne_nil_of_mem (mem_recordIds_addEvent.2 (Or.inl rfl)) hnil

theorem Tidy.handleAddEventToPackage (h : Tidy ctx) (record : StorageRecord) :
    Tidy (p.handleAddEventToPackage ctx record).2 := by
  by_cases hfits : p.Fits ctx record
  · rw [handleAddEventToPackage_of_fits hfits]
    exact tidy_addEvent p _ record
  · rw [handleAddEventToPackage_of_not_fits hfits]
    dsimp only
    split_ifs
    · exact h
    · exact tidy_addEvent p _ record

/-! ## A walk -/

/-- The packager as it is asked about the elements of a store, each of
which shows a record. -/
def packaging (p : Packager) (f : α → StorageRecord) :
    EventsUploadContext → α → Bool × EventsUploadContext :=
  fun ctx a => p.handleAddEventToPackage ctx (f a)

variable {f : α → StorageRecord} {a : α} {as : List α}

/-- Once something is packaged, a record that does not fit is refused. -/
theorem packaging_of_not_fits (hne : ctx.recordIds ≠ []) (hfits : ¬ p.Fits ctx (f a)) :
    p.packaging f ctx a = (false, p.limited ctx) := by
  show p.handleAddEventToPackage ctx (f a) = _
  rw [handleAddEventToPackage_of_not_fits hfits, if_pos (recordIds_ne_nil_iff.2 hne)]

/-- **Once something is packaged, what is packaged is what is taken.** -/
theorem offer_packages (hne : ctx.recordIds ≠ []) (i : StorageRecordId) :
    i ∈ (offer (p.packaging f) ctx as).2.recordIds ↔
      i ∈ ctx.recordIds ∨ ∃ a ∈ (offer (p.packaging f) ctx as).1, (f a).id = i := by
  induction as generalizing ctx with
  | nil => simp
  | cons a as ih =>
    by_cases hfits : p.Fits ctx (f a)
    · have hres : p.packaging f ctx a = (true, p.addEvent (p.limited ctx) (f a)) :=
        handleAddEventToPackage_of_fits hfits
      have hne' : (p.addEvent (p.limited ctx) (f a)).recordIds ≠ [] :=
        ne_nil_of_mem (mem_recordIds_addEvent.2 (Or.inl rfl))
      rw [offer_cons_true (by rw [hres]), hres, ih hne', mem_recordIds_addEvent,
        recordIds_limited]
      simp only [mem_cons, exists_eq_or_imp, eq_comm (a := i)]
      tauto
    · have hres := packaging_of_not_fits hne hfits
      rw [offer_cons_false (by rw [hres]), hres]
      simp

/-- **A first record that fits** is packaged and taken, and so is the rest
of the walk. -/
theorem offer_first_fits (as : List α) (hnil : ctx.recordIds = []) (hfits : p.Fits ctx (f a)) :
    (offer (p.packaging f) ctx (a :: as)).1 ≠ [] ∧
      ∀ i, i ∈ (offer (p.packaging f) ctx (a :: as)).2.recordIds ↔
        ∃ b ∈ (offer (p.packaging f) ctx (a :: as)).1, (f b).id = i := by
  have hres : p.packaging f ctx a = (true, p.addEvent (p.limited ctx) (f a)) :=
    handleAddEventToPackage_of_fits hfits
  have hne : (p.addEvent (p.limited ctx) (f a)).recordIds ≠ [] :=
    ne_nil_of_mem (mem_recordIds_addEvent.2 (Or.inl rfl))
  rw [offer_cons_true (by rw [hres]), hres]
  refine ⟨cons_ne_nil _ _, fun i => ?_⟩
  rw [offer_packages hne, mem_recordIds_addEvent, recordIds_limited, hnil]
  simp only [mem_cons, exists_eq_or_imp, not_mem_nil, or_false, eq_comm (a := i)]

/-- The context is over its limit. -/
def Full (p : Packager) (ctx : EventsUploadContext) : Prop :=
  p.limitOf ctx < ctx.splicer.getSizeEstimate

/-- **A first record over the limit** is packaged and not taken. -/
theorem offer_first_oversize (as : List α) (hnil : ctx.recordIds = []) (hfits : ¬ p.Fits ctx (f a)) :
    (offer (p.packaging f) ctx (a :: as)).1 = [] ∧
      (∀ i, i ∈ (offer (p.packaging f) ctx (a :: as)).2.recordIds ↔ i = (f a).id) ∧
      p.Full (offer (p.packaging f) ctx (a :: as)).2 := by
  have hempty : ¬ ctx.recordIdsAndTenantIds.entries ≠ [] := by
    rw [recordIds_ne_nil_iff, hnil]
    simp
  have hres : p.packaging f ctx a = (false, p.addEvent (p.limited ctx) (f a)) := by
    show p.handleAddEventToPackage ctx (f a) = _
    rw [handleAddEventToPackage_of_not_fits hfits, if_neg hempty]
  rw [offer_cons_false (by rw [hres]), hres]
  refine ⟨rfl, fun i => ?_, ?_⟩
  · rw [mem_recordIds_addEvent, recordIds_limited, hnil]
    simp
  · have hgrow := sizeEstimate_addEvent p (p.limited ctx) (f a)
    show p.Full (p.addEvent (p.limited ctx) (f a))
    unfold Fits at hfits
    unfold Full
    rw [limitOf_addEvent, limitOf_limited]
    rw [splicer_limited] at hgrow
    omega

/-- A context over its limit takes and packages nothing more. -/
theorem offer_full (as : List α) (hne : ctx.recordIds ≠ []) (hfull : p.Full ctx) :
    (offer (p.packaging f) ctx as).1 = [] ∧
      (offer (p.packaging f) ctx as).2.recordIds = ctx.recordIds := by
  cases as with
  | nil => exact ⟨rfl, rfl⟩
  | cons a as =>
    have hfits : ¬ p.Fits ctx (f a) := by
      unfold Fits Full at *
      omega
    have hres := packaging_of_not_fits hne hfits
    rw [offer_cons_false (by rw [hres]), hres]
    exact ⟨rfl, rfl⟩

end Packager

end ClientTelemetry
