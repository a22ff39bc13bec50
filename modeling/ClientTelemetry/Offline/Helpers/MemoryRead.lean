import ClientTelemetry.Common.Queues
import ClientTelemetry.Offline.Model.MemoryStorage
/-!
# Reading from the RAM queue

The two reading loops of `MemoryStorage::GetAndReserveRecords` as one
walk: the consumer is offered the backs of the queues, from the highest
latency down and no more than the count asked for, and what it takes
leaves the queues (`getAndReserveRecords_spec`). The other components
read the RAM store through that statement and never through the loops.
-/

namespace ClientTelemetry

open List

namespace MemoryStorage

variable {κ : Type} {c : κ → StorageRecord → Bool × κ} {leaseTimeMs now : ℕ} {ls : List (Fin 5)}
  {m : MemoryStorage} {r : StorageRecord} {minLatency : EventLatency} {maxCount : ℕ}

/-- The consumer as the loops call it, on the copies they make. -/
def onCopies (c : κ → StorageRecord → Bool × κ) (leaseTimeMs now : ℕ) :
    κ → StorageRecord → Bool × κ := fun k r => c k (forConsumer leaseTimeMs now r)

/-- Without a lease the copies are the records. -/
theorem onCopies_zero (c : κ → StorageRecord → Bool × κ) (now : ℕ) : onCopies c 0 now = c := rfl

/-- What the records of a list do to the loop variables, one after the
other. -/
def Reading.takeAll (leaseTimeMs : ℕ) (st : Reading κ) (k : κ) (taken : List StorageRecord) :
    Reading κ where
  consumer := k
  reserved := if leaseTimeMs ≠ 0 then st.reserved.insertAll StorageRecord.id taken else st.reserved
  size := drain StorageRecord.queueSize st.size taken
  maxCount := st.maxCount - taken.length
  lastReadCount := st.lastReadCount + taken.length

@[simp] theorem Reading.takeAll_nil (st : Reading κ) (k : κ) :
    st.takeAll leaseTimeMs k [] = { st with consumer := k } := by
  simp [Reading.takeAll]

theorem Reading.takeAll_cons (st : Reading κ) (k k' : κ) (r : StorageRecord)
    (taken : List StorageRecord) :
    (st.take leaseTimeMs k' r).takeAll leaseTimeMs k taken = st.takeAll leaseTimeMs k (r :: taken) := by
  unfold Reading.takeAll Reading.take
  simp only [drain_cons, length_cons, OrdMap.insertAll_cons, Reading.mk.injEq, true_and]
  refine ⟨?_, by omega, by omega⟩
  split_ifs <;> rfl

theorem Reading.takeAll_append (st : Reading κ) (k k' : κ) (taken taken' : List StorageRecord) :
    (st.takeAll leaseTimeMs k' taken).takeAll leaseTimeMs k taken' =
      st.takeAll leaseTimeMs k (taken ++ taken') := by
  unfold Reading.takeAll
  simp only [drain_append, length_append, OrdMap.insertAll_append, Reading.mk.injEq, true_and]
  refine ⟨?_, by omega, by omega⟩
  split_ifs <;> rfl

/-- **The inner loop is a walk over one queue.** The outer loop goes on
exactly when the walk took all it was offered. -/
theorem readQueue_eq (q : List StorageRecord) (st : Reading κ) : readQueue c leaseTimeMs now q st =
      let w := offer (onCopies c leaseTimeMs now) st.consumer (q.take st.maxCount)
      (decide (w.1 = q.take st.maxCount), q.drop w.1.length, st.takeAll leaseTimeMs w.2 w.1) := by
  induction q generalizing st with
  | nil => simp [readQueue]
  | cons r rest ih =>
    rw [readQueue]
    rcases Nat.eq_zero_or_pos st.maxCount with h0 | hpos
    · rw [if_pos h0, h0, take_zero, offer_nil]
      simp
    · obtain ⟨n, hn⟩ : ∃ n, st.maxCount = n + 1 := ⟨st.maxCount - 1, by omega⟩
      rw [if_neg (by omega), hn, take_succ_cons]
      rcases hc : c st.consumer (forConsumer leaseTimeMs now r) with ⟨_ | _, k⟩
      · have hoff : (onCopies c leaseTimeMs now st.consumer r).1 = false := by
          rw [onCopies, hc]
        simp [offer_cons_false hoff, onCopies, hc, hn]
      · have hoff : (onCopies c leaseTimeMs now st.consumer r).1 = true := by
          rw [onCopies, hc]
        have hk : (onCopies c leaseTimeMs now st.consumer r).2 = k := by rw [onCopies, hc]
        have hmax : (st.take leaseTimeMs k r).maxCount = n := by
          show st.maxCount - 1 = n
          omega
        simp only [offer_cons_true hoff, hk, ih, hmax, Reading.takeAll_cons,
          length_cons, drop_succ_cons, List.cons.injEq, true_and]
        rfl

/-- **What a read leaves of the queues**, when it took the given records
from the queues named. -/
structure ReadsTo (ls : List (Fin 5)) (records : Fin 5 → List StorageRecord)
    (taken : List StorageRecord) (records' : Fin 5 → List StorageRecord) : Prop where
  /-- A queue is cut at its back. -/
  initial : ∀ l, records' l <+: records l
  /-- What is missing from the queues is what was taken. -/
  perm : ∀ all : List (Fin 5), all.Nodup → ls ⊆ all →
    (all.flatMap records).Perm (taken ++ all.flatMap records')

theorem ReadsTo.refl (ls : List (Fin 5)) (records : Fin 5 → List StorageRecord) :
    ReadsTo ls records [] records :=
  ⟨fun _ => prefix_refl _, fun _ _ _ => by simp⟩

/-- Cutting one queue at its back, and reading on. -/
theorem ReadsTo.cons {l : Fin 5} {records records' : Fin 5 → List StorageRecord}
    {n : ℕ} {taken' : List StorageRecord}
    (h : ReadsTo ls (Function.update records l ((records l).reverse.drop n).reverse) taken' records') :
    ReadsTo (l :: ls) records ((records l).reverse.take n ++ taken') records' := by
  set cut := Function.update records l ((records l).reverse.drop n).reverse with hcut
  have hself : cut l = ((records l).reverse.drop n).reverse := Function.update_self ..
  have hoff : ∀ i, i ≠ l → records i = cut i := fun i hi => (Function.update_of_ne hi ..).symm
  refine ⟨fun i => (h.initial i).trans ?_, fun all hall hsub => ?_⟩
  · rcases eq_or_ne i l with rfl | hi
    · rw [hself, ← reverse_suffix, reverse_reverse]
      exact drop_suffix _ _
    · rw [hoff i hi]
  · have hl : l ∈ all := hsub mem_cons_self
    have hone : (records l).Perm ((records l).reverse.take n ++ cut l) := by
      rw [hself]
      refine (reverse_perm _).symm.trans ?_
      nth_rewrite 1 [← take_append_drop n (records l).reverse]
      exact (reverse_perm _).symm.append_left _
    have hrest := h.perm all hall fun i hi => hsub (mem_cons_of_mem _ hi)
    rw [append_assoc]
    exact (flatMap_perm_of_eq_off hall hl hoff hone).trans (hrest.append_left _)

/-- The records a read offers, in the order it offers them. -/
def backs (records : Fin 5 → List StorageRecord) (ls : List (Fin 5)) : List StorageRecord :=
  ls.flatMap fun l => (records l).reverse

/-- **The outer loop is a walk over the queues**, one behind the other. -/
theorem readLatencies_spec (c : κ → StorageRecord → Bool × κ) (leaseTimeMs now : ℕ)
    (hls : ls.Nodup) (records : Fin 5 → List StorageRecord) (st : Reading κ) :
    let w := offer (onCopies c leaseTimeMs now) st.consumer ((backs records ls).take st.maxCount)
    ∃ records', readLatencies c leaseTimeMs now ls records st =
      (records', st.takeAll leaseTimeMs w.2 w.1) ∧ ReadsTo ls records w.1 records' := by
  induction ls generalizing records st with
  | nil => exact ⟨records, by simp [readLatencies, backs], by simpa [backs] using ReadsTo.refl _ _⟩
  | cons l ls ih =>
    rw [nodup_cons] at hls
    rw [readLatencies]
    rcases Nat.eq_zero_or_pos st.maxCount with h0 | hpos
    · rw [if_pos h0, h0, take_zero, offer_nil]
      exact ⟨records, by simp, ReadsTo.refl _ _⟩
    · rw [if_neg (by omega)]
      -- the walk over this queue, and the queues behind it
      have hbacks : backs records (l :: ls) = (records l).reverse ++ backs records ls := rfl
      rw [hbacks, take_append]
      set q := (records l).reverse with hq
      set w := offer (onCopies c leaseTimeMs now) st.consumer (q.take st.maxCount) with hw
      have htaken : w.1 = q.take w.1.length := by
        have := (offer_initial (onCopies c leaseTimeMs now) st.consumer (q.take st.maxCount)).trans
          (List.take_prefix _ _)
        exact prefix_iff_eq_take.1 this
      have hcut : ∀ taken' records', ReadsTo ls (Function.update records l (q.drop w.1.length).reverse)
          taken' records' → ReadsTo (l :: ls) records (w.1 ++ taken') records' := by
        intro taken' records' h
        have := ReadsTo.cons h
        rwa [← hq, ← htaken] at this
      simp only [readQueue_eq, ← hw]
      by_cases hwhole : w.1 = q.take st.maxCount
      · rw [if_pos (decide_eq_true hwhole), offer_append_of_whole hwhole, ← hw, ← hwhole]
        obtain ⟨records', heq, hread⟩ := ih hls.2
          (Function.update records l (q.drop w.1.length).reverse)
          (st.takeAll leaseTimeMs w.2 w.1)
        have hlen : st.maxCount - w.1.length = st.maxCount - q.length := by
          rw [hwhole, length_take]
          omega
        have hother : backs (Function.update records l (q.drop w.1.length).reverse) ls =
            backs records ls :=
          flatMap_congr fun i hi => by
            rw [Function.update_of_ne (ne_of_mem_of_not_mem hi hls.1)]
        have hmax : (st.takeAll leaseTimeMs w.2 w.1).maxCount = st.maxCount - q.length := hlen
        rw [hmax, hother] at heq hread
        refine ⟨records', ?_, hcut _ _ hread⟩
        rw [heq, Reading.takeAll_append]
        rfl
      · rw [if_neg (by simpa using hwhole), offer_append_of_not_whole hwhole, ← hw]
        refine ⟨_, rfl, ?_⟩
        simpa using hcut [] _ (ReadsTo.refl _ _)

/-! ## The read as a whole -/

/-- The names of all queues. -/
def names : List (Fin 5) := [0, 1, 2, 3, 4]

theorem mem_names (l : Fin 5) : l ∈ names := by
  revert l; decide

theorem names_nodup : names.Nodup := by decide

/-- The records in the queues. -/
def queued (m : MemoryStorage) : List StorageRecord := names.flatMap m.records

theorem mem_queued :
    r ∈ m.queued ↔ ∃ l, r ∈ m.records l := by
  simp [queued, mem_names]

/-- What a read offers its consumer. -/
def offered (m : MemoryStorage) (minLatency : EventLatency) (maxCount : ℕ) : List StorageRecord :=
  (backs m.records (latenciesFrom minLatency)).take (countBound maxCount)

/-- The walk of a read: the records it took, and the consumer's state
when it ended. -/
def walk (m : MemoryStorage) (c : κ → StorageRecord → Bool × κ) (k : κ) (leaseTimeMs : ℕ)
    (minLatency : EventLatency) (maxCount now : ℕ) : List StorageRecord × κ :=
  offer (onCopies c leaseTimeMs now) k (m.offered minLatency maxCount)

theorem latenciesFrom_nodup (minLatency : EventLatency) : (latenciesFrom minLatency).Nodup :=
  List.Nodup.filter _ (by decide)

theorem mem_queued_of_mem_offered
    (h : r ∈ m.offered minLatency maxCount) : r ∈ m.queued := by
  obtain ⟨l, -, hl⟩ := mem_flatMap.1 (mem_of_mem_take h)
  exact mem_queued.2 ⟨l, mem_reverse.1 hl⟩

theorem mem_queued_of_mem_walk {k : κ}
        (h : r ∈ (m.walk c k leaseTimeMs minLatency maxCount now).1) : r ∈ m.queued :=
  mem_queued_of_mem_offered (offer_subset h)

/-- **What a read does.** The consumer walks over what is offered; the
records it took leave the queues, and are the reserved map's under a
lease. -/
theorem getAndReserveRecords_spec (m : MemoryStorage) (c : κ → StorageRecord → Bool × κ) (k : κ)
    (leaseTimeMs : ℕ) (minLatency : EventLatency) (maxCount now : ℕ) :
    let w := m.walk c k leaseTimeMs minLatency maxCount now
    ∃ records', m.getAndReserveRecords c k leaseTimeMs minLatency maxCount now =
      (true, w.2,
        { records := records'
          reservedRecords := if leaseTimeMs ≠ 0
            then m.reservedRecords.insertAll StorageRecord.id w.1 else m.reservedRecords
          size := drain StorageRecord.queueSize m.size w.1
          lastReadCount := w.1.length }) ∧
      (∀ l, records' l <+: m.records l) ∧ m.queued.Perm (w.1 ++ names.flatMap records') := by
  obtain ⟨records', heq, hread⟩ := readLatencies_spec c leaseTimeMs now
    (latenciesFrom_nodup minLatency) m.records
    { consumer := k, reserved := m.reservedRecords, size := m.size,
      maxCount := countBound maxCount, lastReadCount := 0 }
  refine ⟨records', ?_, hread.initial, hread.perm names names_nodup fun l _ => mem_names l⟩
  rw [getAndReserveRecords, heq]
  simp [Reading.takeAll, walk, offered]

/-- The consumer of `GetRecords` takes all it is offered, whatever the
records are made from. -/
theorem offer_collect_map {α : Type*} (f : α → StorageRecord) (records : List StorageRecord)
    (rows : List α) :
    offer (fun k row => collect k (f row)) records rows = (rows, records ++ rows.map f) := by
  induction rows generalizing records with
  | nil => simp
  | cons row rows ih =>
    rw [offer_cons_true (c := fun k row => collect k (f row)) rfl]
    have hrest := ih (records ++ [f row])
    simp only [collect] at hrest ⊢
    rw [hrest, append_assoc]
    rfl

theorem offer_collect (records rs : List StorageRecord) :
    offer collect records rs = (rs, records ++ rs) := by
  have h := offer_collect_map id records rs
  rwa [map_id] at h

theorem walk_collect (m : MemoryStorage) (minLatency : EventLatency) (maxCount now : ℕ) :
    m.walk collect [] 0 minLatency maxCount now =
      (m.offered minLatency maxCount, m.offered minLatency maxCount) := by
  rw [walk, onCopies_zero, offer_collect, nil_append]

/-- `GetRecords` returns what a read is offered. -/
theorem getRecords_fst (m : MemoryStorage) (minLatency : EventLatency) (maxCount : ℕ) :
    (m.getRecords minLatency maxCount).1 = m.offered minLatency maxCount := by
  obtain ⟨records', heq, -⟩ := getAndReserveRecords_spec m collect [] 0 minLatency maxCount 0
  rw [getRecords, heq, walk_collect]

end MemoryStorage

end ClientTelemetry
