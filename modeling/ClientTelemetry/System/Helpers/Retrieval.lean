import ClientTelemetry.Offline.Reserve
/-!
# When a failed retrieval has packaged nothing

The routes close an upload as one with nothing to send when the retrieval
answers false, and ask the packager otherwise. With a RAM queue the answer
is always true. Without one it is the database's, which answers false when
nothing was taken from it: the two agree if the first record it offers
fits, and if the read does not fail behind the packager's back
(`RetrievalSafe`).
-/

namespace ClientTelemetry

open Sql StorageObserver

namespace SQLite

variable {κ : Type} {s : SQLite} {c : κ → StorageRecord → Bool × κ} {k : κ}

/-- The rows a read selects, whether or not the reservations that have run
out could be taken back. -/
def readable (s : SQLite) (minLatency : EventLatency) (maxCount now : ℕ) : List EventRow :=
  selectEvents minLatency.toInt (limit maxCount)
    (if s.executes .releaseExpired then releaseExpired now s.rows else s.rows)

/-- Unless it comes to offering rows, a read leaves the consumer alone
and answers false. -/
theorem retrieve_idle (hidle : ¬ (s.hasDb = true ∧ s.begins .retrieve = true ∧
    s.executes .selectEvents = true)) (leaseTimeMs : ℕ) (minLatency : EventLatency)
    (maxCount now : ℕ) : (s.retrieve c k leaseTimeMs minLatency maxCount now).2.1 = k := by
  unfold retrieve
  by_cases hdb : s.hasDb = true
  · by_cases hbegins : s.begins .retrieve = true
    · have hselect : ¬ s.executes .selectEvents = true := fun h => hidle ⟨hdb, hbegins, h⟩
      simp [hdb, hbegins, hselect]
    · simp [hdb, hbegins]
  · simp [hdb]

/-- A read that offers rows. -/
theorem retrieve_reads (hdb : s.hasDb = true) (hbegins : s.begins .retrieve = true)
    (hselect : s.executes .selectEvents = true) (leaseTimeMs : ℕ) (minLatency : EventLatency)
    (maxCount now : ℕ) :
    let selected := s.readable minLatency maxCount now
    let w := offer (fun k (row : EventRow) => c k row.toRecord) k (s.delivered selected)
    let res := s.retrieve c k leaseTimeMs minLatency maxCount now
    res.2.1 = w.2 ∧
      (res.1 = true ↔
        ¬ (s.engine.breaksAfter.isSome ∧ selected ≠ [] ∧ w.1 = s.delivered selected) ∧ w.1 ≠ [] ∧
          (s.overBlocks .reserveEvents (fun ids => reserveEvents ids (now + leaseTimeMs))
            (idBlocks (w.1.map EventRow.recordId))
            (if s.executes .releaseExpired then releaseExpired now s.rows else s.rows)).1 =
              true) := by
  intro selected w res
  have hres : res = s.retrieve c k leaseTimeMs minLatency maxCount now := rfl
  unfold retrieve at hres
  simp only [hdb, hbegins, hselect, Bool.not_true, Bool.false_eq_true, if_false] at hres
  have hselected : selectEvents minLatency.toInt (limit maxCount)
      (if s.executes .releaseExpired then releaseExpired now s.rows else s.rows) = selected := rfl
  have hwalk : offer (fun k row => c k row.toRecord) k (s.delivered selected) = w := rfl
  rw [hselected, hwalk] at hres
  by_cases hbroke : s.engine.breaksAfter.isSome ∧ selected ≠ [] ∧ w.1 = s.delivered selected
  · rw [if_pos hbroke] at hres
    rw [hres]
    simp [hbroke]
  · rw [if_neg hbroke] at hres
    by_cases hnone : w.1 = []
    · rw [if_pos hnone] at hres
      rw [hres]
      simp [hnone]
    · rw [if_neg hnone] at hres
      rw [hres]
      split <;> simp_all

theorem retrieve_state {P : κ → Prop} (hc : ∀ k r, P k → P (c k r).2) (hk : P k)
    (leaseTimeMs : ℕ) (minLatency : EventLatency) (maxCount now : ℕ) :
    P (s.retrieve c k leaseTimeMs minLatency maxCount now).2.1 := by
  by_cases hreads : s.hasDb = true ∧ s.begins .retrieve = true ∧ s.executes .selectEvents = true
  · obtain ⟨hdb, hbegins, hselect⟩ := hreads
    rw [(retrieve_reads hdb hbegins hselect leaseTimeMs minLatency maxCount now).1]
    exact offer_state (fun k (row : EventRow) => hc k row.toRecord) hk _
  · rw [retrieve_idle hreads]
    exact hk

/-- The rows a packager takes of what a read delivers. -/
def taken (p : Packager) (s : SQLite) (minLatency : EventLatency) (maxCount now : ℕ) :
    List EventRow :=
  (offer (fun k (row : EventRow) => p.handleAddEventToPackage k row.toRecord)
    (requested minLatency maxCount) (s.delivered (s.readable minLatency maxCount now))).1

/-- **A read that does not fail once a record was packaged**: if it comes
to offering a row, the first one fits in a package of its own, the select
does not break before the packager stops, and the reservation of what it
took is written. -/
def RetrievalSafe (p : Packager) (s : SQLite) (minLatency : EventLatency) (maxCount now : ℕ) :
    Prop :=
  let took := s.taken p minLatency maxCount now
  s.hasDb = true → s.begins .retrieve = true → s.executes .selectEvents = true →
    ∀ row ∈ (s.readable minLatency maxCount now).head?, p.FitsAlone row.toRecord ∧
      (s.engine.breaksAfter = none ∨ took ≠ s.delivered (s.readable minLatency maxCount now)) ∧
      ∀ block ∈ idBlocks (took.map EventRow.recordId), s.executes (.reserveEvents block) = true

theorem overBlocks_fst {stmt : List StorageRecordId → Stmt}
    {effect : List (Option String) → List EventRow → List EventRow}
    {blocks : List (List StorageRecordId)}
    (hexec : ∀ block ∈ blocks, s.executes (stmt block) = true) (rows : List EventRow) :
    (s.overBlocks stmt effect blocks rows).1 = true := by
  induction blocks generalizing rows with
  | nil => rfl
  | cons block rest ih =>
    unfold overBlocks
    rw [if_pos (hexec block List.mem_cons_self)]
    exact ih (fun b hb => hexec b (List.mem_cons_of_mem _ hb)) _

/-- A select delivers its first row. -/
theorem delivered_cons (s : SQLite) (row : EventRow) (rows : List EventRow) :
    ∃ rest, s.delivered (row :: rows) = row :: rest := by
  unfold delivered
  split
  · exact ⟨rows, rfl⟩
  · exact ⟨_, List.take_succ_cons⟩

/-- A safe read that answers false has packaged nothing. -/
theorem recordIds_of_retrieve_false {p : Packager} {minLatency : EventLatency} {maxCount now : ℕ}
    (hsafe : s.RetrievalSafe p minLatency maxCount now)
    (hfalse : (s.retrieve p.handleAddEventToPackage (requested minLatency maxCount) leaseTimeMs
      minLatency maxCount now).1 = false) :
    (s.retrieve p.handleAddEventToPackage (requested minLatency maxCount) leaseTimeMs
      minLatency maxCount now).2.1.recordIds = [] := by
  by_cases hreads : s.hasDb = true ∧ s.begins .retrieve = true ∧ s.executes .selectEvents = true
  · obtain ⟨hdb, hbegins, hselect⟩ := hreads
    obtain ⟨hstate, hanswer⟩ := retrieve_reads (c := p.handleAddEventToPackage)
      (k := requested minLatency maxCount) hdb hbegins hselect leaseTimeMs minLatency maxCount now
    rw [hstate]
    cases hrows : s.readable minLatency maxCount now with
    | nil =>
      have hnone : s.delivered [] = [] := by
        unfold delivered
        split <;> rfl
      rw [hnone]
      rfl
    | cons row rows =>
      -- a first row that fits is taken, and nothing fails after that
      obtain ⟨hfits, hbreaks, hreserve⟩ := hsafe hdb hbegins hselect row (by rw [hrows]; rfl)
      have hempty : (requested minLatency maxCount).recordIds = [] := rfl
      have hne : s.taken p minLatency maxCount now ≠ [] := by
        obtain ⟨rest, hrest⟩ := s.delivered_cons row rows
        rw [taken, hrows, hrest]
        exact (Packager.offer_first_fits (p := p) (f := EventRow.toRecord) rest hempty hfits).1
      have hbroke : ¬ (s.engine.breaksAfter.isSome ∧ s.readable minLatency maxCount now ≠ [] ∧
          s.taken p minLatency maxCount now = s.delivered (s.readable minLatency maxCount now)) := by
        rintro ⟨hsome, -, hall⟩
        rcases hbreaks with hnone | hstops
        · rw [hnone] at hsome
          cases hsome
        · exact hstops hall
      have htrue := hanswer.2 ⟨hbroke, hne, overBlocks_fst hreserve _⟩
      rw [htrue] at hfalse
      cases hfalse
  · rw [retrieve_idle hreads]
    rfl

end SQLite

namespace Handler

variable {κ : Type} {h : Handler SQLite} {fresh : SQLite}

/-- What the consumer preserves holds of its state after a retrieval. -/
theorem getAndReserveRecords_state {c : κ → StorageRecord → Bool × κ} {k : κ} {P : κ → Prop}
    (hc : ∀ k r, P k → P (c k r).2) (hk : P k) (leaseTimeMs : ℕ) (minLatency : EventLatency)
    (maxCount now : ℕ) :
    P (h.getAndReserveRecords (sqliteStorage fresh) c k leaseTimeMs minLatency maxCount now).2.1 := by
  have hdisk : ∀ (h : Handler SQLite) (found : Bool) (k : κ) (maxCount : ℕ), P k →
      P (h.readDisk (sqliteStorage fresh) found c k leaseTimeMs minLatency maxCount now).2.1 := by
    intro h found k maxCount hk
    rcases hd : h.disk with _ | s
    · unfold readDisk
      rw [hd]
      exact hk
    · rw [(readDisk_answer_of_some (D := sqliteStorage fresh) hd found c k leaseTimeMs minLatency
        maxCount now).2]
      exact SQLite.retrieve_state hc hk leaseTimeMs minLatency maxCount now
  unfold getAndReserveRecords
  rcases hm : h.memory with _ | m
  · exact hdisk _ false k maxCount hk
  · obtain ⟨records', heq, -, -⟩ :=
      MemoryStorage.getAndReserveRecords_spec m c k leaseTimeMs minLatency maxCount now
    have hram : P (m.getAndReserveRecords c k leaseTimeMs minLatency maxCount now).2.1 := by
      rw [heq]
      exact offer_state (fun k r => hc k (MemoryStorage.forConsumer leaseTimeMs now r)) hk _
    dsimp only
    split_ifs
    · exact hram
    · exact hdisk _ _ _ _ hram
    · exact hdisk _ _ _ _ hram

/-- **A retrieval whose answer the packager agrees with.** -/
def RetrievalSafe (p : Packager) (h : Handler SQLite) (minLatency : EventLatency) (now : ℕ) : Prop :=
  h.memory = none → ∀ s, h.disk = some s → s.RetrievalSafe p minLatency 0 now

/-- A safe retrieval that fails has packaged nothing. -/
theorem recordIds_of_retrievalFailed (fresh : SQLite) {p : Packager} {minLatency : EventLatency}
    {now : ℕ} (hsafe : h.RetrievalSafe p minLatency now)
    (hfailed : (handleRetrieveEvents (sqliteStorage fresh) p h (requested minLatency 0) now).1 =
      .retrievalFailed) : (handleRetrieveEvents (sqliteStorage fresh) p h (requested minLatency 0)
      now).2.1.recordIds = [] := by
  have hfound : (h.getAndReserveRecords (sqliteStorage fresh) p.handleAddEventToPackage
      (requested minLatency 0) leaseTimeMs minLatency 0 now).1 = false := by
    by_contra hfound
    have htrue := eq_true_of_ne_false hfound
    have hfinished : (handleRetrieveEvents (sqliteStorage fresh) p h (requested minLatency 0)
        now).1 = .retrievalFinished := if_pos htrue
    rw [hfinished] at hfailed
    cases hfailed
  rw [recordIds_retrieved]
  rcases hm : h.memory with _ | m
  · rw [getAndReserveRecords_of_none hm] at hfound ⊢
    generalize hh : { h with lastReadCount := 0, readFromMemory := false } = h₀ at hfound ⊢
    have hd₀ : h₀.disk = h.disk := by rw [← hh]
    rcases hd : h₀.disk with _ | s
    · rw [readDisk_of_none hd]
      rfl
    · obtain ⟨hanswer, hstate⟩ := readDisk_answer_of_some (D := sqliteStorage fresh) hd false
        p.handleAddEventToPackage (requested minLatency 0) leaseTimeMs minLatency 0 now
      rw [hstate]
      rw [hanswer, Bool.false_or] at hfound
      exact SQLite.recordIds_of_retrieve_false (s := { s with lastReadCount := 0 })
        (hsafe hm s (hd₀ ▸ hd)) hfound
  · rw [getAndReserveRecords_fst_of_some hm] at hfound
    cases hfound

end Handler

end ClientTelemetry
