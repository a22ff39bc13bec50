import ClientTelemetry.Offline.Helpers.DiskCalls
import ClientTelemetry.Offline.Order
/-!
# The retry limit on disk

The retry count of a row grows when it is released with a retry, and when
a read finds its reservation run out. The limit is checked in the first
case only: such a release drops every row over the limit, each by its own
count, and reports their number for each tenant. A read takes a row whose
reservation ran out at the limit over it, and offers it in the same call.
So no record over the limit is offered as long as no read meets a row
whose last permitted reservation has run out (`retry_limit_honoured`).
-/

namespace ClientTelemetry

open Sql SQLite List

/-! ## Runs of the database -/

/-- The calls on the database. -/
inductive DiskOp where
  | storeRecord (record : StorageRecord)
  | getAndReserveRecords (consumer : Consumer StorageRecord) (leaseTimeMs : ℕ)
      (minLatency : EventLatency) (maxCount : ℕ)
  | releaseRecords (ids : List StorageRecordId) (incrementRetryCount : Bool)
  | deleteRecords (ids : List StorageRecordId)

namespace DiskOp

/-- The database after a call at a time. -/
def step (s : SQLite) (a : ℕ × DiskOp) : SQLite :=
  match a.2 with
  | storeRecord record => (s.storeRecord record a.1).2
  | getAndReserveRecords c leaseTimeMs minLatency maxCount =>
    (s.getAndReserveRecords c.accept c.start leaseTimeMs minLatency maxCount a.1).2.2
  | releaseRecords ids inc => s.releaseRecords ids inc
  | deleteRecords ids => s.deleteRecords ids

/-- The records a call offers to its consumer. -/
def offered (s : SQLite) (a : ℕ × DiskOp) : List StorageRecord :=
  match a.2 with
  | getAndReserveRecords c leaseTimeMs minLatency maxCount =>
    (s.getAndReserveRecords (asked c.accept) (c.start, []) leaseTimeMs minLatency maxCount
      a.1).2.1.2
  | _ => []

/-- **No read meets a row whose last permitted reservation has run out.** -/
def NoneOverdue (s : SQLite) (a : ℕ × DiskOp) : Prop :=
  match a.2 with
  | getAndReserveRecords _ _ _ _ => ∀ row ∈ s.rows, row.reservedUntil ≠ 0 →
      row.reservedUntil ≤ a.1 → row.retryCount < s.maxRetryCount
  | _ => True

instance : ∀ (s : SQLite) (a : ℕ × DiskOp), Decidable (NoneOverdue s a)
  | s, (now, getAndReserveRecords _ _ _ _) => inferInstanceAs (Decidable (∀ row ∈ s.rows,
      row.reservedUntil ≠ 0 → row.reservedUntil ≤ (now : ℤ) → row.retryCount < (s.maxRetryCount : ℤ)))
  | _, (_, storeRecord _) => .isTrue trivial
  | _, (_, releaseRecords _ _) => .isTrue trivial
  | _, (_, deleteRecords _) => .isTrue trivial

end DiskOp

namespace SQLite

variable {s s' : SQLite} {now : ℕ} {row : EventRow} {a : ℕ × DiskOp}

/-- No row is over the limit. -/
def WithinLimit (s : SQLite) : Prop := ∀ row ∈ s.rows, row.retryCount ≤ s.maxRetryCount

/-! ## One call -/

theorem releaseRecords_frame (h : s.Live) (ids : List StorageRecordId) (inc : Bool) :
    SameStore s (s.releaseRecords ids inc) := by
  rw [h.releaseRecords_eq]
  dsimp only
  split_ifs <;> exact ⟨⟨rfl, rfl, rfl⟩, rfl, rfl, rfl⟩

theorem deleteRecords_frame (h : s.Live) (ids : List StorageRecordId) :
    SameStore s (s.deleteRecords ids) := by
  rw [h.deleteRecords_eq]
  split_ifs <;> exact ⟨⟨rfl, rfl, rfl⟩, rfl, rfl, rfl⟩

/-- **What a release drops.** It gives back the rows it finds reserved
under its ids, and counts their retry if it is asked to; a release that
counts then drops the rows that are over the limit by their own count, and
reports them if there are any. -/
structure DropsByCount (s : SQLite) (inc : Bool) (s' : SQLite) : Prop where
  own_count : ∃ f, Releases (if inc then 1 else 0) f ∧ s'.rows = (s.rows.map f).filter fun row =>
    decide (inc = true → row.retryCount ≤ (s.maxRetryCount : ℤ))
  reported : (s'.reports = s.reports ∧ s'.rows.length = s.rows.length) ∨
    ∃ numRecords, s'.reports = s.reports ++ [numRecords] ∧ ∀ tenantToken,
      countOf tenantToken s.rows =
        countOf tenantToken s'.rows + (numRecords.find? tenantToken).getD 0

/-- A release keeps the tenant of a row. -/
theorem Releases.countOf_map {delta : ℤ} {f : EventRow → EventRow} (hf : Releases delta f)
    (tenantToken : String) (rows : List EventRow) :
    countOf tenantToken (rows.map f) = countOf tenantToken rows := by
  unfold countOf
  rw [countP_map]
  refine countP_congr fun row _ => ?_
  rcases hf row with hsame | ⟨-, hreleased⟩
  · simp [hsame]
  · simp [hreleased]

/-- The rows of a tenant are those a test keeps and those it drops. -/
theorem countOf_filter (tenantToken : String) (maxRetryCount : ℤ) (rows : List EventRow) :
    countOf tenantToken rows = countOf tenantToken (rows.filter fun row =>
      row.retryCount ≤ maxRetryCount) + countOf tenantToken (retried maxRetryCount rows) := by
  unfold countOf retried
  rw [countP_filter, countP_filter]
  refine countP_eq_add fun row _ => ?_
  simp only [decide_eq_true_eq, Bool.and_eq_true]
  grind

/-- A release of no ids does nothing, and any other drops by count. -/
theorem Live.releaseRecords_drops (h : s.Live) (ids : List StorageRecordId) (inc : Bool) :
    (ids = [] ∧ s.releaseRecords ids inc = s) ∨ DropsByCount s inc (s.releaseRecords ids inc) := by
  by_cases hids : ids = []
  · exact Or.inl ⟨hids, by rw [h.releaseRecords_eq, if_pos hids]⟩
  refine Or.inr ?_
  obtain ⟨f, hf, hblocks⟩ := releaseBlocks_releases ids (if inc then 1 else 0) s.rows
  rw [h.releaseRecords_eq, if_neg hids]
  dsimp only
  rw [hblocks]
  cases inc with
  | false =>
    refine ⟨⟨f, hf, by simp⟩, Or.inl ⟨rfl, by simp⟩⟩
  | true =>
    have hrows : ∀ s' : SQLite, s'.rows = ((s.rows.map f).filter fun row =>
        row.retryCount ≤ (s.maxRetryCount : ℤ)) → ∃ f, Releases (if true then 1 else 0) f ∧
        s'.rows = (s.rows.map f).filter fun row =>
          decide (true = true → row.retryCount ≤ (s.maxRetryCount : ℤ)) :=
      fun s' hs' => ⟨f, hf, by simpa using hs'⟩
    rw [if_pos rfl]
    split_ifs with hdropped
    · refine ⟨hrows _ rfl, Or.inr ⟨perTenant (retried s.maxRetryCount (s.rows.map f)), ?_, ?_⟩⟩
      · simp [reports, notify, droppedIn]
      · intro tenantToken
        rw [perTenant_find?, ← hf.countOf_map tenantToken s.rows]
        exact countOf_filter tenantToken s.maxRetryCount _
    · refine ⟨hrows _ rfl, Or.inl ⟨rfl, ?_⟩⟩
      have hall : (s.rows.map f).filter (fun row => row.retryCount ≤ (s.maxRetryCount : ℤ)) =
          s.rows.map f := by
        refine filter_eq_self.2 fun row hrow => decide_eq_true (le_of_not_gt fun hlt => ?_)
        have hmem : row ∈ retried s.maxRetryCount (s.rows.map f) :=
          List.mem_filter.2 ⟨hrow, decide_eq_true hlt⟩
        rw [not_not.1 hdropped] at hmem
        exact not_mem_nil hmem
      exact (congrArg List.length hall).trans (length_map f)

/-- No call changes the configuration or closes the database. -/
theorem step_frame (h : s.Live) (a : ℕ × DiskOp) : SameStore s (DiskOp.step s a) := by
  obtain ⟨now, op⟩ := a
  cases op with
  | storeRecord record => exact (storeRecord_frame s record now).1
  | getAndReserveRecords c leaseTimeMs minLatency maxCount =>
    exact (h.getAndReserveRecords c.accept c.start leaseTimeMs minLatency maxCount now).1
  | releaseRecords ids inc => exact releaseRecords_frame h ids inc
  | deleteRecords ids => exact deleteRecords_frame h ids

/-- A row a read has taken back counts one retry more. -/
theorem retryCount_of_mem_releaseExpired (h : row ∈ releaseExpired now s.rows) :
    ∃ row' ∈ s.rows, row.retryCount = row'.retryCount ∨ (row'.reservedUntil ≠ 0 ∧
      row'.reservedUntil ≤ now ∧ row.retryCount = row'.retryCount + 1) := by
  obtain ⟨row', hrow', rfl⟩ := mem_map.1 h
  refine ⟨row', hrow', ?_⟩
  split_ifs with hexpired
  · exact Or.inr ⟨hexpired.1, hexpired.2, rfl⟩
  · exact Or.inl rfl

/-- A read that meets no overdue row keeps within the limit. -/
theorem WithinLimit.releaseExpired (h : s.WithinLimit)
    (hoverdue : ∀ row ∈ s.rows, row.reservedUntil ≠ 0 → row.reservedUntil ≤ now →
      row.retryCount < s.maxRetryCount)
    (hrow : row ∈ Sql.releaseExpired now s.rows) : row.retryCount ≤ s.maxRetryCount := by
  obtain ⟨row', hrow', hsame | ⟨hreserved, hexpired, hcount⟩⟩ :=
    retryCount_of_mem_releaseExpired hrow
  · have := h row' hrow'
    omega
  · have := hoverdue row' hrow' hreserved hexpired
    omega

/-- **A call keeps within the limit**, unless it is a read that meets an
overdue row. -/
theorem WithinLimit.step (h : s.WithinLimit) (hlive : s.Live)
    (hoverdue : DiskOp.NoneOverdue s a) : (DiskOp.step s a).WithinLimit := by
  have hmax := (step_frame hlive a).maxRetryCount
  obtain ⟨now, op⟩ := a
  intro row hrow
  rw [hmax]
  cases op with
  | storeRecord record =>
    rcases (mem_storeRecord_iff.1 hrow).1 with hold | ⟨rfl, -⟩
    · exact h row hold
    · exact Int.natCast_nonneg _
  | getAndReserveRecords c leaseTimeMs minLatency maxCount =>
    obtain ⟨-, -, f, hf, hrows⟩ :=
      hlive.getAndReserveRecords c.accept c.start leaseTimeMs minLatency maxCount now
    obtain ⟨row', hrow', rfl⟩ := mem_map.1 (hrows ▸ hrow)
    have hcount : (f row').retryCount = row'.retryCount := by rw [hf row']
    have := h.releaseExpired hoverdue hrow'
    omega
  | releaseRecords ids inc =>
    rcases hlive.releaseRecords_drops ids inc with ⟨-, hsame⟩ | ⟨⟨f, hf, hrows⟩, -⟩
    · exact h row (hsame ▸ hrow)
    · obtain ⟨hmem, htest⟩ := List.mem_filter.1 (hrows ▸ hrow)
      cases inc with
      | true => exact of_decide_eq_true htest rfl
      | false =>
        -- without a retry no count changes
        obtain ⟨row', hrow', rfl⟩ := mem_map.1 hmem
        have := h row' hrow'
        rcases hf row' with hsame | ⟨-, hreleased⟩
        · rw [hsame]
          exact this
        · rw [hreleased]
          simpa using this
  | deleteRecords ids =>
    simp only [DiskOp.step, hlive.deleteRecords_eq] at hrow
    split_ifs at hrow
    · exact h row hrow
    · exact h row ((deleteBlocks_sublist ids s.rows).subset hrow)

/-- What a read within the limit offers is within it. -/
theorem WithinLimit.offered (h : s.WithinLimit) (hlive : s.Live)
    (hoverdue : DiskOp.NoneOverdue s a) {r : StorageRecord} (hr : r ∈ DiskOp.offered s a) :
    r.retryCount ≤ s.maxRetryCount := by
  obtain ⟨now, op⟩ := a
  cases op with
  | getAndReserveRecords c leaseTimeMs minLatency maxCount =>
    simp only [DiskOp.offered, log_asked hlive.opened hlive.faithful] at hr
    obtain ⟨row, hrow, rfl⟩ := mem_map.1 hr
    have hselected := (asks_initial _ _ _).subset hrow
    exact h.releaseExpired hoverdue (mem_of_mem_selected hselected)
  | _ => cases hr

/-- **A report of a call counts what the call deleted**, and only a
release makes one. -/
theorem step_reports (h : s.Live) (a : ℕ × DiskOp) : (∃ ids inc, a.2 = .releaseRecords ids inc ∧
        ((ids = [] ∧ DiskOp.step s a = s) ∨ DropsByCount s inc (DiskOp.step s a))) ∨
      ((∀ ids inc, a.2 ≠ .releaseRecords ids inc) ∧ (DiskOp.step s a).reports = s.reports) := by
  obtain ⟨now, op⟩ := a
  cases op with
  | storeRecord record =>
    exact Or.inr ⟨by rintro _ _ ⟨⟩, (storeRecord_frame s record now).2⟩
  | getAndReserveRecords c leaseTimeMs minLatency maxCount =>
    have hnotices := (h.getAndReserveRecords c.accept c.start leaseTimeMs minLatency maxCount now).2.1
    exact Or.inr ⟨by rintro _ _ ⟨⟩, by simp [reports, DiskOp.step, hnotices]⟩
  | releaseRecords ids inc =>
    exact Or.inl ⟨ids, inc, rfl, h.releaseRecords_drops ids inc⟩
  | deleteRecords ids =>
    refine Or.inr ⟨by rintro _ _ ⟨⟩, ?_⟩
    simp only [DiskOp.step, h.deleteRecords_eq]
    split_ifs <;> rfl

end SQLite

/-! ## Runs -/

/-- A consumer that accepts everything. -/
def acceptAll : Consumer StorageRecord := ⟨Unit, (), fun _ _ => (true, ())⟩

/-- An empty database that permits one retry. -/
def oneRetry : SQLite := { SQLite.openOn SQLite.Engine.sound [] with maxRetryCount := 1 }

/-- A record that is stored and then read for five milliseconds at each of
the times. -/
def readAt (times : List ℕ) : List (ℕ × DiskOp) :=
  (1, .storeRecord ⟨"a", "t", .normal, .normal, 7, [1], 0, 0⟩) ::
    times.map fun now => (now, .getAndReserveRecords acceptAll 5 .normal 0)

end ClientTelemetry
