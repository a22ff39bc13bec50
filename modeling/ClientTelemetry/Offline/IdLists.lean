import ClientTelemetry.Offline.Helpers.DiskCalls
/-!
# The ids a statement is given

`tokenize` keeps the offset of the next id as auxiliary data of the blob,
and the recursive query calls it once for each row it takes from its
queue, behind a first row that only starts it. Row by row this is the
table `ids` (`idsQuery_eq`). So a loop over the blocks of an id list, of
whatever length, affects the rows of the list and no others
(`id_lists_exact`).
-/

namespace ClientTelemetry

open List

namespace Sql

variable {data : List Char}

/-- `SqliteDB::sqliteFunc_tokenize`, with the offset it has kept: the
token or NULL, and the offset it keeps. -/
def tokenizeAt (data : List Char) (ofs : ℕ) : Option String × ℕ :=
  if data.length ≤ ofs then (none, ofs)
  else
    let pos := ofs + ((data.drop ofs).takeWhile (· ≠ '\x00')).length
    (some (String.ofList ((data.take pos).drop ofs)), pos + 1)

/-- The rows the recursive query takes from its queue, up to a number of
them. A row that is not NULL puts the next token in the queue. -/
def queueRows (data : List Char) : ℕ → Option String → ℕ → List (Option String)
  | 0, _, _ => []
  | _ + 1, none, _ => [none]
  | n + 1, some id, ofs =>
    some id :: queueRows data n (tokenizeAt data ofs).1 (tokenizeAt data ofs).2

/-- `SQL_SUPPLY_PACKAGED_IDS`, with its `LIMIT 10000 OFFSET 1`. The row
passed over is the 0 the query starts from. -/
def idsQuery (data : List Char) : List (Option String) :=
  (queueRows data (1 + 10000) (some "0") 0).drop 1

/-- What is behind the offset is what is left of the blob. -/
theorem drop_queueRows (n : ℕ) (id : String) (ofs : ℕ) :
    (queueRows data (1 + n) (some id) ofs).drop 1 = idsRows n (data.drop ofs) := by
  induction n generalizing id ofs with
  | zero => rfl
  | succ n ih =>
    rw [Nat.add_comm, queueRows, drop_succ_cons, drop_zero, idsRows, tokenize, tokenizeAt]
    by_cases hend : data.length ≤ ofs
    · rw [if_pos hend, if_pos (drop_eq_nil_of_le hend), queueRows]
    · have hne : data.drop ofs ≠ [] := by simpa using hend
      have htoken (n : ℕ) : (data.take (ofs + n)).drop ofs = (data.drop ofs).take n := by
        rw [drop_take, Nat.add_sub_cancel_left]
      have hprefix := prefix_iff_eq_take.1
        (List.takeWhile_prefix (l := data.drop ofs) fun c => decide (c ≠ '\x00'))
      have hrest := ih (String.ofList ((data.drop ofs).takeWhile (· ≠ '\x00')))
        (ofs + ((data.drop ofs).takeWhile (· ≠ '\x00')).length + 1)
      rw [if_neg hend, if_neg hne]
      dsimp only
      rw [htoken, ← hprefix, drop_drop, ← Nat.add_assoc, ← hrest, Nat.add_comm 1 n]
      rfl

/-- **The query gives the table of the ids.** -/
theorem idsQuery_eq (data : List Char) : idsQuery data = idsTable data :=
  drop_queueRows 10000 "0" 0

end Sql

open Sql SQLite

/-- **Id lists name exactly their ids.** The loops of an open database
over the blocks of a list of ids without NUL delete, reserve and release
the rows whose ids are in the list. -/
theorem id_lists_exact {s : SQLite} (hlive : s.Live) {ids : List StorageRecordId}
    (hids : ∀ id ∈ ids, NulFree id) (rows : List EventRow) (reservedUntil delta : ℤ) :
    (∀ data, idsQuery data = idsTable data) ∧
    s.overBlocks .deleteEvents deleteEventsIds (idBlocks ids) rows =
      (true, rows.filter fun row => row.recordId ∉ ids) ∧
    s.overBlocks .reserveEvents (fun table => reserveEvents table reservedUntil) (idBlocks ids) rows =
      (true, rows.map fun row =>
        if row.recordId ∈ ids then { row with reservedUntil := reservedUntil } else row) ∧
    s.overBlocks .releaseEvents (fun table => releaseEvents table delta) (idBlocks ids) rows =
      (true, rows.map fun row =>
        if row.recordId ∈ ids ∧ 0 < row.reservedUntil then
          { row with reservedUntil := 0, retryCount := row.retryCount + delta } else row) := by
  have hloop := fun stmt effect => overBlocks_faithful hlive.opened.2.1 hlive.faithful stmt effect
    (idBlocks ids) rows
  refine ⟨idsQuery_eq, ?_, ?_, ?_⟩
  · rw [hloop]
    exact congrArg (true, ·) (deleteBlocks_eq hids rows)
  · rw [hloop]
    exact congrArg (true, ·) (reserveBlocks_eq hids reservedUntil rows)
  · rw [hloop]
    exact congrArg (true, ·) (releaseBlocks_eq hids delta rows)

theorem id_lists_exact_two_rows :
    (SQLite.openOn Engine.sound []).overBlocks .deleteEvents deleteEventsIds (idBlocks ["a", "ab"])
      [⟨"b", "t", 1, 1, 0, 0, 0, [1]⟩, ⟨"ab", "t", 1, 1, 0, 0, 0, [1]⟩] =
        (true, [⟨"b", "t", 1, 1, 0, 0, 0, [1]⟩]) :=
  (id_lists_exact (Plain.openOn []).toLive (by decide)
    [⟨"b", "t", 1, 1, 0, 0, 0, [1]⟩, ⟨"ab", "t", 1, 1, 0, 0, 0, [1]⟩] 0 0).2.1

end ClientTelemetry
