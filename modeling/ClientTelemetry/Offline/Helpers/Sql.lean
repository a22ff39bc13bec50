import ClientTelemetry.Offline.Model.SQLite
/-!
# Id lists round trip

A list of ids packed into one blob and taken apart by the engine is the
list again (`mem_idsTable_iff`), as long as no id holds a NUL and the
list fits the limit of the recursive query. The blocks an operation cuts
its ids into do fit (`length_le_of_mem_idBlocks`) and lose none of them
(`flatten_idBlocks`).
-/

namespace ClientTelemetry

open List

namespace Sql

variable {id : StorageRecordId} {ids : List StorageRecordId}

/-- An id without a NUL, as the id generator makes them. -/
def NulFree (id : StorageRecordId) : Prop := '\x00' ∉ id.toList

instance (id : StorageRecordId) : Decidable (NulFree id) := inferInstanceAs (Decidable (_ ∉ _))

/-- One id comes back from the front of the blob. -/
theorem tokenize_packed (h : NulFree id) (rest : List Char) :
    tokenize (id.toList ++ '\x00' :: rest) = some (id, rest) := by
  have htake : (id.toList ++ '\x00' :: rest).takeWhile (· ≠ '\x00') = id.toList := by
    rw [takeWhile_append_of_pos]
    · simp
    · intro c hc
      simpa using fun he : c = '\x00' => h (he ▸ hc)
  have hne : id.toList ++ '\x00' :: rest ≠ [] := by simp
  rw [tokenize, if_neg hne, htake]
  simp

/-- **The table `ids` is the list that was packed**, with the NULL that
ends it. -/
theorem idsRows_packageIdList (hids : ∀ id ∈ ids, NulFree id) {n : ℕ}
    (hn : ids.length < n) : idsRows n (packageIdList ids) = ids.map some ++ [none] := by
  induction ids generalizing n with
  | nil =>
    obtain ⟨n, rfl⟩ : ∃ n', n = n' + 1 := ⟨n - 1, by simp at hn; omega⟩
    rfl
  | cons id ids ih =>
    obtain ⟨n, rfl⟩ : ∃ n', n = n' + 1 := ⟨n - 1, by omega⟩
    have hpack : packageIdList (id :: ids) = id.toList ++ '\x00' :: packageIdList ids := by
      simp [packageIdList]
    rw [idsRows, hpack, tokenize_packed (hids id mem_cons_self)]
    have hrest : ids.length < n := by simp only [length_cons] at hn; omega
    simp only [ih (fun i hi => hids i (mem_cons_of_mem _ hi)) hrest, map_cons,
      cons_append]

theorem mem_idsTable_iff (hids : ∀ id ∈ ids, NulFree id) (hlen : ids.length < 10000) :
    some id ∈ idsTable (packageIdList ids) ↔ id ∈ ids := by
  rw [idsTable, idsRows_packageIdList hids hlen]
  simp

end Sql

namespace SQLite

variable {ids block : List StorageRecordId}

open Sql

/-- The blocks are the list, cut. -/
theorem flatten_idBlocks (ids : List StorageRecordId) : (idBlocks ids).flatten = ids :=
  flatten_blocksOf (by decide) le_rfl

/-- A block fits the limit of the recursive query. -/
theorem length_le_of_mem_idBlocks (h : block ∈ idBlocks ids) :
    block.length ≤ kBlockSize := length_le_of_mem_blocksOf h

theorem mem_of_mem_idBlocks (h : block ∈ idBlocks ids)
    {id : StorageRecordId} (hid : id ∈ block) : id ∈ ids := by
  rw [← flatten_idBlocks ids]
  exact mem_flatten.2 ⟨block, h, hid⟩

end SQLite

end ClientTelemetry
