import ClientTelemetry.Offline.Model.Room
/-!
# The Room table under a read

Blocks of ids do what the whole list would do (`setReserved_eq`). What a
table offers is the order of its unreserved rows (`ordered`); reserving
the first of them leaves the rest (`ordered_setReserved_take`), so that
the chunks of a read follow one another in one list.
-/

namespace ClientTelemetry

open List

namespace RoomTable

variable {t : RoomTable} {ids as bs : List ℤ} {v now minLatency : ℤ}

instance : IsTrans RoomRecord Before where
  trans a b c hab hbc := by
    unfold Before at *
    omega

instance : Std.Total Before where
  total a b := by
    unfold Before
    omega

/-! ## Reservations -/

@[simp] theorem rows_setReservedBlock : (t.setReservedBlock ids v).rows =
    t.rows.map fun row => if row.id ∈ ids then { row with reservedUntil := v } else row := rfl

@[simp] theorem setReservedBlock_nil : t.setReservedBlock [] v = t := by
  ext1
  simp

theorem setReservedBlock_append :
    (t.setReservedBlock as v).setReservedBlock bs v = t.setReservedBlock (as ++ bs) v := by
  ext1
  simp only [rows_setReservedBlock, map_map]
  refine map_congr_left fun row _ => ?_
  simp only [Function.comp_apply, mem_append]
  by_cases ha : row.id ∈ as <;> by_cases hb : row.id ∈ bs <;> simp [ha, hb]

/-- **The blocks reserve the whole list.** -/
theorem setReserved_eq : t.setReserved ids v = t.setReservedBlock ids v :=
  foldl_blocksOf (fun _ => setReservedBlock_nil) (fun _ _ _ => setReservedBlock_append) (by decide) ids t

/-- A row is the only one with its id. -/
theorem eq_of_id_eq {a b : RoomRecord} (ha : a ∈ t.rows) (hb : b ∈ t.rows) (hid : a.id = b.id) :
    a = b := inj_on_of_nodup_map t.unique ha hb hid

/-! ## Reservations that have run out -/

/-- No reservation has run out. -/
def Clean (t : RoomTable) (now : ℤ) : Prop :=
  ∀ row ∈ t.rows, ¬ (0 < row.reservedUntil ∧ row.reservedUntil < now)

theorem releaseExpired_of_clean (h : t.Clean now) : t.releaseExpired now = t := by
  ext1
  show t.rows.map _ = t.rows
  conv_rhs => rw [← map_id t.rows]
  refine map_congr_left fun row hrow => ?_
  rw [if_neg (h row hrow), id]

theorem clean_releaseExpired : (t.releaseExpired now).Clean now := by
  intro row hrow
  obtain ⟨row₀, -, rfl⟩ := mem_map.1 hrow
  split_ifs with hexp
  · simp
  · exact hexp

theorem Clean.setReservedBlock (h : t.Clean now) (hv : now ≤ v) :
    (t.setReservedBlock ids v).Clean now := by
  intro row hrow
  obtain ⟨row₀, hrow₀, rfl⟩ := mem_map.1 hrow
  split_ifs
  · dsimp only
    omega
  · exact h row₀ hrow₀

/-! ## What a table offers -/

/-- The unreserved rows, in order. -/
def ordered (t : RoomTable) (minLatency : ℤ) : List RoomRecord :=
  (t.rows.filter fun row => minLatency ≤ row.latency ∧ row.reservedUntil = 0).insertionSort Before

theorem mem_ordered {row : RoomRecord} : row ∈ t.ordered minLatency ↔
    row ∈ t.rows ∧ minLatency ≤ row.latency ∧ row.reservedUntil = 0 := by
  unfold ordered
  rw [mem_insertionSort, List.mem_filter, decide_eq_true_eq]

theorem ordered_nodup : ((t.ordered minLatency).map RoomRecord.id).Nodup := by
  have hperm : (t.ordered minLatency).Perm _ := perm_insertionSort Before _
  rw [(hperm.map RoomRecord.id).nodup_iff]
  exact t.unique.sublist (filter_sublist.map _)

theorem length_ordered_le : (t.ordered minLatency).length ≤ t.rows.length := by
  unfold ordered
  rw [length_insertionSort]
  exact length_filter_le _ _

/-- Reserved rows are no longer offered. -/
theorem ordered_setReservedBlock (hv : v ≠ 0) : (t.setReservedBlock ids v).ordered minLatency =
      (t.ordered minLatency).filter fun row => row.id ∉ ids := by
  have hfilter : ∀ rows : List RoomRecord,
      ((rows.map fun row => if row.id ∈ ids then { row with reservedUntil := v } else row).filter
        fun row => minLatency ≤ row.latency ∧ row.reservedUntil = 0) =
        (rows.filter fun row => minLatency ≤ row.latency ∧ row.reservedUntil = 0).filter
          fun row => row.id ∉ ids := by
    intro rows
    induction rows with
    | nil => rfl
    | cons row rows ih =>
      rw [map_cons, filter_cons, filter_cons, ih]
      by_cases hmem : row.id ∈ ids
      · by_cases hsel : minLatency ≤ row.latency ∧ row.reservedUntil = 0 <;>
          simp [hmem, hv, hsel]
      · by_cases hsel : minLatency ≤ row.latency ∧ row.reservedUntil = 0 <;>
          simp [hmem, hsel]
  unfold ordered
  rw [rows_setReservedBlock, hfilter, filter_insertionSort]

/-- **After a chunk is reserved the rest is offered.** -/
theorem ordered_setReserved_take (hv : v ≠ 0) (n : ℕ) :
    (t.setReservedBlock (((t.ordered minLatency).take n).map RoomRecord.id) v).ordered minLatency =
      (t.ordered minLatency).drop n := by
  rw [ordered_setReservedBlock hv]
  exact filter_not_mem_take ordered_nodup n

/-- A chunk reserved, of which a first part is given back, is its second
part reserved. -/
theorem setReservedBlock_giveBack {first second : List RoomRecord}
    (hnodup : ((first ++ second).map RoomRecord.id).Nodup)
    (hunreserved : ∀ row ∈ first, row ∈ t.rows ∧ row.reservedUntil = 0) :
    (t.setReservedBlock ((first ++ second).map RoomRecord.id) v).setReservedBlock
        (first.map RoomRecord.id) 0 =
      t.setReservedBlock (second.map RoomRecord.id) v := by
  rw [map_append, nodup_append] at hnodup
  obtain ⟨-, -, hdisj⟩ := hnodup
  ext1
  simp only [rows_setReservedBlock, map_map]
  refine map_congr_left fun row hrow => ?_
  simp only [Function.comp_apply, map_append, mem_append]
  by_cases hfirst : row.id ∈ first.map RoomRecord.id
  · -- it was unreserved before the chunk was
    obtain ⟨x, hx, hxid⟩ := mem_map.1 hfirst
    obtain ⟨hxrow, hzero⟩ := hunreserved x hx
    obtain rfl := eq_of_id_eq hxrow hrow hxid
    have hsecond : x.id ∉ second.map RoomRecord.id := fun hs => hdisj _ hfirst _ hs rfl
    rw [if_pos (Or.inl hfirst), if_pos hfirst, if_neg hsecond]
    obtain ⟨_, _, _, _, _, _, _, _⟩ := x
    simp_all
  · by_cases hsecond : row.id ∈ second.map RoomRecord.id
    · rw [if_pos (Or.inr hsecond), if_neg hfirst, if_pos hsecond]
    · rw [if_neg (not_or.2 ⟨hfirst, hsecond⟩), if_neg hfirst, if_neg hsecond]

/-- A chunk selected and reserved. -/
theorem getAndReserve_eq (h : t.Clean now) (limit : ℕ) : t.getAndReserve minLatency limit now v =
      ((t.ordered minLatency).take limit,
        t.setReservedBlock (((t.ordered minLatency).take limit).map RoomRecord.id) v) := by
  have hselected : t.getUnreservedRecords minLatency limit = (t.ordered minLatency).take limit := rfl
  unfold getAndReserve
  rw [releaseExpired_of_clean h]
  dsimp only
  rw [hselected]
  split_ifs with hnone
  · rw [hnone, map_nil, setReservedBlock_nil]
  · rw [setReserved_eq]

/-- What is given back of a chunk of unreserved rows. -/
theorem releaseUnconsumed_eq {selected : List RoomRecord} (index : ℕ)
    (hnodup : (selected.map RoomRecord.id).Nodup)
    (hunreserved : ∀ row ∈ selected, row ∈ t.rows ∧ row.reservedUntil = 0) :
    (t.setReservedBlock (selected.map RoomRecord.id) v).releaseUnconsumed selected index =
      t.setReservedBlock ((selected.drop (selected.length - index)).map RoomRecord.id) v := by
  have hsplit := take_append_drop (selected.length - index) selected
  unfold releaseUnconsumed
  dsimp only
  rw [setReserved_eq]
  have hnodup' : ((selected.take (selected.length - index) ++
      selected.drop (selected.length - index)).map RoomRecord.id).Nodup := by rwa [hsplit]
  have hback := setReservedBlock_giveBack (v := v) hnodup'
    (fun row hrow => hunreserved row (mem_of_mem_take hrow))
  rwa [hsplit] at hback

end RoomTable

end ClientTelemetry
