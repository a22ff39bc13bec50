import ClientTelemetry.Offline.Helpers.Room
/-!
# What a read of the Room store reserves

The chunks of a read offer one list, the unreserved rows in their order
(`collect_eq`), and the consumer takes a first stretch of it. What stays
reserved is not that stretch. When the consumer stops inside a chunk, the
rows given back are the first of the chunk and not the last, so that as
many rows stay reserved as were taken, but others (`reservedOf`). The two
agree when the consumer stops between two chunks, or does not stop
(`room_reserves_accepted_iff`).
-/

namespace ClientTelemetry

open List

namespace Room

open RoomTable

variable {κ : Type} {c : κ → RoomRecord → Bool × κ} {k : κ} {minLatency now v : ℤ}
  {requested : ℕ} {offered : List RoomRecord} {taken : ℕ} {t : RoomTable}

/-- **The rows that stay reserved** of an offered list of which a number
was taken: the chunks before the last whole, and of that as many as were
taken, from its end. -/
def reservedOf (offered : List RoomRecord) (taken : ℕ) : List RoomRecord :=
  let whole := taken / chunkSize * chunkSize
  let chunk := (offered.drop whole).take chunkSize
  offered.take whole ++ chunk.drop (chunk.length - taken % chunkSize)

theorem reservedOf_of_lt (h : taken < chunkSize) : reservedOf offered taken =
      (offered.take chunkSize).drop ((offered.take chunkSize).length - taken) := by
  unfold reservedOf
  rw [Nat.div_eq_of_lt h, Nat.mod_eq_of_lt h]
  simp

theorem reservedOf_add (offered : List RoomRecord) (taken : ℕ) :
    reservedOf offered (chunkSize + taken) =
      offered.take chunkSize ++ reservedOf (offered.drop chunkSize) taken := by
  have hpos : 0 < chunkSize := by decide
  unfold reservedOf
  rw [Nat.add_div_left _ hpos, Nat.add_mod_left, Nat.succ_mul, Nat.add_comm]
  dsimp only
  rw [take_add, drop_drop, append_assoc]

/-- Everything taken is everything reserved. -/
theorem reservedOf_length (offered : List RoomRecord) :
    reservedOf offered offered.length = offered := by
  have hmod := Nat.div_add_mod' offered.length chunkSize
  have hlt : offered.length % chunkSize < chunkSize := Nat.mod_lt _ (by decide)
  unfold reservedOf
  have hchunk : ((offered.drop (offered.length / chunkSize * chunkSize)).take chunkSize).length =
      offered.length % chunkSize := by
    rw [length_take, length_drop]
    omega
  dsimp only
  rw [hchunk, Nat.sub_self, drop_zero, take_of_length_le (i := chunkSize),
    take_append_drop]
  rw [length_drop]
  omega

/-- What is left of an offered list after a chunk is what the rest of the
table offers. -/
theorem take_drop_chunk (l : List RoomRecord) (r : ℕ) :
    (l.drop (min chunkSize r)).take (r - (l.take (min chunkSize r)).length) =
      (l.take r).drop chunkSize := by
  have hpos : chunkSize = 1024 := rfl
  rw [length_take, drop_take]
  by_cases hfull : chunkSize ≤ r ∧ chunkSize ≤ l.length
  · rw [Nat.min_eq_left hfull.1, Nat.min_eq_left hfull.2]
  · -- the chunk is the last
    have hleft : ((l.drop (min chunkSize r)).take (r - min (min chunkSize r) l.length)).length = 0 := by
      rw [length_take, length_drop]
      omega
    have hright : ((l.drop chunkSize).take (r - chunkSize)).length = 0 := by
      rw [length_take, length_drop]
      omega
    rw [length_eq_zero_iff.1 hleft, length_eq_zero_iff.1 hright]

/-- A chunk taken whole stays reserved, and the rest follows. -/
theorem reservedOf_whole (offered : List RoomRecord)
    (htaken : taken ≤ (offered.drop chunkSize).length) :
    reservedOf offered ((offered.take chunkSize).length + taken) =
      offered.take chunkSize ++ reservedOf (offered.drop chunkSize) taken := by
  by_cases hfull : chunkSize ≤ offered.length
  · rw [length_take, Nat.min_eq_left hfull]
    exact reservedOf_add offered taken
  · have hrest : offered.drop chunkSize = [] := drop_eq_nil_of_le (by omega)
    have hall : offered.take chunkSize = offered := take_of_length_le (by omega)
    have hzero : taken = 0 := by
      rw [hrest] at htaken
      exact Nat.le_zero.1 htaken
    rw [hall, hrest, hzero, Nat.add_zero, reservedOf_length]
    exact (append_nil offered).symm

/-- **The loop.** From a table no reservation of which has run out, the
chunks offer the consumer one list. -/
theorem collect_eq (hv : v ≠ 0) (hnow : now ≤ v) :
    ∀ (fuel : ℕ) (t : RoomTable) (k : κ) (n : ℕ), t.Clean now →
      ((t.ordered minLatency).take (requested - n)).length < fuel →
      let offered := (t.ordered minLatency).take (requested - n)
      let taken := (offer c k offered).1.length
      collect c minLatency requested now v fuel ⟨t, k, n⟩ =
        ⟨t.setReservedBlock ((reservedOf offered taken).map RoomRecord.id) v,
          (offer c k offered).2, n + taken⟩ := by
  -- each chunk that is read on reserves a row, so the rows left to offer bound the fuel
  intro fuel
  induction fuel with
  | zero => intro t k n _ hfuel; omega
  | succ fuel ih =>
    intro t k n hclean hfuel offered taken
    have hchunk : (t.ordered minLatency).take (min chunkSize (requested - n)) =
        offered.take chunkSize := by rw [take_take]
    unfold collect
    dsimp only
    rw [getAndReserve_eq hclean, hchunk]
    set selected := offered.take chunkSize with hselected
    by_cases hmore : n < requested
    · rw [if_pos hmore]
      by_cases hnone : selected = []
      · -- nothing is left to offer
        have hempty : offered = [] := by
          rcases take_eq_nil_iff.1 hnone with hzero | hnil
          · cases hzero
          · exact hnil
        rw [if_pos hnone, hnone]
        simp [taken, hempty, reservedOf]
      · rw [if_neg hnone]
        have hsplit : offered = selected ++ offered.drop chunkSize :=
          (take_append_drop chunkSize offered).symm
        have hunreserved : ∀ row ∈ selected, row ∈ t.rows ∧ row.reservedUntil = 0 := by
          intro row hrow
          have hmem := mem_ordered.1 (mem_of_mem_take (mem_of_mem_take hrow))
          exact ⟨hmem.1, hmem.2.2⟩
        have hnodup : (selected.map RoomRecord.id).Nodup :=
          ordered_nodup.sublist (((take_sublist _ _).trans (take_sublist _ _)).map _)
        by_cases hwhole : (offer c k selected).1 = selected
        · -- the chunk is taken whole, and the next one is read
          rw [if_neg (by rw [hwhole]; exact lt_irrefl _), hwhole]
          have hoffer : offer c k (selected ++ offered.drop chunkSize) = _ :=
            offer_append_of_whole hwhole
          rw [← hsplit] at hoffer
          set k' := (offer c k selected).2
          set t' := t.setReservedBlock (selected.map RoomRecord.id) v with ht'
          -- the rows just reserved are out of the select, so the next chunk starts behind them
          have hnext : (t'.ordered minLatency).take (requested - (n + selected.length)) =
              offered.drop chunkSize := by
            rw [ht', ← hchunk, ordered_setReserved_take hv, ← Nat.sub_sub]
            exact take_drop_chunk _ _
          have hpos : 0 < selected.length := length_pos_iff.2 hnone
          have hlen : offered.length = selected.length + (offered.drop chunkSize).length := by
            rw [← length_append, ← hsplit]
          have hfuel' : offered.length < fuel + 1 := hfuel
          have hrest := ih t' k' (n + selected.length) (hclean.setReservedBlock hnow)
            (by rw [hnext]; omega)
          rw [hnext] at hrest
          rw [hrest]
          have htaken : taken = selected.length + (offer c k' (offered.drop chunkSize)).1.length := by
            simp only [taken, hoffer, length_append]
          have hle := (offer_initial c k' (offered.drop chunkSize)).length_le
          rw [htaken, hoffer, reservedOf_whole offered hle, map_append, setReservedBlock_append,
            Nat.add_assoc]
        · -- the consumer stopped in the chunk
          have hshort : (offer c k selected).1.length < selected.length := by
            have hinit := offer_initial c k selected
            exact lt_of_le_of_ne hinit.length_le fun hlen => hwhole (hinit.eq_of_length hlen)
          have hoffer : offer c k offered = offer c k selected := by
            conv_lhs => rw [hsplit]
            exact offer_append_of_not_whole hwhole
          -- fewer than a chunk were taken in all, so no chunk stays reserved whole
          have hsmall : (offer c k selected).1.length < chunkSize :=
            lt_of_lt_of_le hshort (length_take_le _ _)
          rw [if_pos hshort, releaseUnconsumed_eq _ hnodup hunreserved]
          simp only [taken, hoffer]
          rw [reservedOf_of_lt hsmall]
    · have hempty : offered = [] := by
        have hzero : requested - n = 0 := by omega
        simp only [offered, hzero, take_zero]
      rw [if_neg hmore]
      simp [taken, hempty, reservedOf]

/-! ## The whole read -/

/-- The first chunk takes back the reservations that have run out. -/
theorem collect_releaseExpired {fuel : ℕ} (hpos : 0 < requested) :
    collect c minLatency requested now v (fuel + 1) ⟨t.releaseExpired now, k, 0⟩ =
      collect c minLatency requested now v (fuel + 1) ⟨t, k, 0⟩ := by
  have hsame : ∀ limit, (t.releaseExpired now).getAndReserve minLatency limit now v =
      t.getAndReserve minLatency limit now v := by
    intro limit
    unfold getAndReserve
    rw [releaseExpired_of_clean clean_releaseExpired]
  unfold collect
  dsimp only
  rw [if_pos hpos, if_pos hpos, hsame]

/-- **What a read offers**: the rows no reservation holds, in order, up to
the count asked for. -/
def offeredBy (r : Room) (minLatency : EventLatency) (maxCount now : ℕ) : List RoomRecord :=
  ((r.table.releaseExpired now).ordered minLatency.toInt).take (requestedCount maxCount)

/-- **The read in one equation.** -/
theorem retrieve_eq (r : Room) (c : κ → RoomRecord → Bool × κ) (k : κ) {leaseTimeMs : ℕ}
    (hlease : leaseTimeMs ≠ 0) (minLatency : EventLatency) (maxCount now : ℕ) :
    let w := offer c k (r.offeredBy minLatency maxCount now)
    r.retrieve c k leaseTimeMs minLatency maxCount now =
      (decide (0 < w.1.length), w.2,
        ⟨(r.table.releaseExpired now).setReservedBlock
            ((reservedOf (r.offeredBy minLatency maxCount now) w.1.length).map RoomRecord.id)
            (now + leaseTimeMs),
          min w.1.length (2 ^ 31 - 1)⟩) := by
  intro w
  have hpos : 0 < requestedCount maxCount := by
    unfold requestedCount
    split_ifs <;> omega
  have hfuel : (((r.table.releaseExpired now).ordered minLatency.toInt).take
      (requestedCount maxCount - 0)).length < r.table.rows.length + 1 := by
    have hrows : (r.table.releaseExpired now).rows.length = r.table.rows.length :=
      length_map _
    have hle : ((r.table.releaseExpired now).ordered minLatency.toInt).length ≤ _ :=
      length_ordered_le
    rw [length_take]
    omega
  have hloop := collect_eq (c := c) (v := now + leaseTimeMs) (by omega) (by omega)
    (r.table.rows.length + 1) (r.table.releaseExpired now) k 0 clean_releaseExpired hfuel
  rw [collect_releaseExpired hpos] at hloop
  unfold retrieve
  dsimp only
  rw [hloop]
  simp only [Nat.zero_add, Nat.sub_zero]
  rfl

/-! ## Reserved and accepted -/

/-- No reservation holds the row at this time. -/
def Unreserved (now : ℤ) (row : RoomRecord) : Prop :=
  row.reservedUntil = 0 ∨ (0 < row.reservedUntil ∧ row.reservedUntil < now)

/-- **The ids unreserved before a read and reserved after it.** -/
def NewlyReserved (now : ℤ) (t t' : RoomTable) (i : ℤ) : Prop :=
  (∃ row ∈ t.rows, row.id = i ∧ Unreserved now row) ∧
    ∃ row ∈ t'.rows, row.id = i ∧ row.reservedUntil ≠ 0

instance (now : ℤ) (row : RoomRecord) : Decidable (Unreserved now row) :=
  inferInstanceAs (Decidable (_ ∨ _))

instance (now : ℤ) (t t' : RoomTable) (i : ℤ) : Decidable (NewlyReserved now t t' i) :=
  inferInstanceAs (Decidable (_ ∧ _))

/-- **The rows the consumer accepted**, as a consumer finds them that
keeps a list. -/
def accepted (r : Room) (c : κ → StorageRecord → Bool × κ) (k : κ) (leaseTimeMs : ℕ)
    (minLatency : EventLatency) (maxCount now : ℕ) : List RoomRecord :=
  (r.retrieve (logged fun k row => c k row.toRecord) (k, []) leaseTimeMs minLatency maxCount
    now).2.1.2

/-- What stays reserved of unreserved rows is newly reserved. -/
theorem newlyReserved_iff {reserved : List RoomRecord} (hv : v ≠ 0)
    (hrows : ∀ row ∈ reserved, row ∈ (t.releaseExpired now).rows ∧ row.reservedUntil = 0) (i : ℤ) :
    NewlyReserved now t ((t.releaseExpired now).setReservedBlock (reserved.map RoomRecord.id) v) i ↔
      ∃ row ∈ reserved, row.id = i := by
  constructor
  · rintro ⟨⟨row, hrow, hid, hun⟩, row', hrow', hid', hne⟩
    obtain ⟨row₁, hrow₁, rfl⟩ := mem_map.1 hrow'
    by_cases hmem : row₁.id ∈ reserved.map RoomRecord.id
    · obtain ⟨x, hx, hxid⟩ := mem_map.1 hmem
      rw [if_pos hmem] at hid'
      exact ⟨x, hx, hxid.trans hid'⟩
    · -- a row that was not reserved is as the first chunk found it
      rw [if_neg hmem] at hid' hne
      obtain ⟨row₀, hrow₀, rfl⟩ := mem_map.1 hrow₁
      have hid₀ : row₀.id = row.id := by
        rw [hid, ← hid']
        split_ifs <;> rfl
      obtain rfl := eq_of_id_eq hrow₀ hrow hid₀
      rcases hun with hzero | hexpired
      · rw [if_neg (by omega)] at hne
        exact absurd hzero hne
      · rw [if_pos hexpired] at hne
        exact absurd rfl hne
  · rintro ⟨row, hrow, rfl⟩
    obtain ⟨hrel, hzero⟩ := hrows row hrow
    have hmem : row.id ∈ reserved.map RoomRecord.id := mem_map_of_mem hrow
    refine ⟨?_, { row with reservedUntil := v }, ?_, rfl, hv⟩
    · obtain ⟨row₀, hrow₀, heq⟩ := mem_map.1 hrel
      refine ⟨row₀, hrow₀, ?_, ?_⟩
      · rw [← heq]
        split_ifs <;> rfl
      · by_cases hexpired : 0 < row₀.reservedUntil ∧ row₀.reservedUntil < now
        · exact Or.inr hexpired
        · rw [if_neg hexpired] at heq
          exact Or.inl (heq ▸ hzero)
    · exact mem_map.2 ⟨row, hrel, if_pos hmem⟩

theorem reservedOf_subset {row : RoomRecord}
    (h : row ∈ reservedOf offered taken) : row ∈ offered := by
  rcases mem_append.1 h with h | h
  · exact mem_of_mem_take h
  · exact mem_of_mem_drop (mem_of_mem_take (mem_of_mem_drop h))

/-- Taken up to the end of a chunk is reserved up to there. -/
theorem reservedOf_of_mod (h : taken % chunkSize = 0) :
    reservedOf offered taken = offered.take taken := by
  have hwhole : taken / chunkSize * chunkSize = taken := by
    have := Nat.div_add_mod' taken chunkSize
    omega
  unfold reservedOf
  dsimp only
  rw [hwhole, h, Nat.sub_zero, drop_length, append_nil]

/-- Stopped inside a chunk, the first row of the chunk was taken and does
not stay reserved. -/
theorem exists_taken_not_reserved
    (hnodup : (offered.map RoomRecord.id).Nodup) (hlt : taken < offered.length)
    (hmod : taken % chunkSize ≠ 0) :
    ∃ row ∈ offered.take taken, ∀ x ∈ reservedOf offered taken, x.id ≠ row.id := by
  set whole := taken / chunkSize * chunkSize with hwhole
  have hdecomp := Nat.div_add_mod' taken chunkSize
  have hsmall : taken % chunkSize < chunkSize := Nat.mod_lt _ (by decide)
  obtain ⟨first, rest, hchunk⟩ : ∃ first rest, offered.drop whole = first :: rest := by
    rcases hdrop : offered.drop whole with _ | ⟨first, rest⟩
    · have := drop_eq_nil_iff.1 hdrop
      omega
    · exact ⟨first, rest, rfl⟩
  have hlen : offered.length = whole + (rest.length + 1) := by
    have := congrArg List.length hchunk
    rw [length_drop, length_cons] at this
    omega
  have hsplit : offered = offered.take whole ++ first :: rest := by
    rw [← hchunk, take_append_drop]
  rw [hsplit, map_append, nodup_append, map_cons, nodup_cons] at hnodup
  obtain ⟨-, ⟨hrest, -⟩, hdisj⟩ := hnodup
  refine ⟨first, ?_, fun x hx => ?_⟩
  · have htake : offered.take taken = offered.take whole ++ (first :: rest).take (taken - whole) := by
      rw [← hchunk, ← take_add]
      congr 1
      omega
    rw [htake, show taken - whole = (taken - whole - 1) + 1 by omega, take_succ_cons]
    exact mem_append_right _ mem_cons_self
  · unfold reservedOf at hx
    dsimp only at hx
    rw [← hwhole, hchunk] at hx
    rcases mem_append.1 hx with hx | hx
    · exact fun heq => hdisj _ (mem_map_of_mem hx) _ mem_cons_self heq
    · -- at least the first row of the chunk is given back
      have hcount : ((first :: rest).take chunkSize).length - taken % chunkSize ≠ 0 := by
        rw [length_take, length_cons]
        omega
      obtain ⟨n, hn⟩ := Nat.exists_eq_succ_of_ne_zero hcount
      have hpos : chunkSize = (chunkSize - 1) + 1 := rfl
      rw [hn, hpos, take_succ_cons, drop_succ_cons] at hx
      have hmem : x ∈ rest := mem_of_mem_take (mem_of_mem_drop hx)
      exact fun heq => hrest (heq ▸ mem_map_of_mem hmem)

/-- **A read that reserves what was accepted**, and counts it. -/
structure ReservesAccepted (now : ℤ) (r r' : Room) (accepted : List RoomRecord) : Prop where
  ids : ∀ i, NewlyReserved now r.table r'.table i ↔ ∃ row ∈ accepted, row.id = i
  count : r'.lastReadCount = accepted.length

end Room

open Room RoomTable in
/-- **What is reserved is what was accepted, exactly when the consumer
does not stop inside a chunk** (and the count is one of 31 bits). For
every table, latency, count and lease, and every consumer. -/
theorem room_reserves_accepted_iff {κ : Type} (r : Room) (c : κ → StorageRecord → Bool × κ) (k : κ)
    {leaseTimeMs : ℕ} (hlease : leaseTimeMs ≠ 0) (minLatency : EventLatency) (maxCount now : ℕ) :
    let offered := r.offeredBy minLatency maxCount now
    let taken := (offer (fun k row => c k row.toRecord) k offered).1.length
    ReservesAccepted now r (r.getAndReserveRecords c k leaseTimeMs minLatency maxCount now).2.2
        (r.accepted c k leaseTimeMs minLatency maxCount now) ↔
      (taken = offered.length ∨ taken % chunkSize = 0) ∧ taken ≤ 2 ^ 31 - 1 := by
  intro offered taken
  set t₁ := r.table.releaseExpired now with ht₁
  have hinit := offer_initial (fun k (row : RoomRecord) => c k row.toRecord) k offered
  -- what the consumer accepted is a first stretch of what it was offered
  have haccepted : r.accepted c k leaseTimeMs minLatency maxCount now = offered.take taken := by
    unfold accepted
    rw [retrieve_eq r _ _ hlease, offer_logged]
    exact offer_take _ k offered
  have hlen : (offered.take taken).length = taken := by
    rw [length_take]
    exact Nat.min_eq_left hinit.length_le
  have hread : (r.getAndReserveRecords c k leaseTimeMs minLatency maxCount now).2.2 =
      ⟨t₁.setReservedBlock ((reservedOf offered taken).map RoomRecord.id) (now + leaseTimeMs),
        min taken (2 ^ 31 - 1)⟩ := by
    unfold getAndReserveRecords
    rw [retrieve_eq r _ _ hlease]
  have hnodup : (offered.map RoomRecord.id).Nodup :=
    ordered_nodup.sublist ((take_sublist _ _).map _)
  have hrows : ∀ row ∈ reservedOf offered taken, row ∈ t₁.rows ∧ row.reservedUntil = 0 := by
    intro row hrow
    have hmem := mem_ordered.1 (mem_of_mem_take (reservedOf_subset hrow))
    exact ⟨hmem.1, hmem.2.2⟩
  have hnew : ∀ i, NewlyReserved now r.table
      (t₁.setReservedBlock ((reservedOf offered taken).map RoomRecord.id) (now + leaseTimeMs)) i ↔
        ∃ row ∈ reservedOf offered taken, row.id = i :=
    newlyReserved_iff (by omega) hrows
  rw [hread, haccepted]
  constructor
  · rintro ⟨hids, hcount⟩
    rw [hlen] at hcount
    have hcount' : min taken (2 ^ 31 - 1) = taken := hcount
    refine ⟨?_, by omega⟩
    by_contra hstop
    rw [not_or] at hstop
    have hlt : taken < offered.length := lt_of_le_of_ne hinit.length_le hstop.1
    obtain ⟨row, hrow, hnot⟩ := exists_taken_not_reserved hnodup hlt hstop.2
    obtain ⟨x, hx, hxid⟩ := (hnew row.id).1 ((hids row.id).2 ⟨row, hrow, rfl⟩)
    exact hnot x hx hxid
  · rintro ⟨hstop, hsmall⟩
    have hsame : reservedOf offered taken = offered.take taken := by
      rcases hstop with hall | hmod
      · rw [hall, reservedOf_length, take_length]
      · exact reservedOf_of_mod hmod
    refine ⟨fun i => ?_, ?_⟩
    · rw [← hsame]
      exact hnew i
    · rw [hlen]
      exact Nat.min_eq_left hsmall

/-- A store of three rows. -/
def threeRows : Room where
  table := ⟨[⟨1, "t", 1, 1, 1, 0, 0, []⟩, ⟨2, "t", 1, 1, 2, 0, 0, []⟩, ⟨3, "t", 1, 1, 3, 0, 0, []⟩],
    by decide⟩

/-- A consumer that takes the number of records in its state. -/
def takesOnly (k : ℕ) (_ : StorageRecord) : Bool × ℕ := (decide (k ≠ 0), k - 1)

theorem room_reserves_accepted_iff_all : Room.ReservesAccepted (1000 : ℕ) threeRows
      (threeRows.getAndReserveRecords takesOnly 3 50 .normal 0 1000).2.2
      (threeRows.accepted takesOnly 3 50 .normal 0 1000) :=
  (room_reserves_accepted_iff threeRows takesOnly 3 (by decide) .normal 0 1000).2
    ⟨Or.inl rfl, by decide⟩

/-- **A read that reserves other rows than were accepted.** The consumer
takes the first of three rows and stops; the read gives back the first
two, and the third stays reserved. -/
theorem stopped_read_reserves_last :
    let res := threeRows.getAndReserveRecords takesOnly 1 50 .normal 0 1000
    (threeRows.accepted takesOnly 1 50 .normal 0 1000).map RoomRecord.id = [1] ∧
      res.2.2.table.rows.map (fun row => (row.id, row.reservedUntil)) = [(1, 0), (2, 0), (3, 1050)] ∧
      res.2.2.lastReadCount = 1 ∧
      ¬ Room.ReservesAccepted (1000 : ℕ) threeRows res.2.2
        (threeRows.accepted takesOnly 1 50 .normal 0 1000) := by
  refine ⟨rfl, rfl, rfl, fun h => ?_⟩
  have hfirst : Room.NewlyReserved (1000 : ℕ) threeRows.table
      (threeRows.getAndReserveRecords takesOnly 1 50 .normal 0 1000).2.2.table 1 :=
    (h.ids 1).2 ⟨⟨1, "t", 1, 1, 1, 0, 0, []⟩, mem_singleton.2 rfl, rfl⟩
  revert hfirst
  decide

end ClientTelemetry
