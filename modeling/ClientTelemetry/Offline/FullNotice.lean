import ClientTelemetry.Common.Run
import ClientTelemetry.Offline.Model.SQLite
/-!
# When a storage is said to be full

Both constructors compute the notification limit in 32 bits: the
percentage in force, times the size limit, over 100. The product wraps
for limits from 43 MB on, and the limit is then far too small
(`storage_full_limit_iff`). What a store compares with it is the size
estimate, in every sequence of stores.
-/

namespace ClientTelemetry

open SQLite

/-- The limit `OfflineStorage_SQLite` computes, from the configured
percentage as it is read into a `uint32_t`. -/
def SQLite.notificationLimit (configured : ℤ) (sizeLimit : BitVec 32) : BitVec 32 :=
  let percentage := BitVec.ofInt 32 configured
  let percentage := if percentage = 0 ∨ 100 < percentage then 75 else percentage
  percentage * sizeLimit / 100

/-- The limit `OfflineStorageHandler` computes. -/
def Handler.memoryNotificationLimit (configured : ℤ) (sizeLimit : BitVec 32) : BitVec 32 :=
  let percentage := BitVec.ofInt 32 configured
  if 0 < percentage ∧ percentage ≤ 100 then percentage * sizeLimit / 100
  else 75 * sizeLimit / 100

/-- The percentage in force. -/
def percentInForce (configured : ℤ) : ℕ :=
  if 1 ≤ configured ∧ configured ≤ 100 then configured.toNat else 75

/-- **The percentage of the limit**, in whole bytes. -/
def exactLimit (configured : ℤ) (sizeLimit : BitVec 32) : ℕ :=
  percentInForce configured * sizeLimit.toNat / 100

namespace SQLite

variable {configured : ℤ} {sizeLimit : BitVec 32} {s : SQLite} {r : StorageRecord} {now : ℕ}

/-! ## The limit -/

/-- The percentage that is read, and the product where it is cut. -/
theorem toNat_notificationLimit : (notificationLimit configured sizeLimit).toNat =
    percentInForce (configured % 2 ^ 32) * sizeLimit.toNat % 2 ^ 32 / 100 := by
  have hread : (BitVec.ofInt 32 configured).toNat = (configured % 2 ^ 32).toNat := by
    rw [BitVec.toNat_ofInt]
    rfl
  have hzero : BitVec.ofInt 32 configured = 0 ↔ (configured % 2 ^ 32).toNat = 0 := by
    rw [← hread, ← BitVec.toNat_inj]
    rfl
  have hlarge : 100 < BitVec.ofInt 32 configured ↔ 100 < (configured % 2 ^ 32).toNat := by
    rw [BitVec.lt_def, hread]
    rfl
  unfold notificationLimit percentInForce
  rw [BitVec.toNat_udiv, BitVec.toNat_mul]
  simp only [hzero, hlarge]
  split_ifs with hbad hgood hgood
  · omega
  · rfl
  · rw [hread]
    rfl
  · omega

theorem memoryNotificationLimit_eq (configured : ℤ) (sizeLimit : BitVec 32) :
    Handler.memoryNotificationLimit configured sizeLimit = notificationLimit configured sizeLimit := by
  unfold Handler.memoryNotificationLimit notificationLimit
  dsimp only
  split_ifs with hgood hbad hbad
  · bv_omega
  · rfl
  · rfl
  · bv_omega

/-- **The product has to fit**, and the percentage read has to be the one
configured, or to come to the same. -/
def LimitFits (configured : ℤ) (sizeLimit : BitVec 32) : Prop :=
  percentInForce (configured % 2 ^ 32) * sizeLimit.toNat < 2 ^ 32 ∧
    exactLimit (configured % 2 ^ 32) sizeLimit = exactLimit configured sizeLimit

theorem notificationLimit_eq_iff :
    (notificationLimit configured sizeLimit).toNat = exactLimit configured sizeLimit ↔
      LimitFits configured sizeLimit := by
  rw [toNat_notificationLimit, LimitFits, exactLimit, exactLimit]
  -- a percentage that is cut differs from the one in force, which then is 75
  have hratio : percentInForce (configured % 2 ^ 32) = percentInForce configured ∨
      percentInForce configured = 75 ∧ percentInForce (configured % 2 ^ 32) ≤ 100 := by
    unfold percentInForce
    split_ifs <;> omega
  generalize percentInForce (configured % 2 ^ 32) = p at *
  generalize percentInForce configured = q at *
  rcases hratio with rfl | ⟨rfl, hle⟩
  · omega
  · have hmul : p * sizeLimit.toNat ≤ 100 * sizeLimit.toNat := Nat.mul_le_mul_right _ hle
    omega

/-! ## The notice -/

/-- The store dispatches `EVT_STORAGE_FULL`. -/
def Dispatches (s : SQLite) (r : StorageRecord) (now : ℕ) : Prop :=
  ∃ percent, Notice.storageFull percent ∈ (s.storeRecord r now).2.notices.drop s.notices.length

/-- One store, at its time. -/
def store (s : SQLite) (call : StorageRecord × ℕ) : SQLite := (s.storeRecord call.1 call.2).2

/-- What a trim tells of. -/
theorem trimFull_frame (s : SQLite) : s.trimFull.dbSizeNotificationLimit = s.dbSizeNotificationLimit ∧
    ∃ notices, s.trimFull.notices = s.notices ++ notices ∧
      ∀ percent, Notice.storageFull percent ∉ notices := by
  unfold trimFull resizeDb
  dsimp only
  split_ifs
  all_goals first
    | exact ⟨rfl, [], (List.append_nil _).symm, fun _ => List.not_mem_nil⟩
    | exact ⟨rfl, [_], rfl, fun _ h => nomatch List.mem_singleton.1 h⟩

theorem notificationLimit_storeRecord (s : SQLite) (r : StorageRecord) (now : ℕ) :
    (s.storeRecord r now).2.dbSizeNotificationLimit = s.dbSizeNotificationLimit := by
  unfold storeRecord
  split_ifs
  · rfl
  · rfl
  · rfl
  · rw [(trimFull_frame _).1, notifyFull]
    split_ifs <;> rfl

/-- **A store dispatches the event over the limit only.** -/
theorem Dispatches.lt (h : s.Dispatches r now) :
    s.dbSizeNotificationLimit < s.dbSizeEstimate + recordSize r := by
  obtain ⟨percent, hin⟩ := h
  by_contra hle
  have hsame : (s.insertEvent r).notifyFull now = s.insertEvent r := if_neg fun h => hle h.2.1
  obtain ⟨-, notices, htrim, hnone⟩ := trimFull_frame (s.insertEvent r)
  unfold storeRecord at hin
  rw [hsame] at hin
  split_ifs at hin
  · simp [notify] at hin
  · simp [notify] at hin
  · simp [notify] at hin
  · rw [htrim, show (s.insertEvent r).notices = s.notices from rfl, List.drop_left] at hin
    exact hnone percent hin

end SQLite

/-- **The storage is said to be full at the configured percentage**, for
every percentage and every size limit: both limits are the exact ones, and
in every sequence of stores the event is dispatched over that many bytes
only, if and only if the product fits. -/
theorem storage_full_limit_iff (configured : ℤ) (sizeLimit : BitVec 32) :
    ((notificationLimit configured sizeLimit).toNat = exactLimit configured sizeLimit ∧
      (Handler.memoryNotificationLimit configured sizeLimit).toNat =
        exactLimit configured sizeLimit ∧
      ∀ (s : SQLite) (stores : List (StorageRecord × ℕ)) (r : StorageRecord) (now : ℕ),
        s.dbSizeNotificationLimit = (notificationLimit configured sizeLimit).toNat →
          (run store s stores).Dispatches r now →
            exactLimit configured sizeLimit < (run store s stores).dbSizeEstimate + recordSize r) ↔
      LimitFits configured sizeLimit := by
  rw [memoryNotificationLimit_eq, notificationLimit_eq_iff]
  refine ⟨fun h => h.1, fun h => ⟨h, h, fun s stores r now hlimit hdispatches => ?_⟩⟩
  rw [notificationLimit_eq_iff.2 h] at hlimit
  have hstep (s : SQLite) (call : StorageRecord × ℕ)
      (hs : s.dbSizeNotificationLimit = exactLimit configured sizeLimit) :
      (s.store call).dbSizeNotificationLimit = exactLimit configured sizeLimit :=
    (notificationLimit_storeRecord s call.1 call.2).trans hs
  exact run_preserves hstep hlimit stores ▸ hdispatches.lt

/-- **A limit of 64 MB.** Three quarters of it are 48 MB, and the
notification is sent from 7 MB on. -/
theorem limit_wraps_at_64_megabytes : (notificationLimit 75 67108864).toNat = 7381975 ∧
      (Handler.memoryNotificationLimit 75 67108864).toNat = 7381975 ∧
      exactLimit 75 67108864 = 50331648 := by
  decide

end ClientTelemetry
