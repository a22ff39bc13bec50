import ClientTelemetry.Offline.Model.LogSession
/-!
# Session data after a restart

What was written as the time of the first launch is read back as that
time where it fits a `long` and is not taken for an overflow
(`convertStrToLong_toString`). The file has one line end more than its
reader allows (`parseSession_sessionContents`), so that only session data
kept in the settings survives a restart (`session_survives_iff`).
-/

namespace ClientTelemetry

open List

variable {w : LongWidth}

/-! ## The number -/

/-- A text without NUL is read whole. -/
theorem cStr_of_notMem {s : String} (h : '\x00' ∉ s.toList) : cStr s = s.toList := by
  refine takeWhile_eq_self_iff.2 fun c hc => ?_
  simpa using ne_of_mem_of_not_mem hc h

theorem cStr_toString (n : ℕ) : cStr (toString n) = (toString n).toList :=
  cStr_of_notMem fun h => absurd (isDigit_of_mem_toString h) (by decide)

/-- **`strtol` on a number as it is written.** It is read to its end, and
clamped where it does not fit. -/
theorem strtol_toString (w : LongWidth) (errno : ℤ) (n : ℕ) : strtol w errno (toString n).toList =
      if w.longMax < n then ((w.longMax : ℤ), [], erange) else ((n : ℤ), [], errno) := by
  have hdigits : ∀ c ∈ (toString n).toList, c.isDigit = true := fun c => isDigit_of_mem_toString
  obtain ⟨c, rest, htext⟩ := exists_cons_of_ne_nil (toList_toString_ne_nil n)
  obtain ⟨-, hminus, hplus⟩ := lexed_of_isDigit (hdigits c (htext ▸ mem_cons_self))
  have hend : (toString n).toList.dropWhile Char.isDigit = [] :=
    dropWhile_eq_nil_iff.2 hdigits
  unfold strtol
  simp only [dropWhile_isSpace_of_digits hdigits]
  split
  next rest' hsign => exact absurd (List.cons.inj (htext.symm.trans hsign)).1 hminus
  next rest' hsign => exact absurd (List.cons.inj (htext.symm.trans hsign)).1 hplus
  next =>
    have hlow : ¬(n : ℤ) < w.longMin := by
      simp only [LongWidth.longMin]
      omega
    simp only [takeWhile_eq_self_iff.2 hdigits, hend, if_neg (toList_toString_ne_nil n),
      digitsValue_toString, one_mul, if_neg hlow, Nat.cast_lt]

theorem longMax_lt (w : LongWidth) : 0 < w.longMax ∧ w.longMax < 2 ^ 64 := by
  cases w <;> decide

/-- **What is read back of a time.** -/
theorem convertStrToLong_toString (w : LongWidth) (errno : ℤ) (n : ℕ) :
    convertStrToLong w errno (toString n) =
      if n ≤ w.longMax ∧ ¬(errno = erange ∧ n = w.longMax) then n else 0 := by
  obtain ⟨hpos, hmax⟩ := longMax_lt w
  unfold convertStrToLong
  rw [cStr_toString, strtol_toString]
  by_cases hbig : w.longMax < n
  · -- clamped, and taken for an overflow
    have hres : ((w.longMax : ℤ) % 2 ^ 64).toNat = w.longMax := by omega
    simp only [if_pos hbig, hres, true_or, and_self, if_true]
    exact (if_neg fun h => absurd h.1 (by omega)).symm
  · have hres : ((n : ℤ) % 2 ^ 64).toNat = n := by omega
    have hle : n ≤ w.longMax := by omega
    simp only [if_neg hbig, hres, length_nil, gt_iff_lt, lt_self_iff_false, if_false, hle,
      true_and]
    by_cases hzero : n = 0
    · simp [hzero]
    · simp only [hzero, or_false, and_false, if_false, ite_not]

/-! ## The file -/

theorem toList_sessionContents (time : ℕ) (uid : String) : (sessionContents time uid).toList =
      (toString time).toList ++ '\n' :: (uid.toList ++ '\n' :: []) := by
  simp [sessionContents, String.toList_append]

theorem newline_notMem_toString (n : ℕ) : '\n' ∉ (toString n).toList := fun h =>
  absurd (isDigit_of_mem_toString h) (by decide)

/-- **The reader refuses what the writer makes up**: the line end after
the id opens a third part. -/
theorem parseSession_sessionContents (w : LongWidth) (errno : ℤ) (time : ℕ) {uid : String}
    (huid : '\n' ∉ uid.toList) : parseSession w errno (sessionContents time uid) = none := by
  have hne : sessionContents time uid ≠ "" := by
    intro h
    have hlist := toList_sessionContents time uid
    rw [h] at hlist
    simp at hlist
  have hparts : splitString (sessionContents time uid) '\n' = [toString time, uid, ""] := by
    unfold splitString
    rw [if_neg hne, toList_sessionContents,
      splitOn_append_cons_self_of_not_mem (newline_notMem_toString time),
      splitOn_append_cons_self_of_not_mem huid, splitOn_nil]
    simp only [map_cons, map_nil, String.ofList_toList]
  simp only [parseSession, if_neg hne, hparts]

/-! ## A restart -/

/-- No write of the call fails. -/
structure SessionCall.Writes (call : SessionCall) : Prop where
  file : call.fileWriteFails = none
  time : call.storeTimeFails = none
  uid : call.storeUidFails = none

namespace LogSessionDataProvider

variable {p : LogSessionDataProvider} {first later call : SessionCall} {d : SessionDisk}

/-- A call either finds its data and writes nothing, or has made it anew
and written it. -/
theorem createLogSessionDataFromFile_wrote (hwrites : call.Writes)
    (hnul : '\x00' ∉ call.uuid.toList)
    (hwrote : (p.createLogSessionDataFromFile w call d).2.writes ≠ d.writes) : p.sessionPath ≠ "" ∧
      (p.createLogSessionDataFromFile w call d).2.files.find? p.sessionPath =
        some (sessionContents call.now call.uuid) := by
  have hpath : p.sessionPath ≠ "" := by
    intro h
    exact hwrote (by rw [createLogSessionDataFromFile, if_pos h])
  have hnulContents : '\x00' ∉ (sessionContents call.now call.uuid).toList := by
    rw [toList_sessionContents]
    simp only [mem_append, mem_cons, not_mem_nil, or_false, not_or]
    exact ⟨fun h => absurd (isDigit_of_mem_toString h) (by decide), by decide, hnul, by decide⟩
  have hnew : (p.createInFile call d).2.files.find? p.sessionPath =
      some (sessionContents call.now call.uuid) := by
    simp only [createInFile, SessionDisk.writeFileContents, SessionDisk.fileWrite, hwrites.file,
      Option.getD_none, cStr_of_notMem hnulContents, String.ofList_toList, OrdMap.find?_insert,
      if_true]
  refine ⟨hpath, ?_⟩
  rw [createLogSessionDataFromFile, if_neg hpath] at hwrote ⊢
  split at hwrote
  next content hfound =>
    split at hwrote
    next time uid hparsed => exact absurd rfl hwrote
    next hparsed => exact hnew
  next hfound => exact hnew

/-- What the file holds is not read back: the later call writes again. -/
theorem createLogSessionDataFromFile_rewrites (hpath : p.sessionPath ≠ "") {time : ℕ}
    {uid : String} (huid : '\n' ∉ uid.toList)
    (hfile : d.files.find? p.sessionPath = some (sessionContents time uid)) :
    (p.createLogSessionDataFromFile w call d).2.writes = d.writes + 1 := by
  rw [createLogSessionDataFromFile, if_neg hpath, hfile]
  simp only [parseSession_sessionContents w call.errno time huid]
  rfl

theorem sessionSdkUidName_ne : sessionSdkUidName ≠ sessionFirstLaunchTimeName := by
  simp [sessionSdkUidName, sessionFirstLaunchTimeName]

theorem createLogSessionDataFromDB_wrote (hwrites : call.Writes) (huid : call.uuid ≠ "")
    (hwrote : (p.createLogSessionDataFromDB w call d).2.writes ≠ d.writes) :
    p.hasOfflineStorage = true ∧
      (p.createLogSessionDataFromDB w call d).2.getSetting sessionFirstLaunchTimeName =
        toString call.now ∧
      (p.createLogSessionDataFromDB w call d).2.getSetting sessionSdkUidName = call.uuid := by
  have htime : toString call.now ≠ "" := by
    intro h
    exact toList_toString_ne_nil call.now (by rw [h]; rfl)
  simp only [createLogSessionDataFromDB] at hwrote ⊢
  split_ifs at hwrote ⊢ with hstorage hnew
  · exact absurd rfl hwrote
  · refine ⟨by simpa using hstorage, ?_, ?_⟩
    · simp only [SessionDisk.getSetting, SessionDisk.storeSetting, hwrites.time, hwrites.uid,
        Option.getD_none, if_pos huid, if_pos htime, OrdMap.find?_insert,
        if_neg sessionSdkUidName_ne.symm, if_true, Option.getD_some]
    · simp only [SessionDisk.getSetting, SessionDisk.storeSetting, hwrites.time, hwrites.uid,
        Option.getD_none, if_pos huid, OrdMap.find?_insert, if_true, Option.getD_some]
  · exact absurd rfl hwrote

/-- **Session data after a restart.** Of what a call has written under
valid conditions, a later call finds the same data and writes nothing
exactly where it is kept in the settings, fits a `long`, and is not the
largest `long` read while `errno` still says `ERANGE`. -/
theorem session_survives_iff (w : LongWidth) (p : LogSessionDataProvider)
    (first later : SessionCall) (d : SessionDisk) (htime : 0 < first.now) (huid : first.uuid ≠ "")
    (hline : '\n' ∉ first.uuid.toList) (hnul : '\x00' ∉ first.uuid.toList) (hwrites : first.Writes)
    (hwrote : (p.createLogSessionData w first d).2.writes ≠ d.writes) :
    p.createLogSessionData w later (p.createLogSessionData w first d).2 =
        (p.setData first.now first.uuid, (p.createLogSessionData w first d).2) ↔
      p.storageType = .databaseStore ∧ first.now ≤ w.longMax ∧
        ¬(later.errno = erange ∧ first.now = w.longMax) := by
  cases hstore : p.storageType with
  | fileStore =>
    simp only [createLogSessionData, hstore] at hwrote ⊢
    obtain ⟨hpath, hfile⟩ := createLogSessionDataFromFile_wrote hwrites hnul hwrote
    have hrewrites : (p.createLogSessionDataFromFile w later _).2.writes = _ :=
      createLogSessionDataFromFile_rewrites hpath hline hfile
    refine ⟨fun h => ?_, fun h => absurd h.1 (by decide)⟩
    rw [h] at hrewrites
    exact absurd hrewrites (by simp)
  | databaseStore =>
    simp only [createLogSessionData, hstore] at hwrote ⊢
    obtain ⟨hstorage, hsavedTime, hsavedUid⟩ := createLogSessionDataFromDB_wrote hwrites huid hwrote
    generalize (p.createLogSessionDataFromDB w first d).2 = d' at hsavedTime hsavedUid
    simp only [true_and]
    rw [createLogSessionDataFromDB, if_neg (by simp [hstorage])]
    simp only [hsavedTime, hsavedUid, convertStrToLong_toString, huid, or_false]
    by_cases hread : first.now ≤ w.longMax ∧ ¬(later.errno = erange ∧ first.now = w.longMax)
    · rw [if_pos hread, if_neg (by omega)]
      exact ⟨fun _ => hread, fun _ => rfl⟩
    · rw [if_neg hread, if_pos rfl]
      refine ⟨fun h => ?_, fun h => absurd h hread⟩
      have hcount := congrArg (fun r => r.2.writes) h
      simp only [SessionDisk.storeSetting] at hcount
      omega

/-- A disk nothing has been written to. -/
def blankDisk : SessionDisk := ⟨OrdMap.empty, OrdMap.empty, 0⟩

def firstLaunch (now : ℕ) : SessionCall := ⟨now, "5a", 0, none, none, none⟩

def restart (errno : ℤ) : SessionCall := ⟨1700000000000, "6b", errno, none, none, none⟩

def keptIn (storageType : SessionStorageType) : LogSessionDataProvider :=
  ⟨storageType, "cache", true, none⟩

/-- What the first launch leaves on a blank disk. -/
def launched (w : LongWidth) (storageType : SessionStorageType) (now : ℕ) : SessionDisk :=
  ((keptIn storageType).createLogSessionData w (firstLaunch now) blankDisk).2

/-- A 64-bit `long` and settings: the data is found again, with `ERANGE`
left over from something else. -/
theorem session_survives_iff_settings :
    (keptIn .databaseStore).createLogSessionData .bits64 (restart erange)
        (launched .bits64 .databaseStore 1600000000000) =
      ((keptIn .databaseStore).setData 1600000000000 "5a",
        launched .bits64 .databaseStore 1600000000000) :=
  (session_survives_iff .bits64 (keptIn .databaseStore) (firstLaunch 1600000000000)
    (restart erange) blankDisk (by decide) (by decide) (by decide) (by decide) ⟨rfl, rfl, rfl⟩
    (by decide +kernel)).2 ⟨rfl, by decide, by decide⟩

/-- The session data after a restart, and how often the first launch and
the restart have written. -/
def afterRestart (w : LongWidth) (storageType : SessionStorageType) (now : ℕ) (errno : ℤ) :
    Option LogSessionData × ℕ × ℕ :=
  let d := launched w storageType now
  let result := (keptIn storageType).createLogSessionData w (restart errno) d
  (result.1.logSessionData, d.writes, result.2.writes - d.writes)

/-- **Sessions that do not survive**: any in a file, a time of today with
a 32-bit `long`, and the largest `long` after an unrelated `ERANGE`. -/
theorem session_lost :
    afterRestart .bits64 .fileStore 1600000000000 0 = (some ⟨1700000000000, "6b"⟩, 1, 1) ∧
    afterRestart .bits32 .databaseStore 1600000000000 0 = (some ⟨1700000000000, "6b"⟩, 2, 2) ∧
    afterRestart .bits64 .databaseStore (2 ^ 63 - 1) erange =
      (some ⟨1700000000000, "6b"⟩, 2, 2) := by
  decide +kernel

end LogSessionDataProvider

end ClientTelemetry
