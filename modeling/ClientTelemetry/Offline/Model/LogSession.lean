import ClientTelemetry.Utils.StringUtils
/-!
# Session data

`LogSessionDataProvider` keeps the time of the first launch and the id
of the SDK across restarts, either in a file of two lines beside the
cache or in two settings of the offline storage. The number is read with
`strtol`, whose answer depends on the width of `long` and is interpreted
with the help of `errno`, which nothing here resets.
-/

namespace ClientTelemetry

/-! ## Reading a number -/

/-- `ERANGE`. -/
def erange : ℤ := 34

/-- What is read through `c_str()`: the text up to the first NUL. -/
def cStr (s : String) : List Char := s.toList.takeWhile (· ≠ '\x00')

/-- `std::strtol` in base 10: the number, where the reading stopped, and
`errno` afterwards. -/
def strtol (w : LongWidth) (errno : ℤ) (text : List Char) : ℤ × List Char × ℤ :=
  let body := text.dropWhile isSpace
  let (sign, body) : ℤ × List Char :=
    match body with
    | '-' :: rest => (-1, rest)
    | '+' :: rest => (1, rest)
    | rest => (1, rest)
  let digits := body.takeWhile Char.isDigit
  let endptr := body.dropWhile Char.isDigit
  -- without a digit nothing is converted, and the reading stops where it began
  if digits = [] then (0, text, errno)
  else
    let n := sign * digitsValue digits
    if n < w.longMin then (w.longMin, endptr, erange)
    else if w.longMax < n then (w.longMax, endptr, erange)
    else (n, endptr, errno)

/-- `convertStrToLong`. The number is widened to `uint64_t` before it is
compared. -/
def convertStrToLong (w : LongWidth) (errno : ℤ) (s : String) : ℕ :=
  let (value, endptr, errno) := strtol w errno (cStr s)
  let res := (value % 2 ^ 64).toNat
  if errno = erange ∧ (res = w.longMax ∨ res = 0) then 0
  else if errno ≠ 0 ∧ res = 0 then res
  else if endptr.length > 0 then 0
  else res

/-! ## The file -/

/-- `remove_eol`. -/
def removeEol (s : String) : String :=
  if s.toList.getLast? = some '\n' then String.ofList s.toList.dropLast else s

/-- `parse`: the time and the id, if the content has them. -/
def parseSession (w : LongWidth) (errno : ℤ) (content : String) : Option (ℕ × String) :=
  if content = "" then none
  else
    match splitString content '\n' with
    | [first, second] =>
      let sessionFirstTimeLaunch := convertStrToLong w errno (removeEol first)
      if sessionFirstTimeLaunch = 0 then none
      else some (sessionFirstTimeLaunch, removeEol second)
    | _ => none

/-- The contents `writeFileContents` makes up. -/
def sessionContents (sessionFirstTimeLaunch : ℕ) (sessionSDKUid : String) : String :=
  toString sessionFirstTimeLaunch ++ "\n" ++ sessionSDKUid ++ "\n"

/-! ## The provider -/

structure LogSessionData where
  sessionFirstTimeLaunch : ℕ
  sessionSDKUid : String
  deriving DecidableEq, Repr

inductive SessionStorageType where
  | fileStore
  | databaseStore
  deriving DecidableEq, Repr

/-- **What outlives the process.** -/
structure SessionDisk where
  /-- The files, by path. -/
  files : OrdMap String String
  /-- The settings of the offline storage. -/
  settings : OrdMap String String
  /-- How often a file or a setting has been written. -/
  writes : ℕ
  deriving DecidableEq

/-- What a call finds around it. -/
structure SessionCall where
  /-- `PAL::getUtcSystemTimeMs()`. -/
  now : ℕ
  /-- `PAL::generateUuidString()`. -/
  uuid : String
  /-- `errno` when a number is read. -/
  errno : ℤ
  /-- A write of the file that fails, with what it leaves under the path. -/
  fileWriteFails : Option (Option String) := none
  /-- A `StoreSetting` of the time that fails, with the settings it leaves. -/
  storeTimeFails : Option (OrdMap String String) := none
  /-- A `StoreSetting` of the id that fails. -/
  storeUidFails : Option (OrdMap String String) := none

structure LogSessionDataProvider where
  storageType : SessionStorageType
  cacheFilePath : String
  /-- Whether `m_offlineStorage` is given. -/
  hasOfflineStorage : Bool
  logSessionData : Option LogSessionData
  deriving DecidableEq

namespace SessionDisk

variable (d : SessionDisk)

/-- `FileWrite`. -/
def fileWrite (call : SessionCall) (path contents : String) : SessionDisk :=
  let left := call.fileWriteFails.getD (some (String.ofList (cStr contents)))
  { d with
    files := match left with
      | some text => d.files.insert path text
      | none => d.files.erase path
    writes := d.writes + 1 }

/-- `StoreSetting`. An empty value removes the setting. -/
def storeSetting (fails : Option (OrdMap String String)) (name value : String) : SessionDisk :=
  { d with
    settings := fails.getD
      (if value ≠ "" then d.settings.insert name value else d.settings.erase name)
    writes := d.writes + 1 }

/-- `GetSetting`. -/
def getSetting (name : String) : String := (d.settings.find? name).getD ""

/-- `writeFileContents`. -/
def writeFileContents (call : SessionCall) (path : String)
    (sessionFirstTimeLaunch : ℕ) (sessionSDKUid : String) : SessionDisk :=
  d.fileWrite call path (sessionContents sessionFirstTimeLaunch sessionSDKUid)

end SessionDisk

def sessionFirstLaunchTimeName : String := "sessionfirstlaunchtime"

def sessionSdkUidName : String := "sessionsdkuid"

namespace LogSessionDataProvider

variable (w : LongWidth) (p : LogSessionDataProvider) (call : SessionCall) (d : SessionDisk)

/-- `m_logSessionData.reset`. -/
def setData (time : ℕ) (uid : String) : LogSessionDataProvider :=
  { p with logSessionData := some ⟨time, uid⟩ }

/-- The path of the session file. -/
def sessionPath : String := if p.cacheFilePath = "" then "" else p.cacheFilePath ++ ".ses"

/-- New session data, written to the file. -/
def createInFile : LogSessionDataProvider × SessionDisk :=
  (p.setData call.now call.uuid, d.writeFileContents call p.sessionPath call.now call.uuid)

/-- `CreateLogSessionDataFromFile`. -/
def createLogSessionDataFromFile : LogSessionDataProvider × SessionDisk :=
  if p.sessionPath = "" then (p.setData 0 "", d)
  else
    match d.files.find? p.sessionPath with
    | some content =>
      match parseSession w call.errno content with
      | some (time, uid) => (p.setData time uid, d)
      | none => p.createInFile call d
    | none => p.createInFile call d

/-- `CreateLogSessionDataFromDB`. -/
def createLogSessionDataFromDB : LogSessionDataProvider × SessionDisk :=
  if !p.hasOfflineStorage then (p, d)
  else
    let sessionSDKUid := d.getSetting sessionSdkUidName
    let sessionFirstTimeLaunch :=
      convertStrToLong w call.errno (d.getSetting sessionFirstLaunchTimeName)
    if sessionFirstTimeLaunch = 0 ∨ sessionSDKUid = "" then
      (p.setData call.now call.uuid,
        (d.storeSetting call.storeTimeFails sessionFirstLaunchTimeName
          (toString call.now)).storeSetting call.storeUidFails sessionSdkUidName call.uuid)
    else (p.setData sessionFirstTimeLaunch sessionSDKUid, d)

/-- `CreateLogSessionData`. -/
def createLogSessionData : LogSessionDataProvider × SessionDisk :=
  match p.storageType with
  | .fileStore => p.createLogSessionDataFromFile w call d
  | .databaseStore => p.createLogSessionDataFromDB w call d

end LogSessionDataProvider

end ClientTelemetry
