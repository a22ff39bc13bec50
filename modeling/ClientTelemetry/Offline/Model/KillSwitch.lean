import ClientTelemetry.Model.Record
/-!
# Kill switch and clock skew

The two managers that read response headers on behalf of the storage
handler. `KillSwitchManager` keeps the tenants a server has killed, each
until a time, and a retry-after window that stands for all of them;
`ClockSkewManager` waits for the first response after a ping. Times are
whole seconds. A numeric header is parsed with `std::stoi`, which throws
(`stoi`), and nothing on the way catches it.
-/

namespace ClientTelemetry

/-- The characters `strtol` skips at the start. -/
def isSpace (c : Char) : Bool :=
  c == ' ' || c == '\t' || c == '\n' || c == '\x0b' || c == '\x0c' || c == '\r'

/-- The value of a run of decimal digits. -/
def digitsValue (digits : List Char) : ℕ :=
  digits.foldl (fun n c => 10 * n + (c.toNat - '0'.toNat)) 0

/-- `std::stoi`: white space, a sign, and the digits up to the first other
character. -/
def stoi (text : String) : Except Fault ℤ :=
  let body := text.toList.dropWhile isSpace
  let (sign, body) : ℤ × List Char :=
    match body with
    | '-' :: rest => (-1, rest)
    | '+' :: rest => (1, rest)
    | rest => (1, rest)
  let digits := body.takeWhile Char.isDigit
  if digits = [] then .error .invalidArgument
  else
    let n := sign * digitsValue digits
    if n < -2147483648 ∨ 2147483647 < n then .error .outOfRange else .ok n

/-! ## KillSwitchManager -/

/-- **The state of the kill switch.** -/
structure KillSwitchManager where
  /-- `m_tokenTime`, the second each kill ends at. -/
  tokenTime : OrdMap String ℤ
  /-- `m_isRetryAfterActive`. -/
  isRetryAfterActive : Bool
  /-- `m_retryAfterExpiryTime`. -/
  retryAfterExpiryTime : ℤ
  deriving DecidableEq

namespace KillSwitchManager

variable (k : KillSwitchManager)

/-- A new kill switch. -/
def empty : KillSwitchManager := ⟨OrdMap.empty, false, 0⟩

/-- `KillSwitchManager::isActive`. -/
def isActive : Bool := k.tokenTime.entries ≠ []

/-- `KillSwitchManager::addToken`. -/
def addToken (now : ℤ) (tokenId : String) (timeInSeconds : ℤ) : KillSwitchManager :=
  if 0 < timeInSeconds then
    { k with tokenTime := k.tokenTime.insert tokenId (now + timeInSeconds) }
  else k

/-- A value of `kill-tokens` without its suffix: the text before the
first colon. -/
def stripSuffix (value : String) : String := String.ofList (value.toList.takeWhile (· ≠ ':'))

/-- The tokens the headers name. -/
def killTokens (headers : HttpHeaders) : List String :=
  (headers.equalRange "kill-tokens").map stripSuffix

/-- A numeric header, with nothing for an absent one. -/
def seconds (text : String) : Except Fault ℤ := if text = "" then .ok 0 else stoi text

/-- The retry-after part of `handleResponse`. -/
def retryAfter (now timeInSecs : ℤ) : KillSwitchManager :=
  if 0 < timeInSecs then
    { k with retryAfterExpiryTime := now + timeInSecs, isRetryAfterActive := true }
  else k

/-- `KillSwitchManager::handleResponse`. An exception leaves the state as
far as it had come. -/
def handleResponse (now : ℤ) (headers : HttpHeaders) : Except Fault Bool × KillSwitchManager :=
  match seconds (headers.get "Retry-After") with
  | .error e => (.error e, k)
  | .ok timeInSecs =>
    let k := k.retryAfter now timeInSecs
    if headers.equalRange "kill-tokens" = [] then (.ok false, k)
    else
      match seconds (headers.get "kill-duration") with
      | .error e => (.error e, k)
      | .ok duration =>
        if killTokens headers ≠ [] ∧ 0 < duration then
          (.ok true, (killTokens headers).foldl (fun k t => k.addToken now t duration) k)
        else (.ok false, k)

/-- The end of the retry-after window is noticed. -/
def expireRetryAfter : KillSwitchManager :=
  { k with retryAfterExpiryTime := 0, isRetryAfterActive := false }

/-- `KillSwitchManager::isTokenBlocked`. An expired entry is purged when
its own tenant asks. -/
def isTokenBlocked (now : ℤ) (tokenId : String) : Bool × KillSwitchManager :=
  if k.isRetryAfterActive ∧ now < k.retryAfterExpiryTime then (true, k)
  else
    let k := if k.isRetryAfterActive then k.expireRetryAfter else k
    match k.tokenTime.find? tokenId with
    | none => (false, k)
    | some timeStamp =>
      if now < timeStamp then (true, k)
      else (false, { k with tokenTime := k.tokenTime.erase tokenId })

/-- `KillSwitchManager::getTokensList`. -/
def getTokensList : List String := k.tokenTime.keys

end KillSwitchManager

/-! ## ClockSkewManager -/

/-- **The state of the clock-skew protocol.** -/
structure ClockSkewManager where
  delta : String
  pingSent : Bool
  deltaReceived : Bool
  resumeTransmissionAfterClockSkew : Bool
  pingSendTime : ℤ
  deriving DecidableEq

namespace ClockSkewManager

variable (m : ClockSkewManager)

/-- Before the first ping. -/
def empty : ClockSkewManager := ⟨"", false, false, false, 0⟩

/-- `ClockSkewManager::SetDelta`. -/
def setDelta (delta : String) : ClockSkewManager :=
  { m with deltaReceived := true, delta := delta }

/-- `ClockSkewManager::handleResponse`. An absent header sets the empty
delta. -/
def handleResponse (headers : HttpHeaders) : ClockSkewManager :=
  { m.setDelta (headers.get "time-delta-millis") with resumeTransmissionAfterClockSkew := true }

/-- `ClockSkewManager::isWaitingForClockSkew`. The wait ends after 30
seconds. -/
def isWaitingForClockSkew (now : ℤ) : Bool × ClockSkewManager :=
  if !m.deltaReceived && m.pingSent then
    if 30 < now - m.pingSendTime then (false, m.setDelta "") else (true, m)
  else (false, m)

/-- `ClockSkewManager::GetDelta`. -/
def getDelta (now : ℤ) : String × ClockSkewManager :=
  if !m.pingSent then ("use-collector-delta", { m with pingSent := true, pingSendTime := now })
  else (m.delta, m)

end ClockSkewManager

end ClientTelemetry
