import ClientTelemetry.Http.Model.HttpResponseDecoder
/-!
# The transmit profiles

`TransmitProfiles` keeps the profiles by name, the name of the current one
and the index of the rule in it that fits the state of the device. The
profiles come from a JSON text or from a vector. The text is read element
by element: an exception ends the reading and keeps what was read so far,
and a limit that is passed ends it without an update.

The JSON library is a parameter, as is its conversion of a number to
`int`. The calls are made one after the other; the lock is not modelled.
-/

namespace ClientTelemetry

/-- `NetworkCost`. -/
inductive NetworkCost where
  | any
  | unknown
  | unmetered
  | metered
  | roaming
  deriving DecidableEq, Repr

/-- `PowerSource`. -/
inductive PowerSource where
  | any
  | unknown
  | battery
  | charging
  | lowBattery
  deriving DecidableEq, Repr

/-- **A rule**: its timers hold at a network cost and a power state. -/
structure TransmitProfileRule where
  netCost : NetworkCost := .any
  powerState : PowerSource := .any
  timers : List ℤ
  deriving DecidableEq, Repr

/-- **A profile.** -/
structure TransmitProfileRules where
  name : String
  rules : List TransmitProfileRule
  deriving DecidableEq, Repr

/-- `MAX_TRANSMIT_PROFILES`. -/
def maxTransmitProfiles : ℕ := 20

/-- `MAX_TRANSMIT_RULES`. -/
def maxTransmitRules : ℕ := 16

/-- The built-in profiles, in the order of `defaultProfileNames`. -/
inductive TransmitProfile where
  | realTime
  | nearRealTime
  | bestEffort
  deriving DecidableEq, Repr

namespace TransmitProfile

/-- The names of the built-in profiles. -/
def profileName : TransmitProfile → String
  | realTime => "REAL_TIME"
  | nearRealTime => "NEAR_REAL_TIME"
  | bestEffort => "BEST_EFFORT"

/-- The timers of a built-in profile: on a metered network off and on the
charger, and on another network off and on the charger. -/
def timers : TransmitProfile → List ℤ × List ℤ × List ℤ × List ℤ
  | realTime => ([16, 8, 4], [12, 6, 3], [8, 4, 2], [4, 2, 1])
  | nearRealTime => ([-1, 24, 12], [-1, 18, 9], [24, 12, 6], [12, 6, 3])
  | bestEffort => ([-1, 72, 36], [-1, 54, 27], [72, 36, 18], [36, 18, 9])

/-- The rules of a built-in profile, as `reset` has them. -/
def builtIn (p : TransmitProfile) : TransmitProfileRules where
  name := p.profileName
  rules :=
    let (metered, meteredCharging, other, otherCharging) := p.timers
    [⟨.roaming, .any, [-1, -1, -1]⟩,
      ⟨.metered, .unknown, metered⟩,
      ⟨.metered, .battery, metered⟩,
      ⟨.metered, .charging, meteredCharging⟩,
      ⟨.unmetered, .unknown, other⟩,
      ⟨.unmetered, .battery, other⟩,
      ⟨.unmetered, .charging, otherCharging⟩,
      ⟨.unknown, .unknown, other⟩,
      ⟨.unknown, .battery, other⟩,
      ⟨.unknown, .charging, otherCharging⟩,
      ⟨.any, .any, [-1, -1, -1]⟩]

end TransmitProfile

/-- `defaultProfileNames`. -/
def defaultProfileNames : List String :=
  [TransmitProfile.realTime.profileName, TransmitProfile.nearRealTime.profileName,
    TransmitProfile.bestEffort.profileName]

/-- The profiles that `reset` installs. -/
def builtInProfiles : List TransmitProfileRules :=
  [TransmitProfile.realTime.builtIn, TransmitProfile.nearRealTime.builtIn,
    TransmitProfile.bestEffort.builtIn]

/-- `DEFAULT_PROFILE`. -/
def defaultProfile : String := TransmitProfile.realTime.profileName

/-! ## Reading JSON -/

/-- `transmitProfileNetCost`. -/
def transmitProfileNetCost : String → Option NetworkCost
  | "any" => some .any
  | "unknown" => some .unknown
  | "unmetered" => some .unmetered
  | "low" => some .unmetered
  | "metered" => some .metered
  | "high" => some .metered
  | "restricted" => some .roaming
  | "roaming" => some .roaming
  | _ => none

/-- `transmitProfilePowerState`. -/
def transmitProfilePowerState : String → Option PowerSource
  | "any" => some .any
  | "unknown" => some .unknown
  | "battery" => some .battery
  | "charging" => some .charging
  | _ => none

/-- The JSON library: a text is parsed or an exception is thrown, and a
number is converted to `int`. -/
structure JsonLibrary where
  parse : String → Option Json
  toInt : String → ℤ

variable (lib : JsonLibrary)

/-- What an iteration over a value goes through. -/
def Json.items : Json → List Json
  | .null => []
  | .array elements => elements
  | .object members => members.map Prod.snd
  | value => [value]

/-- The conversion to a string, with nothing if it throws. -/
def Json.asString : Json → Option String
  | .string s => some s
  | _ => none

/-- A keyword of a rule. A rule without the key keeps the default, and so
does one with an unknown word; a value that is no string throws. -/
def readKeyword {κ : Type*} (table : String → Option κ) (fallback : κ) (rule : Json)
    (key : String) : Option κ :=
  match rule.find? key with
  | none => some fallback
  | some value => value.asString.map fun word => (table word).getD fallback

/-- The timers of a rule: the numbers among the items. -/
def readTimers (rule : Json) : List ℤ :=
  ((rule.find? "timers").getD .null).items.filterMap fun
    | .number text => some (lib.toInt text)
    | _ => none

/-- A rule, with nothing if an exception is thrown. -/
def readRule (rule : Json) : Option TransmitProfileRule := do
  let netCost ← readKeyword transmitProfileNetCost .any rule "netCost"
  let powerState ← readKeyword transmitProfilePowerState .any rule "powerState"
  return ⟨netCost, powerState, readTimers lib rule⟩

/-- The value is an object. -/
def Json.isObject : Json → Bool
  | .object _ => true
  | _ => false

/-- How the reading of a profile ends. -/
inductive ReadProfile where
  | read (profile : TransmitProfileRules)
  | threw
  /-- `goto parsing_failed`. -/
  | refused

/-- A profile. What is no object is read as a profile without a name and
without rules, and rules that are no array as none. -/
def readProfile (value : Json) : ReadProfile :=
  if !value.isObject then .read ⟨"", []⟩
  else
    match ((value.find? "name").getD .null).asString with
    | none => .threw
    | some name =>
      match (value.find? "rules").getD .null with
      | .array rules =>
        if maxTransmitRules < rules.length then .refused
        else
          match (rules.filter Json.isObject).mapM (readRule lib) with
          | none => .threw
          | some rules => .read ⟨name, rules⟩
      | _ => .read ⟨name, []⟩

/-- How the reading of a text ends: with the profiles read, or refused. -/
inductive ReadProfiles where
  | read (newProfiles : List TransmitProfileRules)
  | refused

/-- The loop over the elements. -/
def readElements (lib : JsonLibrary) : List Json → ReadProfiles
  | [] => .read []
  | value :: rest =>
    match readProfile lib value with
    | .read profile =>
      match readElements lib rest with
      | .read profiles => .read (profile :: profiles)
      | .refused => .refused
    | .threw => .read []
    | .refused => .refused

/-- The reading part of `parse`. -/
def readText (text : String) : ReadProfiles :=
  match lib.parse text with
  | some (.array elements) =>
    if maxTransmitProfiles < elements.length then .refused else readElements lib elements
  | _ => .read []

/-! ## The state -/

/-- **The profiles and what is selected.** -/
structure TransmitProfiles where
  profiles : OrdMap String TransmitProfileRules := OrdMap.empty
  currProfileName : String := defaultProfile
  currRule : ℕ := 0
  currNetCost : NetworkCost := .any
  currPowState : PowerSource := .any
  isTimerUpdated : Bool := true
  deriving DecidableEq

/-- What `load` of a vector asks of a profile: at least one rule, no more
than the maximum, and three timers in each. -/
def TransmitProfileRules.isValid (profile : TransmitProfileRules) : Bool :=
  decide (profile.rules.length ≤ maxTransmitRules) && !profile.rules.isEmpty &&
    profile.rules.all fun rule => rule.timers.length = 3

/-- The rule fits the state of the device. -/
def TransmitProfileRule.fits (rule : TransmitProfileRule) (netCost : NetworkCost)
    (powState : PowerSource) : Bool :=
  (rule.netCost = netCost ∨ netCost = .any ∨ rule.netCost = .any) ∧
    (rule.powerState = powState ∨ powState = .any ∨ rule.powerState = .any)

namespace TransmitProfiles

variable (s : TransmitProfiles)

/-- `updateStates`. -/
def updateStates (netCost : NetworkCost) (powState : PowerSource) : Bool × TransmitProfiles :=
  match s.profiles.find? s.currProfileName with
  | none => (false, { s with currNetCost := netCost, currPowState := powState })
  | some profile =>
    let found := profile.rules.findIdx? fun rule => rule.fits netCost powState
    (found.isSome,
      { s with
        currNetCost := netCost
        currPowState := powState
        currRule := found.getD 0
        isTimerUpdated := true })

/-- `removeCustomProfiles`. -/
def removeCustomProfiles : TransmitProfiles :=
  { s with profiles := s.profiles.filter fun e => e.1 ∈ defaultProfileNames }

/-- `UpdateProfiles`. -/
def updateProfiles (newProfiles : List TransmitProfileRules) : TransmitProfiles :=
  let profiles := s.removeCustomProfiles.profiles.insertAll TransmitProfileRules.name newProfiles
  let s := { s with
    profiles := profiles
    currProfileName :=
      if (profiles.find? s.currProfileName).isSome then s.currProfileName else defaultProfile
    currRule := 0 }
  (s.updateStates s.currNetCost s.currPowState).2

/-- `reset`. -/
def reset : TransmitProfiles := s.updateProfiles builtInProfiles

/-- `EnsureDefaultProfiles`. -/
def ensureDefaultProfiles : TransmitProfiles :=
  if s.profiles.entries = [] then s.reset else s

/-- `dump` prints three timers of every rule: none of them is missing. -/
def dumpsInBounds : Bool :=
  s.profiles.entries.all fun e => e.2.rules.all fun rule => 3 ≤ rule.timers.length

/-- `load` of a text. The `dump` that ends it changes nothing. -/
def loadText (lib : JsonLibrary) (s : TransmitProfiles) (text : String) : Bool × TransmitProfiles :=
  match readText lib text with
  | .refused => (false, s.ensureDefaultProfiles)
  | .read newProfiles => (!newProfiles.isEmpty, s.ensureDefaultProfiles.updateProfiles newProfiles)

/-- `load` of a vector. -/
def loadProfiles (profileCandidates : List TransmitProfileRules) : Bool × TransmitProfiles :=
  if maxTransmitProfiles < profileCandidates.length then (false, s.ensureDefaultProfiles)
  else if profileCandidates.all TransmitProfileRules.isValid then
    (true, s.ensureDefaultProfiles.updateProfiles profileCandidates)
  else (false, s.ensureDefaultProfiles)

/-- `setProfile`. -/
def setProfile (profileName : String) : Bool × TransmitProfiles :=
  let s := s.ensureDefaultProfiles
  let found := (s.profiles.find? profileName).isSome
  let s := { s with currProfileName := if found then profileName else defaultProfile }
  (found, (s.updateStates s.currNetCost s.currPowState).2)

/-- `setDefaultProfile`. -/
def setDefaultProfile (profile : TransmitProfile) :
    Bool × TransmitProfiles := s.setProfile profile.profileName

/-- The timers of the current rule, if there are any. -/
def currTimers : Option (ℤ × ℤ) :=
  match s.profiles.find? s.currProfileName with
  | none => none
  | some profile =>
    match profile.rules[s.currRule]? with
    | none => none
    | some rule =>
      match rule.timers with
      | [] => none
      | t₀ :: rest => some (1000 * t₀, 1000 * (rest[1]?.getD t₀))

/-- `getTimers`. -/
def getTimers : (ℤ × ℤ) × TransmitProfiles :=
  let s := s.ensureDefaultProfiles
  match s.currTimers with
  | none => ((-1, -1), s)
  | some timers => (timers, { s with isTimerUpdated := false })

/-- `isTimerUpdateRequired`. -/
def isTimerUpdateRequired : Bool := s.isTimerUpdated

end TransmitProfiles

/-- **The public calls that change the state.** -/
inductive ProfileCall where
  | loadText (text : String)
  | loadProfiles (profileCandidates : List TransmitProfileRules)
  | setProfile (profileName : String)
  | setDefaultProfile (profile : TransmitProfile)
  | reset
  | updateStates (netCost : NetworkCost) (powState : PowerSource)
  | getTimers
  deriving DecidableEq

/-- One call. -/
def TransmitProfiles.step (s : TransmitProfiles) : ProfileCall → TransmitProfiles
  | .loadText text => (loadText lib s text).2
  | .loadProfiles profileCandidates => (s.loadProfiles profileCandidates).2
  | .setProfile profileName => (s.setProfile profileName).2
  | .setDefaultProfile profile => (s.setDefaultProfile profile).2
  | .reset => s.reset
  | .updateStates netCost powState => (s.updateStates netCost powState).2
  | .getTimers => s.getTimers.2

end ClientTelemetry
