import ClientTelemetry.Model.Record
/-!
# The loggers of a manager

`LogManagerImpl::GetLogger` keeps the loggers it has made in a map and
returns the one it finds there. The key of the map is made of the token
and the source, both in lower case, with a slash between them. A logger is
returned as a pointer, so it has an address, and the loggers of a live
manager stay where they are.

A string is the sequence of its bytes, each a character.
-/

namespace ClientTelemetry

/-- `toLower`, in the locale `C`: the letters `A` to `Z` are changed and
no other byte is. -/
def toLower (str : String) : String := String.ofList (str.toList.map Char.toLower)

/-- `DIAG_LEVEL_DEFAULT`. -/
def diagLevelDefault : ℕ := 255

/-- **A logger**, as far as the manager knows it. -/
structure Logger where
  /-- Where the object is. -/
  address : ℕ
  tenantToken : String
  source : String
  scope : String
  level : ℕ
  deriving DecidableEq, Repr

/-- The key of a normalised token and source. -/
def loggerHash (normalizedTenantToken normalizedSource : String) : String :=
  normalizedTenantToken ++ "/" ++ normalizedSource

/-- The key a logger is kept under. -/
def Logger.hash (logger : Logger) : String := loggerHash logger.tenantToken logger.source

/-- **The manager.** Each logger is under the key of its own token and
source, and no two of them are the same object. -/
structure LogManager where
  /-- `m_alive`. -/
  alive : Bool
  /-- `m_diagLevelFilter.GetDefaultLevel()`. -/
  defaultLevel : ℕ
  /-- `m_loggers`. -/
  loggers : OrdMap String Logger
  /-- The address of the next object. -/
  nextAddress : ℕ
  keyed : ∀ e ∈ loggers.entries, e.1 = e.2.hash
  allocated : ∀ e ∈ loggers.entries, e.2.address < nextAddress
  apart : ∀ e ∈ loggers.entries, ∀ e' ∈ loggers.entries, e.2.address = e'.2.address → e = e'

/-- The parameters of a call of `GetLogger`. -/
structure GetLoggerCall where
  tenantToken : String
  source : String
  scope : String := ""
  deriving DecidableEq, Repr

namespace GetLoggerCall

variable (call : GetLoggerCall)

/-- `normalizedTenantToken`. -/
def normalizedTenantToken : String := toLower call.tenantToken

/-- `normalizedSource`. -/
def normalizedSource : String := toLower call.source

/-- `hash`. -/
def hash : String :=
  loggerHash call.normalizedTenantToken call.normalizedSource

end GetLoggerCall

namespace LogManager

variable (m : LogManager)

/-- A live manager without loggers. -/
def started (defaultLevel : ℕ) : LogManager where
  alive := true
  defaultLevel := defaultLevel
  loggers := OrdMap.empty
  nextAddress := 0
  keyed := fun _ h => nomatch h
  allocated := fun _ h => nomatch h
  apart := fun _ h => nomatch h

/-- `std::make_unique<Logger>` at a key that has no logger. -/
def makeLogger (call : GetLoggerCall) : LogManager where
  alive := m.alive
  defaultLevel := m.defaultLevel
  loggers := m.loggers.insert call.hash
    { address := m.nextAddress, tenantToken := call.normalizedTenantToken,
      source := call.normalizedSource, scope := call.scope, level := diagLevelDefault }
  nextAddress := m.nextAddress + 1
  keyed := by
    intro e he
    obtain rfl | ⟨he, -⟩ := OrdMap.mem_insert.1 he
    · rfl
    · exact m.keyed e he
  allocated := by
    intro e he
    obtain rfl | ⟨he, -⟩ := OrdMap.mem_insert.1 he
    · exact Nat.lt_succ_self _
    · exact Nat.lt_succ_of_lt (m.allocated e he)
  apart := by
    intro e he e' he' haddress
    obtain rfl | ⟨he, -⟩ := OrdMap.mem_insert.1 he <;>
      obtain rfl | ⟨he', -⟩ := OrdMap.mem_insert.1 he'
    · rfl
    · exact absurd haddress.symm (m.allocated e' he').ne
    · exact absurd haddress (m.allocated e he).ne
    · exact m.apart e he e' he' haddress

/-- `SetLevel` on the logger at a key. -/
def setLevel (logger : Logger) (level : ℕ)
    (hfind : m.loggers.find? logger.hash = some logger) : LogManager where
  alive := m.alive
  defaultLevel := m.defaultLevel
  loggers := m.loggers.insert logger.hash { logger with level := level }
  nextAddress := m.nextAddress
  keyed := by
    intro e he
    obtain rfl | ⟨he, -⟩ := OrdMap.mem_insert.1 he
    · rfl
    · exact m.keyed e he
  allocated := by
    intro e he
    obtain rfl | ⟨he, -⟩ := OrdMap.mem_insert.1 he
    · exact m.allocated (logger.hash, logger) (OrdMap.find?_eq_some.1 hfind)
    · exact m.allocated e he
  apart := by
    -- the entry replaced is the only one with this address
    have hentry := OrdMap.find?_eq_some.1 hfind
    intro e he e' he' haddress
    obtain rfl | ⟨he, hne⟩ := OrdMap.mem_insert.1 he <;>
      obtain rfl | ⟨he', hne'⟩ := OrdMap.mem_insert.1 he'
    · rfl
    · exact absurd (congrArg Prod.fst (m.apart _ hentry e' he' haddress).symm) hne'
    · exact absurd (congrArg Prod.fst (m.apart e he _ hentry haddress)) hne
    · exact m.apart e he e' he' haddress

/-- A logger found is under its own key. -/
theorem hash_of_find? {m : LogManager} {k : String} {logger : Logger}
    (h : m.loggers.find? k = some logger) : logger.hash = k :=
  (m.keyed _ (OrdMap.find?_eq_some.1 h)).symm

/-- The end of `GetLogger`: the level the manager was given is passed on,
and the logger at the key is returned. -/
def returnLogger (k : String) : Option Logger × LogManager :=
  match h : m.loggers.find? k with
  | none => (none, m)
  | some logger =>
    if m.defaultLevel ≠ diagLevelDefault then
      (some { logger with level := m.defaultLevel },
        m.setLevel logger m.defaultLevel (by rw [hash_of_find? h]; exact h))
    else (some logger, m)

/-- **`LogManagerImpl::GetLogger`.** -/
def getLogger (call : GetLoggerCall) : Option Logger × LogManager :=
  if !m.alive then (none, m)
  else
    match m.loggers.find? call.hash with
    | none => (m.makeLogger call).returnLogger call.hash
    | some _ => m.returnLogger call.hash

/-- A sequence of calls, each with what it returned. -/
def getLoggers (m : LogManager) : List GetLoggerCall →
    List (GetLoggerCall × Option Logger) × LogManager
  | [] => ([], m)
  | call :: calls =>
    let res := m.getLogger call
    ((call, res.1) :: (getLoggers res.2 calls).1, (getLoggers res.2 calls).2)

end LogManager

end ClientTelemetry
