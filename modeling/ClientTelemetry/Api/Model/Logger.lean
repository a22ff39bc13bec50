import ClientTelemetry.Api.Model.LogManager
import ClientTelemetry.Common.Gates
/-!
# Calls of a logger, and its shutdown

`Logger::LogEvent` and what it calls, as programs of threads. An
`ActiveLoggerCall` on the stack is a hold on the gate of its logger, which
goes by the address of the logger: its constructor reads `m_active` and counts the call if the logger is active,
and its destructor takes the count back. The calls below `LogEvent` have
guards of their own, and each of them reads the flag again.

The code between locking and unlocking `m_shutdown_mutex` is one step, as
nothing in it waits but the condition variable, which gives the mutex up.
`RecordShutdown` is two steps: it clears the flag, and goes on when the
count is zero. The filters and the decorators are given by their
outcomes. `sendEvent` is reached where it is called; behind the lock it
takes nothing is modelled.
-/

namespace ClientTelemetry

open Prog

/-! ## What a call is decided by -/

/-- `DIAG_LEVEL_DEFAULT_MIN`. -/
def diagLevelDefaultMin : ℕ := 1

/-- `DIAG_LEVEL_DEFAULT_MAX`. -/
def diagLevelDefaultMax : ℕ := 2

/-- `DiagLevelFilter`. -/
structure DiagLevelFilter where
  levelMin : ℕ := diagLevelDefaultMin
  levelMax : ℕ := diagLevelDefaultMax
  level : ℕ := diagLevelDefault
  levelSet : List ℕ := []

namespace DiagLevelFilter

/-- `DiagLevelFilter::IsLevelEnabled`. -/
def isLevelEnabled (f : DiagLevelFilter) (level : ℕ) : Bool :=
  if f.levelSet ≠ [] then level ∈ f.levelSet
  else f.levelMin ≤ f.levelMax ∧ f.levelMin ≤ level ∧ level ≤ f.levelMax

/-- `DiagLevelFilter::IsLevelFilterEnabled`. -/
def isLevelFilterEnabled (f : DiagLevelFilter) : Bool :=
  f.levelSet ≠ [] ∨ f.levelMin ≠ diagLevelDefaultMin ∨ f.levelMax ≠ diagLevelDefaultMax ∨
    f.level ≠ diagLevelDefault

end DiagLevelFilter

/-- **A call of `LogEvent`**, by what it is decided by. -/
structure LogCall where
  /-- The filters of the logger and of the manager let the event pass. -/
  filtersPass : Bool
  /-- The three decorators accept the event. -/
  decorates : Bool
  /-- The property `COMMONFIELDS_EVENT_LEVEL`, if it is set. -/
  levelProperty : Option ℤ
  /-- `m_level` of the logger. -/
  level : ℕ
  latency : EventLatency

/-- The level filter of `submit`. -/
def LogCall.passesLevel (f : DiagLevelFilter) (c : LogCall) : Bool :=
  if f.isLevelFilterEnabled then
    let level := match c.levelProperty with
      | some value => (value % 256).toNat
      | none => c.level
    if level = diagLevelDefault then
      if f.level = diagLevelDefault then false else f.isLevelEnabled f.level
    else f.isLevelEnabled level
  else true

/-- The event passes the filters and the decorators, the filter of levels
and the drop of latency `Off` included. -/
def LogCall.Passes (f : DiagLevelFilter) (c : LogCall) : Prop :=
  c.filtersPass = true ∧ c.decorates = true ∧ c.passesLevel f = true ∧ c.latency ≠ .off

instance (f : DiagLevelFilter) (c : LogCall) : Decidable (c.Passes f) :=
  inferInstanceAs (Decidable (_ ∧ _))

/-! ## The calls -/

variable (f : DiagLevelFilter) (logger : ℕ) (c : LogCall) (next : Prog)

/-- `Logger::DispatchEvent`. A dead logger hands the event to a manager
that ignores it. -/
def dispatchEvent : Prog := enter logger (leave logger next) next

/-- `Logger::CanEventPropertiesBeSent`. -/
def canEventPropertiesBeSent (next : Bool → Prog) : Prog :=
  enter logger (leave logger (next c.filtersPass)) (next false)

/-- `Logger::applyCommonDecorators`. -/
def applyCommonDecorators (next : Bool → Prog) : Prog :=
  enter logger (leave logger (next c.decorates)) (next false)

/-- `LogManagerImpl::sendEvent`. -/
def sendEvent : Prog := note (lock (unlock next))

/-- `Logger::submit`. -/
def submit : Prog :=
  enter logger
    (if !c.passesLevel f then dispatchEvent logger (leave logger next)
    else if c.latency = .off then dispatchEvent logger (leave logger next)
    else sendEvent (leave logger next)) next

/-- `Logger::LogEvent`. -/
def logEvent : Prog :=
  enter logger
    (canEventPropertiesBeSent logger c fun sent =>
      if !sent then dispatchEvent logger (leave logger done)
      else applyCommonDecorators logger c fun decorated =>
        if !decorated then leave logger done
        else submit f logger c (dispatchEvent logger (leave logger done))) done

/-- `Logger::RecordShutdown`. -/
def recordShutdown : Prog := close logger (.drain logger next)

/-- The loggers of a manager, in the order of `m_loggers`. -/
def LogManager.addresses (m : LogManager) : List ℕ := m.loggers.values.map Logger.address

/-- `LogManagerImpl::FlushAndTeardown`, as far as the loggers go. -/
def flushAndTeardown (m : LogManager) : Prog :=
  lock (if m.alive then m.addresses.foldr recordShutdown (unlock done) else unlock done)

/-- One thread and the threads of some calls, each with its logger. -/
def withCalls (first : Prog) (calls : List (ℕ × LogCall)) : ℕ → Prog
  | 0 => first
  | i + 1 =>
    match calls[i]? with
    | some call => logEvent f call.1 call.2
    | none => done

end ClientTelemetry
