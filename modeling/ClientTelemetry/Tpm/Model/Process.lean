import ClientTelemetry.Tpm.Model.Scheduling
/-!
# The managers of a process

`TransmitProfiles` is static: the profiles, the state of the device and
the flag that says that the timers have changed are one for all the
managers of the process. Whoever finds the flag set first fetches the
timers and clears it. A step here is a step of one manager on the common
profiles, or a call that changes them.

A dispatcher that managers share is for each of them a dispatcher with
tasks of another component.
-/

namespace ClientTelemetry

open Function

/-- **The managers and what they share.** -/
structure Process (ι κ : Type*) where
  /-- The managers; the profiles here are not used. -/
  instances : ι → PolicyRun κ
  profiles : TransmitProfiles := {}
  /-- Since the last change of the profiles, `handleEventArrived` of the
  manager has found the flag set. -/
  heard : ι → Bool := fun _ => false

/-- What can happen next. -/
inductive ProcessAction (ι κ : Type*) where
  /-- A thread calls a manager. -/
  | call (i : ι) (t : Thread κ) (c : PolicyCall)
  /-- A thread that is in a manager goes on; a wait may be over. -/
  | go (i : ι) (t : Thread κ) (timeout : Bool)
  /-- Another component queues a task. -/
  | queueOther (i : ι) (timed : Bool) (targetTime : ℕ)
  /-- A call of `TransmitProfiles`, also by the device state handler. -/
  | profile (c : ProfileCall)
  | tick

namespace Process

variable {ι κ : Type*} [DecidableEq ι] [DecidableEq κ] (s : Process ι κ)

/-- The managers as they are constructed, before any profile is used. -/
def initial (maxPendingReq : ι → ℕ) (timers : ι → ℤ × ℤ := fun _ => (0, 0)) : Process ι κ where
  instances i := .initial (maxPendingReq i) (timers i)

/-- A manager with the common profiles. -/
def view (i : ι) : PolicyRun κ := { s.instances i with profiles := s.profiles }

/-- A manager takes a step. -/
def onInstance (i : ι) (a : PolicyAction κ) : Process ι κ :=
  { s with
    instances := update s.instances i ((s.view i).step a)
    profiles := ((s.view i).step a).profiles }

/-- The thread is about to fetch the timers in `handleEventArrived`. -/
def hears (i : ι) (t : Thread κ) : Bool :=
  s.profiles.isTimerUpdateRequired && (s.instances i).pcs t = .restartTimers

/-- **One step.** -/
def step (lib : JsonLibrary) (s : Process ι κ) : ProcessAction ι κ → Process ι κ
  | .call i t c => s.onInstance i (.call t c)
  | .go i t timeout =>
    { s.onInstance i (.go t timeout) with
      heard := if s.hears i t then update s.heard i true else s.heard }
  | .queueOther i timed targetTime => s.onInstance i (.queueOther timed targetTime)
  | .profile c =>
    { s with
      profiles := s.profiles.step lib c
      -- `getTimers` clears the flag, and changes neither profile nor rule
      heard := if c = .getTimers then s.heard else fun _ => false }
  | .tick => { s with instances := fun i => (s.instances i).step .tick }

end Process

end ClientTelemetry
