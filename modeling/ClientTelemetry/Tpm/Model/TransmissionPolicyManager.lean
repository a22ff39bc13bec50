import ClientTelemetry.Model.Record
import Mathlib.Data.Finset.Basic
/-!
# The transmission policy manager

The part of `TransmissionPolicyManager` that opens and closes uploads: the
flags that keep an upload from starting, the set of active uploads, and
the handlers that end one. When a task runs is left to the run of the
system, in which a scheduled `uploadAsync` may come at any time; so the
delay a handler asks for after it has closed its upload is left out.
-/

namespace ClientTelemetry

/-- A context, by the number it was created under. -/
abbrev ContextId := ℕ

/-- **The handlers that end an upload.** -/
inductive Terminal where
  | nothingToUpload
  | packagingFailed
  | eventsUploadSuccessful
  | eventsUploadRejected
  | eventsUploadFailed
  | eventsUploadAborted
  deriving DecidableEq, Repr

/-- The state of the manager. -/
structure TransmissionPolicyManager where
  /-- `m_isPaused`. -/
  isPaused : Bool := true
  /-- `m_scheduledUploadAborted`. -/
  scheduledUploadAborted : Bool := false
  /-- `m_activeUploads`. -/
  activeUploads : Finset ContextId := ∅

namespace TransmissionPolicyManager

variable (t : TransmissionPolicyManager)

/-- `handleStart`. -/
def handleStart : TransmissionPolicyManager :=
  { t with isPaused := false }

/-- `handlePause`, through `pauseAllUploads`. -/
def handlePause : TransmissionPolicyManager :=
  { t with isPaused := true }

/-- `handleStop`, before it waits for the active uploads. -/
def handleStop : TransmissionPolicyManager :=
  { t with scheduledUploadAborted := true }

/-- `addUpload`. -/
def addUpload (c : ContextId) : TransmissionPolicyManager :=
  { t with activeUploads := insert c t.activeUploads }

/-- `removeUpload`, with the answer whether the context was there. -/
def removeUpload (c : ContextId) : Bool × TransmissionPolicyManager :=
  (c ∈ t.activeUploads, { t with activeUploads := t.activeUploads.erase c })

/-- `finishUpload`, which every handler that ends an upload goes through. -/
def finishUpload (c : ContextId) : TransmissionPolicyManager :=
  (t.removeUpload c).2

/-- `uploadAsync` goes on to open an upload. -/
def uploadsAsync : Bool :=
  !(t.isPaused || t.scheduledUploadAborted)

/-- `handleEventArrived` opens an upload right away. -/
def uploadsArrived (latency : EventLatency) : Bool :=
  !t.isPaused && decide (EventLatency.realTime.toInt < latency.toInt)

end TransmissionPolicyManager

end ClientTelemetry
