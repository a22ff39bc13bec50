import ClientTelemetry.Model.Record
import Mathlib.Data.Finset.Basic
/-!
# The registry of log managers

`LogManagerFactory` hands out log managers by configuration. A
configuration names a module and the host it wants. A module without a
host has a manager of its own, kept in `exclusive` under its name. The
others share: the pools of `shared` are kept under their hosts, and a
module that takes any host (`"*"`) joins the first pool there is, or
opens one under `"*"` that the first named host then takes over.

A manager is known by the number it was created under, and keeps a
reference to the configuration it was created with.
-/

namespace ClientTelemetry

/-- A log manager, by the number it was created under. -/
abbrev ManagerId := ℕ

/-- A configuration object, by its address. -/
abbrev ConfigRef := ℕ

/-- `ANYHOST`. -/
def anyHost : String := "*"

/-- **A configuration**, as far as the factory reads and writes it. -/
structure ILogConfiguration where
  /-- `CFG_STR_FACTORY_NAME`. -/
  factoryName : Option String
  /-- `CFG_STR_FACTORY_HOST`, in the object `CFG_MAP_FACTORY_CONFIG`. -/
  factoryHost : Option String
  /-- `CFG_BOOL_HOST_MODE`. -/
  hostMode : Option Bool := none
  deriving DecidableEq, Repr

/-- The statuses of `status_t` and `evt_status_t` that calls of the
factory and of the C API return. -/
inductive Status where
  | success
  | efail
  | enoent
  | efault
  | ealready
  deriving DecidableEq, Repr

/-- The names that share a manager. -/
structure Pool where
  names : Finset String
  /-- `instance`. -/
  logManager : ManagerId
  deriving DecidableEq

/-- `Registry`. -/
abbrev Registry := OrdMap String Pool

/-- **The factory**, with the live managers and the configuration each of
them refers to. -/
structure LogManagerFactory where
  shared : Registry := OrdMap.empty
  exclusive : Registry := OrdMap.empty
  /-- `ILogManagerInternal::managers`. -/
  managers : OrdMap ManagerId ConfigRef := OrdMap.empty
  /-- The number of the next manager. -/
  nextManager : ManagerId := 0
  deriving DecidableEq

namespace LogManagerFactory

variable (f : LogManagerFactory)

/-- `parseConfig`: the name and the host. -/
def parseConfig (c : ILogConfiguration) : String × String :=
  (c.factoryName.getD "", c.factoryHost.getD "")

/-- `Create`. -/
def create (ref : ConfigRef) : ManagerId × LogManagerFactory :=
  (f.nextManager,
    { f with managers := f.managers.insert f.nextManager ref, nextManager := f.nextManager + 1 })

/-- `Destroy`, with the answer whether the manager was live. -/
def destroy (m : ManagerId) : Bool × LogManagerFactory :=
  (m ∈ f.managers.keys, { f with managers := f.managers.erase m })

/-- `rehome`, where `pool` is the pool of any host. -/
def rehome (pool : Pool) (name host : String) : LogManagerFactory :=
  { f with shared :=
      (f.shared.insert host { pool with names := insert name pool.names }).erase anyHost }

/-- A lease in exclusive mode. -/
def leaseExclusive (ref : ConfigRef) (name : String) : ManagerId × LogManagerFactory :=
  match f.exclusive.find? name with
  | some pool => (pool.logManager, f)
  | none =>
    let created := f.create ref
    (created.1,
      { created.2 with exclusive := f.exclusive.insert name ⟨{name}, created.1⟩ })

/-- A name joins the pool of a host. -/
def join (host : String) (pool : Pool) (name : String) : ManagerId × LogManagerFactory :=
  (pool.logManager,
    { f with shared := f.shared.insert host { pool with names := insert name pool.names } })

/-- A lease at a host. -/
def leaseShared (ref : ConfigRef) (name host : String) : ManagerId × LogManagerFactory :=
  match f.shared.find? host with
  | some pool => f.join host pool name
  | none =>
    match f.shared.find? anyHost with
    | some pool => (pool.logManager, f.rehome pool name host)
    | none =>
      let created := f.create ref
      (created.1, { created.2 with shared := f.shared.insert host ⟨{name}, created.1⟩ })

/-- The pool that a guest of any host joins, if there is one. -/
def firstPool (host : String) : Option (String × Pool) :=
  if host = anyHost then f.shared.entries.head? else none

/-- **`lease`**, with the manager and the configuration as it is left. -/
def lease (ref : ConfigRef) (c : ILogConfiguration) :
    ManagerId × ILogConfiguration × LogManagerFactory :=
  let name := (parseConfig c).1
  let host := (parseConfig c).2
  if host = "" then
    let leased := f.leaseExclusive ref name
    (leased.1, { c with hostMode := some true }, leased.2)
  else
    match f.firstPool host with
    | some (first, pool) =>
      let leased := f.join first pool name
      (leased.1, { c with hostMode := some false }, leased.2)
    | none =>
      let leased := f.leaseShared ref name host
      (leased.1, { c with hostMode := some (name = host) }, leased.2)

/-- A name leaves the pool of a host. The last one destroys the
manager. -/
def leave (host : String) (pool : Pool) (name : String) : LogManagerFactory :=
  if pool.names.erase name = ∅ then
    { (f.destroy pool.logManager).2 with shared := f.shared.erase host }
  else
    { f with shared := f.shared.insert host { pool with names := pool.names.erase name } }

/-- `release` by name, which searches the shared pools. -/
def releaseName (name : String) : Bool × LogManagerFactory :=
  match f.shared.entries.find? fun e => name ∈ e.2.names with
  | some (host, pool) => (true, f.leave host pool name)
  | none => (false, f)

/-- `release` by name and host. -/
def releaseAt (name host : String) : Bool × LogManagerFactory :=
  if host = "" then
    match f.exclusive.find? name with
    | some pool =>
      (true, { (f.destroy pool.logManager).2 with exclusive := f.exclusive.erase name })
    | none => (false, f)
  else
    match f.shared.find? host with
    | some pool =>
      if name ∈ pool.names then (true, f.leave host pool name) else f.releaseName name
    | none => f.releaseName name

/-- **`release`** by configuration. -/
def release (c : ILogConfiguration) : Bool × LogManagerFactory :=
  f.releaseAt (parseConfig c).1 (parseConfig c).2

/-- The status of a release. -/
def releaseStatus (r : Bool × LogManagerFactory) : Status × LogManagerFactory :=
  (if r.1 then .success else .efail, r.2)

/-- `Release(ILogConfiguration&)`. -/
def releaseConfiguration (c : ILogConfiguration) :
    Status × LogManagerFactory := releaseStatus (f.release c)

/-- `Release(const char*)`, which goes by the name alone. -/
def releaseModule (module : String) : Status × LogManagerFactory :=
  releaseStatus (f.releaseName module)

/-- The configuration that `Get(const char*, status_t&)` makes: its
`CFG_MAP_FACTORY_CONFIG` names no host. -/
def moduleConfiguration (module : String) : ILogConfiguration :=
  { factoryName := some module, factoryHost := none }

/-- `Get(const char*, status_t&)`. A lease returns a manager, never
`nullptr`. -/
def get (ref : ConfigRef) (module : String) : Status × ManagerId × LogManagerFactory :=
  let leased := f.lease ref (moduleConfiguration module)
  (.success, leased.1, leased.2.2)

end LogManagerFactory

end ClientTelemetry
