import ClientTelemetry.Api.Model.LogManagerFactory
/-!
# The C API

`mat_open` and `mat_close`. The clients are kept in a table under their
handles. The handle of a configuration string is looked for from its hash
code upwards: the search ends at the client of the same string, or at the
first handle that is free.

The log managers come from a provider, which is the factory in
`factoryProvider`. `mat_close` does not release by the configuration of
its client but by the one the manager refers to: an object that is part
of a client, of the one whose `mat_open` created the manager.
-/

namespace ClientTelemetry

/-- **A client**, `capi_client`. -/
structure CapiClient where
  logmanager : Option ManagerId := none
  config : ILogConfiguration := { factoryName := none, factoryHost := none }
  /-- Where the configuration is. -/
  configRef : ConfigRef
  /-- `ctx_data`, the string the client was opened with. -/
  ctxData : String := ""
  deriving DecidableEq

/-- What `CreateLogManager` returns: the manager, the configuration as it
is left, and the status. -/
structure CreatedManager where
  logmanager : Option ManagerId
  config : ILogConfiguration
  status : Status
  deriving DecidableEq

/-- **A provider of log managers**, `LogManagerProvider`. -/
structure LogManagerProvider (γ : Type*) where
  /-- `CreateLogManager`, with nothing if the constructor of the manager
  throws. -/
  createLogManager : γ → ConfigRef → ILogConfiguration → Option CreatedManager × γ
  /-- The configuration a manager refers to, with nothing if the manager
  has been destroyed. -/
  getLogConfiguration : γ → ManagerId → Option ConfigRef
  /-- `Release`. -/
  release : γ → ILogConfiguration → Status × γ

/-- The factory as a provider. -/
def factoryProvider : LogManagerProvider LogManagerFactory where
  createLogManager f ref c :=
    let leased := f.lease ref c
    (some ⟨some leased.1, leased.2.1, .success⟩, leased.2.2)
  getLogConfiguration f m := f.managers.find? m
  release := LogManagerFactory.releaseConfiguration

/-- What the C API is compiled with. -/
structure CapiBuild where
  hashCode : String → ℕ
  /-- `FromJSON`, with nothing if it throws. -/
  fromJson : String → Option ILogConfiguration
  /-- In `clients[code].config = FromJSON(config)` the left side is
  evaluated before the right one. The language leaves the order open. -/
  slotFirst : Bool

/-- The state of the C API. -/
structure CApi (γ : Type*) where
  /-- `clients`. -/
  clients : OrdMap ℕ CapiClient := OrdMap.empty
  provider : γ
  /-- The address of the next configuration. -/
  nextConfig : ConfigRef := 0

/-- Where the search for a handle ends. -/
inductive HandleSearch where
  /-- At the client of the same string. -/
  | taken
  | free (code : ℕ)
  deriving DecidableEq

/-- What `mat_open` does: it returns a status, and after a search that
ended at a free handle the handle. -/
inductive OpenResult where
  | returned (status : Status) (handle : Option ℕ)
  | threw
  deriving DecidableEq

/-- `mat_open` fails. -/
def OpenResult.Failed (r : OpenResult) : Prop := ∀ handle, r ≠ .returned .success handle

/-- The search for a handle, from a code upwards, past a number of
clients. -/
def searchHandle (clients : OrdMap ℕ CapiClient) (config : String) : ℕ → ℕ → HandleSearch
  | 0, code => .free code
  | n + 1, code =>
    match clients.find? code with
    | some client =>
      if client.ctxData = config then .taken else searchHandle clients config n (code + 1)
    | none => .free code

/-- The search for a handle. It passes each client at most once. -/
def findHandle (clients : OrdMap ℕ CapiClient) (config : String) (code : ℕ) : HandleSearch :=
  searchHandle clients config clients.entries.length code

/-- The module name of a client that is opened with a token. -/
def capiModuleName (code : ℕ) : String := "CAPI-Client-" ++ toString code

/-- The configuration of a client that is opened with a token. -/
def tokenConfiguration (code : ℕ) : ILogConfiguration :=
  { factoryName := some (capiModuleName code), factoryHost := some anyHost }

/-- The string is a JSON configuration and not a token. -/
def isJson (config : String) : Bool := config.toList.head? = some '\x7b'

/-- The configuration of a new client, with nothing if `FromJSON`
throws. -/
def CapiBuild.clientConfig (b : CapiBuild) (code : ℕ) (config : String) :
    Option ILogConfiguration :=
  if isJson config then b.fromJson config else some (tokenConfiguration code)

namespace CApi

variable {γ : Type*}

/-- `clients[code]` at a free handle. -/
def makeClient (api : CApi γ) (code : ℕ) : CApi γ :=
  { api with
    clients := api.clients.insert code { configRef := api.nextConfig }
    nextConfig := api.nextConfig + 1 }

/-- The client made at a free handle, with its configuration and the
string it was opened with. -/
def fillClient (api : CApi γ) (code : ℕ) (config : String) (c : ILogConfiguration) : CApi γ :=
  { api with
    clients := api.clients.insert code
      { config := c, configRef := api.nextConfig, ctxData := config }
    nextConfig := api.nextConfig + 1 }

/-- The rest of `mat_open`, after the client has been made. -/
def createManager (prov : LogManagerProvider γ) (api : CApi γ) (code : ℕ) (client : CapiClient) :
    OpenResult × CApi γ :=
  match prov.createLogManager api.provider client.configRef client.config with
  | (none, provider) => (.threw, { api with provider := provider })
  | (some created, provider) =>
    (.returned (if created.logmanager = none then .efault else created.status) (some code),
      { api with
        clients := api.clients.insert code
          { client with logmanager := created.logmanager, config := created.config }
        provider := provider })

/-- **`mat_open`**, through `mat_open_core`. -/
def matOpen (b : CapiBuild) (prov : LogManagerProvider γ) (api : CApi γ) (config : String) :
    OpenResult × CApi γ :=
  if config = "" then (.returned .efault none, api)
  else
    match findHandle api.clients config (b.hashCode config) with
    | .taken => (.returned .ealready none, api)
    | .free code =>
      match b.clientConfig code config with
      | none => (.threw, if b.slotFirst then api.makeClient code else api)
      | some c =>
        (api.fillClient code config c).createManager prov code
          { config := c, configRef := api.nextConfig, ctxData := config }

/-- The configuration at an address, with nothing if its client has been
removed. -/
def configAt (api : CApi γ) (ref : ConfigRef) : Option ILogConfiguration :=
  (api.clients.values.find? fun client => client.configRef = ref).map CapiClient.config

/-- **`mat_close`.** Nothing is returned where it would read a manager or
a configuration that has been destroyed. -/
def matClose (prov : LogManagerProvider γ) (api : CApi γ) (handle : ℕ) : Option (Status × CApi γ) :=
  match api.clients.find? handle with
  | none => some (.enoent, api)
  | some client =>
    match client.logmanager with
    | none => some (.enoent, api)
    | some m =>
      ((prov.getLogConfiguration api.provider m).bind api.configAt).map fun c =>
        ((prov.release api.provider c).1,
          { api with
            clients := api.clients.erase handle
            provider := (prov.release api.provider c).2 })

end CApi

/-- A call of the C API. -/
inductive CapiCall where
  | matOpen (config : String)
  | matClose (handle : ℕ)
  deriving DecidableEq

/-- One call. There is no state after a read of something destroyed. -/
def CApi.step {γ : Type*} (b : CapiBuild) (prov : LogManagerProvider γ) (api : Option (CApi γ)) :
    CapiCall → Option (CApi γ)
  | .matOpen config => api.map fun api => (api.matOpen b prov config).2
  | .matClose handle => api.bind fun api => (api.matClose prov handle).map Prod.snd

end ClientTelemetry
