import ClientTelemetry.Api.HandleTable
import ClientTelemetry.Api.Registry
/-!
# The guests of the C API

Clients that are opened with tokens share one log manager, each under a
module name of its own. The manager refers to the configuration of the
client that created it, and every `mat_close` releases by that one. So a
close by another client takes the wrong name from the pool, and a close
by the creator destroys the configuration of a manager that others still
use. What is left is a close by the only client there is, and along a run
the clients are closed as they should exactly if each is closed as the
only one (`guests_closed_right_iff`).
-/

namespace ClientTelemetry

open LogManagerFactory List

/-- The names in the pools. -/
def LogManagerFactory.LeasedName (f : LogManagerFactory) (name : String) : Prop :=
  ∃ k p, f.pool? k = some p ∧ name ∈ p.names

/-- The C API over the factory. -/
abbrev GuestApi := CApi LogManagerFactory

namespace CApi

/-- **The clients are served**: their managers are live, and a live
manager refers to a configuration that is there. -/
structure Served (api : GuestApi) : Prop where
  live : ∀ h client, api.clients.find? h = some client →
    ∃ m, client.logmanager = some m ∧ api.provider.Live m
  config : ∀ m ref, api.provider.managers.find? m = some ref → (api.configAt ref).isSome

/-- **A close as it should be**: it succeeds, takes the name of the client
and no other from the pools, and destroys the manager if it closes the
last client. -/
structure ClosesRight (api : GuestApi) (handle : ℕ) (client : CapiClient) (m : ManagerId)
    (api' : GuestApi) : Prop where
  logmanager : client.logmanager = some m
  succeeds : api.matClose factoryProvider handle = some (.success, api')
  leased : api.provider.LeasedName (parseConfig client.config).1
  released : ∀ name, api'.provider.LeasedName name ↔
    api.provider.LeasedName name ∧ name ≠ (parseConfig client.config).1
  destroyed : ¬ api'.provider.Live m ↔ api'.clients = OrdMap.empty
  served : api'.Served

/-- The call serves the clients as it should. -/
def ServesGuests (b : CapiBuild) : Option GuestApi → CapiCall → Prop
  | none, _ => True
  | some api, .matOpen config => (api.matOpen b factoryProvider config).2.Served
  | some api, .matClose handle => ∀ client, api.clients.find? handle = some client →
    ∃ m api', api.ClosesRight handle client m api'

/-- The call does not close a client while another one is open. -/
def ClosesOnlyOne : Option GuestApi → CapiCall → Prop
  | some api, .matClose handle => ∀ client, api.clients.find? handle = some client →
    ∀ h other, api.clients.find? h = some other → h = handle
  | _, _ => True

/-! ## The states of a run -/

/-- No client is open, and the registries are empty. -/
structure Idle (api : GuestApi) : Prop where
  clients : api.clients = OrdMap.empty
  shared : api.provider.shared = OrdMap.empty
  exclusive : api.provider.exclusive = OrdMap.empty
  managers : api.provider.managers = OrdMap.empty

/-- The clients have the manager `m`, each under its own name and with a
configuration of its own. -/
structure Listed (api : GuestApi) (m : ManagerId) (names : Finset String) : Prop where
  client : ∀ {h client}, api.clients.find? h = some client →
    client.logmanager = some m ∧ parseConfig client.config = (capiModuleName h, anyHost)
  names_iff : ∀ {name}, name ∈ names ↔
    ∃ h client, api.clients.find? h = some client ∧ name = capiModuleName h
  refs : ∀ {h h' client client'}, api.clients.find? h = some client →
    api.clients.find? h' = some client' → client.configRef = client'.configRef → h = h'
  allocated : ∀ {h client}, api.clients.find? h = some client → client.configRef < api.nextConfig

/-- **The clients share the manager `m`**, which refers to the
configuration of one of them. -/
structure SharedBy (api : GuestApi) (m : ManagerId) (ref : ConfigRef) (names : Finset String) :
    Prop extends Listed api m names where
  shared : api.provider.shared = OrdMap.singleton anyHost ⟨names, m⟩
  exclusive : api.provider.exclusive = OrdMap.empty
  managers : api.provider.managers = OrdMap.singleton m ref
  creator : ∃ h client, api.clients.find? h = some client ∧ client.configRef = ref

theorem capiModuleName_injective : Function.Injective capiModuleName := by
  intro a b h
  exact Nat.repr_inj.1 (String.append_right_inj _ |>.1 h)

section

variable {api : GuestApi} {m : ManagerId} {ref : ConfigRef} {names : Finset String}
variable {b : CapiBuild} {config : String} {code handle : ℕ} {client : CapiClient}
  {s : Option GuestApi} {call : CapiCall}

theorem configAt_isSome_iff : (api.configAt ref).isSome ↔
      ∃ h client, api.clients.find? h = some client ∧ client.configRef = ref := by
  rw [configAt, Option.isSome_map, find?_isSome]
  constructor
  · rintro ⟨client, hmem, href⟩
    obtain ⟨e, he, rfl⟩ := mem_map.1 hmem
    exact ⟨e.1, e.2, OrdMap.find?_eq_some.2 he, by simpa using href⟩
  · rintro ⟨h, client, hfind, href⟩
    refine ⟨client, mem_map.2 ⟨(h, client), OrdMap.find?_eq_some.1 hfind, rfl⟩, ?_⟩
    simpa using href

theorem SharedBy.configAt (hs : api.SharedBy m ref names)
    (hfind : api.clients.find? handle = some client) :
    api.configAt client.configRef = some client.config := by
  obtain ⟨c, hc⟩ := Option.isSome_iff_exists.1
    (configAt_isSome_iff.2 ⟨handle, client, hfind, rfl⟩)
  obtain ⟨found, hfound, rfl⟩ := Option.map_eq_some_iff.1 hc
  obtain ⟨e, he, rfl⟩ := mem_map.1 (mem_of_find?_eq_some hfound)
  have href : e.2.configRef = client.configRef := by simpa using find?_some hfound
  have hkey : e.1 = handle := hs.refs (OrdMap.find?_eq_some.2 he) hfind href
  have hval : api.clients.find? handle = some e.2 := hkey ▸ OrdMap.find?_eq_some.2 he
  rw [hc, Option.some.inj (hfind.symm.trans hval)]

/-- A configuration keeps its name and host in a lease. -/
theorem parseConfig_lease {f : LogManagerFactory} (c : ILogConfiguration) :
    parseConfig (f.lease ref c).2.1 = parseConfig c := by
  unfold LogManagerFactory.lease
  dsimp only
  split_ifs
  · rfl
  · split <;> rfl

/-- The lease for a token at the handle `code`. -/
abbrev tokenLease (api : GuestApi) (code : ℕ) :
    ManagerId × ILogConfiguration × LogManagerFactory :=
  api.provider.lease api.nextConfig (tokenConfiguration code)

/-- The first client creates the manager. -/
theorem Idle.lease (hs : api.Idle) (code : ℕ) :
    ((api.tokenLease code).1, (api.tokenLease code).2.2) = (api.provider.nextManager,
      { shared := OrdMap.singleton anyHost ⟨{capiModuleName code}, api.provider.nextManager⟩
        exclusive := OrdMap.empty
        managers := OrdMap.singleton api.provider.nextManager api.nextConfig
        nextManager := api.provider.nextManager + 1 }) := by
  have hhost : anyHost ≠ "" := by decide
  simp [LogManagerFactory.lease, tokenConfiguration, parseConfig, hhost, firstPool, leaseShared,
    hs.shared, hs.exclusive, hs.managers, OrdMap.empty, OrdMap.find?, create]
  exact ⟨rfl, rfl⟩

/-- Another client joins. -/
theorem SharedBy.lease (hs : api.SharedBy m ref names) (code : ℕ) :
    ((api.tokenLease code).1, (api.tokenLease code).2.2) = (m, { api.provider with
      shared := OrdMap.singleton anyHost ⟨insert (capiModuleName code) names, m⟩ }) := by
  have hhost : anyHost ≠ "" := by decide
  have hfirst : api.provider.firstPool anyHost = some (anyHost, ⟨names, m⟩) := by
    rw [firstPool, if_pos rfl, hs.shared]
    rfl
  simp [LogManagerFactory.lease, tokenConfiguration, parseConfig, hhost, hfirst, join, hs.shared,
    OrdMap.insert_singleton]

/-! ## Opens -/

theorem Idle.served (hs : api.Idle) : api.Served where
  live h client hfind := by
    rw [hs.clients] at hfind
    cases hfind
  config m ref hfind := by
    rw [hs.managers] at hfind
    cases hfind

theorem SharedBy.live (hs : api.SharedBy m ref names) : api.provider.Live m := by
  rw [LogManagerFactory.Live, hs.managers, OrdMap.mem_keys_iff_find?]
  exact ⟨ref, OrdMap.find?_singleton_self⟩

theorem SharedBy.served (hs : api.SharedBy m ref names) : api.Served where
  live h client hfind := ⟨m, (hs.client hfind).1, hs.live⟩
  config m' ref' hfind := by
    have hm : m' = m := by
      by_contra hne
      rw [hs.managers, OrdMap.find?_singleton_of_ne hne] at hfind
      cases hfind
    rw [hs.managers, hm, OrdMap.find?_singleton_self] at hfind
    cases hfind
    exact configAt_isSome_iff.2 hs.creator

theorem Idle.listed (hs : api.Idle) (m : ManagerId) : api.Listed m ∅ := by
  have hnone : ∀ h, api.clients.find? h = none := fun h => by rw [hs.clients]; rfl
  constructor <;> simp [hnone]

section

variable (hne : config ≠ "") (htoken : isJson config = false)
  (hfree : findHandle api.clients config (b.hashCode config) = .free code)
include hne htoken hfree

/-- `mat_open` of a token at a free handle. -/
theorem matOpen_token :
    (api.matOpen b factoryProvider config).2 =
      { clients := api.clients.insert code
          ⟨some (api.tokenLease code).1, (api.tokenLease code).2.1, api.nextConfig, config⟩
        provider := (api.tokenLease code).2.2
        nextConfig := api.nextConfig + 1 } := by
  have hc : b.clientConfig code config = some (tokenConfiguration code) := by
    rw [CapiBuild.clientConfig, htoken, if_neg Bool.false_ne_true]
  rw [matOpen_creates hne hfree hc]
  simp only [createManager, fillClient, newClient, factoryProvider, OrdMap.insert_insert]

/-- The client that `mat_open` adds. -/
theorem find?_matOpen (h : ℕ) :
    (api.matOpen b factoryProvider config).2.clients.find? h =
      if h = code then
        some ⟨some (api.tokenLease code).1, (api.tokenLease code).2.1, api.nextConfig, config⟩
      else api.clients.find? h := by
  rw [matOpen_token hne htoken hfree]
  exact OrdMap.find?_insert

/-- A client that is given the manager of the others. -/
theorem Listed.matOpen (hs : api.Listed m names) (hnone : api.clients.find? code = none)
    (hm : (api.tokenLease code).1 = m) :
    (api.matOpen b factoryProvider config).2.Listed m (insert (capiModuleName code) names) := by
  have hfind := find?_matOpen hne htoken hfree
  rw [hm] at hfind
  constructor
  · intro h client hclient
    rw [hfind] at hclient
    split_ifs at hclient with hcode
    · cases hclient
      exact ⟨rfl, hcode ▸ parseConfig_lease _⟩
    · exact hs.client hclient
  · intro name
    rw [Finset.mem_insert, hs.names_iff]
    constructor
    · rintro (rfl | ⟨h, client, hclient, rfl⟩)
      · exact ⟨code, _, (hfind code).trans (if_pos rfl), rfl⟩
      · have hcode : h ≠ code := by
          rintro rfl
          rw [hnone] at hclient
          cases hclient
        exact ⟨h, client, (hfind h).trans ((if_neg hcode).trans hclient), rfl⟩
    · rintro ⟨h, client, hclient, rfl⟩
      rw [hfind] at hclient
      split_ifs at hclient with hcode
      · exact Or.inl (hcode ▸ rfl)
      · exact Or.inr ⟨h, client, hclient, rfl⟩
  · intro h h' client client' hclient hclient' href
    rw [hfind] at hclient hclient'
    split_ifs at hclient with hcode <;> split_ifs at hclient' with hcode'
    · rw [hcode, hcode']
    · cases hclient
      exact absurd href (hs.allocated hclient').ne'
    · cases hclient'
      exact absurd href (hs.allocated hclient).ne
    · exact hs.refs hclient hclient' href
  · intro h client hclient
    rw [hfind] at hclient
    rw [matOpen_token hne htoken hfree]
    split_ifs at hclient with hcode
    · cases hclient
      exact Nat.lt_succ_self _
    · exact Nat.lt_succ_of_lt (hs.allocated hclient)

/-- The first client. -/
theorem Idle.matOpen (hs : api.Idle) :
    (api.matOpen b factoryProvider config).2.SharedBy api.provider.nextManager api.nextConfig
      {capiModuleName code} := by
  obtain ⟨hm, hf⟩ := Prod.mk.inj (hs.lease code)
  have hnone : api.clients.find? code = none := by rw [hs.clients]; rfl
  have hprovider : (api.matOpen b factoryProvider config).2.provider = _ :=
    (congrArg CApi.provider (matOpen_token hne htoken hfree)).trans hf
  refine ⟨(hs.listed _).matOpen hne htoken hfree hnone hm, ?_, ?_, ?_, ?_⟩
  · rw [hprovider]
  · rw [hprovider]
  · rw [hprovider]
  · exact ⟨code, _, (find?_matOpen hne htoken hfree code).trans (if_pos rfl), rfl⟩

/-- Another client. -/
theorem SharedBy.matOpen (hs : api.SharedBy m ref names)
    (hnone : api.clients.find? code = none) :
    (api.matOpen b factoryProvider config).2.SharedBy m ref
      (insert (capiModuleName code) names) := by
  obtain ⟨hm, hf⟩ := Prod.mk.inj (hs.lease code)
  have hprovider : (api.matOpen b factoryProvider config).2.provider = _ :=
    (congrArg CApi.provider (matOpen_token hne htoken hfree)).trans hf
  refine ⟨hs.toListed.matOpen hne htoken hfree hnone hm, ?_, ?_, ?_, ?_⟩
  · rw [hprovider]
  · rw [hprovider]
    exact hs.exclusive
  · rw [hprovider]
    exact hs.managers
  · obtain ⟨h, client, hclient, href⟩ := hs.creator
    have hcode : h ≠ code := by
      rintro rfl
      rw [hnone] at hclient
      cases hclient
    exact ⟨h, client, (find?_matOpen hne htoken hfree h).trans ((if_neg hcode).trans hclient), href⟩

end

/-! ## Closes -/

section

variable (hs : api.SharedBy m ref names)
include hs

/-- The names of the pools are those of the one pool. -/
theorem SharedBy.leasedName_iff {name : String} :
    api.provider.LeasedName name ↔ name ∈ names := by
  constructor
  · rintro ⟨k, p, hk, hmem⟩
    cases k with
    | shared host =>
      rw [pool?, poolAt, hs.shared] at hk
      by_cases hhost : host = anyHost
      · rw [hhost, OrdMap.find?_singleton_self] at hk
        cases hk
        exact hmem
      · rw [OrdMap.find?_singleton_of_ne hhost] at hk
        cases hk
    | exclusive n =>
      rw [pool?, poolAt, hs.exclusive] at hk
      cases hk
  · intro hmem
    refine ⟨.shared anyHost, ⟨names, m⟩, ?_, hmem⟩
    rw [pool?, poolAt, hs.shared, OrdMap.find?_singleton_self]

/-- **Every close releases the name of the creator.** -/
theorem SharedBy.matClose {creator : ℕ} {first : CapiClient}
    (hcreator : api.clients.find? creator = some first) (href : first.configRef = ref)
    (hfind : api.clients.find? handle = some client) :
    api.matClose factoryProvider handle = some (.success,
      { api with
        clients := api.clients.erase handle
        provider := api.provider.leave anyHost ⟨names, m⟩ (capiModuleName creator) }) := by
  have hhost : anyHost ≠ "" := by decide
  have hmem : capiModuleName creator ∈ names := hs.names_iff.2 ⟨creator, first, hcreator, rfl⟩
  have hrelease : api.provider.releaseConfiguration first.config =
      (.success, api.provider.leave anyHost ⟨names, m⟩ (capiModuleName creator)) := by
    simp [releaseConfiguration, releaseStatus, release, releaseAt, (hs.client hcreator).2, hhost,
      hs.shared, hmem]
  have hconfig : api.configAt ref = some first.config := href ▸ hs.configAt hcreator
  simp [CApi.matClose, hfind, (hs.client hfind).1, factoryProvider, hs.managers, hconfig, hrelease]

variable (hfind : api.clients.find? handle = some client)
include hfind

/-- **The only client is closed**, and nothing is left. -/
theorem SharedBy.matClose_only
    (honly : ∀ h other, api.clients.find? h = some other → h = handle) :
    ∃ api' : GuestApi, api.matClose factoryProvider handle = some (.success, api') ∧ api'.Idle := by
  obtain ⟨creator, first, hcreator, href⟩ := hs.creator
  have hnames : names.erase (capiModuleName creator) = ∅ := by
    rw [Finset.eq_empty_iff_forall_notMem]
    intro name hname
    rw [Finset.mem_erase, hs.names_iff] at hname
    obtain ⟨hne, h, other, hother, rfl⟩ := hname
    exact hne (by rw [honly h other hother, honly creator first hcreator])
  refine ⟨_, hs.matClose hcreator href hfind, ?_⟩
  constructor
  · refine OrdMap.ext_find? fun h => ?_
    dsimp only
    rw [OrdMap.find?_erase]
    split_ifs with hh
    · rfl
    · rcases hother : api.clients.find? h with _ | other
      · rfl
      · exact absurd (honly h other hother) hh
  · simp [leave, hnames, hs.shared, OrdMap.erase_singleton]
  · simp [leave, hnames, destroy, hs.exclusive]
  · simp [leave, hnames, destroy, hs.managers, OrdMap.erase_singleton]

/-- A close while another client is open is not as it should be. -/
theorem SharedBy.only_of_closesRight {m' : ManagerId}
    {api' : GuestApi}
    (hright : api.ClosesRight handle client m' api') :
    ∀ h other, api.clients.find? h = some other → h = handle := by
  intro h other hother
  by_contra hne
  obtain ⟨creator, first, hcreator, href⟩ := hs.creator
  have hclose := hs.matClose hcreator href hfind
  obtain rfl : _ = api' :=
    congrArg Prod.snd (Option.some.inj (hclose.symm.trans hright.succeeds))
  have hname : (parseConfig client.config).1 = capiModuleName handle := by
    rw [(hs.client hfind).2]
  -- somebody else is left in the pool
  have hleft : ∀ k c, api.clients.find? k = some c → k ≠ creator →
      capiModuleName k ∈ names.erase (capiModuleName creator) := by
    intro k c hk hkc
    rw [Finset.mem_erase]
    exact ⟨fun heq => hkc (capiModuleName_injective heq), hs.names_iff.2 ⟨k, c, hk, rfl⟩⟩
  have hstays : api.provider.leave anyHost ⟨names, m⟩ (capiModuleName creator) =
      { api.provider with
        shared := OrdMap.singleton anyHost ⟨names.erase (capiModuleName creator), m⟩ } := by
    have hnonempty : names.erase (capiModuleName creator) ≠ ∅ := by
      by_cases hc : handle = creator
      · exact Finset.ne_empty_of_mem (hleft h other hother (hc ▸ hne))
      · exact Finset.ne_empty_of_mem (hleft handle client hfind hc)
    rw [leave, if_neg hnonempty, hs.shared, OrdMap.insert_singleton]
  by_cases hc : handle = creator
  · -- the creator's configuration goes before the manager
    subst hc
    have hmanager : (api.provider.leave anyHost ⟨names, m⟩
        (capiModuleName handle)).managers.find? m = some ref := by
      rw [hstays, hs.managers, OrdMap.find?_singleton_self]
    obtain ⟨k, c, hk, hkref⟩ := configAt_isSome_iff.1 (hright.served.config m ref hmanager)
    dsimp only at hk
    rw [OrdMap.find?_erase] at hk
    split_ifs at hk with hkh
    exact hkh (hs.refs hk hcreator (hkref.trans href.symm))
  · -- the name of this client is still in the pool
    have hstill : (api.provider.leave anyHost ⟨names, m⟩
        (capiModuleName creator)).LeasedName (capiModuleName handle) := by
      refine ⟨.shared anyHost, ⟨names.erase (capiModuleName creator), m⟩, ?_,
        hleft handle client hfind hc⟩
      rw [hstays, pool?, poolAt, OrdMap.find?_singleton_self]
    exact ((hright.released _).1 hstill).2 hname.symm

end

/-! ## Runs -/

/-- The states of a run in which clients are closed as they should. -/
def GuestsKept : Option GuestApi → Prop
  | none => True
  | some api => api.Idle ∨ ∃ m ref names, api.SharedBy m ref names

section

variable (hkept : GuestsKept (some api))
include hkept

/-- The next state after an open of a token. -/
theorem GuestsKept.matOpen (htoken : isJson config = false) :
    GuestsKept (some (api.matOpen b factoryProvider config).2) := by
  by_cases hne : config = ""
  · rwa [CApi.matOpen, if_pos hne]
  · rcases @findHandle_spec api.clients config (b.hashCode config) with
      ⟨htaken, -⟩ | ⟨code, hfree, -, hnone⟩
    · rwa [matOpen_taken hne htaken]
    · rcases hkept with hidle | ⟨m, ref, names, hs⟩
      · exact Or.inr ⟨_, _, _, hidle.matOpen hne htoken hfree⟩
      · exact Or.inr ⟨_, _, _, hs.matOpen hne htoken hfree hnone⟩

theorem GuestsKept.served : api.Served := by
  rcases hkept with hidle | ⟨m, ref, names, hs⟩
  · exact hidle.served
  · exact hs.served

/-- **One close.** -/
theorem closesRight_iff
    (hfind : api.clients.find? handle = some client) :
    (∃ m api', api.ClosesRight handle client m api') ↔
      ∀ h other, api.clients.find? h = some other → h = handle := by
  rcases hkept with hidle | ⟨m, ref, names, hs⟩
  · rw [hidle.clients] at hfind
    cases hfind
  · constructor
    · rintro ⟨m', api', hright⟩
      exact hs.only_of_closesRight hfind hright
    · intro honly
      obtain ⟨api', hclose, hidle⟩ := hs.matClose_only hfind honly
      have hnone : ∀ name, ¬ api'.provider.LeasedName name := by
        rintro name ⟨k, p, hk, -⟩
        cases k with
        | shared host =>
          rw [pool?, poolAt, hidle.shared] at hk
          cases hk
        | exclusive n =>
          rw [pool?, poolAt, hidle.exclusive] at hk
          cases hk
      have hname : (parseConfig client.config).1 = capiModuleName handle := by
        rw [(hs.client hfind).2]
      refine ⟨m, api', (hs.client hfind).1, hclose, ?_, fun name => ?_, ?_, hidle.served⟩
      · rw [hs.leasedName_iff, hname]
        exact hs.names_iff.2 ⟨handle, client, hfind, rfl⟩
      · refine iff_of_false (hnone name) ?_
        rintro ⟨hleased, hne⟩
        rw [hs.leasedName_iff, hs.names_iff] at hleased
        obtain ⟨h, other, hother, rfl⟩ := hleased
        exact hne (by rw [hname, honly h other hother])
      · refine iff_of_true ?_ hidle.clients
        rw [LogManagerFactory.Live, hidle.managers]
        exact not_mem_nil

end

theorem servesGuests_iff (hkept : GuestsKept s)
    (htoken : ∀ config, call = .matOpen config → isJson config = false) :
    ServesGuests b s call ↔ ClosesOnlyOne s call := by
  cases s with
  | none => cases call <;> exact Iff.rfl
  | some api =>
    cases call with
    | matOpen config => exact iff_of_true (hkept.matOpen (htoken config rfl)).served trivial
    | matClose handle =>
      exact forall_congr' fun client => forall_congr' fun hfind => closesRight_iff hkept hfind

theorem GuestsKept.step (hkept : GuestsKept s)
    (htoken : ∀ config, call = .matOpen config → isJson config = false)
    (hserves : ServesGuests b s call) : GuestsKept (CApi.step b factoryProvider s call) := by
  cases s with
  | none => cases call <;> exact trivial
  | some api =>
    cases call with
    | matOpen config => exact hkept.matOpen (htoken config rfl)
    | matClose handle =>
      rcases hfind : api.clients.find? handle with _ | client
      · have hsame : api.matClose factoryProvider handle = some (.enoent, api) := by
          rw [CApi.matClose, hfind]
        rw [CApi.step, Option.bind_some, hsame]
        exact hkept
      · obtain ⟨m, api', hright⟩ := hserves client hfind
        have honly := (closesRight_iff hkept hfind).1 ⟨m, api', hright⟩
        rw [CApi.step, Option.bind_some, hright.succeeds]
        rcases hkept with hidle | ⟨m, ref, names, hs⟩
        · rw [hidle.clients] at hfind
          cases hfind
        · obtain ⟨api'', hclose, hidle⟩ := hs.matClose_only hfind honly
          rw [hright.succeeds] at hclose
          cases hclose
          exact Or.inl hidle

/-- **The guests of the C API are closed right** along a run with tokens,
whatever the hash code, exactly if no client is closed while another one
is open. -/
theorem guests_closed_right_iff (b : CapiBuild) {calls : List CapiCall}
    (htokens : ∀ config, .matOpen config ∈ calls → isJson config = false) :
    RunMeets (ServesGuests b) (CApi.step b factoryProvider) (some { provider := {} }) calls ↔
      RunMeets ClosesOnlyOne (CApi.step b factoryProvider) (some { provider := {} }) calls := by
  have hinit : GuestsKept (some { provider := {} }) := Or.inl ⟨rfl, rfl, rfl, rfl⟩
  exact runMeets_congr
    (fun s call hcall hkept => servesGuests_iff hkept fun config h => htokens config (h ▸ hcall))
    (fun s call hcall hkept => GuestsKept.step hkept fun config h => htokens config (h ▸ hcall))
    hinit

theorem guests_closed_right_iff_of_two :
    RunMeets (ServesGuests ⟨fun _ => 0, fun _ => none, true⟩)
        (CApi.step ⟨fun _ => 0, fun _ => none, true⟩ factoryProvider) (some { provider := {} })
        [.matOpen "a", .matOpen "b", .matClose 0] ↔ RunMeets ClosesOnlyOne
        (CApi.step ⟨fun _ => 0, fun _ => none, true⟩ factoryProvider) (some { provider := {} })
        [.matOpen "a", .matOpen "b", .matClose 0] :=
  guests_closed_right_iff _ fun config hmem => by
    simp only [mem_cons, CapiCall.matOpen.injEq, reduceCtorEq, not_mem_nil, or_false] at hmem
    rcases hmem with rfl | rfl <;> decide +kernel

/-- Two clients. If the second is closed first, it takes the name of the
first from the pool, and the close of the first fails. If the first is
closed first, the close of the second reads a configuration that has been
destroyed. -/
theorem second_close_goes_wrong :
    ((run (CApi.step ⟨fun _ => 0, fun _ => none, true⟩ factoryProvider) (some { provider := {} })
      [.matOpen "a", .matOpen "b", .matClose 1]).bind
        fun api => (api.matClose factoryProvider 0).map Prod.fst) = some .efail ∧
    (run (CApi.step ⟨fun _ => 0, fun _ => none, true⟩ factoryProvider) (some { provider := {} })
      [.matOpen "a", .matOpen "b", .matClose 0, .matClose 1]).isNone = true := by
  decide +kernel

end

end CApi

end ClientTelemetry
