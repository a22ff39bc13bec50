import ClientTelemetry.Api.Model.CApi
import ClientTelemetry.Common.Run
/-!
# The table of handles

The search for a handle passes clients of other strings only
(`findHandle_spec`). So it meets the client of a string that is open
unless a handle between the hash code and that client has become free, as
`mat_close` leaves it: then the string is opened twice. The table is a map
of the strings along a run exactly if no search ends before the client it
looks for and no open fails after it has made its client
(`handle_table_is_map_iff`).
-/

namespace ClientTelemetry

variable {clients : OrdMap ℕ CapiClient} {config : String} {code : ℕ}

/-! ## The search -/

/-- The handles from a code up to another one, all of clients of other
strings. -/
def Passed (clients : OrdMap ℕ CapiClient) (config : String) (code h : ℕ) : Prop :=
  code ≤ h ∧ ∀ k, code ≤ k → k < h → ∃ client, clients.find? k = some client ∧
    client.ctxData ≠ config

theorem Passed.refl (code : ℕ) : Passed clients config code code :=
  ⟨le_rfl, fun _ hk hlt => absurd hlt (not_lt.2 hk)⟩

theorem Passed.cons {client : CapiClient} {h : ℕ} (hcode : clients.find? code = some client)
    (hne : client.ctxData ≠ config) (hrest : Passed clients config (code + 1) h) :
    Passed clients config code h := by
  refine ⟨(Nat.le_succ code).trans hrest.1, fun k hk hlt => ?_⟩
  rcases Nat.eq_or_lt_of_le hk with rfl | hk
  · exact ⟨client, hcode, hne⟩
  · exact hrest.2 k hk hlt

theorem searchHandle_spec (n code : ℕ) :
    (searchHandle clients config n code = .taken ∧ ∃ h client, Passed clients config code h ∧
      clients.find? h = some client ∧ client.ctxData = config) ∨
    ∃ h, searchHandle clients config n code = .free h ∧ Passed clients config code h ∧
      (clients.find? h = none ∨ h = code + n) := by
  induction n generalizing code with
  | zero => exact .inr ⟨code, rfl, .refl code, .inr rfl⟩
  | succ n ih =>
    rw [searchHandle]
    split
    · rename_i client hcode
      split_ifs with hdata
      · exact .inl ⟨rfl, code, client, .refl code, hcode, hdata⟩
      · rcases ih (code + 1) with ⟨htaken, h, found, hpassed, hfound⟩ | ⟨h, hfree, hpassed, hend⟩
        · exact .inl ⟨htaken, h, found, hpassed.cons hcode hdata, hfound⟩
        · exact .inr ⟨h, hfree, hpassed.cons hcode hdata, hend.imp_right fun h => by omega⟩
    · rename_i hcode
      exact .inr ⟨code, rfl, .refl code, .inl hcode⟩

/-- The table does not have more clients than it has. -/
theorem not_mem_of_passed (h : Passed clients config code (code + clients.entries.length)) :
    clients.find? (code + clients.entries.length) = none := by
  by_contra hsome
  obtain ⟨client, hclient⟩ := Option.ne_none_iff_exists'.1 hsome
  have hsub : List.range' code (clients.entries.length + 1) ⊆ clients.keys := by
    intro k hk
    rw [List.mem_range'_1] at hk
    rw [OrdMap.mem_keys_iff_find?]
    rcases Nat.lt_or_ge k (code + clients.entries.length) with hlt | hge
    · obtain ⟨found, hfound, -⟩ := h.2 k hk.1 hlt
      exact ⟨found, hfound⟩
    · obtain rfl : k = code + clients.entries.length := by omega
      exact ⟨client, hclient⟩
  have hnodup : (List.range' code (clients.entries.length + 1)).Nodup := List.nodup_range'
  have hlen := (List.subperm_of_subset hnodup hsub).length_le
  rw [List.length_range', OrdMap.keys, List.length_map] at hlen
  omega

/-- **What the search finds**: the client of the string or a free handle,
and it has passed only clients of other strings. -/
theorem findHandle_spec (code : ℕ) :
    (findHandle clients config code = .taken ∧ ∃ h client, Passed clients config code h ∧
      clients.find? h = some client ∧ client.ctxData = config) ∨
    ∃ h, findHandle clients config code = .free h ∧ Passed clients config code h ∧
      clients.find? h = none := by
  rcases searchHandle_spec clients.entries.length code with htaken | ⟨h, hfree, hpassed, hend⟩
  · exact .inl htaken
  · refine .inr ⟨h, hfree, hpassed, hend.elim id fun heq => ?_⟩
    subst heq
    exact not_mem_of_passed hpassed

/-! ## The table along a run -/

/-- The string is open. -/
def IsOpen (clients : OrdMap ℕ CapiClient) (config : String) : Prop :=
  ∃ h client, clients.find? h = some client ∧ client.ctxData = config

/-- At most one client of each string. -/
def UniqueStrings (clients : OrdMap ℕ CapiClient) : Prop :=
  ∀ {h h' client client'}, clients.find? h = some client → clients.find? h' = some client' →
    client.ctxData ≠ "" → client.ctxData = client'.ctxData → h = h'

/-- A client is at the hash code of its string or above. -/
def Above (b : CapiBuild) (clients : OrdMap ℕ CapiClient) : Prop :=
  ∀ {h client}, clients.find? h = some client → client.ctxData ≠ "" →
    b.hashCode client.ctxData ≤ h

section

variable {γ : Type*} {b : CapiBuild} {prov : LogManagerProvider γ} {api : CApi γ} {code : ℕ}
  {client : CapiClient} {c : ILogConfiguration} {s : Option (CApi γ)}

/-- **The call treats the table as a map of the strings.** -/
structure OpensAsMap (b : CapiBuild) (prov : LogManagerProvider γ) (api : CApi γ)
    (config : String) : Prop where
  /-- A string that is open is not opened again. -/
  already : IsOpen api.clients config →
    api.matOpen b prov config = (.returned .ealready none, api)
  /-- A call that fails or throws leaves the table. -/
  failed : (api.matOpen b prov config).1.Failed →
    (api.matOpen b prov config).2.clients = api.clients
  unique : UniqueStrings (api.matOpen b prov config).2.clients

/-- The client of the string, if it is open, is reached: the handles from
the hash code up to it are taken. -/
def Reached (b : CapiBuild) (clients : OrdMap ℕ CapiClient) (config : String) : Prop :=
  ∀ h client, clients.find? h = some client → client.ctxData = config →
    ∀ k, b.hashCode config ≤ k → k < h → clients.find? k ≠ none

/-- The call does not fail after it has made a client. -/
def Completes (b : CapiBuild) (prov : LogManagerProvider γ) (api : CApi γ) (config : String) :
    Prop :=
  ∀ code, findHandle api.clients config (b.hashCode config) = .free code →
    (b.clientConfig code config = none → b.slotFirst = false) ∧
    ∀ c, b.clientConfig code config = some c →
      ∃ m c', (prov.createLogManager api.provider api.nextConfig c).1 =
        some ⟨some m, c', .success⟩

/-- A client at a free handle, of a string that is not open. -/
theorem UniqueStrings.insert (h : UniqueStrings clients)
    (hnew : ¬ IsOpen clients client.ctxData) : UniqueStrings (clients.insert code client) := by
  intro k k' c c' hc hc' hne heq
  rw [OrdMap.find?_insert] at hc hc'
  split_ifs at hc with hk <;> split_ifs at hc' with hk'
  · rw [hk, hk']
  · cases hc
    exact absurd ⟨k', c', hc', heq.symm⟩ hnew
  · cases hc'
    exact absurd ⟨k, c, hc, heq⟩ hnew
  · exact h hc hc' hne heq

theorem Above.insert (h : Above b clients)
    (hcode : client.ctxData ≠ "" → b.hashCode client.ctxData ≤ code) :
    Above b (clients.insert code client) := by
  intro k c hc hne
  rw [OrdMap.find?_insert] at hc
  split_ifs at hc with hk
  · cases hc
    exact hk ▸ hcode hne
  · exact h hc hne

/-- A map that was free at a key is changed by an insertion there. -/
theorem insert_ne_self (hfree : clients.find? code = none) :
    clients.insert code client ≠ clients := by
  intro heq
  have hfind : (clients.insert code client).find? code = some client := by
    rw [OrdMap.find?_insert, if_pos rfl]
  rw [heq, hfree] at hfind
  cases hfind

/-! ## One call -/

/-- The client that a call makes at a free handle. -/
def newClient (api : CApi γ) (config : String) (c : ILogConfiguration) : CapiClient :=
  { config := c, configRef := api.nextConfig, ctxData := config }

theorem matOpen_taken (hne : config ≠ "")
    (h : findHandle api.clients config (b.hashCode config) = .taken) :
    api.matOpen b prov config = (.returned .ealready none, api) := by
  rw [CApi.matOpen, if_neg hne, h]

section

variable (hne : config ≠ "")
  (h : findHandle api.clients config (b.hashCode config) = .free code)
include hne h

theorem matOpen_throws (hc : b.clientConfig code config = none) :
    api.matOpen b prov config = (.threw, if b.slotFirst then api.makeClient code else api) := by
  rw [CApi.matOpen, if_neg hne, h]
  simp only [hc]

theorem matOpen_creates (hc : b.clientConfig code config = some c) : api.matOpen b prov config =
      (api.fillClient code config c).createManager prov code (newClient api config c) := by
  rw [CApi.matOpen, if_neg hne, h]
  simp only [hc, newClient]

/-- A result of a search that ended at a free handle is not that the
string is open. -/
theorem matOpen_free_ne : (api.matOpen b prov config).1 ≠ .returned .ealready none := by
  rcases hc : b.clientConfig code config with _ | c
  · rw [matOpen_throws hne h hc]
    exact OpenResult.noConfusion
  · rw [matOpen_creates hne h hc, CApi.createManager]
    split
    · exact OpenResult.noConfusion
    · simp

end

/-- However the manager comes out, the client stays. -/
theorem createManager_clients (c : ILogConfiguration) : ∃ client, client.ctxData = config ∧
      ((api.fillClient code config c).createManager prov code (newClient api config c)).2.clients =
        api.clients.insert code client := by
  unfold CApi.createManager
  split
  · exact ⟨newClient api config c, rfl, rfl⟩
  · rename_i created _ _
    exact ⟨{ newClient api config c with
      logmanager := created.logmanager, config := created.config }, rfl, OrdMap.insert_insert⟩

theorem createManager_failed_iff (c : ILogConfiguration) :
    ((api.fillClient code config c).createManager prov code (newClient api config c)).1.Failed ↔
      ¬ ∃ m c', (prov.createLogManager api.provider api.nextConfig c).1 =
        some ⟨some m, c', .success⟩ := by
  have hcall : prov.createLogManager (api.fillClient code config c).provider
      (newClient api config c).configRef (newClient api config c).config =
      prov.createLogManager api.provider api.nextConfig c := rfl
  unfold CApi.createManager
  rw [hcall]
  split
  · rename_i provider hcreated
    simp [OpenResult.Failed, hcreated]
  · rename_i created provider hcreated
    rcases created with ⟨_ | m, c', status⟩
    · simp [OpenResult.Failed, hcreated]
    · simp [OpenResult.Failed, hcreated]

/-- A search that meets the string. -/
theorem opensAsMap_of_taken (hunique : UniqueStrings api.clients) (hne : config ≠ "")
    (htaken : findHandle api.clients config (b.hashCode config) = .taken) :
    OpensAsMap b prov api config := by
  have hresult : api.matOpen b prov config = (.returned .ealready none, api) :=
    matOpen_taken hne htaken
  refine ⟨fun _ => hresult, fun _ => ?_, ?_⟩
  · rw [hresult]
  · rw [hresult]
    exact hunique

/-- The client that a search meets is the only one of the string. -/
theorem reached_of_passed {h : ℕ} (hunique : UniqueStrings clients)
    (hne : config ≠ "") (hpassed : Passed clients config (b.hashCode config) h)
    (hfound : clients.find? h = some client) (hdata : client.ctxData = config) :
    Reached b clients config := by
  intro h' client' hfound' hdata' k hk hlt
  obtain rfl : h' = h := hunique hfound' hfound (hdata'.trans_ne hne) (hdata'.trans hdata.symm)
  obtain ⟨other, hother, -⟩ := hpassed.2 k hk hlt
  rw [hother]
  exact Option.some_ne_none other

/-- A search that ends at a free handle, though the string is open, ends
below its client. -/
theorem not_reached_of_free (habove : Above b clients) (hne : config ≠ "")
    (hpassed : Passed clients config (b.hashCode config) code) (hnone : clients.find? code = none)
    (hopen : IsOpen clients config) : ¬ Reached b clients config := by
  intro hreached
  obtain ⟨h, client, hfound, hdata⟩ := hopen
  have hhash : b.hashCode config ≤ h := hdata ▸ habove hfound (hdata.trans_ne hne)
  have hlt : code < h := by
    by_contra hge
    rcases Nat.lt_or_ge h code with hlt | hle
    · obtain ⟨other, hother, hother_ne⟩ := hpassed.2 h hhash hlt
      rw [hfound] at hother
      cases hother
      exact hother_ne hdata
    · obtain rfl : h = code := by omega
      rw [hnone] at hfound
      cases hfound
  exact hreached h client hfound hdata code hpassed.1 hlt hnone

section

variable (hunique : UniqueStrings api.clients) (hne : config ≠ "")
  (hfree : findHandle api.clients config (b.hashCode config) = .free code)
  (hnone : api.clients.find? code = none) (hnew : ¬ IsOpen api.clients config)
include hunique hne hfree hnone hnew

/-- A new string whose configuration cannot be read. -/
theorem opensAsMap_throws_iff (hc : b.clientConfig code config = none) :
    OpensAsMap b prov api config ↔ b.slotFirst = false := by
  have hresult : api.matOpen b prov config = _ := matOpen_throws hne hfree hc
  constructor
  · intro hmap
    by_contra hslot
    have hsame := hmap.failed (by rw [hresult]; exact fun _ => OpenResult.noConfusion)
    rw [hresult, if_pos (Bool.eq_true_of_not_eq_false hslot)] at hsame
    exact insert_ne_self hnone hsame
  · intro hslot
    rw [hslot] at hresult
    refine ⟨fun h => absurd h hnew, fun _ => ?_, ?_⟩
    · rw [hresult]
      rfl
    · rw [hresult]
      exact hunique

/-- A new string whose configuration is read. -/
theorem opensAsMap_creates_iff (hc : b.clientConfig code config = some c) : OpensAsMap b prov api config ↔
      ∃ m c', (prov.createLogManager api.provider api.nextConfig c).1 =
        some ⟨some m, c', .success⟩ := by
  have hresult : api.matOpen b prov config = _ := matOpen_creates hne hfree hc
  obtain ⟨client, hdata, hclients⟩ := @createManager_clients config γ prov api code c
  constructor
  · intro hmap
    by_contra hfails
    have hsame := hmap.failed (by rw [hresult]; exact (createManager_failed_iff c).2 hfails)
    rw [hresult, hclients] at hsame
    exact insert_ne_self hnone hsame
  · intro hcreates
    refine ⟨fun h => absurd h hnew, fun hfailed => ?_, ?_⟩
    · rw [hresult] at hfailed
      exact absurd hcreates ((createManager_failed_iff c).1 hfailed)
    · rw [hresult, hclients]
      exact hunique.insert (hdata ▸ hnew)

/-- A new string. -/
theorem opensAsMap_iff_completes :
    OpensAsMap b prov api config ↔ Completes b prov api config := by
  simp only [Completes, hfree, HandleSearch.free.injEq, forall_eq']
  rcases hc : b.clientConfig code config with _ | c
  · rw [opensAsMap_throws_iff hunique hne hfree hnone hnew hc]
    simp
  · rw [opensAsMap_creates_iff hunique hne hfree hnone hnew hc]
    simp

end

/-- **One call of `mat_open`.** It treats the table as a map exactly if
its search reaches the client of the string and it does not fail after it
has made a client. -/
theorem opensAsMap_iff (hunique : UniqueStrings api.clients) (habove : Above b api.clients)
    (hne : config ≠ "") : OpensAsMap b prov api config ↔
      Reached b api.clients config ∧ (¬ IsOpen api.clients config → Completes b prov api config) := by
  rcases @findHandle_spec api.clients config (b.hashCode config) with
    ⟨htaken, h, client, hpassed, hfound, hdata⟩ | ⟨code, hfree, hpassed, hnone⟩
  · refine iff_of_true (opensAsMap_of_taken hunique hne htaken) ⟨?_, fun hclosed => ?_⟩
    · exact reached_of_passed hunique hne hpassed hfound hdata
    · exact absurd ⟨h, client, hfound, hdata⟩ hclosed
  · by_cases hopen : IsOpen api.clients config
    · refine iff_of_false (fun hmap => ?_) fun hright => ?_
      · exact matOpen_free_ne hne hfree (congrArg Prod.fst (hmap.already hopen))
      · exact not_reached_of_free habove hne hpassed hnone hopen hright.1
    · have hreached : Reached b api.clients config :=
        fun h client hfound hdata => absurd ⟨h, client, hfound, hdata⟩ hopen
      rw [opensAsMap_iff_completes hunique hne hfree hnone hopen, and_iff_right hreached,
        forall_prop_of_true hopen]

/-! ## Runs -/

/-- A client is made at its hash code or above. -/
theorem Above.matOpen (h : Above b api.clients) (config : String) :
    Above b (api.matOpen b prov config).2.clients := by
  by_cases hne : config = ""
  · rw [CApi.matOpen, if_pos hne]
    exact h
  · rcases @findHandle_spec api.clients config (b.hashCode config) with
      ⟨htaken, -⟩ | ⟨code, hfree, hpassed, -⟩
    · rw [matOpen_taken hne htaken]
      exact h
    · rcases hc : b.clientConfig code config with _ | c
      · rw [matOpen_throws hne hfree hc]
        split
        · exact h.insert fun hblank => absurd rfl hblank
        · exact h
      · obtain ⟨client, hdata, hclients⟩ := @createManager_clients config γ prov api code c
        rw [matOpen_creates hne hfree hc, hclients]
        exact h.insert fun _ => hdata ▸ hpassed.1

/-- A close only takes a client out. -/
theorem find?_of_matClose {handle : ℕ} {r : Status × CApi γ}
    (h : api.matClose prov handle = some r) {k : ℕ}
    (hfind : r.2.clients.find? k = some client) : api.clients.find? k = some client := by
  unfold CApi.matClose at h
  split at h
  · cases h
    exact hfind
  · split at h
    · cases h
      exact hfind
    · obtain ⟨c, -, rfl⟩ := Option.map_eq_some_iff.1 h
      dsimp only at hfind
      rw [OrdMap.find?_erase] at hfind
      split_ifs at hfind
      exact hfind

/-- **The call treats the table as a map of the strings**: for `mat_close`,
that it leaves at most one client of each. -/
def TableIsMap (b : CapiBuild) (prov : LogManagerProvider γ) : Option (CApi γ) → CapiCall → Prop
  | none, _ => True
  | some api, .matOpen config => config ≠ "" → OpensAsMap b prov api config
  | some api, .matClose handle =>
    ∀ r, api.matClose prov handle = some r → UniqueStrings r.2.clients

/-- The call reaches the client of its string, and does not fail after it
has made a client. -/
def ReachesAndCompletes (b : CapiBuild) (prov : LogManagerProvider γ) :
    Option (CApi γ) → CapiCall → Prop
  | none, _ => True
  | some api, .matOpen config => config ≠ "" →
    Reached b api.clients config ∧ (¬ IsOpen api.clients config → Completes b prov api config)
  | some _, .matClose _ => True

/-- What is kept along a run. -/
def TableKept (b : CapiBuild) (s : Option (CApi γ)) : Prop :=
  ∀ api, s = some api → UniqueStrings api.clients ∧ Above b api.clients

theorem tableIsMap_iff (hkept : TableKept b s) (call : CapiCall) :
    TableIsMap b prov s call ↔ ReachesAndCompletes b prov s call := by
  cases s with
  | none => exact Iff.rfl
  | some api =>
    obtain ⟨hunique, habove⟩ := hkept api rfl
    cases call with
    | matOpen config => exact forall_congr' fun hne => opensAsMap_iff hunique habove hne
    | matClose handle =>
      refine iff_of_true (fun r hr k k' c c' hc hc' => ?_) trivial
      exact hunique (find?_of_matClose hr hc) (find?_of_matClose hr hc')

theorem TableKept.step (hkept : TableKept b s) (call : CapiCall)
    (hmap : TableIsMap b prov s call) : TableKept b (CApi.step b prov s call) := by
  intro api' hstep
  cases call with
  | matOpen config =>
    obtain ⟨api, rfl, rfl⟩ := Option.map_eq_some_iff.1 hstep
    obtain ⟨hunique, habove⟩ := hkept api rfl
    refine ⟨?_, habove.matOpen config⟩
    by_cases hne : config = ""
    · rw [CApi.matOpen, if_pos hne]
      exact hunique
    · exact (hmap hne).unique
  | matClose handle =>
    obtain ⟨api, rfl, hclose⟩ := Option.bind_eq_some_iff.1 hstep
    obtain ⟨r, hr, rfl⟩ := Option.map_eq_some_iff.1 hclose
    exact ⟨hmap r hr, fun hc => (hkept api rfl).2 (find?_of_matClose hr hc)⟩

/-- **The table of handles is a map of the configuration strings** along a
run exactly if every search reaches the client of its string and no open
fails after it has made a client: for every hash code, every provider of
log managers and every sequence of calls. -/
theorem handle_table_is_map_iff (b : CapiBuild) (prov : LogManagerProvider γ) (provider : γ)
    (calls : List CapiCall) :
    RunMeets (TableIsMap b prov) (CApi.step b prov) (some { provider := provider }) calls ↔
      RunMeets (ReachesAndCompletes b prov) (CApi.step b prov) (some { provider := provider })
        calls := by
  have hinit : TableKept b (some ({ provider := provider } : CApi γ)) := by
    rintro api ⟨⟩
    exact ⟨(fun hc => nomatch hc), fun hc => nomatch hc⟩
  exact runMeets_congr (fun s call _ hkept => tableIsMap_iff hkept call)
    (fun s call _ hkept hmap => TableKept.step hkept call hmap) hinit

end

/-- Two strings with one hash code: the first is opened, the second, and
the first is closed. Then the second is opened again and has two clients.
And a text that is no JSON leaves a client where the left side of the
assignment is evaluated first. -/
theorem string_opened_twice :
    (run (CApi.step ⟨fun _ => 0, fun _ => none, false⟩ factoryProvider) (some { provider := {} })
      [.matOpen "x", .matOpen "y", .matClose 0, .matOpen "y"]).map
        (fun api => api.clients.entries.map fun e => (e.1, e.2.ctxData)) =
      some [(0, "y"), (1, "y")] ∧
    (CApi.matOpen ⟨fun _ => 0, fun _ => none, true⟩ factoryProvider { provider := {} } "\x7b").1 =
      .threw ∧
    (CApi.matOpen ⟨fun _ => 0, fun _ => none, true⟩ factoryProvider
      { provider := {} } "\x7b").2.clients ≠ OrdMap.empty := by
  decide +kernel

end ClientTelemetry
