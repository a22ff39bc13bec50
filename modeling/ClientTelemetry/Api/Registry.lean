import ClientTelemetry.Api.Model.LogManagerFactory
import ClientTelemetry.Common.Run
import ClientTelemetry.Common.Shares
/-!
# The registry under leases and releases

The factory is run beside a ledger of the leases that are out. Seen as
shares, with a pool's place for each host and each exclusive module,
every call is one that the library knows (`lease_spec`, `release_spec`): a
lease opens a pool, joins one, or joins one and moves it to its new host.
So the pools, the live managers and the ledger agree after any sequence of
calls (`Consistent.run`).

A lease by module name makes an exclusive pool. A release by module name
looks only at the shared ones, so it does not undo the lease; a release
by configuration does (`lease_by_name_undone_iff`).
-/

namespace ClientTelemetry

open Function LogManagerFactory List

/-- Where a pool is kept. -/
inductive PoolKey where
  | shared (host : String)
  | exclusive (name : String)
  deriving DecidableEq

/-- The pool is kept among the exclusive ones. -/
def PoolKey.isExclusive : PoolKey → Bool
  | shared _ => false
  | exclusive _ => true

theorem PoolKey.exclusive_ne_shared {name host : String} :
    PoolKey.exclusive name ≠ .shared host := fun h => nomatch h

/-- A pool as a share. A holder is a module with the kind of its pool. -/
def Pool.share (k : PoolKey) (pool : Pool) : Share (String × Bool) ManagerId :=
  ⟨pool.names ×ˢ {k.isExclusive}, pool.logManager⟩

/-- The pool at a key. -/
def poolAt (shared exclusive : Registry) : PoolKey → Option Pool
  | .shared host => shared.find? host
  | .exclusive name => exclusive.find? name

namespace LogManagerFactory

/-- The pool at a key. -/
def pool? (f : LogManagerFactory) : PoolKey → Option Pool := poolAt f.shared f.exclusive

/-- The manager has not been destroyed. -/
def Live (f : LogManagerFactory) (m : ManagerId) : Prop := m ∈ f.managers.keys

instance (f : LogManagerFactory) (m : ManagerId) : Decidable (f.Live m) :=
  inferInstanceAs (Decidable (m ∈ _))

end LogManagerFactory

/-! ## Calls -/

namespace ILogConfiguration

/-- Whom a lease is for: the module, and whether it names no host and is
to have a pool of its own. -/
def holder (c : ILogConfiguration) : String × Bool := ((parseConfig c).1, (parseConfig c).2 = "")

/-- A release by the configuration is meant for a lease: it names the
module, and a host if the lease did. -/
def releases (c lease : ILogConfiguration) : Bool := lease.holder = c.holder

end ILogConfiguration

/-- A call of the factory by configuration. -/
inductive FactoryCall where
  | lease (ref : ConfigRef) (c : ILogConfiguration)
  | release (c : ILogConfiguration)

/-- **The factory and the leases that are out.** -/
structure Leasing where
  factory : LogManagerFactory := {}
  /-- Each configuration with the manager it was given. -/
  leases : List (ILogConfiguration × ManagerId) := []

namespace Leasing

/-- One call. A lease is in the ledger until a release that is meant for
it, whatever the factory answers. -/
def step (s : Leasing) : FactoryCall → Leasing
  | .lease ref c =>
    { factory := (s.factory.lease ref c).2.2
      leases := (c, (s.factory.lease ref c).1) :: s.leases }
  | .release c =>
    { factory := (s.factory.release c).2
      leases := s.leases.filter fun l => !c.releases l.1 }

/-- A module name is leased at most once until it is released. -/
def Fresh (s : Leasing) : FactoryCall → Prop
  | .lease _ c => ∀ l ∈ s.leases, (parseConfig l.1).1 ≠ (parseConfig c).1
  | .release _ => True

instance (s : Leasing) : ∀ call, Decidable (s.Fresh call)
  | .lease _ c =>
    inferInstanceAs (Decidable (∀ l ∈ s.leases, (parseConfig l.1).1 ≠ (parseConfig c).1))
  | .release _ => inferInstanceAs (Decidable True)

/-- The shares of the pools. -/
def shareAt (pools : PoolKey → Option Pool) (k : PoolKey) : Option (Share (String × Bool) ManagerId) :=
  (pools k).map (Pool.share k)

/-- The shares of the registry. -/
def view (s : Leasing) : Shares PoolKey (String × Bool) ManagerId where
  share := shareAt s.factory.pool?
  live := {m | s.factory.Live m}
  leases := {l | l ∈ s.leases.map fun l => (l.1.holder, l.2)}

end Leasing

/-! ## The view after a write -/

section

variable {sh ex : Registry} {host name : String} {p : Pool}

theorem poolAt_insert_shared :
    poolAt (sh.insert host p) ex = update (poolAt sh ex) (.shared host) (some p) := by
  funext k
  cases k <;> simp [poolAt, OrdMap.find?_insert, update_apply]

theorem poolAt_erase_shared :
    poolAt (sh.erase host) ex = update (poolAt sh ex) (.shared host) none := by
  funext k
  cases k <;> simp [poolAt, OrdMap.find?_erase, update_apply]

theorem poolAt_insert_exclusive :
    poolAt sh (ex.insert name p) = update (poolAt sh ex) (.exclusive name) (some p) := by
  funext k
  cases k <;> simp [poolAt, OrdMap.find?_insert, update_apply]

theorem poolAt_erase_exclusive :
    poolAt sh (ex.erase name) = update (poolAt sh ex) (.exclusive name) none := by
  funext k
  cases k <;> simp [poolAt, OrdMap.find?_erase, update_apply]

end

/-! ## What a call does to the pools -/

namespace LogManagerFactory

/-- **What a lease does**, to the manager it returns. -/
inductive Leased (f g : LogManagerFactory) (h : String × Bool) (m : ManagerId) : Prop where
  /-- An exclusive module has its manager already. -/
  | again {p : Pool} (hkind : h.2 = true) (hk : f.pool? (.exclusive h.1) = some p) (hg : g = f)
  /-- A pool is opened. Under `"*"` it is the first shared one, and there
  is none under `"*"` beside it. -/
  | opened (k : PoolKey) (ref : ConfigRef) (hkind : h.2 = k.isExclusive) (hk : f.pool? k = none)
    (hexclusive : ∀ n, k = .exclusive n → n = h.1)
    (hshared : ∀ host, k = .shared host → f.pool? (.shared anyHost) = none ∧
      (host = anyHost → ∀ h, f.pool? (.shared h) = none))
    (hm : m = f.nextManager)
    (hpool : g.pool? = update f.pool? k (some ⟨{h.1}, f.nextManager⟩))
    (hmanagers : g.managers = f.managers.insert f.nextManager ref)
    (hnext : g.nextManager = f.nextManager + 1)
  /-- A shared pool is joined. -/
  | joined (host : String) {p : Pool} (hkind : h.2 = false)
    (hk : f.pool? (.shared host) = some p) (hm : m = p.logManager)
    (hpool : g.pool? = update f.pool? (.shared host) (some ⟨insert h.1 p.names, p.logManager⟩))
    (hmanagers : g.managers = f.managers) (hnext : g.nextManager = f.nextManager)
  /-- The pool of any host is joined and taken over. -/
  | rehomed (host : String) {p : Pool} (hkind : h.2 = false)
    (hany : f.pool? (.shared anyHost) = some p) (hk : f.pool? (.shared host) = none)
    (hm : m = p.logManager)
    (hpool : g.pool? = update
      (update f.pool? (.shared host) (some ⟨insert h.1 p.names, p.logManager⟩))
      (.shared anyHost) none)
    (hmanagers : g.managers = f.managers) (hnext : g.nextManager = f.nextManager)

/-- **What a release does**, to the pool it finds the name in. -/
inductive Left (f g : LogManagerFactory) (name : String) (k : PoolKey) (p : Pool) : Prop where
  /-- The last name destroys the manager. -/
  | closed (hnames : p.names = {name}) (hpool : g.pool? = update f.pool? k none)
    (hmanagers : g.managers = f.managers.erase p.logManager) (hnext : g.nextManager = f.nextManager)
  | stayed (hmem : name ∈ p.names) (hleft : (p.names.erase name).Nonempty)
    (hpool : g.pool? = update f.pool? k (some ⟨p.names.erase name, p.logManager⟩))
    (hmanagers : g.managers = f.managers) (hnext : g.nextManager = f.nextManager)

/-- **The pool has the module of a configuration**, among those that the
configuration asks for. -/
structure HeldBy (f : LogManagerFactory) (c : ILogConfiguration) (k : PoolKey) (p : Pool) :
    Prop where
  pool : f.pool? k = some p
  name : c.holder.1 ∈ p.names
  kind : c.holder.2 = k.isExclusive

variable {f : LogManagerFactory} {ref : ConfigRef} {name host : String} {p : Pool}
  {c : ILogConfiguration}

theorem leaseExclusive_spec :
    Leased f (f.leaseExclusive ref name).2 (name, true) (f.leaseExclusive ref name).1 := by
  unfold leaseExclusive
  split
  · rename_i p hp
    exact .again rfl hp rfl
  · rename_i hnone
    exact .opened (.exclusive name) ref rfl hnone (fun n h => (PoolKey.exclusive.inj h).symm)
      (fun host h => nomatch h) rfl poolAt_insert_exclusive rfl rfl

theorem join_spec (hp : f.shared.find? host = some p) :
    Leased f (f.join host p name).2 (name, false) (f.join host p name).1 :=
  .joined host rfl hp rfl poolAt_insert_shared rfl rfl

theorem leaseShared_spec (hfirst : f.firstPool host = none) :
    Leased f (f.leaseShared ref name host).2 (name, false) (f.leaseShared ref name host).1 := by
  unfold leaseShared
  split
  · rename_i p hp
    exact join_spec hp
  · rename_i hnone
    split
    · rename_i p hp
      refine .rehomed host rfl hp hnone rfl ?_ rfl rfl
      rw [pool?, rehome, poolAt_erase_shared, poolAt_insert_shared]
      rfl
    · rename_i hany
      refine .opened (.shared host) ref rfl hnone (fun n h => nomatch h) ?_ rfl
        poolAt_insert_shared rfl rfl
      rintro host' ⟨⟩
      refine ⟨hany, fun hhost h => ?_⟩
      -- a guest of any host comes here only if there is no shared pool
      rw [firstPool, if_pos hhost, head?_eq_none_iff] at hfirst
      simp [pool?, poolAt, OrdMap.find?, hfirst]

/-- **Every lease is one of these.** -/
theorem lease_spec (c : ILogConfiguration) :
    Leased f (f.lease ref c).2.2 c.holder (f.lease ref c).1 := by
  unfold lease ILogConfiguration.holder
  dsimp only
  split_ifs with hhost
  · rw [decide_eq_true hhost]
    exact leaseExclusive_spec
  · rw [decide_eq_false hhost]
    split
    · rename_i first p hfirst
      rw [firstPool] at hfirst
      split_ifs at hfirst
      exact join_spec (OrdMap.find?_eq_some.2 (mem_of_mem_head? hfirst))
    · rename_i hfirst
      exact leaseShared_spec hfirst

theorem leave_spec (hmem : name ∈ p.names) :
    Left f (f.leave host p name) name (.shared host) p := by
  unfold leave
  split_ifs with hlast
  · have hnames : p.names = {name} :=
      (Finset.erase_eq_empty_iff _ _).1 hlast |>.resolve_left (Finset.ne_empty_of_mem hmem)
    exact .closed hnames poolAt_erase_shared rfl rfl
  · exact .stayed hmem (Finset.nonempty_iff_ne_empty.2 hlast) poolAt_insert_shared rfl rfl

/-- **What a release answers**: it takes the module from the pool that has
it, or changes nothing if there is none. -/
def Released (f : LogManagerFactory) (c : ILogConfiguration) (r : Bool × LogManagerFactory) : Prop :=
  (r = (false, f) ∧ ∀ k p, ¬ f.HeldBy c k p) ∨
    r.1 = true ∧ ∃ k p, f.HeldBy c k p ∧ Left f r.2 c.holder.1 k p

theorem releaseName_spec (hshared : c.holder.2 = false) :
    Released f c (f.releaseName c.holder.1) := by
  unfold releaseName
  split
  · rename_i host p hfind
    have hmem : c.holder.1 ∈ p.names := by simpa using find?_some hfind
    exact .inr ⟨rfl, .shared host, p,
      ⟨OrdMap.find?_eq_some.2 (mem_of_find?_eq_some hfind), hmem, hshared⟩, leave_spec hmem⟩
  · rename_i hnone
    refine .inl ⟨rfl, fun k p hheld => ?_⟩
    cases k with
    | shared host =>
      have hno := find?_eq_none.1 hnone (host, p) (OrdMap.find?_eq_some.1 hheld.pool)
      exact hno (decide_eq_true hheld.name)
    | exclusive name => cases hshared.symm.trans hheld.kind

/-- **Every release is one of these**, if an exclusive module is alone
under its name. -/
theorem release_spec (halone : ∀ {n p}, f.pool? (.exclusive n) = some p → p.names = {n})
    (c : ILogConfiguration) : Released f c (f.release c) := by
  unfold release releaseAt
  split_ifs with hhost
  · have hexclusive : c.holder.2 = true := decide_eq_true hhost
    split
    · rename_i p hp
      have hmem : c.holder.1 ∈ p.names := by
        rw [halone hp]
        exact Finset.mem_singleton_self _
      exact .inr ⟨rfl, .exclusive _, p, ⟨hp, hmem, hexclusive⟩,
        .closed (halone hp) poolAt_erase_exclusive rfl rfl⟩
    · rename_i hnone
      refine .inl ⟨rfl, fun k p hheld => ?_⟩
      cases k with
      | shared host => cases hexclusive.symm.trans hheld.kind
      | exclusive name =>
        have hmem := hheld.name
        rw [halone hheld.pool, Finset.mem_singleton] at hmem
        have hpool : f.exclusive.find? c.holder.1 = some p := hmem ▸ hheld.pool
        cases hnone.symm.trans hpool
  · have hshared : c.holder.2 = false := decide_eq_false hhost
    split
    · rename_i p hp
      split_ifs with hmem
      · exact .inr ⟨rfl, .shared _, p, ⟨hp, hmem, hshared⟩, leave_spec hmem⟩
      · exact releaseName_spec hshared
    · exact releaseName_spec hshared

end LogManagerFactory

/-! ## Consistency -/

namespace Leasing

/-- **The registry, the live managers and the ledger agree.** -/
structure Consistent (s : Leasing) : Prop where
  sound : s.view.Sound
  /-- The pool of any host is the only shared one. -/
  sole : ∀ {p q host}, s.factory.pool? (.shared anyHost) = some p →
    s.factory.pool? (.shared host) = some q → host = anyHost
  /-- An exclusive module is alone under its name. -/
  alone : ∀ {name p}, s.factory.pool? (.exclusive name) = some p → p.names = {name}
  allocated : ∀ {m}, s.factory.Live m → m < s.factory.nextManager

variable {s : Leasing} {k : PoolKey} {p : Pool} {name : String} {m : ManagerId}
  {f g : LogManagerFactory} {c : ILogConfiguration} {h : String × Bool}

theorem ne_of_pool {k' : PoolKey} (hk : f.pool? k = some p) (hnone : f.pool? k' = none) : k' ≠ k := by
  rintro rfl
  cases hk.symm.trans hnone

theorem view_share_of_pool (h : s.factory.pool? k = some p) :
    s.view.share k = some (p.share k) := by
  show (s.factory.pool? k).map _ = _
  rw [h]
  rfl

theorem mem_share : h ∈ (p.share k).holders ↔ h.1 ∈ p.names ∧ h.2 = k.isExclusive := by
  rw [Pool.share, Finset.mem_product, Finset.mem_singleton]

/-- The holders of a pool with one name. -/
theorem share_singleton (hkind : h.2 = k.isExclusive) : Pool.share k ⟨{h.1}, m⟩ = ⟨{h}, m⟩ := by
  rw [Pool.share, ← hkind, Finset.singleton_product_singleton]

theorem share_insert (hkind : h.2 = k.isExclusive) :
    Pool.share k ⟨insert h.1 p.names, m⟩ = ⟨insert h (p.share k).holders, m⟩ := by
  refine congrArg (Share.mk · m) (Finset.ext fun h' => ?_)
  rw [Finset.mem_insert, mem_share, Finset.mem_product, Prod.ext_iff, Finset.mem_insert,
    Finset.mem_singleton, ← hkind]
  tauto

theorem share_erase (hkind : h.2 = k.isExclusive) :
    Pool.share k ⟨p.names.erase h.1, m⟩ = ⟨(p.share k).holders.erase h, m⟩ := by
  refine congrArg (Share.mk · m) (Finset.ext fun h' => ?_)
  rw [Finset.mem_erase, mem_share, Finset.mem_product, ne_eq, Prod.ext_iff, Finset.mem_erase,
    Finset.mem_singleton, ← hkind]
  tauto

theorem Consistent.initial : ({} : Leasing).Consistent where
  sound :=
    { held := by rintro (_ | _) p ⟨⟩
      apart := by rintro (_ | _) b p q ⟨⟩
      leases_iff := by
        intro h r
        refine ⟨(fun hl => nomatch hl), ?_⟩
        rintro ⟨_ | _, p, ⟨⟩, -⟩
      once := fun hl => nomatch hl
      live_iff := by
        intro r
        refine ⟨(fun hl => nomatch hl), ?_⟩
        rintro ⟨h, ⟨⟩⟩ }
  sole h := nomatch h
  alone h := nomatch h
  allocated h := nomatch h

/-- A name without a lease, in the view. -/
theorem unleased_of_fresh (h : ∀ l ∈ s.leases, (parseConfig l.1).1 ≠ (parseConfig c).1) :
    s.view.Unleased c.holder := by
  intro r hr
  obtain ⟨l, hl, heq⟩ := mem_map.1 hr
  exact h l hl (Prod.mk.inj (Prod.mk.inj heq).1).1

namespace Consistent

variable {g : LogManagerFactory} {ref : ConfigRef} {t : Leasing}

/-- A state that shows a sound view. -/
theorem sound_of_view {v : Shares PoolKey (String × Bool) ManagerId}
    {leases : List (ILogConfiguration × ManagerId)} {managers : OrdMap ManagerId ConfigRef} (hv : v.Sound)
    (hshare : shareAt g.pool? = v.share) (hmanagers : g.managers = managers)
    (hlive : ∀ m, m ∈ managers.keys ↔ m ∈ v.live)
    (hleases : ∀ l, l ∈ leases.map (fun l => (l.1.holder, l.2)) ↔ l ∈ v.leases) :
    (⟨g, leases⟩ : Leasing).view.Sound := by
  subst hmanagers
  have heq : (⟨g, leases⟩ : Leasing).view = v := by
    rw [view, Shares.mk.injEq]
    exact ⟨hshare, Set.ext hlive, Set.ext hleases⟩
  rwa [heq]

/-- A pool written at one key, in the view. -/
theorem share_update {pool : Option Pool} (hpool : g.pool? = update s.factory.pool? k pool) :
    shareAt g.pool? = update s.view.share k (pool.map (Pool.share k)) := by
  funext k'
  rw [hpool, shareAt]
  by_cases hk : k' = k
  · rw [hk, update_self, update_self]
  · rw [update_of_ne hk, update_of_ne hk]
    rfl

/-- A name that joins a pool. -/
theorem joins_sound (hs : s.Consistent)
    (hname : ∀ l ∈ s.leases, (parseConfig l.1).1 ≠ (parseConfig c).1)
    (hk : s.factory.pool? k = some p) (hkind : c.holder.2 = k.isExclusive) (hpool : g.pool? =
      update s.factory.pool? k (some ⟨insert c.holder.1 p.names, p.logManager⟩))
    (hmanagers : g.managers = s.factory.managers) :
    (⟨g, (c, p.logManager) :: s.leases⟩ : Leasing).view.Sound := by
  refine sound_of_view (hs.sound.joins (view_share_of_pool hk) (unleased_of_fresh hname)) ?_
    hmanagers (fun _ => Iff.rfl) fun _ => mem_cons
  rw [share_update hpool, Option.map_some, share_insert hkind]
  rfl

/-- A shared pool moved to a free host. -/
theorem moves_sound (ht : t.view.Sound) {a b : String}
    (ha : t.factory.pool? (.shared a) = some p) (hb : t.factory.pool? (.shared b) = none)
    (hpool : g.pool? = update (update t.factory.pool? (.shared b) (some p)) (.shared a) none)
    (hmanagers : g.managers = t.factory.managers) : (⟨g, t.leases⟩ : Leasing).view.Sound := by
  refine sound_of_view (ht.moves (.shared a) (.shared b)) ?_ hmanagers (fun _ => Iff.rfl)
    fun _ => Iff.rfl
  funext k
  show (g.pool? k).map _ = (t.factory.pool? (Equiv.swap (.shared a) (.shared b) k)).map _
  rw [hpool]
  by_cases hka : k = .shared a
  · rw [hka, update_self, Equiv.swap_apply_left, hb]
    rfl
  · rw [update_of_ne hka]
    by_cases hkb : k = .shared b
    · rw [hkb, update_self, Equiv.swap_apply_right, ha]
      rfl
    · rw [update_of_ne hkb, Equiv.swap_apply_of_ne_of_ne hka hkb]

section

variable (hs : s.Consistent)
include hs

/-- **A lease that is out is held**, by a pool with its manager. -/
theorem kept {l : ILogConfiguration × ManagerId} (hl : l ∈ s.leases) :
    ∃ k p, s.factory.HeldBy l.1 k p ∧ p.logManager = l.2 := by
  have hleased : (l.1.holder, l.2) ∈ s.view.leases := mem_map.2 ⟨l, hl, rfl⟩
  obtain ⟨k, q, hk, hm, hmem⟩ := hs.sound.leases_iff.1 hleased
  obtain ⟨p, hp, rfl⟩ := Option.map_eq_some_iff.1 hk
  obtain ⟨hname, hkind⟩ := mem_share.1 hmem
  exact ⟨k, p, ⟨hp, hname, hkind⟩, hm⟩

/-- A module that a pool has is leased. -/
theorem lease_of_heldBy (hheld : s.factory.HeldBy c k p) :
    ∃ l ∈ s.leases, c.releases l.1 = true ∧ l.2 = p.logManager := by
  obtain ⟨l, hl, heq⟩ := mem_map.1
    (hs.sound.leased (view_share_of_pool hheld.pool) (mem_share.2 ⟨hheld.name, hheld.kind⟩))
  exact ⟨l, hl, decide_eq_true (Prod.mk.inj heq).1, (Prod.mk.inj heq).2⟩

/-- A release that is meant for a lease finds its pool. -/
theorem heldBy_of_releases {l : ILogConfiguration × ManagerId} (hl : l ∈ s.leases)
    (h : c.releases l.1 = true) : ∃ k p, s.factory.HeldBy c k p ∧ p.logManager = l.2 := by
  obtain ⟨k, p, ⟨hpool, hname, hkind⟩, hm⟩ := hs.kept hl
  rw [of_decide_eq_true h] at hname hkind
  exact ⟨k, p, ⟨hpool, hname, hkind⟩, hm⟩

/-- The pool that has a module is one. -/
theorem heldBy_unique {k' : PoolKey} {p' : Pool} (hheld : s.factory.HeldBy c k p)
    (hheld' : s.factory.HeldBy c k' p') : k' = k ∧ p' = p := by
  obtain rfl : k' = k := hs.sound.place_eq (view_share_of_pool hheld'.pool)
    (view_share_of_pool hheld.pool) (mem_share.2 ⟨hheld'.name, hheld'.kind⟩)
    (mem_share.2 ⟨hheld.name, hheld.kind⟩)
  exact ⟨rfl, Option.some.inj (hheld'.pool.symm.trans hheld.pool)⟩

/-- The pool of any host stays the only one where no shared pool is
opened. -/
theorem sole_of_subset
    (hsub : ∀ host, s.factory.pool? (.shared host) = none → g.pool? (.shared host) = none)
    {q : Pool} {host : String} (hp : g.pool? (.shared anyHost) = some p)
    (hq : g.pool? (.shared host) = some q) : host = anyHost := by
  rcases hany : s.factory.pool? (.shared anyHost) with _ | p'
  · rw [hsub _ hany] at hp
    cases hp
  · rcases hhost : s.factory.pool? (.shared host) with _ | q'
    · rw [hsub _ hhost] at hq
      cases hq
    · exact hs.sole hany hhost

/-- What is left to show where no manager is created. -/
theorem of_no_new_manager (hsound : t.view.Sound)
    (hsole : ∀ {p q host}, t.factory.pool? (.shared anyHost) = some p →
      t.factory.pool? (.shared host) = some q → host = anyHost)
    (halone : ∀ n p, t.factory.pool? (.exclusive n) = some p → p.names = {n})
    (hlive : ∀ m, t.factory.Live m → s.factory.Live m)
    (hnext : t.factory.nextManager = s.factory.nextManager) : t.Consistent where
  sound := hsound
  sole := hsole
  alone h := halone _ _ h
  allocated h := hnext ▸ hs.allocated (hlive _ h)

/-- **A lease keeps the registry consistent.** -/
theorem lease (hname : ∀ l ∈ s.leases, (parseConfig l.1).1 ≠ (parseConfig c).1)
    (h : Leased s.factory g c.holder m) : (⟨g, (c, m) :: s.leases⟩ : Leasing).Consistent := by
  cases h with
  | again hkind hk hg =>
    -- an exclusive module is leased under its own name
    have hmem := Finset.mem_singleton_self c.holder.1
    rw [← hs.alone hk] at hmem
    obtain ⟨l, hl, hreleases, -⟩ := hs.lease_of_heldBy ⟨hk, hmem, hkind⟩
    exact absurd (congrArg Prod.fst (of_decide_eq_true hreleases)) (hname l hl)
  | opened k ref hkind hk hexclusive hshared hm hpool hmanagers hnext =>
    subst hm
    refine ⟨?_, ?_, ?_, ?_⟩
    · have hshare : s.view.share k = none := Option.map_eq_none_iff.2 hk
      have hnew : s.factory.nextManager ∉ s.view.live := fun h => (hs.allocated h).false
      refine sound_of_view (hs.sound.opens hshare hnew (unleased_of_fresh hname)) ?_ hmanagers
        (fun _ => OrdMap.mem_keys_insert) fun _ => mem_cons
      rw [share_update hpool, Option.map_some, share_singleton hkind]
    · intro p q host hp hq
      dsimp only at hp hq
      rw [hpool] at hp hq
      by_cases hkhost : ∃ h, k = .shared h
      · obtain ⟨h, rfl⟩ := hkhost
        obtain ⟨hany, hfirst⟩ := hshared h rfl
        by_cases hh : h = anyHost
        · by_contra hne
          have hkey : PoolKey.shared host ≠ .shared h :=
            fun heq => hne ((PoolKey.shared.inj heq).trans hh)
          rw [update_of_ne hkey, hfirst hh] at hq
          cases hq
        · have hkey : PoolKey.shared anyHost ≠ .shared h :=
            fun heq => hh (PoolKey.shared.inj heq).symm
          rw [update_of_ne hkey, hany] at hp
          cases hp
      · rw [update_of_ne fun h => hkhost ⟨_, h.symm⟩] at hp hq
        exact hs.sole hp hq
    · intro n p hp
      dsimp only at hp
      rw [hpool] at hp
      by_cases hkn : PoolKey.exclusive n = k
      · rw [hkn, update_self] at hp
        cases hp
        rw [hexclusive n hkn.symm]
      · rw [update_of_ne hkn] at hp
        exact hs.alone hp
    · intro m hm
      dsimp only [LogManagerFactory.Live] at hm ⊢
      rw [hmanagers, OrdMap.mem_keys_insert] at hm
      rw [hnext]
      rcases hm with rfl | hm
      · exact Nat.lt_succ_self _
      · exact Nat.lt_succ_of_lt (hs.allocated hm)
  | joined host hkind hk hm hpool hmanagers hnext =>
    subst hm
    refine hs.of_no_new_manager (hs.joins_sound hname hk hkind hpool hmanagers)
      (hs.sole_of_subset fun h hnone => ?_) (fun n p hp => hs.alone ?_) (fun m hm => ?_) hnext
    · rw [hpool, update_of_ne (ne_of_pool hk hnone), hnone]
    · rwa [hpool, update_of_ne (PoolKey.exclusive_ne_shared)] at hp
    · rwa [LogManagerFactory.Live, hmanagers] at hm
  | @rehomed host p hkind hany hk hm hpool hmanagers hnext =>
    subst hm
    -- first the name joins the pool under `"*"`, then the pool is moved
    have hjoined : (s.factory.join anyHost p c.holder.1).2.pool? = update s.factory.pool?
        (.shared anyHost) (some ⟨insert c.holder.1 p.names, p.logManager⟩) :=
      poolAt_insert_shared
    have hjoin := hs.joins_sound hname hany hkind hjoined rfl
    have hne := ne_of_pool hany hk
    refine hs.of_no_new_manager (moves_sound hjoin (a := anyHost) (b := host)
      (p := ⟨insert c.holder.1 p.names, p.logManager⟩) ?_ ?_ ?_ hmanagers)
      (fun hp _ => ?_) (fun n p hp => hs.alone ?_) (fun m hm => ?_) hnext
    · rw [hjoined, update_self]
    · rw [hjoined, update_of_ne hne, hk]
    · rw [hpool, hjoined, update_comm hne.symm, update_idem]
    · rw [hpool, update_self] at hp
      cases hp
    · rwa [hpool, update_of_ne (PoolKey.exclusive_ne_shared),
        update_of_ne (PoolKey.exclusive_ne_shared)] at hp
    · rwa [LogManagerFactory.Live, hmanagers] at hm

/-- **A release keeps the registry consistent.** -/
theorem release (hheld : s.factory.HeldBy c k p) (h : Left s.factory g c.holder.1 k p) :
    (⟨g, s.leases.filter fun l => !c.releases l.1⟩ : Leasing).Consistent := by
  obtain ⟨hk, -, hkind⟩ := hheld
  have hleases : ∀ l, l ∈ (s.leases.filter fun l => !c.releases l.1).map
        (fun l => (l.1.holder, l.2)) ↔ l ∈ {l ∈ s.view.leases | l.1 ≠ c.holder} := by
    intro l
    simp only [mem_map, mem_filter, Set.mem_ofPred_eq, view, ILogConfiguration.releases,
      Bool.not_eq_true', decide_eq_false_iff_not]
    constructor
    · rintro ⟨e, ⟨he, hno⟩, rfl⟩
      exact ⟨⟨e, he, rfl⟩, hno⟩
    · rintro ⟨⟨e, he, rfl⟩, hne⟩
      exact ⟨e, ⟨he, hne⟩, rfl⟩
  cases h with
  | closed hnames hpool hmanagers hnext =>
    have hone : (p.share k).holders = {c.holder} := by
      rw [Pool.share, hnames, ← hkind, Finset.singleton_product_singleton]
    refine hs.of_no_new_manager
      (sound_of_view (hs.sound.closes (view_share_of_pool hk) hone) (share_update hpool) hmanagers
        (fun _ => OrdMap.mem_keys_erase) hleases) (hs.sole_of_subset fun h hnone => ?_)
      (fun n q hq => hs.alone ?_) (fun m hm => ?_) hnext
    · rw [hpool, update_apply, hnone, ite_self]
    · rw [hpool, update_apply] at hq
      split_ifs at hq
      exact hq
    · rw [LogManagerFactory.Live, hmanagers, OrdMap.mem_keys_erase] at hm
      exact hm.1
  | stayed hmem hleft hpool hmanagers hnext =>
    obtain ⟨n, hn⟩ := hleft
    have hshare := share_erase (p := p) (m := p.logManager) hkind
    have hother : (n, k.isExclusive) ∈ (Pool.share k ⟨p.names.erase _, p.logManager⟩).holders :=
      mem_share.2 ⟨hn, rfl⟩
    rw [hshare] at hother
    refine hs.of_no_new_manager (sound_of_view
        (hs.sound.leaves (view_share_of_pool hk) (mem_share.2 ⟨hmem, hkind⟩) ⟨_, hother⟩) ?_
        hmanagers (fun _ => Iff.rfl) hleases) (hs.sole_of_subset fun h hnone => ?_)
      (fun n q hq => ?_) (fun m hm => ?_) hnext
    · rw [share_update hpool, Option.map_some, hshare]
      rfl
    · rw [hpool, update_of_ne (ne_of_pool hk hnone), hnone]
    · rw [hpool] at hq
      by_cases hkn : PoolKey.exclusive n = k
      · -- an exclusive module is alone, so nobody is left
        subst hkn
        rw [hs.alone hk] at hmem hn
        rw [Finset.mem_singleton.1 hmem, Finset.erase_singleton] at hn
        cases hn
      · rw [update_of_ne hkn] at hq
        exact hs.alone hq
    · rwa [LogManagerFactory.Live, hmanagers] at hm

/-- **Every call keeps the registry consistent.** -/
theorem step {call : FactoryCall} (hfresh : s.Fresh call) :
    (s.step call).Consistent := by
  cases call with
  | lease ref c => exact hs.lease hfresh (lease_spec c)
  | release c =>
    rcases release_spec hs.alone c with ⟨hfail, hnone⟩ | ⟨-, k, p, hheld, hleft⟩
    · have hsame : s.leases.filter (fun l => !c.releases l.1) = s.leases := by
        refine filter_eq_self.2 fun l hl => ?_
        rw [Bool.not_eq_true', ← Bool.not_eq_true]
        intro h
        obtain ⟨k, p, hheld, -⟩ := hs.heldBy_of_releases hl h
        exact hnone k p hheld
      rwa [Leasing.step, hfail, hsame]
    · exact hs.release hheld hleft

end

/-- After any sequence of calls the registry is consistent. -/
theorem run {calls : List FactoryCall} (h : RunMeets Fresh Leasing.step {} calls) :
    (ClientTelemetry.run Leasing.step {} calls).Consistent :=
  run_invariant (fun _ _ hs hfresh => hs.step hfresh) .initial h

end Consistent

/-! ## What a call returns and destroys -/

/-- **The pools are in order.** -/
structure PoolsInOrder (f : LogManagerFactory) : Prop where
  held : ∀ k p, f.pool? k = some p → p.names.Nonempty
  live : ∀ k p, f.pool? k = some p → f.Live p.logManager
  apart : ∀ k k' p p', f.pool? k = some p → f.pool? k' = some p' →
    p.logManager = p'.logManager → k = k'
  sole : ∀ host p q, f.pool? (.shared anyHost) = some p → f.pool? (.shared host) = some q →
    host = anyHost

theorem Consistent.poolsInOrder (hs : s.Consistent) : PoolsInOrder s.factory where
  held _ _ hk := by
    obtain ⟨h, hh⟩ := hs.sound.held (view_share_of_pool hk)
    exact ⟨h.1, (mem_share.1 hh).1⟩
  live _ _ hk := hs.sound.live_of_share (view_share_of_pool hk)
  apart _ _ _ _ hk hk' h := hs.sound.apart (view_share_of_pool hk) (view_share_of_pool hk') h
  sole _ _ _ hp hq := hs.sole hp hq

/-- The call releases the last name of the pool of a manager: it is meant
for a lease of the manager, and the pool has no other name. -/
def ReleasesLast (s : Leasing) (call : FactoryCall) (m : ManagerId) : Prop :=
  ∃ c lease k p, call = .release c ∧ (lease, m) ∈ s.leases ∧ c.releases lease = true ∧
    s.factory.pool? k = some p ∧ p.logManager = m ∧ p.names = {(parseConfig c).1}

/-- A lease destroys nothing. -/
theorem live_of_leased (h : Leased f g h m) {m' : ManagerId} (hlive : f.Live m') : g.Live m' := by
  cases h with
  | again hkind hk hg => exact hg ▸ hlive
  | opened k ref hkind hk hexclusive hshared hm hpool hmanagers hnext =>
    rw [LogManagerFactory.Live, hmanagers]
    exact OrdMap.mem_keys_insert.2 (Or.inr hlive)
  | joined host hkind hk hm hpool hmanagers hnext
  | rehomed host hkind hany hk hm hpool hmanagers hnext =>
    rwa [LogManagerFactory.Live, hmanagers]

theorem not_singleton_of_left {n : Finset String} (h : (n.erase name).Nonempty) : n ≠ {name} := by
  rintro rfl
  rw [Finset.erase_singleton] at h
  exact Finset.not_nonempty_empty h

/-- **A manager is destroyed by the release of the last name of its
pool**, and by nothing else. -/
theorem Consistent.destroyed_iff (hs : s.Consistent) (call : FactoryCall)
    (hlive : s.factory.Live m) : ¬ (s.step call).factory.Live m ↔ s.ReleasesLast call m := by
  cases call with
  | lease ref c =>
    refine ⟨fun h => absurd (live_of_leased (lease_spec c) hlive) h, ?_⟩
    rintro ⟨c', lease, k, p, hcall, -⟩
    cases hcall
  | release c =>
    rcases release_spec hs.alone c with ⟨hfail, hnone⟩ | ⟨-, k, p, hheld, hleft⟩
    · have hsame : (s.step (.release c)).factory = s.factory := by rw [Leasing.step, hfail]
      refine ⟨fun h => absurd (hsame ▸ hlive) h, ?_⟩
      rintro ⟨c', lease, k, p, hcall, hl, hreleases, -⟩
      cases hcall
      obtain ⟨k, p, hheld, -⟩ := hs.heldBy_of_releases hl hreleases
      exact absurd hheld (hnone k p)
    · have hiff : s.ReleasesLast (.release c) m ↔
          p.logManager = m ∧ p.names = {(parseConfig c).1} := by
        constructor
        · rintro ⟨c', lease, k', p', hcall, hl, hreleases, hk', hm, hnames⟩
          cases hcall
          -- the pool of the manager is the pool that has the name
          obtain ⟨k'', p'', hheld'', hm''⟩ := hs.heldBy_of_releases hl hreleases
          obtain ⟨rfl, rfl⟩ := hs.heldBy_unique hheld hheld''
          obtain rfl := hs.poolsInOrder.apart _ _ _ _ hk' hheld.pool (hm.trans hm''.symm)
          obtain rfl := Option.some.inj (hk'.symm.trans hheld.pool)
          exact ⟨hm, hnames⟩
        · rintro ⟨rfl, hnames⟩
          obtain ⟨l, hl, hreleases, hm⟩ := hs.lease_of_heldBy hheld
          exact ⟨c, l.1, k, p, rfl, hm ▸ hl, hreleases, hheld.pool, rfl, hnames⟩
      rw [hiff]
      simp only [Leasing.step, LogManagerFactory.Live] at hlive ⊢
      cases hleft with
      | closed hnames hpools hmanagers hnext =>
        rw [hmanagers, OrdMap.mem_keys_erase, not_and_not_right, imp_iff_right hlive, eq_comm]
        exact ⟨fun h => ⟨h, hnames⟩, And.left⟩
      | stayed hmem hleft hpools hmanagers hnext =>
        rw [hmanagers]
        exact iff_of_false (not_not.2 hlive) fun h => not_singleton_of_left hleft h.2

/-- **The registry serves its callers.** -/
structure Serves (s : Leasing) : Prop where
  pools : PoolsInOrder s.factory
  /-- A manager is live exactly as long as a lease of it is out. -/
  live_iff : ∀ m, s.factory.Live m ↔ ∃ c, (c, m) ∈ s.leases
  /-- A lease returns a live manager whose pool has the name. -/
  leased : ∀ ref c, s.Fresh (.lease ref c) →
    (s.step (.lease ref c)).factory.Live (s.factory.lease ref c).1 ∧
    ∃ k p, (s.step (.lease ref c)).factory.HeldBy c k p ∧
      p.logManager = (s.factory.lease ref c).1
  /-- A release that is meant for a lease succeeds, and takes its name and
  nothing else out of the pool of its manager. -/
  released : ∀ c, ∀ l ∈ s.leases, c.releases l.1 = true →
    (s.factory.release c).1 = true ∧ ∃ k p, s.factory.HeldBy c k p ∧ p.logManager = l.2 ∧
      (s.factory.release c).2.pool? = update s.factory.pool? k
        (if p.names = {(parseConfig c).1} then none
          else some ⟨p.names.erase (parseConfig c).1, p.logManager⟩)
  /-- Any other release fails and changes nothing. -/
  refused : ∀ c, (∀ l ∈ s.leases, c.releases l.1 = false) → s.factory.release c = (false, s.factory)
  /-- A call destroys a manager exactly if it releases the last name of
  its pool. -/
  destroyed_iff : ∀ call m, s.Fresh call → s.factory.Live m →
    (¬ (s.step call).factory.Live m ↔ s.ReleasesLast call m)

theorem Consistent.live_iff (hs : s.Consistent) :
    s.factory.Live m ↔ ∃ c, (c, m) ∈ s.leases := by
  refine hs.sound.live_iff.trans ⟨?_, ?_⟩
  · rintro ⟨name, h⟩
    obtain ⟨l, hl, heq⟩ := mem_map.1 h
    cases heq
    exact ⟨l.1, hl⟩
  · rintro ⟨c, hl⟩
    exact ⟨_, mem_map.2 ⟨_, hl, rfl⟩⟩

/-- What a release leaves of the pool. -/
theorem pool_of_release (h : Left f g name k p) : g.pool? = update f.pool? k
      (if p.names = {name} then none else some ⟨p.names.erase name, p.logManager⟩) := by
  cases h with
  | closed hnames hpool => rw [hpool, if_pos hnames]
  | stayed hmem hleft hpool => rw [hpool, if_neg (not_singleton_of_left hleft)]

theorem Consistent.serves (hs : s.Consistent) : s.Serves where
  pools := hs.poolsInOrder
  live_iff _ := hs.live_iff
  leased ref c hfresh := by
    obtain ⟨k, p, hheld, hm⟩ := (hs.step hfresh).kept mem_cons_self
    have hm : p.logManager = (s.factory.lease ref c).1 := hm
    exact ⟨hm ▸ (hs.step hfresh).poolsInOrder.live k p hheld.pool, k, p, hheld, hm⟩
  released c l hl hreleases := by
    obtain ⟨k, p, hheld, hm⟩ := hs.heldBy_of_releases hl hreleases
    rcases release_spec hs.alone c with ⟨-, hnone⟩ | ⟨htrue, k', p', hheld', hleft⟩
    · exact absurd hheld (hnone k p)
    · obtain ⟨rfl, rfl⟩ := hs.heldBy_unique hheld hheld'
      exact ⟨htrue, k', p', hheld', hm, pool_of_release hleft⟩
  refused c hnone := by
    rcases release_spec hs.alone c with ⟨hfail, -⟩ | ⟨-, k, p, hheld, -⟩
    · exact hfail
    · obtain ⟨l, hl, hreleases, -⟩ := hs.lease_of_heldBy hheld
      cases (hnone l hl).symm.trans hreleases
  destroyed_iff call _ _ hlive := hs.destroyed_iff call hlive

/-- **The registry of log managers is consistent** after any calls that
lease a module name at most once until it is released. -/
theorem registry_consistent {calls : List FactoryCall}
    (hcalls : RunMeets Fresh Leasing.step {} calls) :
    (ClientTelemetry.run Leasing.step {} calls).Serves :=
  (Consistent.run hcalls).serves

/-- Two guests of any host are taken over by a host; then the first guest
and the host leave. -/
def rehomedGuests : List FactoryCall :=
  [.lease 0 ⟨some "a", some anyHost, none⟩, .lease 1 ⟨some "b", some anyHost, none⟩,
    .lease 2 ⟨some "c", some "c", none⟩, .release ⟨some "a", some anyHost, none⟩,
    .release ⟨some "c", some "c", none⟩]

theorem registry_consistent_rehomed : (ClientTelemetry.run Leasing.step {} rehomedGuests).Serves ∧
      (ClientTelemetry.run Leasing.step {} rehomedGuests).leases =
        [(⟨some "b", some anyHost, none⟩, 0)] :=
  ⟨registry_consistent (by decide +kernel), by decide +kernel⟩

end Leasing

/-! ## Leases by module name -/

namespace LogManagerFactory

variable {f : LogManagerFactory} {module : String}

/-- No pool has the module. -/
structure NotLeased (f : LogManagerFactory) (module : String) : Prop where
  exclusive : f.exclusive.find? module = none
  shared : ∀ host p, f.shared.find? host = some p → module ∉ p.names

/-- The two ways to release a module. -/
inductive Releasing where
  /-- `Release(const char*)`. -/
  | byName
  /-- `Release(ILogConfiguration&)`, with the configuration of the
  lease. -/
  | byConfiguration
  deriving DecidableEq

/-- A release of a module. -/
def releasing (f : LogManagerFactory) (module : String) : Releasing → Status × LogManagerFactory
  | .byName => f.releaseModule module
  | .byConfiguration => f.releaseConfiguration (moduleConfiguration module)

/-- **The release undoes `Get`**: both succeed, the manager is destroyed
and the registries are what they were. -/
structure UndoesGet (f : LogManagerFactory) (ref : ConfigRef) (module : String)
    (r : Releasing) : Prop where
  got : (f.get ref module).1 = .success
  released : ((f.get ref module).2.2.releasing module r).1 = .success
  destroyed : ¬ ((f.get ref module).2.2.releasing module r).2.Live (f.get ref module).2.1
  shared : ((f.get ref module).2.2.releasing module r).2.shared = f.shared
  exclusive : ((f.get ref module).2.2.releasing module r).2.exclusive = f.exclusive

/-- `Get` of a module that is not leased. -/
theorem get_of_notLeased (h : f.NotLeased module) (ref : ConfigRef) :
    f.get ref module = (.success, f.nextManager,
      { (f.create ref).2 with
        exclusive := f.exclusive.insert module ⟨{module}, f.nextManager⟩ }) := by
  simp [get, moduleConfiguration, lease, parseConfig, leaseExclusive, h.exclusive, create]

/-- A release by name does not find a module in no shared pool. -/
theorem releaseModule_of_not_shared (h : ∀ host p, f.shared.find? host = some p → module ∉ p.names) :
    f.releaseModule module = (.efail, f) := by
  have hnone : (f.shared.entries.find? fun e => decide (module ∈ e.2.names)) = none := by
    rw [find?_eq_none]
    intro e he
    simpa using h e.1 e.2 (OrdMap.find?_eq_some.2 he)
  rw [releaseModule, releaseName, hnone]
  rfl

/-- A release by configuration undoes `Get`. -/
theorem undoesGet_byConfiguration (h : f.NotLeased module) (ref : ConfigRef) :
    f.UndoesGet ref module .byConfiguration := by
  have hfind : (f.exclusive.insert module ⟨{module}, f.nextManager⟩).find? module =
      some ⟨{module}, f.nextManager⟩ := by rw [OrdMap.find?_insert, if_pos rfl]
  have hrelease : (f.get ref module).2.2.releasing module .byConfiguration = (.success,
      { (f.create ref).2 with managers := (f.create ref).2.managers.erase f.nextManager }) := by
    simp [get_of_notLeased h, releasing, releaseConfiguration, releaseStatus, release, releaseAt,
      moduleConfiguration, parseConfig, hfind, destroy, create,
      OrdMap.erase_insert_of_find?_eq_none h.exclusive]
  constructor
  · rw [get_of_notLeased h]
  · rw [hrelease]
  · rw [hrelease, get_of_notLeased h]
    exact fun hlive => (OrdMap.mem_keys_erase.1 hlive).2 rfl
  · rw [hrelease]
    rfl
  · rw [hrelease]
    rfl

/-- **A lease by module name is undone by configuration, and never by
module name.** -/
theorem lease_by_name_undone_iff (h : f.NotLeased module) (ref : ConfigRef) (r : Releasing) :
    f.UndoesGet ref module r ↔ r = .byConfiguration := by
  cases r with
  | byConfiguration => exact ⟨fun _ => rfl, fun _ => undoesGet_byConfiguration h ref⟩
  | byName =>
    refine ⟨fun hundone => ?_, fun hr => nomatch hr⟩
    have hreleased := hundone.released
    have hshared : ∀ host p, (f.get ref module).2.2.shared.find? host = some p →
        module ∉ p.names := by
      rw [get_of_notLeased h]
      exact h.shared
    rw [releasing, releaseModule_of_not_shared hshared] at hreleased
    cases hreleased

/-- A guest at its host, and a module leased by its name. -/
def guestAndModule : LogManagerFactory :=
  ((({} : LogManagerFactory).lease 0 ⟨some "guest", some "host", none⟩).2.2.get 1 "other").2.2

theorem lease_by_name_undone_iff_beside : guestAndModule.pool? (.shared "host") ≠ none ∧
    guestAndModule.pool? (.exclusive "other") ≠ none ∧
    (guestAndModule.UndoesGet 2 "module" .byConfiguration ↔
      Releasing.byConfiguration = .byConfiguration) ∧
    (guestAndModule.UndoesGet 2 "module" .byName ↔ Releasing.byName = .byConfiguration) :=
  have hpools : ∀ e ∈ guestAndModule.shared.entries, "module" ∉ e.2.names := by decide +kernel
  have hfree : guestAndModule.NotLeased "module" :=
    ⟨by decide +kernel, fun host p h => hpools (host, p) (OrdMap.find?_eq_some.1 h)⟩
  ⟨by decide +kernel, by decide +kernel, lease_by_name_undone_iff hfree 2 .byConfiguration,
    lease_by_name_undone_iff hfree 2 .byName⟩

/-- A module leased by name in an empty registry. Its release by name
fails, and its manager and its pool stay. -/
theorem release_by_name_fails : ({} : LogManagerFactory).NotLeased "module" ∧
    (({} : LogManagerFactory).get 0 "module").1 = .success ∧
    ((({} : LogManagerFactory).get 0 "module").2.2.releaseModule "module").1 = .efail ∧
    ((({} : LogManagerFactory).get 0 "module").2.2.releaseModule "module").2.Live 0 ∧
    ((({} : LogManagerFactory).get 0 "module").2.2.releaseModule "module").2.exclusive ≠
      ({} : LogManagerFactory).exclusive :=
  ⟨⟨rfl, fun _ _ h => nomatch h⟩, by decide +kernel⟩

end LogManagerFactory

end ClientTelemetry
