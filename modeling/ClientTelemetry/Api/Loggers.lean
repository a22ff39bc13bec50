import ClientTelemetry.Api.Model.LogManager
/-!
# Which calls share a logger

A call returns the logger under its key, and makes it if there is none
(`getLogger_spec`). Along a sequence of calls a logger made stays under
its key, with the token and the source of the call that made it
(`Served`). Two calls so share a logger exactly if they share a key, and
the tenants stay apart exactly if the key tells the pairs of token and
source apart that the calls bring (`loggers_never_mix_iff`), which it does
not always.
-/

namespace ClientTelemetry

open List

/-- Two looks at one object. Its level may have been set in between. -/
structure Logger.SameObject (a b : Logger) : Prop where
  address : a.address = b.address
  tenantToken : a.tenantToken = b.tenantToken
  source : a.source = b.source

theorem Logger.SameObject.refl (a : Logger) : a.SameObject a := ⟨rfl, rfl, rfl⟩

theorem Logger.SameObject.trans {a b c : Logger} (h : a.SameObject b) (h' : b.SameObject c) :
    a.SameObject c :=
  ⟨h.address.trans h'.address, h.tenantToken.trans h'.tenantToken, h.source.trans h'.source⟩

namespace LogManager

variable {m : LogManager} {call : GetLoggerCall} {answers : List (GetLoggerCall × Option Logger)}

/-- The logger at a key is returned, and no other entry is touched. -/
theorem returnLogger_spec {k : String} {logger : Logger} (hfind : m.loggers.find? k = some logger) :
    ∃ returned, (m.returnLogger k).1 = some returned ∧ returned.SameObject logger ∧
      (m.returnLogger k).2.alive = m.alive ∧ (m.returnLogger k).2.loggers.find? k = some returned ∧
      ∀ k', k' ≠ k → (m.returnLogger k).2.loggers.find? k' = m.loggers.find? k' := by
  have hhash : logger.hash = k := hash_of_find? hfind
  unfold returnLogger
  split
  · rename_i hnone
    rw [hfind] at hnone
    cases hnone
  · rename_i found hfound
    obtain rfl : logger = found := Option.some.inj (hfind.symm.trans hfound)
    split_ifs with hlevel
    · refine ⟨_, rfl, ⟨rfl, rfl, rfl⟩, rfl, ?_, fun k' hk' => ?_⟩
      · rw [setLevel, OrdMap.find?_insert, if_pos hhash.symm]
      · rw [setLevel, OrdMap.find?_insert, if_neg (hhash ▸ hk')]
    · exact ⟨logger, rfl, .refl logger, rfl, hfind, fun _ _ => rfl⟩

/-- **What a call of a live manager does.** It returns the logger under
its key, which was there or is made of the token and source of the call,
and the loggers under other keys stay. -/
theorem getLogger_spec (halive : m.alive = true) (call : GetLoggerCall) :
    ∃ returned, (m.getLogger call).1 = some returned ∧ (m.getLogger call).2.alive = true ∧
      (m.getLogger call).2.loggers.find? call.hash = some returned ∧
      (∀ k, k ≠ call.hash → (m.getLogger call).2.loggers.find? k = m.loggers.find? k) ∧
      ((m.loggers.find? call.hash = none ∧ returned.tenantToken = call.normalizedTenantToken ∧
          returned.source = call.normalizedSource) ∨
        ∃ logger, m.loggers.find? call.hash = some logger ∧ returned.SameObject logger) := by
  have hlive : ¬ (!m.alive) = true := by simp [halive]
  rcases hfind : m.loggers.find? call.hash with _ | logger
  · have heq : m.getLogger call = (m.makeLogger call).returnLogger call.hash := by
      rw [getLogger, if_neg hlive, hfind]
    obtain ⟨returned, hret, hsame, hal, hat, hframe⟩ := returnLogger_spec (m := m.makeLogger call)
      (by rw [makeLogger, OrdMap.find?_insert, if_pos rfl])
    rw [heq]
    refine ⟨returned, hret, hal.trans halive, hat, fun k hk => ?_, Or.inl ⟨rfl, hsame.tenantToken,
      hsame.source⟩⟩
    rw [hframe k hk, makeLogger, OrdMap.find?_insert, if_neg hk]
  · have heq : m.getLogger call = m.returnLogger call.hash := by
      rw [getLogger, if_neg hlive, hfind]
    obtain ⟨returned, hret, hsame, hal, hat, hframe⟩ := returnLogger_spec hfind
    rw [heq]
    exact ⟨returned, hret, hal.trans halive, hat, hframe, Or.inr ⟨logger, rfl, hsame⟩⟩

/-! ## Sequences of calls -/

/-- **The manager after some calls.** Each call was answered with the
object that is under its key now, and each logger there was made for one
of the calls. -/
structure Served (m : LogManager) (answers : List (GetLoggerCall × Option Logger)) : Prop where
  alive : m.alive = true
  kept : ∀ a ∈ answers, ∃ returned logger, a.2 = some returned ∧
    m.loggers.find? a.1.hash = some logger ∧ returned.SameObject logger
  asked : ∀ k logger, m.loggers.find? k = some logger → ∃ a ∈ answers, a.1.hash = k ∧
    logger.tenantToken = a.1.normalizedTenantToken ∧ logger.source = a.1.normalizedSource

theorem Served.started (defaultLevel : ℕ) : (LogManager.started defaultLevel).Served [] :=
  ⟨rfl, (fun _ h => nomatch h), (fun _ _ h => nomatch h)⟩

/-- One call. -/
theorem Served.getLogger (h : m.Served answers) (call : GetLoggerCall) :
    (m.getLogger call).2.Served (answers ++ [(call, (m.getLogger call).1)]) := by
  obtain ⟨returned, hret, halive, hat, hframe, hfrom⟩ := getLogger_spec h.alive call
  rw [hret]
  refine ⟨halive, fun a ha => ?_, fun k logger hk => ?_⟩
  · obtain ha | rfl : a ∈ answers ∨ a = (call, some returned) :=
      (mem_append.1 ha).imp_right mem_singleton.1
    · obtain ⟨before, logger, hbefore, hfind, hsame⟩ := h.kept a ha
      by_cases hkey : a.1.hash = call.hash
      · -- the logger under the key was there, so it is the one returned
        obtain ⟨hnone, -⟩ | ⟨logger', hfind', hsame'⟩ := hfrom
        · rw [hkey, hnone] at hfind
          cases hfind
        · obtain rfl : logger' = logger := Option.some.inj (hfind'.symm.trans (hkey ▸ hfind))
          exact ⟨before, returned, hbefore, hkey ▸ hat,
            hsame.trans ⟨hsame'.address.symm, hsame'.tenantToken.symm, hsame'.source.symm⟩⟩
      · exact ⟨before, logger, hbefore, (hframe _ hkey).trans hfind, hsame⟩
    · exact ⟨returned, returned, rfl, hat, .refl returned⟩
  · by_cases hkey : k = call.hash
    · subst hkey
      obtain rfl : returned = logger := Option.some.inj (hat.symm.trans hk)
      obtain ⟨-, htoken, hsource⟩ | ⟨logger', hfind', hsame'⟩ := hfrom
      · exact ⟨(call, some returned), mem_append_right _ (mem_singleton_self _), rfl,
          htoken, hsource⟩
      · obtain ⟨a, ha, hhash, htoken, hsource⟩ := h.asked _ _ hfind'
        exact ⟨a, mem_append_left _ ha, hhash, hsame'.tenantToken.trans htoken,
          hsame'.source.trans hsource⟩
    · obtain ⟨a, ha, hrest⟩ := h.asked k logger ((hframe k hkey).symm.trans hk)
      exact ⟨a, mem_append_left _ ha, hrest⟩

/-- Any number of calls. -/
theorem Served.getLoggers (h : m.Served answers) (calls : List GetLoggerCall) :
    (m.getLoggers calls).2.Served (answers ++ (m.getLoggers calls).1) := by
  induction calls generalizing m answers with
  | nil => simpa [LogManager.getLoggers] using h
  | cons call calls ih =>
    have hrest := ih (h.getLogger call)
    rw [append_assoc] at hrest
    exact hrest

theorem map_fst_getLoggers (m : LogManager) (calls : List GetLoggerCall) :
    (m.getLoggers calls).1.map Prod.fst = calls := by
  induction calls generalizing m with
  | nil => rfl
  | cons call calls ih => exact congrArg (call :: ·) (ih _)

end LogManager

/-! ## Tenants -/

/-- **Loggers do not mix tenants.** Every call got a logger with its own
token and source, and two calls got one object only if their tokens and
sources are the same in lower case. -/
structure NeverMix (answers : List (GetLoggerCall × Option Logger)) : Prop where
  own : ∀ a ∈ answers, ∃ logger, a.2 = some logger ∧
    logger.tenantToken = toLower a.1.tenantToken ∧ logger.source = toLower a.1.source
  separate : ∀ a ∈ answers, ∀ b ∈ answers, ∀ logger logger', a.2 = some logger →
    b.2 = some logger' → logger.address = logger'.address →
    toLower a.1.tenantToken = toLower b.1.tenantToken ∧ toLower a.1.source = toLower b.1.source

/-- **The key tells the calls apart**: calls with one key have one token
and one source in lower case. -/
def KeysTellApart (calls : List GetLoggerCall) : Prop :=
  ∀ a ∈ calls, ∀ b ∈ calls, a.hash = b.hash →
    a.normalizedTenantToken = b.normalizedTenantToken ∧ a.normalizedSource = b.normalizedSource

instance (calls : List GetLoggerCall) : Decidable (KeysTellApart calls) :=
  inferInstanceAs (Decidable (∀ a ∈ calls, ∀ b ∈ calls, _ → _))

/-- **When loggers never mix tenants.** For every sequence of calls on a
live manager the tenants stay apart exactly if the key tells the calls
apart. -/
theorem loggers_never_mix_iff (defaultLevel : ℕ) (calls : List GetLoggerCall) :
    NeverMix ((LogManager.started defaultLevel).getLoggers calls).1 ↔ KeysTellApart calls := by
  have hserved := (LogManager.Served.started defaultLevel).getLoggers calls
  rw [nil_append] at hserved
  have hcalls := LogManager.map_fst_getLoggers (LogManager.started defaultLevel) calls
  revert hserved hcalls
  generalize (LogManager.started defaultLevel).getLoggers calls = res
  intro hserved hcalls
  have hmem : ∀ a ∈ res.1, a.1 ∈ calls := fun a ha => hcalls ▸ mem_map_of_mem ha
  constructor
  · -- calls with one key got one object
    intro h x hx y hy hhash
    rw [← hcalls] at hx hy
    obtain ⟨a, ha, rfl⟩ := mem_map.1 hx
    obtain ⟨b, hb, rfl⟩ := mem_map.1 hy
    obtain ⟨returned, logger, hret, hfind, hsame⟩ := hserved.kept a ha
    obtain ⟨returned', logger', hret', hfind', hsame'⟩ := hserved.kept b hb
    obtain rfl : logger = logger' := Option.some.inj (hfind.symm.trans (hhash ▸ hfind'))
    exact h.separate a ha b hb returned returned' hret hret'
      (hsame.address.trans hsame'.address.symm)
  · intro h
    refine ⟨fun a ha => ?_, fun a ha b hb la lb hla hlb haddress => ?_⟩
    · obtain ⟨returned, logger, hret, hfind, hsame⟩ := hserved.kept a ha
      obtain ⟨b, hb, hhash, htoken, hsource⟩ := hserved.asked _ _ hfind
      obtain ⟨htok, hsrc⟩ := h b.1 (hmem b hb) a.1 (hmem a ha) hhash
      exact ⟨returned, hret, (hsame.tenantToken.trans htoken).trans htok,
        (hsame.source.trans hsource).trans hsrc⟩
    · -- one object is under one key
      obtain ⟨returned, logger, hret, hfind, hsame⟩ := hserved.kept a ha
      obtain ⟨returned', logger', hret', hfind', hsame'⟩ := hserved.kept b hb
      obtain rfl : la = returned := Option.some.inj (hla.symm.trans hret)
      obtain rfl : lb = returned' := Option.some.inj (hlb.symm.trans hret')
      have hentry := res.2.apart _ (OrdMap.find?_eq_some.1 hfind) _ (OrdMap.find?_eq_some.1 hfind')
        (hsame.address.symm.trans (haddress.trans hsame'.address))
      exact h a.1 (hmem a ha) b.1 (hmem b hb) (congrArg Prod.fst hentry)

/-- **Two tenants with one logger.** The token `a/b` with the source `c`
and the token `a` with the source `b/c` have one key: the second call gets
the logger of the first, and what is logged with it goes to the tenant
`a/b`. -/
theorem slash_mixes_tenants :
    let answers := ((LogManager.started diagLevelDefault).getLoggers
      [⟨"a/b", "c", ""⟩, ⟨"a", "b/c", ""⟩]).1
    answers.map (fun a => a.2.map fun logger => (logger.address, logger.tenantToken)) =
        [some (0, "a/b"), some (0, "a/b")] ∧ ¬ NeverMix answers := by
  refine ⟨by decide, fun h => ?_⟩
  have htokens := (h.separate (⟨"a/b", "c", ""⟩, _) (by decide) (⟨"a", "b/c", ""⟩, _) (by decide)
    ⟨0, "a/b", "c", "", 255⟩ ⟨0, "a/b", "c", "", 255⟩ rfl rfl rfl).1
  exact absurd htokens (by decide)

end ClientTelemetry
