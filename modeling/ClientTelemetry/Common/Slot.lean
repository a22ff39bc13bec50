import Mathlib.Data.Multiset.AddSub
/-!
# A flag for one task

Threads share a flag that is set while a task stands behind it, and a
handle through which the task can be cancelled. Whoever finds the flag
unset sets it, makes a task, and stores its handle; whoever runs the task
takes the flag down; whoever cancels the task takes it down once the task
is gone. `Slot.Step` lists these turns, with what has to be excluded for
each of them: who fills the slot, from the flag to the handle, and who
cancels must not overlap. `Slot.Sound` is what the turns preserve. When
nobody is in between, the flag is set if and only if a task stands, and it
is the only one.
-/

namespace ClientTelemetry

/-- **What a thread is about to do with the slot.** -/
inductive Role (ι : Type*) where
  | apart
  /-- It has set the flag and makes the task next. -/
  | claims
  /-- It has made the task and stores the handle next. -/
  | stores (id : ι)
  /-- It waits for the task of the handle, to cancel it. -/
  | cancels (id : ι)
  /-- The task is gone and it takes the flag down next. -/
  | clears

/-- **The flag, the tasks that stand behind it, the handle, and the
threads.** -/
structure Slot (τ ι : Type*) where
  flag : Bool
  standing : Multiset ι
  handle : Option ι
  role : τ → Role ι

namespace Slot

variable {τ ι : Type*}

/-- The thread is between the flag and the handle. -/
def Fills (s : Slot τ ι) (t : τ) : Prop := s.role t = .claims ∨ ∃ id, s.role t = .stores id

/-- One thread takes another role, and the others keep theirs. -/
structure Turn (role role' : τ → Role ι) (t : τ) (before after : Role ι) : Prop where
  was : role t = before
  now : role' t = after
  others : ∀ u, u ≠ t → role' u = role u

/-- **What can happen to a slot.** -/
inductive Step (s s' : Slot τ ι) : Prop where
  | stays (hflag : s'.flag = s.flag) (hstanding : s'.standing = s.standing)
      (hhandle : s'.handle = s.handle) (hrole : ∀ u, s'.role u = s.role u)
  /-- The flag is found unset. Nobody else fills the slot or cancels. -/
  | claims {t} (hturn : Turn s.role s'.role t .apart .claims) (hunset : s.flag = false)
      (hflag : s'.flag = true) (hstanding : s'.standing = s.standing)
      (hfree : ∀ u, u ≠ t → s.role u = .apart)
  | makes {t id} (hturn : Turn s.role s'.role t .claims (.stores id)) (hflag : s'.flag = s.flag)
      (hstanding : s'.standing = id ::ₘ s.standing)
  | stores {t id} (hturn : Turn s.role s'.role t (.stores id) .apart) (hflag : s'.flag = s.flag)
      (hstanding : s'.standing = s.standing) (hhandle : s'.handle = some id)
  /-- A task is run. Nobody fills the slot. -/
  | serves {id} (hflag : s'.flag = false) (hstanding : s.standing = id ::ₘ s'.standing)
      (hhandle : s'.handle = s.handle) (hrole : ∀ u, s'.role u = s.role u)
      (hfree : ∀ u, ¬ s.Fills u)
  /-- The task of the handle cannot be taken out at once. -/
  | cancels {t id} (hturn : Turn s.role s'.role t .apart (.cancels id)) (hflag : s'.flag = s.flag)
      (hstanding : s'.standing = s.standing) (hhandle : s'.handle = s.handle)
      (hid : s.handle = some id) (hfree : ∀ u, ¬ s.Fills u)
  | desists {t id} (hturn : Turn s.role s'.role t (.cancels id) .apart) (hflag : s'.flag = s.flag)
      (hstanding : s'.standing = s.standing) (hhandle : s'.handle = s.handle)
  /-- The task of the handle is taken out, or is gone. -/
  | withdraws {t} (hturn : Turn s.role s'.role t .apart .clears) (hstanding : s'.standing ≤ s.standing)
      (hhandle : s'.handle = s.handle) (hgone : ∀ id, s.handle = some id → id ∉ s'.standing)
      (hfree : ∀ u, ¬ s.Fills u)
  /-- The task goes, and who waits for that can take the flag down. -/
  | goes (hflag : s'.flag = s.flag) (hstanding : s'.standing ≤ s.standing)
      (hhandle : s'.handle = s.handle)
      (hrole : ∀ u, s'.role u = s.role u ∨
        s'.role u = .clears ∧ ∃ id, s.role u = .cancels id ∧ id ∉ s'.standing)
      (hkept : s'.standing = s.standing ∨ ∃ u, s'.role u = .clears)
  | clears {t} (hturn : Turn s.role s'.role t .clears .apart) (hflag : s'.flag = false)
      (hstanding : s'.standing = s.standing) (hhandle : s'.handle = s.handle)

/-- The thread waits for the task of the handle, or has no part in it. -/
def Waits (s : Slot τ ι) (t : τ) : Prop :=
  s.role t = .apart ∨ ∃ id, s.role t = .cancels id ∧ s.handle = some id

/-- **The flag stands for the task.** -/
inductive Sound (s : Slot τ ι) : Prop where
  | empty (hnone : s.standing = 0) (hroles : ∀ u, s.Waits u ∨ s.role u = .clears)
      (hflag : s.flag = true → ∃ u, s.role u = .clears)
  | claimed {t} (hnone : s.standing = 0) (hflag : s.flag = true) (hself : s.role t = .claims)
      (hothers : ∀ u, u ≠ t → s.role u = .apart)
  | made {t id} (hone : s.standing = {id}) (hflag : s.flag = true) (hself : s.role t = .stores id)
      (hothers : ∀ u, u ≠ t → s.role u = .apart)
  | full {id} (hone : s.standing = {id}) (hflag : s.flag = true) (hhandle : s.handle = some id)
      (hroles : ∀ u, s.Waits u)

/-! ## What a turn keeps -/

variable {s s' : Slot τ ι} {t : τ}

theorem Waits.of_eq (h : s.Waits t) (hrole : s'.role t = s.role t) (hhandle : s'.handle = s.handle) :
    s'.Waits t := by
  unfold Waits
  rwa [hrole, hhandle]

theorem Waits.not_fills (h : s.Waits t) : ¬ s.Fills t := by
  rintro (hself | ⟨id, hself⟩) <;> rcases h with h | ⟨id', h, -⟩ <;> cases h.symm.trans hself

namespace Turn

variable {before after : Role ι}

/-- The others wait as before, or can take the flag down. -/
theorem waits_or_clears (hturn : Turn s.role s'.role t before after)
    (hroles : ∀ u, s.Waits u ∨ s.role u = .clears) (hhandle : s'.handle = s.handle)
    (hself : s'.Waits t ∨ s'.role t = .clears) (u : τ) : s'.Waits u ∨ s'.role u = .clears := by
  by_cases hut : u = t
  · exact hut ▸ hself
  · rw [hturn.others u hut]
    exact (hroles u).imp_left fun h => h.of_eq (hturn.others u hut) hhandle

theorem apart (hturn : Turn s.role s'.role t before after) (hothers : ∀ u, u ≠ t → s.role u = .apart)
    (u : τ) (hut : u ≠ t) : s'.role u = .apart :=
  (hturn.others u hut).trans (hothers u hut)

end Turn

/-! ## The turns -/

namespace Sound

variable {id : ι} {before after : Role ι}

variable (h : Sound s)
include h

/-- Who fills the slot is alone with it. -/
theorem filled (hfills : s.Fills t) :
    s.flag = true ∧ (∀ u, u ≠ t → s.role u = .apart) ∧
      (s.role t = .claims ∧ s.standing = 0 ∨ ∃ id, s.role t = .stores id ∧ s.standing = {id}) := by
  have heq {t' : τ} (hothers : ∀ u, u ≠ t' → s.role u = .apart) : t = t' := by
    by_contra hne
    exact Waits.not_fills (.inl (hothers t hne)) hfills
  cases h with
  | empty hnone hroles hclears =>
    rcases hroles t with hwaits | hclears
    · exact absurd hfills hwaits.not_fills
    · rcases hfills with hfills | ⟨id, hfills⟩ <;> cases hclears.symm.trans hfills
  | claimed hnone hset hself hothers =>
    obtain rfl := heq hothers
    exact ⟨hset, hothers, .inl ⟨hself, hnone⟩⟩
  | made hone hset hself hothers =>
    obtain rfl := heq hothers
    exact ⟨hset, hothers, .inr ⟨_, hself, hone⟩⟩
  | full hone hset hhandle hroles => exact absurd hfills (hroles t).not_fills

/-- While another has a part in it, nobody fills the slot. -/
theorem not_fills (hpart : s.role t ≠ .apart) (hnot : ¬ s.Fills t) (u : τ) :
    ¬ s.Fills u := by
  intro hfills
  obtain ⟨-, hothers, -⟩ := h.filled hfills
  by_cases htu : t = u
  · exact hnot (htu ▸ hfills)
  · exact hpart (hothers t htu)

/-- **While nobody fills the slot it is empty or full.** -/
theorem free (hfree : ∀ u, ¬ s.Fills u) :
    (s.standing = 0 ∧ (∀ u, s.Waits u ∨ s.role u = .clears) ∧
      (s.flag = true → ∃ u, s.role u = .clears)) ∨
    ∃ id, s.standing = {id} ∧ s.flag = true ∧ s.handle = some id ∧ ∀ u, s.Waits u := by
  cases h with
  | empty hnone hroles hclears => exact .inl ⟨hnone, hroles, hclears⟩
  | claimed hnone hset hself hothers => exact absurd (.inl hself) (hfree _)
  | made hone hset hself hothers => exact absurd (.inr ⟨_, hself⟩) (hfree _)
  | full hone hset hhandle hroles => exact .inr ⟨_, hone, hset, hhandle, hroles⟩

/-- A thread begins to wait for the task, or no longer does. -/
theorem waits (hfree : ∀ u, ¬ s.Fills u) (hturn : Turn s.role s'.role t before after)
    (hbefore : before ≠ .clears) (hself : s'.Waits t) (hflag : s'.flag = s.flag)
    (hstanding : s'.standing = s.standing) (hhandle : s'.handle = s.handle) : Sound s' := by
  rcases h.free hfree with ⟨hnone, hroles, hclears⟩ | ⟨id, hone, hset, hid, hroles⟩
  · refine .empty (hstanding.trans hnone) (hturn.waits_or_clears hroles hhandle (.inl hself))
      fun hset => ?_
    obtain ⟨u, hu⟩ := hclears (hflag.symm.trans hset)
    have hut : u ≠ t := by
      rintro rfl
      exact hbefore (hturn.was.symm.trans hu)
    exact ⟨u, (hturn.others u hut).trans hu⟩
  · refine .full (hstanding.trans hone) (hflag.trans hset) (hhandle.trans hid) fun u => ?_
    by_cases hut : u = t
    · exact hut ▸ hself
    · exact (hroles u).of_eq (hturn.others u hut) hhandle

/-- Once the task has gone, the threads wait for nothing. -/
theorem emptied (hfree : ∀ u, ¬ s.Fills u) (hnone : s'.standing = 0)
    (hroles : (∀ u, s.Waits u ∨ s.role u = .clears) → ∀ u, s'.Waits u ∨ s'.role u = .clears)
    (hclears : s'.flag = true → ∃ u, s'.role u = .clears) : Sound s' := by
  rcases h.free hfree with ⟨-, hwaits, -⟩ | ⟨id, -, -, -, hwaits⟩
  · exact .empty hnone (hroles hwaits) hclears
  · exact .empty hnone (hroles fun u => .inl (hwaits u)) hclears

/-- What stood behind the flag was the task of the handle. -/
theorem withdraws (hturn : Turn s.role s'.role t .apart .clears)
    (hstanding : s'.standing ≤ s.standing) (hhandle : s'.handle = s.handle)
    (hgone : ∀ id, s.handle = some id → id ∉ s'.standing) (hfree : ∀ u, ¬ s.Fills u) :
    Sound s' := by
  refine h.emptied hfree ?_
    (fun hroles => hturn.waits_or_clears hroles hhandle (.inr hturn.now)) fun _ => ⟨t, hturn.now⟩
  rcases h.free hfree with ⟨hnone, -, -⟩ | ⟨id, hone, -, hid, -⟩
  · exact Multiset.le_zero.1 (hstanding.trans_eq hnone)
  · rw [hone] at hstanding
    refine (Multiset.le_singleton.1 hstanding).resolve_right fun heq => ?_
    exact hgone _ hid (heq ▸ Multiset.mem_singleton_self _)

/-- A task can go only while somebody waits for it. -/
theorem goes (hflag : s'.flag = s.flag) (hstanding : s'.standing ≤ s.standing)
    (hhandle : s'.handle = s.handle) (hrole : ∀ u, s'.role u = s.role u ∨
      s'.role u = .clears ∧ ∃ id, s.role u = .cancels id ∧ id ∉ s'.standing)
    (hkept : s'.standing = s.standing ∨ ∃ u, s'.role u = .clears) : Sound s' := by
  have hroles_of (hroles : ∀ u, s.Waits u ∨ s.role u = .clears) (u : τ) :
      s'.Waits u ∨ s'.role u = .clears := by
    rcases hrole u with hsame | ⟨hclears, -⟩
    · rw [hsame]
      exact (hroles u).imp_left fun h => h.of_eq hsame hhandle
    · exact .inr hclears
  have hsame_of {u : τ} (hnot : ∀ id, s.role u ≠ .cancels id) : s'.role u = s.role u := by
    rcases hrole u with hsame | ⟨-, id, hcancels, -⟩
    · exact hsame
    · exact absurd hcancels (hnot id)
  cases h with
  | empty hnone hroles hclears =>
    refine .empty (Multiset.le_zero.1 (hstanding.trans_eq hnone)) (hroles_of hroles) fun hset => ?_
    obtain ⟨u, hu⟩ := hclears (hflag.symm.trans hset)
    exact ⟨u, (hsame_of (hu ▸ nofun)).trans hu⟩
  | @claimed t hnone hset hself hothers =>
    refine .claimed (Multiset.le_zero.1 (hstanding.trans_eq hnone)) (hflag.trans hset)
      ((hsame_of (hself ▸ nofun)).trans hself) fun u hut => ?_
    exact (hsame_of (hothers u hut ▸ nofun)).trans (hothers u hut)
  | @made t id hone hset hself hothers =>
    have hothers' (u : τ) (hut : u ≠ t) : s'.role u = .apart :=
      (hsame_of (hothers u hut ▸ nofun)).trans (hothers u hut)
    have hself' : s'.role t = .stores id := (hsame_of (hself ▸ nofun)).trans hself
    refine .made ?_ (hflag.trans hset) hself' hothers'
    rcases hkept with hkept | ⟨u, hu⟩
    · exact hkept.trans hone
    · by_cases hut : u = t
      · subst hut
        cases hself'.symm.trans hu
      · cases (hothers' u hut).symm.trans hu
  | @full id hone hset hhandle' hroles =>
    rw [hone] at hstanding
    rcases Multiset.le_singleton.1 hstanding with hnone | hone'
    · refine .empty hnone (hroles_of fun u => .inl (hroles u)) fun _ => ?_
      refine hkept.resolve_left fun hsame => ?_
      exact Multiset.singleton_ne_zero id (hone.symm.trans (hsame.symm.trans hnone))
    · refine .full hone' (hflag.trans hset) (hhandle.trans hhandle') fun u => ?_
      rcases hrole u with hsame | ⟨-, id', hcancels, hgone⟩
      · exact (hroles u).of_eq hsame hhandle
      · -- the task it waits for is the one that stands
        rcases hroles u with hapart | ⟨id'', hcancels', hid⟩
        · cases hapart.symm.trans hcancels
        · obtain rfl := Role.cancels.inj (hcancels.symm.trans hcancels')
          obtain rfl : id' = id := Option.some.inj (hid.symm.trans hhandle')
          exact absurd (hone' ▸ Multiset.mem_singleton_self id') hgone

/-- **Every turn keeps the flag true to the task.** -/
theorem step (hstep : Step s s') : Sound s' := by
  cases hstep with
  | stays hflag hstanding hhandle hrole =>
    have heq : s' = s := by
      cases s
      cases s'
      simp only [Slot.mk.injEq]
      exact ⟨hflag, hstanding, hhandle, funext hrole⟩
    exact heq ▸ h
  | claims hturn hunset hflag hstanding hfree =>
    -- who claims the slot finds nothing behind the flag
    cases h with
    | empty hnone hroles hclears =>
      exact .claimed (hstanding.trans hnone) hflag hturn.now (hturn.apart hfree)
    | claimed hnone hset | made hone hset | full hone hset => cases hunset.symm.trans hset
  | makes hturn hflag hstanding =>
    obtain ⟨hset, hothers, ⟨-, hnone⟩ | ⟨id, hself, -⟩⟩ := h.filled (.inl hturn.was)
    · exact .made (by rw [hstanding, hnone]; rfl) (hflag.trans hset) hturn.now (hturn.apart hothers)
    · cases hturn.was.symm.trans hself
  | @stores t id hturn hflag hstanding hhandle =>
    obtain ⟨hset, hothers, ⟨hself, -⟩ | ⟨id', hself, hone⟩⟩ := h.filled (.inr ⟨id, hturn.was⟩)
    · cases hturn.was.symm.trans hself
    · obtain rfl : id = id' := Role.stores.inj (hturn.was.symm.trans hself)
      refine .full (hstanding.trans hone) (hflag.trans hset) hhandle fun u => .inl ?_
      by_cases hut : u = t
      · exact hut ▸ hturn.now
      · exact hturn.apart hothers u hut
  | serves hflag hstanding hhandle hrole hfree =>
    refine h.emptied hfree ?_ (fun hroles u => ?_) fun hset => by cases hflag.symm.trans hset
    · rcases h.free hfree with ⟨hnone, -, -⟩ | ⟨id, hone, -, -, -⟩
      · exact absurd (hstanding.symm.trans hnone) Multiset.cons_ne_zero
      · have hcard := congrArg Multiset.card (hone.symm.trans hstanding)
        rw [Multiset.card_singleton, Multiset.card_cons] at hcard
        exact Multiset.card_eq_zero.1 (by omega)
    · rw [hrole]
      exact (hroles u).imp_left fun hwaits => hwaits.of_eq (hrole u) hhandle
  | cancels hturn hflag hstanding hhandle hid hfree =>
    exact h.waits hfree hturn nofun (.inr ⟨_, hturn.now, hhandle.trans hid⟩) hflag hstanding hhandle
  | @desists t id hturn hflag hstanding hhandle =>
    have hwas := hturn.was
    refine h.waits (h.not_fills (t := t) (by rw [hwas]; exact nofun) ?_) hturn nofun
      (.inl hturn.now) hflag hstanding hhandle
    rintro (hself | ⟨id, hself⟩) <;> cases hwas.symm.trans hself
  | withdraws hturn hstanding hhandle hgone hfree =>
    exact h.withdraws hturn hstanding hhandle hgone hfree
  | goes hflag hstanding hhandle hrole hkept => exact h.goes hflag hstanding hhandle hrole hkept
  | @clears t hturn hflag hstanding hhandle =>
    have hwas := hturn.was
    have hfree := h.not_fills (t := t) (by rw [hwas]; exact nofun) (by
      rintro (hself | ⟨id, hself⟩) <;> cases hwas.symm.trans hself)
    refine h.emptied hfree ?_
      (fun hroles => hturn.waits_or_clears hroles hhandle (.inl (.inl hturn.now)))
      fun hset => by cases hflag.symm.trans hset
    rcases h.free hfree with ⟨hnone, -, -⟩ | ⟨id, -, -, -, hroles⟩
    · exact hstanding.trans hnone
    · rcases hroles t with hapart | ⟨id, hcancels, -⟩
      · cases hwas.symm.trans hapart
      · cases hwas.symm.trans hcancels

/-- **One task stands at most.** -/
theorem card_standing_le : Multiset.card s.standing ≤ 1 := by
  cases h with
  | empty hnone hroles hclears | claimed hnone hset hself hothers =>
    rw [hnone]
    exact Nat.zero_le 1
  | made hone hset hself hothers | full hone hset hhandle hroles =>
    exact hone ▸ le_of_eq (Multiset.card_singleton _)

/-- **When nobody is in between, the flag is set if and only if a task
stands.** -/
theorem flag_iff (hrest : ∀ t, s.role t = .apart) :
    s.flag = true ↔ s.standing ≠ 0 := by
  cases h with
  | empty hnone hroles hclears =>
    refine iff_of_false (fun hset => ?_) (not_not.2 hnone)
    obtain ⟨u, hu⟩ := hclears hset
    cases (hrest u).symm.trans hu
  | claimed hnone hset hself hothers | made hone hset hself hothers =>
    cases (hrest _).symm.trans hself
  | full hone hset hhandle hroles =>
    rw [hone]
    exact iff_of_true hset (Multiset.singleton_ne_zero _)

end Sound

end Slot

end ClientTelemetry
