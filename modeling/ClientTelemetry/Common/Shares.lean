import Mathlib.Data.Finset.Basic
import Mathlib.Data.Set.Basic
import Mathlib.Logic.Equiv.Basic
/-!
# Shared resources

Resources that several holders use together. A share is a resource with
the set of its holders, and is kept at a place. A holder gets a resource
by opening a share or by joining one, and gives it back by leaving the
share; the last holder closes it. A share may be moved to another place.
The leases that are out are recorded beside the shares.

What each of these keeps (`Sound.opens`, `Sound.joins`, `Sound.moves`,
`Sound.leaves`, `Sound.closes`) is that a resource is live exactly as long
as a lease of it is out, wherever its share has been moved to.
-/

namespace ClientTelemetry

open Function

/-- A resource and its holders. -/
structure Share (η ρ : Type*) where
  holders : Finset η
  resource : ρ

/-- **Shares by their places**, with the live resources and the leases
that are out. -/
structure Shares (π η ρ : Type*) where
  share : π → Option (Share η ρ)
  live : Set ρ
  leases : Set (η × ρ)

namespace Shares

variable {π η ρ : Type*}

/-- A holder without a lease. -/
def Unleased (s : Shares π η ρ) (h : η) : Prop := ∀ r, (h, r) ∉ s.leases

/-- **The shares, the live resources and the leases agree.** -/
structure Sound (s : Shares π η ρ) : Prop where
  /-- A share has a holder. -/
  held : ∀ {a p}, s.share a = some p → p.holders.Nonempty
  /-- Shares at different places are of different resources. -/
  apart : ∀ {a b p q}, s.share a = some p → s.share b = some q → p.resource = q.resource → a = b
  leases_iff : ∀ {h r}, (h, r) ∈ s.leases ↔
    ∃ a p, s.share a = some p ∧ p.resource = r ∧ h ∈ p.holders
  /-- A holder has one lease. -/
  once : ∀ {h r r'}, (h, r) ∈ s.leases → (h, r') ∈ s.leases → r = r'
  /-- **A resource is live exactly as long as a lease of it is out.** -/
  live_iff : ∀ {r}, r ∈ s.live ↔ ∃ h, (h, r) ∈ s.leases

namespace Sound

variable {s : Shares π η ρ} {a b : π} {h : η} {r : ρ} {p q : Share η ρ} {h' : η}
  {x : Option (Share η ρ)}

section

variable (hs : s.Sound)
include hs

theorem leased (ha : s.share a = some p) (hh : h ∈ p.holders) :
    (h, p.resource) ∈ s.leases :=
  hs.leases_iff.2 ⟨a, p, ha, rfl, hh⟩

/-- The resource of a share is live. -/
theorem live_of_share (ha : s.share a = some p) : p.resource ∈ s.live := by
  obtain ⟨h, hh⟩ := hs.held ha
  exact hs.live_iff.2 ⟨h, hs.leased ha hh⟩

/-- The leases of the resource of a share are those of its holders. -/
theorem leased_iff_mem (ha : s.share a = some p) :
    (h, p.resource) ∈ s.leases ↔ h ∈ p.holders := by
  refine ⟨fun hl => ?_, hs.leased ha⟩
  obtain ⟨b, q, hb, hr, hh⟩ := hs.leases_iff.1 hl
  obtain rfl := hs.apart hb ha hr
  obtain rfl := Option.some.inj (ha.symm.trans hb)
  exact hh

/-- The holder of one share is in no other. -/
theorem place_eq (ha : s.share a = some p) (hb : s.share b = some q)
    (hp : h ∈ p.holders) (hq : h ∈ q.holders) : a = b :=
  hs.apart ha hb (hs.once (hs.leased ha hp) (hs.leased hb hq))

/-- A holder that had none has one lease after a lease. -/
theorem once_insert (hh : s.Unleased h) {r₁ r₂ : ρ}
    (h₁ : (h', r₁) ∈ insert (h, r) s.leases) (h₂ : (h', r₂) ∈ insert (h, r) s.leases) :
    r₁ = r₂ := by
  rcases h₁ with h₁ | h₁ <;> rcases h₂ with h₂ | h₂
  · rw [(Prod.mk.inj h₁).2, (Prod.mk.inj h₂).2]
  · exact absurd ((Prod.mk.inj h₁).1 ▸ h₂) (hh r₂)
  · exact absurd ((Prod.mk.inj h₂).1 ▸ h₁) (hh r₁)
  · exact hs.once h₁ h₂

end

variable [DecidableEq π]

/-- Leases, after one place has been written. -/
theorem leases_iff_update (hs : s.Sound) :
    (∃ b q, update s.share a x b = some q ∧ q.resource = r ∧ h ∈ q.holders) ↔
      (∃ q, x = some q ∧ q.resource = r ∧ h ∈ q.holders) ∨
        ((h, r) ∈ s.leases ∧ ∀ p, s.share a = some p → p.resource = r → h ∉ p.holders) := by
  constructor
  · rintro ⟨b, q, hb, hr, hh⟩
    by_cases hba : b = a
    · rw [hba, update_self] at hb
      exact Or.inl ⟨q, hb, hr, hh⟩
    · rw [update_of_ne hba] at hb
      refine Or.inr ⟨hs.leases_iff.2 ⟨b, q, hb, hr, hh⟩, fun p ha _ hp => ?_⟩
      exact hba (hs.place_eq hb ha hh hp)
  · rintro (⟨q, hx, hr, hh⟩ | ⟨hl, hother⟩)
    · exact ⟨a, q, by rw [update_self, hx], hr, hh⟩
    · obtain ⟨b, q, hb, hr, hh⟩ := hs.leases_iff.1 hl
      have hba : b ≠ a := fun hba => hother q (hba ▸ hb) hr hh
      exact ⟨b, q, by rw [update_of_ne hba, hb], hr, hh⟩

/-- Shares after one place has been written stay apart, if the new one is
of a resource that no other place has. -/
theorem apart_update (hs : s.Sound)
    (hnew : ∀ q, x = some q → ∀ b p, s.share b = some p → p.resource = q.resource → b = a)
    {c : π} (hb : update s.share a x b = some p) (hc : update s.share a x c = some q)
    (hr : p.resource = q.resource) : b = c := by
  by_cases hba : b = a <;> by_cases hca : c = a
  · rw [hba, hca]
  · rw [hba, update_self] at hb
    rw [update_of_ne hca] at hc
    exact hba.trans (hnew p hb c q hc hr.symm).symm
  · rw [hca, update_self] at hc
    rw [update_of_ne hba] at hb
    exact (hnew q hc b p hb hr).trans hca.symm
  · rw [update_of_ne hba] at hb
    rw [update_of_ne hca] at hc
    exact hs.apart hb hc hr

theorem held_update (hs : s.Sound)
    (hnew : ∀ q, x = some q → q.holders.Nonempty) (hb : update s.share a x b = some p) :
    p.holders.Nonempty := by
  by_cases hba : b = a
  · rw [hba, update_self] at hb
    exact hnew p hb
  · rw [update_of_ne hba] at hb
    exact hs.held hb

/-! ## What each step keeps -/

theorem opens (hs : s.Sound) (ha : s.share a = none) (hr : r ∉ s.live) (hh : s.Unleased h) :
    Sound ⟨update s.share a (some ⟨{h}, r⟩), insert r s.live, insert (h, r) s.leases⟩ where
  held hb := hs.held_update (by rintro q ⟨⟩; exact Finset.singleton_nonempty h) hb
  apart hb hc hbc := by
    refine hs.apart_update ?_ hb hc hbc
    rintro q ⟨⟩ c p hc hcr
    have hlive := hs.live_of_share hc
    rw [hcr] at hlive
    exact absurd hlive hr
  leases_iff := by
    intro h' r'
    rw [hs.leases_iff_update, Set.mem_insert_iff, Prod.mk.injEq]
    refine or_congr ?_ ?_
    · simp [eq_comm, and_comm]
    · simp [ha]
  once := hs.once_insert hh
  live_iff := by
    intro r'
    simp only [Set.mem_insert_iff, Prod.mk.injEq, exists_or, exists_eq_left, hs.live_iff]

variable [DecidableEq η]

variable (hs : s.Sound)
include hs

theorem joins (ha : s.share a = some p) (hh : s.Unleased h) :
    Sound ⟨update s.share a (some ⟨insert h p.holders, p.resource⟩), s.live,
      insert (h, p.resource) s.leases⟩ where
  held hb := hs.held_update (by rintro q ⟨⟩; exact Finset.insert_nonempty h _) hb
  apart hb hc hbc := by
    refine hs.apart_update ?_ hb hc hbc
    rintro q ⟨⟩ b p' hb hr
    exact hs.apart hb ha hr
  leases_iff := by
    intro h' r'
    rw [hs.leases_iff_update, Set.mem_insert_iff, Prod.mk.injEq]
    simp only [ha, Option.some.injEq, forall_eq', exists_eq_left', Finset.mem_insert]
    by_cases hr : p.resource = r'
    · subst hr
      rw [hs.leased_iff_mem ha]
      tauto
    · have hr' : r' ≠ p.resource := Ne.symm hr
      tauto
  once := hs.once_insert hh
  live_iff := by
    intro r'
    simp only [Set.mem_insert_iff, Prod.mk.injEq, exists_or, exists_eq_left]
    rw [← hs.live_iff]
    refine ⟨Or.inr, ?_⟩
    rintro (rfl | hl)
    · exact hs.live_of_share ha
    · exact hl

omit [DecidableEq η] in
theorem moves (a b : π) : Sound ⟨s.share ∘ Equiv.swap a b, s.live, s.leases⟩ where
  held hb := hs.held hb
  apart hb hc hbc := (Equiv.swap a b).injective (hs.apart hb hc hbc)
  leases_iff := hs.leases_iff.trans
    (Equiv.swap a b).surjective.exists
  once := hs.once
  live_iff := hs.live_iff

omit [DecidableEq π] in
/-- The leases left after a holder has given back its own. -/
theorem leases_iff_leaves (ha : s.share a = some p) (hh : h ∈ p.holders)
    {r' : ρ} : (h', r') ∈ {l ∈ s.leases | l.1 ≠ h} ↔
      p.resource = r' ∧ h' ∈ p.holders.erase h ∨
        ((h', r') ∈ s.leases ∧ (p.resource = r' → h' ∉ p.holders)) := by
  rw [Finset.mem_erase, Set.mem_ofPred_eq]
  by_cases hr : p.resource = r'
  · subst hr
    rw [hs.leased_iff_mem ha]
    tauto
  · -- a holder of this share has no lease of another resource
    have hother : (h', r') ∈ s.leases → h' ≠ h := fun hl heq =>
      hr (hs.once (hs.leased ha hh) (heq ▸ hl))
    tauto

theorem leaves (ha : s.share a = some p) (hh : h ∈ p.holders)
    (hleft : (p.holders.erase h).Nonempty) :
    Sound ⟨update s.share a (some ⟨p.holders.erase h, p.resource⟩), s.live,
      {l ∈ s.leases | l.1 ≠ h}⟩ where
  held hb := hs.held_update (by rintro q ⟨⟩; exact hleft) hb
  apart hb hc hbc := by
    refine hs.apart_update ?_ hb hc hbc
    rintro q ⟨⟩ b p' hb hr
    exact hs.apart hb ha hr
  leases_iff := by
    intro h' r'
    rw [hs.leases_iff_update, hs.leases_iff_leaves ha hh]
    simp only [ha, Option.some.injEq, forall_eq', exists_eq_left']
  once h₁ h₂ := hs.once h₁.1 h₂.1
  live_iff := by
    intro r'
    rw [hs.live_iff]
    constructor
    · rintro ⟨h', hl⟩
      by_cases hne : h' = h
      · -- the resource is that of the share, and is left to another
        obtain ⟨g, hg⟩ := hleft
        have hr := hs.once (hne ▸ hl) (hs.leased ha hh)
        refine ⟨g, ?_, (Finset.mem_erase.1 hg).1⟩
        rw [hr]
        exact hs.leased ha (Finset.mem_erase.1 hg).2
      · exact ⟨h', hl, hne⟩
    · rintro ⟨h', hl, -⟩
      exact ⟨h', hl⟩

theorem closes (ha : s.share a = some p) (hh : p.holders = {h}) :
    Sound ⟨update s.share a none, {r ∈ s.live | r ≠ p.resource}, {l ∈ s.leases | l.1 ≠ h}⟩ where
  held hb := hs.held_update (by rintro q ⟨⟩) hb
  apart hb hc hbc := hs.apart_update (by rintro q ⟨⟩) hb hc hbc
  leases_iff := by
    intro h' r'
    rw [hs.leases_iff_update, hs.leases_iff_leaves ha (by rw [hh]; exact Finset.mem_singleton_self h)]
    simp [ha, hh]
  once h₁ h₂ := hs.once h₁.1 h₂.1
  live_iff := by
    intro r'
    have hmem : h ∈ p.holders := by rw [hh]; exact Finset.mem_singleton_self h
    rw [Set.mem_ofPred_eq, hs.live_iff]
    constructor
    · rintro ⟨⟨h', hl⟩, hr⟩
      refine ⟨h', hl, fun heq => hr ?_⟩
      dsimp only at heq
      exact hs.once (heq ▸ hl) (hs.leased ha hmem)
    · rintro ⟨h', hl, hne⟩
      refine ⟨⟨h', hl⟩, fun hr => hne ?_⟩
      rw [hr, hs.leased_iff_mem ha, hh] at hl
      exact Finset.mem_singleton.1 hl

end Sound

end Shares

end ClientTelemetry
