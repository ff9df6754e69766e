import Mathlib.Tactic

/-! Resources divided among owners.
Each owner lists what it holds. A partition says that the lists name every resource that is
out exactly once, so that granting and revoking whole lists is enough to keep the account.
-/

namespace Foundation

variable {ι ρ : Type*}

/-- Every resource that is out is listed by one owner, once. -/
structure Partitioned (out : ρ → Prop) (owned : ι → List ρ) : Prop where
  distinct : ∀ owner, (owned owner).Nodup
  apart
    : ∀ owner other resource,
        resource ∈ owned owner → resource ∈ owned other → owner = other
  accounted : ∀ resource, out resource ↔ ∃ owner, resource ∈ owned owner

namespace Partitioned

variable {out out' : ρ → Prop} {owned owned' : ι → List ρ} {owner : ι}

theorem out_of_mem (partition : Partitioned out owned) {resource : ρ}
    (member : resource ∈ owned owner)
    : out resource :=
  (partition.accounted resource).mpr ⟨owner, member⟩

theorem congr (partition : Partitioned out owned) (same : ∀ resource, out' resource ↔ out resource)
    (lists : ∀ owner, owned' owner = owned owner)
    : Partitioned out' owned' := by
  obtain rfl : owned' = owned := funext lists
  exact { partition with accounted := fun resource => (same resource).trans (partition.accounted _) }

/-- Nothing is out and nobody holds anything. -/
theorem empty (nothing : ∀ resource, ¬out resource) : Partitioned out fun _ : ι => [] where
  distinct _ := List.nodup_nil
  apart _ _ _ impossible := absurd impossible List.not_mem_nil
  accounted resource := by simp [nothing resource]

/-- One owner's list changes: what is new to it was not out, and what it lost is out no more. -/
theorem change (partition : Partitioned out owned)
    (others : ∀ other, other ≠ owner → owned' other = owned other)
    (distinct : (owned' owner).Nodup)
    (fresh : ∀ resource ∈ owned' owner, resource ∈ owned owner ∨ ¬out resource)
    (changed
      : ∀ resource,
          out' resource ↔ resource ∈ owned' owner ∨ (out resource ∧ resource ∉ owned owner))
    : Partitioned out' owned' := by
  have mine {other : ι} {resource : ρ} (new : resource ∈ owned' owner)
      (old : resource ∈ owned other)
      : owner = other := by
    rcases fresh resource new with held | never
    · exact partition.apart owner other resource held old
    · exact absurd (partition.out_of_mem old) never
  refine ⟨?_, ?_, ?_⟩
  · intro other
    rcases eq_or_ne other owner with same | different
    · exact same ▸ distinct
    · exact others other different ▸ partition.distinct other
  · intro first second resource left right
    rcases eq_or_ne first owner with same | different
    · subst same
      rcases eq_or_ne second first with same | different
      · exact same.symm
      · exact mine left (others second different ▸ right)
    · rw [others first different] at left
      rcases eq_or_ne second owner with same | different'
      · subst same
        exact (mine right left).symm
      · exact partition.apart first second resource left (others second different' ▸ right)
  · intro resource
    rw [changed resource]
    constructor
    · intro either
      rcases either with new | ⟨before, lost⟩
      · exact ⟨owner, new⟩
      · obtain ⟨other, member⟩ := (partition.accounted resource).mp before
        have different : other ≠ owner := fun same => lost (same ▸ member)
        exact ⟨other, (others other different).symm ▸ member⟩
    · intro found
      obtain ⟨other, member⟩ := found
      rcases eq_or_ne other owner with same | different
      · exact Or.inl (same ▸ member)
      · rw [others other different] at member
        refine Or.inr ⟨partition.out_of_mem member, fun held => different ?_⟩
        exact partition.apart other owner resource member held

/-- An owner without resources is granted fresh ones. -/
theorem grant (partition : Partitioned out owned) (idle : owned owner = [])
    (others : ∀ other, other ≠ owner → owned' other = owned other)
    (distinct : (owned' owner).Nodup) (fresh : ∀ resource ∈ owned' owner, ¬out resource)
    (grown : ∀ resource, out' resource ↔ resource ∈ owned' owner ∨ out resource)
    : Partitioned out' owned' := by
  apply partition.change others distinct fun resource new => Or.inr (fresh resource new)
  intro resource
  rw [grown resource, idle]
  simp

/-- All resources of one owner are revoked. -/
theorem revoke (partition : Partitioned out owned) (idle : owned' owner = [])
    (others : ∀ other, other ≠ owner → owned' other = owned other)
    (shrunk : ∀ resource, out' resource ↔ out resource ∧ resource ∉ owned owner)
    : Partitioned out' owned' := by
  apply partition.change others (idle ▸ List.nodup_nil)
  · intro resource new
    rw [idle] at new
    exact absurd new List.not_mem_nil
  · intro resource
    rw [shrunk resource, idle]
    simp

end Partitioned

end Foundation
