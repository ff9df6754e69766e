import Mathlib.Tactic

/-! Members with numbers and parents, in slots.
A family changes by births into empty slots and by departures. The numbers of the members tell
them apart, so a departure takes one child from one parent.
-/

namespace Foundation

/-- A member: its number, that of its parent, and what it is. -/
structure Member (κ ρ : Type*) where
  id : κ
  parent : κ
  role : ρ

/-- The members in slots. -/
abbrev Family (ι κ ρ : Type*) := ι → Option (Member κ ρ)

namespace Family

variable {ι κ ρ : Type*} {family : Family ι κ ρ} {slot : ι} {member : Member κ ρ} {parent : κ}

/-- The numbers of the children of a parent. -/
def children (family : Family ι κ ρ) (parent : κ) : Set κ :=
  { id | ∃ slot role, family slot = some ⟨id, parent, role⟩ }

/-- The numbers tell the members apart. -/
def Distinct (family : Family ι κ ρ) : Prop :=
  ∀ slot other member member',
    family slot = some member
    → family other = some member'
    → member.id = member'.id
    → slot = other

/-- Nobody has a parent of this number. -/
theorem children_none (nobody : ∀ slot member, family slot = some member → member.parent ≠ parent)
    : family.children parent = ∅ := by
  ext id
  refine iff_of_false ?_ (Set.notMem_empty id)
  rintro ⟨slot, role, here⟩
  exact nobody slot _ here rfl

section Changes

variable [DecidableEq ι]

/-- A family with a new member in a slot. -/
def born (family : Family ι κ ρ) (slot : ι) (member : Member κ ρ) : Family ι κ ρ :=
  Function.update family slot (some member)

/-- A family without the member in a slot. -/
def departed (family : Family ι κ ρ) (slot : ι) : Family ι κ ρ := Function.update family slot none

@[simp] theorem born_here (family : Family ι κ ρ) (slot : ι) (member : Member κ ρ)
    : family.born slot member slot = some member :=
  Function.update_self ..

theorem born_other (family : Family ι κ ρ) {slot other : ι} (different : other ≠ slot)
    (member : Member κ ρ)
    : family.born slot member other = family other :=
  Function.update_of_ne different ..

@[simp] theorem departed_here (family : Family ι κ ρ) (slot : ι)
    : family.departed slot slot = none :=
  Function.update_self ..

theorem departed_other (family : Family ι κ ρ) {slot other : ι} (different : other ≠ slot)
    : family.departed slot other = family other :=
  Function.update_of_ne different ..

theorem departed_none {other : ι} (slot : ι) (empty : family other = none)
    : family.departed slot other = none := by
  rcases eq_or_ne other slot with rfl | different
  · exact departed_here ..
  · rw [departed_other family different, empty]

theorem born_inv {other : ι} {member' : Member κ ρ}
    (there : family.born slot member other = some member')
    : other = slot ∧ member' = member ∨ other ≠ slot ∧ family other = some member' := by
  rcases eq_or_ne other slot with rfl | different
  · rw [born_here] at there
    exact Or.inl ⟨rfl, (Option.some.inj there).symm⟩
  · rw [born_other family different] at there
    exact Or.inr ⟨different, there⟩

theorem departed_inv {other : ι} {member' : Member κ ρ}
    (there : family.departed slot other = some member')
    : other ≠ slot ∧ family other = some member' := by
  rcases eq_or_ne other slot with rfl | different
  · rw [departed_here] at there
    cases there
  · rw [departed_other family different] at there
    exact ⟨different, there⟩

/-- A birth gives its parent a child. -/
theorem children_born (free : family slot = none)
    : (family.born slot member).children member.parent
      = insert member.id (family.children member.parent) := by
  ext id
  constructor
  · rintro ⟨other, role, there⟩
    rcases born_inv there with ⟨_, same⟩ | ⟨_, old⟩
    · exact Or.inl (congrArg Member.id same)
    · exact Or.inr ⟨other, role, old⟩
  · rintro (rfl | ⟨other, role, old⟩)
    · exact ⟨slot, member.role, born_here ..⟩
    · have different : other ≠ slot := by
        rintro rfl
        cases free.symm.trans old
      exact ⟨other, role, (born_other family different member).trans old⟩

/-- A birth concerns no other parent. -/
theorem children_born_other (free : family slot = none) (other : member.parent ≠ parent)
    : (family.born slot member).children parent = family.children parent := by
  ext id
  constructor
  · rintro ⟨place, role, there⟩
    rcases born_inv there with ⟨_, same⟩ | ⟨_, old⟩
    · exact absurd (congrArg Member.parent same).symm other
    · exact ⟨place, role, old⟩
  · rintro ⟨place, role, old⟩
    have different : place ≠ slot := by
      rintro rfl
      cases free.symm.trans old
    exact ⟨place, role, (born_other family different member).trans old⟩

/-- A departure takes the number of the member from the children of every parent. -/
theorem children_departed (distinct : family.Distinct) (here : family slot = some member)
    (parent : κ)
    : (family.departed slot).children parent = family.children parent \ {member.id} := by
  ext id
  constructor
  · rintro ⟨other, role, there⟩
    obtain ⟨different, old⟩ := departed_inv there
    refine ⟨⟨other, role, old⟩, fun same => different ?_⟩
    exact distinct other slot _ _ old here same
  · rintro ⟨⟨other, role, old⟩, apart⟩
    have different : other ≠ slot := by
      rintro rfl
      exact apart (congrArg Member.id (Option.some.inj (old.symm.trans here)))
    exact ⟨other, role, (departed_other family different).trans old⟩

/-- A departure concerns no other parent. -/
theorem children_departed_other (distinct : family.Distinct) (here : family slot = some member)
    (other : member.parent ≠ parent)
    : (family.departed slot).children parent = family.children parent := by
  rw [children_departed distinct here, Set.sdiff_singleton_eq_self]
  rintro ⟨place, role, there⟩
  have same := distinct place slot _ _ there here rfl
  subst same
  exact other (congrArg Member.parent (Option.some.inj (here.symm.trans there)))

end Changes

section Size

variable [Fintype ι]

/-- The number of members. -/
def size (family : Family ι κ ρ) : Nat := (Finset.univ.filter fun slot => (family slot).isSome).card

theorem size_born [DecidableEq ι] (free : family slot = none) (member : Member κ ρ)
    : (family.born slot member).size = family.size + 1 := by
  have grown
      : (Finset.univ.filter fun other => (family.born slot member other).isSome)
        = insert slot (Finset.univ.filter fun other => (family other).isSome) := by
    ext other
    rcases eq_or_ne other slot with rfl | different
    · simp
    · simp [born_other family different, different]
  rw [size, grown, Finset.card_insert_of_notMem (by simp [free]), size]

/-- Where all slots are taken there are as many members as slots, and only there. -/
theorem size_full : family.size = Fintype.card ι ↔ ∀ slot, family slot ≠ none := by
  rw [size, Finset.card_eq_iff_eq_univ, Finset.filter_eq_self]
  simp [Option.isSome_iff_ne_none]

/-- Two members in two slots. -/
theorem two_le_size {other : ι} (here : family slot ≠ none) (there : family other ≠ none)
    (different : slot ≠ other)
    : 2 ≤ family.size := by
  classical
  rw [← Finset.card_pair different]
  refine Finset.card_le_card fun place member => ?_
  simp only [Finset.mem_filter, Finset.mem_univ, true_and, Option.isSome_iff_ne_none]
  rcases Finset.mem_insert.mp member with rfl | member
  · exact here
  · rwa [Finset.mem_singleton.mp member]

theorem size_le (family : Family ι κ ρ) : family.size ≤ Fintype.card ι := Finset.card_le_univ _

end Size

end Family

end Foundation
