import MiniLinux.Memory.PageCalls

/-! What a program that takes or returns frames may change.
A program takes free frames and writes at most in them, in frames named in advance and in
the state bytes; it returns allocated frames and writes only state bytes. Both relations
compose, so a long program is described by the frames that its steps took.
-/

namespace MiniLinux

open Foundation Foundation.Halting

/-- The physical byte lies in the frame of one of the addresses. -/
def InFrames (addresses : List U64) (byte : Nat) : Prop :=
  ∃ address ∈ addresses, frameOf address.toNat = frameOf byte

/-- Nothing but memory and the allocator's two counters differs. -/
def Machine.SameRecord (machine machine' : Machine) : Prop :=
  machine' = { machine with
    memory := machine'.memory
    pages := { machine.pages with
      freeCount := machine'.pages.freeCount
      nextFrame := machine'.pages.nextFrame } }

/-- Between the machines the free frames `taken` were allocated. -/
structure Machine.Takes (machine machine' : Machine) (taken written : List U64) : Prop where
  wellFormed : machine'.PagesWellFormed
  record : machine.SameRecord machine'
  distinct : taken.Nodup
  free
    : ∀ address ∈ taken,
        address.toNat % pageSize = 0 ∧ machine.IsFree (frameOf address.toNat)
  allocated : ∀ address ∈ taken, machine'.IsAllocated (frameOf address.toNat)
  states
    : ∀ frame < machine.frames,
        (∀ address ∈ taken, frameOf address.toNat ≠ frame)
        → machine'.stateOf frame = machine.stateOf frame
  counted
    : machine'.pages.freeCount.toNat + taken.length = machine.pages.freeCount.toNat
  memory
    : ∀ byte,
        ¬machine.IsMetadata (frameOf byte)
        → ¬InFrames (taken ++ written) byte
        → machine'.memory byte = machine.memory byte

/-- Between the machines the allocated frames `returned` became free. -/
structure Machine.Returns (machine machine' : Machine) (returned : List U64) : Prop where
  wellFormed : machine'.PagesWellFormed
  record : machine.SameRecord machine'
  free : ∀ address ∈ returned, machine'.IsFree (frameOf address.toNat)
  states
    : ∀ frame < machine.frames,
        (∀ address ∈ returned, frameOf address.toNat ≠ frame)
        → machine'.stateOf frame = machine.stateOf frame
  counted
    : machine'.pages.freeCount.toNat = machine.pages.freeCount.toNat + returned.length
  memory
    : ∀ byte,
        ¬machine.IsMetadata (frameOf byte) → machine'.memory byte = machine.memory byte

namespace Machine.SameRecord

variable {machine machine' machine'' : Machine}

theorem frames (same : machine.SameRecord machine') : machine'.frames = machine.frames := by
  rw [same]
  rfl

theorem isMetadata (same : machine.SameRecord machine') (frame : Nat)
    : machine'.IsMetadata frame ↔ machine.IsMetadata frame := by
  rw [same]
  rfl

theorem trans (first : machine.SameRecord machine') (second : machine'.SameRecord machine'')
    : machine.SameRecord machine'' := by
  rw [SameRecord, second, first]

theorem hhdmOffset (same : machine.SameRecord machine')
    : machine'.pages.hhdmOffset = machine.pages.hhdmOffset := by
  rw [same]

theorem directOffset (same : machine.SameRecord machine')
    : machine'.directOffset = machine.directOffset := by
  rw [same]

theorem cr3 (same : machine.SameRecord machine') : machine'.cr3 = machine.cr3 := by
  rw [same]

theorem bootRoot (same : machine.SameRecord machine')
    : machine'.bootRoot = machine.bootRoot := by
  rw [same]

end Machine.SameRecord

theorem frame_of_state {machine machine' : Machine} (same : machine.SameRecord machine')
    {frame : Nat} (state : frame < machine.frames → machine'.stateOf frame = machine.stateOf frame)
    : (machine'.IsFree frame ↔ machine.IsFree frame)
      ∧ (machine'.IsAllocated frame ↔ machine.IsAllocated frame) := by
  unfold Machine.IsFree Machine.IsAllocated
  rw [same.frames]
  constructor
  · exact and_congr_right fun inside => by rw [state inside]
  · exact and_congr_right fun inside => by rw [state inside]

/-- A frame that one of the addresses names is not both free and allocated. -/
theorem Machine.IsAllocated.apart {machine : Machine} {addresses : List U64} {frame : Nat}
    (allocated : machine.IsAllocated frame)
    (free : ∀ address ∈ addresses, machine.IsFree (frameOf address.toNat))
    : ∀ address ∈ addresses, frameOf address.toNat ≠ frame := by
  intro address member same
  exact (free address member).not_allocated (same ▸ allocated)

namespace Machine.Takes

variable {machine machine' machine'' : Machine} {taken taken' written written' : List U64}

theorem refl (wellFormed : machine.PagesWellFormed) : machine.Takes machine [] [] where
  wellFormed := wellFormed
  record := rfl
  distinct := List.nodup_nil
  free := by simp
  allocated := by simp
  states _ _ _ := rfl
  counted := rfl
  memory _ _ _ := rfl

/-- Allocated frames stay allocated. -/
theorem isAllocated (takes : machine.Takes machine' taken written) {frame : Nat}
    (allocated : machine.IsAllocated frame)
    : machine'.IsAllocated frame := by
  have apart := allocated.apart fun address member => (takes.free address member).2
  exact (frame_of_state takes.record fun inside => takes.states frame inside apart).2.mpr
    allocated

theorem outstanding (takes : machine.Takes machine' taken written) {address : U64}
    (outstanding : machine.Outstanding address)
    : machine'.Outstanding address :=
  ⟨outstanding.1, takes.isAllocated outstanding.2⟩

/-- The outstanding addresses grow by those taken. -/
theorem outstanding_iff (takes : machine.Takes machine' taken written) (address : U64)
    : machine'.Outstanding address ↔ address ∈ taken ∨ machine.Outstanding address := by
  constructor
  · intro outstanding
    by_cases named : ∃ other ∈ taken, frameOf other.toNat = frameOf address.toNat
    · obtain ⟨other, member, same⟩ := named
      left
      rw [← frameAddress_frameOf outstanding.1, ← same,
        frameAddress_frameOf (takes.free other member).1]
      exact member
    · right
      refine ⟨outstanding.1, ?_⟩
      refine (frame_of_state takes.record fun inside => ?_).2.mp outstanding.2
      exact takes.states _ inside fun other member same => named ⟨other, member, same⟩
  · intro either
    rcases either with member | outstanding
    · exact ⟨(takes.free address member).1, takes.allocated address member⟩
    · exact takes.outstanding outstanding

/-- Frames that are free afterwards were free before. -/
theorem isFree (takes : machine.Takes machine' taken written) {frame : Nat}
    (free : machine'.IsFree frame)
    : machine.IsFree frame := by
  refine (frame_of_state takes.record fun inside => ?_).1.mp free
  apply takes.states frame inside
  intro address member same
  exact free.not_allocated (same ▸ takes.allocated address member)

theorem trans (first : machine.Takes machine' taken written)
    (second : machine'.Takes machine'' taken' written')
    : machine.Takes machine'' (taken ++ taken') (written ++ written') where
  wellFormed := second.wellFormed
  record := first.record.trans second.record
  distinct := by
    refine List.nodup_append.mpr ⟨first.distinct, second.distinct, ?_⟩
    intro address member address' member' same
    subst same
    exact (second.free address member').2.not_allocated (first.allocated address member)
  free := by
    intro address member
    rcases List.mem_append.mp member with member | member
    · exact first.free address member
    · exact ⟨(second.free address member).1, first.isFree (second.free address member).2⟩
  allocated := by
    intro address member
    rcases List.mem_append.mp member with member | member
    · exact second.isAllocated (first.allocated address member)
    · exact second.allocated address member
  states := by
    intro frame inside apart
    rw [second.states frame (by rw [first.record.frames]; exact inside), first.states frame inside]
    · exact fun address member => apart address (List.mem_append_left _ member)
    · exact fun address member => apart address (List.mem_append_right _ member)
  counted := by
    have early := first.counted
    have late := second.counted
    rw [List.length_append]
    omega
  memory := by
    intro byte usable outside
    rw [second.memory byte (mt (first.record.isMetadata _).mp usable),
      first.memory byte usable]
    · intro inside
      obtain ⟨address, member, same⟩ := inside
      refine outside ⟨address, ?_, same⟩
      simp only [List.mem_append] at member ⊢
      tauto
    · intro inside
      obtain ⟨address, member, same⟩ := inside
      refine outside ⟨address, ?_, same⟩
      simp only [List.mem_append] at member ⊢
      tauto

/-- What was written may be said more coarsely. -/
theorem mono (takes : machine.Takes machine' taken written) (written' : List U64)
    (covered : ∀ address ∈ written, address ∈ taken ++ written')
    : machine.Takes machine' taken written' := by
  refine { takes with memory := ?_ }
  intro byte usable outside
  apply takes.memory byte usable
  intro inside
  obtain ⟨address, member, same⟩ := inside
  refine outside ⟨address, ?_, same⟩
  rcases List.mem_append.mp member with member | member
  · exact List.mem_append_left _ member
  · exact covered address member

/-- The order of the taken frames is of no account. -/
theorem perm (takes : machine.Takes machine' taken written) (same : taken.Perm taken')
    : machine.Takes machine' taken' written where
  wellFormed := takes.wellFormed
  record := takes.record
  distinct := same.nodup_iff.mp takes.distinct
  free address member := takes.free address (same.mem_iff.mpr member)
  allocated address member := takes.allocated address (same.mem_iff.mpr member)
  states frame inside apart :=
    takes.states frame inside fun address member => apart address (same.mem_iff.mp member)
  counted := by
    rw [← same.length_eq]
    exact takes.counted
  memory byte usable outside := by
    apply takes.memory byte usable
    intro inside
    obtain ⟨address, member, place⟩ := inside
    refine outside ⟨address, ?_, place⟩
    simpa only [List.mem_append, same.mem_iff] using member

/-- Taking a free frame. -/
theorem allocate (wellFormed : machine.PagesWellFormed) {frame : Nat}
    (free : machine.IsFree frame)
    : machine.Takes (machine.allocate frame) [frameAddress frame] [] := by
  have inside := free.1
  have place := wellFormed.frameOf_frameAddress inside
  have available : machine.pages.freeCount.toNat ≠ 0 := by
    intro zero
    exact wellFormed.freeCount_ne_zero.mpr ⟨frame, free⟩ (BitVec.eq_of_toNat_eq zero)
  refine ⟨wellFormed.allocate free, ?_, List.nodup_singleton _, ?_, ?_, ?_, ?_, ?_⟩
  · rfl
  · intro address member
    rw [List.mem_singleton.mp member, place]
    exact ⟨wellFormed.frameAddress_aligned inside, free⟩
  · intro address member
    rw [List.mem_singleton.mp member, place]
    exact (wellFormed.isAllocated_allocate inside frame).mpr (Or.inl rfl)
  · intro other inside' apart
    have different := apart _ (List.mem_singleton_self _)
    rw [place] at different
    rw [wellFormed.stateOf_allocate inside inside', if_neg (Ne.symm different)]
  · have taken : (machine.allocate frame).pages.freeCount.toNat
        = machine.pages.freeCount.toNat - 1 := toNat_sub_one available
    rw [taken, List.length_singleton]
    omega
  · intro byte usable _
    apply Memory.store_of_ne
    intro same
    subst same
    exact usable (wellFormed.stateAddress_metadata inside)

/-- Writing allocated frames takes nothing. -/
theorem write (wellFormed : machine.PagesWellFormed) {memory : Memory}
    (allocated : ∀ address ∈ written, machine.IsAllocated (frameOf address.toNat))
    (same : ∀ byte, ¬InFrames written byte → memory byte = machine.memory byte)
    : machine.Takes { machine with memory := memory } [] written := by
  have kept : ∀ byte, machine.IsMetadata (frameOf byte) → memory byte = machine.memory byte := by
    intro byte metadata
    apply same
    intro inside
    obtain ⟨address, member, place⟩ := inside
    exact wellFormed.not_metadata_of_allocated (allocated address member) (place ▸ metadata)
  refine ⟨wellFormed.congr kept, rfl, List.nodup_nil, by simp, by simp, ?_, rfl, ?_⟩
  · intro frame inside _
    exact wellFormed.stateOf_congr kept inside
  · intro byte _ outside
    exact same byte outside

/-- Allocated frames that are neither taken nor written keep their bytes. -/
theorem memory_of_allocated (takes : machine.Takes machine' taken written)
    (wellFormed : machine.PagesWellFormed) {byte : Nat}
    (allocated : machine.IsAllocated (frameOf byte))
    (outside : ¬InFrames written byte)
    : machine'.memory byte = machine.memory byte := by
  apply takes.memory byte (wellFormed.not_metadata_of_allocated allocated)
  intro inside
  obtain ⟨address, member, same⟩ := inside
  rcases List.mem_append.mp member with member | member
  · exact (takes.free address member).2.not_allocated (same ▸ allocated)
  · exact outside ⟨address, member, same⟩

end Machine.Takes

namespace Machine.Returns

variable {machine machine' machine'' : Machine} {returned returned' : List U64}

theorem refl (wellFormed : machine.PagesWellFormed) : machine.Returns machine [] where
  wellFormed := wellFormed
  record := rfl
  free := by simp
  states _ _ _ := rfl
  counted := rfl
  memory _ _ := rfl

theorem isAllocated (returns : machine.Returns machine' returned) {frame : Nat}
    (allocated : machine.IsAllocated frame)
    (apart : ∀ address ∈ returned, frameOf address.toNat ≠ frame)
    : machine'.IsAllocated frame :=
  (frame_of_state returns.record fun inside => returns.states frame inside apart).2.mpr allocated

theorem isFree (returns : machine.Returns machine' returned) {frame : Nat}
    (free : machine.IsFree frame)
    : machine'.IsFree frame := by
  by_cases named : ∃ address ∈ returned, frameOf address.toNat = frame
  · obtain ⟨address, member, same⟩ := named
    exact same ▸ returns.free address member
  · refine (frame_of_state returns.record fun inside => ?_).1.mpr free
    exact returns.states frame inside fun address member same => named ⟨address, member, same⟩

/-- The outstanding addresses shrink by those returned. -/
theorem outstanding_iff (returns : machine.Returns machine' returned)
    (aligned : ∀ address ∈ returned, address.toNat % pageSize = 0) (address : U64)
    : machine'.Outstanding address ↔ machine.Outstanding address ∧ address ∉ returned := by
  constructor
  · intro outstanding
    have apart : ∀ other ∈ returned, frameOf other.toNat ≠ frameOf address.toNat := by
      intro other member same
      exact (returns.free other member).not_allocated (same ▸ outstanding.2)
    refine ⟨⟨outstanding.1, ?_⟩, fun member => apart address member rfl⟩
    refine (frame_of_state returns.record fun inside => ?_).2.mp outstanding.2
    exact returns.states _ inside apart
  · intro both
    obtain ⟨outstanding, kept⟩ := both
    refine ⟨outstanding.1, returns.isAllocated outstanding.2 ?_⟩
    intro other member same
    apply kept
    rw [← frameAddress_frameOf outstanding.1, ← same, frameAddress_frameOf (aligned other member)]
    exact member

theorem trans (first : machine.Returns machine' returned)
    (second : machine'.Returns machine'' returned')
    : machine.Returns machine'' (returned ++ returned') where
  wellFormed := second.wellFormed
  record := first.record.trans second.record
  free := by
    intro address member
    rcases List.mem_append.mp member with member | member
    · exact second.isFree (first.free address member)
    · exact second.free address member
  states := by
    intro frame inside apart
    rw [second.states frame (by rw [first.record.frames]; exact inside), first.states frame inside]
    · exact fun address member => apart address (List.mem_append_left _ member)
    · exact fun address member => apart address (List.mem_append_right _ member)
  counted := by
    have early := first.counted
    have late := second.counted
    rw [List.length_append]
    omega
  memory := by
    intro byte usable
    rw [second.memory byte (mt (first.record.isMetadata _).mp usable), first.memory byte usable]

/-- The order of the returned frames is of no account. -/
theorem perm (returns : machine.Returns machine' returned) (same : returned.Perm returned')
    : machine.Returns machine' returned' where
  wellFormed := returns.wellFormed
  record := returns.record
  free address member := returns.free address (same.mem_iff.mpr member)
  states frame inside apart :=
    returns.states frame inside fun address member => apart address (same.mem_iff.mp member)
  counted := by
    rw [← same.length_eq]
    exact returns.counted
  memory := returns.memory

/-- Returning one outstanding frame. -/
theorem release (wellFormed : machine.PagesWellFormed) {address : U64}
    (outstanding : machine.Outstanding address)
    : machine.Returns (machine.release (frameOf address.toNat)) [address] := by
  have inside := outstanding.2.1
  refine ⟨wellFormed.release outstanding.2, rfl, ?_, ?_, ?_, ?_⟩
  · intro other member
    rw [List.mem_singleton.mp member]
    exact (wellFormed.isFree_release inside _).mpr (Or.inl rfl)
  · intro other inside' apart
    have different := apart _ (List.mem_singleton_self _)
    rw [wellFormed.stateOf_release inside inside', if_neg (Ne.symm different)]
  · have few : machine.pages.freeCount.toNat < machine.frames := by
      have below : machine.freeFrames ⊂ Finset.range machine.frames := by
        refine Finset.ssubset_iff_subset_ne.mpr ⟨Finset.filter_subset _ _, ?_⟩
        intro same
        have member : frameOf address.toNat ∈ machine.freeFrames :=
          same ▸ Finset.mem_range.mpr inside
        exact ((machine.mem_freeFrames _).mp member).not_allocated outstanding.2
      rw [wellFormed.counted]
      simpa using Finset.card_lt_card below
    have bound := machine.pages.frameCount.isLt
    unfold Machine.frames at few
    exact toNat_add_one (by omega)
  · intro byte usable
    apply Memory.store_of_ne
    intro same
    subst same
    exact usable (wellFormed.stateAddress_metadata inside)

end Machine.Returns

end MiniLinux
