import MiniLinux.Memory.Page

/-! What stays true of the allocator between calls, and what one call does.
The state bytes are part of physical memory, so the invariant also says where they are:
inside the metadata frames, which are never handed out.
-/

namespace MiniLinux

open Foundation Foundation.Halting

-----------------------------------------------------------------------------------------
-- Frames and their states
-----------------------------------------------------------------------------------------

/-- The number of frames the state bytes cover. -/
def Machine.frames (machine : Machine) : Nat := machine.pages.frameCount.toNat

/-- The state byte of a frame. -/
def Machine.stateOf (machine : Machine) (frame : Nat) : Byte :=
  machine.memory (machine.stateAddress frame)

/-- The first metadata frame. -/
def Machine.metadataFrame (machine : Machine) : Nat :=
  frameOf machine.pages.metadataBase.toNat

/-- The frame holds state bytes. -/
def Machine.IsMetadata (machine : Machine) (frame : Nat) : Prop :=
  machine.metadataFrame ≤ frame
  ∧ frame < machine.metadataFrame + machine.pages.metadataPages.toNat

def Machine.IsFree (machine : Machine) (frame : Nat) : Prop :=
  frame < machine.frames ∧ machine.stateOf frame = PageState.free.byte

def Machine.IsAllocated (machine : Machine) (frame : Nat) : Prop :=
  frame < machine.frames ∧ machine.stateOf frame = PageState.allocated.byte

/-- `address` is the address of an allocated frame. -/
def Machine.Outstanding (machine : Machine) (address : U64) : Prop :=
  address.toNat % pageSize = 0 ∧ machine.IsAllocated (frameOf address.toNat)

instance (machine : Machine) (frame : Nat) : Decidable (machine.IsMetadata frame) :=
  inferInstanceAs (Decidable (_ ∧ _))

instance (machine : Machine) (frame : Nat) : Decidable (machine.IsFree frame) :=
  inferInstanceAs (Decidable (_ ∧ _))

instance (machine : Machine) (frame : Nat) : Decidable (machine.IsAllocated frame) :=
  inferInstanceAs (Decidable (_ ∧ _))

instance (machine : Machine) (address : U64) : Decidable (machine.Outstanding address) :=
  inferInstanceAs (Decidable (_ ∧ _))

/-- The frames that `page_alloc` may hand out. -/
def Machine.freeFrames (machine : Machine) : Finset Nat :=
  (Finset.range machine.frames).filter machine.IsFree

@[simp] theorem Machine.mem_freeFrames (machine : Machine) (frame : Nat)
    : frame ∈ machine.freeFrames ↔ machine.IsFree frame := by
  simp only [freeFrames, Finset.mem_filter, Finset.mem_range, IsFree, and_self_left]

theorem Machine.IsFree.not_allocated {machine : Machine} {frame : Nat}
    (free : machine.IsFree frame)
    : ¬machine.IsAllocated frame := by
  rintro ⟨_, allocated⟩
  rw [free.2] at allocated
  exact absurd (PageState.byte_injective allocated) (by decide)

/-- The state bytes have a place: whole frames inside the frames they describe, mapped by
the direct map without overflow.
-/
structure Machine.StatesPlaced (machine : Machine) : Prop where
  ready : machine.pages.states ≠ 0
  statesPlaced
    : machine.pages.states = machine.pages.hhdmOffset + machine.pages.metadataBase
  metadataAligned : machine.pages.metadataBase.toNat % pageSize = 0
  metadataNonzero : machine.pages.metadataBase ≠ 0
  metadataInside
    : machine.metadataFrame + machine.pages.metadataPages.toNat ≤ machine.frames
  metadataHolds : machine.frames ≤ machine.pages.metadataPages.toNat * pageSize
  mapped : machine.pages.hhdmOffset.toNat + machine.frames * pageSize ≤ 2 ^ 64

/-- The allocator has been initialised and its record agrees with the state bytes. -/
structure Machine.PagesWellFormed (machine : Machine) : Prop extends machine.StatesPlaced where
  reserved
    : ∀ frame < machine.frames,
        machine.IsMetadata frame ∨ frame = 0
        → machine.stateOf frame = PageState.unmanaged.byte
  counted : machine.pages.freeCount.toNat = machine.freeFrames.card
  nextInside : machine.pages.nextFrame.toNat < machine.frames

namespace Machine.StatesPlaced

variable {machine : Machine}

theorem frames_bound (placed : machine.StatesPlaced)
    : machine.frames * pageSize ≤ 2 ^ 64 :=
  Nat.le_trans (Nat.le_add_left _ _) placed.mapped

/-- The state byte of a frame lies at its index above the metadata base. -/
theorem stateAddress_eq (placed : machine.StatesPlaced) {frame : Nat}
    (inside : frame < machine.frames)
    : machine.stateAddress frame = machine.pages.metadataBase.toNat + frame := by
  have aligned := placed.metadataAligned
  have covered := placed.metadataInside
  have holds := placed.metadataHolds
  have bound := placed.frames_bound
  simp only [metadataFrame, frameOf, pageSize] at aligned covered holds bound
  rw [stateAddress, placed.statesPlaced, BitVec.add_assoc, directMap_add,
    BitVec.toNat_add, BitVec.toNat_ofNat]
  omega

/-- Every state byte is stored in a metadata frame. -/
theorem stateAddress_metadata (placed : machine.StatesPlaced) {frame : Nat}
    (inside : frame < machine.frames)
    : machine.IsMetadata (frameOf (machine.stateAddress frame)) := by
  have aligned := placed.metadataAligned
  have holds := placed.metadataHolds
  rw [placed.stateAddress_eq inside]
  simp only [IsMetadata, metadataFrame, frameOf, pageSize] at aligned holds ⊢
  omega

theorem metadataFrame_pos (placed : machine.StatesPlaced) : 0 < machine.metadataFrame := by
  have aligned := placed.metadataAligned
  have nonzero : machine.pages.metadataBase.toNat ≠ 0 :=
    fun zero => placed.metadataNonzero (BitVec.eq_of_toNat_eq zero)
  simp only [metadataFrame, frameOf, pageSize] at aligned ⊢
  omega

end Machine.StatesPlaced

namespace Machine.PagesWellFormed

variable {machine : Machine}

theorem not_metadata_of_allocated (wellFormed : machine.PagesWellFormed) {frame : Nat}
    (allocated : machine.IsAllocated frame)
    : ¬machine.IsMetadata frame := by
  intro metadata
  have state := wellFormed.reserved frame allocated.1 (.inl metadata)
  rw [allocated.2] at state
  exact absurd (PageState.byte_injective state) (by decide)

theorem not_metadata_of_free (wellFormed : machine.PagesWellFormed) {frame : Nat}
    (free : machine.IsFree frame)
    : ¬machine.IsMetadata frame := by
  intro metadata
  have state := wellFormed.reserved frame free.1 (.inl metadata)
  rw [free.2] at state
  exact absurd (PageState.byte_injective state) (by decide)

theorem ne_zero_of_free (wellFormed : machine.PagesWellFormed) {frame : Nat}
    (free : machine.IsFree frame)
    : frame ≠ 0 := by
  intro zero
  have state := wellFormed.reserved frame free.1 (.inr zero)
  rw [free.2] at state
  exact absurd (PageState.byte_injective state) (by decide)

theorem ne_zero_of_allocated (wellFormed : machine.PagesWellFormed) {frame : Nat}
    (allocated : machine.IsAllocated frame)
    : frame ≠ 0 := by
  intro zero
  have state := wellFormed.reserved frame allocated.1 (.inr zero)
  rw [allocated.2] at state
  exact absurd (PageState.byte_injective state) (by decide)

theorem freeCount_ne_zero (wellFormed : machine.PagesWellFormed)
    : machine.pages.freeCount ≠ 0 ↔ ∃ frame, machine.IsFree frame := by
  have counted := wellFormed.counted
  constructor
  · intro nonzero
    have positive : 0 < machine.freeFrames.card := by
      rw [← counted]
      exact Nat.pos_of_ne_zero fun zero => nonzero (BitVec.eq_of_toNat_eq zero)
    obtain ⟨frame, member⟩ := Finset.card_pos.mp positive
    exact ⟨frame, (mem_freeFrames machine frame).mp member⟩
  · rintro ⟨frame, free⟩ zero
    rw [zero] at counted
    have empty := Finset.card_eq_zero.mp counted.symm
    have member := (mem_freeFrames machine frame).mpr free
    rw [empty] at member
    exact Finset.notMem_empty frame member

end Machine.PagesWellFormed

-----------------------------------------------------------------------------------------
-- Changing one state byte
-----------------------------------------------------------------------------------------

/-- The machine after one state byte is written. -/
def Machine.withState (machine : Machine) (frame : Nat) (state : PageState) : Machine :=
  { machine with memory := machine.memory.store (machine.stateAddress frame) state.byte }

/-- The machine after `page_alloc` has taken `frame`. -/
def Machine.allocate (machine : Machine) (frame : Nat) : Machine :=
  { machine.withState frame .allocated with
    pages := { machine.pages with
      freeCount := machine.pages.freeCount - 1
      nextFrame := nextCyclic machine.pages.frameCount (BitVec.ofNat 64 frame) } }

/-- The machine after `page_free` has returned `frame`. -/
def Machine.release (machine : Machine) (frame : Nat) : Machine :=
  { machine.withState frame .free with
    pages := { machine.pages with freeCount := machine.pages.freeCount + 1 } }

theorem setState_ok {machine : Machine} {frame : Nat} (inside : frame < machine.frames)
    (state : PageState)
    : setState frame state machine = .ok ((), machine.withState frame state) :=
  if_pos inside

theorem stateAt_ok {machine : Machine} {frame : Nat} (inside : frame < machine.frames)
    : stateAt frame machine = .ok (machine.stateOf frame, machine) :=
  if_pos inside

@[simp] theorem modifyPages_apply (update : Pages → Pages) (machine : Machine)
    : modifyPages update machine
      = .ok (⟨⟩, { machine with pages := update machine.pages }) :=
  rfl

theorem Machine.StatesPlaced.stateOf_withState {machine : Machine}
    (placed : machine.StatesPlaced) {frame other : Nat}
    (inside : frame < machine.frames) (inside' : other < machine.frames) (state : PageState)
    : (machine.withState frame state).stateOf other
      = if other = frame then state.byte else machine.stateOf other := by
  change machine.memory.store (machine.stateAddress frame) state.byte
    (machine.stateAddress other) = _
  by_cases same : other = frame
  · rw [if_pos same, same, Memory.store_self]
  · rw [if_neg same, Memory.store_of_ne]
    · rfl
    · rw [placed.stateAddress_eq inside, placed.stateAddress_eq inside']
      omega

namespace Machine.PagesWellFormed

variable {machine : Machine}

theorem stateOf_allocate (wellFormed : machine.PagesWellFormed) {frame other : Nat}
    (inside : frame < machine.frames) (inside' : other < machine.frames)
    : (machine.allocate frame).stateOf other
      = if other = frame then PageState.allocated.byte else machine.stateOf other :=
  wellFormed.stateOf_withState inside inside' .allocated

theorem stateOf_release (wellFormed : machine.PagesWellFormed) {frame other : Nat}
    (inside : frame < machine.frames) (inside' : other < machine.frames)
    : (machine.release frame).stateOf other
      = if other = frame then PageState.free.byte else machine.stateOf other :=
  wellFormed.stateOf_withState inside inside' .free

theorem isAllocated_allocate (wellFormed : machine.PagesWellFormed) {frame : Nat}
    (inside : frame < machine.frames) (other : Nat)
    : (machine.allocate frame).IsAllocated other
      ↔ other = frame ∨ machine.IsAllocated other := by
  constructor
  · rintro ⟨inside', state⟩
    rw [wellFormed.stateOf_allocate inside inside'] at state
    by_cases same : other = frame
    · exact .inl same
    · rw [if_neg same] at state
      exact .inr ⟨inside', state⟩
  · rintro (rfl | ⟨inside', state⟩)
    · exact ⟨inside, by rw [wellFormed.stateOf_allocate inside inside, if_pos rfl]⟩
    · refine ⟨inside', ?_⟩
      rw [wellFormed.stateOf_allocate inside inside', state, ite_self]

theorem isFree_allocate (wellFormed : machine.PagesWellFormed) {frame : Nat}
    (inside : frame < machine.frames) (other : Nat)
    : (machine.allocate frame).IsFree other ↔ other ≠ frame ∧ machine.IsFree other := by
  constructor
  · rintro ⟨inside', state⟩
    rw [wellFormed.stateOf_allocate inside inside'] at state
    by_cases same : other = frame
    · rw [if_pos same] at state
      exact absurd (PageState.byte_injective state) (by decide)
    · rw [if_neg same] at state
      exact ⟨same, inside', state⟩
  · rintro ⟨different, inside', state⟩
    exact ⟨inside', by rw [wellFormed.stateOf_allocate inside inside', if_neg different, state]⟩

theorem isAllocated_release (wellFormed : machine.PagesWellFormed) {frame : Nat}
    (inside : frame < machine.frames) (other : Nat)
    : (machine.release frame).IsAllocated other
      ↔ other ≠ frame ∧ machine.IsAllocated other := by
  constructor
  · rintro ⟨inside', state⟩
    rw [wellFormed.stateOf_release inside inside'] at state
    by_cases same : other = frame
    · rw [if_pos same] at state
      exact absurd (PageState.byte_injective state) (by decide)
    · rw [if_neg same] at state
      exact ⟨same, inside', state⟩
  · rintro ⟨different, inside', state⟩
    exact ⟨inside', by rw [wellFormed.stateOf_release inside inside', if_neg different, state]⟩

theorem isFree_release (wellFormed : machine.PagesWellFormed) {frame : Nat}
    (inside : frame < machine.frames) (other : Nat)
    : (machine.release frame).IsFree other ↔ other = frame ∨ machine.IsFree other := by
  constructor
  · rintro ⟨inside', state⟩
    rw [wellFormed.stateOf_release inside inside'] at state
    by_cases same : other = frame
    · exact .inl same
    · rw [if_neg same] at state
      exact .inr ⟨inside', state⟩
  · rintro (rfl | ⟨inside', state⟩)
    · exact ⟨inside, by rw [wellFormed.stateOf_release inside inside, if_pos rfl]⟩
    · refine ⟨inside', ?_⟩
      rw [wellFormed.stateOf_release inside inside', state, ite_self]

theorem nextCyclic_lt {frameCount frame : U64} (inside : frame.toNat < frameCount.toNat)
    : (nextCyclic frameCount frame).toNat < frameCount.toNat := by
  unfold nextCyclic
  split
  · exact Nat.lt_of_le_of_lt (Nat.zero_le _) inside
  · rename_i different
    have bound := frameCount.isLt
    have step : (frame + 1).toNat = frame.toNat + 1 := toNat_add_one (by omega)
    have apart : (frame + 1).toNat ≠ frameCount.toNat :=
      fun same => different (BitVec.eq_of_toNat_eq same)
    omega

/-- Taking a free frame keeps the record in agreement: one free frame fewer, and the same
states elsewhere.
-/
theorem allocate (wellFormed : machine.PagesWellFormed) {frame : Nat}
    (free : machine.IsFree frame)
    : (machine.allocate frame).PagesWellFormed := by
  have inside := free.1
  have nonzero := wellFormed.freeCount_ne_zero.mpr ⟨frame, free⟩
  have small : frame < 2 ^ 64 := Nat.lt_trans inside machine.pages.frameCount.isLt
  have place : (BitVec.ofNat 64 frame).toNat = frame := by
    rw [BitVec.toNat_ofNat, Nat.mod_eq_of_lt small]
  refine { wellFormed with reserved := ?_, counted := ?_, nextInside := ?_ }
  · intro other inside' kept
    have different : other ≠ frame := by
      rintro rfl
      rcases kept with metadata | zero
      · exact wellFormed.not_metadata_of_free free metadata
      · exact wellFormed.ne_zero_of_free free zero
    rw [wellFormed.stateOf_allocate inside inside', if_neg different]
    exact wellFormed.reserved other inside' kept
  · have taken : (machine.allocate frame).freeFrames = machine.freeFrames.erase frame := by
      ext other
      rw [mem_freeFrames, wellFormed.isFree_allocate inside, Finset.mem_erase, mem_freeFrames]
    have positive : machine.pages.freeCount.toNat ≠ 0 :=
      fun zero => nonzero (BitVec.eq_of_toNat_eq zero)
    rw [taken, Finset.card_erase_of_mem ((mem_freeFrames _ _).mpr free), ← wellFormed.counted]
    exact toNat_sub_one positive
  · exact nextCyclic_lt (by rw [place]; exact inside)

/-- Marking a frame free keeps the record in agreement: one free frame more. -/
theorem release_unfree (wellFormed : machine.PagesWellFormed) {frame : Nat}
    (inside : frame < machine.frames) (unfree : ¬machine.IsFree frame)
    (usable : ¬machine.IsMetadata frame) (nonzero : frame ≠ 0)
    : (machine.release frame).PagesWellFormed := by
  have returned : (machine.release frame).freeFrames = insert frame machine.freeFrames := by
    ext other
    rw [mem_freeFrames, wellFormed.isFree_release inside, Finset.mem_insert, mem_freeFrames]
  have absent : frame ∉ machine.freeFrames :=
    fun member => unfree ((mem_freeFrames _ _).mp member)
  refine { wellFormed with reserved := ?_, counted := ?_ }
  · intro other inside' kept
    have different : other ≠ frame := by
      rintro rfl
      exact kept.elim usable nonzero
    rw [wellFormed.stateOf_release inside inside', if_neg different]
    exact wellFormed.reserved other inside' kept
  · have few : machine.freeFrames.card < machine.frames := by
      have below : machine.freeFrames ⊂ Finset.range machine.frames := by
        refine Finset.ssubset_iff_subset_ne.mpr ⟨Finset.filter_subset _ _, ?_⟩
        intro same
        exact absent (same ▸ Finset.mem_range.mpr inside)
      simpa using Finset.card_lt_card below
    have bound := machine.pages.frameCount.isLt
    have small : machine.pages.freeCount.toNat < machine.pages.frameCount.toNat :=
      wellFormed.counted ▸ few
    rw [returned, Finset.card_insert_of_notMem absent, ← wellFormed.counted]
    exact toNat_add_one (by omega)

/-- Returning an allocated frame keeps the record in agreement. -/
theorem release (wellFormed : machine.PagesWellFormed) {frame : Nat}
    (allocated : machine.IsAllocated frame)
    : (machine.release frame).PagesWellFormed :=
  wellFormed.release_unfree allocated.1 (fun free => free.not_allocated allocated)
    (wellFormed.not_metadata_of_allocated allocated)
    (wellFormed.ne_zero_of_allocated allocated)

/-- A change of memory that leaves the metadata frames alone is invisible to the allocator. -/
theorem stateOf_congr (wellFormed : machine.PagesWellFormed) {memory : Memory}
    (same : ∀ address, machine.IsMetadata (frameOf address) → memory address = machine.memory address)
    {frame : Nat} (inside : frame < machine.frames)
    : ({ machine with memory := memory } : Machine).stateOf frame = machine.stateOf frame :=
  same _ (wellFormed.stateAddress_metadata inside)

theorem congr (wellFormed : machine.PagesWellFormed) {memory : Memory}
    (same : ∀ address, machine.IsMetadata (frameOf address) → memory address = machine.memory address)
    : ({ machine with memory := memory } : Machine).PagesWellFormed := by
  refine { wellFormed with reserved := ?_, counted := ?_ }
  · intro frame inside kept
    rw [wellFormed.stateOf_congr same inside]
    exact wellFormed.reserved frame inside kept
  · rw [wellFormed.counted]
    congr 1
    ext frame
    rw [mem_freeFrames, mem_freeFrames]
    exact and_congr_right fun inside => by rw [wellFormed.stateOf_congr same inside]

end Machine.PagesWellFormed

end MiniLinux
