import MiniLinux.Memory.PageInvariant

/-! The exact result of each allocator call at a well-formed machine. -/

namespace MiniLinux

open Foundation Foundation.Halting

/-- The `step`-th frame of the wrapping scan from `frame`. -/
def Machine.scanned (machine : Machine) (frame step : Nat) : Nat :=
  (frame + step) % machine.frames

/-- `frame` is the first free frame in cyclic order from `start`. -/
def Machine.FirstFree (machine : Machine) (start frame : Nat) : Prop :=
  ∃ step < machine.frames,
    frame = machine.scanned start step
    ∧ machine.IsFree frame
    ∧ ∀ earlier < step, ¬machine.IsFree (machine.scanned start earlier)

/-- The address of a frame keeps its number. -/
theorem frameAddress_toNat {frame : Nat} (bound : frame * pageSize < 2 ^ 64)
    : (frameAddress frame).toNat = frame * pageSize := by
  rw [frameAddress, BitVec.toNat_ofNat, Nat.mod_eq_of_lt bound]

/-- An aligned address is the address of its frame. -/
theorem frameAddress_frameOf {address : U64} (aligned : address.toNat % pageSize = 0)
    : frameAddress (frameOf address.toNat) = address := by
  apply BitVec.eq_of_toNat_eq
  have bound := address.isLt
  simp only [frameAddress, frameOf, pageSize, BitVec.toNat_ofNat] at aligned ⊢
  omega

namespace Machine.PagesWellFormed

variable {machine : Machine}

theorem frameAddress_toNat (wellFormed : machine.PagesWellFormed) {frame : Nat}
    (inside : frame < machine.frames)
    : (frameAddress frame).toNat = frame * pageSize := by
  apply MiniLinux.frameAddress_toNat
  have bound := wellFormed.frames_bound
  simp only [pageSize] at bound ⊢
  omega

theorem frameOf_frameAddress (wellFormed : machine.PagesWellFormed) {frame : Nat}
    (inside : frame < machine.frames)
    : frameOf (frameAddress frame).toNat = frame := by
  rw [wellFormed.frameAddress_toNat inside, frameOf]
  exact Nat.mul_div_cancel _ (by decide)

theorem frameAddress_aligned (wellFormed : machine.PagesWellFormed) {frame : Nat}
    (inside : frame < machine.frames)
    : (frameAddress frame).toNat % pageSize = 0 := by
  rw [wellFormed.frameAddress_toNat inside]
  exact Nat.mul_mod_left _ _

theorem nextCyclic_toNat {frameCount frame : U64} (inside : frame.toNat < frameCount.toNat)
    : (nextCyclic frameCount frame).toNat = (frame.toNat + 1) % frameCount.toNat := by
  have bound := frameCount.isLt
  have step : (frame + 1).toNat = frame.toNat + 1 := toNat_add_one (by omega)
  unfold nextCyclic
  by_cases last : frame + 1 = frameCount
  · have same : frame.toNat + 1 = frameCount.toNat := by rw [← step, last]
    rw [if_pos last, same, Nat.mod_self]
    rfl
  · have apart : frame.toNat + 1 ≠ frameCount.toNat := by
      intro same
      exact last (BitVec.eq_of_toNat_eq (step.trans same))
    rw [if_neg last, step, Nat.mod_eq_of_lt (by omega)]

/-- The scan takes the first free frame within its rounds, or ends without a change.
Witness: induction on the rounds; each round that fails moves one frame on, wrapping.
-/
theorem allocScan_spec (machine : Machine) (address : Option U64)
    (rounds : Nat) (frame : U64) (inside : frame.toNat < machine.frames)
    : (∃ step < rounds,
        machine.IsFree (machine.scanned frame.toNat step)
        ∧ (∀ earlier < step, ¬machine.IsFree (machine.scanned frame.toNat earlier))
        ∧ allocScan address rounds frame machine
          = .ok
              ((true, some (frameAddress (machine.scanned frame.toNat step))),
                machine.allocate (machine.scanned frame.toNat step)))
      ∨ ((∀ step < rounds, ¬machine.IsFree (machine.scanned frame.toNat step))
        ∧ allocScan address rounds frame machine = .ok ((false, address), machine)) := by
  induction rounds generalizing frame with
  | zero => exact Or.inr ⟨by simp, rfl⟩
  | succ rounds ih =>
      have here : machine.scanned frame.toNat 0 = frame.toNat := Nat.mod_eq_of_lt inside
      by_cases free : machine.stateOf frame.toNat = PageState.free.byte
      · refine Or.inl ⟨0, Nat.succ_pos _, ?_, by simp, ?_⟩
        · rw [here]
          exact ⟨inside, free⟩
        · rw [here, allocScan, bind_ok (stateAt_ok inside), if_pos free,
            bind_ok (setState_ok inside _), bind_ok (modifyPages_apply _ _)]
          simp only [pure_apply, Machine.allocate, withState, frameAddress, BitVec.ofNat_mul,
            BitVec.ofNat_toNat, BitVec.setWidth_eq]
      · have nextInside := nextCyclic_lt inside
        have shifted (step : Nat)
            : machine.scanned (nextCyclic machine.pages.frameCount frame).toNat step
              = machine.scanned frame.toNat (step + 1) := by
          rw [scanned, scanned, nextCyclic_toNat inside]
          simp only [frames]
          rw [Nat.mod_add_mod]
          congr 1
          omega
        have skipped : allocScan address (rounds + 1) frame machine
            = allocScan address rounds (nextCyclic machine.pages.frameCount frame) machine := by
          rw [allocScan, bind_ok (stateAt_ok inside), if_neg free, bind_get_apply]
        have notFree : ¬machine.IsFree (machine.scanned frame.toNat 0) := by
          rw [here]
          exact fun isFree => free isFree.2
        rcases ih _ nextInside with ⟨step, bound, isFree, earlier, result⟩ | ⟨none, result⟩
        · refine Or.inl ⟨step + 1, by omega, shifted step ▸ isFree, ?_, ?_⟩
          · intro previous before
            cases previous with
            | zero => exact notFree
            | succ previous => exact shifted previous ▸ earlier previous (by omega)
          · rw [skipped, result, shifted]
        · refine Or.inr ⟨?_, skipped.trans result⟩
          intro step bound
          cases step with
          | zero => exact notFree
          | succ step => exact shifted step ▸ none step (by omega)

/-- Every frame is met by a full round of the scan. -/
theorem scanned_surjective (machine : Machine) (start : Nat) {frame : Nat}
    (inside : frame < machine.frames)
    : ∃ step < machine.frames, machine.scanned start step = frame := by
  have positive : 0 < machine.frames := Nat.lt_of_le_of_lt (Nat.zero_le _) inside
  refine ⟨(frame + (machine.frames - start % machine.frames)) % machine.frames,
    Nat.mod_lt _ positive, ?_⟩
  have bound := Nat.mod_lt start positive
  have total : start % machine.frames + (frame + (machine.frames - start % machine.frames))
      = frame + machine.frames := by omega
  rw [scanned, Nat.add_mod_mod, ← Nat.mod_add_mod, total, Nat.add_mod_right,
    Nat.mod_eq_of_lt inside]

/-- With a free frame left, `page_alloc` takes the first one in cyclic order. -/
theorem pageAlloc_ok (wellFormed : machine.PagesWellFormed) (output : U64)
    (available : machine.pages.freeCount ≠ 0)
    : ∃ frame,
        machine.FirstFree machine.pages.nextFrame.toNat frame
        ∧ pageAlloc (some output) machine
          = .ok ((true, some (frameAddress frame)), machine.allocate frame) := by
  have started : pageAlloc (some output) machine
      = allocScan (some output) machine.frames machine.pages.nextFrame machine := by
    have unguarded
        : ¬(some output = none ∨ machine.pages.states = 0 ∨ machine.pages.freeCount = 0) := by
      rintro (null | unready | empty)
      · cases null
      · exact wellFormed.ready unready
      · exact available empty
    rw [pageAlloc, bind_get_apply, if_neg unguarded]
    rfl
  rcases allocScan_spec machine (some output) machine.frames _ wellFormed.nextInside
    with ⟨step, bound, free, earlier, result⟩ | ⟨none, _⟩
  · exact ⟨_, ⟨step, bound, rfl, free, earlier⟩, started.trans result⟩
  · obtain ⟨frame, free⟩ := wellFormed.freeCount_ne_zero.mp available
    obtain ⟨step, bound, met⟩ :=
      scanned_surjective machine machine.pages.nextFrame.toNat free.1
    exact (none step bound (met ▸ free)).elim

/-- The test of `page_free` and `page_data` decides whether the address is outstanding. -/
theorem pageAllocated_eq (wellFormed : machine.PagesWellFormed) (address : U64)
    : pageAllocated address machine = .ok (decide (machine.Outstanding address), machine) := by
  by_cases aligned : address.toNat % pageSize = 0
  · by_cases inside : frameOf address.toNat < machine.frames
    · have unguarded
          : ¬(machine.pages.states = 0 ∨ address.toNat % pageSize ≠ 0
              ∨ frameOf address.toNat ≥ machine.pages.frameCount.toNat) := by
        simp only [wellFormed.ready, aligned, false_or, ne_eq, not_true_eq_false, not_le]
        exact inside
      rw [pageAllocated, bind_get_apply, if_neg unguarded, bind_ok (stateAt_ok inside),
        pure_apply]
      simp only [Outstanding, IsAllocated, aligned, inside, true_and]
    · have refused : ¬machine.Outstanding address := fun outstanding => inside outstanding.2.1
      have beyond : frameOf address.toNat ≥ machine.pages.frameCount.toNat := not_lt.mp inside
      rw [pageAllocated, bind_get_apply, if_pos (Or.inr (Or.inr beyond)),
        decide_eq_false refused, pure_apply]
  · have refused : ¬machine.Outstanding address := fun outstanding => aligned outstanding.1
    rw [pageAllocated, bind_get_apply, if_pos (Or.inr (Or.inl aligned)),
      decide_eq_false refused, pure_apply]

theorem pageFree_ok (wellFormed : machine.PagesWellFormed) {address : U64}
    (outstanding : machine.Outstanding address)
    : pageFree address machine
      = .ok (true, machine.release (frameOf address.toNat)) := by
  have allocated := wellFormed.pageAllocated_eq address
  rw [decide_eq_true outstanding] at allocated
  rw [pageFree, bind_ok allocated, if_pos rfl, bind_ok (setState_ok outstanding.2.1 _),
    bind_ok (modifyPages_apply _ _)]
  rfl

theorem pageFree_refused (wellFormed : machine.PagesWellFormed) {address : U64}
    (refused : ¬machine.Outstanding address)
    : pageFree address machine = .ok (false, machine) := by
  have allocated := wellFormed.pageAllocated_eq address
  rw [decide_eq_false refused] at allocated
  rw [pageFree, bind_ok allocated]
  rfl

theorem pageData_eq (wellFormed : machine.PagesWellFormed) (address : U64)
    : pageData address machine
      = .ok
          (if machine.Outstanding address then some (machine.pages.hhdmOffset + address)
            else none,
            machine) := by
  rw [pageData, bind_ok (wellFormed.pageAllocated_eq address), bind_get_apply]
  by_cases outstanding : machine.Outstanding address
  · rw [decide_eq_true outstanding, if_pos rfl, if_pos outstanding, pure_apply]
  · rw [decide_eq_false outstanding, if_neg outstanding]
    rfl

end Machine.PagesWellFormed

/-- Without a free frame, or without a variable, `page_alloc` changes nothing. -/
theorem pageAlloc_refused (machine : Machine) (address : Option U64)
    (refused : address = none ∨ machine.pages.freeCount = 0)
    : pageAlloc address machine = .ok ((false, address), machine) := by
  have guarded : address = none ∨ machine.pages.states = 0 ∨ machine.pages.freeCount = 0 :=
    refused.imp_right Or.inr
  rw [pageAlloc, bind_get_apply, if_pos guarded, pure_apply]

end MiniLinux
