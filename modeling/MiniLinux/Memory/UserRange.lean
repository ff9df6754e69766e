import MiniLinux.Memory.CpuWalk

/-! The copy boundary of `kernel/usercopy.c`.
`user_range` looks one byte up in every page of the range. That decides every byte, because
a walk reads only the page number.
-/

namespace MiniLinux

open Foundation Foundation.Halting

/-- `COPY_LIMIT` -/
def copyLimit : Nat := 256

/-- The test of the loop body: the byte is mapped for the user, and writable if needed. -/
def Machine.userByte (machine : Machine) (space : Option AddressSpace) (position : U64)
    (writing : Bool)
    : Bool :=
  let (found, _, flags) := machine.vmLookup space position 0 0
  found && flags &&& vmUser ≠ 0 && (!writing || flags &&& vmWrite ≠ 0)

/-- The bytes that one round of the loop covers. -/
def chunkStep (position : U64) (remaining : Nat) : Nat :=
  let step := pageSize - position.toNat % pageSize
  if step > remaining then remaining else step

theorem chunkStep_pos (position : U64) (remaining : Nat) (positive : 0 < remaining)
    : 0 < chunkStep position remaining := by
  have bound : position.toNat % pageSize < pageSize := Nat.mod_lt _ (by decide)
  unfold chunkStep
  simp only
  split
  · exact positive
  · omega

theorem chunkStep_le (position : U64) (remaining : Nat)
    : chunkStep position remaining ≤ pageSize - position.toNat % pageSize := by
  unfold chunkStep
  simp only
  split <;> omega

/-- The loop of `user_range`. -/
def Machine.userRangeFrom (machine : Machine) (space : Option AddressSpace) (address : U64)
    (length : Nat) (writing : Bool) (checked : Nat)
    : Bool :=
  if checked < length then
    let position := address + BitVec.ofNat 64 checked
    if machine.userByte space position writing then
      machine.userRangeFrom space address length writing
        (checked + chunkStep position (length - checked))
    else false
  else true
termination_by length - checked
decreasing_by
  have positive :=
    chunkStep_pos (address + BitVec.ofNat 64 checked) (length - checked) (by omega)
  omega

/-- `user_range` -/
def Machine.userRange (machine : Machine) (space : Option AddressSpace) (address length : U64)
    (writing : Bool)
    : Bool :=
  if length.toNat > copyLimit ∨ address ≥ 0x800000000000 ∨ length > 0x800000000000 - address
  then false
  else machine.userRangeFrom space address length.toNat writing 0

/-- The walk reads only the page number of an address. -/
theorem Machine.cpuEntries_page (machine : Machine) (root : U64) {address address' : U64}
    (page : address.toNat / pageSize = address'.toNat / pageSize)
    : machine.cpuEntries root address = machine.cpuEntries root address' := by
  have indices : ∀ shift ∈ walkShifts, tableIndex address shift = tableIndex address' shift := by
    intro shift member
    have index (address : U64) (level : Nat)
        : tableIndex address (12 + level) = address.toNat / pageSize / 2 ^ level % 512 := by
      have mask : (511 : U64).toNat = 2 ^ 9 - 1 := rfl
      rw [tableIndex, BitVec.toNat_and, BitVec.toNat_ushiftRight, Nat.shiftRight_eq_div_pow,
        mask, Nat.and_two_pow_sub_one_eq_mod, Nat.pow_add, ← Nat.div_div_eq_div_mul]
      rfl
    obtain ⟨level, rfl⟩ : ∃ level, shift = 12 + level := by
      refine ⟨shift - 12, ?_⟩
      simp only [walkShifts, List.mem_cons, List.not_mem_nil, or_false] at member
      omega
    rw [index, index, page]
  unfold cpuEntries
  generalize walkShifts = shifts at indices
  induction shifts generalizing root with
  | nil => rfl
  | cons shift rest ih =>
      rw [cpuWalk, cpuWalk, indices shift List.mem_cons_self,
        ih _ fun other member => indices other (List.mem_cons_of_mem _ member)]

/-- The test of one byte is the processor's, for a user and with pages of 4 KiB. -/
theorem Machine.userByte_iff (machine : Machine) (space : AddressSpace) (position : U64)
    (writing : Bool)
    : machine.userByte (some space) position writing = true
      ↔ space.root ≠ 0 ∧ position.toNat < 2 ^ 47
        ∧ machine.SmallPageAccess space.root true writing position := by
  rw [userByte, vmLookup_cpu]
  by_cases accepted : machine.FourPresent space.root position
  · have ⟨live, low, length, present⟩ := accepted
    have user := flagsThrough_user (vmWrite ||| vmUser ||| vmExec)
      (machine.cpuEntries space.root position)
    have write := flagsThrough_write (vmWrite ||| vmUser ||| vmExec)
      (machine.cpuEntries space.root position)
    simp only [if_pos accepted, Bool.true_and, Bool.and_eq_true, decide_eq_true_eq,
      Bool.or_eq_true, Bool.not_eq_true', user, write]
    constructor
    · intro both
      obtain ⟨⟨_, users⟩, writes⟩ := both
      refine ⟨live, low, length, fun entry member => ⟨present entry member, ?_, ?_⟩⟩
      · exact fun _ => users entry member
      · intro writing
        rcases writes with reading | writes
        · exact absurd (writing.symm.trans reading) (by decide)
        · exact writes.2 entry member
    · intro all
      obtain ⟨_, _, _, permits⟩ := all
      refine ⟨⟨by decide, fun entry member => (permits entry member).2.1 rfl⟩, ?_⟩
      cases writing with
      | false => exact Or.inl rfl
      | true => exact Or.inr ⟨by decide, fun entry member => (permits entry member).2.2 rfl⟩
  · simp only [if_neg accepted, Bool.false_and, Bool.false_eq_true, false_iff]
    intro all
    obtain ⟨live, low, length, permits⟩ := all
    exact accepted ⟨live, low, length, fun entry member => (permits entry member).1⟩

/-- Bytes of one page pass or fail together. -/
theorem Machine.userByte_page (machine : Machine) (space : Option AddressSpace)
    {position position' : U64} (page : position.toNat / pageSize = position'.toNat / pageSize)
    (writing : Bool)
    : machine.userByte space position writing = machine.userByte space position' writing := by
  cases space with
  | none => rfl
  | some space =>
      have low : position.toNat < 2 ^ 47 ↔ position'.toNat < 2 ^ 47 := by
        simp only [pageSize] at page
        omega
      rw [Bool.eq_iff_iff, userByte_iff, userByte_iff, low, SmallPageAccess, SmallPageAccess,
        machine.cpuEntries_page space.root page]

/-- The position of a byte of a range in the lower half. -/
theorem position_toNat {address : U64} {length offset : Nat}
    (below : address.toNat + length ≤ 2 ^ 47) (inside : offset < length)
    : (address + BitVec.ofNat 64 offset).toNat = address.toNat + offset := by
  rw [BitVec.toNat_add, BitVec.toNat_ofNat]
  omega

/-- The loop accepts exactly the ranges whose every byte passes, by induction on the rounds:
a round covers the rest of one page.
-/
theorem Machine.userRangeFrom_iff (machine : Machine) (space : Option AddressSpace)
    {address : U64} {length : Nat} (below : address.toNat + length ≤ 2 ^ 47) (writing : Bool)
    (checked : Nat)
    : machine.userRangeFrom space address length writing checked = true
      ↔ ∀ offset,
          checked ≤ offset
          → offset < length
          → machine.userByte space (address + BitVec.ofNat 64 offset) writing = true := by
  induction checked using Machine.userRangeFrom.induct machine space address length writing with
  | case1 checked inside position passes ih =>
      rw [userRangeFrom, if_pos inside]
      simp only [position] at passes ih
      simp only [passes, if_true, ih]
      have step := chunkStep_le position (length - checked)
      rw [show position.toNat = address.toNat + checked from position_toNat below inside] at step
      constructor
      · intro later offset low high
        by_cases covered : offset < checked + chunkStep position (length - checked)
        · rw [← passes]
          apply machine.userByte_page
          rw [position_toNat below high, position_toNat below inside]
          simp only [pageSize] at step ⊢
          omega
        · exact later offset (by simpa only [not_lt] using covered) high
      · intro all offset low high
        exact all offset (by omega) high
  | case2 checked inside position fails =>
      rw [userRangeFrom, if_pos inside]
      simp only [position] at fails
      simp only [fails, Bool.false_eq_true, if_false, false_iff]
      intro all
      exact fails (all checked (le_refl _) inside)
  | case3 checked done =>
      rw [userRangeFrom, if_neg done]
      refine iff_of_true rfl ?_
      intro offset low high
      omega

/-- `user_range` accepts exactly the short ranges of the lower half whose every byte passes. -/
theorem Machine.userRange_iff (machine : Machine) (space : Option AddressSpace)
    (address length : U64) (writing : Bool)
    : machine.userRange space address length writing = true
      ↔ length.toNat ≤ copyLimit
        ∧ address.toNat < 2 ^ 47
        ∧ address.toNat + length.toNat ≤ 2 ^ 47
        ∧ ∀ offset < length.toNat,
            machine.userByte space (address + BitVec.ofNat 64 offset) writing = true := by
  have top : (0x800000000000 : U64).toNat = 2 ^ 47 := rfl
  have low : address ≥ 0x800000000000 ↔ ¬address.toNat < 2 ^ 47 := by
    rw [ge_iff_le, BitVec.le_def, top, not_lt]
  have room (below : address.toNat < 2 ^ 47)
      : length > 0x800000000000 - address ↔ ¬address.toNat + length.toNat ≤ 2 ^ 47 := by
    rw [gt_iff_lt, BitVec.lt_def, BitVec.toNat_sub, top]
    omega
  unfold userRange
  by_cases short : length.toNat ≤ copyLimit
  · by_cases below : address.toNat < 2 ^ 47
    · by_cases fits : address.toNat + length.toNat ≤ 2 ^ 47
      · have accepted : ¬(length.toNat > copyLimit ∨ address ≥ 0x800000000000
            ∨ length > 0x800000000000 - address) := by
          rw [low, room below]
          intro bad
          rcases bad with long | high | beyond
          · exact not_lt.mpr short long
          · exact high below
          · exact beyond fits
        rw [if_neg accepted, machine.userRangeFrom_iff space fits]
        simp only [short, below, fits, Nat.zero_le, true_and, forall_const]
      · rw [if_pos (Or.inr (Or.inr ((room below).mpr fits)))]
        simp only [fits, false_and, and_false, Bool.false_eq_true]
    · rw [if_pos (Or.inr (Or.inl (low.mpr below)))]
      simp only [below, false_and, and_false, Bool.false_eq_true]
  · rw [if_pos (Or.inl (not_le.mp short))]
    simp only [short, false_and, Bool.false_eq_true]

/-- `user_range` agrees with the processor, whatever the tables hold. An accepted range is
short, below the middle of the address space, and accessible at every byte from CPL3 and
from the kernel; a short range below the middle that is so accessible through pages of
4 KiB is accepted.
-/
theorem userRange_agrees_with_cpu (machine : Machine) (space : AddressSpace)
    (address length : U64) (writing : Bool)
    : (machine.userRange (some space) address length writing = true
        → length.toNat ≤ 256
          ∧ address.toNat + length.toNat ≤ 2 ^ 47
          ∧ ∀ offset < length.toNat,
              machine.SmallPageAccess space.root true writing (address + BitVec.ofNat 64 offset)
              ∧ machine.cpuAccess space.root true writing (address + BitVec.ofNat 64 offset) ≠ none
              ∧ machine.cpuAccess space.root false writing (address + BitVec.ofNat 64 offset)
                ≠ none)
      ∧ (space.root ≠ 0
        → length.toNat ≤ 256
        → address.toNat < 2 ^ 47
        → address.toNat + length.toNat ≤ 2 ^ 47
        → (∀ offset < length.toNat,
            machine.SmallPageAccess space.root true writing (address + BitVec.ofNat 64 offset))
        → machine.userRange (some space) address length writing = true)
      ∧ (machine.userRange (some space) address 0 writing = true ↔ address.toNat < 2 ^ 47) := by
  refine ⟨?_, ?_, ?_⟩
  · intro accepted
    obtain ⟨short, _, fits, passes⟩ := (machine.userRange_iff _ _ _ _).mp accepted
    refine ⟨short, fits, ?_⟩
    intro offset inside
    obtain ⟨_, low, access⟩ := (machine.userByte_iff space _ writing).mp (passes offset inside)
    refine ⟨access, ?_, ?_⟩
    · rw [access.cpuAccess low]
      exact Option.some_ne_none _
    · rw [access.kernel.cpuAccess low]
      exact Option.some_ne_none _
  · intro live short low fits access
    refine (machine.userRange_iff _ _ _ _).mpr ⟨short, low, fits, ?_⟩
    intro offset inside
    refine (machine.userByte_iff space _ writing).mpr ⟨live, ?_, access offset inside⟩
    rw [position_toNat fits inside]
    omega
  · rw [machine.userRange_iff]
    constructor
    · exact fun accepted => accepted.2.1
    · intro low
      refine ⟨Nat.zero_le _, low, Nat.le_of_lt low, ?_⟩
      exact fun offset impossible => absurd impossible (Nat.not_lt_zero _)

end MiniLinux
