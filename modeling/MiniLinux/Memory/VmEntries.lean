import MiniLinux.Memory.PageInvariant
import MiniLinux.Memory.Vm

/-! Page-table entries as bit patterns, and tables as indexed entries.
A frame address and the permission bits share one word without overlapping, so what
`vm_map` packs is what the walks unpack.
-/

namespace MiniLinux

open Foundation Foundation.Halting

-----------------------------------------------------------------------------------------
-- Packing an entry
-----------------------------------------------------------------------------------------

/-- The address is that of a frame, within the bits that an entry has for it. -/
def FrameAddress (address : U64) : Prop :=
  address.toNat % pageSize = 0 ∧ address.toNat < 2 ^ 52

theorem pteAddress_getLsbD (bit : Nat) : pteAddress.getLsbD bit = decide (12 ≤ bit ∧ bit < 52) := by
  by_cases inside : bit < 64
  · have all : ∀ bit < 64, pteAddress.getLsbD bit = decide (12 ≤ bit ∧ bit < 52) := by decide
    exact all bit inside
  · rw [BitVec.getLsbD_of_ge _ _ (not_lt.mp inside), eq_comm, decide_eq_false_iff_not]
    omega

/-- A frame address lies wholly in the address bits of an entry. -/
theorem FrameAddress.and_pteAddress {address : U64} (frame : FrameAddress address)
    : address &&& pteAddress = address := by
  obtain ⟨aligned, small⟩ := frame
  apply BitVec.eq_of_getLsbD_eq
  intro bit _
  rw [BitVec.getLsbD_and, pteAddress_getLsbD]
  by_cases inside : 12 ≤ bit ∧ bit < 52
  · rw [decide_eq_true inside, Bool.and_true]
  · rw [decide_eq_false inside, Bool.and_false, eq_comm]
    by_cases low : bit < 12
    · obtain ⟨frame, whole⟩ := Nat.dvd_of_mod_eq_zero aligned
      rw [BitVec.getLsbD, whole, show pageSize = 2 ^ 12 from rfl, Nat.testBit_two_pow_mul,
        decide_eq_false (not_le.mpr low), Bool.false_and]
    · refine Nat.testBit_lt_two_pow (Nat.lt_of_lt_of_le small ?_)
      exact Nat.pow_le_pow_right (by decide) (by omega)

/-- The address bits of an entry built on a frame address. -/
theorem FrameAddress.entry_address {address bits : U64} (frame : FrameAddress address)
    (apart : bits &&& pteAddress = 0#64)
    : (address ||| bits) &&& pteAddress = address := by
  rw [BitVec.and_comm, BitVec.and_or_distrib_left, BitVec.and_comm pteAddress bits, apart,
    BitVec.or_zero, BitVec.and_comm, frame.and_pteAddress]

/-- The other bits of an entry built on a frame address. -/
theorem FrameAddress.entry_bits {address bits mask : U64} (frame : FrameAddress address)
    (apart : pteAddress &&& mask = 0#64)
    : (address ||| bits) &&& mask = bits &&& mask := by
  have none : address &&& mask = 0#64 := by
    rw [← frame.and_pteAddress, BitVec.and_assoc, apart, BitVec.and_zero]
  rw [BitVec.and_comm, BitVec.and_or_distrib_left, BitVec.and_comm mask address, none,
    BitVec.zero_or, BitVec.and_comm]

/-- The next table that an upper entry leads to. -/
def entryTarget (entry : U64) : Option U64 :=
  if entry &&& ptePresent = 0 ∨ entry &&& pteLarge ≠ 0 then none
  else some (entry &&& pteAddress)

/-- The frame and the permissions that a last-level entry gives. -/
def entryLeaf (entry : U64) : Option (U64 × U32) :=
  if entry &&& ptePresent = 0 then none else some (entry &&& pteAddress, entryFlags entry)

/-- The entry by which `vm_map` links a new table. -/
def linkValue (next : U64) : U64 := next ||| ptePresent ||| pteWrite ||| pteUser

/-- The permission bits of `leafValue`. -/
def leafBits (flags : U32) : U64 := leafValue 0 flags

theorem FrameAddress.entryFlags {address : U64} (frame : FrameAddress address) (bits : U64)
    : entryFlags (address ||| bits) = MiniLinux.entryFlags bits := by
  rw [MiniLinux.entryFlags, frame.entry_bits (by decide), frame.entry_bits (by decide),
    frame.entry_bits (by decide), ← MiniLinux.entryFlags]

theorem linkValue_eq (next : U64)
    : linkValue next = next ||| (ptePresent ||| pteWrite ||| pteUser) := by
  rw [linkValue, BitVec.or_assoc, BitVec.or_assoc, ← BitVec.or_assoc ptePresent]

theorem FrameAddress.entryTarget_link {next : U64} (frame : FrameAddress next)
    : entryTarget (linkValue next) = some next := by
  have present : linkValue next &&& ptePresent ≠ 0 := by
    rw [linkValue_eq, frame.entry_bits (by decide)]
    decide
  have small : linkValue next &&& pteLarge = 0 := by
    rw [linkValue_eq, frame.entry_bits (by decide)]
    decide
  rw [entryTarget, if_neg (not_or.mpr ⟨present, not_not.mpr small⟩), linkValue_eq,
    frame.entry_address (by decide)]

theorem FrameAddress.entryFlags_link {next : U64} (frame : FrameAddress next)
    : MiniLinux.entryFlags (linkValue next) = vmWrite ||| vmUser ||| vmExec := by
  rw [linkValue_eq, frame.entryFlags]
  decide

theorem leafValue_eq (physical : U64) (flags : U32)
    : leafValue physical flags = physical ||| leafBits flags := by
  unfold leafBits leafValue
  simp only
  split_ifs <;> simp only [BitVec.or_assoc, BitVec.zero_or, BitVec.ofNat_eq_ofNat]

/-- Known flags are one of the eight combinations. -/
theorem known_flags {flags : U32} (known : flags &&& ~~~(vmWrite ||| vmUser ||| vmExec) = 0)
    : flags.toNat < 8 := by
  have low : flags = flags &&& (vmWrite ||| vmUser ||| vmExec) := by
    have split : flags = flags &&& ((vmWrite ||| vmUser ||| vmExec)
        ||| ~~~(vmWrite ||| vmUser ||| vmExec)) := by
      rw [show (vmWrite ||| vmUser ||| vmExec) ||| ~~~(vmWrite ||| vmUser ||| vmExec)
        = BitVec.allOnes 32 from by decide, BitVec.and_allOnes]
    rw [BitVec.and_or_distrib_left, known] at split
    simpa using split
  rw [low, BitVec.toNat_and]
  exact Nat.lt_of_le_of_lt Nat.and_le_right (by decide)

/-- Packing the flags and reading them back loses nothing. -/
theorem leafBits_spec (flags : U32) (known : flags.toNat < 8)
    : leafBits flags &&& pteAddress = 0
      ∧ leafBits flags &&& ptePresent ≠ 0
      ∧ entryFlags (leafBits flags) = flags := by
  have all : ∀ bits < 8, leafBits (BitVec.ofNat 32 bits) &&& pteAddress = 0
      ∧ leafBits (BitVec.ofNat 32 bits) &&& ptePresent ≠ 0
      ∧ entryFlags (leafBits (BitVec.ofNat 32 bits)) = BitVec.ofNat 32 bits := by decide
  have number : BitVec.ofNat 32 flags.toNat = flags := BitVec.ofNat_toNat _ _
  rw [← number]
  exact all _ known

/-- What `vm_map` writes is what `vm_lookup` reads: the frame and exactly the flags. -/
theorem FrameAddress.entryLeaf_leafValue {physical : U64} (frame : FrameAddress physical)
    {flags : U32} (known : flags &&& ~~~(vmWrite ||| vmUser ||| vmExec) = 0)
    : entryLeaf (leafValue physical flags) = some (physical, flags) := by
  obtain ⟨apart, present, unpacked⟩ := leafBits_spec flags (known_flags known)
  rw [leafValue_eq, entryLeaf, frame.entry_bits (by decide), if_neg present,
    frame.entry_address apart, frame.entryFlags, unpacked]

@[simp] theorem entryTarget_zero : entryTarget 0 = none := by decide

@[simp] theorem entryLeaf_zero : entryLeaf 0 = none := by decide

-----------------------------------------------------------------------------------------
-- The bits that the processor sets
-----------------------------------------------------------------------------------------

/-- The accessed and dirty bits. -/
def pteAccessedDirty : U64 := 0x60

/-- The entries differ at most in the bits that the processor sets. -/
def SameEntry (entry entry' : U64) : Prop :=
  entry ||| pteAccessedDirty = entry' ||| pteAccessedDirty

namespace SameEntry

variable {entry entry' : U64}

theorem refl (entry : U64) : SameEntry entry entry := rfl

theorem trans {entry'' : U64} (first : SameEntry entry entry') (second : SameEntry entry' entry'')
    : SameEntry entry entry'' :=
  Eq.trans first second

theorem and (same : SameEntry entry entry') {mask : U64}
    (apart : mask &&& pteAccessedDirty = 0#64)
    : entry &&& mask = entry' &&& mask := by
  have masked := congrArg (mask &&& ·) same
  simp only [BitVec.and_or_distrib_left, apart, BitVec.or_zero] at masked
  rwa [BitVec.and_comm entry, BitVec.and_comm entry']

theorem entryFlags (same : SameEntry entry entry')
    : entryFlags entry = MiniLinux.entryFlags entry' := by
  rw [MiniLinux.entryFlags, same.and (by decide), same.and (by decide), same.and (by decide),
    ← MiniLinux.entryFlags]

theorem entryTarget (same : SameEntry entry entry')
    : entryTarget entry = MiniLinux.entryTarget entry' := by
  rw [MiniLinux.entryTarget, same.and (by decide), same.and (by decide), same.and (by decide),
    ← MiniLinux.entryTarget]

theorem entryLeaf (same : SameEntry entry entry')
    : entryLeaf entry = MiniLinux.entryLeaf entry' := by
  rw [MiniLinux.entryLeaf, same.and (by decide), same.and (by decide), same.entryFlags,
    ← MiniLinux.entryLeaf]

end SameEntry

-----------------------------------------------------------------------------------------
-- Entries of a table
-----------------------------------------------------------------------------------------

/-- The physical address of an entry. -/
def entryPlace (table : U64) (index : Nat) : Nat := (entryPointer table index).toNat

/-- The entry of a table, by the physical address of the table. -/
def Machine.entry (machine : Machine) (table : U64) (index : Nat) : U64 :=
  machine.memory.word (entryPlace table index)

/-- The machine after one entry is written. -/
def Machine.withEntry (machine : Machine) (table : U64) (index : Nat) (value : U64) : Machine :=
  { machine with memory := machine.memory.storeWord (entryPlace table index) value }

theorem directMap_tableAt (machine : Machine) (table : U64) (index : Nat)
    : directMap machine.directOffset (entryPointer (machine.tableAt table) index)
      = entryPlace table index := by
  rw [entryPointer, Machine.tableAt, BitVec.add_assoc, directMap_add]
  rfl

theorem entryAt_tableAt (machine : Machine) (table : U64) (index : Nat)
    : machine.entryAt (entryPointer (machine.tableAt table) index) = machine.entry table index := by
  rw [Machine.entryAt, directMap_tableAt, Machine.entry]

theorem setEntry_tableAt (machine : Machine) (table : U64) (index : Nat) (value : U64)
    : setEntry (entryPointer (machine.tableAt table) index) value machine
      = .ok ((), machine.withEntry table index value) := by
  rw [setEntry, modify_apply, directMap_tableAt, Machine.withEntry]

namespace FrameAddress

variable {table table' : U64}

theorem entryPlace (frame : FrameAddress table) {index : Nat} (inside : index < 512)
    : entryPlace table index = table.toNat + 8 * index := by
  have small := frame.2
  rw [MiniLinux.entryPlace, entryPointer, BitVec.toNat_add, BitVec.toNat_ofNat]
  omega

theorem entryPlace_frame (frame : FrameAddress table) {index offset : Nat}
    (inside : index < 512) (within : offset < 8)
    : frameOf (MiniLinux.entryPlace table index + offset) = frameOf table.toNat := by
  have aligned := frame.1
  rw [frame.entryPlace inside]
  simp only [frameOf, pageSize] at aligned ⊢
  omega

/-- Frames with one number have one address. -/
theorem eq_of_frameOf (frame : FrameAddress table) (frame' : FrameAddress table')
    (same : frameOf table.toNat = frameOf table'.toNat)
    : table = table' := by
  have aligned := frame.1
  have aligned' := frame'.1
  apply BitVec.eq_of_toNat_eq
  simp only [frameOf, pageSize] at aligned aligned' same
  omega

/-- An entry depends only on the frame of its table. -/
theorem entry_congr {machine machine' : Machine} (frame : FrameAddress table) {index : Nat}
    (inside : index < 512)
    (same
      : ∀ address,
          frameOf address = frameOf table.toNat
          → machine'.memory address = machine.memory address)
    : machine'.entry table index = machine.entry table index :=
  Memory.word_congr fun _ within => same _ (frame.entryPlace_frame inside within)

theorem entry_withEntry (machine : Machine) (frame : FrameAddress table)
    (frame' : FrameAddress table') {index index' : Nat} (inside : index < 512)
    (inside' : index' < 512) (value : U64)
    : (machine.withEntry table index value).entry table' index'
      = if table' = table ∧ index' = index then value else machine.entry table' index' := by
  have aligned := frame.1
  have aligned' := frame'.1
  by_cases same : table' = table ∧ index' = index
  · obtain ⟨rfl, rfl⟩ := same
    rw [if_pos ⟨rfl, rfl⟩, Machine.entry, Machine.withEntry, Memory.word_storeWord]
  · rw [if_neg same]
    apply Memory.word_storeWord_of_disjoint
    rw [frame.entryPlace inside, frame'.entryPlace inside']
    by_cases table : table' = table
    · subst table'
      have apart : index' ≠ index := fun index => same ⟨rfl, index⟩
      omega
    · have apart : table'.toNat ≠ _ := fun equal => table (BitVec.eq_of_toNat_eq equal)
      simp only [pageSize] at aligned aligned'
      omega

/-- Writing an entry changes only the frame of its table. -/
theorem withEntry_memory (machine : Machine) (frame : FrameAddress table) {index : Nat}
    (inside : index < 512) (value : U64) {address : Nat}
    (outside : frameOf address ≠ frameOf table.toNat)
    : (machine.withEntry table index value).memory address = machine.memory address := by
  apply Memory.storeWord_outside
  by_contra within
  obtain ⟨offset, bound, rfl⟩
      : ∃ offset < 8, address = MiniLinux.entryPlace table index + offset :=
    ⟨address - MiniLinux.entryPlace table index, by omega, by omega⟩
  exact outside (frame.entryPlace_frame inside bound)

end FrameAddress

/-- The loop writes its entries and nothing else; each value was computed at a machine that
differs from the first only in entries already written.
Witness: induction on the count.
-/
theorem writeEntries_spec {table : U64} (frame : FrameAddress table)
    (value : Machine → Nat → U64) (machine : Machine) (index count : Nat)
    (inside : index + count ≤ 512)
    : ∃ memory,
        writeEntries (machine.tableAt table) value index count machine
          = .ok ((), { machine with memory := memory })
        ∧ (∀ address,
            frameOf address ≠ frameOf table.toNat → memory address = machine.memory address)
        ∧ (∀ other < 512,
            other < index ∨ index + count ≤ other
            → ({ machine with memory := memory } : Machine).entry table other
              = machine.entry table other)
        ∧ ∀ other,
            index ≤ other
            → other < index + count
            → ∃ before : Memory,
                (∀ address,
                  frameOf address ≠ frameOf table.toNat → before address = machine.memory address)
                ∧ ({ machine with memory := memory } : Machine).entry table other
                  = value { machine with memory := before } other := by
  induction count generalizing machine index with
  | zero => exact ⟨machine.memory, rfl, fun _ _ => rfl, fun _ _ _ => rfl, by omega⟩
  | succ count ih =>
      have here : index < 512 := by omega
      let next := machine.withEntry table index (value machine index)
      obtain ⟨memory, result, outside, others, written⟩ := ih next (index + 1) (by omega)
      refine ⟨memory, ?_, ?_, ?_, ?_⟩
      · rw [writeEntries, bind_get_apply, bind_ok (setEntry_tableAt ..)]
        exact result
      · intro address apart
        rw [outside address apart]
        exact frame.withEntry_memory machine here _ apart
      · intro other bound apart
        have kept := others other bound (by omega)
        rw [frame.entry_withEntry machine frame here bound, if_neg (by omega)] at kept
        exact kept
      · intro other low high
        by_cases first : other = index
        · subst other
          refine ⟨machine.memory, fun _ _ => rfl, ?_⟩
          have kept := others index here (by omega)
          rw [frame.entry_withEntry machine frame here here, if_pos ⟨rfl, rfl⟩] at kept
          exact kept
        · obtain ⟨before, same, entry⟩ := written other (by omega) (by omega)
          refine ⟨before, ?_, entry⟩
          intro address apart
          rw [same address apart]
          exact frame.withEntry_memory machine here _ apart

end MiniLinux
