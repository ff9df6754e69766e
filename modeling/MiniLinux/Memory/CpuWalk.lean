import MiniLinux.Memory.VmEntries

/-! The processor's own walk over the tables, and how `vm_lookup` compares with it.
The walk reads one entry a level and stops early at an absent entry or at a large page.
Nothing is assumed of the tables: they hold arbitrary entries and may share frames.
-/

namespace MiniLinux

open Foundation Foundation.Halting

/-- The shifts of the four levels, from the root. -/
def walkShifts : List Nat := [39, 30, 21, 12]

/-- The entries that the processor reads from `table` downwards. -/
def Machine.cpuWalk (machine : Machine) (address : U64) : List Nat → U64 → List U64
  | [], _ => []
  | shift :: rest, table =>
      let entry := machine.entry table (tableIndex address shift)
      if entry &&& ptePresent = 0 ∨ entry &&& pteLarge ≠ 0 then [entry]
      else entry :: machine.cpuWalk address rest (entry &&& pteAddress)

/-- The entries that the processor reads for an address. -/
def Machine.cpuEntries (machine : Machine) (root address : U64) : List U64 :=
  machine.cpuWalk address walkShifts root

/-- One entry allows an access. -/
def EntryPermits (user writing : Bool) (entry : U64) : Prop :=
  entry &&& ptePresent ≠ 0
  ∧ (user = true → entry &&& pteUser ≠ 0)
  ∧ (writing = true → entry &&& pteWrite ≠ 0)

instance (user writing : Bool) (entry : U64) : Decidable (EntryPermits user writing entry) :=
  inferInstanceAs (Decidable (_ ∧ _))

/-- The address is sign-extended from 48 bits, as the processor demands. -/
def Canonical (address : U64) : Prop :=
  address.toNat < 2 ^ 47 ∨ 2 ^ 64 - 2 ^ 47 ≤ address.toNat

instance (address : U64) : Decidable (Canonical address) :=
  inferInstanceAs (Decidable (_ ∨ _))

/-- The physical byte behind the last entry of a walk, which maps a page of 4 KiB after four
levels and a large page after fewer.
-/
def physicalByte (entries : List U64) (address : U64) : Nat :=
  let size := 2 ^ (48 - 9 * entries.length)
  ((entries.getLastD 0) &&& pteAddress).toNat / size * size + address.toNat % size

/-- The physical byte that an access reaches, or `none` where it faults. `user` is an access
from CPL3; a kernel write obeys read-only pages because `vm_init` sets `CR0.WP`. A root
entry cannot map a page.
-/
def Machine.cpuAccess (machine : Machine) (root : U64) (user writing : Bool) (address : U64)
    : Option Nat :=
  let entries := machine.cpuEntries root address
  if Canonical address ∧ 2 ≤ entries.length ∧ ∀ entry ∈ entries, EntryPermits user writing entry
  then some (physicalByte entries address)
  else none

/-- All four levels are met and each of their entries allows the access. -/
def Machine.SmallPageAccess (machine : Machine) (root : U64) (user writing : Bool) (address : U64)
    : Prop :=
  (machine.cpuEntries root address).length = 4
  ∧ ∀ entry ∈ machine.cpuEntries root address, EntryPermits user writing entry

theorem Machine.SmallPageAccess.cpuAccess {machine : Machine} {root address : U64}
    {user writing : Bool} (access : machine.SmallPageAccess root user writing address)
    (low : address.toNat < 2 ^ 47)
    : machine.cpuAccess root user writing address
      = some (physicalByte (machine.cpuEntries root address) address) := by
  unfold Machine.cpuAccess
  rw [if_pos]
  refine ⟨Or.inl low, ?_, access.2⟩
  rw [access.1]
  decide

/-- Dropping the CPL3 condition keeps an access. -/
theorem Machine.SmallPageAccess.kernel {machine : Machine} {root address : U64} {writing : Bool}
    (access : machine.SmallPageAccess root true writing address)
    : machine.SmallPageAccess root false writing address := by
  refine ⟨access.1, fun entry member => ?_⟩
  obtain ⟨present, _, writes⟩ := access.2 entry member
  refine ⟨present, ?_, writes⟩
  intro impossible
  cases impossible

/-- The conjunction of the permissions of several entries. -/
def flagsThrough (permissions : U32) (entries : List U64) : U32 :=
  entries.foldl (fun permissions entry => permissions &&& entryFlags entry) permissions

/-- A single flag survives exactly when every entry has its bit. -/
theorem flagsThrough_bit (bit : Nat) {mask : U64}
    (packed
      : ∀ entry, entryFlags entry &&& BitVec.twoPow 32 bit ≠ 0#32 ↔ entry &&& mask ≠ 0)
    (permissions : U32) (entries : List U64)
    : flagsThrough permissions entries &&& BitVec.twoPow 32 bit ≠ 0#32
      ↔ permissions &&& BitVec.twoPow 32 bit ≠ 0#32 ∧ ∀ entry ∈ entries, entry &&& mask ≠ 0 := by
  induction entries generalizing permissions with
  | nil => simp [flagsThrough]
  | cons entry rest ih =>
      have split : (permissions &&& entryFlags entry) &&& BitVec.twoPow 32 bit ≠ 0#32
          ↔ permissions &&& BitVec.twoPow 32 bit ≠ 0#32
            ∧ entryFlags entry &&& BitVec.twoPow 32 bit ≠ 0#32 := by
        simp only [BitVec.and_twoPow, BitVec.getLsbD_and]
        cases permissions.getLsbD bit <;> cases (entryFlags entry).getLsbD bit <;> simp
      have step := ih (permissions &&& entryFlags entry)
      rw [split, packed, and_assoc] at step
      simpa only [flagsThrough, List.foldl_cons, List.forall_mem_cons] using step

theorem flagsThrough_user (permissions : U32) (entries : List U64)
    : flagsThrough permissions entries &&& vmUser ≠ 0
      ↔ permissions &&& vmUser ≠ 0 ∧ ∀ entry ∈ entries, entry &&& pteUser ≠ 0 := by
  apply flagsThrough_bit 1
  intro entry
  unfold entryFlags
  by_cases user : entry &&& pteUser = 0
  · simp only [user, ne_eq, not_true_eq_false, if_false, iff_false]
    split_ifs <;> decide
  · simp only [user, ne_eq, not_false_eq_true, if_true, iff_true]
    split_ifs <;> decide

theorem flagsThrough_write (permissions : U32) (entries : List U64)
    : flagsThrough permissions entries &&& vmWrite ≠ 0
      ↔ permissions &&& vmWrite ≠ 0 ∧ ∀ entry ∈ entries, entry &&& pteWrite ≠ 0 := by
  apply flagsThrough_bit 0
  intro entry
  unfold entryFlags
  by_cases write : entry &&& pteWrite = 0
  · simp only [write, ne_eq, not_true_eq_false, if_false, iff_false]
    split_ifs <;> decide
  · simp only [write, ne_eq, not_false_eq_true, if_true, iff_true]
    split_ifs <;> decide

/-- The walk of `leaf_entry` reads the processor's entries, and stops where the processor
finds no table. Witness: induction on the levels.
-/
theorem walkTables_cpuWalk (machine : Machine) (address : U64) (shifts : List Nat) (last : Nat)
    (table : U64) (permissions : U32)
    : (machine.walkTables address shifts (machine.tableAt table) permissions = none
        ∧ ¬((machine.cpuWalk address (shifts ++ [last]) table).length = shifts.length + 1
          ∧ ∀ entry ∈ machine.cpuWalk address (shifts ++ [last]) table,
              entry &&& ptePresent ≠ 0))
      ∨ ∃ leaf upper,
          machine.walkTables address shifts (machine.tableAt table) permissions
            = some (machine.tableAt leaf, flagsThrough permissions upper)
          ∧ machine.cpuWalk address (shifts ++ [last]) table
            = upper ++ [machine.entry leaf (tableIndex address last)]
          ∧ upper.length = shifts.length
          ∧ ∀ entry ∈ upper, entry &&& ptePresent ≠ 0 := by
  induction shifts generalizing table permissions with
  | nil =>
      refine Or.inr ⟨table, [], rfl, ?_, rfl, by simp⟩
      rw [List.nil_append, List.nil_append, Machine.cpuWalk]
      split <;> rfl
  | cons shift rest ih =>
      rw [Machine.walkTables, entryAt_tableAt, List.cons_append, Machine.cpuWalk]
      by_cases stops : machine.entry table (tableIndex address shift) &&& ptePresent = 0
          ∨ machine.entry table (tableIndex address shift) &&& pteLarge ≠ 0
      · rw [if_pos stops, if_pos stops]
        refine Or.inl ⟨rfl, fun both => ?_⟩
        have short := both.1
        simp at short
      · simp only [if_neg stops]
        have present := (not_or.mp stops).1
        rcases ih (machine.entry table (tableIndex address shift) &&& pteAddress)
            (permissions &&& entryFlags (machine.entry table (tableIndex address shift)))
          with ⟨missing, incomplete⟩ | ⟨leaf, upper, found, walked, length, presents⟩
        · refine Or.inl ⟨missing, fun both => incomplete ⟨?_, ?_⟩⟩
          · simpa only [List.length_cons, Nat.add_right_cancel_iff] using both.1
          · exact fun entry member => both.2 entry (List.mem_cons_of_mem _ member)
        · refine Or.inr ⟨leaf, machine.entry table (tableIndex address shift) :: upper, found, ?_,
            ?_, ?_⟩
          · rw [walked, List.cons_append]
          · rw [List.length_cons, List.length_cons, length]
          · intro entry member
            rcases List.mem_cons.mp member with same | member
            · exact same ▸ present
            · exact presents entry member

/-- The processor meets four present levels below the root of a space. -/
def Machine.FourPresent (machine : Machine) (root address : U64) : Prop :=
  root ≠ 0 ∧ address.toNat < 2 ^ 47
  ∧ (machine.cpuEntries root address).length = 4
  ∧ ∀ entry ∈ machine.cpuEntries root address, entry &&& ptePresent ≠ 0

instance (machine : Machine) (root address : U64) : Decidable (machine.FourPresent root address) :=
  inferInstanceAs (Decidable (_ ∧ _))

/-- Whatever the tables hold, `vm_lookup` succeeds exactly where the processor meets four
present levels, and returns the last frame with the permissions of all four.
-/
theorem vmLookup_cpu (machine : Machine) (space : AddressSpace) (address physical : U64)
    (flags : U32)
    : machine.vmLookup (some space) address physical flags
      = if machine.FourPresent space.root address then
          (true,
            (((machine.cpuEntries space.root address).getLastD 0) &&& pteAddress)
              + BitVec.ofNat 64 (address.toNat % pageSize),
            flagsThrough (vmWrite ||| vmUser ||| vmExec) (machine.cpuEntries space.root address))
        else (false, physical, flags) := by
  have low : ¬address ≥ 0x800000000000 ↔ address.toNat < 2 ^ 47 := by
    have bound : (0x800000000000 : U64).toNat = 2 ^ 47 := rfl
    rw [ge_iff_le, BitVec.le_def, bound, not_le]
  unfold Machine.vmLookup Machine.leafEntry
  by_cases outside : space.root = 0 ∨ address ≥ 0x800000000000
  · have refused : ¬machine.FourPresent space.root address := by
      intro all
      rcases outside with zero | beyond
      · exact all.1 zero
      · exact low.mpr all.2.1 beyond
    simp only [if_pos outside, if_neg refused]
  · obtain ⟨live, below⟩ := not_or.mp outside
    simp only [if_neg outside]
    rcases walkTables_cpuWalk machine address upperShifts 12 space.root
        (vmWrite ||| vmUser ||| vmExec)
      with ⟨missing, incomplete⟩ | ⟨leaf, upper, found, walked, length, presents⟩
    · have refused : ¬machine.FourPresent space.root address := fun all => incomplete all.2.2
      simp only [missing, if_neg refused]
    · have entries : machine.cpuEntries space.root address
          = upper ++ [machine.entry leaf (tableIndex address 12)] := walked
      simp only [found, entryAt_tableAt]
      by_cases absent : machine.entry leaf (tableIndex address 12) &&& ptePresent = 0
      · have refused : ¬machine.FourPresent space.root address := by
          intro all
          exact all.2.2.2 _ (by rw [entries]; simp) absent
        simp only [if_pos absent, if_neg refused]
      · have accepted : machine.FourPresent space.root address := by
          refine ⟨live, low.mp below, ?_, ?_⟩
          · rw [entries, List.length_append, length]
            rfl
          · intro entry member
            rw [entries] at member
            rcases List.mem_append.mp member with member | member
            · exact presents entry member
            · rw [List.mem_singleton.mp member]
              exact absent
        simp only [if_neg absent, if_pos accepted]
        rw [entries, List.getLastD_concat, flagsThrough, flagsThrough, List.foldl_append]
        rfl

end MiniLinux
