import MiniLinux.Memory.Page

/-! Address spaces of `kernel/memory/vm.c`.
A table pointer is a direct-map pointer, as in the source; a space keeps the list of the
tables it owns. An absent `AddressSpace` stands for a null pointer.
-/

namespace MiniLinux

open Foundation Foundation.Halting

/-- `VM_WRITE`, `VM_USER` and `VM_EXEC` -/
def vmWrite : U32 := 1

def vmUser : U32 := 2

def vmExec : U32 := 4

/-- `VM_TABLE_LIMIT` -/
def vmTableLimit : Nat := 16

/-- `PTE_PRESENT` and the other bits of an entry -/
def ptePresent : U64 := 1

def pteWrite : U64 := 2

def pteUser : U64 := 4

def pteLarge : U64 := 128

def pteNx : U64 := 0x8000000000000000

def pteAddress : U64 := 0x000ffffffffff000

/-- `struct address_space`; `table_count` is the length of `tables`. -/
structure AddressSpace where
  root : U64
  tables : List U64
  deriving DecidableEq, Repr

/-- The zero-initialised space. -/
def AddressSpace.zero : AddressSpace := ⟨0, []⟩

/-- `table_at` -/
def Machine.tableAt (machine : Machine) (physical : U64) : U64 :=
  machine.directOffset + physical

/-- `&table[index]` -/
def entryPointer (table : U64) (index : Nat) : U64 := table + BitVec.ofNat 64 (8 * index)

/-- `*pointer` for a pointer to a table entry -/
def Machine.entryAt (machine : Machine) (pointer : U64) : U64 :=
  machine.memory.word (directMap machine.directOffset pointer)

/-- `*pointer = entry` -/
def setEntry (pointer entry : U64) : MachineM Unit :=
  modify fun machine =>
    { machine with
      memory := machine.memory.storeWord (directMap machine.directOffset pointer) entry }

/-- `(address >> shift) & 511` -/
def tableIndex (address : U64) (shift : Nat) : Nat := ((address >>> shift) &&& 511).toNat

/-- The shifts of the three upper levels, from the root. -/
def upperShifts : List Nat := [39, 30, 21]

-----------------------------------------------------------------------------------------
-- The processor's paging registers
-----------------------------------------------------------------------------------------

/-- `vm_current_root` -/
def Machine.currentRoot (machine : Machine) : U64 := machine.cr3 &&& pteAddress

/-- `vm_switch`; loading `cr3` drops every cached translation. -/
def vmSwitch (root : U64) : MachineM Unit :=
  modify fun machine => { machine with cr3 := root, tlb := [] }

/-- `invlpg` -/
def invalidatePage (address : U64) : MachineM Unit :=
  modify fun machine =>
    { machine with
      tlb := machine.tlb.filter fun translation =>
        translation.page ≠ address.toNat / pageSize }

/-- `vm_init`; `cr4` is the register the bootloader leaves. -/
def vmInit (cr4 hhdmOffset : U64) : MachineM Unit :=
  if cr4 &&& 0x1000 ≠ 0 then halt (.panic "M2 requires four-level paging")
  else
    modify fun machine =>
      { machine with directOffset := hhdmOffset, bootRoot := machine.currentRoot }

-----------------------------------------------------------------------------------------
-- Creating a space
-----------------------------------------------------------------------------------------

/-- `for (i = index; i < index + count; i++) table[i] = value(i)`; each value is computed
when its entry is written.
-/
def writeEntries (table : U64) (value : Machine → Nat → U64) (index : Nat)
    : Nat → MachineM Unit
  | 0 => pure ()
  | count + 1 => do
      let machine ← get
      setEntry (entryPointer table index) (value machine index)
      writeEntries table value (index + 1) count

/-- `for (i = 0; i < 512; i++) table[i] = 0` -/
def zeroEntries (table : U64) : MachineM Unit := writeEntries table (fun _ _ => 0) 0 512

/-- `new_table`; returns the verdict, the caller's variable and the space. -/
def newTable (space : AddressSpace) (physical : U64) : MachineM (Bool × U64 × AddressSpace) :=
  if space.tables.length = vmTableLimit then pure (false, physical, space)
  else do
    let (ok, output) ← pageAlloc (some physical)
    if ok then do
      let physical := output.getD physical
      let machine ← get
      zeroEntries (machine.tableAt physical)
      pure (true, physical, { space with tables := space.tables ++ [physical] })
    else pure (false, output.getD physical, space)

/-- `boot[i] & ~PTE_USER` -/
def upperEntry (boot : U64) (machine : Machine) (index : Nat) : U64 :=
  machine.entryAt (entryPointer boot index) &&& ~~~pteUser

/-- `for (i = 256; i < 512; i++) root[i] = boot[i] & ~PTE_USER` -/
def copyUpperHalf (root boot : U64) : MachineM Unit := writeEntries root (upperEntry boot) 256 256

/-- `vm_create` -/
def vmCreate : Option AddressSpace → MachineM (Bool × Option AddressSpace)
  | none => pure (false, none)
  | some space =>
      if space.root ≠ 0 ∨ space.tables.length ≠ 0 then pure (false, some space)
      else do
        let (ok, root, space) ← newTable space space.root
        let space := { space with root := root }
        if ok then do
          let machine ← get
          copyUpperHalf (machine.tableAt space.root) (machine.tableAt machine.bootRoot)
          pure (true, some space)
        else pure (false, some space)

-----------------------------------------------------------------------------------------
-- Walking a space
-----------------------------------------------------------------------------------------

/-- `entry_flags` -/
def entryFlags (entry : U64) : U32 :=
  (if entry &&& pteWrite ≠ 0 then vmWrite else 0)
  ||| (if entry &&& pteUser ≠ 0 then vmUser else 0)
  ||| (if entry &&& pteNx ≠ 0 then 0 else vmExec)

/-- The loop of `leaf_entry`: the last-level table and the permissions left by its
ancestors.
-/
def Machine.walkTables (machine : Machine) (address : U64)
    : List Nat → U64 → U32 → Option (U64 × U32)
  | [], table, permissions => some (table, permissions)
  | shift :: rest, table, permissions =>
      let entry := machine.entryAt (entryPointer table (tableIndex address shift))
      if entry &&& ptePresent = 0 ∨ entry &&& pteLarge ≠ 0 then none
      else
        machine.walkTables address rest (machine.tableAt (entry &&& pteAddress))
          (permissions &&& entryFlags entry)

/-- `leaf_entry`; the pointer to the last-level entry and the narrowed permissions. Callers
that pass no permissions ignore the second component.
-/
def Machine.leafEntry (machine : Machine) (space : Option AddressSpace) (address : U64)
    (permissions : U32)
    : Option (U64 × U32) :=
  match space with
  | none => none
  | some space =>
      if space.root = 0 ∨ address ≥ 0x800000000000 then none
      else
        match machine.walkTables address upperShifts (machine.tableAt space.root) permissions with
        | none => none
        | some (table, permissions) =>
            some (entryPointer table (tableIndex address 12), permissions)

/-- `vm_lookup`; returns the verdict and the caller's two variables. -/
def Machine.vmLookup (machine : Machine) (space : Option AddressSpace) (address : U64)
    (physical : U64) (flags : U32)
    : Bool × U64 × U32 :=
  match machine.leafEntry space address (vmWrite ||| vmUser ||| vmExec) with
  | none => (false, physical, flags)
  | some (leaf, permissions) =>
      let entry := machine.entryAt leaf
      if entry &&& ptePresent = 0 then (false, physical, flags)
      else
        (true, (entry &&& pteAddress) + BitVec.ofNat 64 (address.toNat % pageSize),
          permissions &&& entryFlags entry)

-----------------------------------------------------------------------------------------
-- Changing a space
-----------------------------------------------------------------------------------------

/-- The first half of the loop body of `vm_map`: an absent entry gets a new table, which
permits everything so that only an existing parent can restrict access.
-/
def ensureTable (pointer : U64) (space : AddressSpace) : MachineM (Bool × AddressSpace) := do
  let machine ← get
  if machine.entryAt pointer &&& ptePresent = 0 then do
    let (ok, next, space) ← newTable space 0
    if ok then do
      setEntry pointer (next ||| ptePresent ||| pteWrite ||| pteUser)
      pure (true, space)
    else pure (false, space)
  else pure (true, space)

/-- The loop of `vm_map`: the last-level table, or `none` when the map is refused. -/
def mapTables (address : U64)
    : List Nat → U64 → AddressSpace → MachineM (Option U64 × AddressSpace)
  | [], table, space => pure (some table, space)
  | shift :: rest, table, space => do
      let pointer := entryPointer table (tableIndex address shift)
      let (ok, space) ← ensureTable pointer space
      if ok then do
        let machine ← get
        let entry := machine.entryAt pointer
        if entry &&& pteLarge ≠ 0 then pure (none, space)
        else mapTables address rest (machine.tableAt (entry &&& pteAddress)) space
      else pure (none, space)

/-- The last-level entry that `vm_map` writes. -/
def leafValue (physical : U64) (flags : U32) : U64 :=
  let entry := physical ||| ptePresent
  let entry := if flags &&& vmWrite ≠ 0 then entry ||| pteWrite else entry
  let entry := if flags &&& vmUser ≠ 0 then entry ||| pteUser else entry
  if flags &&& vmExec = 0 then entry ||| pteNx else entry

/-- The arguments that `vm_map` refuses without looking at memory. -/
def mapRefuses (space : AddressSpace) (address physical : U64) : Prop :=
  space.root = 0 ∨ address = 0 ∨ address ≥ 0x800000000000 ∨ address.toNat % pageSize ≠ 0
  ∨ physical.toNat % pageSize ≠ 0

instance (space : AddressSpace) (address physical : U64)
    : Decidable (mapRefuses space address physical) :=
  inferInstanceAs (Decidable (_ ∨ _))

/-- `existing != NULL && (*existing & PTE_PRESENT)` -/
def Machine.leafPresent (machine : Machine) (space : Option AddressSpace) (address : U64) : Bool :=
  match machine.leafEntry space address 0 with
  | none => false
  | some (leaf, _) => machine.entryAt leaf &&& ptePresent ≠ 0

/-- The end of `vm_map`: the last-level entry goes into the table that the loop found. -/
def finishMap (address physical : U64) (flags : U32)
    : Option U64 × AddressSpace → MachineM (Bool × Option AddressSpace)
  | (none, space) => pure (false, some space)
  | (some table, space) => do
      setEntry (entryPointer table (tableIndex address 12)) (leafValue physical flags)
      pure (true, some space)

/-- `vm_map` -/
def vmMap (space : Option AddressSpace) (address physical : U64) (flags : U32)
    : MachineM (Bool × Option AddressSpace) :=
  match space with
  | none => pure (false, none)
  | some space =>
      if mapRefuses space address physical then pure (false, some space)
      else do
        let data ← pageData physical
        if data = none ∨ flags &&& ~~~(vmWrite ||| vmUser ||| vmExec) ≠ 0 then
          pure (false, some space)
        else do
          let machine ← get
          if machine.leafPresent (some space) address then pure (false, some space)
          else do
            let found ← mapTables address upperShifts (machine.tableAt space.root) space
            finishMap address physical flags found

/-- `vm_unmap` -/
def vmUnmap (space : Option AddressSpace) (address : U64) : MachineM Bool := do
  let machine ← get
  if address.toNat % pageSize ≠ 0 then pure false
  else
    match space, machine.leafEntry space address 0 with
    | some space, some (leaf, _) =>
        if machine.entryAt leaf &&& ptePresent = 0 then pure false
        else do
          setEntry leaf 0
          if space.root = machine.currentRoot then do
            invalidatePage address
            pure true
          else pure true
    | _, _ => pure false

/-- Returns the tables to the allocator, in the order of the list. -/
def freeTables : List U64 → MachineM Unit
  | [] => pure ()
  | table :: rest => do
      let ok ← pageFree table
      if ok then freeTables rest else halt (.panic "page table ownership differs")

/-- `vm_destroy`; the tables are freed from the last to the first. -/
def vmDestroy : Option AddressSpace → MachineM (Bool × Option AddressSpace)
  | none => pure (false, none)
  | some space => do
      let machine ← get
      if space.root = 0 ∨ space.root = machine.currentRoot then pure (false, some space)
      else do
        freeTables space.tables.reverse
        pure (true, some .zero)

end MiniLinux
