import MiniLinux.Checks.PageTest
import MiniLinux.Memory.Processor

/-! `kernel/memory/vm_test.c`: the self-test of the address spaces, which the second level runs once
after `vm_init`. It reads and writes through the space that it tests, so the processor's cached
translations matter; what the processor does with them is a parameter.
-/

namespace MiniLinux

open Foundation Foundation.Halting

/-- `pointer[i] = byte` through the direct map, for a pointer that may be null -/
def storePage (pointer : Option U64) (i : Nat) (byte : Byte) : MachineM Unit :=
  match pointer with
  | none => halt .nullPointer
  | some base => storeDirect (base + BitVec.ofNat 64 i) byte

/-- `pointer[i]` through the direct map, for a pointer that may be null -/
def loadPage (pointer : Option U64) (i : Nat) : MachineM Byte :=
  match pointer with
  | none => halt .nullPointer
  | some base => loadDirect (base + BitVec.ofNat 64 i)

-----------------------------------------------------------------------------------------
-- Operations on the space
-----------------------------------------------------------------------------------------

/-- `address` -/
def testAddress : U64 := 0x400000

/-- `alias` -/
def testAlias : U64 := 0x401000

/-- A call with `&space` -/
def spaceCall (program : Option AddressSpace → MachineM (Bool × Option AddressSpace))
    (space : AddressSpace)
    : LabM (Bool × AddressSpace) := do
  let (ok, changed) ← onMachine (program (some space))
  pure (ok, changed.getD space)

/-- `vm_map(&space, address, physical, VM_WRITE)` -/
def mapWrite (space : AddressSpace) (address physical : U64) : LabM (Bool × AddressSpace) :=
  spaceCall (fun space => vmMap space address physical vmWrite) space

/-- `require(!vm_map(&space, address, physical, VM_WRITE), message)` -/
def refuseMap (space : AddressSpace) (address physical : U64) (message : String)
    : LabM AddressSpace := do
  let (ok, space) ← mapWrite space address physical
  require (ok = false) message
  pure space

/-- `first && second` -/
def andAlso (first second : LabM Bool) : LabM Bool := do
  let ok ← first
  if ok then second else pure false

/-- `*pointer == byte` -/
def reads (program : MachineM Byte) (byte : Byte) : LabM Bool := do
  let found ← onMachine program
  pure (decide (found = byte))

/-- `vm_current_root()` -/
def activeRoot : LabM U64 := do
  let lab ← get
  pure lab.machine.currentRoot

/-- `vm_lookup(&space, address, &result, &flags)` -/
def lookUp (space : AddressSpace) (address result : U64) (flags : U32)
    : LabM (Bool × U64 × U32) := do
  let lab ← get
  pure (lab.machine.vmLookup (some space) address result flags)

-----------------------------------------------------------------------------------------
-- The test
-----------------------------------------------------------------------------------------

/-- The space and the two data pages. -/
def openSpace : LabM (AddressSpace × U64 × U64) := do
  let (ok, space) ← spaceCall vmCreate .zero
  require (ok = true) "M2 root allocation failed"
  let (ok, first) ← takePage 0
  require (ok = true) "M2 first data page failed"
  let (ok, second) ← takePage 0
  require (ok = true) "M2 second data page failed"
  pure (space, first, second)

/-- The two maps of the first page. -/
def mapTwice (space : AddressSpace) (first : U64) : LabM AddressSpace := do
  let (ok, space) ← mapWrite space testAddress first
  require (ok = true) "M2 mapping failed"
  let (ok, space) ← mapWrite space testAlias first
  require (ok = true) "M2 alias failed"
  pure space

/-- The maps that must be refused, and the lookup. -/
def refuseMaps (space : AddressSpace) (first second : U64) : LabM (AddressSpace × U64 × U32) := do
  let space ← refuseMap space testAddress second "M2 overwrote a mapping"
  let space ← refuseMap space (testAlias + 1) second "M2 accepted unaligned VA"
  let space ← refuseMap space 0x402000 (second + 1) "M2 accepted unaligned PA"
  let space ← refuseMap space (1 <<< 47) second "M2 accepted upper VA"
  let (found, result, flags) ← lookUp space (testAddress + 17) 0 0
  require (found = true ∧ result = first + 17 ∧ flags = vmWrite) "M2 page walk differs"
  pure (space, result, flags)

/-- The space becomes the active one, and is not destroyed. -/
def enterSpace (space : AddressSpace) : LabM AddressSpace := do
  onMachine (vmSwitch space.root)
  let root ← activeRoot
  let (destroyed, space') ←
    if root = space.root then spaceCall vmDestroy space else pure (true, space)
  require (destroyed = false) "M2 active root differs"
  pure space'

/-- `for (..) { a[i] = (uint8_t)i; }` -/
def fillAddress (processor : Processor) (i : Nat) : Nat → LabM Unit
  | 0 => pure ()
  | count + 1 => do
      onMachine (processor.store (testAddress + BitVec.ofNat 64 i) (BitVec.ofNat 8 i))
      fillAddress processor (i + 1) count

/-- The loop that reads the first page through its alias and the direct map. -/
def readAlias (processor : Processor) (physical : Option U64) (i : Nat) : Nat → LabM Unit
  | 0 => pure ()
  | count + 1 => do
      let same ←
        andAlso (reads (processor.load (testAlias + BitVec.ofNat 64 i)) (BitVec.ofNat 8 i))
          (reads (loadPage physical i) (BitVec.ofNat 8 i))
      require (same = true) "M2 alias readback differs"
      readAlias processor physical (i + 1) count

/-- `for (..) { replacement[i] = 0x5a; }` -/
def fillReplacement (replacement : Option U64) (i : Nat) : Nat → LabM Unit
  | 0 => pure ()
  | count + 1 => do
      onMachine (storePage replacement i 0x5a)
      fillReplacement replacement (i + 1) count

/-- The loop that reads both pages through the space. -/
def readRemapped (processor : Processor) (i : Nat) : Nat → LabM Unit
  | 0 => pure ()
  | count + 1 => do
      let same ←
        andAlso (reads (processor.load (testAlias + BitVec.ofNat 64 i)) 0x5a)
          (reads (processor.load (testAddress + BitVec.ofNat 64 i)) (BitVec.ofNat 8 i))
      require (same = true) "M2 stale translation remains"
      readRemapped processor (i + 1) count

/-- The alias moves to the second page. -/
def moveAlias (processor : Processor) (space : AddressSpace) (second result : U64) (flags : U32)
    : LabM AddressSpace := do
  let unmapped ← onMachine (vmUnmap (some space) testAlias)
  require (unmapped = true) "M2 unmap failed"
  let (found, _, _) ← lookUp space testAlias result flags
  let unmapped ← if found then pure true else onMachine (vmUnmap (some space) testAlias)
  require (unmapped = false) "M2 removed mapping still present"
  let replacement ← onMachine (pageData second)
  fillReplacement replacement 0 pageSize
  let (ok, space) ← mapWrite space testAlias second
  require (ok = true) "M2 remap failed"
  readRemapped processor 0 pageSize
  pure space

/-- The report of the active root. -/
def reportSpace (root first : U64) : LabM Unit := do
  serialWrite "M2 active CR3: "
  serialWriteHex root
  serialWrite "; VA "
  serialWriteHex testAddress
  serialWrite " -> PA "
  serialWriteHex first
  serialWrite "; alias and HHDM readback passed\n"

/-- `vm_destroy(&space) && page_free(first) && page_free(second)` -/
def returnSpace (space : AddressSpace) (first second : U64) : LabM Bool := do
  let destroyed := do
    let (ok, _) ← spaceCall vmDestroy space
    pure ok
  andAlso (andAlso destroyed (onMachine (pageFree first))) (onMachine (pageFree second))

/-- `vm_selftest` -/
def vmSelftest (processor : Processor) : LabM Unit := do
  let before ← freeCount
  let boot ← activeRoot
  let (space, first, second) ← openSpace
  let space ← mapTwice space first
  let (space, result, flags) ← refuseMaps space first second
  let space ← enterSpace space
  let physical ← onMachine (pageData first)
  fillAddress processor 0 pageSize
  readAlias processor physical 0 pageSize
  let space ← moveAlias processor space second result flags
  let root ← activeRoot
  reportSpace root first
  onMachine (vmSwitch boot)
  let returned ← returnSpace space first second
  require (returned = true) "M2 cleanup failed"
  let after ← freeCount
  require (after = before) "M2 leaked experiment pages"
  serialWrite "MiniLinux M2: address mapping checks passed\n"

/-- `kernel_main` of the second level, after the requests to the bootloader were answered -/
def kernelMainSpaces (processor : Processor) (info : BootInfo) : LabM Unit := do
  serialWrite "MiniLinux M"
  serialWriteNumber 2
  serialWrite ": entered kernel_main\n"
  let ok ← onMachine (pageInit (some info.memmap) info.hhdmOffset)
  if ok then do
    onMachine (vmInit info.cr4 info.hhdmOffset)
    vmSelftest processor
    halt (.panic "M2 reached its intentional stop")
  else halt (.panic "physical page initialization failed")

end MiniLinux
