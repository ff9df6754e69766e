import MiniLinux.Checks.Report
import MiniLinux.Memory.PageOrder

/-! `kernel/memory/page_test.c`: the self-test of the page allocator, which the first level runs
once after `page_init`. The one function of the source is cut where its report is printed.
-/

namespace MiniLinux

open Foundation Foundation.Halting

/-- `LIMINE_MEMMAP_BOOTLOADER_RECLAIMABLE` -/
def limineMemmapBootloaderReclaimable : U64 := 5

/-- The loop of `usable_page`. -/
def usablePage : List (Option MemmapEntry) → U64 → LabM Bool
  | [], _ => pure false
  | none :: _, _ => halt .nullPointer
  | some entry :: rest, address =>
      if entry.type = limineMemmapUsable ∧ address ≥ entry.base
        ∧ address < entry.base + entry.length
      then pure true
      else usablePage rest address

/-- `reject_free` -/
def rejectFree (address : U64) (reason : String) : LabM Unit := do
  let before ← freeCount
  let freed ← onMachine (pageFree address)
  require (freed = false) reason
  let after ← freeCount
  require (after = before) "rejected free changed the free count"
  serialWrite "M1 rejected free: "
  serialWrite reason
  serialWrite " at "
  serialWriteHex address
  serialWrite "\n"

-----------------------------------------------------------------------------------------
-- The start of the test
-----------------------------------------------------------------------------------------

/-- The report of the allocator's record. -/
def reportRecord (hhdmOffset : U64) (info : PageInfo) : LabM Unit := do
  serialWrite "M1 HHDM offset: "
  serialWriteHex hhdmOffset
  serialWrite "\nM1 tracked frames: "
  serialWriteNumber info.frameCount
  serialWrite "; free pages: "
  serialWriteNumber info.freeCount
  serialWrite "\nM1 metadata physical: "
  serialWriteHex info.metadataBase
  serialWrite "; reserved pages: "
  serialWriteNumber info.metadataPages
  serialWrite "\n"

def reportEntry (entry : MemmapEntry) : LabM Unit := do
  serialWrite "M1 map base="
  serialWriteHex entry.base
  serialWrite " length="
  serialWriteHex entry.length
  serialWrite " type="
  serialWriteNumber entry.type
  serialWrite "\n"

/-- The report of the memory map. -/
def reportMap : List (Option MemmapEntry) → LabM Unit
  | [] => pure ()
  | none :: _ => halt .nullPointer
  | some entry :: rest => do
      reportEntry entry
      reportMap rest

/-- `page_alloc(&address)` -/
def takePage (address : U64) : LabM (Bool × U64) := do
  let (ok, output) ← onMachine (pageAlloc (some address))
  pure (ok, output.getD address)

/-- The first two allocations with their checks. -/
def takeTwo (entries : List (Option MemmapEntry)) (initialFree : U64) : LabM (U64 × U64) := do
  let (ok, first) ← takePage 0
  require (ok = true) "first page allocation failed"
  let (ok, second) ← takePage 0
  require (ok = true) "second page allocation failed"
  require
    (first ≠ second ∧ first.toNat % pageSize = 0 ∧ second.toNat % pageSize = 0)
    "allocated pages are duplicate or unaligned"
  let usable ← usablePage entries first
  let usable' ← if usable then usablePage entries second else pure false
  require (usable' = true) "allocated page is not usable"
  let free ← freeCount
  require (free = initialFree - 2) "initial allocation count differs"
  pure (first, second)

-----------------------------------------------------------------------------------------
-- The bytes of the two pages
-----------------------------------------------------------------------------------------

/-- `pointer[0] = byte`, through the direct map -/
def storeDirect (pointer : U64) (byte : Byte) : MachineM Unit :=
  modify fun machine =>
    { machine with
      memory := machine.memory.store (directMap machine.pages.hhdmOffset pointer) byte }

/-- `pointer[0]`, through the direct map -/
def loadDirect (pointer : U64) : MachineM Byte := do
  let machine ← get
  pure (machine.memory (directMap machine.pages.hhdmOffset pointer))

/-- The loop that fills both pages. -/
def fillPages (a b : U64) (i : Nat) : Nat → LabM Unit
  | 0 => pure ()
  | count + 1 => do
      onMachine (storeDirect (a + BitVec.ofNat 64 i) 0x35)
      onMachine (storeDirect (b + BitVec.ofNat 64 i) 0xca)
      fillPages a b (i + 1) count

/-- The loop that reads both pages back. -/
def readBack (a b : U64) (message : String) (i : Nat) : Nat → LabM Unit
  | 0 => pure ()
  | count + 1 => do
      let left ← onMachine (loadDirect (a + BitVec.ofNat 64 i))
      let right ← onMachine (loadDirect (b + BitVec.ofNat 64 i))
      require (left = 0x35 ∧ right = 0xca) message
      readBack a b message (i + 1) count

/-- The pointers to the two pages, which the test fills and reads back. -/
def markPages (first second : U64) : LabM (U64 × U64) := do
  let left ← onMachine (pageData first)
  let right ← onMachine (pageData second)
  require (left ≠ none ∧ right ≠ none) "allocated page has no HHDM pointer"
  match left, right with
  | some a, some b => do
      fillPages a b 0 pageSize
      readBack a b "distinct page readback differs" 0 pageSize
      serialWrite "M1 distinct physical pages: "
      serialWriteHex first
      serialWrite " / "
      serialWriteHex second
      serialWrite "; 4096-byte readback passed\n"
      pure (a, b)
  | _, _ => halt .nullPointer

-----------------------------------------------------------------------------------------
-- Frees that must be refused
-----------------------------------------------------------------------------------------

/-- The loop over the map that looks for a page of the bootloader. -/
def rejectReclaimable : List (Option MemmapEntry) → LabM Bool
  | [] => pure false
  | none :: _ => halt .nullPointer
  | some entry :: rest =>
      if entry.type = limineMemmapBootloaderReclaimable
        ∧ entry.length ≥ BitVec.ofNat 64 pageSize
      then do
        rejectFree entry.base "bootloader still owns this page"
        pure true
      else rejectReclaimable rest

/-- The rejected frees and the second initialisation. -/
def rejections (map : MemmapResponse) (entries : List (Option MemmapEntry)) (hhdmOffset : U64)
    (info : PageInfo) (first : U64)
    : LabM Unit := do
  rejectFree 0 "zero page"
  rejectFree info.metadataBase "allocator metadata"
  rejectFree (first + 1) "unaligned address"
  rejectFree (info.frameCount * BitVec.ofNat 64 pageSize) "outside managed range"
  let reclaimableSeen ← rejectReclaimable entries
  require (reclaimableSeen = true) "no bootloader-reclaimable page to check"
  let again ← onMachine (pageInit (some map) hhdmOffset)
  require (again = false) "allocator accepted a second initialization"
  let free ← freeCount
  require (free = info.freeCount - 2) "second initialization changed page state"

-----------------------------------------------------------------------------------------
-- Exhaustion and return
-----------------------------------------------------------------------------------------

/-- The loop that takes every page. Its last check ends it after `initial_free` rounds, so the
bound on the rounds never does.
-/
def exhaust (entries : List (Option MemmapEntry)) (info : PageInfo)
    : Nat → U64 → U64 → U64 → LabM U64
  | 0, _, _, allocated => pure allocated
  | rounds + 1, address, last, allocated => do
      let (ok, address) ← takePage address
      if ok then do
        require (address > last) "allocation order repeated or moved backwards"
        let usable ← usablePage entries address
        require (usable = true) "exhaustion reached a non-usable page"
        require
          (address < info.metadataBase
            ∨ address ≥ info.metadataBase + info.metadataPages * BitVec.ofNat 64 pageSize)
          "allocator handed out its own metadata"
        require (allocated + 1 ≤ info.freeCount) "allocator exceeded its initial free count"
        exhaust entries info rounds address address (allocated + 1)
      else pure allocated

/-- The check that nothing is left. -/
def checkExhausted (info : PageInfo) (allocated : U64) : LabM Unit := do
  let free ← freeCount
  require (allocated = info.freeCount ∧ free = 0) "exhaustion count differs"
  let (ok, address) ← takePage (-1)
  require (ok = false ∧ address = -1) "exhausted allocation changed output"

/-- The first page is freed and taken again; the marks of both pages are still there. -/
def reusePage (first a b allocated : U64) : LabM Unit := do
  let freed ← onMachine (pageFree first)
  let free ← freeCount
  require (freed = true ∧ free = 1) "release after exhaustion failed"
  let data ← onMachine (pageData first)
  require (data = none) "released page still has an allocated-page pointer"
  rejectFree first "double free"
  let (ok, reused) ← takePage 0
  let free ← freeCount
  require (ok = true ∧ reused = first ∧ free = 0) "the only released page was not reusable"
  readBack a b "page content changed during allocator operations" 0 pageSize
  serialWrite "M1 exhaustion: "
  serialWriteNumber allocated
  serialWrite " distinct usable pages; released page reused\n"

/-- The loop that frees every frame that can be freed. -/
def returnFrames (frame : Nat) : Nat → U64 → LabM U64
  | 0, returned => pure returned
  | count + 1, returned => do
      let freed ← onMachine (pageFree (BitVec.ofNat 64 frame * BitVec.ofNat 64 pageSize))
      returnFrames (frame + 1) count (if freed then returned + 1 else returned)

/-- All pages go back, and the allocator starts again. -/
def returnAll (info : PageInfo) (first : U64) : LabM Unit := do
  let returned ← returnFrames 0 info.frameCount.toNat 0
  let free ← freeCount
  require (returned = info.freeCount ∧ free = info.freeCount)
    "returning experiment pages did not restore the free count"
  rejectFree first "already returned experiment page"
  let (ok, address) ← takePage (-1)
  let restarted ← if ok then onMachine (pageFree address) else pure false
  require (restarted = true) "allocator cannot restart after return"
  let free ← freeCount
  require (free = info.freeCount) "final free count differs"
  serialWrite "M1 restored free pages: "
  serialWriteNumber free
  serialWrite "\nMiniLinux M1: physical page checks passed\n"

/-- `page_selftest` -/
def pageSelftest (map : MemmapResponse) (hhdmOffset : U64) : LabM Unit := do
  let info ← pageGetInfo
  require (info.freeCount ≥ 2) "fewer than two free pages"
  reportRecord hhdmOffset info
  match map.entries with
  | none => halt .nullPointer
  | some entries => do
      reportMap entries
      let (first, second) ← takeTwo entries info.freeCount
      let (a, b) ← markPages first second
      rejections map entries hhdmOffset info first
      let allocated ← exhaust entries info info.freeCount.toNat 0 second 2
      checkExhausted info allocated
      reusePage first a b allocated
      returnAll info first

/-- `kernel_main` of the first level, after the requests to the bootloader were answered -/
def kernelMainPages (info : BootInfo) : LabM Unit := do
  serialWrite "MiniLinux M"
  serialWriteNumber 1
  serialWrite ": entered kernel_main\n"
  let ok ← onMachine (pageInit (some info.memmap) info.hhdmOffset)
  if ok then do
    pageSelftest info.memmap info.hhdmOffset
    halt (.panic "M1 reached its intentional stop")
  else halt (.panic "physical page initialization failed")

end MiniLinux
