import MiniLinux.Laboratory.Syscalls
import MiniLinux.Memory.PageInit

/-! The laboratory as a state machine. User code runs between kernel entries; it may hold
any registers and make any store that its own mappings allow. Devices and the processor act
at any time in between. Every entry is one whole run of the kernel.
-/

namespace MiniLinux

open Foundation Foundation.Halting

/-- `interrupt_dispatch`; `cr2` is the register of that name. -/
def interruptDispatch (image : List Byte) (frame : StackPointer) (cr2 : U64)
    : LabM (Option StackPointer) := do
  let vector ← loadField frame .vector
  let cs ← loadField frame .cs
  if vector = 128 then syscallDispatch image frame
  else if cs &&& 3 = 3 ∧ (vector = 0 ∨ vector = 6 ∨ vector = 13 ∨ vector = 14) then
    userFault frame (if vector = 14 then cr2 else 0)
  else if vector = 32 then taskTick frame
  else halt (.panic "unexpected CPU exception")

/-- Loads the user context from a frame and leaves the kernel. -/
def leaveKernel (frame : Option StackPointer) : LabM Unit := do
  let frame ← derefFrame frame
  modify fun lab =>
    { lab with cpu := restoreFrame (lab.tasks frame.slot).stack frame.word lab.cpu.general }

/-- Saves the user context below `rsp0`. What the C code leaves on the stack below the frame
is arbitrary.
-/
def enterKernel (vector : Fin 256) (error : U64) (scratch : Stack) : LabM StackPointer := do
  let lab ← get
  let top ← derefFrame lab.rsp0
  let pushes := entryPushes lab.cpu vector error
  let frame : StackPointer := ⟨top.slot, top.word - pushes.length⟩
  modifyTask top.slot fun task =>
    { task with
      stack := fun word =>
        if word < frame.word then scratch word
        else pushWords task.stack top.word pushes word }
  pure frame

/-- The bits of `RFLAGS` that CPL3 cannot change without I/O privilege: `IF` and `IOPL`. -/
def keptFlags : U64 := 0x3200

/-- What can happen between and at kernel entries. -/
inductive LabEvent where
  | run (context : Context)
  | store (address : U64) (byte : Byte)
  | mark (address : U64) (level : Nat) (bits : U64)
  | receive (byte : Byte)
  | interrupt (vector : Fin 256) (error cr2 : U64) (scratch : Stack)

/-- The tables that the processor's walk reads, with the index in each. -/
def Machine.walkSlots (machine : Machine) (address : U64) : List Nat → U64 → List (U64 × Nat)
  | [], _ => []
  | shift :: rest, table =>
      let index := tableIndex address shift
      let entry := machine.entry table index
      if entry &&& ptePresent = 0 then []
      else if entry &&& pteLarge ≠ 0 then [(table, index)]
      else (table, index) :: machine.walkSlots address rest (entry &&& pteAddress)

/-- The processor sets accessed or dirty bits in an entry that it walks for user code. -/
def Machine.markEntry (machine : Machine) (address : U64) (level : Nat) (bits : U64) : Machine :=
  if address.toNat < 2 ^ 47 then
    match (machine.walkSlots address walkShifts machine.currentRoot)[level]? with
    | none => machine
    | some (table, index) =>
        machine.withEntry table index
          (machine.entry table index ||| (bits &&& pteAccessedDirty))
  else machine

/-- A user store; where the mappings do not allow it nothing is stored. -/
def Machine.userStore (machine : Machine) (address : U64) (byte : Byte) : Machine :=
  match machine.cpuAccess machine.currentRoot true true address with
  | none => machine
  | some place => { machine with memory := machine.memory.store place byte }

/-- The context that user code leaves: it keeps its segments and the privileged flags. -/
def Context.runTo (context context' : Context) : Context :=
  { context' with
    cs := context.cs
    ss := context.ss
    rflags := (context'.rflags &&& ~~~keptFlags) ||| (context.rflags &&& keptFlags) }

/-- One event of the laboratory. -/
def labStep (image : List Byte) : LabEvent → LabM Unit
  | .run context => modify fun lab => { lab with cpu := lab.cpu.runTo context }
  | .store address byte =>
      modify fun lab => { lab with machine := lab.machine.userStore address byte }
  | .mark address level bits =>
      modify fun lab => { lab with machine := lab.machine.markEntry address level bits }
  | .receive byte => modify fun lab => { lab with received := lab.received ++ [byte] }
  | .interrupt vector error cr2 scratch => do
      let frame ← enterKernel vector error scratch
      let next ← interruptDispatch image frame cr2
      leaveKernel next

/-- `task_start` -/
def taskStart (image : List Byte) : LabM Unit := do
  if image.length = 0 ∨ image.length > 16 * pageSize then
    halt (.panic "LAB embedded image is too large")
  else do
    event "boot" [.text "LAB", .text "x86_64", .text "100", .text "8"]
    let id ← spawn image .init 0
    if id ≠ 1 then halt (.panic "LAB init creation failed")
    else do
      let frame ← selectTask 0
      leaveKernel frame

/-- What the bootloader hands to the kernel. -/
structure BootInfo where
  memmap : MemmapResponse
  hhdmOffset : U64
  cr4 : U64

/-- `kernel_main`, after the requests to the bootloader were answered -/
def kernelMain (image : List Byte) (info : BootInfo) : LabM Unit := do
  serialWrite "MiniLinux LAB: entered kernel_main\n"
  let ok ← onMachine (pageInit (some info.memmap) info.hhdmOffset)
  if ok then do
    onMachine (vmInit info.cr4 info.hhdmOffset)
    taskStart image
  else halt (.panic "physical page initialization failed")

/-- The kernel's static data before it runs, on an arbitrary machine. -/
structure Lab.Cold (lab : Lab) : Prop where
  fresh : lab.machine.Fresh
  tasks : lab.tasks = fun _ => Task.zero
  current : lab.current = 0
  nextPid : lab.nextPid = 1
  ticks : lab.ticks = 0
  rsp0 : lab.rsp0 = none
  console : lab.console = ⟨[], []⟩

/-- What Limine guarantees of its answers. -/
structure BootInfo.Guaranteed (info : BootInfo) : Prop where
  disjoint : ∀ entries, info.memmap.entries = some entries → UsableDisjoint entries
  higherHalf : 0xffff800000000000 ≤ info.hhdmOffset.toNat

/-- The states of the laboratory between kernel entries. -/
inductive Reachable (image : List Byte) (info : BootInfo) : Lab → Prop
  | boot {cold lab : Lab} (booted : kernelMain image info cold = .ok ((), lab))
      (start : cold.Cold)
      : Reachable image info lab
  | step {lab lab' : Lab} (event : LabEvent) (reached : Reachable image info lab)
      (stepped : labStep image event lab = .ok ((), lab'))
      : Reachable image info lab'

end MiniLinux
