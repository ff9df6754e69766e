import MiniLinux.Laboratory.Kernel

/-! `syscall_dispatch` of `kernel/laboratory.c`, one definition for each call. Every call is
checked against the task's own tables and then dereferences through the active ones.
-/

namespace MiniLinux

open Foundation Foundation.Halting

/-- The numbers of `include/abi.h`. -/
inductive Syscall where
  | taskId | write | ticks | report | exit | open | read | close
  | program | spawn | wait | input | process | file | memory | inspect
  deriving DecidableEq, Repr

def Syscall.ofNumber (number : U64) : Option Syscall :=
  match number.toNat with
  | 0 => some .taskId
  | 1 => some .write
  | 2 => some .ticks
  | 3 => some .report
  | 4 => some .exit
  | 5 => some .open
  | 6 => some .read
  | 7 => some .close
  | 8 => some .program
  | 9 => some .spawn
  | 10 => some .wait
  | 11 => some .input
  | 12 => some .process
  | 13 => some .file
  | 14 => some .memory
  | 15 => some .inspect
  | _ => none

/-- The argument registers of a call. -/
structure Arguments where
  rdi : U64
  rsi : U64
  rdx : U64

/-- `user_range(task_current(), ..)` -/
def Lab.userRange (lab : Lab) (address length : U64) (writing : Bool) : Bool :=
  lab.machine.userRange lab.taskCurrent.space address length writing

/-- Changes the descriptors of the current task. -/
def setFiles (files : Slots) : LabM Unit := do
  let lab ← get
  modifyTask lab.current fun task => { task with files }

/-- `SYS_WRITE` -/
def sysWrite (arguments : Arguments) : LabM U64 := do
  let lab ← get
  if lab.userRange arguments.rdi arguments.rsi false then do
    let bytes ← loadUserBytes arguments.rdi arguments.rsi.toNat
    serialWriteBytes bytes
    pure arguments.rsi
  else pure (-2)

/-- `SYS_OPEN` -/
def sysOpen (arguments : Arguments) : LabM U64 := do
  let lab ← get
  if lab.userRange arguments.rdi arguments.rsi false then do
    let name ← loadUserBytes arguments.rdi arguments.rsi.toNat
    let (result, slots) := ramfsOpen files lab.taskCurrent.files name
    setFiles slots
    pure result
  else pure (-2)

/-- `SYS_READ` -/
def sysRead (arguments : Arguments) : LabM U64 := do
  let lab ← get
  if lab.userRange arguments.rsi arguments.rdx true then
    match ramfsRead files lab.taskCurrent.files arguments.rdi arguments.rdx with
    | none => halt .outOfBounds
    | some (result, bytes, slots) => do
        storeUserBytes arguments.rsi bytes
        setFiles slots
        pure result
  else pure (-2)

/-- `SYS_CLOSE` -/
def sysClose (arguments : Arguments) : LabM U64 := do
  let lab ← get
  let (result, slots) := ramfsClose lab.taskCurrent.files arguments.rdi
  setFiles slots
  pure result

/-- The programs that a program may start: `init` starts the shell, the shell the others. -/
def spawnable (caller : Program) (number : U64) : Option Program :=
  match caller, number.toNat with
  | .init, 1 => some .shell
  | .shell, 2 => some .hello
  | .shell, 3 => some .reader
  | .shell, 4 => some .counterA
  | .shell, 5 => some .counterB
  | .shell, 6 => some .fault
  | _, _ => none

/-- `SYS_SPAWN` -/
def sysSpawn (image : List Byte) (arguments : Arguments) : LabM U64 := do
  let lab ← get
  match spawnable lab.taskCurrent.program arguments.rdi with
  | some program => spawn image program lab.taskCurrent.id
  | none => pure (-3)

/-- `SYS_INPUT` -/
def sysInput (arguments : Arguments) : LabM U64 := do
  let lab ← get
  if lab.userRange arguments.rdi 1 true then do
    let received ← serialReadChar
    match received with
    | none => pure (-6)
    | some byte => do
        storeUser arguments.rdi byte
        pure 1
  else pure (-2)

/-- The bytes of `struct process_info`. -/
def Task.info (task : Task) : List Byte :=
  [wide task.id, wide task.parent, task.program.number, task.state.number, task.root,
    wide task.slices].flatMap fun value => littleEndianBytes 8 value.toNat

/-- `sizeof(struct process_info)` -/
def processInfoSize : U64 := 48

/-- `SYS_PROCESS` -/
def sysProcess (arguments : Arguments) : LabM U64 := do
  let lab ← get
  if lab.userRange arguments.rsi processInfoSize true then
    if inside : arguments.rdi.toNat < 8 then
      let found := lab.tasks ⟨arguments.rdi.toNat, inside⟩
      if found.state = .unused then pure 0
      else do
        storeUserBytes arguments.rsi found.info
        pure 1
    else pure 0
  else pure (-2)

/-- `SYS_FILE` -/
def sysFile (arguments : Arguments) : LabM U64 := do
  let lab ← get
  if lab.userRange arguments.rsi (BitVec.ofNat 64 fileInfoSize) true then
    if arguments.rdi.toNat > 0xffffffff then pure 0
    else
      match ramfsFile files (arguments.rdi.setWidth 32) with
      | none => pure 0
      | some bytes => do
          storeUserBytes arguments.rsi bytes
          pure 1
  else pure (-2)

/-- The bytes of `struct memory_info`. -/
def PageInfo.bytes (info : PageInfo) : List Byte :=
  [info.frameCount, info.freeCount].flatMap fun value => littleEndianBytes 8 value.toNat

/-- `sizeof(struct memory_info)` -/
def memoryInfoSize : U64 := 16

/-- `SYS_MEMORY` -/
def sysMemory (arguments : Arguments) : LabM U64 := do
  let lab ← get
  if lab.userRange arguments.rdi memoryInfoSize true then do
    storeUserBytes arguments.rdi lab.machine.pageInfo.bytes
    pure 0
  else pure (-2)

/-- The calls that return a result to their caller at once. -/
def syscallResult (image : List Byte) (arguments : Arguments) : Option Syscall → LabM U64
  | some .taskId => do
      let lab ← get
      pure (wide lab.taskCurrent.id)
  | some .program => do
      let lab ← get
      pure lab.taskCurrent.program.number
  | some .ticks => do
      let lab ← get
      pure lab.ticks
  | some .write => sysWrite arguments
  | some .open => sysOpen arguments
  | some .read => sysRead arguments
  | some .close => sysClose arguments
  | some .spawn => sysSpawn image arguments
  | some .input => sysInput arguments
  | some .process => sysProcess arguments
  | some .file => sysFile arguments
  | some .memory => sysMemory arguments
  | some .inspect => do
      inspect image
      pure 0
  | _ => pure (-1)

/-- The result as a signed number in the trace. -/
def resultField (result : U64) : TraceField :=
  if result.slt 0 then .negative (-result) else .number result

/-- The calls that the trace leaves out: polling and single characters. -/
def untraced (call : Option Syscall) (arguments : Arguments) (result : U64) : Prop :=
  call = some .ticks ∨ call = some .inspect ∨ call = some .taskId ∨ call = some .program
  ∨ (call = some .input ∧ result = -6) ∨ (call = some .write ∧ arguments.rsi = 1)

instance (call : Option Syscall) (arguments : Arguments) (result : U64)
    : Decidable (untraced call arguments result) :=
  inferInstanceAs (Decidable (_ ∨ _))

/-- The trace line of a call. -/
def syscallEvent (id : U32) (number : U64) (arguments : Arguments) (result : U64) : LabM Unit :=
  event "syscall"
    [.number (wide id), .number number, .hex arguments.rdi, .hex arguments.rsi,
      .hex arguments.rdx, resultField result, .number 3]

/-- The end of `syscall_dispatch`. -/
def finishSyscall (frame : StackPointer) (id : U32) (number : U64) (arguments : Arguments)
    (result : U64)
    : LabM (Option StackPointer) := do
  if untraced (Syscall.ofNumber number) arguments result then pure ()
  else syscallEvent id number arguments result
  storeField frame (.general .rax) result
  pure (some frame)

/-- `syscall_dispatch` -/
def syscallDispatch (image : List Byte) (frame : StackPointer) : LabM (Option StackPointer) := do
  let cs ← loadField frame .cs
  if cs ≠ 0x23 then halt (.panic "LAB syscall must enter from CPL3")
  else do
    let lab ← get
    let id := lab.taskCurrent.id
    let number ← loadField frame (.general .rax)
    let rdi ← loadField frame (.general .rdi)
    let rsi ← loadField frame (.general .rsi)
    let rdx ← loadField frame (.general .rdx)
    match Syscall.ofNumber number with
    | some .wait => waitChild frame rdi
    | some .exit => taskExit frame rdi
    | call => do
        let result ← syscallResult image ⟨rdi, rsi, rdx⟩ call
        finishSyscall frame id number ⟨rdi, rsi, rdx⟩ result

end MiniLinux
