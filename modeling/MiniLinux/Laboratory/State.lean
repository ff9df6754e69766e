import MiniLinux.Laboratory.Frame
import MiniLinux.Laboratory.RamFs
import MiniLinux.Memory.UserRange

/-! The state of the laboratory kernel: eight task slots over the machine, the devices it
talks to, and the user context of the processor. Kernel code runs with interrupts masked,
so each entry is one program over this state.
-/

namespace MiniLinux

open Foundation Foundation.Halting

/-- `PROGRAM_INIT` and the other programs -/
inductive Program where
  | init | shell | hello | reader | counterA | counterB | fault
  deriving DecidableEq, Repr

def Program.number : Program → U64
  | .init => 0
  | .shell => 1
  | .hello => 2
  | .reader => 3
  | .counterA => 4
  | .counterB => 5
  | .fault => 6

/-- `PROCESS_UNUSED` and the other states -/
inductive ProcessState where
  | unused | ready | waiting | exited
  deriving DecidableEq, Repr

def ProcessState.number : ProcessState → U64
  | .unused => 0
  | .ready => 1
  | .waiting => 2
  | .exited => 3

/-- A slot of `tasks`; there are `TASK_LIMIT` of them. -/
abbrev TaskIndex := Fin 8

instance TaskIndex.neZero : NeZero 8 := ⟨by decide⟩

/-- A word of a task's kernel stack. -/
structure StackPointer where
  slot : TaskIndex
  word : Nat
  deriving DecidableEq, Repr

/-- `struct task`. `hasSpace` says that `space` is `&private_space` rather than null, and
`page_count` is the length of `pages`.
-/
structure Task where
  frame : Option StackPointer
  stack : Stack
  slices : U32
  hasSpace : Bool
  dataPage : U64
  id : U32
  alive : Bool
  files : Slots
  parent : U32
  program : Program
  state : ProcessState
  waitingFor : U32
  status : U64
  privateSpace : AddressSpace
  pages : List U64

/-- `memset(task, 0, sizeof(*task))` -/
def Task.zero : Task where
  frame := none
  stack := fun _ => 0
  slices := 0
  hasSpace := false
  dataPage := 0
  id := 0
  alive := false
  files := Slots.zero
  parent := 0
  program := .init
  state := .unused
  waitingFor := 0
  status := 0
  privateSpace := .zero
  pages := []

/-- `task->space` -/
def Task.space (task : Task) : Option AddressSpace :=
  if task.hasSpace then some task.privateSpace else none

/-- `task->space ? task->space->root : 0` -/
def Task.root (task : Task) : U64 := (task.space.map AddressSpace.root).getD 0

/-- A field of a trace line; `negative` prints a minus sign before the number. -/
inductive TraceField where
  | number (value : U64)
  | hex (value : U64)
  | negative (value : U64)
  | text (value : String)
  deriving DecidableEq, Repr

/-- A line of the trace on COM2. -/
structure TraceRecord where
  kind : String
  tick : U64
  fields : List TraceField
  deriving DecidableEq, Repr

/-- What the kernel has sent to the two serial ports. -/
structure Console where
  com1 : List Byte
  trace : List TraceRecord

/-- `received` are the bytes that wait in the receiver of COM1, `rsp0` is the field of the
task state segment, and `cpu` is the context of the running user program.
-/
structure Lab where
  machine : Machine
  tasks : TaskIndex → Task
  current : TaskIndex
  nextPid : U32
  ticks : U64
  rsp0 : Option StackPointer
  received : List Byte
  console : Console
  cpu : Context

abbrev LabM (α : Type) := Halting Halt Lab α

-----------------------------------------------------------------------------------------
-- Parts of the state
-----------------------------------------------------------------------------------------

/-- Runs a machine program. -/
def onMachine {α : Type} (program : MachineM α) : LabM α :=
  onComponent Lab.machine (fun lab machine => { lab with machine := machine }) program

/-- The state with one task changed. -/
def Lab.withTask (lab : Lab) (index : TaskIndex) (update : Task → Task) : Lab :=
  { lab with tasks := Function.update lab.tasks index (update (lab.tasks index)) }

def modifyTask (index : TaskIndex) (update : Task → Task) : LabM Unit :=
  modify fun lab => lab.withTask index update

/-- `*task_current()` -/
def Lab.taskCurrent (lab : Lab) : Task := lab.tasks lab.current

/-- A dereference of `task->frame`. -/
def derefFrame (frame : Option StackPointer) : LabM StackPointer :=
  match frame with
  | none => halt .nullPointer
  | some frame => pure frame

/-- `frame->field` -/
def loadField (frame : StackPointer) (field : FrameField) : LabM U64 := do
  let lab ← get
  pure ((lab.tasks frame.slot).stack (frame.word + field.offset))

/-- `frame->field = value` -/
def storeField (frame : StackPointer) (field : FrameField) (value : U64) : LabM Unit :=
  modifyTask frame.slot fun task =>
    { task with stack := Function.update task.stack (frame.word + field.offset) value }

-----------------------------------------------------------------------------------------
-- The serial ports
-----------------------------------------------------------------------------------------

/-- `event(kind); field(..); ..; end_event()` -/
def Lab.emit (lab : Lab) (kind : String) (fields : List TraceField) : Lab :=
  { lab with console := { lab.console with
      trace := lab.console.trace ++ [⟨kind, lab.ticks, fields⟩] } }

def event (kind : String) (fields : List TraceField) : LabM Unit :=
  modify fun lab => lab.emit kind fields

/-- A newline is sent as two bytes. -/
def serialBytes (bytes : List Byte) : List Byte :=
  bytes.flatMap fun byte => if byte = 10 then [13, byte] else [byte]

/-- `serial_write_bytes` -/
def serialWriteBytes (bytes : List Byte) : LabM Unit :=
  modify fun lab =>
    { lab with console := { lab.console with com1 := lab.console.com1 ++ serialBytes bytes } }

/-- `serial_write` -/
def serialWrite (message : String) : LabM Unit := serialWriteBytes (textBytes message)

/-- `serial_write_number` -/
def serialWriteNumber (value : U64) : LabM Unit := serialWrite (toString value.toNat)

/-- `serial_read_char`; `none` is -1 -/
def serialReadChar : LabM (Option Byte) := do
  let lab ← get
  match lab.received with
  | [] => pure none
  | byte :: rest => do
      set { lab with received := rest }
      pure (some byte)

-----------------------------------------------------------------------------------------
-- User memory
-----------------------------------------------------------------------------------------

/-- The kernel reads a byte through a user pointer. -/
def loadUser (address : U64) : LabM Byte := do
  let lab ← get
  match lab.machine.cpuAccess lab.machine.currentRoot false false address with
  | none => halt (.kernelFault address)
  | some place => pure (lab.machine.memory place)

/-- The kernel writes a byte through a user pointer. -/
def storeUser (address : U64) (byte : Byte) : LabM Unit := do
  let lab ← get
  match lab.machine.cpuAccess lab.machine.currentRoot false true address with
  | none => halt (.kernelFault address)
  | some place =>
      set { lab with machine := { lab.machine with
        memory := lab.machine.memory.store place byte } }

/-- The kernel reads `count` bytes upwards from a user pointer. -/
def loadUserBytes (address : U64) : Nat → LabM (List Byte)
  | 0 => pure []
  | count + 1 => do
      let byte ← loadUser address
      let rest ← loadUserBytes (address + 1) count
      pure (byte :: rest)

/-- The kernel writes bytes upwards from a user pointer. -/
def storeUserBytes (address : U64) : List Byte → LabM Unit
  | [] => pure ()
  | byte :: rest => do
      storeUser address byte
      storeUserBytes (address + 1) rest

end MiniLinux
