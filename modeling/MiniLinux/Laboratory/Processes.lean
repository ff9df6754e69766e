import MiniLinux.Laboratory.KernelState

/-! The processes of the laboratory without their memory.
Every process owns a whole processor context. An entry of the kernel is one step of the
table: it answers a call, switches, creates a process or ends one. What the laboratory does
to its tasks is compared with these steps.
-/

namespace MiniLinux

open Foundation

/-- A process as its parent and the scheduler see it. -/
structure Process where
  id : U32
  parent : U32
  program : Program
  state : ProcessState
  waitingFor : U32
  status : U64
  files : Slots
  context : Context

structure ProcessTable where
  slots : TaskIndex → Process
  current : TaskIndex
  nextPid : U32

/-- What the kernel is entered for. A fault ends a process like an exit. -/
inductive Action where
  | quiet
  | run (context : Context)
  | tick
  | call
  | spawn (number : U64)
  | wait (pid : U64)
  | terminate (status : U64)

/-- READY or WAITING -/
def Process.Live (process : Process) : Prop := process.state = .ready ∨ process.state = .waiting

/-- The process resumes with a result in `rax`. -/
def Process.reply (process : Process) (value : U64) : Process :=
  { process with context := { process.context with
      general := Function.update process.context.general .rax value } }

/-- `parent` waits for `child`. -/
def Process.Awaits (parent child : Process) : Prop :=
  parent.id = child.parent ∧ parent.state = .waiting ∧ parent.waitingFor = child.id

instance (parent child : Process) : Decidable (parent.Awaits child) :=
  inferInstanceAs (Decidable (_ ∧ _))

/-- A process that has not run yet. -/
def Process.fresh (id : U32) (program : Program) (parent : U32) : Process where
  id := id
  parent := parent
  program := program
  state := .ready
  waitingFor := 0
  status := 0
  files := Slots.zero
  context := initialContext

namespace ProcessTable

/-- The current process. -/
def running (table : ProcessTable) : Process := table.slots table.current

def set (table : ProcessTable) (index : TaskIndex) (process : Process) : ProcessTable :=
  { table with slots := Function.update table.slots index process }

/-- A call returns to its caller at once. -/
def answered (table : ProcessTable) (value : U64) (files : Slots) : ProcessTable :=
  table.set table.current ({ table.running with files := files }.reply value)

/-- The slots after the current one, in cyclic order; the current one is the last. -/
def candidates (table : ProcessTable) : List TaskIndex :=
  (List.finRange 8).map fun step => table.current + (step + 1)

/-- The ready process that is selected next. -/
def nextReady (table : ProcessTable) : Option TaskIndex :=
  table.candidates.find? fun index => (table.slots index).state = .ready

theorem nextReady_ready {table : ProcessTable} {next : TaskIndex}
    (chosen : table.nextReady = some next)
    : (table.slots next).state = .ready := by
  have holds := List.find?_some chosen
  exact of_decide_eq_true holds

/-- The process that a wait finds. -/
def child (table : ProcessTable) (pid : U64) : Option TaskIndex :=
  (List.finRange 8).find? fun index =>
    let found := table.slots index
    found.state ≠ .unused ∧ wide found.id = pid ∧ found.parent = table.running.id

/-- The caller collects an ended child. -/
def collected (table : ProcessTable) (index : TaskIndex) : ProcessTable :=
  (table.set table.current (table.running.reply (table.slots index).status)).set index
    { table.slots index with state := .unused }

/-- The caller waits for a child. -/
def blocked (table : ProcessTable) (pid : U64) : ProcessTable :=
  table.set table.current { table.running with state := .waiting, waitingFor := pid.setWidth 32 }

/-- Some process waits for the current one. -/
def Awaited (table : ProcessTable) : Prop := ∃ index, (table.slots index).Awaits table.running

instance (table : ProcessTable) : Decidable table.Awaited :=
  inferInstanceAs (Decidable (∃ _, _))

/-- The current process ends; whoever waits for it gets the status. -/
def ended (table : ProcessTable) (status : U64) : ProcessTable :=
  { table with
    slots := fun index =>
      if index = table.current then
        { table.running with
          status := status, state := if table.Awaited then .unused else .exited }
      else if (table.slots index).Awaits table.running then
        { (table.slots index).reply status with state := .ready }
      else table.slots index }

end ProcessTable

/-- The steps of the table. -/
inductive TableStep : ProcessTable → Action → ProcessTable → Prop
  | quiet (table : ProcessTable) : TableStep table .quiet table
  | run (table : ProcessTable) (context : Context)
      : TableStep table (.run context)
          (table.set table.current
            { table.running with context := table.running.context.runTo context })
  | tick {table : ProcessTable} {next : TaskIndex} (chosen : table.nextReady = some next)
      : TableStep table .tick { table with current := next }
  | answered (table : ProcessTable) (value : U64) (files : Slots)
      : TableStep table .call (table.answered value files)
  | spawnRefused (table : ProcessTable) (number value : U64)
      (refused
        : spawnable table.running.program number = none
          ∨ ∀ index, (table.slots index).state ≠ .unused)
      : TableStep table (.spawn number) (table.answered value table.running.files)
  | spawnFailed {table : ProcessTable} (number : U64) {index : TaskIndex}
      (free : (table.slots index).state = .unused) {process : Process}
      (unused : process.state = .unused)
      : TableStep table (.spawn number)
          { (table.answered (-5) table.running.files).set index process with
            nextPid := table.nextPid + 1 }
  | spawned {table : ProcessTable} {number : U64} {index : TaskIndex} {program : Program}
      (free : (table.slots index).state = .unused)
      (permitted : spawnable table.running.program number = some program)
      : TableStep table (.spawn number)
          { (table.answered (wide table.nextPid) table.running.files).set index
              (.fresh table.nextPid program table.running.id) with
            nextPid := table.nextPid + 1 }
  | waitRefused {table : ProcessTable} {pid : U64} (none : table.child pid = none)
      : TableStep table (.wait pid) (table.answered (-3) table.running.files)
  | collected {table : ProcessTable} {pid : U64} {index : TaskIndex}
      (found : table.child pid = some index) (exited : (table.slots index).state = .exited)
      : TableStep table (.wait pid) (table.collected index)
  | blocked {table : ProcessTable} {pid : U64} {index next : TaskIndex}
      (found : table.child pid = some index) (living : (table.slots index).state ≠ .exited)
      (chosen : (table.blocked pid).nextReady = some next)
      : TableStep table (.wait pid) { table.blocked pid with current := next }
  | ended {table : ProcessTable} {status : U64} {next : TaskIndex}
      (mortal : table.running.program ≠ .init ∧ table.running.program ≠ .shell)
      (chosen : (table.ended status).nextReady = some next)
      : TableStep table (.terminate status) { table.ended status with current := next }

-----------------------------------------------------------------------------------------
-- The table of a laboratory
-----------------------------------------------------------------------------------------

def Task.process (task : Task) : Process where
  id := task.id
  parent := task.parent
  program := task.program
  state := task.state
  waitingFor := task.waitingFor
  status := task.status
  files := task.files
  context := task.context

/-- The table inside the kernel, where every context is saved. -/
def Lab.table (lab : Lab) : ProcessTable where
  slots index := (lab.tasks index).process
  current := lab.current
  nextPid := lab.nextPid

/-- The table while user code runs, with the context of the processor. -/
def Lab.userTable (lab : Lab) : ProcessTable :=
  lab.table.set lab.current { (lab.tasks lab.current).process with context := lab.cpu }

/-- What an event asks of the kernel. -/
def Lab.action (lab : Lab) : LabEvent → Action
  | .run context => .run context
  | .interrupt vector _ _ _ =>
      if vector.val = 128 then
        match Syscall.ofNumber (lab.cpu.general .rax) with
        | some .wait => .wait (lab.cpu.general .rdi)
        | some .exit => .terminate (lab.cpu.general .rdi)
        | some .spawn => .spawn (lab.cpu.general .rdi)
        | _ => .call
      else if vector.val ∈ [0, 6, 13, 14] then .terminate (128 + BitVec.ofNat 64 vector.val)
      else .tick
  | _ => .quiet

@[simp] theorem Lab.table_withTask (lab : Lab) (index : TaskIndex) (update : Task → Task)
    : (lab.withTask index update).table = lab.table.set index (update (lab.tasks index)).process := by
  unfold Lab.table Lab.withTask ProcessTable.set
  congr 1
  funext other
  exact Function.apply_update (fun _ => Task.process) lab.tasks index _ other

theorem ProcessTable.set_self (table : ProcessTable) (index : TaskIndex)
    : table.set index (table.slots index) = table := by
  rw [ProcessTable.set, Function.update_eq_self]

theorem ProcessTable.set_set (table : ProcessTable) (index : TaskIndex)
    (process process' : Process)
    : (table.set index process).set index process' = table.set index process' := by
  rw [ProcessTable.set, ProcessTable.set, Function.update_idem]
  rfl

/-- Entering the kernel shows it the table of user mode. -/
theorem Lab.entered_table (lab : Lab) (vector : Fin 256) (error : U64) (scratch : Stack)
    : (lab.entered vector error scratch).table = lab.userTable := by
  have context := lab.entered_context vector error scratch
  unfold Lab.entered at context ⊢
  rw [Lab.withTask_self] at context
  rw [Lab.table_withTask, Lab.userTable]
  congr 1
  unfold Task.process
  rw [context]

/-- Leaving the kernel shows user mode the table of the kernel. -/
theorem Lab.left_table (lab : Lab)
    : ({ lab with cpu := (lab.tasks lab.current).context } : Lab).userTable = lab.table := by
  rw [Lab.userTable]
  exact lab.table.set_self lab.current

end MiniLinux
