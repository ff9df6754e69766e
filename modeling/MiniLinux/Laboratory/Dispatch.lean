import MiniLinux.Laboratory.Calls

/-! `syscall_dispatch` and `interrupt_dispatch` as steps of the laboratory.
A run of the kernel is one of a few shapes, each with its state written out; all of them keep
the slots in order and are steps of the process table.
-/

namespace MiniLinux

open Foundation Foundation.Halting

namespace InKernel

variable {image : List Byte} {lab : Lab}

theorem stored (kernel : InKernel image lab) (address : U64) (bytes : List Byte)
    : InKernel image (lab.stored address bytes) := by
  obtain ⟨consistent, written⟩ := kernel.toConsistent.userStores kernel.toSelected address bytes
  exact ⟨consistent, kernel.toSelected.userStore written, kernel.others, kernel.saved⟩

theorem received (kernel : InKernel image lab) (received : List Byte)
    : InKernel image { lab with received := received } :=
  ⟨kernel.toConsistent.slots rfl fun _ => .refl _, ⟨kernel.ready, kernel.root, kernel.rsp0⟩,
    kernel.others, kernel.saved⟩

/-- Work of the current task on its own fields, which keeps its frames and saved context. -/
theorem ownWork (kernel : InKernel image lab) {update : Task → Task}
    (same : lab.taskCurrent.SameHoldings (update lab.taskCurrent))
    (state : (update lab.taskCurrent).state = lab.taskCurrent.state)
    (alive : (update lab.taskCurrent).alive = lab.taskCurrent.alive)
    (stack : (update lab.taskCurrent).stack = lab.taskCurrent.stack)
    (valid : ∀ descriptor, ((update lab.taskCurrent).files descriptor).Valid)
    : InKernel image (lab.withTask lab.current update) := by
  have states (index : TaskIndex)
      : ((lab.withTask lab.current update).tasks index).state = (lab.tasks index).state :=
    Lab.withTask_forall (fun _ task task' => task'.state = task.state) _ state (fun _ _ => rfl) index
  have live : (lab.withTask lab.current update).live = lab.live := by
    funext index
    rw [Lab.live, Lab.live, Task.Live, Task.Live, states]
  have holdings (index : TaskIndex)
      : (lab.tasks index).SameHoldings ((lab.withTask lab.current update).tasks index) :=
    Lab.withTask_forall (fun _ task task' => task.SameHoldings task') _ same (fun _ _ => .refl _)
      index
  refine ⟨⟨kernel.sized, ?_, ?_, ?_⟩, ⟨?_, ?_, kernel.rsp0⟩, ?_, ?_⟩
  · rw [live]
    exact kernel.partition.tasks rfl holdings
  · exact Lab.withTask_forall (fun _ _ task' => ∀ descriptor, (task'.files descriptor).Valid) _ valid
      fun other _ => kernel.descriptors other
  · intro index alive'
    rw [Task.Live, states] at alive'
    have kept : ((lab.withTask lab.current update).tasks index).alive = (lab.tasks index).alive :=
      Lab.withTask_forall (fun _ task task' => task'.alive = task.alive) _ alive (fun _ _ => rfl)
        index
    rw [kept]
    exact kernel.alive index alive'
  · exact (states lab.current).trans kernel.ready
  · exact kernel.root.trans (congrArg AddressSpace.root (holdings lab.current).privateSpace.symm)
  · intro index live' different
    have kept : (lab.withTask lab.current update).tasks index = lab.tasks index :=
      Lab.withTask_other lab different _
    rw [kept] at live' ⊢
    exact kernel.others index live' different
  · change ((lab.withTask lab.current update).tasks lab.current).context.User
    rw [Lab.withTask_self, Task.context]
    exact (congrArg (frameContext · _) stack) ▸ kernel.saved

theorem withFiles (kernel : InKernel image lab) {slots : Slots}
    (valid : ∀ descriptor, (slots descriptor).Valid)
    : InKernel image (lab.withFiles slots) :=
  kernel.ownWork ⟨rfl, rfl, rfl, rfl⟩ rfl rfl rfl valid

end InKernel

-----------------------------------------------------------------------------------------
-- Calls that return at once
-----------------------------------------------------------------------------------------

section Calls

variable {image : List Byte} {lab lab' : Lab} {arguments : Arguments} {call : Option Syscall}
  {value : U64}

@[simp] theorem Lab.stored_table (lab : Lab) (address : U64) (bytes : List Byte)
    : (lab.stored address bytes).table = lab.table :=
  rfl

@[simp] theorem Lab.stored_taskCurrent (lab : Lab) (address : U64) (bytes : List Byte)
    : (lab.stored address bytes).taskCurrent = lab.taskCurrent :=
  rfl

@[simp] theorem Lab.traced_table (lab : Lab) (records : List TraceRecord)
    : (lab.traced records).table = lab.table :=
  rfl

@[simp] theorem Lab.traced_taskCurrent (lab : Lab) (records : List TraceRecord)
    : (lab.traced records).taskCurrent = lab.taskCurrent :=
  rfl

/-- A call leaves every process as it was, but for the descriptors of the caller. -/
theorem Called.table (called : Called image lab arguments call value lab')
    : lab'.table
      = lab.table.set lab.current { lab.table.running with files := lab'.taskCurrent.files } := by
  have unchanged : lab.table
      = lab.table.set lab.current { lab.table.running with files := lab.taskCurrent.files } :=
    (lab.table.set_self lab.current).symm
  have changed (lab : Lab) (slots : Slots)
      : (lab.withFiles slots).table
        = lab.table.set lab.current
            { lab.table.running with files := (lab.withFiles slots).taskCurrent.files } := by
    have files : (lab.withFiles slots).taskCurrent.files = slots :=
      congrArg Task.files (Lab.withTask_self ..)
    rw [files, Lab.withFiles, Lab.table_withTask]
    rfl
  cases called with
  | taskId | program | ticks | unknown | report | refused | noInput | noProcess | noFile =>
      exact unchanged
  | write length accepted => exact unchanged
  | opened length accepted => exact changed lab _
  | read accepted found length => exact changed (lab.stored _ _) _
  | close => exact changed lab _
  | input accepted waiting =>
      rw [Lab.stored_table, Lab.stored_taskCurrent]
      exact unchanged
  | process | file | memory =>
      rw [Lab.stored_table, Lab.stored_taskCurrent]
      exact unchanged
  | inspect =>
      rw [Lab.traced_table, Lab.traced_taskCurrent]
      exact unchanged

theorem Called.current (called : Called image lab arguments call value lab')
    : lab'.current = lab.current :=
  congrArg ProcessTable.current called.table

theorem Called.kernel (kernel : InKernel image lab)
    (called : Called image lab arguments call value lab')
    : InKernel image lab' := by
  have valid := kernel.descriptors lab.current
  cases called with
  | taskId | program | ticks | unknown | report | refused | noInput | noProcess | noFile =>
      exact kernel
  | write length accepted => exact kernel.console _
  | opened length accepted => exact kernel.withFiles (ramfsOpen_valid valid _)
  | read accepted found length =>
      obtain ⟨_, _, _, found', _, valid'⟩ := ramfsRead_valid valid arguments.rdi arguments.rdx
      cases found.symm.trans found'
      exact (kernel.stored _ _).withFiles valid'
  | close => exact kernel.withFiles (ramfsClose_valid valid _)
  | input accepted waiting => exact (kernel.received _).stored _ _
  | process | file | memory => exact kernel.stored _ _
  | inspect => exact kernel.traced _

end Calls

namespace Lab

/-- The record of a call, if it is traced. -/
def callRecords (lab : Lab) (id : U32) (number : U64) (arguments : Arguments) (value : U64)
    : List TraceRecord :=
  if untraced (Syscall.ofNumber number) arguments value then []
  else
    [⟨"syscall", lab.ticks,
      [.number (wide id), .number number, .hex arguments.rdi, .hex arguments.rsi,
        .hex arguments.rdx, resultField value, .number 3]⟩]

/-- The state in which a call returns to the current task. -/
def finished (lab : Lab) (id : U32) (number : U64) (arguments : Arguments) (value : U64) : Lab :=
  (lab.traced (lab.callRecords id number arguments value)).withTask lab.current fun task =>
    task.replied value

end Lab

theorem finishSyscall_ok (lab : Lab) (id : U32) (number : U64) (arguments : Arguments)
    (value : U64)
    : finishSyscall (savedAt lab.current) id number arguments value lab
      = .ok (some (savedAt lab.current), lab.finished id number arguments value) := by
  unfold finishSyscall Lab.finished Lab.callRecords
  dsimp only
  rw [branch_apply]
  split
  · rw [Lab.traced_nil]
    rfl
  · rfl

theorem Lab.finished_table (lab : Lab) (id : U32) (number : U64) (arguments : Arguments)
    (value : U64)
    : (lab.finished id number arguments value).table
      = lab.table.set lab.current (lab.table.running.reply value) := by
  rw [Lab.finished, Lab.table_withTask, Task.replied_process]
  rfl

theorem InKernel.finished {image : List Byte} {lab : Lab} (kernel : InKernel image lab) (id : U32)
    (number : U64) (arguments : Arguments) (value : U64)
    : InKernel image (lab.finished id number arguments value) :=
  (kernel.traced _).replied value

/-- A call that is served at once is an answer of the table. -/
theorem Called.answered {image : List Byte} {lab lab' : Lab} {arguments : Arguments}
    {call : Option Syscall} {value : U64} (called : Called image lab arguments call value lab')
    (id : U32) (number : U64)
    : TableStep lab.table .call (lab'.finished id number arguments value).table := by
  have table : (lab'.finished id number arguments value).table
      = lab.table.answered value lab'.taskCurrent.files := by
    rw [Lab.finished_table, called.current, ProcessTable.running, called.table]
    unfold ProcessTable.answered ProcessTable.set
    dsimp only
    have current : lab.current = lab.table.current := rfl
    rw [current, Function.update_self, Function.update_idem]
  rw [table]
  exact .answered _ _ _

-----------------------------------------------------------------------------------------
-- Spawning
-----------------------------------------------------------------------------------------

/-- What `SYS_SPAWN` does. -/
inductive SpawnCall (image : List Byte) (lab : Lab) (number : U64) : U64 → Lab → Prop
  | forbidden (refused : spawnable lab.taskCurrent.program number = none)
      : SpawnCall image lab number (-3) lab
  | full {program : Program} (permitted : spawnable lab.taskCurrent.program number = some program)
      (full : lab.freeTask = none)
      : SpawnCall image lab number (-5) lab
  | failed {program : Program} {index : TaskIndex} {lab' : Lab}
      (permitted : spawnable lab.taskCurrent.program number = some program)
      (free : lab.freeTask = some index) (failed : SpawnFailed image index lab lab')
      : SpawnCall image lab number (-5) lab'
  | spawned {program : Program} {index : TaskIndex} {lab' : Lab}
      (permitted : spawnable lab.taskCurrent.program number = some program)
      (free : lab.freeTask = some index)
      (spawned : Spawned image program lab.taskCurrent.id index lab lab')
      : SpawnCall image lab number (wide lab.nextPid) lab'

theorem Lab.freeTask_unused {lab : Lab} {index : TaskIndex} (free : lab.freeTask = some index)
    : (lab.tasks index).state = .unused := by
  have holds := List.find?_some free
  exact of_decide_eq_true holds

theorem Lab.freeTask_none {lab : Lab} (full : lab.freeTask = none) (index : TaskIndex)
    : (lab.tasks index).state ≠ .unused := by
  have refused := List.find?_eq_none.mp full index (List.mem_finRange index)
  exact of_decide_eq_false (eq_false_of_ne_true refused)

namespace InKernel

variable {image : List Byte} {lab : Lab}

/-- The active root is a table that is out. -/
theorem active (kernel : InKernel image lab)
    : ¬lab.machine.IsFree (frameOf lab.machine.currentRoot.toNat) := by
  obtain ⟨formed, root⟩ := kernel.toConsistent.current kernel.toSelected
  intro free
  have table := kernel.partition.table_outstanding formed.tree.rootOwned
  rw [root] at free
  exact free.not_allocated table.2

theorem sysSpawn_spec (kernel : InKernel image lab) (arguments : Arguments)
    : ∃ value lab',
        sysSpawn image arguments lab = .ok (value, lab')
        ∧ SpawnCall image lab arguments.rdi value lab' := by
  unfold sysSpawn
  rw [bind_get_apply]
  cases permitted : spawnable lab.taskCurrent.program arguments.rdi with
  | none => exact ⟨_, _, rfl, .forbidden permitted⟩
  | some program =>
      dsimp only
      unfold spawn
      rw [bind_get_apply]
      cases free : lab.freeTask with
      | none => exact ⟨_, _, rfl, .full permitted free⟩
      | some index =>
          rcases spawnAt_spec kernel.partition kernel.sized kernel.active index program
              lab.taskCurrent.id with ⟨lab', served, spawned⟩ | ⟨lab', served, failed⟩
          · exact ⟨_, _, served, .spawned permitted free spawned⟩
          · exact ⟨_, _, served, .failed permitted free failed⟩

/-- One slot besides the current one was replaced. -/
theorem replace {lab' : Lab} (kernel : InKernel image lab) {index : TaskIndex}
    (others : ∀ other, other ≠ index → lab'.tasks other = lab.tasks other)
    (apart : index ≠ lab.current) (current : lab'.current = lab.current)
    (rsp0 : lab'.rsp0 = lab.rsp0) (record : lab.machine.SameRecord lab'.machine)
    (partition : Partition image lab'.live lab')
    (valid : ∀ descriptor, ((lab'.tasks index).files descriptor).Valid)
    (suspended
      : (lab'.tasks index).Live
        → (lab'.tasks index).alive = true ∧ (lab'.tasks index).Suspended index)
    : InKernel image lab' := by
  have running : lab'.tasks lab'.current = lab.tasks lab.current := by
    rw [current]
    exact others lab.current (Ne.symm apart)
  refine ⟨⟨kernel.sized, partition, ?_, ?_⟩, ⟨?_, ?_, ?_⟩, ?_, ?_⟩
  · intro slot
    rcases eq_or_ne slot index with same | different
    · exact same ▸ valid
    · rw [others slot different]
      exact kernel.descriptors slot
  · intro slot live
    rcases eq_or_ne slot index with same | different
    · subst same
      exact (suspended live).1
    · rw [others slot different] at live ⊢
      exact kernel.alive slot live
  · rw [running]
    exact kernel.ready
  · rw [running, Machine.currentRoot, record.cr3]
    exact kernel.root
  · rw [rsp0, current]
    exact kernel.rsp0
  · intro slot live different
    rcases eq_or_ne slot index with same | away
    · subst same
      exact (suspended live).2
    · rw [others slot away] at live ⊢
      exact kernel.others slot live (current ▸ different)
  · rw [running]
    exact kernel.saved

end InKernel

section Spawn

variable {image : List Byte} {lab lab' : Lab} {program : Program} {parent : U32}
  {index : TaskIndex}

theorem InKernel.unused_apart (kernel : InKernel image lab)
    (free : (lab.tasks index).state = .unused)
    : index ≠ lab.current ∧ ¬lab.live index := by
  constructor
  · intro same
    rw [same, kernel.ready] at free
    cases free
  · intro live
    rw [Lab.live, Task.Live, free] at live
    rcases live with impossible | impossible
    · cases impossible
    · cases impossible

/-- The failed spawn leaves the slot empty and the frames as they were. -/
theorem SpawnFailed.kernel (failed : SpawnFailed image index lab lab')
    (kernel : InKernel image lab) (free : (lab.tasks index).state = .unused)
    : InKernel image lab' := by
  obtain ⟨apart, dead⟩ := kernel.unused_apart free
  obtain ⟨machine, shape⟩ := failed.confined
  have restored := failed.restored
  have here : lab'.tasks index = Task.zero := by
    rw [shape]
    exact Function.update_self ..
  have others (other : TaskIndex) (different : other ≠ index)
      : lab'.tasks other = lab.tasks other := by
    rw [shape]
    exact Function.update_of_ne different ..
  have gone : ¬(lab'.tasks index).Live := by
    rw [here]
    simp [Task.Live, Task.zero]
  have live : lab'.live = lab.live := by
    funext other
    rcases eq_or_ne other index with same | different
    · subst same
      exact propext (iff_of_false gone dead)
    · rw [Lab.live, others other different, Lab.live]
  have partition : Partition image lab.live lab' := by
    refine kernel.partition.rework ?_ ?_ (restored.ready kernel.partition.ready)
      restored.outstanding ?_
    · intro other owns
      rw [others other fun same => dead (same ▸ owns)]
      exact .refl _
    · intro other idle
      rcases eq_or_ne other index with same | different
      · rw [same, here]
        exact ⟨rfl, rfl⟩
      · rw [others other different]
        exact kernel.partition.empty other idle
    · intro other table member slot inside
      rw [restored.entry kernel.partition.ready (kernel.partition.table_outstanding member) inside]
      exact .refl _
  refine kernel.replace others apart ?_ ?_ restored.record (live ▸ partition) ?_
    fun alive => absurd alive gone
  · rw [shape]
  · rw [shape]
  · intro descriptor
    rw [here]
    exact fun impossible => absurd impossible (by simp [Task.zero, Slots.zero])

theorem SpawnFailed.table (failed : SpawnFailed image index lab lab')
    : lab'.table
      = { lab.table.set index Task.zero.process with nextPid := lab.table.nextPid + 1 } := by
  obtain ⟨machine, shape⟩ := failed.confined
  rw [shape]
  unfold Lab.table ProcessTable.set
  congr 1
  funext other
  exact Function.apply_update (fun _ => Task.process) lab.tasks index _ other

/-- The new task is formed and suspended at its first frame. -/
theorem Spawned.kernel (spawned : Spawned image program parent index lab lab')
    (kernel : InKernel image lab) (free : (lab.tasks index).state = .unused)
    : InKernel image lab' := by
  obtain ⟨apart, dead⟩ := kernel.unused_apart free
  obtain ⟨machine, task, shape⟩ := spawned.confined
  obtain ⟨privateSpace, pages, dataPage, here⟩ := spawned.task
  have others (other : TaskIndex) (different : other ≠ index)
      : lab'.tasks other = lab.tasks other := by
    rw [shape]
    exact Function.update_of_ne different ..
  have born : (lab'.tasks index).Live := by
    rw [here]
    exact Or.inl rfl
  have live : lab'.live = fun other => other = index ∨ lab.live other := by
    funext other
    rcases eq_or_ne other index with same | different
    · subst same
      exact propext (iff_of_true born (Or.inl rfl))
    · rw [Lab.live, others other different]
      exact propext (or_iff_right different).symm
  have partition : Partition image (fun other => other = index ∨ lab.live other) lab' :=
    kernel.partition.grant dead spawned.takes
      (fun other different => (others other different).symm ▸ .refl _) spawned.formed
  refine kernel.replace others apart ?_ ?_ spawned.takes.record (live ▸ partition) ?_ ?_
  · rw [shape]
    rfl
  · rw [shape]
    rfl
  · intro descriptor
    rw [here]
    exact fun impossible => absurd impossible (by simp [Task.named, Task.zero, Slots.zero])
  · intro _
    rw [here]
    refine ⟨rfl, rfl, ?_⟩
    rw [Task.context]
    exact (writeInitialFrame_context _ _).symm ▸ initialContext_user

theorem Spawned.table (spawned : Spawned image program parent index lab lab')
    : lab'.table
      = { lab.table.set index (.fresh lab.table.nextPid program parent) with
          nextPid := lab.table.nextPid + 1 } := by
  obtain ⟨machine, task, shape⟩ := spawned.confined
  obtain ⟨privateSpace, pages, dataPage, here⟩ := spawned.task
  have fresh : (lab'.tasks index).process = .fresh lab.nextPid program parent := by
    rw [here]
    unfold Task.process Process.fresh Task.context
    rw [writeInitialFrame_context]
    rfl
  have same : lab'.tasks index = task := by
    rw [shape]
    exact Function.update_self index task lab.tasks
  rw [same] at fresh
  rw [shape]
  change ProcessTable.mk (fun other => (Function.update lab.tasks index task other).process)
    lab.current (lab.nextPid + 1) = _
  unfold ProcessTable.set
  congr 1
  funext other
  rw [Function.apply_update (fun _ => Task.process) lab.tasks index task other, fresh]
  rfl

end Spawn

section SpawnCall

variable {image : List Byte} {lab lab' : Lab} {number value : U64}

theorem SpawnCall.kernel (called : SpawnCall image lab number value lab')
    (kernel : InKernel image lab)
    : InKernel image lab' := by
  cases called with
  | forbidden refused => exact kernel
  | full permitted full => exact kernel
  | failed permitted free failed => exact failed.kernel kernel (Lab.freeTask_unused free)
  | spawned permitted free spawned => exact spawned.kernel kernel (Lab.freeTask_unused free)

theorem SpawnCall.current (called : SpawnCall image lab number value lab')
    : lab'.current = lab.current := by
  cases called with
  | forbidden refused => rfl
  | full permitted full => rfl
  | failed permitted free failed => exact congrArg ProcessTable.current failed.table
  | spawned permitted free spawned => exact congrArg ProcessTable.current spawned.table

/-- Answering the caller and filling another slot commute. -/
theorem Lab.finished_beside {lab lab' : Lab} {index : TaskIndex} {process : Process} {nextPid : U32}
    (apart : index ≠ lab.current)
    (table : lab'.table = { lab.table.set index process with nextPid := nextPid })
    (id : U32) (number : U64) (arguments : Arguments) (value : U64)
    : (lab'.finished id number arguments value).table
      = { (lab.table.answered value lab.table.running.files).set index process with
          nextPid := nextPid } := by
  have current : lab'.current = lab.current := congrArg ProcessTable.current table
  have running : lab'.table.running = lab.table.running := by
    rw [table]
    exact Function.update_of_ne (Ne.symm apart) ..
  rw [Lab.finished_table, running, current, table]
  unfold ProcessTable.answered ProcessTable.set
  dsimp only
  congr 1
  exact Function.update_comm apart _ _ _

/-- A spawn is a step of the table. -/
theorem SpawnCall.answered (called : SpawnCall image lab number value lab')
    (kernel : InKernel image lab) (id : U32) (call : U64) (arguments : Arguments)
    : TableStep lab.table (.spawn number) (lab'.finished id call arguments value).table := by
  have refused (value : U64)
      : (lab.finished id call arguments value).table
        = lab.table.answered value lab.table.running.files :=
    lab.finished_table id call arguments value
  cases called with
  | forbidden forbidden =>
      rw [refused]
      exact .spawnRefused _ _ _ (Or.inl forbidden)
  | full permitted full =>
      rw [refused]
      exact .spawnRefused _ _ _ (Or.inr fun index => Lab.freeTask_none full index)
  | failed permitted free failed =>
      have unused := Lab.freeTask_unused free
      have apart := (kernel.unused_apart unused).1
      rw [Lab.finished_beside apart failed.table]
      exact .spawnFailed number unused rfl
  | spawned permitted free spawned =>
      have unused := Lab.freeTask_unused free
      have apart := (kernel.unused_apart unused).1
      rw [Lab.finished_beside apart spawned.table]
      exact .spawned unused permitted

end SpawnCall

-----------------------------------------------------------------------------------------
-- Dispatching
-----------------------------------------------------------------------------------------

namespace Lab

/-- The arguments in the saved frame of the current task. -/
def savedArguments (lab : Lab) : Arguments :=
  ⟨lab.savedField (.general .rdi), lab.savedField (.general .rsi), lab.savedField (.general .rdx)⟩

/-- The number of the call in the saved frame. -/
def savedNumber (lab : Lab) : U64 := lab.savedField (.general .rax)

/-- What an entry asks of the kernel. -/
def request (lab : Lab) (vector : Nat) : Action :=
  if vector = 128 then
    match Syscall.ofNumber lab.savedNumber with
    | some .wait => .wait lab.savedArguments.rdi
    | some .exit => .terminate lab.savedArguments.rdi
    | some .spawn => .spawn lab.savedArguments.rdi
    | _ => .call
  else if vector ∈ [0, 6, 13, 14] then .terminate (128 + BitVec.ofNat 64 vector)
  else .tick

end Lab

/-- The ways through the kernel, from the entered state to the one that is left. -/
inductive KernelRun (image : List Byte) (vector : Nat) (lab : Lab) : Lab → Prop
  | tick {next : TaskIndex} (timer : vector = 32) : KernelRun image vector lab (lab.afterTick next)
  | fault {address : U64} {lab' : Lab} (exception : vector ∈ [0, 6, 13, 14])
      (departed : Departed (lab.faulted address) (128 + BitVec.ofNat 64 vector) lab')
      : KernelRun image vector lab lab'
  | exit {lab' : Lab} (call : vector = 128)
      (number : Syscall.ofNumber lab.savedNumber = some .exit)
      (departed : Departed lab lab.savedArguments.rdi lab')
      : KernelRun image vector lab lab'
  | wait {lab' : Lab} (call : vector = 128)
      (number : Syscall.ofNumber lab.savedNumber = some .wait)
      (waited : Waited lab lab.savedArguments.rdi lab')
      : KernelRun image vector lab lab'
  | spawn {value : U64} {lab' : Lab} (call : vector = 128)
      (number : Syscall.ofNumber lab.savedNumber = some .spawn)
      (spawned : SpawnCall image lab lab.savedArguments.rdi value lab')
      : KernelRun image vector lab
          (lab'.finished lab.taskCurrent.id lab.savedNumber lab.savedArguments value)
  | call {value : U64} {lab' : Lab} (call : vector = 128)
      (immediate : Syscall.Immediate (Syscall.ofNumber lab.savedNumber))
      (called
        : Called image lab lab.savedArguments (Syscall.ofNumber lab.savedNumber) value lab')
      : KernelRun image vector lab
          (lab'.finished lab.taskCurrent.id lab.savedNumber lab.savedArguments value)

/-- The ways in which the kernel stops. -/
inductive KernelHalt (vector : Nat) (lab : Lab) : Halt → Prop
  | exit {status : U64} {reason : Halt} (terminates : lab.request vector = .terminate status)
      (halted : ExitHalt lab status reason)
      : KernelHalt vector lab reason
  | wait {pid : U64} (waits : lab.request vector = .wait pid) {index : TaskIndex}
      (child : lab.table.child pid = some index)
      (living : (lab.table.slots index).state ≠ .exited)
      (idle : ∀ index, ((lab.table.blocked pid).slots index).state ≠ .ready)
      : KernelHalt vector lab (.panic "LAB has no runnable shell")
  | unexpected (unhandled : vector ∉ [0, 6, 13, 14, 32, 128])
      : KernelHalt vector lab (.panic "unexpected CPU exception")

/-- `interrupt_dispatch` on a frame of user mode, with the vector that it was entered for. -/
def dispatchVector (image : List Byte) (vector : Nat) (frame : StackPointer) (cr2 : U64)
    : LabM (Option StackPointer) :=
  if vector = 128 then syscallDispatch image frame
  else if vector ∈ [0, 6, 13, 14] then userFault frame (if vector = 14 then cr2 else 0)
  else if vector = 32 then taskTick frame
  else halt (.panic "unexpected CPU exception")

namespace InKernel

variable {image : List Byte} {lab : Lab}

theorem syscallDispatch_eq (kernel : InKernel image lab)
    : syscallDispatch image (savedAt lab.current) lab
      = (match Syscall.ofNumber lab.savedNumber with
        | some .wait => waitChild (savedAt lab.current) lab.savedArguments.rdi
        | some .exit => taskExit (savedAt lab.current) lab.savedArguments.rdi
        | call => do
            let result ← syscallResult image lab.savedArguments call
            finishSyscall (savedAt lab.current) lab.taskCurrent.id lab.savedNumber
              lab.savedArguments result : LabM (Option StackPointer)) lab := by
  have mode : ¬(0x23 : U64) ≠ 0x23 := fun different => different rfl
  unfold syscallDispatch
  rw [bind_ok kernel.saved_mode, if_neg mode]
  rfl

/-- All calls but two have a result for their caller. -/
theorem syscallDispatch_result (kernel : InKernel image lab)
    (notWait : Syscall.ofNumber lab.savedNumber ≠ some .wait)
    (notExit : Syscall.ofNumber lab.savedNumber ≠ some .exit)
    : syscallDispatch image (savedAt lab.current) lab
      = (do
          let result ← syscallResult image lab.savedArguments (Syscall.ofNumber lab.savedNumber)
          finishSyscall (savedAt lab.current) lab.taskCurrent.id lab.savedNumber
            lab.savedArguments result : LabM (Option StackPointer)) lab := by
  refine kernel.syscallDispatch_eq.trans (congrFun ?_ lab)
  split
  · next waits => exact absurd waits notWait
  · next exits => exact absurd exits notExit
  · rfl

/-- The calls, by what becomes of the caller. -/
theorem syscallDispatch_spec (kernel : InKernel image lab)
    : Outcome (syscallDispatch image (savedAt lab.current))
        (fun frame lab' =>
          Handled image (lab.request 128) lab frame lab' ∧ KernelRun image 128 lab lab')
        (KernelHalt 128 lab) lab := by
  have run := kernel.syscallDispatch_eq
  by_cases waits : Syscall.ofNumber lab.savedNumber = some .wait
  · have request : lab.request 128 = .wait lab.savedArguments.rdi := by
      rw [Lab.request, if_pos rfl, waits]
    rw [waits] at run
    rw [request]
    refine .of_eq run ((kernel.waitChild_spec lab.savedArguments.rdi).mono ?_ ?_)
    · intro frame lab' both
      exact ⟨both.1, .wait rfl waits both.2⟩
    · intro reason halted
      obtain ⟨rfl, ⟨index, child, living⟩, idle⟩ := halted
      exact .wait request child living idle
  by_cases exits : Syscall.ofNumber lab.savedNumber = some .exit
  · have request : lab.request 128 = .terminate lab.savedArguments.rdi := by
      rw [Lab.request, if_pos rfl, exits]
    rw [exits] at run
    rw [request]
    refine .of_eq run ((kernel.taskExit_spec lab.savedArguments.rdi).mono ?_ ?_)
    · intro frame lab' both
      exact ⟨both.1, .exit rfl exits both.2⟩
    · intro reason halted
      exact .exit request halted
  have served := kernel.syscallDispatch_result waits exits
  have finish {lab' : Lab} (current : lab'.current = lab.current) (value : U64)
      : finishSyscall (savedAt lab.current) lab.taskCurrent.id lab.savedNumber lab.savedArguments
          value lab'
        = .ok (some (savedAt lab'.current),
            lab'.finished lab.taskCurrent.id lab.savedNumber lab.savedArguments value) := by
    rw [← current]
    exact finishSyscall_ok ..
  by_cases spawns : Syscall.ofNumber lab.savedNumber = some .spawn
  · have request : lab.request 128 = .spawn lab.savedArguments.rdi := by
      rw [Lab.request, if_pos rfl, spawns]
    obtain ⟨value, lab', result, called⟩ := kernel.sysSpawn_spec lab.savedArguments
    rw [spawns] at served
    rw [request]
    refine .of_ok (served.trans ((bind_ok result _).trans (finish called.current value)))
      ⟨⟨rfl, (called.kernel kernel).finished .., ?_⟩, .spawn rfl spawns called⟩
    exact called.answered kernel ..
  · have request : lab.request 128 = .call := by
      rw [Lab.request, if_pos rfl]
      split
      · next named => exact absurd named waits
      · next named => exact absurd named exits
      · next named => exact absurd named spawns
      · rfl
    have immediate : Syscall.Immediate (Syscall.ofNumber lab.savedNumber) :=
      ⟨spawns, waits, exits⟩
    obtain ⟨value, lab', result, called⟩ :=
      @syscallResult_spec image lab lab.savedArguments kernel.toConsistent kernel.toSelected _
        immediate
    rw [request]
    refine .of_ok (served.trans ((bind_ok result _).trans (finish called.current value)))
      ⟨⟨rfl, (called.kernel kernel).finished .., ?_⟩, .call rfl immediate called⟩
    exact called.answered ..

/-- A dispatched entry either runs one of the ways through the kernel, or stops it. -/
theorem dispatch_spec (kernel : InKernel image lab) {vector : Nat}
    (number : vector ∈ [0, 6, 13, 14] → lab.savedField .vector = BitVec.ofNat 64 vector)
    (cr2 : U64)
    : Outcome (dispatchVector image vector (savedAt lab.current) cr2)
        (fun frame lab' =>
          Handled image (lab.request vector) lab frame lab' ∧ KernelRun image vector lab lab')
        (KernelHalt vector lab) lab := by
  unfold dispatchVector
  by_cases call : vector = 128
  · rw [if_pos call]
    subst call
    exact kernel.syscallDispatch_spec
  · rw [if_neg call]
    by_cases exception : vector ∈ [0, 6, 13, 14]
    · rw [if_pos exception]
      have request : lab.request vector = .terminate (128 + BitVec.ofNat 64 vector) := by
        rw [Lab.request, if_neg call, if_pos exception]
      have number := number exception
      rw [request, ← number]
      refine (kernel.userFault_spec _).mono ?_ ?_
      · intro frame lab' both
        obtain ⟨handled, departed⟩ := both
        exact ⟨handled, .fault exception (number ▸ departed)⟩
      · intro reason halted
        exact .exit (number ▸ request) halted
    · rw [if_neg exception]
      by_cases timer : vector = 32
      · rw [if_pos timer]
        have request : lab.request vector = .tick := by
          rw [Lab.request, if_neg call, if_neg exception]
        obtain ⟨next, ticked, kernel', step⟩ := kernel.taskTick_spec
        exact .of_ok ticked ⟨⟨rfl, kernel', request ▸ step⟩, .tick timer⟩
      · rw [if_neg timer]
        refine .of_error rfl (.unexpected ?_)
        simp only [List.mem_cons, List.not_mem_nil, or_false, not_or] at exception ⊢
        exact ⟨exception.1, exception.2.1, exception.2.2.1, exception.2.2.2, timer, call⟩

end InKernel

end MiniLinux
