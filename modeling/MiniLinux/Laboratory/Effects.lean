import MiniLinux.Laboratory.Runs

/-! What one event changes in the memory that programs see.
A kernel run writes the bytes that the current call hands out, and no other byte of any page; a
task that does not run keeps its frames, its map and its bytes.
-/

namespace MiniLinux

open Foundation Foundation.Halting

/-- The bytes that a call hands out with a result: their address and their number. -/
def callOutput (arguments : Arguments) (result : U64) : Option Syscall → U64 × Nat
  | some .read => (arguments.rsi, if result.msb then 0 else result.toNat)
  | some .input => (arguments.rdi, if result = 1 then 1 else 0)
  | some .process => (arguments.rsi, if result = 1 then processInfoSize.toNat else 0)
  | some .file => (arguments.rsi, if result = 1 then fileInfoSize else 0)
  | some .memory => (arguments.rdi, if result = 0 then memoryInfoSize.toNat else 0)
  | _ => (0, 0)

/-- What a successful read returns is the number of bytes, and a refused one has none. -/
theorem ramfsRead_output {slots slots' : Slots} (valid : ∀ descriptor, (slots descriptor).Valid)
    {fd length result : U64} {bytes : List Byte}
    (found : ramfsRead files slots fd length = some (result, bytes, slots'))
    (small : length.toNat ≤ copyLimit)
    : bytes.length = (if result.msb then 0 else result.toNat) := by
  obtain ⟨reply, slots'', called, right, _, _⟩ := fileCall_valid valid (.read fd length)
  obtain ⟨answer, found', same⟩ := Option.map_eq_some_iff.mp called
  cases found.symm.trans found'
  cases same
  obtain ⟨refused, closed, opened⟩ := right
  cases stream : (streamsOf slots).at fd with
  | none =>
      have result' : result = -3 := refused.mpr stream
      have bytes' : bytes = [] := closed stream
      rw [result', bytes']
      rfl
  | some stream' =>
      obtain ⟨count, _, length', _⟩ := opened stream' stream
      have bound : result.toNat ≤ length.toNat := count.trans_le (Nat.min_le_left _ _)
      have positive : result.msb = false := by
        rw [BitVec.msb_eq_false_iff_two_mul_lt]
        simp only [copyLimit] at small
        omega
      rw [positive]
      exact length'

theorem Task.info_length (task : Task) : task.info.length = processInfoSize.toNat := rfl

theorem PageInfo.bytes_length (info : PageInfo) : info.bytes.length = memoryInfoSize.toNat := rfl

@[simp] theorem Lab.stored_machine (lab : Lab) (address : U64) (bytes : List Byte)
    : (lab.stored address bytes).machine = lab.machine.userStores address bytes :=
  rfl

section Calls

variable {image : List Byte} {lab lab' : Lab} {arguments : Arguments} {call : Option Syscall}
  {result : U64}

theorem Lab.userRange_small {address length : U64} {writing : Bool}
    (accepted : lab.userRange address length writing = true)
    : length.toNat ≤ copyLimit := by
  unfold Lab.userRange Machine.userRange at accepted
  split at accepted
  · cases accepted
  · next bounds => exact not_lt.mp fun large => bounds (Or.inl large)

/-- A call writes what it hands out, to memory that the caller may write. -/
theorem Called.written (called : Called image lab arguments call result lab')
    (consistent : Consistent image lab.live lab) (selected : lab.Selected)
    : lab.machine.UserWritten (callOutput arguments result call).1
        (callOutput arguments result call).2 lab'.machine
      ∧ lab.machine.UserRange true (callOutput arguments result call).1
          (callOutput arguments result call).2 := by
  have nothing (address : U64) : lab.machine.UserWritten address 0 lab.machine
      ∧ lab.machine.UserRange true address 0 :=
    ⟨.refl _ _ _, fun _ impossible => absurd impossible (Nat.not_lt_zero _)⟩
  have handed (address : U64) {bytes : List Byte} {length : Nat} (same : bytes.length = length)
      (range : lab.machine.UserRange true address length)
      : lab.machine.UserWritten address length (lab.machine.userStores address bytes)
        ∧ lab.machine.UserRange true address length := by
    obtain ⟨_, written⟩ := consistent.userStores selected address bytes
    exact ⟨same ▸ written, range⟩
  cases called with
  | taskId | program | ticks | unknown | report | write | opened | close | inspect => exact nothing 0
  | noInput | noProcess | noFile => exact nothing _
  | @refused call address length writing buffer refuses =>
      cases call with
      | write | «open» => exact nothing 0
      | read | input | process | file | memory => exact nothing _
      | _ => cases buffer
  | read accepted found length =>
      have small := Lab.userRange_small accepted
      have same := ramfsRead_output (consistent.descriptors lab.current) found small
      have short : (callOutput arguments result (some .read)).2 ≤ arguments.rdx.toNat :=
        same.symm.trans_le length
      exact handed arguments.rsi same fun i inside =>
        consistent.userRange selected accepted i (inside.trans_le short)
  | @input byte rest accepted waiting =>
      have both := @handed arguments.rdi [byte] 1 rfl (consistent.userRange selected accepted)
      rw [callOutput, if_pos rfl, Lab.stored_machine]
      exact both
  | @process index accepted named used =>
      have both := @handed arguments.rsi (lab.tasks index).info _ (lab.tasks index).info_length
        (consistent.userRange selected accepted)
      rw [callOutput, if_pos rfl, Lab.stored_machine]
      exact both
  | @file bytes accepted found =>
      have both := @handed arguments.rsi bytes fileInfoSize (ramfsFile_length found)
        (consistent.userRange selected accepted)
      rw [callOutput, if_pos rfl, Lab.stored_machine]
      exact both
  | memory accepted =>
      have both := @handed arguments.rdi lab.machine.pageInfo.bytes _ (PageInfo.bytes_length _)
        (consistent.userRange selected accepted)
      rw [callOutput, if_pos rfl, Lab.stored_machine]
      exact both

end Calls

-----------------------------------------------------------------------------------------
-- Pages and frames
-----------------------------------------------------------------------------------------

/-- The byte lies in a page of the task in a slot. -/
def Lab.InPage (lab : Lab) (index : TaskIndex) (byte : Nat) : Prop :=
  ∃ page ∈ (lab.tasks index).pages, frameOf byte = frameOf page.toNat

/-- Tasks that stay live keep their frames, and of the bytes in pages only some have changed that
the running program may write.
-/
structure Lab.Effect (lab : Lab) (address : U64) (length : Nat) (lab' : Lab) : Prop where
  holdings
    : ∀ index,
        lab.live index → lab'.live index → (lab.tasks index).SameHoldings (lab'.tasks index)
  bytes
    : ∀ index byte,
        lab.InPage index byte
        → (∀ i < length, lab.machine.userPlace true address i ≠ some byte)
        → lab'.machine.memory byte = lab.machine.memory byte

section Effects

variable {image : List Byte} {lab lab' : Lab}

theorem Partition.inPage_allocated {owner : TaskIndex → Prop}
    (partition : Partition image owner lab) {index : TaskIndex} {byte : Nat}
    (inside : lab.InPage index byte)
    : lab.machine.IsAllocated (frameOf byte) := by
  obtain ⟨page, member, same⟩ := inside
  rw [same]
  exact (partition.page_outstanding member).2

/-- A byte lies in the pages of one task at most. -/
theorem Partition.inPage_unique {owner : TaskIndex → Prop} (partition : Partition image owner lab)
    {index other : TaskIndex} {byte : Nat} (inside : lab.InPage index byte)
    (inside' : lab.InPage other byte)
    : index = other := by
  obtain ⟨page, member, same⟩ := inside
  obtain ⟨page', member', same'⟩ := inside'
  have frame := partition.ready.frameAddress (partition.page_outstanding member)
  have frame' := partition.ready.frameAddress (partition.page_outstanding member')
  have equal : page = page' := frame.eq_of_frameOf frame' (same.symm.trans same')
  subst equal
  exact partition.divided.apart index other page (List.mem_append_right _ member)
    (List.mem_append_right _ member')

/-- Where no byte of a page has changed, there is no output. -/
theorem Lab.Effect.silent
    (holdings
      : ∀ index,
          lab.live index → lab'.live index → (lab.tasks index).SameHoldings (lab'.tasks index))
    (bytes : ∀ index byte, lab.InPage index byte → lab'.machine.memory byte = lab.machine.memory byte)
    (address : U64) (length : Nat)
    : lab.Effect address length lab' :=
  ⟨holdings, fun index byte inside _ => bytes index byte inside⟩

theorem Lab.Effect.congr {before after : Lab} {address : U64} {length : Nat}
    (effect : lab.Effect address length lab') (machine : before.machine = lab.machine)
    (tasks : ∀ index, (before.tasks index).SameSlot (lab.tasks index))
    (machine' : after.machine = lab'.machine)
    (tasks' : ∀ index, (lab'.tasks index).SameSlot (after.tasks index))
    : before.Effect address length after := by
  constructor
  · intro index live live'
    have here : lab.live index := (tasks index).live.mpr live
    have there : lab'.live index := (tasks' index).live.mp live'
    exact (tasks index).toSameHoldings.trans
      ((effect.holdings index here there).trans (tasks' index).toSameHoldings)
  · intro index byte inside apart
    rw [machine] at apart ⊢
    rw [machine']
    refine effect.bytes index byte ?_ apart
    rw [Lab.InPage, (tasks index).pages]
    exact inside

end Effects

-----------------------------------------------------------------------------------------
-- The ways through the kernel
-----------------------------------------------------------------------------------------

section Kernel

variable {image : List Byte} {lab lab' : Lab}

theorem Lab.selected_memory (lab : Lab) (next : TaskIndex)
    : (lab.selected next).machine.memory = lab.machine.memory :=
  lab.machine.rooted_memory _

theorem Lab.Effect.of_tasks (same : ∀ index, (lab.tasks index).SameHoldings (lab'.tasks index))
    (memory : lab'.machine.memory = lab.machine.memory) (address : U64) (length : Nat)
    : lab.Effect address length lab' :=
  .silent (fun index _ _ => same index) (fun _ byte _ => congrFun memory byte) address length

theorem Lab.afterTick_effect (lab : Lab) (next : TaskIndex) (address : U64) (length : Nat)
    : lab.Effect address length (lab.afterTick next) := by
  refine .of_tasks ?_ ?_ address length
  · exact Lab.ticked_forall (fun _ task task' => task.SameHoldings task') ⟨rfl, rfl, rfl, rfl⟩
      fun _ _ => .refl _
  · exact Lab.selected_memory _ next

theorem Lab.withTask_holdings (lab : Lab) (index : TaskIndex) (update : Task → Task)
    (same : (lab.tasks index).SameHoldings (update (lab.tasks index))) (other : TaskIndex)
    : (lab.tasks other).SameHoldings ((lab.withTask index update).tasks other) :=
  Lab.withTask_forall (fun _ task task' => task.SameHoldings task') update same
    (fun _ _ => .refl _) other

theorem Waited.effect {pid : U64} (waited : Waited lab pid lab') (address : U64) (length : Nat)
    : lab.Effect address length lab' := by
  cases waited with
  | refused none =>
      refine .of_tasks ?_ ?_ address length
      · exact (lab.asked pid).withTask_holdings lab.current (fun task => task.replied (-3))
          (Task.replied_same _ _).toSameHoldings
      · rfl
  | @collected index found exited =>
      let answered : Lab := (lab.asked pid).withTask lab.current fun task =>
        task.replied (lab.tasks index).status
      have first : ∀ slot, (lab.tasks slot).SameHoldings (answered.tasks slot) :=
        (lab.asked pid).withTask_holdings lab.current
          (fun task => task.replied (lab.tasks index).status)
          (Task.replied_same _ _).toSameHoldings
      have second := answered.withTask_holdings index (fun task => { task with state := .unused })
        ⟨rfl, rfl, rfl, rfl⟩
      refine .of_tasks ?_ ?_ address length
      · exact fun slot => (first slot).trans (second slot)
      · rfl
  | @blocked index next found living ready =>
      refine .of_tasks ?_ ?_ address length
      · exact (lab.asked pid).withTask_holdings lab.current
          (fun task =>
            { task with
              frame := some (savedAt lab.current), state := .waiting,
              waitingFor := pid.setWidth 32 })
          ⟨rfl, rfl, rfl, rfl⟩
      · exact Lab.selected_memory _ next

theorem Lab.departed_other (lab : Lab) (status : U64) (next : TaskIndex) (machine : Machine)
    {index : TaskIndex} (different : index ≠ lab.current)
    : (lab.departed status next machine).tasks index = (lab.departing status).tasks index := by
  change (lab.emptied status next machine).tasks index = _
  rw [Lab.emptied, Lab.withTask_other _ different]
  rfl

theorem Lab.departed_here (lab : Lab) (status : U64) (next : TaskIndex) (machine : Machine)
    : (lab.departed status next machine).tasks lab.current
      = { lab.taskCurrent.ended lab.current status with
          privateSpace := .zero, pages := [],
          state := if lab.table.Awaited then .unused else .exited } := by
  have ended : (lab.departing status).tasks lab.current
      = lab.taskCurrent.ended lab.current status := by
    rw [Lab.departing_tasks, if_pos rfl]
  change (lab.emptied status next machine).tasks lab.current = _
  rw [← ended, Lab.emptied, Lab.withTask_self]
  rfl

/-- Only the ended task gives its frames back, and no byte of them changes. -/
theorem Departed.effect {status : U64} (departed : Departed lab status lab')
    (kernel : InKernel image lab) (address : U64) (length : Nat)
    : lab.Effect address length lab' := by
  obtain ⟨_, next, machine, rfl, _, _, returns⟩ := departed
  refine .silent ?_ ?_ address length
  · intro index _ live'
    have different : index ≠ lab.current := by
      intro same
      rw [same, Lab.live, Lab.departed_here, Task.Live] at live'
      revert live'
      change (if _ then _ else _) = ProcessState.ready ∨ (if _ then _ else _) = _ → _
      split <;> simp
    rw [lab.departed_other status next machine different]
    exact Lab.departing_forall (fun _ task task' => task.SameHoldings task') ⟨rfl, rfl, rfl, rfl⟩
      (fun _ _ _ => ⟨rfl, rfl, rfl, rfl⟩) (fun _ _ => .refl _) index
  · intro index byte inside
    have before : ((lab.departing status).selected next).machine.memory = lab.machine.memory :=
      Lab.selected_memory _ next
    have allocated := kernel.partition.inPage_allocated inside
    have usable := kernel.partition.ready.toPagesWellFormed.not_metadata_of_allocated allocated
    have pages : ((lab.departing status).selected next).machine.pages = lab.machine.pages :=
      Machine.rooted_pages _ _
    rw [← before]
    refine returns.memory byte ?_
    unfold Machine.IsMetadata Machine.metadataFrame at usable ⊢
    rw [pages]
    exact usable

theorem SpawnFailed.effect {index : TaskIndex} (failed : SpawnFailed image index lab lab')
    (kernel : InKernel image lab) (address : U64) (length : Nat)
    : lab.Effect address length lab' := by
  obtain ⟨machine, shape⟩ := failed.confined
  have other {slot : TaskIndex} (different : slot ≠ index) : lab'.tasks slot = lab.tasks slot := by
    rw [shape]
    exact Function.update_of_ne different ..
  refine .silent ?_ ?_ address length
  · intro slot _ live'
    have different : slot ≠ index := by
      intro same
      have here : lab'.tasks index = Task.zero := by
        rw [shape]
        exact Function.update_self ..
      rw [same, Lab.live, here] at live'
      exact absurd live' (by simp [Task.Live, Task.zero])
    rw [other different]
    exact .refl _
  · intro slot byte inside
    exact failed.restored.memory_of_allocated kernel.partition.ready.toPagesWellFormed
      (kernel.partition.inPage_allocated inside)

theorem Spawned.effect {program : Program} {parent : U32} {index : TaskIndex}
    (spawned : Spawned image program parent index lab lab') (kernel : InKernel image lab)
    (free : (lab.tasks index).state = .unused) (address : U64) (length : Nat)
    : lab.Effect address length lab' := by
  obtain ⟨machine, task, shape⟩ := spawned.confined
  have dead := (kernel.unused_apart free).2
  have other {slot : TaskIndex} (different : slot ≠ index) : lab'.tasks slot = lab.tasks slot := by
    rw [shape]
    exact Function.update_of_ne different ..
  refine .silent ?_ ?_ address length
  · intro slot live _
    have different : slot ≠ index := fun same => dead (same ▸ live)
    rw [other different]
    exact .refl _
  · intro slot byte inside
    have allocated := kernel.partition.inPage_allocated inside
    refine spawned.takes.memory byte
      (kernel.partition.ready.toPagesWellFormed.not_metadata_of_allocated allocated) ?_
    intro taken
    obtain ⟨page, member, same⟩ := taken
    rw [List.append_nil] at member
    have free := (spawned.takes.free page member).2
    rw [same] at free
    exact free.not_allocated allocated

theorem SpawnCall.effect {number value : U64} (called : SpawnCall image lab number value lab')
    (kernel : InKernel image lab) (address : U64) (length : Nat)
    : lab.Effect address length lab' := by
  cases called with
  | forbidden refused => exact .of_tasks (fun _ => .refl _) rfl address length
  | full permitted full => exact .of_tasks (fun _ => .refl _) rfl address length
  | failed permitted free failed => exact failed.effect kernel address length
  | spawned permitted free spawned =>
      exact spawned.effect kernel (Lab.freeTask_unused free) address length

/-- The output of a kernel run, whose result is in `rax` of the caller. -/
def Lab.kernelOutput (lab : Lab) (vector : Nat) (lab' : Lab) : U64 × Nat :=
  if vector = 128 then
    callOutput lab.savedArguments (lab'.taskCurrent.context.general .rax)
      (Syscall.ofNumber lab.savedNumber)
  else (0, 0)

theorem Lab.finished_context (lab : Lab) (id : U32) (number : U64) (arguments : Arguments)
    (value : U64)
    : (lab.finished id number arguments value).taskCurrent.context
      = { lab.taskCurrent.context with
          general := Function.update lab.taskCurrent.context.general .rax value } := by
  have table := lab.finished_table id number arguments value
  have slot := congrArg (fun table : ProcessTable => (table.slots lab.current).context) table
  dsimp only [ProcessTable.set] at slot
  rw [Function.update_self] at slot
  exact slot

theorem Lab.finished_result (lab : Lab) (id : U32) (number : U64) (arguments : Arguments)
    (value : U64)
    : (lab.finished id number arguments value).taskCurrent.context.general .rax = value := by
  rw [Lab.finished_context]
  exact Function.update_self Register.rax value lab.taskCurrent.context.general

theorem Lab.finished_same (lab : Lab) (id : U32) (number : U64) (arguments : Arguments)
    (value : U64) (index : TaskIndex)
    : (lab.tasks index).SameSlot ((lab.finished id number arguments value).tasks index) := by
  have same := @Lab.withTask_forall (fun _ task task' => task.SameSlot task')
    (fun task => task.replied value) lab lab.current (Task.replied_same _ _) (fun _ _ => .refl _)
    index
  exact same

/-- A call works on descriptors and on nothing else of the slots. -/
theorem Called.holdings {arguments : Arguments} {call : Option Syscall} {value : U64}
    (called : Called image lab arguments call value lab') (index : TaskIndex)
    : (lab.tasks index).SameHoldings (lab'.tasks index) := by
  have files (lab : Lab) (slots : Slots)
      : (lab.tasks index).SameHoldings ((lab.withFiles slots).tasks index) :=
    lab.withTask_holdings lab.current (fun task => { task with files := slots })
      ⟨rfl, rfl, rfl, rfl⟩ index
  cases called with
  | opened length accepted => exact files lab _
  | read accepted found length => exact files (lab.stored _ _) _
  | close => exact files lab _
  | _ => exact .refl _

/-- A run of the kernel writes its output, to memory that the current task may write. -/
theorem KernelRun.effect {vector : Nat} (ran : KernelRun image vector lab lab')
    (kernel : InKernel image lab)
    : lab.Effect (lab.kernelOutput vector lab').1 (lab.kernelOutput vector lab').2 lab'
      ∧ lab.machine.UserRange true (lab.kernelOutput vector lab').1
          (lab.kernelOutput vector lab').2 := by
  have nothing {output : U64 × Nat} (none : output = (0, 0))
      : lab.machine.UserRange true output.1 output.2 := by
    rw [none]
    exact fun _ impossible => absurd impossible (Nat.not_lt_zero _)
  have call (number : vector = 128) {call : Syscall}
      (called : Syscall.ofNumber lab.savedNumber = some call)
      : lab.kernelOutput vector lab'
        = callOutput lab.savedArguments (lab'.taskCurrent.context.general .rax) (some call) := by
    rw [Lab.kernelOutput, if_pos number, called]
  cases ran with
  | @tick next timer =>
      exact ⟨lab.afterTick_effect next _ _, nothing (if_neg (by omega))⟩
  | fault exception departed =>
      have different : vector ≠ 128 := by
        intro same
        subst same
        simp at exception
      refine ⟨?_, nothing (if_neg different)⟩
      have effect := departed.effect (kernel.console _) (lab.kernelOutput vector lab').1
        (lab.kernelOutput vector lab').2
      exact effect.congr rfl (fun _ => .refl _) rfl fun _ => .refl _
  | exit number called departed =>
      exact ⟨departed.effect kernel _ _, nothing (call number called)⟩
  | wait number called waited =>
      exact ⟨waited.effect _ _, nothing (call number called)⟩
  | @spawn value served number called spawned =>
      have effect := spawned.effect kernel
      refine ⟨?_, nothing (call number called)⟩
      exact (effect _ _).congr rfl (fun _ => .refl _) rfl (served.finished_same _ _ _ _)
  | @call value served number immediate called =>
      obtain ⟨written, range⟩ := called.written kernel.toConsistent kernel.toSelected
      have output : lab.kernelOutput vector
            (served.finished lab.taskCurrent.id lab.savedNumber lab.savedArguments value)
          = callOutput lab.savedArguments value (Syscall.ofNumber lab.savedNumber) := by
        rw [Lab.kernelOutput, if_pos number, Lab.finished_result]
      rw [output]
      refine ⟨⟨?_, ?_⟩, range⟩
      · intro index _ _
        exact (called.holdings index).trans
          (served.finished_same _ _ _ _ index).toSameHoldings
      · intro index byte _ apart
        exact written.outside byte apart

end Kernel

-----------------------------------------------------------------------------------------
-- Events
-----------------------------------------------------------------------------------------

/-- The argument registers of the running program. -/
def Lab.arguments (lab : Lab) : Arguments :=
  ⟨lab.cpu.general .rdi, lab.cpu.general .rsi, lab.cpu.general .rdx⟩

/-- The bytes that an event writes: a store its byte, and a call what it hands out. -/
def Lab.output (lab : Lab) (event : LabEvent) (lab' : Lab) : U64 × Nat :=
  match event with
  | .store address _ => (address, 1)
  | .interrupt vector _ _ _ =>
      if vector.val = 128 then
        callOutput lab.arguments (lab'.cpu.general .rax) (Syscall.ofNumber (lab.cpu.general .rax))
      else (0, 0)
  | _ => (0, 0)

/-- The byte that the program in a slot reads at an address. -/
def Lab.reads (lab : Lab) (index : TaskIndex) (address : U64) : Option Byte :=
  (lab.machine.cpuAccess (lab.tasks index).privateSpace.root true false address).map
    lab.machine.memory

section Events

variable {image : List Byte} {lab lab' : Lab}

/-- The entered kernel knows the running process, but for its context. -/
theorem Lab.entered_running (lab : Lab) (vector : Fin 256) (error : U64) (scratch : Stack)
    : (lab.entered vector error scratch).taskCurrent.process
      = { lab.taskCurrent.process with context := lab.cpu } := by
  have slot := congrArg (fun table : ProcessTable => table.slots lab.current)
    (lab.entered_table vector error scratch)
  dsimp only [Lab.userTable, ProcessTable.set] at slot
  rw [Function.update_self] at slot
  exact slot

theorem Lab.entered_id (lab : Lab) (vector : Fin 256) (error : U64) (scratch : Stack)
    : (lab.entered vector error scratch).taskCurrent.id = lab.taskCurrent.id :=
  congrArg Process.id (lab.entered_running vector error scratch)

theorem Lab.entered_program (lab : Lab) (vector : Fin 256) (error : U64) (scratch : Stack)
    : (lab.entered vector error scratch).taskCurrent.program = lab.taskCurrent.program :=
  congrArg Process.program (lab.entered_running vector error scratch)

theorem Lab.entered_arguments (lab : Lab) (vector : Fin 256) (error : U64) (scratch : Stack)
    : (lab.entered vector error scratch).savedArguments = lab.arguments := by
  have field := lab.entered_savedField vector error scratch
  unfold Lab.savedArguments
  rw [field, field, field]
  rfl

theorem Lab.entered_output (lab : Lab) (vector : Fin 256) (error cr2 : U64) (scratch : Stack)
    (middle : Lab)
    : (lab.entered vector error scratch).kernelOutput vector.val middle
      = lab.output (.interrupt vector error cr2 scratch) middle.left := by
  have field := lab.entered_savedField vector error scratch
  have number : (lab.entered vector error scratch).savedNumber = lab.cpu.general .rax :=
    field (.general .rax)
  rw [Lab.kernelOutput, number, lab.entered_arguments]
  rfl

/-- An event writes its output, to memory that the running program may write. -/
theorem Stepped.effect {event : LabEvent} (stepped : Stepped image lab event lab')
    (user : InUser image lab)
    : lab.Effect (lab.output event lab').1 (lab.output event lab').2 lab' := by
  cases stepped with
  | run context => exact ⟨fun _ _ _ => .refl _, fun _ _ _ _ => rfl⟩
  | receive byte => exact ⟨fun _ _ _ => .refl _, fun _ _ _ _ => rfl⟩
  | store address byte =>
      obtain ⟨_, written⟩ := user.toConsistent.userStore user.toSelected address byte
      exact ⟨fun _ _ _ => .refl _, fun _ byte _ apart => written.outside byte apart⟩
  | mark address level bits =>
      obtain ⟨_, _, same⟩ := user.toConsistent.markEntry user.toSelected address level bits
      refine ⟨fun _ _ _ => .refl _, ?_⟩
      intro index byte inside _
      obtain ⟨page, member, frame⟩ := inside
      exact same index page member byte frame
  | @interrupt vector error cr2 scratch middle ran =>
      have effect := (ran.effect (user.entered vector error scratch)).1
      rw [lab.entered_output vector error cr2 scratch middle] at effect
      exact effect.congr rfl (lab.entered_same vector error scratch) rfl fun _ => .refl _

theorem Stepped.output_range {vector : Fin 256} {error cr2 : U64} {scratch : Stack}
    (stepped : Stepped image lab (.interrupt vector error cr2 scratch) lab')
    (user : InUser image lab)
    : lab.machine.UserRange true (lab.output (.interrupt vector error cr2 scratch) lab').1
        (lab.output (.interrupt vector error cr2 scratch) lab').2 := by
  cases stepped with
  | @interrupt _ _ _ _ middle ran =>
      have range := (ran.effect (user.entered vector error scratch)).2
      rw [lab.entered_output vector error cr2 scratch middle] at range
      exact range

/-- What a program reads is in the pages of the layout. -/
theorem Partition.reads_eq {owner : TaskIndex → Prop} (partition : Partition image owner lab)
    (sized : Sized image) {index : TaskIndex} (owns : owner index) (address : U64)
    : lab.reads index address
      = (layoutMap image (lab.tasks index).pages (address.toNat / pageSize)).map fun mapped =>
          lab.machine.memory (pageByte mapped.1 address) := by
  have formed := partition.formed index owns
  have access := formed.tree.cpuAccess_user partition.ready false address
  rw [Lab.reads]
  cases mapped : layoutMap image (lab.tasks index).pages (address.toNat / pageSize) with
  | none =>
      have refused : lab.machine.cpuAccess (lab.tasks index).privateSpace.root true false address
          = none := by
        rw [Option.eq_none_iff_forall_ne_some]
        intro place found
        obtain ⟨frame, permissions, known, _⟩ := (access place).mp found
        rw [formed.mapping, mapped] at known
        cases known
      rw [refused]
      rfl
  | some entry =>
      obtain ⟨frame, permissions⟩ := entry
      obtain ⟨k, _, _, _, flags⟩ := (layoutMap_eq_some sized).mp mapped
      have found : lab.machine.cpuAccess (lab.tasks index).privateSpace.root true false address
          = some (pageByte frame address) := by
        refine (access _).mpr ⟨frame, permissions, ?_, ?_, ?_, rfl⟩
        · rw [formed.mapping, mapped]
        · rw [flags]
          exact layoutFlags_user image k
        · intro impossible
          cases impossible
      rw [found]
      rfl

theorem Partition.reads_inPage {pages : List U64} (sized : Sized image) {index : TaskIndex}
    (same : (lab.tasks index).pages = pages) {address : U64} {mapped : U64 × U32}
    (found : layoutMap image pages (address.toNat / pageSize) = some mapped)
    : lab.InPage index (pageByte mapped.1 address) :=
  ⟨mapped.1, same ▸ layoutMap_mem sized found, pageByte_frame _ _⟩

/-- Bytes that the running program may write lie in its own pages. -/
theorem Consistent.userPlace_inPage (consistent : Consistent image lab.live lab)
    (selected : lab.Selected) {writing : Bool} {address : U64} {i place : Nat}
    (found : lab.machine.userPlace writing address i = some place)
    : lab.InPage lab.current place := by
  obtain ⟨frame, permissions, mapped, _, _, same⟩ :=
    (consistent.userAccess selected writing _ place).mp found
  exact ⟨frame, layoutMap_mem consistent.sized mapped, same ▸ pageByte_frame _ _⟩

/-- A task that does not run keeps its map and reads the same bytes. -/
theorem Lab.Effect.beside {address : U64} {length : Nat} (effect : lab.Effect address length lab')
    (user : InUser image lab) (user' : InUser image lab') {index : TaskIndex}
    (live : lab.live index) (live' : lab'.live index) (different : index ≠ lab.current)
    : lab'.machine.mapping (lab'.tasks index).privateSpace.root
        = lab.machine.mapping (lab.tasks index).privateSpace.root
      ∧ lab'.reads index = lab.reads index := by
  have same := effect.holdings index live live'
  have formed := user.partition.formed index live
  have formed' := user'.partition.formed index live'
  constructor
  · rw [formed'.mapping, formed.mapping, same.pages]
  · funext read
    rw [user'.partition.reads_eq user.sized live', user.partition.reads_eq user.sized live,
      same.pages]
    cases found : layoutMap image (lab.tasks index).pages (read.toNat / pageSize) with
    | none => rfl
    | some mapped =>
        have inside : lab.InPage index (pageByte mapped.1 read) :=
          Partition.reads_inPage user.sized rfl found
        refine congrArg some (effect.bytes index _ inside ?_)
        intro i _ written
        exact different (user.partition.inPage_unique inside
          (user.toConsistent.userPlace_inPage user.toSelected written))

end Events

-----------------------------------------------------------------------------------------
-- Calls that fail
-----------------------------------------------------------------------------------------

theorem ramfsOpen_refused {files : List File} {slots : Slots} {name : List Byte}
    (negative : (ramfsOpen files slots name).1.msb = true)
    : (ramfsOpen files slots name).2 = slots := by
  revert negative
  unfold ramfsOpen
  split
  · exact fun _ => rfl
  · split
    · exact fun _ => rfl
    · next descriptor _ =>
        intro negative
        have small : ∀ descriptor : Descriptor, (BitVec.ofNat 64 descriptor.val).msb = false := by
          decide
        cases negative.symm.trans (small descriptor)

theorem ramfsClose_refused {slots : Slots} {fd : U64}
    (negative : (ramfsClose slots fd).1.msb = true)
    : (ramfsClose slots fd).2 = slots := by
  revert negative
  unfold ramfsClose
  split
  · exact fun _ => rfl
  · have zero : ¬(0 : U64).msb = true := by decide
    exact fun negative => absurd negative zero

theorem ramfsRead_refused {files : List File} {slots slots' : Slots} {fd length result : U64}
    {bytes : List Byte}
    (found : ramfsRead files slots fd length = some (result, bytes, slots'))
    (small : length.toNat ≤ copyLimit) (negative : result.msb = true)
    : bytes = [] ∧ slots' = slots := by
  have positive {count : U64} (bound : count.toNat ≤ length.toNat) : count.msb = false := by
    rw [BitVec.msb_eq_false_iff_two_mul_lt]
    simp only [copyLimit] at small
    omega
  unfold ramfsRead at found
  split at found
  · cases found
    exact ⟨rfl, rfl⟩
  · next descriptor _ =>
      dsimp only at found
      split at found
      · cases found
      · next file _ =>
          generalize available : BitVec.ofNat 64 file.bytes.length - (slots descriptor).offset = rest
            at found
          generalize taken : (if length > rest then rest else length) = count at found
          have bound : count.toNat ≤ length.toNat := by
            rw [← taken]
            split
            · next above => exact Nat.le_of_lt above
            · exact Nat.le_refl _
          split at found
          · cases found
          · cases found
            cases negative.symm.trans (positive bound)

section Refused

variable {image : List Byte} {lab lab' : Lab}

theorem Lab.withFiles_self (lab : Lab) : lab.withFiles lab.taskCurrent.files = lab := by
  unfold Lab.withFiles Lab.withTask
  have same : Function.update lab.tasks lab.current
      { lab.tasks lab.current with files := lab.taskCurrent.files } = lab.tasks :=
    Function.update_eq_self lab.current lab.tasks
  rw [same]

theorem wide_positive (value : U32) : (wide value).msb = false := by
  rw [BitVec.msb_eq_false_iff_two_mul_lt, wide, BitVec.toNat_setWidth]
  have bound := value.isLt
  omega

/-- A call with a negative result has changed nothing. -/
theorem Called.refused_same {arguments : Arguments} {call : Option Syscall} {value : U64}
    (called : Called image lab arguments call value lab') (notTicks : call ≠ some .ticks)
    (negative : value.msb = true)
    : lab' = lab := by
  cases called with
  | ticks => exact absurd rfl notTicks
  | taskId => cases negative.symm.trans (wide_positive _)
  | program =>
      have positive : ∀ program : Program, program.number.msb = false := by
        intro program
        cases program <;> rfl
      cases negative.symm.trans (positive _)
  | unknown | report | refused | noInput => rfl
  | write length accepted =>
      have small := Lab.userRange_small accepted
      have positive : arguments.rsi.msb = false := by
        rw [BitVec.msb_eq_false_iff_two_mul_lt]
        simp only [copyLimit] at small
        omega
      cases negative.symm.trans positive
  | opened length accepted =>
      rw [ramfsOpen_refused negative]
      exact lab.withFiles_self
  | read accepted found length =>
      obtain ⟨nothing, same⟩ :=
        ramfsRead_refused found (Lab.userRange_small accepted) negative
      rw [nothing, same]
      exact lab.withFiles_self
  | close =>
      rw [ramfsClose_refused negative]
      exact lab.withFiles_self
  | input | noProcess | process | noFile | file | memory | inspect => cases negative

/-- Of all that the kernel keeps only the stack of the caller, a slot that was unused, free frames
and the trace may differ.
-/
structure Lab.Kept (lab lab' : Lab) : Prop where
  restored : lab.machine.Restored lab'.machine
  caller : ∃ stack, lab'.tasks lab.current = { lab.tasks lab.current with stack }
  others
    : ∀ index,
        index ≠ lab.current
        → (lab.tasks index).state ≠ .unused
        → lab'.tasks index = lab.tasks index
  unused
    : ∀ index,
        (lab.tasks index).state = .unused
        → lab'.tasks index = lab.tasks index ∨ lab'.tasks index = Task.zero
  current : lab'.current = lab.current
  ticks : lab'.ticks = lab.ticks
  rsp0 : lab'.rsp0 = lab.rsp0
  received : lab'.received = lab.received
  com1 : lab'.console.com1 = lab.console.com1
  trace : lab.console.trace <+: lab'.console.trace

namespace Lab.Kept

theorem refl (wellFormed : lab.machine.PagesWellFormed) : lab.Kept lab :=
  ⟨.refl wellFormed, ⟨_, rfl⟩, fun _ _ _ => rfl, fun _ _ => Or.inl rfl, rfl, rfl, rfl, rfl, rfl,
    List.prefix_rfl⟩

/-- The kernel works on the stack of the caller alone. -/
theorem of_stack (update : Task → Task) (ready : (lab.tasks lab.current).state = .ready)
    (wellFormed : lab.machine.PagesWellFormed)
    (stack
      : ∃ stack, update (lab.tasks lab.current) = { lab.tasks lab.current with stack })
    (records : List TraceRecord)
    : lab.Kept ((lab.traced records).withTask lab.current update) := by
  have others {index : TaskIndex} (different : index ≠ lab.current)
      : ((lab.traced records).withTask lab.current update).tasks index = lab.tasks index :=
    Lab.withTask_other (lab.traced records) different update
  refine ⟨.refl wellFormed, ?_, fun index different _ => others different, fun index free => ?_,
    rfl, rfl, rfl, rfl, rfl, List.prefix_append ..⟩
  · obtain ⟨stack, same⟩ := stack
    exact ⟨stack, (Lab.withTask_self (lab.traced records) lab.current update).trans same⟩
  · refine Or.inl (others ?_)
    rintro rfl
    cases free.symm.trans ready

theorem trans {lab'' : Lab} (first : lab.Kept lab') (second : lab'.Kept lab'') : lab.Kept lab'' where
  restored := first.restored.trans second.restored
  caller := by
    obtain ⟨_, before⟩ := first.caller
    obtain ⟨stack, after⟩ := second.caller
    rw [first.current, before] at after
    exact ⟨stack, after⟩
  others := by
    intro index different used
    have before := first.others index different used
    rw [← before]
    exact second.others index (first.current ▸ different) (before ▸ used)
  unused := by
    intro index free
    rcases first.unused index free with same | zero
    · rw [← same]
      exact second.unused index (same ▸ free)
    · rcases second.unused index (by rw [zero]; rfl) with same | cleared
      · exact Or.inr (same.trans zero)
      · exact Or.inr cleared
  current := second.current.trans first.current
  ticks := second.ticks.trans first.ticks
  rsp0 := second.rsp0.trans first.rsp0
  received := second.received.trans first.received
  com1 := second.com1.trans first.com1
  trace := first.trace.trans second.trace

/-- A slot in use is as it was but for the stack of the caller. -/
theorem used (kept : lab.Kept lab') {index : TaskIndex} (used : (lab.tasks index).state ≠ .unused)
    : ∃ stack, lab'.tasks index = { lab.tasks index with stack } := by
  rcases eq_or_ne index lab.current with rfl | different
  · exact kept.caller
  · exact ⟨(lab.tasks index).stack, kept.others index different used⟩

theorem slot (kept : lab.Kept lab') {index : TaskIndex} (used : (lab.tasks index).state ≠ .unused)
    : (lab.tasks index).SameSlot (lab'.tasks index) := by
  obtain ⟨stack, same⟩ := kept.used used
  rw [same]
  exact ⟨⟨rfl, rfl, rfl, rfl⟩, rfl, rfl, rfl⟩

theorem live (kept : lab.Kept lab') (index : TaskIndex) : lab'.live index ↔ lab.live index := by
  by_cases free : (lab.tasks index).state = .unused
  · have free' : (lab'.tasks index).state = .unused := by
      rcases kept.unused index free with same | zero
      · rw [same, free]
      · rw [zero]
        rfl
    simp [Lab.live, Task.Live, free, free']
  · exact (kept.slot free).live

theorem bytes {owner : TaskIndex → Prop} (kept : lab.Kept lab')
    (partition : Partition image owner lab) {index : TaskIndex} {byte : Nat}
    (inside : lab.InPage index byte)
    : lab'.machine.memory byte = lab.machine.memory byte :=
  kept.restored.memory_of_allocated partition.ready.toPagesWellFormed
    (partition.inPage_allocated inside)

end Lab.Kept

/-- The entry code keeps all but the stack of the caller. -/
theorem InUser.entered_kept (user : InUser image lab) (vector : Fin 256) (error : U64)
    (scratch : Stack)
    : lab.Kept (lab.entered vector error scratch) := by
  have kept := Lab.Kept.of_stack
    (fun task =>
      { task with
        stack := fun word =>
          if word < stackWords - frameWords then scratch word
          else pushWords task.stack stackWords (entryPushes lab.cpu vector error) word })
    user.ready user.partition.ready.toPagesWellFormed ⟨_, rfl⟩ []
  rw [Lab.traced_nil] at kept
  exact kept

/-- So does the answer. -/
theorem InKernel.finished_kept (kernel : InKernel image lab) (id : U32) (number : U64)
    (arguments : Arguments) (value : U64)
    : lab.Kept (lab.finished id number arguments value) :=
  .of_stack _ kernel.ready kernel.partition.ready.toPagesWellFormed ⟨_, rfl⟩ _

theorem SpawnFailed.kept {index : TaskIndex} (failed : SpawnFailed image index lab lab')
    (kernel : InKernel image lab) (free : (lab.tasks index).state = .unused)
    : lab.Kept lab' := by
  obtain ⟨machine, shape⟩ := failed.confined
  have other {slot : TaskIndex} (different : slot ≠ index) : lab'.tasks slot = lab.tasks slot := by
    rw [shape]
    exact Function.update_of_ne different ..
  have here : lab'.tasks index = Task.zero := by
    rw [shape]
    exact Function.update_self ..
  have used {slot : TaskIndex} (used : (lab.tasks slot).state ≠ .unused)
      : lab'.tasks slot = lab.tasks slot := by
    refine other ?_
    rintro rfl
    exact used free
  have busy : (lab.tasks lab.current).state ≠ .unused := by
    rw [kernel.ready]
    decide
  refine ⟨failed.restored, ⟨_, used busy⟩, fun slot _ => used, fun slot _ => ?_, ?_, ?_, ?_, ?_, ?_, ?_⟩
  · rcases eq_or_ne slot index with rfl | different
    · exact Or.inr here
    · exact Or.inl (other different)
  all_goals rw [shape]

/-- A call has failed and changed nothing but the result in the caller's registers. A spawn may
have advanced the next number, and free frames.
-/
structure Lab.Refused (lab lab' : Lab) : Prop extends lab.Kept lab' where
  registers
    : lab'.cpu
      = { lab.cpu with
          general := Function.update lab.cpu.general .rax (lab'.cpu.general .rax) }
  nextPid : lab'.nextPid = lab.nextPid ∨ lab'.nextPid = lab.nextPid + 1
  bytes
    : ∀ index byte, lab.InPage index byte → lab'.machine.memory byte = lab.machine.memory byte
  files
    : ∀ index,
        (lab.tasks index).state ≠ .unused → (lab'.tasks index).files = (lab.tasks index).files

theorem Lab.finished_other (lab : Lab) (id : U32) (number : U64) (arguments : Arguments)
    (value : U64) {index : TaskIndex} (different : index ≠ lab.current)
    : (lab.finished id number arguments value).tasks index = lab.tasks index := by
  rw [Lab.finished]
  exact Lab.withTask_other (lab.traced _) different fun task => task.replied value

/-- A call that the kernel answers after it has kept all. -/
theorem InUser.refused {served : Lab} (user : InUser image lab) {vector : Fin 256} {error : U64}
    {scratch : Stack} (kernel : InKernel image served)
    (kept : (lab.entered vector error scratch).Kept served)
    (context : served.taskCurrent.context = lab.cpu)
    (nextPid : served.nextPid = lab.nextPid ∨ served.nextPid = lab.nextPid + 1) (id : U32)
    (number : U64) (arguments : Arguments) (value : U64)
    : lab.Refused (served.finished id number arguments value).left := by
  have whole : lab.Kept (served.finished id number arguments value) :=
    ((user.entered_kept vector error scratch).trans kept).trans
      (kernel.finished_kept id number arguments value)
  have cpu : (served.finished id number arguments value).left.cpu
      = { lab.cpu with general := Function.update lab.cpu.general .rax value } := by
    rw [← context]
    exact served.finished_context id number arguments value
  refine ⟨{ whole with }, ?_, nextPid, fun index byte => whole.bytes user.partition,
    fun index used => (whole.slot used).files⟩
  rw [cpu]
  dsimp only
  rw [Function.update_self]

theorem SpawnFailed.running {index : TaskIndex} (failed : SpawnFailed image index lab lab')
    (kernel : InKernel image lab) (free : (lab.tasks index).state = .unused)
    : lab'.taskCurrent = lab.taskCurrent := by
  obtain ⟨machine, shape⟩ := failed.confined
  have apart : lab.current ≠ index := (kernel.unused_apart free).1.symm
  rw [shape]
  exact Function.update_of_ne apart ..

theorem SpawnFailed.nextPid {index : TaskIndex} (failed : SpawnFailed image index lab lab')
    : lab'.nextPid = lab.nextPid + 1 := by
  obtain ⟨machine, shape⟩ := failed.confined
  rw [shape]

/-- What a call other than a spawn has left when it failed. -/
structure Lab.RefusedAtOnce (lab lab' : Lab) : Prop where
  machine : lab'.machine = lab.machine
  nextPid : lab'.nextPid = lab.nextPid
  slots : ∀ index, index ≠ lab.current → lab'.tasks index = lab.tasks index

/-- A call that returns with a negative result has changed nothing. -/
theorem Stepped.refused {vector : Fin 256} {error cr2 : U64} {scratch : Stack}
    (stepped : Stepped image lab (.interrupt vector error cr2 scratch) lab')
    (user : InUser image lab) (call : vector.val = 128)
    (returns
      : ∀ name ∈ [Syscall.wait, .exit, .ticks],
          Syscall.ofNumber (lab.cpu.general .rax) ≠ some name)
    (negative : (lab'.cpu.general .rax).msb = true)
    : lab.Refused lab'
      ∧ (Syscall.ofNumber (lab.cpu.general .rax) ≠ some .spawn → lab.RefusedAtOnce lab') := by
  let entered : Lab := lab.entered vector error scratch
  have kernel : InKernel image entered := user.entered vector error scratch
  have number : entered.savedNumber = lab.cpu.general .rax :=
    lab.entered_savedField vector error scratch (.general .rax)
  have context : entered.taskCurrent.context = lab.cpu := lab.entered_context vector error scratch
  have unchanged : entered.Kept entered := .refl kernel.partition.ready.toPagesWellFormed
  have atOnce (id : U32) (call : U64) (arguments : Arguments) (value : U64)
      : lab.RefusedAtOnce (entered.finished id call arguments value).left := by
    refine ⟨rfl, rfl, fun index different => ?_⟩
    exact (entered.finished_other id call arguments value different).trans
      (Lab.withTask_other lab different _)
  cases stepped with
  | @interrupt _ _ _ _ middle ran =>
      change (middle.taskCurrent.context.general .rax).msb = true at negative
      cases ran with
      | tick timer => omega
      | fault exception departed =>
          rw [call] at exception
          simp at exception
      | exit _ called departed =>
          exact absurd (number ▸ called) (returns .exit (by simp))
      | wait _ called waited =>
          exact absurd (number ▸ called) (returns .wait (by simp))
      | spawn _ called spawned =>
          rw [Lab.finished_result] at negative
          refine ⟨?_, fun other => absurd (number ▸ called) other⟩
          cases spawned with
          | forbidden | full => exact user.refused kernel unchanged context (Or.inl rfl) ..
          | failed permitted free failed =>
              have unused := Lab.freeTask_unused free
              exact user.refused (failed.kernel kernel unused) (failed.kept kernel unused)
                ((congrArg Task.context (failed.running kernel unused)).trans context)
                (Or.inr failed.nextPid) ..
          | spawned permitted free spawned => cases negative.symm.trans (wide_positive _)
      | call _ immediate called =>
          rw [Lab.finished_result] at negative
          have same := called.refused_same (number ▸ returns .ticks (by simp)) negative
          rw [same]
          exact ⟨user.refused kernel unchanged context (Or.inl rfl) .., fun _ => atOnce ..⟩

end Refused

end MiniLinux
