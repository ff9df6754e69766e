import MiniLinux.Laboratory.Spawning
import MiniLinux.Laboratory.System

/-! What holds of the laboratory between kernel entries, and inside the kernel.
Every live task is formed, and its context lies in the topmost frame of its own kernel stack;
the running task's context is in the processor instead. The active tables and the stack for
the next entry are those of the current task.
-/

namespace MiniLinux

open Foundation Foundation.Halting

/-- READY or WAITING -/
def Task.Live (task : Task) : Prop := task.state = .ready ∨ task.state = .waiting

/-- The place of every saved frame. -/
def savedAt (index : TaskIndex) : StackPointer := ⟨index, stackWords - frameWords⟩

/-- The context saved on the kernel stack of a task. -/
def Task.context (task : Task) : Context := frameContext task.stack (stackWords - frameWords)

/-- The context of a user program: the user segments, interrupts on, no I/O privilege. -/
structure Context.User (context : Context) : Prop where
  cs : context.cs = 0x23
  ss : context.ss = 0x1b
  flags : context.rflags &&& keptFlags = 0x200

/-- An open descriptor stands inside a file of the table. -/
def OpenFile.Valid (opened : OpenFile) : Prop :=
  opened.used = true
  → ∃ file, files[opened.file]? = some file ∧ opened.offset.toNat ≤ file.bytes.length

/-- The slots are in order, whoever is current. -/
structure Consistent (image : List Byte) (owner : TaskIndex → Prop) (lab : Lab) : Prop where
  sized : Sized image
  partition : Partition image owner lab
  descriptors : ∀ index descriptor, ((lab.tasks index).files descriptor).Valid
  alive : ∀ index, (lab.tasks index).Live → (lab.tasks index).alive = true

/-- The slots whose tasks are live. -/
def Lab.live (lab : Lab) (index : TaskIndex) : Prop := (lab.tasks index).Live

/-- A task that does not run has its context in its saved frame. -/
structure Task.Suspended (index : TaskIndex) (task : Task) : Prop where
  frame : task.frame = some (savedAt index)
  context : task.context.User

/-- The current task is ready, and its tables and kernel stack are active. -/
structure Lab.Selected (lab : Lab) : Prop where
  ready : (lab.tasks lab.current).state = .ready
  root : lab.machine.currentRoot = (lab.tasks lab.current).privateSpace.root
  rsp0 : lab.rsp0 = some ⟨lab.current, stackWords⟩

/-- The state inside the kernel, on behalf of the current task. -/
structure InKernel (image : List Byte) (lab : Lab) : Prop
    extends Consistent image lab.live lab, lab.Selected where
  others
    : ∀ index,
        (lab.tasks index).Live → index ≠ lab.current → (lab.tasks index).Suspended index
  saved : (lab.tasks lab.current).context.User

/-- The state in which user code runs. -/
structure InUser (image : List Byte) (lab : Lab) : Prop
    extends Consistent image lab.live lab, lab.Selected where
  others
    : ∀ index,
        (lab.tasks index).Live → index ≠ lab.current → (lab.tasks index).Suspended index
  running : lab.cpu.User

/-- The context with which a task starts. -/
def initialContext : Context where
  general _ := 0
  rip := userCode
  cs := 0x23
  rflags := 0x202
  rsp := userStack + BitVec.ofNat 64 (2 * pageSize) - 8
  ss := 0x1b

theorem initialContext_user : initialContext.User := ⟨rfl, rfl, by decide⟩

/-- The frame that `prepare` builds. -/
theorem writeInitialFrame_context (stack : Stack) (word : Nat)
    : frameContext (writeInitialFrame stack word) word = initialContext := by
  have field (field : FrameField)
      : writeInitialFrame stack word (word + field.offset) = initialFrame field := by
    cases field with
    | general register =>
        cases register <;>
          simp [writeInitialFrame, frameFields, FrameField.offset, Register.offset, frameWords,
            initialFrame]
    | _ =>
        simp [writeInitialFrame, frameFields, FrameField.offset, frameWords, initialFrame]
  have general : (fun register : Register =>
        writeInitialFrame stack word (word + register.offset))
      = fun _ => 0 := funext fun register => field (.general register)
  unfold frameContext
  rw [general, field .rip, field .cs, field .rflags, field .rsp, field .ss]
  rfl

-----------------------------------------------------------------------------------------
-- Changes that keep the slots in order
-----------------------------------------------------------------------------------------

/-- The tasks agree in what the slots are for: frames, descriptors and state. -/
structure Task.SameSlot (task task' : Task) : Prop extends task.SameHoldings task' where
  files : task'.files = task.files
  state : task'.state = task.state
  alive : task'.alive = task.alive

theorem Task.SameSlot.refl (task : Task) : task.SameSlot task := ⟨.refl task, rfl, rfl, rfl⟩

theorem Task.SameSlot.live {task task' : Task} (same : task.SameSlot task')
    : task'.Live ↔ task.Live := by
  rw [Task.Live, Task.Live, same.state]

namespace Consistent

variable {image : List Byte} {owner : TaskIndex → Prop} {lab lab' : Lab}

/-- Work on other fields of the tasks, by which no task comes to life. -/
theorem tasks (consistent : Consistent image owner lab) (machine : lab'.machine = lab.machine)
    (same : ∀ index, (lab.tasks index).SameHoldings (lab'.tasks index))
    (files : ∀ index, (lab'.tasks index).files = (lab.tasks index).files)
    (alive : ∀ index, (lab'.tasks index).Live → (lab'.tasks index).alive = true)
    : Consistent image owner lab' := by
  refine ⟨consistent.sized, consistent.partition.tasks machine same, ?_, alive⟩
  intro index descriptor
  rw [files]
  exact consistent.descriptors index descriptor

/-- Work that leaves every slot what it is. -/
theorem slots (consistent : Consistent image lab.live lab) (machine : lab'.machine = lab.machine)
    (same : ∀ index, (lab.tasks index).SameSlot (lab'.tasks index))
    : Consistent image lab'.live lab' := by
  have live : lab'.live = lab.live := funext fun index => propext (same index).live
  rw [live]
  refine consistent.tasks machine (fun index => (same index).toSameHoldings)
    (fun index => (same index).files) ?_
  intro index live
  rw [(same index).alive]
  exact consistent.alive index ((same index).live.mp live)

end Consistent

/-- A task in `lab.withTask`, by cases on the slot. -/
theorem Lab.withTask_forall (relation : TaskIndex → Task → Task → Prop) (update : Task → Task)
    {lab : Lab} {index : TaskIndex}
    (here : relation index (lab.tasks index) (update (lab.tasks index)))
    (others : ∀ other, other ≠ index → relation other (lab.tasks other) (lab.tasks other))
    (other : TaskIndex)
    : relation other (lab.tasks other) ((lab.withTask index update).tasks other) := by
  by_cases same : other = index
  · rw [same, Lab.withTask_self]
    exact here
  · rw [Lab.withTask_other lab same]
    exact others other same

-----------------------------------------------------------------------------------------
-- Entering and leaving the kernel
-----------------------------------------------------------------------------------------

/-- The state after the entry code. -/
def Lab.entered (lab : Lab) (vector : Fin 256) (error : U64) (scratch : Stack) : Lab :=
  lab.withTask lab.current fun task =>
    { task with
      stack := fun word =>
        if word < stackWords - frameWords then scratch word
        else pushWords task.stack stackWords (entryPushes lab.cpu vector error) word }

theorem enterKernel_ok {lab : Lab} (selected : lab.Selected) (vector : Fin 256) (error : U64)
    (scratch : Stack)
    : enterKernel vector error scratch lab
      = .ok (savedAt lab.current, lab.entered vector error scratch) := by
  unfold enterKernel
  rw [bind_get_apply, selected.rsp0]
  simp only [derefFrame, entryPushes_length]
  rfl

theorem Lab.entered_field (lab : Lab) (vector : Fin 256) (error : U64) (scratch : Stack)
    (field : FrameField)
    : ((lab.entered vector error scratch).tasks lab.current).stack
        (stackWords - frameWords + field.offset)
      = entryFrame lab.cpu vector error field := by
  rw [Lab.entered, Lab.withTask_self, ← entry_saves (lab.tasks lab.current).stack]
  exact if_neg (Nat.not_lt.mpr (Nat.le_add_right _ _))

theorem Lab.entered_context (lab : Lab) (vector : Fin 256) (error : U64) (scratch : Stack)
    : ((lab.entered vector error scratch).tasks lab.current).context = lab.cpu := by
  have field := lab.entered_field vector error scratch
  unfold Task.context frameContext
  have general : (fun register : Register =>
        ((lab.entered vector error scratch).tasks lab.current).stack
          (stackWords - frameWords + register.offset))
      = lab.cpu.general := funext fun register => field (.general register)
  rw [general, field .rip, field .cs, field .rflags, field .rsp, field .ss]
  rfl

theorem loadField_entered (lab : Lab) (vector : Fin 256) (error : U64) (scratch : Stack)
    (field : FrameField)
    : loadField (savedAt lab.current) field (lab.entered vector error scratch)
      = .ok (entryFrame lab.cpu vector error field, lab.entered vector error scratch) := by
  rw [← lab.entered_field vector error scratch field]
  rfl

/-- The entry touches only the kernel stack of the current task. -/
theorem Lab.entered_same (lab : Lab) (vector : Fin 256) (error : U64) (scratch : Stack)
    (index : TaskIndex)
    : (lab.tasks index).SameSlot ((lab.entered vector error scratch).tasks index) :=
  Lab.withTask_forall (fun _ task task' => task.SameSlot task') _
    ⟨⟨rfl, rfl, rfl, rfl⟩, rfl, rfl, rfl⟩ (fun _ _ => .refl _) index

/-- An entry saves the running context. -/
theorem InUser.entered {image : List Byte} {lab : Lab} (user : InUser image lab)
    (vector : Fin 256) (error : U64) (scratch : Stack)
    : InKernel image (lab.entered vector error scratch) := by
  have same := lab.entered_same vector error scratch
  refine ⟨user.toConsistent.slots rfl same, ⟨?_, ?_, user.rsp0⟩, ?_, ?_⟩
  · exact (same lab.current).state.trans user.ready
  · exact user.root.trans (congrArg AddressSpace.root (same lab.current).privateSpace.symm)
  · intro index live different
    have kept : (lab.entered vector error scratch).tasks index = lab.tasks index :=
      Lab.withTask_other lab different _
    rw [kept] at live ⊢
    exact user.others index live different
  · change ((lab.entered vector error scratch).tasks lab.current).context.User
    rw [lab.entered_context]
    exact user.running

theorem leaveKernel_ok (lab : Lab)
    : leaveKernel (some (savedAt lab.current)) lab
      = .ok ((), { lab with cpu := (lab.tasks lab.current).context }) := by
  unfold leaveKernel
  simp only [derefFrame, pure_bind, modify_apply, restoreFrame_eq]
  rfl

/-- The exit loads the saved context. -/
theorem InKernel.left {image : List Byte} {lab : Lab} (kernel : InKernel image lab)
    : InUser image { lab with cpu := (lab.tasks lab.current).context } :=
  ⟨kernel.toConsistent.slots rfl fun _ => .refl _, ⟨kernel.ready, kernel.root, kernel.rsp0⟩,
    kernel.others, kernel.saved⟩

/-- From user code the dispatcher calls one of three handlers, or panics. -/
theorem interruptDispatch_entered {lab : Lab} (running : lab.cpu.User) (image : List Byte)
    (vector : Fin 256) (error cr2 : U64) (scratch : Stack)
    : interruptDispatch image (savedAt lab.current) cr2 (lab.entered vector error scratch)
      = (if vector.val = 128 then syscallDispatch image (savedAt lab.current)
        else if vector.val ∈ [0, 6, 13, 14] then
          userFault (savedAt lab.current) (if vector.val = 14 then cr2 else 0)
        else if vector.val = 32 then taskTick (savedAt lab.current)
        else halt (.panic "unexpected CPU exception"))
          (lab.entered vector error scratch) := by
  have number (value : Nat) (own : value ≤ 32 ∨ value = 128)
      : entryFrame lab.cpu vector error .vector = BitVec.ofNat 64 value ↔ vector.val = value := by
    have bound := vector.isLt
    have same : entryFrame lab.cpu vector error .vector = BitVec.ofNat 64 value
        ↔ stubNumber vector = value := by
      rw [entryFrame, ← BitVec.toNat_inj, BitVec.toNat_ofNat, BitVec.toNat_ofNat]
      unfold stubNumber
      split <;> omega
    rw [same]
    unfold stubNumber
    split <;> omega
  have mode : entryFrame lab.cpu vector error .cs &&& 3#64 = 3#64 := by
    rw [entryFrame, running.cs]
    rfl
  unfold interruptDispatch
  rw [bind_ok (loadField_entered lab vector error scratch .vector),
    bind_ok (loadField_entered lab vector error scratch .cs)]
  have n0 := number 0 (by decide)
  have n6 := number 6 (by decide)
  have n13 := number 13 (by decide)
  have n14 := number 14 (by decide)
  have n32 := number 32 (by decide)
  have n128 := number 128 (by decide)
  simp only [BitVec.ofNat_eq_ofNat] at n0 n6 n13 n14 n32 n128 ⊢
  simp only [n0, n6, n13, n14, n32, n128, mode, true_and, List.mem_cons, List.not_mem_nil,
    or_false]

end MiniLinux
