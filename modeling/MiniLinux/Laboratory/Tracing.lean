import MiniLinux.Laboratory.System

/-! What the laboratory kernel writes to COM2.
Every part of the kernel only appends records to the trace, each of one of a few shapes.
-/

namespace MiniLinux

open Foundation Foundation.Halting

/-- The kinds of records that the laboratory kernel emits, with any values in their fields. -/
inductive TraceRecord.Emitted : TraceRecord → Prop
  | boot (tick : U64)
      : Emitted ⟨"boot", tick, [.text "LAB", .text "x86_64", .text "100", .text "8"]⟩
  | process (tick id parent : U64) (program : Program) (state : ProcessState)
      (root slices : U64) (current : Bool)
      : Emitted ⟨"process", tick,
          [.number id, .number parent, .number program.number, .number state.number, .hex root,
            .number slices, .number (if current then 1 else 0)]⟩
  | memory (tick frames free : U64) : Emitted ⟨"memory", tick, [.number frames, .number free]⟩
  | map (tick id va pa flags : U64) (name : String) (known : name ∈ ["code", "data", "stack"])
      : Emitted ⟨"map", tick, [.number id, .hex va, .hex pa, .number flags, .text name]⟩
  | data (tick id va pa marker : U64)
      : Emitted ⟨"data", tick, [.number id, .hex va, .hex pa, .hex marker]⟩
  | snapshot (tick : U64) : Emitted ⟨"snapshot", tick, []⟩
  | snapshotEnd (tick : U64) : Emitted ⟨"snapshot-end", tick, []⟩
  | spawn (tick id parent program : U64)
      : Emitted ⟨"spawn", tick, [.number id, .number parent, .number program]⟩
  | schedule (tick old new root level : U64)
      : Emitted ⟨"schedule", tick, [.number old, .number new, .hex root, .number level]⟩
  | exit (tick id status : U64) : Emitted ⟨"exit", tick, [.number id, .number status]⟩
  | wait (tick id pid : U64) : Emitted ⟨"wait", tick, [.number id, .number pid]⟩
  | fault (tick id vector error address rip level : U64)
      : Emitted ⟨"fault", tick,
          [.number id, .number vector, .number error, .hex address, .hex rip, .number level]⟩
  | syscall (tick id number rdi rsi rdx level : U64) (result : TraceField)
      (signed : ∀ text, result ≠ .text text)
      : Emitted ⟨"syscall", tick,
          [.number id, .number number, .hex rdi, .hex rsi, .hex rdx, result, .number level]⟩

/-- The later trace continues the earlier one with emitted records. -/
def Lab.TracesOnto (lab lab' : Lab) : Prop :=
  ∃ more, lab'.console.trace = lab.console.trace ++ more ∧ ∀ record ∈ more, record.Emitted

theorem Lab.tracesOnto_of_eq {lab lab' : Lab} (same : lab'.console.trace = lab.console.trace)
    : lab.TracesOnto lab' :=
  ⟨[], by rw [same, List.append_nil], by simp⟩

instance : Std.Refl Lab.TracesOnto := ⟨fun _ => Lab.tracesOnto_of_eq rfl⟩

instance : IsTrans Lab Lab.TracesOnto := by
  constructor
  intro lab middle later first second
  obtain ⟨more, grew, emitted⟩ := first
  obtain ⟨more', grew', emitted'⟩ := second
  refine ⟨more ++ more', by rw [grew', grew, List.append_assoc], ?_⟩
  intro record member
  rcases List.mem_append.mp member with member | member
  · exact emitted record member
  · exact emitted' record member

/-- A program that only appends emitted records to the trace. -/
def Traces {α : Type} (program : LabM α) : Prop := Respects Lab.TracesOnto program

section Rules

variable {α β : Type}

theorem traces_pure (value : α) : Traces (pure value : LabM α) := Respects.of_pure value

theorem traces_halt (reason : Halt) : Traces (halt reason : LabM α) :=
  Respects.of_halt reason

theorem traces_modify {update : Lab → Lab}
    (same : ∀ lab, (update lab).console.trace = lab.console.trace)
    : Traces (modify update : LabM Unit) :=
  Respects.of_modify fun lab => Lab.tracesOnto_of_eq (same lab)

theorem Traces.bind {program : LabM α} {next : α → LabM β} (first : Traces program)
    (rest : ∀ value, Traces (next value))
    : Traces (program >>= next) :=
  Respects.bind first rest

/-- Changing the state apart from the trace. -/
theorem traces_assign {update : Lab → Lab} {next : Unit → LabM β}
    (same : ∀ lab, (update lab).console.trace = lab.console.trace)
    (rest : ∀ value, Traces (next value))
    : Traces (modify update >>= next) :=
  (traces_modify same).bind rest

/-- Reading the state changes nothing. -/
theorem traces_read {next : Lab → LabM β} (rest : ∀ lab, Traces (next lab))
    : Traces ((get : LabM Lab) >>= next) :=
  Traces.bind Respects.of_get rest

/-- Writing a field from the state that was read. -/
theorem traces_update {update : Lab → Lab} {next : Lab → LabM β}
    (same : ∀ lab, (update lab).console.trace = lab.console.trace)
    (rest : ∀ lab, Traces (next lab))
    : Traces ((get : LabM Lab) >>= fun lab => set (update lab) >>= fun _ => next lab) := by
  intro lab value lab' returned
  rw [bind_get_apply, bind_set_apply] at returned
  exact IsTrans.trans _ _ _ (Lab.tracesOnto_of_eq (same lab)) (rest lab returned)

theorem traces_ite {condition : Prop} [Decidable condition] {yes no : LabM α} (first : Traces yes)
    (second : Traces no)
    : Traces (if condition then yes else no) := by
  split
  · exact first
  · exact second

theorem traces_onMachine (program : MachineM α) : Traces (onMachine program) := by
  intro lab value lab' returned
  unfold onMachine onComponent at returned
  split at returned
  · cases returned
    exact Lab.tracesOnto_of_eq rfl
  · cases returned

end Rules

-----------------------------------------------------------------------------------------
-- The parts of the kernel
-----------------------------------------------------------------------------------------

theorem traces_modifyTask (index : TaskIndex) (update : Task → Task)
    : Traces (modifyTask index update) :=
  traces_modify fun _ => rfl

theorem traces_event {kind : String} {fields : List TraceField}
    (emitted : ∀ tick, TraceRecord.Emitted ⟨kind, tick, fields⟩)
    : Traces (event kind fields) := by
  intro lab value lab' returned
  cases returned
  refine ⟨[⟨kind, lab.ticks, fields⟩], rfl, ?_⟩
  intro record member
  exact List.mem_singleton.mp member ▸ emitted lab.ticks

theorem traces_derefFrame (frame : Option StackPointer) : Traces (derefFrame frame) := by
  cases frame with
  | none => exact traces_halt _
  | some frame => exact traces_pure _

theorem traces_loadField (frame : StackPointer) (field : FrameField)
    : Traces (loadField frame field) :=
  traces_read fun _ => traces_pure _

theorem traces_storeField (frame : StackPointer) (field : FrameField) (value : U64)
    : Traces (storeField frame field value) :=
  traces_modifyTask _ _

theorem traces_serialWriteBytes (bytes : List Byte) : Traces (serialWriteBytes bytes) :=
  traces_modify fun _ => rfl

theorem traces_serialWriteNumber (value : U64) : Traces (serialWriteNumber value) :=
  traces_serialWriteBytes _

theorem traces_serialReadChar : Traces serialReadChar := by
  intro lab value lab' returned
  rw [serialReadChar, bind_get_apply] at returned
  cases waiting : lab.received with
  | nil =>
      rw [waiting] at returned
      cases returned
      exact Lab.tracesOnto_of_eq rfl
  | cons byte rest =>
      rw [waiting] at returned
      cases returned
      exact Lab.tracesOnto_of_eq rfl

theorem traces_loadUser (address : U64) : Traces (loadUser address) := by
  refine traces_read fun lab => ?_
  cases lab.machine.cpuAccess lab.machine.currentRoot false false address with
  | none => exact traces_halt _
  | some place => exact traces_pure _

theorem traces_storeUser (address : U64) (byte : Byte) : Traces (storeUser address byte) := by
  intro lab value lab' returned
  rw [storeUser, bind_get_apply] at returned
  cases access : lab.machine.cpuAccess lab.machine.currentRoot false true address with
  | none =>
      rw [access] at returned
      cases returned
  | some place =>
      rw [access] at returned
      cases returned
      exact Lab.tracesOnto_of_eq rfl

theorem traces_loadUserBytes (address : U64) (count : Nat)
    : Traces (loadUserBytes address count) := by
  induction count generalizing address with
  | zero => exact traces_pure _
  | succ count ih =>
      exact (traces_loadUser _).bind fun _ => (ih _).bind fun _ => traces_pure _

theorem traces_storeUserBytes (address : U64) (bytes : List Byte)
    : Traces (storeUserBytes address bytes) := by
  induction bytes generalizing address with
  | nil => exact traces_pure _
  | cons byte rest ih => exact (traces_storeUser _ _).bind fun _ => ih _

theorem traces_processEvent (index : TaskIndex) : Traces (processEvent index) := by
  refine traces_read fun lab => traces_event fun tick => ?_
  have emitted := TraceRecord.Emitted.process tick (wide (lab.tasks index).id)
    (wide (lab.tasks index).parent) (lab.tasks index).program (lab.tasks index).state
    (lab.tasks index).root (wide (lab.tasks index).slices)
    (decide (index = lab.current ∧ (lab.tasks index).state = .ready))
  simpa using emitted

theorem traces_memoryEvent : Traces memoryEvent :=
  traces_read fun _ => traces_event fun _ => .memory _ _ _

theorem mappingKind_mem (image : List Byte) (i : Nat)
    : mappingKind image i ∈ ["code", "data", "stack"] := by
  unfold mappingKind
  split_ifs <;> simp

theorem traces_mapEvents (image : List Byte) (index : TaskIndex) (i count : Nat)
    : Traces (mapEvents image index i count) := by
  induction count generalizing i with
  | zero => exact traces_pure _
  | succ count ih =>
      refine traces_read fun lab => traces_ite ?_ (traces_halt _)
      refine (traces_event fun tick => ?_).bind fun _ => ih _
      exact .map tick _ _ _ _ _ (mappingKind_mem image i)

theorem traces_derefPage (physical : U64) : Traces (derefPage physical) := by
  refine (traces_onMachine _).bind fun data => traces_read fun lab => ?_
  cases data with
  | none => exact traces_halt _
  | some pointer => exact traces_pure _

theorem traces_mappingsEvent (image : List Byte) (index : TaskIndex)
    : Traces (mappingsEvent image index) := by
  refine traces_read fun lab => traces_ite (traces_pure _) ?_
  refine (traces_mapEvents _ _ _ _).bind fun _ => (traces_derefPage _).bind fun place => ?_
  exact traces_event fun tick => .data tick _ _ _ _

theorem traces_inspectTasks (image : List Byte) (slots : List TaskIndex)
    : Traces (inspectTasks image slots) := by
  induction slots with
  | nil => exact traces_pure _
  | cons index rest ih =>
      refine traces_read fun lab => traces_ite ih ?_
      exact (traces_processEvent _).bind fun _ => (traces_mappingsEvent _ _).bind fun _ => ih

theorem traces_inspect (image : List Byte) : Traces (inspect image) :=
  (traces_event .snapshot).bind fun _ => (traces_inspectTasks _ _).bind fun _ =>
    traces_memoryEvent.bind fun _ => traces_event .snapshotEnd

theorem traces_onSpace (index : TaskIndex)
    (program : Option AddressSpace → MachineM (Bool × Option AddressSpace))
    : Traces (onSpace index program) :=
  traces_read fun _ => (traces_onMachine _).bind fun _ =>
    (traces_modifyTask _ _).bind fun _ => traces_pure _

theorem traces_writePage (place : Nat) (bytes : List Byte) : Traces (writePage place bytes) :=
  traces_onMachine _

theorem traces_mapOwned (index : TaskIndex) (va : U64) (flags : U32) (pa : U64)
    : Traces (mapOwned index va flags pa) := by
  refine traces_read fun lab => traces_ite (traces_pure _) ?_
  refine (traces_onMachine _).bind fun allocated => traces_ite ?_ (traces_pure _)
  refine (traces_modifyTask _ _).bind fun _ => (traces_derefPage _).bind fun place => ?_
  refine (traces_writePage _ _).bind fun _ => (traces_onSpace _ _).bind fun _ => ?_
  exact traces_pure _

theorem traces_freePages (pages : List U64) : Traces (freePages pages) := by
  induction pages with
  | nil => exact traces_pure _
  | cons page rest ih =>
      exact (traces_onMachine _).bind fun _ => traces_ite ih (traces_halt _)

theorem traces_releasePages (index : TaskIndex) : Traces (releasePages index) := by
  refine traces_read fun lab => ?_
  have rest : Traces (freePages (lab.tasks index).pages >>= fun _ =>
      modifyTask index fun task => { task with pages := [] }) :=
    (traces_freePages _).bind fun _ => traces_modifyTask _ _
  dsimp only
  refine traces_ite ((traces_onSpace _ _).bind fun destroyed => ?_) rest
  exact traces_ite rest ((traces_halt _).bind fun _ => rest)

theorem traces_prepareCode (image : List Byte) (index : TaskIndex) (i count : Nat)
    : Traces (prepareCode image index i count) := by
  induction count generalizing i with
  | zero => exact traces_pure _
  | succ count ih =>
      refine (traces_mapOwned _ _ _ _).bind fun mapped => traces_ite ?_ (traces_pure _)
      exact (traces_derefPage _).bind fun _ => (traces_writePage _ _).bind fun _ => ih _

theorem traces_prepareData (index : TaskIndex) : Traces (prepareData index) := by
  refine traces_read fun lab => (traces_mapOwned _ _ _ _).bind fun mapped => ?_
  refine (traces_modifyTask _ _).bind fun _ => traces_ite ?_ (traces_pure _)
  refine (traces_mapOwned _ _ _ _).bind fun mapped => traces_ite ?_ (traces_pure _)
  exact (traces_mapOwned _ _ _ _).bind fun _ => traces_pure _

theorem traces_prepare (image : List Byte) (index : TaskIndex) : Traces (prepare image index) := by
  refine (traces_modifyTask _ _).bind fun _ => (traces_onSpace _ _).bind fun created => ?_
  refine traces_ite ((traces_prepareCode _ _ _ _).bind fun coded => ?_) (traces_pure _)
  refine traces_ite ((traces_prepareData _).bind fun mapped => ?_) (traces_pure _)
  exact traces_ite ((traces_modifyTask _ _).bind fun _ => traces_pure _) (traces_pure _)

theorem traces_spawnAt (image : List Byte) (index : TaskIndex) (program : Program) (parent : U32)
    : Traces (spawnAt image index program parent) := by
  refine traces_update (fun _ => rfl) fun lab => ?_
  refine (traces_modifyTask _ _).bind fun _ => (traces_prepare _ _).bind fun prepared => ?_
  refine traces_ite ?_ ?_
  · refine (traces_modifyTask _ _).bind fun _ => ?_
    refine (traces_event fun tick => .spawn tick _ _ _).bind fun _ => ?_
    refine (traces_processEvent _).bind fun _ => (traces_mappingsEvent _ _).bind fun _ => ?_
    exact traces_memoryEvent.bind fun _ => traces_pure _
  · exact (traces_releasePages _).bind fun _ => (traces_modifyTask _ _).bind fun _ =>
      traces_pure _

theorem traces_spawn (image : List Byte) (program : Program) (parent : U32)
    : Traces (spawn image program parent) := by
  refine traces_read fun lab => ?_
  split
  · exact traces_pure _
  · exact traces_spawnAt _ _ _ _

theorem traces_nextReady : Traces nextReady := by
  refine traces_read fun lab => ?_
  split
  · exact traces_halt _
  · exact traces_pure _

theorem traces_selectTask (next : TaskIndex) : Traces (selectTask next) := by
  refine traces_assign (fun _ => rfl) fun _ => traces_read fun lab => ?_
  dsimp only
  cases lab.taskCurrent.space with
  | none => exact traces_halt _
  | some space =>
      exact traces_ite ((traces_onMachine _).bind fun _ => traces_pure _) (traces_pure _)

theorem traces_taskTick (frame : StackPointer) : Traces (taskTick frame) := by
  refine (traces_loadField _ _).bind fun cs => traces_ite (traces_halt _) ?_
  refine traces_read fun lab => (traces_modifyTask _ _).bind fun _ => ?_
  refine traces_assign (fun _ => rfl) fun _ => traces_nextReady.bind fun next => ?_
  dsimp only
  refine traces_ite (traces_read fun lab => ?_) (traces_selectTask _)
  cases (lab.tasks next).space with
  | none => exact (traces_halt _).bind fun _ => traces_selectTask _
  | some space =>
      exact (traces_event fun tick => .schedule tick _ _ _ _).bind fun _ => traces_selectTask _

theorem traces_wakeParents (old : Task) (status : U64) (slots : List TaskIndex)
    : Traces (wakeParents old status slots) := by
  induction slots with
  | nil => exact traces_pure _
  | cons index rest ih =>
      refine traces_read fun lab => traces_ite ?_ ih
      refine (traces_derefFrame _).bind fun _ => (traces_storeField _ _ _).bind fun _ => ?_
      refine (traces_modifyTask _ _).bind fun _ => (traces_processEvent _).bind fun _ => ?_
      exact ih.bind fun _ => traces_pure _

theorem traces_taskExit (frame : StackPointer) (status : U64) : Traces (taskExit frame status) := by
  refine traces_read fun lab => traces_ite (traces_halt _) ?_
  refine (traces_modifyTask _ _).bind fun _ => ?_
  refine (traces_event fun tick => .exit tick _ _).bind fun _ => ?_
  refine (traces_wakeParents _ _ _).bind fun _ => traces_nextReady.bind fun _ => ?_
  refine (traces_selectTask _).bind fun _ => (traces_releasePages _).bind fun _ => ?_
  have rest (next : Option StackPointer)
      : Traces (processEvent lab.current >>= fun _ => memoryEvent >>= fun _ => pure next) :=
    (traces_processEvent _).bind fun _ => traces_memoryEvent.bind fun _ => traces_pure _
  dsimp only
  exact traces_ite ((traces_modifyTask _ _).bind fun _ => rest _) (rest _)

theorem traces_userFault (frame : StackPointer) (address : U64)
    : Traces (userFault frame address) := by
  refine traces_read fun lab => (traces_loadField _ _).bind fun _ => ?_
  refine (traces_loadField _ _).bind fun _ => (traces_loadField _ _).bind fun _ => ?_
  refine (traces_loadField _ _).bind fun _ => ?_
  refine (traces_event fun tick => .fault tick _ _ _ _ _ _).bind fun _ => ?_
  refine (traces_serialWriteBytes _).bind fun _ => (traces_serialWriteNumber _).bind fun _ => ?_
  refine (traces_serialWriteBytes _).bind fun _ => (traces_serialWriteNumber _).bind fun _ => ?_
  exact (traces_serialWriteBytes _).bind fun _ => traces_taskExit _ _

theorem traces_waitChild (frame : StackPointer) (pid : U64) : Traces (waitChild frame pid) := by
  refine traces_read fun lab => (traces_event fun tick => .wait tick _ _).bind fun _ => ?_
  split
  · exact (traces_storeField _ _ _).bind fun _ => traces_pure _
  · refine traces_ite ?_ ?_
    · refine (traces_storeField _ _ _).bind fun _ => (traces_modifyTask _ _).bind fun _ => ?_
      exact (traces_processEvent _).bind fun _ => traces_pure _
    · refine (traces_modifyTask _ _).bind fun _ => (traces_processEvent _).bind fun _ => ?_
      exact traces_nextReady.bind fun _ => traces_selectTask _

theorem traces_setFiles (files : Slots) : Traces (setFiles files) :=
  traces_read fun _ => traces_modifyTask _ _

/-- The calls, one case each. -/
theorem traces_syscallResult (image : List Byte) (arguments : Arguments) (call : Option Syscall)
    : Traces (syscallResult image arguments call) := by
  unfold syscallResult
  split
  · exact traces_read fun _ => traces_pure _
  · exact traces_read fun _ => traces_pure _
  · exact traces_read fun _ => traces_pure _
  · refine traces_read fun lab => traces_ite ?_ (traces_pure _)
    exact (traces_loadUserBytes _ _).bind fun _ =>
      (traces_serialWriteBytes _).bind fun _ => traces_pure _
  · refine traces_read fun lab => traces_ite ?_ (traces_pure _)
    exact (traces_loadUserBytes _ _).bind fun _ => (traces_setFiles _).bind fun _ => traces_pure _
  · refine traces_read fun lab => traces_ite ?_ (traces_pure _)
    split
    · exact traces_halt _
    · exact (traces_storeUserBytes _ _).bind fun _ =>
        (traces_setFiles _).bind fun _ => traces_pure _
  · exact traces_read fun _ => (traces_setFiles _).bind fun _ => traces_pure _
  · refine traces_read fun lab => ?_
    split
    · exact traces_spawn _ _ _
    · exact traces_pure _
  · refine traces_read fun lab => traces_ite ?_ (traces_pure _)
    refine traces_serialReadChar.bind fun received => ?_
    split
    · exact traces_pure _
    · exact (traces_storeUser _ _).bind fun _ => traces_pure _
  · refine traces_read fun lab => traces_ite ?_ (traces_pure _)
    split
    · exact traces_ite (traces_pure _) ((traces_storeUserBytes _ _).bind fun _ => traces_pure _)
    · exact traces_pure _
  · refine traces_read fun lab => traces_ite (traces_ite (traces_pure _) ?_) (traces_pure _)
    split
    · exact traces_pure _
    · exact (traces_storeUserBytes _ _).bind fun _ => traces_pure _
  · refine traces_read fun lab => traces_ite ?_ (traces_pure _)
    exact (traces_storeUserBytes _ _).bind fun _ => traces_pure _
  · exact (traces_inspect _).bind fun _ => traces_pure _
  · exact traces_pure _

theorem traces_finishSyscall (frame : StackPointer) (id : U32) (number : U64)
    (arguments : Arguments) (result : U64)
    : Traces (finishSyscall frame id number arguments result) := by
  have rest : Traces (storeField frame (.general .rax) result >>= fun _ => pure (some frame)) :=
    (traces_storeField _ _ _).bind fun _ => traces_pure _
  unfold finishSyscall
  dsimp only
  refine traces_ite rest ((traces_event fun tick => ?_).bind fun _ => rest)
  refine .syscall tick _ _ _ _ _ _ (resultField result) ?_
  intro text
  unfold resultField
  split <;> simp

theorem traces_syscallDispatch (image : List Byte) (frame : StackPointer)
    : Traces (syscallDispatch image frame) := by
  refine (traces_loadField _ _).bind fun cs => traces_ite (traces_halt _) ?_
  refine traces_read fun lab => (traces_loadField _ _).bind fun _ => ?_
  refine (traces_loadField _ _).bind fun _ => (traces_loadField _ _).bind fun _ => ?_
  refine (traces_loadField _ _).bind fun _ => ?_
  split
  · exact traces_waitChild _ _
  · exact traces_taskExit _ _
  · exact (traces_syscallResult _ _ _).bind fun _ => traces_finishSyscall _ _ _ _ _

theorem traces_interruptDispatch (image : List Byte) (frame : StackPointer) (cr2 : U64)
    : Traces (interruptDispatch image frame cr2) := by
  refine (traces_loadField _ _).bind fun _ => (traces_loadField _ _).bind fun _ => ?_
  refine traces_ite (traces_syscallDispatch _ _) (traces_ite (traces_userFault _ _) ?_)
  exact traces_ite (traces_taskTick _) (traces_halt _)

theorem traces_leaveKernel (frame : Option StackPointer) : Traces (leaveKernel frame) :=
  (traces_derefFrame _).bind fun _ => traces_modify fun _ => rfl

theorem traces_labStep (image : List Byte) (event : LabEvent) : Traces (labStep image event) := by
  cases event with
  | run | store | mark | receive => exact traces_modify fun _ => rfl
  | interrupt vector error cr2 scratch =>
      refine Traces.bind (traces_read fun lab => ?_) fun frame =>
        (traces_interruptDispatch _ _ _).bind fun _ => traces_leaveKernel _
      exact (traces_derefFrame _).bind fun _ => (traces_modifyTask _ _).bind fun _ => traces_pure _

theorem traces_kernelMain (image : List Byte) (info : BootInfo) : Traces (kernelMain image info) := by
  refine (traces_serialWriteBytes _).bind fun _ => (traces_onMachine _).bind fun ok => ?_
  refine traces_ite ((traces_onMachine _).bind fun _ => ?_) (traces_halt _)
  refine traces_ite (traces_halt _) ?_
  refine (traces_event .boot).bind fun _ => (traces_spawn _ _ _).bind fun id => ?_
  exact traces_ite (traces_halt _) ((traces_selectTask _).bind fun _ => traces_leaveKernel _)

/-- Every record of a run is an emitted one. Witness: induction on the run. -/
theorem Reachable.trace_emitted {image : List Byte} {info : BootInfo} {lab : Lab}
    (reached : Reachable image info lab)
    : ∀ record ∈ lab.console.trace, record.Emitted := by
  induction reached with
  | boot booted start =>
      obtain ⟨more, grew, emitted⟩ := traces_kernelMain image info booted
      rw [start.console, List.nil_append] at grew
      exact grew ▸ emitted
  | step event reached stepped ih =>
      obtain ⟨more, grew, emitted⟩ := traces_labStep image event stepped
      intro record member
      rw [grew] at member
      rcases List.mem_append.mp member with member | member
      · exact ih record member
      · exact emitted record member

end MiniLinux
