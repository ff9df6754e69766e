import MiniLinux.Laboratory.Dispatch

/-! Whole runs of the laboratory.
One event leads from user mode to user mode and is a step of the process table; what this step
preserves holds of every reachable state.
-/

namespace MiniLinux

open Foundation Foundation.Halting

/-- The state after the exit code. -/
def Lab.left (lab : Lab) : Lab := { lab with cpu := lab.taskCurrent.context }

/-- What an event does. -/
inductive Stepped (image : List Byte) (lab : Lab) : LabEvent → Lab → Prop
  | run (context : Context)
      : Stepped image lab (.run context) { lab with cpu := lab.cpu.runTo context }
  | store (address : U64) (byte : Byte)
      : Stepped image lab (.store address byte)
          { lab with machine := lab.machine.userStore address byte }
  | mark (address : U64) (level : Nat) (bits : U64)
      : Stepped image lab (.mark address level bits)
          { lab with machine := lab.machine.markEntry address level bits }
  | receive (byte : Byte)
      : Stepped image lab (.receive byte) { lab with received := lab.received ++ [byte] }
  | interrupt {vector : Fin 256} {error cr2 : U64} {scratch : Stack} {middle : Lab}
      (ran : KernelRun image vector.val (lab.entered vector error scratch) middle)
      : Stepped image lab (.interrupt vector error cr2 scratch) middle.left

/-- How an event stops the laboratory. -/
def StepHalt (lab : Lab) : LabEvent → Halt → Prop
  | .interrupt vector error _ scratch, reason =>
      KernelHalt vector.val (lab.entered vector error scratch) reason
  | _, _ => False

theorem Context.User.runTo {context : Context} (user : context.User) (context' : Context)
    : (context.runTo context').User := by
  refine ⟨user.cs, user.ss, ?_⟩
  have bits (new old : U64)
      : ((new &&& ~~~keptFlags) ||| (old &&& keptFlags)) &&& keptFlags = old &&& keptFlags := by
    apply BitVec.eq_of_getLsbD_eq
    intro i bound
    simp only [BitVec.getLsbD_and, BitVec.getLsbD_or, BitVec.getLsbD_not, bound, decide_true,
      Bool.true_and]
    cases new.getLsbD i <;> cases old.getLsbD i <;> cases keptFlags.getLsbD i <;> rfl
  exact (bits _ _).trans user.flags

theorem Lab.entered_savedField (lab : Lab) (vector : Fin 256) (error : U64) (scratch : Stack)
    (field : FrameField)
    : (lab.entered vector error scratch).savedField field = entryFrame lab.cpu vector error field :=
  lab.entered_field vector error scratch field

/-- The entered kernel reads the request from the running context. -/
theorem Lab.entered_request (lab : Lab) (vector : Fin 256) (error cr2 : U64) (scratch : Stack)
    : (lab.entered vector error scratch).request vector.val
      = lab.action (.interrupt vector error cr2 scratch) := by
  have number : (lab.entered vector error scratch).savedNumber = lab.cpu.general .rax :=
    lab.entered_savedField vector error scratch (.general .rax)
  have rdi : (lab.entered vector error scratch).savedArguments.rdi = lab.cpu.general .rdi :=
    lab.entered_savedField vector error scratch (.general .rdi)
  rw [Lab.request, number, rdi]
  rfl

namespace InUser

variable {image : List Byte} {lab : Lab}

/-- The kernel's work for an entry from user mode. -/
theorem interruptDispatch_spec (user : InUser image lab) (vector : Fin 256) (error cr2 : U64)
    (scratch : Stack)
    : Outcome (interruptDispatch image (savedAt lab.current) cr2)
        (fun frame middle =>
          Handled image ((lab.entered vector error scratch).request vector.val)
              (lab.entered vector error scratch) frame middle
          ∧ KernelRun image vector.val (lab.entered vector error scratch) middle)
        (StepHalt lab (.interrupt vector error cr2 scratch)) (lab.entered vector error scratch) := by
  have kernel := user.entered vector error scratch
  have dispatched : interruptDispatch image (savedAt lab.current) cr2
        (lab.entered vector error scratch)
      = dispatchVector image vector.val (savedAt lab.current) cr2
          (lab.entered vector error scratch) :=
    interruptDispatch_entered user.running image vector error cr2 scratch
  have number (exception : vector.val ∈ [0, 6, 13, 14])
      : (lab.entered vector error scratch).savedField .vector = BitVec.ofNat 64 vector.val := by
    rw [Lab.entered_savedField, entryFrame, stubNumber, if_pos]
    simp only [List.mem_cons, List.not_mem_nil, or_false] at exception
    omega
  exact .of_eq dispatched (kernel.dispatch_spec number cr2)

/-- An entry runs the kernel once and returns to user mode, or stops. -/
theorem interrupt_spec (user : InUser image lab) (vector : Fin 256) (error cr2 : U64)
    (scratch : Stack)
    : Outcome (labStep image (.interrupt vector error cr2 scratch))
        (fun _ lab' =>
          InUser image lab'
          ∧ TableStep lab.userTable (lab.action (.interrupt vector error cr2 scratch))
              lab'.userTable
          ∧ Stepped image lab (.interrupt vector error cr2 scratch) lab')
        (StepHalt lab (.interrupt vector error cr2 scratch)) lab := by
  have entered := enterKernel_ok user.toSelected vector error scratch
  have opened : labStep image (.interrupt vector error cr2 scratch) lab
      = (interruptDispatch image (savedAt lab.current) cr2 >>= leaveKernel)
          (lab.entered vector error scratch) := by
    rw [labStep, bind_ok entered]
  refine .of_eq opened (.bind (user.interruptDispatch_spec vector error cr2 scratch) ?_)
  intro frame middle both
  obtain ⟨handled, ran⟩ := both
  have left : leaveKernel frame middle = .ok ((), middle.left) := by
    rw [handled.frame]
    exact leaveKernel_ok middle
  refine .of_ok left ⟨handled.kernel.left, ?_, .interrupt ran⟩
  have table := handled.table
  rw [lab.entered_table, lab.entered_request vector error cr2 scratch] at table
  exact (Lab.left_table middle).symm ▸ table

/-- Every event leads from user mode to user mode, by a step of the process table. -/
theorem labStep_spec (user : InUser image lab) (event : LabEvent)
    : Outcome (labStep image event)
        (fun _ lab' =>
          InUser image lab'
          ∧ TableStep lab.userTable (lab.action event) lab'.userTable
          ∧ Stepped image lab event lab')
        (StepHalt lab event) lab := by
  cases event with
  | run context =>
      refine .of_ok rfl ⟨?_, ?_, .run context⟩
      · exact ⟨user.toConsistent.slots rfl fun _ => .refl _, ⟨user.ready, user.root, user.rsp0⟩,
          user.others, user.running.runTo context⟩
      · have step := TableStep.run lab.userTable context
        have running : lab.userTable.running = { lab.taskCurrent.process with context := lab.cpu } :=
          Function.update_self ..
        rw [running] at step
        have table : ({ lab with cpu := lab.cpu.runTo context } : Lab).userTable
            = lab.userTable.set lab.current
                { lab.taskCurrent.process with context := lab.cpu.runTo context } :=
          (lab.table.set_set lab.current _ _).symm
        rw [table]
        exact step
  | store address byte =>
      obtain ⟨consistent, written⟩ := user.toConsistent.userStore user.toSelected address byte
      exact .of_ok rfl ⟨⟨consistent, user.toSelected.userStore written, user.others, user.running⟩,
        .quiet _, .store address byte⟩
  | mark address level bits =>
      obtain ⟨consistent, selected, _⟩ :=
        user.toConsistent.markEntry user.toSelected address level bits
      exact .of_ok rfl ⟨⟨consistent, selected, user.others, user.running⟩, .quiet _,
        .mark address level bits⟩
  | receive byte =>
      exact .of_ok rfl ⟨⟨user.toConsistent.slots rfl fun _ => .refl _,
        ⟨user.ready, user.root, user.rsp0⟩, user.others, user.running⟩, .quiet _, .receive byte⟩
  | interrupt vector error cr2 scratch => exact user.interrupt_spec vector error cr2 scratch

end InUser

-----------------------------------------------------------------------------------------
-- Booting
-----------------------------------------------------------------------------------------

/-- The process table after the boot: only `init`. -/
def ProcessTable.boot : ProcessTable where
  slots := Function.update (fun _ => Task.zero.process) 0 (.fresh 1 .init 0)
  current := 0
  nextPid := 2

/-- The state of `task_start`: initialised memory, no task yet. -/
structure Lab.Bare (lab : Lab) : Prop where
  ready : lab.machine.Ready
  nothing : ∀ address, ¬lab.machine.Outstanding address
  tasks : lab.tasks = fun _ => Task.zero
  current : lab.current = 0
  nextPid : lab.nextPid = 1

theorem pageInit_entries {machine machine' : Machine} {response : MemmapResponse}
    {hhdmOffset : U64}
    (succeeded : pageInit (some response) hhdmOffset machine = .ok (true, machine'))
    : ∃ entries, response.entries = some entries := by
  cases known : response.entries with
  | some entries => exact ⟨entries, rfl⟩
  | none =>
      rw [pageInit, bind_get_apply] at succeeded
      split at succeeded
      · cases succeeded
      · simp only [known] at succeeded
        cases succeeded

/-- Right after `page_init` no frame is allocated. -/
theorem Machine.Initialised.nothing {before after : Machine}
    {entries : List (Option MemmapEntry)} {hhdmOffset : U64}
    (done : before.Initialised after entries hhdmOffset) (address : U64)
    : ¬after.Outstanding address := by
  intro outstanding
  obtain ⟨_, inside, state⟩ := outstanding
  by_cases free : after.IsFree (frameOf address.toNat)
  · have other := free.2
    rw [state] at other
    exact absurd other (by decide)
  · have other := done.unmanaged _ inside free
    rw [state] at other
    exact absurd other (by decide)

/-- The state after the greeting of `kernel_main`. -/
def Lab.greeted (cold : Lab) : Lab :=
  { cold with console := { cold.console with
    com1 := cold.console.com1
      ++ serialBytes (textBytes "MiniLinux LAB: entered kernel_main\n") } }

/-- The state in which `kernel_main` calls `task_start`, on the machine of `page_init`. -/
def Lab.opened (cold : Lab) (info : BootInfo) (machine : Machine) : Lab :=
  { cold.greeted with
    machine := { machine with
      directOffset := info.hhdmOffset, bootRoot := machine.currentRoot } }

theorem Lab.Cold.bare {info : BootInfo} {cold : Lab} {machine : Machine} (start : cold.Cold)
    (guaranteed : info.Guaranteed)
    (paged : pageInit (some info.memmap) info.hhdmOffset cold.machine = .ok (true, machine))
    : (cold.opened info machine).Bare := by
  obtain ⟨entries, known⟩ := pageInit_entries paged
  have response : info.memmap = ⟨some entries⟩ := by
    rw [← known]
  rw [response] at paged
  have done := pageInit_initialised start.fresh (guaranteed.disjoint entries known) paged
  have half := guaranteed.higherHalf
  rw [← done.offset] at half
  have ready : (cold.opened info machine).machine.Ready :=
    { done.wellFormed with higherHalf := half }
  exact ⟨ready, done.nothing, start.tasks, start.current, start.nextPid⟩

/-- `kernel_main` after its greeting. -/
theorem kernelMain_eq (image : List Byte) (info : BootInfo) (cold : Lab)
    : kernelMain image info cold
      = (do
          let ok ← onMachine (pageInit (some info.memmap) info.hhdmOffset)
          if ok then do
            onMachine (vmInit info.cr4 info.hhdmOffset)
            taskStart image
          else halt (.panic "physical page initialization failed") : LabM Unit) cold.greeted :=
  rfl

/-- What the kernel does before `task_start`. -/
theorem kernelMain_bare {image : List Byte} {info : BootInfo} {cold lab : Lab}
    (booted : kernelMain image info cold = .ok ((), lab)) (start : cold.Cold)
    (guaranteed : info.Guaranteed)
    : ∃ machine,
        pageInit (some info.memmap) info.hhdmOffset cold.machine = .ok (true, machine)
        ∧ (cold.opened info machine).Bare
        ∧ taskStart image (cold.opened info machine) = .ok ((), lab) := by
  rw [kernelMain_eq] at booted
  obtain ⟨ok, paged, initialised, booted⟩ := bind_eq_ok.mp booted
  cases ok with
  | false => cases booted
  | true =>
      simp only [if_true] at booted
      obtain ⟨_, mapped, prepared, started⟩ := bind_eq_ok.mp booted
      unfold onMachine onComponent at initialised
      split at initialised
      · next value machine returned =>
          cases initialised
          have shape : mapped = cold.opened info machine := by
            unfold onMachine onComponent vmInit at prepared
            split at prepared
            · next value component returned =>
                split at returned
                · cases returned
                · cases returned
                  cases prepared
                  rfl
            · cases prepared
          subst shape
          exact ⟨machine, returned, start.bare guaranteed returned, started⟩
      · cases initialised

/-- The first task is the only one, and is suspended. -/
theorem Spawned.booted {image : List Byte} {bare spawned : Lab} {records : List TraceRecord}
    (start : bare.Bare) (sized : Sized image)
    (built : Spawned image .init 0 0 (bare.traced records) spawned)
    : AllSuspended image (fun index => index = 0 ∨ False) spawned
      ∧ (spawned.tasks 0).state = .ready := by
  obtain ⟨machine, task, shape⟩ := built.confined
  obtain ⟨privateSpace, pages, dataPage, here⟩ := built.task
  have others (index : TaskIndex) (different : index ≠ 0) : spawned.tasks index = Task.zero := by
    rw [shape]
    refine (Function.update_of_ne different ..).trans ?_
    exact congrFun start.tasks index
  have zero : (bare.traced records).tasks = fun _ => Task.zero := start.tasks
  have bare' : Partition image (fun _ => False) (bare.traced records) := by
    refine ⟨start.ready, ?_, fun _ impossible => impossible.elim, fun index _ => ?_⟩
    · rw [zero]
      exact .empty start.nothing
    · rw [zero]
      exact ⟨rfl, rfl⟩
  have partition : Partition image (fun index => index = 0 ∨ False) spawned :=
    bare'.grant id built.takes
      (fun index different => by rw [others index different, zero]; exact .refl _) built.formed
  have dead (index : TaskIndex) (different : index ≠ 0) : ¬(spawned.tasks index).Live := by
    rw [others index different]
    simp [Task.Live, Task.zero]
  have only (index : TaskIndex) (live : (spawned.tasks index).Live) : index = 0 := by
    by_contra different
    exact dead index different live
  refine ⟨⟨⟨sized, partition, ?_, ?_⟩, fun index live => Or.inl (only index live), ?_⟩, ?_⟩
  · intro index descriptor
    have unused : ((spawned.tasks index).files descriptor).used = false := by
      rcases eq_or_ne index 0 with same | different
      · rw [same, here]
        rfl
      · rw [others index different]
        rfl
    exact fun used => by cases unused.symm.trans used
  · intro index live
    rw [only index live, here]
  · intro index live
    rw [only index live, here]
    refine ⟨rfl, ?_⟩
    rw [Task.context]
    exact (writeInitialFrame_context _ _).symm ▸ initialContext_user
  · rw [here]

/-- The kernel starts `init`. -/
theorem taskStart_booted {image : List Byte} {bare lab : Lab}
    (started : taskStart image bare = .ok ((), lab)) (start : bare.Bare)
    : InUser image lab
      ∧ lab.userTable = .boot
      ∧ ∃ spawned,
          Spawned image .init 0 0
            (bare.traced
              [⟨"boot", bare.ticks, [.text "LAB", .text "x86_64", .text "100", .text "8"]⟩])
            spawned
          ∧ lab = (spawned.selected 0).left := by
  unfold taskStart at started
  rw [branch_apply] at started
  split at started
  · cases started
  · next fits =>
      have sized : Sized image := by
        obtain ⟨positive, small⟩ := not_or.mp fits
        exact ⟨Nat.pos_of_ne_zero positive, not_lt.mp small⟩
      let booting : Lab := bare.traced
        [⟨"boot", bare.ticks, [.text "LAB", .text "x86_64", .text "100", .text "8"]⟩]
      have reported := event_reports "boot"
        [.text "LAB", .text "x86_64", .text "100", .text "8"] bare
      rw [bind_ok reported] at started
      have free : booting.freeTask = some 0 := by
        unfold Lab.freeTask
        have unused (index : TaskIndex) : (booting.tasks index).state = .unused := by
          change (bare.tasks index).state = _
          rw [start.tasks]
          rfl
        simp only [unused, decide_true]
        decide
      have claimed : (booting.claimed 0 .init 0).tasks 0 = Task.named booting.nextPid .init 0 :=
        Lab.withTask_self ..
      obtain ⟨ok, middle, prepared, success, _⟩ :=
        @prepare_spec image 0 (booting.claimed 0 .init 0) sized start.ready
          (by rw [claimed]; rfl) (by rw [claimed]; rfl)
      have called : spawn image .init 0 booting = spawnAt image 0 .init 0 booting := by
        rw [spawn, bind_get_apply, free]
      obtain ⟨id, served, result, started⟩ := bind_eq_ok.mp started
      rw [show bare.traced _ = booting from rfl, called] at result
      cases ok with
      | false =>
          have failed : id = -5 := by
            rw [spawnAt_eq, bind_ok prepared] at result
            simp only [Bool.false_eq_true, if_false] at result
            obtain ⟨_, _, _, result⟩ := bind_eq_ok.mp result
            obtain ⟨_, _, _, result⟩ := bind_eq_ok.mp result
            cases result
            rfl
          subst failed
          rw [branch_apply, if_pos (by decide)] at started
          cases started
      | true =>
          have bootReady : booting.machine.Ready := start.ready
          obtain ⟨served', result', spawned⟩ := (success rfl).spawned sized bootReady prepared
          cases result.symm.trans result'
          have first : wide booting.nextPid = 1 := by
            rw [show booting.nextPid = 1 from start.nextPid]
            rfl
          rw [branch_apply, if_neg (not_not.mpr first)] at started
          obtain ⟨all, ready⟩ := spawned.booted start sized
          have kernel := all.inKernel
            (fun index owns => Or.inl (by rw [owns.resolve_right not_false]; exact ready)) ready
          have left : leaveKernel (some (savedAt 0)) (served.selected 0)
              = .ok ((), (served.selected 0).left) :=
            leaveKernel_ok (served.selected 0)
          have finished := started.symm.trans
            ((bind_ok (all.select ready).1 _).trans left)
          cases finished
          refine ⟨kernel.left, ?_, served, spawned, rfl⟩
          refine (Lab.left_table _).trans ?_
          have table : (served.selected 0).table = { served.table with current := 0 } := rfl
          rw [table, spawned.table]
          have slots : booting.table.slots = fun _ => Task.zero.process := by
            change (fun index => (bare.tasks index).process) = _
            rw [start.tasks]
          have pid : booting.table.nextPid = 1 := start.nextPid
          unfold ProcessTable.set ProcessTable.boot
          rw [slots, pid]
          rfl

-----------------------------------------------------------------------------------------
-- Reachable states
-----------------------------------------------------------------------------------------

/-- How many process numbers a step has used up; a spawn that fails also takes one. -/
def Lab.numbersTo (lab lab' : Lab) : Nat := if lab'.nextPid = lab.nextPid then 0 else 1

/-- The states after some number of spawns, that of `init` not counted. -/
inductive ReachableAfter (image : List Byte) (info : BootInfo) : Nat → Lab → Prop
  | boot {cold lab : Lab} (booted : kernelMain image info cold = .ok ((), lab))
      (start : cold.Cold)
      : ReachableAfter image info 0 lab
  | step {spawns : Nat} {lab lab' : Lab} (event : LabEvent)
      (reached : ReachableAfter image info spawns lab)
      (stepped : labStep image event lab = .ok ((), lab'))
      : ReachableAfter image info (spawns + lab.numbersTo lab') lab'

section Reachable

variable {image : List Byte} {info : BootInfo} {lab : Lab}

theorem ReachableAfter.reachable {spawns : Nat} (reached : ReachableAfter image info spawns lab)
    : Reachable image info lab := by
  induction reached with
  | boot booted start => exact .boot booted start
  | step event _ stepped ih => exact .step event ih stepped

theorem Reachable.counted (reached : Reachable image info lab)
    : ∃ spawns, ReachableAfter image info spawns lab := by
  induction reached with
  | boot booted start => exact ⟨0, .boot booted start⟩
  | step event _ stepped ih =>
      obtain ⟨spawns, reached⟩ := ih
      exact ⟨_, .step event reached stepped⟩

/-- Every reachable state is in order. Witness: induction on the run. -/
theorem Reachable.user (reached : Reachable image info lab) (guaranteed : info.Guaranteed)
    : InUser image lab := by
  induction reached with
  | boot booted start =>
      obtain ⟨_, _, start', started⟩ := kernelMain_bare booted start guaranteed
      exact (taskStart_booted started start').1
  | step event _ stepped ih => exact ((ih.labStep_spec event).ok stepped).1

end Reachable

end MiniLinux
