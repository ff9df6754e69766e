import MiniLinux.Laboratory.RoundRobin
import MiniLinux.Laboratory.SlotSteps

/-! What a program finds in its registers when it runs again.
An entry saves them in the frame of its task, where only an answer to that task changes `rax`, and
the exit code restores them; a new task starts with the frame that was built for it.
-/

namespace MiniLinux

open Foundation Foundation.Halting

/-- A result in `rax`, and all else as before. -/
def Context.answered (context : Context) (result : U64) : Context :=
  { context with general := Function.update context.general .rax result }

/-- What a call that entered at `lab` returns when its task runs again, at the end of a stretch that
the entry began at `lab'`.
-/
inductive Lab.CallResult (image : List Byte) (lab entered lab' : Lab) : U64 → Prop
  | immediate {result : U64} {served : Lab}
      (notWait : Syscall.ofNumber (lab.cpu.general .rax) ≠ some .wait)
      (returned
        : syscallResult image lab.arguments (Syscall.ofNumber (lab.cpu.general .rax)) entered
          = .ok (result, served))
      : CallResult image lab entered lab' result
  | noChild (waits : Syscall.ofNumber (lab.cpu.general .rax) = some .wait)
      (none : lab.userTable.child (lab.cpu.general .rdi) = none)
      : CallResult image lab entered lab' (-3)
  | collected {index : TaskIndex} (waits : Syscall.ofNumber (lab.cpu.general .rax) = some .wait)
      (found : lab.userTable.child (lab.cpu.general .rdi) = some index)
      (exited : (lab.tasks index).state = .exited)
      : CallResult image lab entered lab' (lab.tasks index).status
  | woken {index : TaskIndex} {status : U64} {before after : Lab} {event : LabEvent}
      (waits : Syscall.ofNumber (lab.cpu.general .rax) = some .wait)
      (found : lab.userTable.child (lab.cpu.general .rdi) = some index)
      (living : (lab.tasks index).state ≠ .exited)
      (away : Lab.Away image lab.current lab' before)
      (ends : before.action event = .terminate status)
      (child
        : (before.tasks before.current).parent = (lab.tasks lab.current).id
          ∧ (before.tasks before.current).id = (lab.cpu.general .rdi).setWidth 32)
      (stepped : labStep image event before = .ok ((), after))
      : CallResult image lab entered lab' status

section Entry

variable {image : List Byte} {lab lab' later : Lab}

/-- A task that runs is not away. -/
theorem Lab.Away.running {index : TaskIndex} (away : Lab.Away image index lab later)
    (here : lab.current = index)
    : later = lab := by
  rcases Relation.ReflTransGen.cases_head away with same | ⟨_, beside, _⟩
  · exact same.symm
  · exact absurd here beside.1

/-- The processor holds the registers of the current process. -/
theorem Lab.cpu_eq (lab : Lab) : lab.cpu = (lab.userTable.slots lab.current).context :=
  (congrArg Process.context lab.userTable_running).symm

/-- The calls but two return a result to their caller, whose registers they do not touch. -/
theorem InKernel.syscallResult_returns (kernel : InKernel image lab)
    (notWait : Syscall.ofNumber lab.savedNumber ≠ some .wait)
    (notExit : Syscall.ofNumber lab.savedNumber ≠ some .exit)
    : ∃ value served,
        syscallResult image lab.savedArguments (Syscall.ofNumber lab.savedNumber) lab
          = .ok (value, served)
        ∧ served.current = lab.current
        ∧ served.taskCurrent.context = lab.taskCurrent.context := by
  by_cases spawns : Syscall.ofNumber lab.savedNumber = some .spawn
  · obtain ⟨value, served, result, called⟩ := kernel.sysSpawn_spec lab.savedArguments
    refine ⟨value, served, spawns ▸ result, called.current, ?_⟩
    have beside {index : TaskIndex} {process : Process} {next : U32}
        (free : lab.freeTask = some index)
        (table : served.table = { lab.table.set index process with nextPid := next })
        : served.taskCurrent.context = lab.taskCurrent.context := by
      have apart := (kernel.unused_apart (Lab.freeTask_unused free)).1
      have running : served.table.running = lab.table.running := by
        rw [table]
        exact Function.update_of_ne (Ne.symm apart) ..
      exact congrArg Process.context running
    cases called with
    | forbidden | full => rfl
    | failed permitted free failed => exact beside free failed.table
    | spawned permitted free spawned => exact beside free spawned.table
  · obtain ⟨value, served, result, called⟩ :=
      @syscallResult_spec image lab lab.savedArguments kernel.toConsistent kernel.toSelected _
        ⟨spawns, notWait, notExit⟩
    refine ⟨value, served, result, called.current, ?_⟩
    have running : served.table.running
        = { lab.table.running with files := served.taskCurrent.files } := by
      rw [ProcessTable.running, called.table]
      exact ProcessTable.set_here ..
    exact congrArg Process.context running

/-- An immediate call returns to its caller with its result. -/
theorem InUser.call_returns (user : InUser image lab) {error cr2 : U64} {scratch : Stack}
    (notWait : Syscall.ofNumber (lab.cpu.general .rax) ≠ some .wait)
    (notExit : Syscall.ofNumber (lab.cpu.general .rax) ≠ some .exit)
    (stepped : labStep image (.interrupt 128 error cr2 scratch) lab = .ok ((), lab'))
    : lab'.current = lab.current
      ∧ ∃ result served,
          syscallResult image lab.arguments (Syscall.ofNumber (lab.cpu.general .rax))
              (lab.entered 128 error scratch)
            = .ok (result, served)
          ∧ lab'.cpu = lab.cpu.answered result := by
  have kernel := user.entered 128 error scratch
  have number : (lab.entered 128 error scratch).savedNumber = lab.cpu.general .rax :=
    lab.entered_savedField 128 error scratch (.general .rax)
  rw [← number] at notWait notExit
  obtain ⟨value, served, result, current, context⟩ :=
    kernel.syscallResult_returns notWait notExit
  have dispatched := interruptDispatch_entered user.running image 128 error cr2 scratch
  have called := kernel.syscallDispatch_result notWait notExit
  rw [bind_ok result] at called
  have finished := finishSyscall_ok served (lab.entered 128 error scratch).taskCurrent.id
    (lab.entered 128 error scratch).savedNumber (lab.entered 128 error scratch).savedArguments value
  rw [current] at finished
  have returned : labStep image (.interrupt 128 error cr2 scratch) lab
      = .ok ((), (served.finished (lab.entered 128 error scratch).taskCurrent.id
          (lab.entered 128 error scratch).savedNumber
          (lab.entered 128 error scratch).savedArguments value).left) := by
    rw [labStep, bind_ok (enterKernel_ok user.toSelected 128 error scratch)]
    rw [bind_ok (dispatched.trans (called.trans finished)), ← current]
    exact leaveKernel_ok _
  cases stepped.symm.trans returned
  refine ⟨current, value, served, ?_, ?_⟩
  · rw [← number, ← lab.entered_arguments 128 error scratch]
    exact result
  · refine (Lab.finished_context served _ _ _ value).trans ?_
    rw [context]
    exact congrArg (Context.answered · value) (lab.entered_context 128 error scratch)

/-- A wait returns to its caller, at once or when the child has ended. -/
theorem InUser.wait_returns (user : InUser image lab) {event : LabEvent} (entered : Lab)
    (waits : Syscall.ofNumber (lab.cpu.general .rax) = some .wait)
    (action : lab.action event = .wait (lab.cpu.general .rdi))
    (stepped : labStep image event lab = .ok ((), lab'))
    (away : Lab.Away image lab.current lab' later) (back : later.current = lab.current)
    : ∃ result,
        Lab.CallResult image lab entered lab' result ∧ later.cpu = lab.cpu.answered result := by
  obtain ⟨user', step⟩ := user.step stepped
  have running : later.cpu = (later.userTable.slots lab.current).context := back ▸ later.cpu_eq
  have caller := lab.userTable_running
  have here : lab.userTable.current = lab.current := rfl
  have answer (value : U64) (table : lab'.userTable.slots lab.current
      = lab.userTable.running.reply value) (current : lab'.current = lab.current)
      : later.cpu = lab.cpu.answered value := by
    rw [running, away.running current, table, caller]
    rfl
  rw [action] at step
  generalize same : lab'.userTable = table' at step
  cases step with
  | waitRefused none =>
      refine ⟨-3, .noChild waits none, answer (-3) ?_ (congrArg ProcessTable.current same)⟩
      rw [same]
      exact ProcessTable.set_here ..
  | @collected _ index found exited =>
      obtain ⟨context, slot⟩ := lab.userTable_slot index
      rw [slot] at exited
      have apart : index ≠ lab.current := by
        rintro rfl
        cases user.ready.symm.trans exited
      refine ⟨_, .collected waits found exited, answer _ ?_ (congrArg ProcessTable.current same)⟩
      rw [same, ProcessTable.collected, ProcessTable.set_other _ (Ne.symm apart), slot]
      exact ProcessTable.set_here ..
  | @blocked _ index next found living chosen =>
      obtain ⟨context, slot⟩ := lab.userTable_slot index
      rw [slot] at living
      have blocked : lab'.userTable.slots lab.current
          = { lab.userTable.running with
              state := .waiting, waitingFor := (lab.cpu.general .rdi).setWidth 32 } := by
        rw [same]
        exact ProcessTable.set_here ..
      have waiting : (lab'.userTable.slots lab.current).state = .waiting := by
        rw [blocked]
      rcases user'.away_waiting away waiting with stays | ⟨status, wakes⟩
      · have ready := (user'.away away).ready
        rw [back, ← later.userTable_state, stays, waiting] at ready
        cases ready
      · obtain ⟨before, event', after, away', stays, ends, awaits, stepped', _⟩ := wakes.ends
        obtain ⟨parent, _, number⟩ := awaits
        rw [stays, blocked, before.userTable_running, caller] at parent number
        refine ⟨status, .woken waits found living away' ends ⟨parent.symm, number.symm⟩ stepped', ?_⟩
        rw [running, wakes.slot, blocked, caller]
        rfl

/-- An entry that ends nobody and asks for nothing leaves the registers as they are. -/
theorem InUser.interrupt_returns (user : InUser image lab) {event : LabEvent}
    (action : lab.action event = .tick) (stepped : labStep image event lab = .ok ((), lab'))
    (away : Lab.Away image lab.current lab' later) (back : later.current = lab.current)
    : later.cpu = lab.cpu := by
  obtain ⟨user', step⟩ := user.step stepped
  have slot : lab'.userTable.slots lab.current = lab.userTable.running := by
    rw [action] at step
    generalize lab'.userTable = table' at step
    cases step with
    | tick chosen => rfl
  have ready : (lab'.userTable.slots lab.current).state = .ready := by
    rw [slot, lab.userTable_running]
    exact user.ready
  rw [later.cpu_eq, back, user'.away_ready away ready, slot, lab.userTable_running]

/-- What a call asks of the kernel. -/
theorem Lab.action_call (lab : Lab) (error cr2 : U64) (scratch : Stack)
    : lab.action (.interrupt 128 error cr2 scratch)
      = match Syscall.ofNumber (lab.cpu.general .rax) with
        | some .wait => .wait (lab.cpu.general .rdi)
        | some .exit => .terminate (lab.cpu.general .rdi)
        | some .spawn => .spawn (lab.cpu.general .rdi)
        | _ => .call :=
  rfl

/-- What an entry finds in the registers is there when its task runs again, but for the result of
a call.
-/
theorem InUser.entry_returns (user : InUser image lab) {vector : Fin 256} {error cr2 : U64}
    {scratch : Stack}
    (survives : ∀ status, lab.action (.interrupt vector error cr2 scratch) ≠ .terminate status)
    (stepped : labStep image (.interrupt vector error cr2 scratch) lab = .ok ((), lab'))
    (away : Lab.Away image lab.current lab' later) (back : later.current = lab.current)
    : (vector.val ≠ 128 → later.cpu = lab.cpu)
      ∧ (vector.val = 128 → ∃ result,
          Lab.CallResult image lab (lab.entered vector error scratch) lab' result
          ∧ later.cpu = lab.cpu.answered result) := by
  constructor
  · intro other
    refine user.interrupt_returns ?_ stepped away back
    have action := survives (128 + BitVec.ofNat 64 vector.val)
    rw [Lab.action, if_neg other] at action ⊢
    by_cases exception : vector.val ∈ [0, 6, 13, 14]
    · rw [if_pos exception] at action
      exact absurd rfl action
    · rw [if_neg exception]
  · intro call
    obtain rfl : vector = 128 := Fin.ext call
    by_cases waits : Syscall.ofNumber (lab.cpu.general .rax) = some .wait
    · have action : lab.action (.interrupt 128 error cr2 scratch) = .wait (lab.cpu.general .rdi) := by
        rw [lab.action_call, waits]
      exact user.wait_returns _ waits action stepped away back
    · have notExit : Syscall.ofNumber (lab.cpu.general .rax) ≠ some .exit := by
        intro exits
        refine survives (lab.cpu.general .rdi) ?_
        rw [lab.action_call, exits]
      obtain ⟨current, result, served, returned, cpu⟩ := user.call_returns waits notExit stepped
      refine ⟨result, .immediate waits returned, ?_⟩
      rw [away.running current]
      exact cpu

/-- A task that was brought into a slot is ready, with its first frame. -/
theorem InUser.new_task_ready (user : InUser image lab) {event : LabEvent} {index : TaskIndex}
    (stepped : labStep image event lab = .ok ((), lab'))
    (free : (lab.tasks index).state = .unused) (born : (lab'.tasks index).state ≠ .unused)
    : (lab'.userTable.slots index).state = .ready
      ∧ (lab'.userTable.slots index).context = initialContext := by
  have different : lab.current ≠ index := by
    rintro rfl
    cases user.ready.symm.trans free
  have before : (lab.userTable.slots index).state = .unused := (lab.userTable_state index).trans free
  have after : (lab'.userTable.slots index).state ≠ .unused := by
    rw [lab'.userTable_state]
    exact born
  have slot := user.slot stepped different
  generalize lab'.userTable.slots index = process at slot after ⊢
  cases slot with
  | kept => exact absurd before after
  | filled spawns free made =>
      rcases made with unused | ⟨program, _, rfl⟩
      · exact absurd unused after
      · exact ⟨rfl, rfl⟩
  | collected waits found exited => cases before.symm.trans exited
  | woken terminates awaits => cases before.symm.trans awaits.2.1

/-- It starts with this frame. -/
theorem InUser.new_task_starts (user : InUser image lab) {event : LabEvent} {index : TaskIndex}
    (stepped : labStep image event lab = .ok ((), lab'))
    (free : (lab.tasks index).state = .unused) (born : (lab'.tasks index).state ≠ .unused)
    (away : Lab.Away image index lab' later) (here : later.current = index)
    : later.cpu = initialContext := by
  obtain ⟨ready, context⟩ := user.new_task_ready stepped free born
  rw [later.cpu_eq, here, (user.step stepped).1.away_ready away ready, context]

end Entry

/-- The context of user code: its segments, and interrupts on. -/
theorem Context.User.enabled {context : Context} (user : context.User)
    : context.rflags &&& 0x200 = 0x200 := by
  have within : keptFlags &&& 0x200 = 0x200 := by decide
  calc context.rflags &&& 0x200 = context.rflags &&& (keptFlags &&& 0x200) := by rw [within]
    _ = context.rflags &&& keptFlags &&& 0x200 := (BitVec.and_assoc ..).symm
    _ = 0x200 &&& 0x200 := by rw [user.flags]
    _ = 0x200 := by decide

/-- The registers over a whole run: a task goes on with those of its last entry, where a call has its
result in `rax`; a new task starts with its first frame; and user code always runs with its own
segments and with interrupts on.
-/
theorem user_contexts_are_preserved {image : List Byte} {info : BootInfo} {lab : Lab}
    (reached : Reachable image info lab) (guaranteed : info.Guaranteed)
    : (lab.cpu.cs = 0x23 ∧ lab.cpu.ss = 0x1b ∧ lab.cpu.rflags &&& 0x200 = 0x200)
      ∧ (∀ cold, cold.Cold → kernelMain image info cold = .ok ((), lab) → lab.cpu = initialContext)
      ∧ (∀ vector error cr2 scratch lab' later,
          (∀ status, lab.action (.interrupt vector error cr2 scratch) ≠ .terminate status)
          → labStep image (.interrupt vector error cr2 scratch) lab = .ok ((), lab')
          → Lab.Away image lab.current lab' later
          → later.current = lab.current
          → (vector.val ≠ 128 → later.cpu = lab.cpu)
            ∧ (vector.val = 128 → ∃ result,
                Lab.CallResult image lab (lab.entered vector error scratch) lab' result
                ∧ later.cpu = lab.cpu.answered result))
      ∧ ∀ event index lab' later,
          labStep image event lab = .ok ((), lab')
          → (lab.tasks index).state = .unused
          → (lab'.tasks index).state ≠ .unused
          → Lab.Away image index lab' later
          → later.current = index
          → later.cpu = initialContext := by
  have user := reached.user guaranteed
  refine ⟨⟨user.running.cs, user.running.ss, user.running.enabled⟩, ?_, ?_, ?_⟩
  · intro cold start booted
    obtain ⟨_, _, bare, started⟩ := kernelMain_bare booted start guaranteed
    have table := (taskStart_booted started bare).2.1
    rw [lab.cpu_eq, table, show lab.current = 0 from congrArg ProcessTable.current table]
    rfl
  · exact fun vector error cr2 scratch lab' later survives stepped away back =>
      user.entry_returns survives stepped away back
  · exact fun event index lab' later stepped free born away here =>
      user.new_task_starts stepped free born away here

/-- In the sample the timer lets the shell's child run, which changes its own registers, and then
the shell again. Another time the shell waits for the child, which ends.
-/
theorem user_contexts_are_preserved_in_sample
    : (∃ lab middle later,
        Reachable sampleImage sampleInfo lab
        ∧ labStep sampleImage (.interrupt 32 0 0 fun _ => 0) lab = .ok ((), middle)
        ∧ middle.current ≠ lab.current
        ∧ labStep sampleImage (.interrupt 32 0 0 fun _ => 0) (middle.calling 1 2) = .ok ((), later)
        ∧ later.current = lab.current
        ∧ later.cpu = lab.cpu)
      ∧ ∃ lab middle later result,
          Reachable sampleImage sampleInfo lab
          ∧ Syscall.ofNumber (lab.cpu.general .rax) = some .wait
          ∧ labStep sampleImage (.interrupt 128 0 0 fun _ => 0) lab = .ok ((), middle)
          ∧ middle.current ≠ lab.current
          ∧ labStep sampleImage (.interrupt 128 0 0 fun _ => 0) (middle.calling 4 7) = .ok ((), later)
          ∧ later.current = lab.current
          ∧ Lab.CallResult sampleImage lab (lab.entered 128 0 fun _ => 0) middle result
          ∧ later.cpu = lab.cpu.answered result := by
  obtain ⟨lab, shell, child, reached, runs⟩ := sample_shell_runs
  have user := reached.reachable.user sample_guaranteed
  have current : lab.current = shell := runs.current
  constructor
  · obtain ⟨middle, stepped, table⟩ :=
      user.switches runs.born.state (current ▸ runs.apart.2.2) (current ▸ runs.ready) 0 0 fun _ => 0
    have here : middle.current = child := congrArg ProcessTable.current table
    have away : middle.current ≠ lab.current := by
      rw [here, current]
      exact runs.apart.2.2
    have slots (index : TaskIndex)
        : ((middle.calling 1 2).userTable.slots index).state
          = (lab.userTable.slots index).state := by
      rw [(middle.calling_role 1 2 index).state, table]
    have reached₁ : Reachable sampleImage sampleInfo middle := reached.reachable.step _ stepped
    have reached₂ : Reachable sampleImage sampleInfo (middle.calling 1 2) :=
      reached₁.step (.run (callingContext 1 2)) rfl
    obtain ⟨later, stepped', table'⟩ :=
      (reached₂.user sample_guaranteed).switches ((slots shell).trans runs.shellReady.state)
        (fun same => away (current.trans same).symm)
        (fun index ready => by
          rw [slots] at ready
          exact (runs.ready index ready).symm.imp (·.trans here.symm) id) 0 0 fun _ => 0
    have back : later.current = lab.current :=
      (congrArg ProcessTable.current table').trans current.symm
    have gone : Lab.Away sampleImage lab.current middle later :=
      .tail (.single ⟨away, .run (callingContext 1 2), rfl⟩)
        ⟨away, .interrupt 32 0 0 fun _ => 0, stepped'⟩
    have kept := (user_contexts_are_preserved reached.reachable sample_guaranteed).2.2.1 _ _ _ _ _ _
      (fun _ => by simp [Lab.action]) stepped gone back
    exact ⟨lab, middle, later, reached.reachable, stepped, away, stepped', back, kept.1 (by decide)⟩
  · obtain ⟨middle, stepped, reached₁, runs₁, _⟩ :=
      reached.child_runs sample_guaranteed (by decide) runs
    obtain ⟨later, stepped', _, table⟩ :=
      reached₁.child_exits sample_guaranteed runs₁ (by decide) 7
    have here : middle.current = child := runs₁.current
    have away : middle.current ≠ lab.current := by
      rw [here, current]
      exact runs.apart.2.2
    have back : later.current = lab.current :=
      (congrArg ProcessTable.current table).trans current.symm
    have gone : Lab.Away sampleImage lab.current middle later :=
      .tail (.single ⟨away, .run (callingContext 4 7), rfl⟩)
        ⟨away, .interrupt 128 0 0 fun _ => 0, stepped'⟩
    have waiting := reached.calling 10 3
    have waits : Syscall.ofNumber ((lab.calling 10 3).cpu.general .rax) = some .wait := rfl
    have kept := (user_contexts_are_preserved waiting.reachable sample_guaranteed).2.2.1 _ _ _ _ _ _
      (fun _ => by rw [Lab.action_call, waits]; simp) stepped gone back
    obtain ⟨result, returned, cpu⟩ := kept.2 rfl
    exact ⟨lab.calling 10 3, middle, later, result, waiting.reachable, waits, stepped, away, stepped',
      back, returned, cpu⟩

end MiniLinux
