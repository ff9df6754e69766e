import MiniLinux.Memory.PageRuns
import MiniLinux.Laboratory.Scheduling
import MiniLinux.Laboratory.SpawnCalls

/-! The laboratory starts: what memory is enough to boot, and to run a shell and its first child. -/

namespace MiniLinux

open Foundation Foundation.Halting

section Boot

variable {image : List Byte} {info : BootInfo} {cold bare : Lab}

/-- The state in which `task_start` spawns `init`. -/
def Lab.bootSpawn (bare : Lab) : Lab :=
  bare.traced [⟨"boot", bare.ticks, [.text "LAB", .text "x86_64", .text "100", .text "8"]⟩]

/-- `task_start` builds `init` in the first slot. -/
theorem taskStart_eq (start : bare.Bare) (sized : Sized image)
    : taskStart image bare
      = (do
          let id ← spawnAt image 0 .init 0
          if id ≠ 1 then halt (.panic "LAB init creation failed")
          else do
            let frame ← selectTask 0
            leaveKernel frame : LabM Unit) bare.bootSpawn := by
  have fits : ¬(image.length = 0 ∨ image.length > 16 * pageSize) := by
    obtain ⟨positive, small⟩ := sized
    exact not_or.mpr ⟨Nat.ne_of_gt positive, Nat.not_lt.mpr small⟩
  have reported := event_reports "boot"
    [.text "LAB", .text "x86_64", .text "100", .text "8"] bare
  have tasks : bare.bootSpawn.tasks = fun _ => Task.zero := start.tasks
  have free : bare.bootSpawn.freeTask = some 0 := by
    simp only [Lab.freeTask, tasks]
    decide
  have called : spawn image .init 0 bare.bootSpawn = spawnAt image 0 .init 0 bare.bootSpawn := by
    rw [spawn, bind_get_apply, free]
  unfold taskStart
  rw [branch_apply, if_neg fits, bind_ok reported, bind_apply, bind_apply,
    show bare.traced _ = bare.bootSpawn from rfl, called]

theorem Lab.bootSpawn_claimed (bare : Lab)
    : ((bare.bootSpawn.claimed 0 .init 0).tasks 0).privateSpace = .zero
      ∧ ((bare.bootSpawn.claimed 0 .init 0).tasks 0).pages = [] := by
  have claimed : (bare.bootSpawn.claimed 0 .init 0).tasks 0
      = Task.named bare.bootSpawn.nextPid .init 0 :=
    Lab.withTask_self ..
  rw [claimed]
  exact ⟨rfl, rfl⟩

/-- A built `init` is started. -/
theorem Spawned.starts (start : bare.Bare) (sized : Sized image) {served : Lab}
    (result : spawnAt image 0 .init 0 bare.bootSpawn = .ok (wide bare.bootSpawn.nextPid, served))
    (spawned : Spawned image .init 0 0 bare.bootSpawn served)
    : ∃ lab, taskStart image bare = .ok ((), lab) := by
  have first : wide bare.bootSpawn.nextPid = 1 := by
    rw [show bare.bootSpawn.nextPid = 1 from start.nextPid]
    rfl
  obtain ⟨all, runs⟩ := spawned.booted start sized
  have left : leaveKernel (some (savedAt 0)) (served.selected 0)
      = .ok ((), (served.selected 0).left) :=
    leaveKernel_ok (served.selected 0)
  refine ⟨(served.selected 0).left, ?_⟩
  rw [taskStart_eq start sized]
  refine (bind_ok result _).trans ?_
  rw [branch_apply, if_neg (not_not.mpr first)]
  exact (bind_ok (all.select runs).1 _).trans left

/-- `init` is built where its frames are free. -/
theorem taskStart_starts (start : bare.Bare) (sized : Sized image)
    (enough : codePages image + 9 ≤ bare.machine.pages.freeCount.toNat)
    : ∃ lab, taskStart image bare = .ok ((), lab) := by
  have ready : bare.bootSpawn.machine.Ready := start.ready
  obtain ⟨empty, unpaged⟩ := Lab.bootSpawn_claimed bare
  obtain ⟨ok, middle, prepared, success, failure⟩ :=
    @prepare_spec image 0 (bare.bootSpawn.claimed 0 .init 0) sized ready empty unpaged
  cases ok with
  | false =>
      have stuck := failure rfl
      have counted := stuck.takes.counted
      have few := stuck.few
      rw [stuck.exhausted] at counted
      change (0 : U64).toNat + _ = bare.machine.pages.freeCount.toNat at counted
      rw [taskFrames_eq] at few
      have nothing : (0 : U64).toNat = 0 := rfl
      omega
  | true =>
      obtain ⟨served, result, spawned⟩ := (success rfl).spawned sized ready prepared
      exact spawned.starts start sized result

/-- `task_start` stops only where `init` does not fit. The tables that the bootloader left active
must not be free frames, or a failed spawn might be given them.
-/
theorem taskStart_halts (start : bare.Bare) (sized : Sized image)
    (active : ¬bare.machine.IsFree (frameOf bare.machine.currentRoot.toNat)) {reason : Halt}
    (halted : taskStart image bare = .error reason)
    : reason = .panic "LAB init creation failed" := by
  have ready : bare.bootSpawn.machine.Ready := start.ready
  obtain ⟨empty, unpaged⟩ := Lab.bootSpawn_claimed bare
  obtain ⟨ok, middle, prepared, success, failure⟩ :=
    @prepare_spec image 0 (bare.bootSpawn.claimed 0 .init 0) sized ready empty unpaged
  cases ok with
  | false =>
      obtain ⟨served, result, _⟩ := (failure rfl).failed prepared ready active
      rw [taskStart_eq start sized, bind_ok result, branch_apply, if_pos (by decide)] at halted
      cases halted
      rfl
  | true =>
      obtain ⟨served, result, spawned⟩ := (success rfl).spawned sized ready prepared
      obtain ⟨lab, started⟩ := spawned.starts start sized result
      cases halted.symm.trans started

/-- The kernel boots on memory that holds the frames of `init`. -/
theorem kernelMain_boots {machine : Machine} (start : cold.Cold) (guaranteed : info.Guaranteed)
    (paging : info.cr4 &&& 0x1000 = 0) (sized : Sized image)
    (paged : pageInit (some info.memmap) info.hhdmOffset cold.machine = .ok (true, machine))
    (enough : codePages image + 9 ≤ machine.pages.freeCount.toNat)
    : ∃ lab,
        kernelMain image info cold = .ok ((), lab)
        ∧ lab.machine.pages.freeCount.toNat + (codePages image + 9)
          = machine.pages.freeCount.toNat := by
  have bare := start.bare guaranteed paged
  obtain ⟨lab, started⟩ := taskStart_starts bare sized enough
  refine ⟨lab, ?_, ?_⟩
  · rw [kernelMain_eq]
    refine (bind_ok (@onMachine_ok _ _ cold.greeted _ _ paged) _).trans ?_
    have mapped : vmInit info.cr4 info.hhdmOffset machine
        = .ok ((), (cold.opened info machine).machine) := by
      unfold vmInit
      rw [branch_apply, if_neg (not_not.mpr paging)]
      rfl
    exact (bind_ok (@onMachine_ok _ _ { cold.greeted with machine := machine } _ _ mapped) _).trans
      started
  · obtain ⟨_, _, spawned, built, rfl⟩ := taskStart_booted started bare
    have counted := built.takes.counted
    rw [Task.owned_length built.formed.tree, built.formed.count, layoutPaths_card, userPages]
      at counted
    have pages : (spawned.selected 0).left.machine.pages = spawned.machine.pages :=
      Machine.rooted_pages _ _
    rw [pages]
    change spawned.machine.pages.freeCount.toNat + _ = machine.pages.freeCount.toNat at counted
    omega

/-- How the boot stops. -/
theorem kernelMain_halts (start : cold.Cold) (guaranteed : info.Guaranteed) (sized : Sized image)
    (active
      : ∀ entries,
          info.memmap.entries = some entries
          → ¬UsableFrame entries (frameOf cold.machine.currentRoot.toNat))
    {reason : Halt} (halted : kernelMain image info cold = .error reason)
    : reason
      ∈ [.panic "physical page initialization failed", .panic "M2 requires four-level paging",
          .panic "LAB init creation failed"] := by
  rw [kernelMain_eq] at halted
  rcases pageInit_spec start.fresh (some info.memmap) info.hhdmOffset
      (fun entries known => guaranteed.disjoint entries (congrArg MemmapResponse.entries (Option.some.inj known))) with
    refused | ⟨entries, machine, known, accepted, initialised⟩
  · rw [bind_ok (@onMachine_ok _ _ cold.greeted _ _ refused)] at halted
    cases halted
    simp
  · rw [bind_ok (@onMachine_ok _ _ cold.greeted _ _ accepted)] at halted
    change (onMachine (vmInit info.cr4 info.hhdmOffset) >>= fun _ => taskStart image)
      { cold.greeted with machine := machine } = _ at halted
    by_cases paging : info.cr4 &&& 0x1000 ≠ 0
    · have stopped : vmInit info.cr4 info.hhdmOffset machine
          = .error (.panic "M2 requires four-level paging") := by
        unfold vmInit
        rw [branch_apply, if_pos paging]
        rfl
      have stops : onMachine (vmInit info.cr4 info.hhdmOffset)
            { cold.greeted with machine := machine }
          = .error (.panic "M2 requires four-level paging") :=
        onComponent_error stopped
      rw [bind_error stops] at halted
      cases halted
      simp
    · have mapped : vmInit info.cr4 info.hhdmOffset machine
          = .ok ((), (cold.opened info machine).machine) := by
        unfold vmInit
        rw [branch_apply, if_neg paging]
        rfl
      have opened : onMachine (vmInit info.cr4 info.hhdmOffset)
            { cold.greeted with machine := machine }
          = .ok ((), cold.opened info machine) :=
        @onMachine_ok _ _ { cold.greeted with machine := machine } _ _ mapped
      rw [bind_ok opened] at halted
      have bare : (cold.opened info machine).Bare := start.bare guaranteed accepted
      rw [taskStart_halts bare sized ?_ halted]
      · simp
      · intro free
        refine active entries (congrArg MemmapResponse.entries (Option.some.inj known)) ?_
        have root : (cold.opened info machine).machine.currentRoot = cold.machine.currentRoot := by
          change machine.currentRoot = _
          rw [initialised.record]
          rfl
        rw [root] at free
        exact ((initialised.free _).mp free).1

end Boot

-----------------------------------------------------------------------------------------
-- Programs that call
-----------------------------------------------------------------------------------------

/-- The registers of a program that calls with a number and an argument. -/
def callingContext (number argument : U64) : Context :=
  ⟨fun register => if register = .rax then number else if register = .rdi then argument else 0,
    userCode, 0x23, 0x202, 0, 0x1b⟩

/-- The running program has loaded the registers of a call. -/
def Lab.calling (lab : Lab) (number argument : U64) : Lab :=
  { lab with cpu := lab.cpu.runTo (callingContext number argument) }

section Calling

variable {image : List Byte} {info : BootInfo} {lab : Lab}

theorem ReachableAfter.calling {spawns : Nat} (reached : ReachableAfter image info spawns lab)
    (number argument : U64)
    : ReachableAfter image info spawns (lab.calling number argument) := by
  have same : lab.numbersTo (lab.calling number argument) = 0 := if_pos rfl
  have step : ReachableAfter image info (spawns + lab.numbersTo (lab.calling number argument))
      (lab.calling number argument) :=
    reached.step (.run (callingContext number argument)) rfl
  rw [same] at step
  exact step

theorem Lab.calling_table (lab : Lab) (number argument : U64)
    : (lab.calling number argument).userTable
      = lab.userTable.set lab.current
          { lab.userTable.running with
            context := lab.cpu.runTo (callingContext number argument) } := by
  rw [Lab.userTable_running]
  exact (lab.table.set_set lab.current _ _).symm

theorem Lab.calling_role (lab : Lab) (number argument : U64) (index : TaskIndex)
    : (lab.userTable.slots index).SameRole ((lab.calling number argument).userTable.slots index) := by
  rw [lab.calling_table]
  refine ProcessTable.set_forall (fun _ process process' => process.SameRole process') ?_
    (fun _ _ => .refl _) index
  exact ⟨rfl, rfl, rfl, rfl, rfl⟩

/-- A spawn with a free slot and enough frames, seen from user mode. -/
theorem InUser.spawn_built (user : InUser image lab)
    (call : Syscall.ofNumber (lab.cpu.general .rax) = some .spawn) {program : Program}
    (permitted
      : spawnable (lab.tasks lab.current).program (lab.cpu.general .rdi) = some program)
    (free : ∃ index, (lab.tasks index).state = .unused)
    (enough : codePages image + 9 ≤ lab.machine.pages.freeCount.toNat)
    (error cr2 : U64) (scratch : Stack)
    : ∃ lab' index,
        labStep image (.interrupt 128 error cr2 scratch) lab = .ok ((), lab')
        ∧ (lab.tasks index).state = .unused
        ∧ lab'.userTable
          = { (lab.userTable.answered (wide lab.nextPid) lab.userTable.running.files).set index
                (.fresh lab.nextPid program (lab.tasks lab.current).id) with
              nextPid := lab.nextPid + 1 }
        ∧ lab'.machine.pages.freeCount.toNat + (codePages image + 9)
          = lab.machine.pages.freeCount.toNat := by
  let entered : Lab := lab.entered 128 error scratch
  have kernel : InKernel image entered := user.entered 128 error scratch
  have entry := lab.entered_same 128 error scratch
  have table : entered.table = lab.userTable := lab.entered_table 128 error scratch
  have named : entered.taskCurrent.program = (lab.tasks lab.current).program :=
    lab.entered_program 128 error scratch
  obtain ⟨value, served, called, stepped⟩ := user.spawn_step call error cr2 scratch
  cases called with
  | forbidden refused => cases (named ▸ refused).symm.trans permitted
  | full _ full =>
      obtain ⟨index, unused⟩ := free
      exact absurd ((entry index).state.trans unused) (Lab.freeTask_none full index)
  | failed _ _ failed =>
      have few := failed.short
      rw [taskFrames_eq] at few
      exact absurd enough (Nat.not_le.mpr few)
  | @spawned program' index _ permitted' found spawned =>
      have unused := Lab.freeTask_unused found
      cases (named ▸ permitted').symm.trans permitted
      refine ⟨_, index, stepped, (entry index).state.symm.trans unused, ?_, ?_⟩
      · have apart := (kernel.unused_apart unused).1
        refine (Lab.left_table _).trans ?_
        rw [Lab.finished_beside apart spawned.table, table, lab.entered_id]
        rfl
      · exact (spawned.succeeds kernel unused lab.taskCurrent.id (lab.cpu.general .rax)
          lab.arguments).counted

theorem Waited.pages {lab lab' : Lab} {pid : U64} (waited : Waited lab pid lab')
    : lab'.machine.pages = lab.machine.pages := by
  cases waited with
  | refused none => rfl
  | collected found exited => rfl
  | blocked found living ready => exact Machine.rooted_pages _ _

/-- A wait for a live child, seen from user mode, where somebody else is ready. -/
theorem InUser.wait_blocks (user : InUser image lab)
    (call : Syscall.ofNumber (lab.cpu.general .rax) = some .wait) {index : TaskIndex}
    (child : lab.userTable.child (lab.cpu.general .rdi) = some index)
    (living : (lab.userTable.slots index).state ≠ .exited)
    (someone
      : ∃ next, ((lab.userTable.blocked (lab.cpu.general .rdi)).slots next).state = .ready)
    (error cr2 : U64) (scratch : Stack)
    : ∃ lab' next,
        labStep image (.interrupt 128 error cr2 scratch) lab = .ok ((), lab')
        ∧ ((lab.userTable.blocked (lab.cpu.general .rdi)).slots next).state = .ready
        ∧ lab'.userTable
          = { lab.userTable.blocked (lab.cpu.general .rdi) with current := next }
        ∧ lab'.machine.pages = lab.machine.pages := by
  let entered : Lab := lab.entered 128 error scratch
  have number : entered.savedNumber = lab.cpu.general .rax :=
    lab.entered_savedField 128 error scratch (.general .rax)
  have action : lab.action (.interrupt 128 error cr2 scratch) = .wait (lab.cpu.general .rdi) := by
    simp [Lab.action, call]
  have request : entered.request 128 = .wait (lab.cpu.general .rdi) :=
    (lab.entered_request 128 error cr2 scratch).trans action
  have outcome := user.labStep_spec (.interrupt 128 error cr2 scratch)
  cases stepped : labStep image (.interrupt 128 error cr2 scratch) lab with
  | error reason =>
      have halted : KernelHalt 128 entered reason := outcome.error stepped
      cases halted with
      | exit terminates _ => cases terminates.symm.trans request
      | unexpected unhandled => simp at unhandled
      | wait waits _ _ idle =>
          cases waits.symm.trans request
          rw [lab.entered_table 128 error scratch] at idle
          obtain ⟨next, ready⟩ := someone
          exact absurd ready (idle next)
  | ok pair =>
      obtain ⟨_, step, done⟩ := outcome.ok stepped
      obtain ⟨_, lab'⟩ := pair
      have pages : lab'.machine.pages = lab.machine.pages := by
        cases done with
        | @interrupt _ _ _ _ middle ran =>
            cases ran with
            | tick timer => exact absurd timer (by decide)
            | fault exception departed => simp at exception
            | exit _ called departed => cases (number ▸ called).symm.trans call
            | spawn _ called spawned => cases (number ▸ called).symm.trans call
            | call _ immediate called => exact absurd (number ▸ call) immediate.2.1
            | wait _ called waited => exact waited.pages
      rw [action] at step
      revert step
      generalize same : lab'.userTable = after
      intro step
      cases step with
      | waitRefused none => cases none.symm.trans child
      | collected found exited =>
          cases found.symm.trans child
          exact absurd exited living
      | @blocked _ _ next found _ chosen =>
          exact ⟨lab', next, rfl, ProcessTable.nextReady_ready chosen, same, pages⟩

/-- An exit of a mortal program, seen from user mode, where somebody is ready afterwards. -/
theorem InUser.exit_returns (user : InUser image lab)
    (call : Syscall.ofNumber (lab.cpu.general .rax) = some .exit)
    (mortal
      : (lab.tasks lab.current).program ≠ .init ∧ (lab.tasks lab.current).program ≠ .shell)
    (someone
      : ∃ next, ((lab.userTable.ended (lab.cpu.general .rdi)).slots next).state = .ready)
    (error cr2 : U64) (scratch : Stack)
    : ∃ lab' next,
        labStep image (.interrupt 128 error cr2 scratch) lab = .ok ((), lab')
        ∧ ((lab.userTable.ended (lab.cpu.general .rdi)).slots next).state = .ready
        ∧ lab'.userTable = { lab.userTable.ended (lab.cpu.general .rdi) with current := next }
        ∧ lab'.machine.pages.freeCount.toNat
          = lab.machine.pages.freeCount.toNat + (codePages image + 9) := by
  let entered : Lab := lab.entered 128 error scratch
  have kernel : InKernel image entered := user.entered 128 error scratch
  have number : entered.savedNumber = lab.cpu.general .rax :=
    lab.entered_savedField 128 error scratch (.general .rax)
  have action : lab.action (.interrupt 128 error cr2 scratch)
      = .terminate (lab.cpu.general .rdi) := by
    simp [Lab.action, call]
  have request : entered.request 128 = .terminate (lab.cpu.general .rdi) :=
    (lab.entered_request 128 error cr2 scratch).trans action
  have outcome := user.labStep_spec (.interrupt 128 error cr2 scratch)
  cases stepped : labStep image (.interrupt 128 error cr2 scratch) lab with
  | error reason =>
      have halted : KernelHalt 128 entered reason := outcome.error stepped
      cases halted with
      | exit terminates stops =>
          cases terminates.symm.trans request
          cases stops with
          | immortal program =>
              rw [lab.entered_program] at program
              rcases program with isInit | isShell
              · exact absurd isInit mortal.1
              · exact absurd isShell mortal.2
          | nobody _ idle =>
              rw [lab.entered_table 128 error scratch] at idle
              obtain ⟨next, ready⟩ := someone
              exact absurd ready (idle next)
      | unexpected unhandled => simp at unhandled
      | wait waits _ _ _ => cases waits.symm.trans request
  | ok pair =>
      obtain ⟨_, step, done⟩ := outcome.ok stepped
      obtain ⟨_, lab'⟩ := pair
      have counted : lab'.machine.pages.freeCount.toNat
          = lab.machine.pages.freeCount.toNat + (codePages image + 9) := by
        cases done with
        | @interrupt _ _ _ _ middle ran =>
            cases ran with
            | tick timer => exact absurd timer (by decide)
            | fault exception departed => simp at exception
            | spawn _ called spawned => cases (number ▸ called).symm.trans call
            | call _ immediate called => exact absurd (number ▸ call) immediate.2.2
            | wait _ called waited => cases (number ▸ called).symm.trans call
            | exit _ called departed =>
                obtain ⟨next, machine, rfl, _, _, returns⟩ := departed.state
                have formed := kernel.partition.formed entered.current (Or.inl kernel.ready)
                have owned := Task.owned_length formed.tree
                rw [layoutPaths_card, formed.count, userPages] at owned
                change machine.pages.freeCount.toNat = _
                rw [returns.counted]
                change _ + entered.taskCurrent.owned.length = _
                rw [show entered.taskCurrent.owned.length = _ from owned]
                change (entered.machine.rooted _).pages.freeCount.toNat + _ = _
                rw [Machine.rooted_pages]
                change lab.machine.pages.freeCount.toNat + _ = _
                omega
      rw [action] at step
      revert step
      generalize same : lab'.userTable = after
      intro step
      cases step with
      | @ended _ next _ chosen =>
          exact ⟨lab', next, rfl, ProcessTable.nextReady_ready chosen, same, counted⟩

end Calling

-----------------------------------------------------------------------------------------
-- The first tasks
-----------------------------------------------------------------------------------------

/-- The process has a role. -/
structure Process.Plays (process : Process) (id parent : U32) (program : Program)
    (state : ProcessState)
    : Prop where
  id : process.id = id
  parent : process.parent = parent
  program : process.program = program
  state : process.state = state

theorem Process.SameRole.plays {process process' : Process} (same : process.SameRole process')
    {id parent : U32} {program : Program} {state : ProcessState}
    (plays : process.Plays id parent program state)
    : process'.Plays id parent program state :=
  ⟨same.id.trans plays.id, same.parent.trans plays.parent, same.program.trans plays.program,
    same.state.trans plays.state⟩

namespace ProcessTable

variable {table : ProcessTable}

theorem answered_role (table : ProcessTable) (value : U64) (files : Slots) (index : TaskIndex)
    : (table.slots index).SameRole ((table.answered value files).slots index) := by
  refine set_forall (fun _ process process' => process.SameRole process') ?_ (fun _ _ => .refl _)
    index
  exact ⟨rfl, rfl, rfl, rfl, rfl⟩

/-- A table in which a child was spawned. -/
theorem spawned_slots {index : TaskIndex} {value : U64} {files : Slots} {process : Process}
    {nextPid : U32} {table' : ProcessTable}
    (shape
      : table' = { (table.answered value files).set index process with nextPid := nextPid })
    : table'.slots index = process
      ∧ ∀ other, other ≠ index → (table.slots other).SameRole (table'.slots other) := by
  subst shape
  refine ⟨set_here _ _ _, fun other different => ?_⟩
  have kept : ((table.answered value files).set index process).slots other
      = (table.answered value files).slots other :=
    set_other _ different _
  exact kept ▸ table.answered_role value files other

/-- The child that a parent waits for is the only one with its number. -/
theorem child_found {pid : U64} {index : TaskIndex} (used : (table.slots index).Used)
    (number : wide (table.slots index).id = pid)
    (parent : (table.slots index).parent = table.running.id)
    (only : ∀ other, (table.slots other).Used → wide (table.slots other).id = pid → other = index)
    : table.child pid = some index := by
  cases found : table.child pid with
  | none =>
      have refused := List.find?_eq_none.mp found index (List.mem_finRange index)
      simp only [decide_eq_true_eq] at refused
      exact absurd ⟨used, number, parent⟩ refused
  | some other =>
      obtain ⟨used', number', _⟩ := Sound.child_spec found
      rw [only other used' number']

end ProcessTable

/-- What the tables before and after say where a process has spawned a child. -/
structure SpawnsChild (table : ProcessTable) (program : Program) (child : TaskIndex)
    (table' : ProcessTable)
    : Prop where
  free : (table.slots child).state = .unused
  current : table'.current = table.current
  nextPid : table'.nextPid = table.nextPid + 1
  born : (table'.slots child).Plays table.nextPid table.running.id program .ready
  others : ∀ index, index ≠ child → (table.slots index).SameRole (table'.slots index)

/-- What the tables before and after say where a process has started a child and waits for it. -/
structure StartsChild (table : ProcessTable) (program : Program) (child : TaskIndex)
    (table' : ProcessTable)
    : Prop where
  free : (table.slots child).state = .unused
  current : table'.current = child
  nextPid : table'.nextPid = table.nextPid + 1
  born : (table'.slots child).Plays table.nextPid table.running.id program .ready
  waits
    : (table'.slots table.current).Plays table.running.id table.running.parent
        table.running.program .waiting
  awaits : (table'.slots table.current).waitingFor = table.nextPid
  others
    : ∀ index,
        index ≠ child
        → index ≠ table.current
        → (table.slots index).SameRole (table'.slots index)

theorem Lab.userTable_state (lab : Lab) (index : TaskIndex)
    : (lab.userTable.slots index).state = (lab.tasks index).state := by
  obtain ⟨context, same⟩ := lab.userTable_slot index
  rw [same]
  rfl

theorem Lab.userTable_program (lab : Lab) (index : TaskIndex)
    : (lab.userTable.slots index).program = (lab.tasks index).program := by
  obtain ⟨context, same⟩ := lab.userTable_slot index
  rw [same]
  rfl

section Children

variable {image : List Byte} {info : BootInfo} {spawns : Nat} {lab : Lab}

/-- A program spawns a child where a slot and the frames are free. -/
theorem ReachableAfter.spawns_child (reached : ReachableAfter image info spawns lab)
    (guaranteed : info.Guaranteed) {number : U64} {program : Program}
    (permitted : spawnable (lab.tasks lab.current).program number = some program)
    (free : ∃ index, (lab.tasks index).state = .unused)
    (enough : codePages image + 9 ≤ lab.machine.pages.freeCount.toNat)
    : ∃ lab' child,
        ReachableAfter image info (spawns + 1) lab'
        ∧ SpawnsChild lab.userTable program child lab'.userTable
        ∧ lab'.machine.pages.freeCount.toNat + (codePages image + 9)
          = lab.machine.pages.freeCount.toNat := by
  let asking : Lab := lab.calling 9 number
  have reached₁ : ReachableAfter image info spawns asking := reached.calling 9 number
  obtain ⟨lab', child, stepped, unused, table, counted⟩ :=
    (reached₁.reachable.user guaranteed).spawn_built rfl permitted free enough 0 0 fun _ => 0
  have nextPid : lab'.nextPid = lab.nextPid + 1 := congrArg ProcessTable.nextPid table
  have current : lab'.current = lab.current := congrArg ProcessTable.current table
  have numbers : asking.numbersTo lab' = 1 := by
    refine if_neg ?_
    rw [nextPid]
    exact ProcessTable.succ_ne lab.nextPid
  have reached' := reached₁.step _ stepped
  rw [numbers] at reached'
  obtain ⟨born, others⟩ := ProcessTable.spawned_slots table
  refine ⟨lab', child, reached', ⟨(lab.userTable_state child).trans unused, current, nextPid, ?_, ?_⟩,
    counted⟩
  · rw [born]
    exact ⟨rfl, (congrArg Process.id lab.userTable_running).symm, rfl, rfl⟩
  · exact fun index different => (lab.calling_role 9 number index).trans (others index different)

/-- A program waits for its only ready child, and nobody else is ready: then the child runs. -/
theorem ReachableAfter.waits_child (reached : ReachableAfter image info spawns lab)
    (guaranteed : info.Guaranteed) (bound : spawns < 2 ^ 32 - 1) {child : TaskIndex}
    (ready : (lab.userTable.slots child).state = .ready)
    (named : (lab.userTable.slots child).parent = lab.userTable.running.id)
    (apart : child ≠ lab.current)
    (alone
      : ∀ index, (lab.userTable.slots index).state = .ready → index = lab.current ∨ index = child)
    : let waiting := lab.calling 10 (wide (lab.userTable.slots child).id)
      ∃ lab',
        labStep image (.interrupt 128 0 0 fun _ => 0) waiting = .ok ((), lab')
        ∧ ReachableAfter image info spawns lab'
        ∧ lab'.userTable.current = child
        ∧ lab'.userTable.nextPid = lab.userTable.nextPid
        ∧ (lab'.userTable.slots lab.current).Plays lab.userTable.running.id
            lab.userTable.running.parent lab.userTable.running.program .waiting
        ∧ (lab'.userTable.slots lab.current).waitingFor = (lab.userTable.slots child).id
        ∧ (∀ index,
            index ≠ lab.current
            → (lab.userTable.slots index).SameRole (lab'.userTable.slots index))
        ∧ lab'.machine.pages = lab.machine.pages := by
  intro waiting
  let pid : U64 := wide (lab.userTable.slots child).id
  have reached₁ : ReachableAfter image info spawns waiting := reached.calling 10 pid
  have roles (index : TaskIndex)
      : (lab.userTable.slots index).SameRole (waiting.userTable.slots index) :=
    lab.calling_role 10 pid index
  have running : lab.userTable.running.SameRole waiting.userTable.running := roles lab.current
  have found : waiting.userTable.child pid = some child := by
    refine ProcessTable.child_found ?_ ?_ ?_ ?_
    · rw [Process.Used, (roles child).state, ready]
      simp
    · rw [(roles child).id]
    · rw [(roles child).parent, running.id, named]
    · intro other used same
      rw [(roles other).id] at same
      rw [Process.Used, (roles other).state] at used
      exact (reached.sound guaranteed bound).distinct other child used
        (Process.Live.used (Or.inl ready)) (wide_injective same)
  have parent : (waiting.userTable.blocked pid).slots lab.current
      = { waiting.userTable.running with state := .waiting, waitingFor := pid.setWidth 32 } :=
    ProcessTable.set_here _ _ _
  have kept {index : TaskIndex} (different : index ≠ lab.current)
      : (waiting.userTable.blocked pid).slots index = waiting.userTable.slots index :=
    ProcessTable.set_other _ different _
  have living : (waiting.userTable.slots child).state = .ready := (roles child).state.trans ready
  obtain ⟨lab', next, stepped, ready', table, pages⟩ :=
    (reached₁.reachable.user guaranteed).wait_blocks rfl found (by rw [living]; simp)
      ⟨child, (congrArg Process.state (kept apart)).trans living⟩ 0 0 fun _ => 0
  have argument : waiting.cpu.general .rdi = pid := rfl
  rw [argument] at ready' table
  have next_eq : next = child := by
    rcases eq_or_ne next lab.current with same | away
    · rw [same, parent] at ready'
      cases ready'
    · rw [kept away, (roles next).state] at ready'
      exact (alone next ready').resolve_left away
  subst next_eq
  have slots (index : TaskIndex)
      : lab'.userTable.slots index = (waiting.userTable.blocked pid).slots index := by
    rw [table]
  have current : lab'.current = next := congrArg ProcessTable.current table
  have nextPid : lab'.nextPid = lab.nextPid := congrArg ProcessTable.nextPid table
  have numbers : waiting.numbersTo lab' = 0 := if_pos nextPid
  have reached' := reached₁.step _ stepped
  rw [numbers] at reached'
  refine ⟨lab', stepped, reached', current, nextPid, ?_, ?_, ?_, pages⟩
  · rw [slots, parent]
    exact ⟨running.id, running.parent, running.program, rfl⟩
  · rw [slots, parent]
    exact wide_narrow _
  · intro index different
    rw [slots, kept different]
    exact roles index

/-- The only ready process starts a child and waits for it; then the child runs. -/
theorem ReachableAfter.starts_child (reached : ReachableAfter image info spawns lab)
    (guaranteed : info.Guaranteed) (bound : spawns + 1 < 2 ^ 32 - 1) {number : U64}
    {program : Program}
    (permitted : spawnable (lab.tasks lab.current).program number = some program)
    (free : ∃ index, (lab.tasks index).state = .unused)
    (enough : codePages image + 9 ≤ lab.machine.pages.freeCount.toNat)
    (alone : ∀ index, (lab.tasks index).state = .ready → index = lab.current)
    : ∃ lab' child,
        ReachableAfter image info (spawns + 1) lab'
        ∧ StartsChild lab.userTable program child lab'.userTable
        ∧ lab'.machine.pages.freeCount.toNat + (codePages image + 9)
          = lab.machine.pages.freeCount.toNat := by
  have ready : lab.userTable.running.state = .ready :=
    (lab.userTable_state _).trans (reached.reachable.user guaranteed).ready
  obtain ⟨lab₁, child, reached₁, spawned, counted⟩ :=
    reached.spawns_child guaranteed permitted free enough
  have apart : child ≠ lab.current := by
    rintro rfl
    cases spawned.free.symm.trans ready
  have current : lab₁.current = lab.current := spawned.current
  have running : lab₁.userTable.running = lab₁.userTable.slots lab.current := by
    rw [ProcessTable.running, spawned.current]
    rfl
  have parent : lab.userTable.running.SameRole (lab₁.userTable.slots lab.current) :=
    spawned.others lab.current apart.symm
  have named : (lab₁.userTable.slots child).parent = lab₁.userTable.running.id := by
    rw [running, parent.id, spawned.born.parent]
  have alone₁ (index : TaskIndex) (ready : (lab₁.userTable.slots index).state = .ready)
      : index = lab₁.current ∨ index = child := by
    by_contra neither
    obtain ⟨away, different⟩ := not_or.mp neither
    rw [(spawned.others index different).state, lab.userTable_state] at ready
    exact away ((alone index ready).trans current.symm)
  obtain ⟨lab₂, _, reached₂, runs, nextPid, waits, awaits, others, pages⟩ :=
    reached₁.waits_child guaranteed bound spawned.born.state named (current ▸ apart) alone₁
  rw [current] at waits awaits others
  rw [running, parent.id, parent.parent, parent.program] at waits
  refine ⟨lab₂, child, reached₂, ⟨spawned.free, runs, nextPid.trans spawned.nextPid,
    (others child apart).plays spawned.born, waits, awaits.trans spawned.born.id, ?_⟩, ?_⟩
  · exact fun index different away => (spawned.others index different).trans (others index away)
  · rw [pages]
    exact counted

end Children

/-- After the boot only `init` is there. -/
theorem boots {image : List Byte} {info : BootInfo} {cold : Lab} {machine : Machine}
    (start : cold.Cold) (guaranteed : info.Guaranteed) (paging : info.cr4 &&& 0x1000 = 0)
    (sized : Sized image)
    (paged : pageInit (some info.memmap) info.hhdmOffset cold.machine = .ok (true, machine))
    (enough : codePages image + 9 ≤ machine.pages.freeCount.toNat)
    : ∃ lab,
        ReachableAfter image info 0 lab
        ∧ lab.userTable = .boot
        ∧ lab.machine.pages.freeCount.toNat + (codePages image + 9)
          = machine.pages.freeCount.toNat := by
  obtain ⟨booted, result, counted⟩ := kernelMain_boots start guaranteed paging sized paged enough
  obtain ⟨_, _, bare, started⟩ := kernelMain_bare result start guaranteed
  exact ⟨booted, .boot result start, (taskStart_booted started bare).2.1, counted⟩

theorem ProcessTable.boot_empty {index : TaskIndex} (different : index ≠ 0)
    : (ProcessTable.boot.slots index).state = .unused := by
  simp [ProcessTable.boot, different, Task.process, Task.zero]

/-- The shell runs beside its ready child, and `init` waits. -/
structure ShellRuns (program : Program) (shell child : TaskIndex) (table : ProcessTable)
    : Prop where
  current : table.current = shell
  nextPid : table.nextPid = 4
  apart : shell ≠ 0 ∧ child ≠ 0 ∧ child ≠ shell
  initWaits : (table.slots 0).Plays 1 0 .init .waiting
  initAwaits : (table.slots 0).waitingFor = 2
  shellReady : (table.slots shell).Plays 2 1 .shell .ready
  born : (table.slots child).Plays 3 2 program .ready
  others
    : ∀ index,
        index ≠ 0 → index ≠ shell → index ≠ child → (table.slots index).state = .unused

theorem ShellRuns.ready {program : Program} {shell child : TaskIndex} {table : ProcessTable}
    (runs : ShellRuns program shell child table) (index : TaskIndex)
    (ready : (table.slots index).state = .ready)
    : index = shell ∨ index = child := by
  by_contra neither
  obtain ⟨notShell, notChild⟩ := not_or.mp neither
  rcases eq_or_ne index 0 with rfl | notInit
  · cases runs.initWaits.state.symm.trans ready
  · cases (runs.others index notInit notShell notChild).symm.trans ready

/-- A child of the shell runs, and the shell and `init` wait. -/
structure ChildRuns (program : Program) (shell child : TaskIndex) (table : ProcessTable)
    : Prop where
  current : table.current = child
  nextPid : table.nextPid = 4
  apart : shell ≠ 0 ∧ child ≠ 0 ∧ child ≠ shell
  initWaits : (table.slots 0).Plays 1 0 .init .waiting
  shellWaits : (table.slots shell).Plays 2 1 .shell .waiting
  born : (table.slots child).Plays 3 2 program .ready
  awaits : (table.slots 0).waitingFor = 2 ∧ (table.slots shell).waitingFor = 3
  others
    : ∀ index,
        index ≠ 0 → index ≠ shell → index ≠ child → (table.slots index).state = .unused

section ChildRuns

variable {program : Program} {shell child : TaskIndex} {table : ProcessTable}

theorem ChildRuns.same {table' : ProcessTable} (runs : ChildRuns program shell child table)
    (current : table'.current = table.current) (nextPid : table'.nextPid = table.nextPid)
    (roles : ∀ index, (table.slots index).SameRole (table'.slots index))
    : ChildRuns program shell child table' where
  current := current.trans runs.current
  nextPid := nextPid.trans runs.nextPid
  apart := runs.apart
  initWaits := (roles 0).plays runs.initWaits
  shellWaits := (roles shell).plays runs.shellWaits
  born := (roles child).plays runs.born
  awaits :=
    ⟨(roles 0).waitingFor.trans runs.awaits.1, (roles shell).waitingFor.trans runs.awaits.2⟩
  others index notInit notShell notChild :=
    (roles index).state.trans (runs.others index notInit notShell notChild)

/-- No task has ended and kept its slot. -/
theorem ChildRuns.unended (runs : ChildRuns program shell child table) (index : TaskIndex)
    : (table.slots index).state ≠ .exited := by
  intro exited
  rcases eq_or_ne index 0 with rfl | notInit
  · cases runs.initWaits.state.symm.trans exited
  rcases eq_or_ne index shell with rfl | notShell
  · cases runs.shellWaits.state.symm.trans exited
  rcases eq_or_ne index child with rfl | notChild
  · cases runs.born.state.symm.trans exited
  · cases (runs.others index notInit notShell notChild).symm.trans exited

/-- Nobody but the shell waits for the child. -/
theorem ChildRuns.awaits_iff (runs : ChildRuns program shell child table) (index : TaskIndex)
    : (table.slots index).Awaits table.running ↔ index = shell := by
  rw [ProcessTable.running, runs.current]
  constructor
  · rintro ⟨_, waiting, named⟩
    by_contra notShell
    rcases eq_or_ne index 0 with rfl | notInit
    · cases (runs.awaits.1.symm.trans named).trans runs.born.id
    rcases eq_or_ne index child with rfl | notChild
    · cases runs.born.state.symm.trans waiting
    · cases (runs.others index notInit notShell notChild).symm.trans waiting
  · rintro rfl
    exact ⟨runs.shellWaits.id.trans runs.born.parent.symm, runs.shellWaits.state,
      runs.awaits.2.trans runs.born.id.symm⟩

/-- When the child ends, its slot is free and only the shell is ready. -/
theorem ChildRuns.ended (runs : ChildRuns program shell child table) (status : U64)
    : ((table.ended status).slots child).state = .unused
      ∧ ∀ index,
          (((table.ended status).slots index).state = .ready ↔ index = shell)
          ∧ ((table.ended status).slots index).state ≠ .exited := by
  have awaited : table.Awaited := ⟨shell, (runs.awaits_iff shell).mpr rfl⟩
  have gone : ((table.ended status).slots child).state = .unused := by
    simp [ProcessTable.ended, runs.current, awaited]
  refine ⟨gone, fun index => ?_⟩
  rcases eq_or_ne index child with rfl | notChild
  · rw [gone]
    exact ⟨⟨fun ready => (nomatch ready), fun same => absurd same runs.apart.2.2⟩, by simp⟩
  rcases eq_or_ne index shell with rfl | notShell
  · have woken : ((table.ended status).slots index).state = .ready := by
      simp only [ProcessTable.ended, runs.current, if_neg notChild,
        if_pos ((runs.awaits_iff index).mpr rfl)]
    rw [woken]
    exact ⟨⟨fun _ => rfl, fun _ => rfl⟩, by simp⟩
  · have kept : (table.ended status).slots index = table.slots index := by
      simp only [ProcessTable.ended, runs.current, if_neg notChild,
        if_neg (mt (runs.awaits_iff index).mp notShell)]
    rw [kept]
    refine ⟨⟨fun ready => ?_, fun same => absurd same notShell⟩, runs.unended index⟩
    rcases eq_or_ne index 0 with rfl | notInit
    · cases runs.initWaits.state.symm.trans ready
    · cases (runs.others index notInit notShell notChild).symm.trans ready

end ChildRuns

/-- Memory for two tasks lets `init` start the shell. -/
theorem shell_starts {image : List Byte} {info : BootInfo} {cold : Lab} {machine : Machine}
    (start : cold.Cold) (guaranteed : info.Guaranteed) (paging : info.cr4 &&& 0x1000 = 0)
    (sized : Sized image)
    (paged : pageInit (some info.memmap) info.hhdmOffset cold.machine = .ok (true, machine))
    (enough : 2 * (codePages image + 9) ≤ machine.pages.freeCount.toNat)
    : ∃ lab shell,
        ReachableAfter image info 1 lab
        ∧ StartsChild .boot .shell shell lab.userTable
        ∧ lab.machine.pages.freeCount.toNat + 2 * (codePages image + 9)
          = machine.pages.freeCount.toNat := by
  obtain ⟨booted, reached, table, counted⟩ :=
    boots start guaranteed paging sized paged (by omega)
  have current : booted.current = 0 := congrArg ProcessTable.current table
  have empty (index : TaskIndex) (different : index ≠ 0)
      : (booted.tasks index).state = .unused := by
    rw [← booted.userTable_state, table]
    exact ProcessTable.boot_empty different
  have isInit : (booted.tasks booted.current).program = .init := by
    rw [current, ← booted.userTable_program, table]
    rfl
  have alone (index : TaskIndex) (ready : (booted.tasks index).state = .ready)
      : index = booted.current := by
    rw [current]
    by_contra different
    cases (empty index different).symm.trans ready
  have permitted : spawnable (booted.tasks booted.current).program 1 = some .shell := by
    rw [isInit]
    rfl
  obtain ⟨lab, shell, reached', started, counted'⟩ :=
    reached.starts_child guaranteed (by decide) permitted ⟨1, empty 1 (by decide)⟩ (by omega) alone
  rw [table] at started
  exact ⟨lab, shell, reached', started, by omega⟩

/-- After the boot and the start of a shell, only these two are there. -/
theorem StartsChild.beside_boot {program : Program} {shell : TaskIndex} {table : ProcessTable}
    (started : StartsChild .boot program shell table)
    : shell ≠ 0
      ∧ ∀ index, index ≠ 0 → index ≠ shell → (table.slots index).state = .unused := by
  refine ⟨?_, fun index away different => ?_⟩
  · rintro rfl
    cases started.free
  · exact (started.others index different away).state.trans (ProcessTable.boot_empty away)

section ThreeTasks

variable {image : List Byte} {info : BootInfo} {cold : Lab} {machine : Machine}

/-- Memory for three tasks lets the shell spawn a child. -/
theorem shell_runs (start : cold.Cold) (guaranteed : info.Guaranteed)
    (paging : info.cr4 &&& 0x1000 = 0) (sized : Sized image)
    (paged : pageInit (some info.memmap) info.hhdmOffset cold.machine = .ok (true, machine))
    (enough : 3 * (codePages image + 9) ≤ machine.pages.freeCount.toNat) {number : U64}
    {program : Program} (permitted : spawnable .shell number = some program)
    : ∃ lab shell child,
        ReachableAfter image info 2 lab
        ∧ ShellRuns program shell child lab.userTable
        ∧ lab.machine.pages.freeCount.toNat + 3 * (codePages image + 9)
          = machine.pages.freeCount.toNat := by
  obtain ⟨middle, shell, reached, started, counted⟩ :=
    shell_starts start guaranteed paging sized paged (by omega)
  obtain ⟨apart, empty⟩ := started.beside_boot
  have initWaits : (middle.userTable.slots 0).Plays 1 0 .init .waiting := started.waits
  have initAwaits : (middle.userTable.slots 0).waitingFor = 2 := started.awaits
  have born : (middle.userTable.slots shell).Plays 2 1 .shell .ready := started.born
  have current : middle.userTable.current = shell := started.current
  have nextPid : middle.userTable.nextPid = 3 := started.nextPid
  have permitted : spawnable (middle.tasks middle.current).program number = some program := by
    rw [show middle.current = shell from current, ← middle.userTable_program, born.program]
    exact permitted
  have spare : ∃ index, (middle.tasks index).state = .unused := by
    have third (slot : TaskIndex) : ∃ index : TaskIndex, index ≠ 0 ∧ index ≠ slot := by
      decide +revert
    obtain ⟨index, away, different⟩ := third shell
    exact ⟨index, (middle.userTable_state index).symm.trans (empty index away different)⟩
  obtain ⟨lab, child, reached', spawned, counted'⟩ :=
    reached.spawns_child guaranteed permitted spare (by omega)
  have apart' : child ≠ 0 ∧ child ≠ shell := by
    have free := spawned.free
    refine ⟨?_, ?_⟩ <;> rintro rfl
    · cases initWaits.state.symm.trans free
    · cases born.state.symm.trans free
  have initKept := spawned.others 0 (Ne.symm apart'.1)
  have born' := spawned.born
  rw [ProcessTable.running, current, born.id, nextPid] at born'
  refine ⟨lab, shell, child, reached',
    ⟨spawned.current.trans current, ?_, ⟨apart, apart'⟩, initKept.plays initWaits,
      initKept.waitingFor.trans initAwaits, (spawned.others shell apart'.2.symm).plays born, born',
      ?_⟩, by omega⟩
  · rw [spawned.nextPid, nextPid]
    rfl
  · exact fun index away different last =>
      (spawned.others index last).state.trans (empty index away different)

/-- The shell waits for its child. -/
theorem ReachableAfter.child_runs {spawns : Nat} {lab : Lab} {program : Program}
    {shell child : TaskIndex} (reached : ReachableAfter image info spawns lab)
    (guaranteed : info.Guaranteed) (bound : spawns < 2 ^ 32 - 1)
    (runs : ShellRuns program shell child lab.userTable)
    : ∃ lab',
        labStep image (.interrupt 128 0 0 fun _ => 0) (lab.calling 10 3) = .ok ((), lab')
        ∧ ReachableAfter image info spawns lab'
        ∧ ChildRuns program shell child lab'.userTable
        ∧ lab'.machine.pages = lab.machine.pages := by
  have current : lab.current = shell := runs.current
  have running : lab.userTable.running = lab.userTable.slots shell := by
    rw [ProcessTable.running, runs.current]
  obtain ⟨lab', stepped, reached', here, nextPid, waits, awaits, others, pages⟩ :=
    reached.waits_child guaranteed bound runs.born.state
      (by rw [running, runs.shellReady.id, runs.born.parent]) (current ▸ runs.apart.2.2)
      (current ▸ runs.ready)
  rw [current] at waits awaits others
  rw [running, runs.shellReady.id, runs.shellReady.parent, runs.shellReady.program] at waits
  rw [runs.born.id] at awaits stepped
  have initKept := others 0 runs.apart.1.symm
  refine ⟨lab', stepped, reached', ⟨here, nextPid.trans runs.nextPid, runs.apart,
    initKept.plays runs.initWaits, waits, (others child runs.apart.2.2).plays runs.born,
    ⟨initKept.waitingFor.trans runs.initAwaits, awaits⟩, ?_⟩, pages⟩
  exact fun index notInit notShell notChild =>
    (others index notShell).state.trans (runs.others index notInit notShell notChild)

/-- The child exits, and the shell goes on. -/
theorem ReachableAfter.child_exits {spawns : Nat} {lab : Lab} {program : Program}
    {shell child : TaskIndex} (reached : ReachableAfter image info spawns lab)
    (guaranteed : info.Guaranteed) (runs : ChildRuns program shell child lab.userTable)
    (mortal : program ≠ .init ∧ program ≠ .shell) (status : U64)
    : ∃ lab',
        labStep image (.interrupt 128 0 0 fun _ => 0) (lab.calling 4 status) = .ok ((), lab')
        ∧ ReachableAfter image info spawns lab'
        ∧ lab'.userTable
          = { (lab.calling 4 status).userTable.ended status with current := shell } := by
  have reached₁ := reached.calling 4 status
  have runs₁ : ChildRuns program shell child (lab.calling 4 status).userTable :=
    runs.same rfl rfl (lab.calling_role 4 status)
  obtain ⟨_, ended⟩ := runs₁.ended status
  have current : (lab.calling 4 status).current = child := runs₁.current
  have role : ((lab.calling 4 status).tasks (lab.calling 4 status).current).program = program := by
    rw [current, ← Lab.userTable_program]
    exact runs₁.born.program
  obtain ⟨lab', next, stepped, ready, table, _⟩ :=
    (reached₁.reachable.user guaranteed).exit_returns rfl (role ▸ mortal)
      ⟨shell, (ended shell).1.mpr rfl⟩ 0 0 fun _ => 0
  obtain rfl := (ended next).1.mp ready
  have numbers : (lab.calling 4 status).numbersTo lab' = 0 :=
    if_pos (congrArg ProcessTable.nextPid table)
  have reached' := reached₁.step _ stepped
  rw [numbers] at reached'
  exact ⟨lab', stepped, reached', table⟩

end ThreeTasks

-----------------------------------------------------------------------------------------
-- A sample
-----------------------------------------------------------------------------------------

/-- A user image of one byte. -/
def sampleImage : List Byte := [0]

def sampleInfo : BootInfo := ⟨⟨some sampleEntries⟩, 0xffff800000000000, 0⟩

def sampleCold : Lab where
  machine := sampleMachine
  tasks := fun _ => Task.zero
  current := 0
  nextPid := 1
  ticks := 0
  rsp0 := none
  received := []
  console := ⟨[], []⟩
  cpu := callingContext 0 0

theorem sample_cold : sampleCold.Cold := ⟨⟨rfl, rfl, rfl⟩, rfl, rfl, rfl, rfl, rfl, rfl⟩

theorem sample_guaranteed : sampleInfo.Guaranteed := by
  refine ⟨fun entries known => ?_, Nat.le_refl _⟩
  cases known
  decide

theorem sample_sized : Sized sampleImage := by
  unfold Sized
  decide

theorem sample_codePages : codePages sampleImage = 1 := by decide

/-- The sample has 62 free frames, and each of its tasks takes ten. -/
theorem sample_paged
    : ∃ machine,
        pageInit (some sampleInfo.memmap) sampleInfo.hhdmOffset sampleCold.machine
          = .ok (true, machine)
        ∧ machine.pages.freeCount.toNat = 62 := by
  obtain ⟨machine, paged⟩ := sample_initialises
  exact ⟨machine, paged, sample_free (pageInit_initialised ⟨rfl, rfl, rfl⟩ (by decide) paged)⟩

/-- In the sample `init` asks for a shell. -/
theorem sample_asks
    : ∃ lab,
        ReachableAfter sampleImage sampleInfo 0 (Lab.calling lab 9 1)
        ∧ lab.userTable = .boot
        ∧ lab.machine.pages.freeCount.toNat = 52 := by
  obtain ⟨machine, paged, free⟩ := sample_paged
  have pages := sample_codePages
  obtain ⟨lab, reached, table, counted⟩ :=
    boots sample_cold sample_guaranteed rfl sample_sized paged (by omega)
  exact ⟨lab, reached.calling 9 1, table, by omega⟩

/-- In the sample `init` asks for a shell, and the call is served. -/
theorem sample_spawns
    : ∃ lab lab' index,
        ReachableAfter sampleImage sampleInfo 0 lab
        ∧ labStep sampleImage (.interrupt 128 0 0 fun _ => 0) lab = .ok ((), lab')
        ∧ Syscall.ofNumber (lab.cpu.general .rax) = some .spawn
        ∧ spawnable (lab.tasks lab.current).program (lab.cpu.general .rdi) = some .shell
        ∧ (lab.tasks index).state = .unused
        ∧ codePages sampleImage + 9 ≤ lab.machine.pages.freeCount.toNat
        ∧ (lab'.tasks index).state = .ready
        ∧ index ≠ lab'.current := by
  obtain ⟨lab, reached, table, free⟩ := sample_asks
  let asking : Lab := lab.calling 9 1
  have user : InUser sampleImage asking := reached.reachable.user sample_guaranteed
  have pages := sample_codePages
  have current : lab.current = 0 := congrArg ProcessTable.current table
  have permitted : spawnable (asking.tasks asking.current).program (asking.cpu.general .rdi)
      = some .shell := by
    change spawnable (lab.tasks lab.current).program 1 = _
    rw [current, ← lab.userTable_program, table]
    rfl
  have unused : (asking.tasks 1).state = .unused := by
    change (lab.tasks 1).state = _
    rw [← lab.userTable_state, table]
    rfl
  have enough : codePages sampleImage + 9 ≤ asking.machine.pages.freeCount.toNat := by
    change _ ≤ lab.machine.pages.freeCount.toNat
    omega
  obtain ⟨lab', index, stepped, free', table', _⟩ :=
    user.spawn_built rfl permitted ⟨1, unused⟩ enough 0 0 fun _ => 0
  obtain ⟨born, _⟩ := ProcessTable.spawned_slots table'
  have state : (lab'.tasks index).state = .ready := by
    rw [← lab'.userTable_state, born]
    rfl
  refine ⟨asking, lab', index, reached, stepped, rfl, permitted, free', enough, state, ?_⟩
  have current' : lab'.current = asking.current := congrArg ProcessTable.current table'
  rw [current']
  intro same
  rw [same] at free'
  cases free'.symm.trans user.ready

/-- Flat memory of some pages. -/
def flatInfo (pages : Nat) : BootInfo := ⟨⟨some (flatEntries pages)⟩, 0xffff800000000000, 0⟩

theorem flat_guaranteed (pages : Nat) : (flatInfo pages).Guaranteed := by
  refine ⟨fun entries known => ?_, Nat.le_refl _⟩
  cases known
  exact List.pairwise_singleton ..

theorem flat_paged {pages : Nat} (many : 2 ≤ pages) (few : pages < 2 ^ 20)
    (planned
      : initPlan (flatEntries pages) 0xffff800000000000
        = some ⟨BitVec.ofNat 64 pages, 1, 0x1000⟩)
    : ∃ machine,
        pageInit (some (flatInfo pages).memmap) (flatInfo pages).hhdmOffset sampleCold.machine
          = .ok (true, machine)
        ∧ machine.pages.freeCount.toNat = pages - 2 := by
  obtain ⟨start, paged, _, free⟩ :=
    @flat_initialises sampleMachine ⟨rfl, rfl, rfl⟩ pages many few planned
  exact ⟨start, paged, free⟩

/-- In a memory of 16 pages `init` asks for a shell, and too few frames are free. -/
theorem short_asks
    : ∃ lab,
        ReachableAfter sampleImage (flatInfo 16) 0 lab
        ∧ Syscall.ofNumber (lab.cpu.general .rax) = some .spawn
        ∧ spawnable (lab.tasks lab.current).program (lab.cpu.general .rdi) = some .shell
        ∧ lab.machine.pages.freeCount.toNat = 4 := by
  obtain ⟨machine, paged, free⟩ := @flat_paged 16 (by decide) (by decide) (by decide)
  have pages := sample_codePages
  obtain ⟨lab, reached, table, counted⟩ :=
    boots sample_cold (flat_guaranteed 16) rfl sample_sized paged (by omega)
  refine ⟨lab.calling 9 1, reached.calling 9 1, rfl, ?_, ?_⟩
  · change spawnable (lab.tasks lab.current).program 1 = _
    rw [show lab.current = 0 from congrArg ProcessTable.current table, ← lab.userTable_program,
      table]
    rfl
  · change lab.machine.pages.freeCount.toNat = 4
    omega

/-- In the sample the shell runs beside its child. -/
theorem sample_shell_runs
    : ∃ lab shell child,
        ReachableAfter sampleImage sampleInfo 2 lab
        ∧ ShellRuns .hello shell child lab.userTable := by
  obtain ⟨machine, paged, free⟩ := sample_paged
  have pages := sample_codePages
  have permitted : spawnable .shell 2 = some .hello := by decide
  obtain ⟨lab, shell, child, reached, runs, _⟩ :=
    shell_runs sample_cold sample_guaranteed rfl sample_sized paged (by omega) permitted
  exact ⟨lab, shell, child, reached, runs⟩

/-- In the sample a child of the shell runs. -/
theorem sample_child
    : ∃ lab shell child,
        ReachableAfter sampleImage sampleInfo 2 lab
        ∧ ChildRuns .hello shell child lab.userTable := by
  obtain ⟨lab, shell, child, reached, runs⟩ := sample_shell_runs
  obtain ⟨lab', _, reached', runs', _⟩ := reached.child_runs sample_guaranteed (by decide) runs
  exact ⟨lab', shell, child, reached', runs'⟩

end MiniLinux
