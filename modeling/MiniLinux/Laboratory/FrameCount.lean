import MiniLinux.Laboratory.Books

/-! The free frames of a run.
Every live task holds the same number of frames, and nobody else holds any. So the number of free
frames tells the number of live tasks, whatever was spawned, ended or refused before.
-/

namespace MiniLinux

open Foundation Foundation.Halting

instance (process : Process) : Decidable process.Live := inferInstanceAs (Decidable (_ ∨ _))

namespace ProcessTable

variable {table table' : ProcessTable} {action : Action}

/-- The slots of the live processes. -/
def liveSlots (table : ProcessTable) : Finset TaskIndex :=
  Finset.univ.filter fun index => (table.slots index).Live

theorem mem_liveSlots {index : TaskIndex} : index ∈ table.liveSlots ↔ (table.slots index).Live := by
  simp [liveSlots]

theorem liveSlots_same (same : ∀ index, (table'.slots index).Live ↔ (table.slots index).Live)
    : table'.liveSlots = table.liveSlots := by
  ext index
  rw [mem_liveSlots, mem_liveSlots, same]

/-- How the live slots change. -/
inductive LiveStep (table : ProcessTable) (action : Action) (table' : ProcessTable) : Prop
  | keep (endless : ∀ status, action ≠ .terminate status) (same : table'.liveSlots = table.liveSlots)
      (childless
        : ∀ number, action = .spawn number → table'.family = table.family)
      : LiveStep table action table'
  | birth {number : U64} {index : TaskIndex} (spawns : action = .spawn number)
      (permitted : spawnable table.running.program number ≠ none) (dead : index ∉ table.liveSlots)
      (born : table'.liveSlots = insert index table.liveSlots)
      (result : table'.running.context.general .rax = wide table.nextPid)
      : LiveStep table action table'
  | ending {status : U64} (ends : action = .terminate status)
      (gone : table'.liveSlots = table.liveSlots.erase table.current)
      : LiveStep table action table'

end ProcessTable

open ProcessTable

section Steps

variable {table table' : ProcessTable} {action : Action} {index : TaskIndex}

/-- A slot that is not filled stays live or dead. -/
theorem TableStep.live_beside (step : TableStep table action table') (different : index ≠ table.current)
    (empty : table.family index = none → table'.family index = none)
    : (table'.slots index).Live ↔ (table.slots index).Live := by
  have unfilled (free : (table.slots index).state = .unused) : (table'.slots index).state = .unused :=
    Process.member_none.mp (empty (Process.member_none.mpr free))
  generalize same : table'.slots index = process at unfilled
  cases same ▸ step.slot different with
  | kept => rfl
  | filled _ free _ => simp [Process.Live, free, unfilled free]
  | collected _ _ exited => simp [Process.Live, exited]
  | woken _ awaits => simp [Process.Live, awaits.2.1]

/-- The step of the live slots. -/
theorem TableStep.live (step : TableStep table action table') (running : table.running.state = .ready)
    : table.LiveStep action table' := by
  have here := step.live_here running
  have alive : table.current ∈ table.liveSlots := mem_liveSlots.mpr (Or.inl running)
  by_cases ends : ∃ status, action = .terminate status
  · obtain ⟨status, rfl⟩ := ends
    refine .ending rfl ?_
    ext index
    rw [Finset.mem_erase, mem_liveSlots, mem_liveSlots]
    rcases eq_or_ne index table.current with rfl | different
    · exact iff_of_false (fun live => here.mp live status rfl) fun both => both.1 rfl
    · rw [step.live_beside different fun empty => ?_, and_iff_right different]
      cases step.family running with
      | keep same => rw [same, empty]
      | reap _ _ _ gone => rw [gone, Family.departed_other _ different, empty]
      | birth spawns => cases spawns
      | collect waits => cases waits
  · have endless : ∀ status, action ≠ .terminate status := fun status same => ends ⟨status, same⟩
    have still : (table'.slots table.current).Live := here.mpr endless
    have keeps (empty : ∀ index, table.family index = none → table'.family index = none)
        : table'.liveSlots = table.liveSlots := by
      refine liveSlots_same fun index => ?_
      rcases eq_or_ne index table.current with rfl | different
      · exact iff_of_true still (Or.inl running)
      · exact step.live_beside different (empty index)
    cases step.family running with
    | keep same => exact .keep endless (keeps fun index empty => by rw [same, empty]) fun _ _ => same
    | collect waits found exited gone =>
        refine .keep endless (keeps fun index empty => ?_) fun number spawns => ?_
        · rw [gone]
          exact Family.departed_none _ empty
        · cases waits.symm.trans spawns
    | @birth number child program spawns permitted free born result =>
        have dead : child ∉ table.liveSlots := by
          rw [mem_liveSlots]
          exact fun live => live.used (Process.member_none.mp free)
        refine .birth spawns (by rw [permitted]; simp) dead ?_ result
        ext index
        rw [Finset.mem_insert, mem_liveSlots, mem_liveSlots]
        rcases eq_or_ne index child with rfl | other
        · refine iff_of_true ?_ (Or.inl rfl)
          have used' : (table'.slots index).Used := by
            intro unused
            have there := Process.member_none.mpr unused
            change table'.family index = none at there
            rw [born, Family.born_here] at there
            cases there
          obtain ⟨_, fresh⟩ := step.filled running (Process.member_none.mp free) used'
          rw [fresh]
          exact Or.inl rfl
        · rw [or_iff_right other]
          rcases eq_or_ne index table.current with rfl | different
          · exact iff_of_true still (Or.inl running)
          · refine step.live_beside different fun empty => ?_
            rw [born, Family.born_other _ other, empty]
    | reap terminates => exact absurd ⟨_, terminates⟩ ends

end Steps

-----------------------------------------------------------------------------------------
-- Frames
-----------------------------------------------------------------------------------------

/-- The frames that are free or that some live task holds. -/
def Lab.frameTotal (image : List Byte) (lab : Lab) : Nat :=
  lab.machine.pages.freeCount.toNat + (codePages image + 9) * lab.userTable.liveSlots.card

section Frames

variable {image : List Byte} {lab lab' : Lab}

theorem Machine.userStore_pages (machine : Machine) (address : U64) (byte : Byte)
    : (machine.userStore address byte).pages = machine.pages := by
  unfold Machine.userStore
  split <;> rfl

theorem Machine.markEntry_pages (machine : Machine) (address : U64) (level : Nat) (bits : U64)
    : (machine.markEntry address level bits).pages = machine.pages := by
  unfold Machine.markEntry
  split
  · split <;> rfl
  · rfl

/-- A task that ends gives back what every task holds. -/
theorem Departed.counted {status : U64} (departed : Departed lab status lab')
    (kernel : InKernel image lab)
    : lab'.machine.pages.freeCount.toNat
      = lab.machine.pages.freeCount.toNat + (codePages image + 9) := by
  obtain ⟨next, machine, rfl, _, _, returns⟩ := departed.state
  have formed := kernel.partition.formed lab.current (Or.inl kernel.ready)
  have owned : lab.taskCurrent.owned.length = 6 + (codePages image + 3) := by
    have length := Task.owned_length formed.tree
    rw [layoutPaths_card, formed.count, userPages] at length
    exact length
  change machine.pages.freeCount.toNat = _
  rw [returns.counted, owned]
  change (lab.machine.rooted _).pages.freeCount.toNat + _ = _
  rw [Machine.rooted_pages]
  omega

/-- Where no task is born and none ends, the number of free frames stays. -/
theorem InUser.free_kept (user : InUser image lab) {event : LabEvent}
    (stepped : labStep image event lab = .ok ((), lab'))
    (endless : ∀ status, lab.action event ≠ .terminate status)
    (childless
      : ∀ number, lab.action event = .spawn number → lab'.userTable.family = lab.userTable.family)
    : lab'.machine.pages.freeCount = lab.machine.pages.freeCount := by
  obtain ⟨_, _, done⟩ := (user.labStep_spec event).ok stepped
  cases done with
  | run | receive => rfl
  | store => exact congrArg Pages.freeCount (Machine.userStore_pages ..)
  | mark => exact congrArg Pages.freeCount (Machine.markEntry_pages ..)
  | @interrupt vector error cr2 scratch middle ran =>
      have kernel := user.entered vector error scratch
      cases ran with
      | tick => exact congrArg Pages.freeCount (Machine.rooted_pages _ _)
      | fault exception departed =>
          have other : vector.val ≠ 128 := by
            intro same
            simp [same] at exception
          refine absurd ?_ (endless (128 + BitVec.ofNat 64 vector.val))
          rw [Lab.action, if_neg other, if_pos exception]
      | exit call number departed =>
          refine absurd ?_ (endless (lab.entered vector error scratch).savedArguments.rdi)
          rw [← lab.entered_request vector error cr2 scratch, Lab.request, if_pos call, number]
      | wait call number waited => exact congrArg Pages.freeCount waited.pages
      | @spawn value served call number spawned =>
          obtain rfl : vector = 128 := Fin.ext call
          have action := lab.entered_request 128 error cr2 scratch
          rw [Lab.request, if_pos call, number] at action
          cases spawned with
          | forbidden | full => rfl
          | failed _ _ failed => exact failed.restored.counted
          | spawned _ free spawned =>
              exact absurd (childless _ action.symm) (spawned.bears user free _ _ _ _)
      | @call value served call immediate called =>
          obtain ⟨written, _⟩ := called.written kernel.toConsistent kernel.toSelected
          exact (congrArg (fun machine : Machine => machine.pages.freeCount) written.confined).trans rfl

/-- A task that ends, by its own call or by a fault. -/
theorem InUser.free_ended (user : InUser image lab) {event : LabEvent} {status : U64}
    (stepped : labStep image event lab = .ok ((), lab'))
    (action : lab.action event = .terminate status)
    : lab'.machine.pages.freeCount.toNat
      = lab.machine.pages.freeCount.toNat + (codePages image + 9) := by
  obtain ⟨_, _, done⟩ := (user.labStep_spec event).ok stepped
  cases done with
  | run | store | mark | receive => cases action
  | @interrupt vector error cr2 scratch middle ran =>
      have kernel := user.entered vector error scratch
      rw [← lab.entered_request vector error cr2 scratch, Lab.request] at action
      cases ran with
      | tick timer => simp [timer] at action
      | fault exception departed => exact departed.counted (kernel.console _)
      | exit _ _ departed => exact departed.counted kernel
      | wait call number | spawn call number =>
          rw [if_pos call, number] at action
          cases action
      | call call immediate called =>
          rw [if_pos call] at action
          obtain ⟨_, _, notExit⟩ := immediate
          split at action
          · cases action
          · next number => exact absurd number notExit
          · cases action
          · cases action

/-- A spawn is asked for by a call. -/
theorem Lab.action_spawns (lab : Lab) {event : LabEvent} {number : U64}
    (spawns : lab.action event = .spawn number)
    : ∃ error cr2 scratch,
        event = .interrupt 128 error cr2 scratch
        ∧ Syscall.ofNumber (lab.cpu.general .rax) = some .spawn
        ∧ lab.cpu.general .rdi = number := by
  cases event with
  | run | store | mark | receive => cases spawns
  | interrupt vector error cr2 scratch =>
      rw [Lab.action] at spawns
      split_ifs at spawns with call
      obtain rfl : vector = 128 := Fin.ext call
      split at spawns
      · cases spawns
      · cases spawns
      · next named => exact ⟨error, cr2, scratch, rfl, named, Action.spawn.inj spawns⟩
      · cases spawns

/-- Every event keeps the number of frames that are free or that some live task holds. -/
theorem InUser.frameTotal_kept (user : InUser image lab) {event : LabEvent}
    (stepped : labStep image event lab = .ok ((), lab'))
    : lab'.frameTotal image = lab.frameTotal image := by
  obtain ⟨_, step⟩ := user.step stepped
  have running : lab.userTable.running.state = .ready :=
    (congrArg Process.state lab.userTable_running).trans user.ready
  have alive : lab.userTable.current ∈ lab.userTable.liveSlots :=
    ProcessTable.mem_liveSlots.mpr (Or.inl running)
  unfold Lab.frameTotal
  cases step.live running with
  | keep endless same childless => rw [same, user.free_kept stepped endless childless]
  | @ending status ends gone =>
      have positive : 0 < lab.userTable.liveSlots.card := Finset.card_pos.mpr ⟨_, alive⟩
      rw [gone, Finset.card_erase_of_mem alive, user.free_ended stepped ends]
      obtain ⟨count, card⟩ := Nat.exists_eq_succ_of_ne_zero (Nat.ne_of_gt positive)
      rw [card, Nat.succ_sub_one, Nat.succ_eq_add_one, Nat.mul_succ]
      omega
  | @birth number index spawns permitted dead born result =>
      obtain ⟨error, cr2, scratch, rfl, call, rfl⟩ := lab.action_spawns spawns
      obtain ⟨program, permitted⟩ := Option.ne_none_iff_exists'.mp permitted
      have named : lab.userTable.running.program = (lab.tasks lab.current).program :=
        congrArg Process.program lab.userTable_running
      rw [named] at permitted
      obtain ⟨_, stepped', exactly, succeeds, _⟩ := user.spawn_outcome call permitted error cr2 scratch
      cases stepped.symm.trans stepped'
      have number : lab'.cpu.general .rax = wide lab.nextPid :=
        (congrArg (fun context : Context => context.general .rax) lab'.cpu_eq).trans result
      have counted := (succeeds (exactly.mp number)).counted
      rw [born, Finset.card_insert_of_notMem dead, Nat.mul_succ]
      omega

/-- Some event leads from one state to another. -/
def Lab.LeadsTo (image : List Byte) (lab lab' : Lab) : Prop :=
  ∃ event, labStep image event lab = .ok ((), lab')

theorem InUser.run_kept (user : InUser image lab)
    (run : Relation.ReflTransGen (Lab.LeadsTo image) lab lab')
    : InUser image lab' ∧ lab'.frameTotal image = lab.frameTotal image := by
  induction run with
  | refl => exact ⟨user, rfl⟩
  | tail _ last ih =>
      obtain ⟨user', same⟩ := ih
      obtain ⟨event, stepped⟩ := last
      exact ⟨(user'.step stepped).1, (user'.frameTotal_kept stepped).trans same⟩

end Frames

/-- After the boot one task is live. -/
theorem ProcessTable.boot_live : ProcessTable.boot.liveSlots.card = 1 := by
  refine Finset.card_eq_one.mpr ⟨0, ?_⟩
  ext index
  rw [mem_liveSlots, Finset.mem_singleton]
  constructor
  · intro live
    by_contra different
    exact live.used (boot_empty different)
  · rintro rfl
    simp [boot, Process.fresh, Process.Live]

/-- The first task holds its frames after the boot, and all others that `page_init` found are free. -/
theorem kernelMain_total {image : List Byte} {info : BootInfo} {cold start : Lab}
    (booted : kernelMain image info cold = .ok ((), start)) (bare : cold.Cold)
    (guaranteed : info.Guaranteed)
    : ∃ machine,
        pageInit (some info.memmap) info.hhdmOffset cold.machine = .ok (true, machine)
        ∧ start.frameTotal image = machine.pages.freeCount.toNat := by
  obtain ⟨machine, paged, bare', started⟩ := kernelMain_bare booted bare guaranteed
  obtain ⟨_, table, spawned, built, rfl⟩ := taskStart_booted started bare'
  refine ⟨machine, paged, ?_⟩
  have formed := built.formed
  have counted := built.takes.counted
  rw [Task.owned_length formed.tree, formed.count, layoutPaths_card, userPages] at counted
  rw [Lab.frameTotal, table, ProcessTable.boot_live, Nat.mul_one]
  change (spawned.machine.rooted _).pages.freeCount.toNat + _ = _
  rw [Machine.rooted_pages]
  change spawned.machine.pages.freeCount.toNat + _ = machine.pages.freeCount.toNat at counted
  omega

/-- In every state of a run the frames that are free and those of the live tasks, the same number
for each, are all that `page_init` found free: no order of spawns, failed spawns, exits, faults
and waits loses a frame.
-/
theorem no_run_loses_frames {image : List Byte} {info : BootInfo} {cold start lab : Lab}
    (booted : kernelMain image info cold = .ok ((), start)) (bare : cold.Cold)
    (guaranteed : info.Guaranteed) (run : Relation.ReflTransGen (Lab.LeadsTo image) start lab)
    : ∃ machine,
        pageInit (some info.memmap) info.hhdmOffset cold.machine = .ok (true, machine)
        ∧ lab.machine.pages.freeCount.toNat + (codePages image + 9) * lab.userTable.liveSlots.card
          = machine.pages.freeCount.toNat := by
  have user : InUser image start := (Reachable.boot booted bare).user guaranteed
  obtain ⟨machine, paged, total⟩ := kernelMain_total booted bare guaranteed
  exact ⟨machine, paged, (user.run_kept run).2.trans total⟩

/-- In the sample ten frames are missing for each task after `init` has started the shell. -/
theorem no_run_loses_frames_on_sample
    : ∃ start lab,
        kernelMain sampleImage sampleInfo sampleCold = .ok ((), start)
        ∧ Relation.ReflTransGen (Lab.LeadsTo sampleImage) start lab
        ∧ lab.userTable.liveSlots.card = 2
        ∧ lab.machine.pages.freeCount.toNat = 42 := by
  obtain ⟨machine, paged, free⟩ := sample_paged
  have pages := sample_codePages
  obtain ⟨start, booted, counted⟩ :=
    kernelMain_boots sample_cold sample_guaranteed rfl sample_sized paged (by omega)
  obtain ⟨_, _, bare, started⟩ := kernelMain_bare booted sample_cold sample_guaranteed
  have table : start.userTable = .boot := (taskStart_booted started bare).2.1
  let asking : Lab := start.calling 9 1
  have reached : ReachableAfter sampleImage sampleInfo 0 asking :=
    (ReachableAfter.boot booted sample_cold).calling 9 1
  have current : start.current = 0 := congrArg ProcessTable.current table
  have program : (asking.tasks asking.current).program = .init := by
    change (start.tasks start.current).program = _
    rw [current, ← start.userTable_program, table]
    rfl
  have empty : (asking.tasks 1).state = .unused := by
    change (start.tasks 1).state = _
    rw [← start.userTable_state, table]
    exact ProcessTable.boot_empty (by decide)
  have permitted : spawnable (asking.tasks asking.current).program 1 = some .shell := by
    rw [program]
    rfl
  have same : asking.machine.pages.freeCount.toNat = start.machine.pages.freeCount.toNat := rfl
  obtain ⟨lab, _, stepped, _, _, counted'⟩ :=
    (reached.reachable.user sample_guaranteed).spawn_built rfl permitted ⟨1, empty⟩ (by omega) 0 0
      fun _ => 0
  have run : Relation.ReflTransGen (Lab.LeadsTo sampleImage) start lab :=
    .tail (.single ⟨.run (callingContext 9 1), rfl⟩) ⟨.interrupt 128 0 0 fun _ => 0, stepped⟩
  obtain ⟨machine', paged', total⟩ :=
    no_run_loses_frames booted sample_cold sample_guaranteed run
  cases paged.symm.trans paged'
  rw [pages] at total
  exact ⟨start, lab, booted, run, by omega, by omega⟩

end MiniLinux
