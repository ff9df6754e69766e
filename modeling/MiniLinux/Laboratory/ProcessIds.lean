import MiniLinux.Laboratory.Bringup

/-! Process numbers over runs of any length.
A spawn takes the next value of a counter of 32 bits, whether it succeeds or not, and nothing
compares it with the numbers that are in use. So the numbers tell the processes apart as long as
no successful spawn comes a multiple of `2 ^ 32` attempts after one whose process is still there.
-/

namespace MiniLinux

open Foundation

/-- The numbers of the processes tell them apart. -/
structure ProcessTable.Identified (table : ProcessTable) : Prop where
  nonzero : ∀ index, (table.slots index).Used → (table.slots index).id ≠ 0
  distinct
    : ∀ index other,
        (table.slots index).Used
        → (table.slots other).Used
        → (table.slots index).id = (table.slots other).id
        → index = other

/-- A step brings a process into a slot. -/
def ProcessTable.Spawns (table table' : ProcessTable) (child : TaskIndex) : Prop :=
  (table.slots child).state = .unused ∧ (table'.slots child).state ≠ .unused

instance (table table' : ProcessTable) (child : TaskIndex)
    : Decidable (table.Spawns table' child) :=
  inferInstanceAs (Decidable (_ ∧ _))

/-- The processes that a step leaves are old ones under their numbers. -/
def ProcessTable.KeepsNumbers (table table' : ProcessTable) (index : TaskIndex) : Prop :=
  (table'.slots index).Used
  → (table.slots index).Used ∧ (table'.slots index).id = (table.slots index).id

theorem ProcessTable.keepsNumbers_of_role {table table' : ProcessTable} {index : TaskIndex}
    (same : (table.slots index).SameRole (table'.slots index))
    : table.KeepsNumbers table' index := by
  intro used
  rw [Process.Used, same.state] at used
  exact ⟨used, same.id⟩

/-- A step keeps the numbers, fails to spawn, or spawns one process. -/
inductive ProcessTable.Numbers (table table' : ProcessTable) : Prop
  | keep (next : table'.nextPid = table.nextPid) (kept : ∀ index, table.KeepsNumbers table' index)
  | fail (next : table'.nextPid = table.nextPid + 1)
      (kept : ∀ index, table.KeepsNumbers table' index)
  | spawn {child : TaskIndex} (next : table'.nextPid = table.nextPid + 1)
      (born : table.Spawns table' child) (id : (table'.slots child).id = table.nextPid)
      (others : ∀ index, index ≠ child → table.KeepsNumbers table' index)
      (result : table'.running.context.general .rax = wide table.nextPid)

/-- What a step does to the numbers, one case for each step. -/
theorem TableStep.numbers {table table' : ProcessTable} {action : Action}
    (step : TableStep table action table') (running : table.running.state = .ready)
    : table.Numbers table' := by
  have role {table table' : ProcessTable}
      (same : ∀ index, (table.slots index).SameRole (table'.slots index)) (index : TaskIndex)
      : table.KeepsNumbers table' index :=
    ProcessTable.keepsNumbers_of_role (same index)
  cases step with
  | quiet => exact .keep rfl (role fun _ => .refl _)
  | run context =>
      refine .keep rfl (role ?_)
      exact ProcessTable.set_forall (fun _ process process' => process.SameRole process')
        ⟨rfl, rfl, rfl, rfl, rfl⟩ fun _ _ => .refl _
  | tick chosen => exact .keep rfl (role fun _ => .refl _)
  | answered value files => exact .keep rfl (role (table.answered_role value files))
  | spawnRefused number value refused => exact .keep rfl (role (table.answered_role value _))
  | @spawnFailed _ index free process unused =>
      obtain ⟨here, others⟩ := ProcessTable.spawned_slots rfl
      refine .fail rfl fun other => ?_
      rcases eq_or_ne other index with rfl | different
      · rw [ProcessTable.KeepsNumbers, here]
        exact fun used => absurd unused used
      · exact ProcessTable.keepsNumbers_of_role (others other different)
  | @spawned number index program free permitted =>
      obtain ⟨here, others⟩ := ProcessTable.spawned_slots rfl
      refine .spawn rfl ⟨free, ?_⟩ (congrArg Process.id here) ?_ ?_
      · rw [here]
        simp [Process.fresh]
      · exact fun other different => ProcessTable.keepsNumbers_of_role (others other different)
      · have apart : table.current ≠ index := by
          rintro rfl
          cases free.symm.trans running
        have caller : ((table.answered (wide table.nextPid) table.running.files).set index
            (.fresh table.nextPid program table.running.id)).slots table.current
              = { table.running with files := table.running.files }.reply (wide table.nextPid) := by
          rw [ProcessTable.set_other _ apart]
          exact ProcessTable.set_here ..
        refine (congrArg (fun process : Process => process.context.general .rax) caller).trans ?_
        simp [Process.reply]
  | waitRefused none => exact .keep rfl (role (table.answered_role (-3) _))
  | @collected pid index found exited =>
      refine .keep rfl fun other => ?_
      rcases eq_or_ne other index with rfl | different
      · intro used
        rw [ProcessTable.collected, Process.Used, ProcessTable.set_here] at used
        exact absurd rfl used
      · apply ProcessTable.keepsNumbers_of_role
        rw [ProcessTable.collected, ProcessTable.set_other _ different]
        refine ProcessTable.set_forall (fun _ process process' => process.SameRole process') ?_
          (fun _ _ => .refl _) other
        exact ⟨rfl, rfl, rfl, rfl, rfl⟩
  | @blocked pid index next found living chosen =>
      refine .keep rfl ?_
      refine ProcessTable.set_forall
        (fun _ process process' => process'.Used → process.Used ∧ process'.id = process.id) ?_ ?_
      · exact fun _ => ⟨Process.Live.used (Or.inl running), rfl⟩
      · exact fun _ _ used => ⟨used, rfl⟩
  | @ended status next mortal chosen =>
      refine .keep rfl fun other used => ?_
      rcases eq_or_ne other table.current with rfl | away
      · exact ⟨Process.Live.used (Or.inl running), by simp [ProcessTable.ended, ProcessTable.running]⟩
      · simp only [ProcessTable.ended, if_neg away] at used ⊢
        split_ifs at used ⊢ with waits
        · exact ⟨Process.Live.used (Or.inr waits.2.1), rfl⟩
        · exact ⟨used, rfl⟩

-----------------------------------------------------------------------------------------
-- Attempts
-----------------------------------------------------------------------------------------

/-- A number that a successful spawn may take: `attempt` counts all spawns so far, this one
included, and `births` tells for each process which attempt created it.
-/
structure ProcessTable.FreshAttempt (table : ProcessTable) (births : TaskIndex → Nat)
    (attempt : Nat) : Prop where
  nonzero : ¬2 ^ 32 ∣ attempt
  unused : ∀ index, (table.slots index).Used → ¬2 ^ 32 ∣ attempt - births index

/-- The numbers are those of the attempts that created the processes. -/
structure ProcessTable.Attempted (attempts : Nat) (births : TaskIndex → Nat)
    (table : ProcessTable) : Prop where
  next : table.nextPid = BitVec.ofNat 32 (attempts + 1)
  born
    : ∀ index,
        (table.slots index).Used
        → births index ≤ attempts ∧ (table.slots index).id = BitVec.ofNat 32 (births index)
  identified : table.Identified

/-- The attempts that created the processes of the next table. -/
def ProcessTable.birthsTo (table table' : ProcessTable) (attempts : Nat) (births : TaskIndex → Nat)
    : TaskIndex → Nat :=
  fun index => if table.Spawns table' index then attempts + 1 else births index

namespace ProcessTable.Attempted

variable {attempts : Nat} {births : TaskIndex → Nat} {table table' : ProcessTable}

/-- The next number is none that is in use just where the attempt is fresh. -/
theorem fresh_iff (attempted : table.Attempted attempts births)
    : (table.nextPid ≠ 0 ∧ ∀ index, (table.slots index).Used → (table.slots index).id ≠ table.nextPid)
      ↔ table.FreshAttempt births (attempts + 1) := by
  have zero : table.nextPid = 0 ↔ 2 ^ 32 ∣ attempts + 1 := by
    rw [attempted.next, ← BitVec.toNat_inj, BitVec.toNat_ofNat, Nat.dvd_iff_mod_eq_zero]
    rfl
  have same {index : TaskIndex} (used : (table.slots index).Used)
      : (table.slots index).id = table.nextPid ↔ 2 ^ 32 ∣ attempts + 1 - births index := by
    obtain ⟨past, id⟩ := attempted.born index used
    rw [id, attempted.next, ← BitVec.toNat_inj, BitVec.toNat_ofNat, BitVec.toNat_ofNat]
    exact Nat.modEq_iff_dvd' (by omega)
  constructor
  · rintro ⟨nonzero, unused⟩
    exact ⟨zero.not.mp nonzero, fun index used => (same used).not.mp (unused index used)⟩
  · rintro ⟨nonzero, unused⟩
    exact ⟨zero.not.mpr nonzero, fun index used => (same used).not.mpr (unused index used)⟩

/-- A step whose spawn, if it succeeds, is fresh. -/
theorem step (attempted : table.Attempted attempts births) (numbers : table.Numbers table')
    (fresh : ∀ child, table.Spawns table' child → table.FreshAttempt births (attempts + 1))
    : table'.Attempted (attempts + table.numbersTo table') (table.birthsTo table' attempts births) := by
  have old {index : TaskIndex} (kept : table.KeepsNumbers table' index)
      (used : (table'.slots index).Used)
      : (table.slots index).Used
        ∧ (table'.slots index).id = (table.slots index).id
        ∧ table.birthsTo table' attempts births index = births index := by
    obtain ⟨used', id⟩ := kept used
    exact ⟨used', id, if_neg fun born => used' born.1⟩
  -- the processes that stay, with the counter wherever it goes
  have stay {more : Nat} (next : table'.nextPid = BitVec.ofNat 32 (attempts + more + 1))
      (kept : ∀ index, table.KeepsNumbers table' index)
      : table'.Attempted (attempts + more) (table.birthsTo table' attempts births) := by
    refine ⟨next, fun index used => ?_, fun index used => ?_, fun index other used used' same => ?_⟩
    · obtain ⟨used', id, births⟩ := old (kept index) used
      obtain ⟨past, number⟩ := attempted.born index used'
      rw [births, id]
      exact ⟨by omega, number⟩
    · obtain ⟨used', id, _⟩ := old (kept index) used
      exact id ▸ attempted.identified.nonzero index used'
    · obtain ⟨before, id, _⟩ := old (kept index) used
      obtain ⟨before', id', _⟩ := old (kept other) used'
      exact attempted.identified.distinct index other before before' (id ▸ id' ▸ same)
  have advance (next : table'.nextPid = table.nextPid + 1)
      : table'.nextPid = BitVec.ofNat 32 (attempts + 1 + 1) := by
    simp [next, attempted.next, BitVec.ofNat_add]
  cases numbers with
  | keep next kept =>
      rw [numbersTo_same next]
      exact stay (next.trans attempted.next) kept
  | fail next kept =>
      rw [numbersTo_next next]
      exact stay (advance next) kept
  | @spawn child next born id others result =>
      rw [numbersTo_next next]
      obtain ⟨nonzero, unused⟩ := attempted.fresh_iff.mpr (fresh child born)
      have alone {index : TaskIndex} (used : (table'.slots index).Used) (away : index ≠ child)
          : (table'.slots index).id ≠ table.nextPid := by
        obtain ⟨used', id, _⟩ := old (others index away) used
        exact id ▸ unused index used'
      refine ⟨advance next, fun index used => ?_, fun index used => ?_,
        fun index other used used' same => ?_⟩
      · rcases eq_or_ne index child with rfl | away
        · rw [id, attempted.next, birthsTo, if_pos born]
          exact ⟨Nat.le_refl _, rfl⟩
        · obtain ⟨used', id, births⟩ := old (others index away) used
          obtain ⟨past, number⟩ := attempted.born index used'
          rw [births, id]
          exact ⟨by omega, number⟩
      · rcases eq_or_ne index child with rfl | away
        · exact id ▸ nonzero
        · obtain ⟨used', id, _⟩ := old (others index away) used
          exact id ▸ attempted.identified.nonzero index used'
      · rcases eq_or_ne index child with rfl | away
        · rcases eq_or_ne other index with rfl | away'
          · rfl
          · exact absurd (same.symm.trans id) (alone used' away')
        · rcases eq_or_ne other child with rfl | away'
          · exact absurd (same.trans id) (alone used away)
          · obtain ⟨before, id, _⟩ := old (others index away) used
            obtain ⟨before', id', _⟩ := old (others other away') used'
            exact attempted.identified.distinct index other before before' (id ▸ id' ▸ same)

/-- Before the counter wraps every attempt is fresh. -/
theorem freshAttempt (attempted : table.Attempted attempts births) (few : attempts + 1 < 2 ^ 32)
    : table.FreshAttempt births (attempts + 1) := by
  refine ⟨fun divides => ?_, fun index used divides => ?_⟩
  · have := Nat.le_of_dvd (Nat.succ_pos _) divides
    omega
  · have past := (attempted.born index used).1
    have := Nat.le_of_dvd (by omega) divides
    omega

end ProcessTable.Attempted

/-- What a step of the laboratory does to the numbers. -/
theorem InUser.numbers {image : List Byte} {lab lab' : Lab} (user : InUser image lab)
    {event : LabEvent} (stepped : labStep image event lab = .ok ((), lab'))
    : lab.userTable.Numbers lab'.userTable := by
  obtain ⟨_, step, _⟩ := (user.labStep_spec event).ok stepped
  exact step.numbers ((congrArg Process.state lab.userTable_running).trans user.ready)

theorem InUser.spawns_counted {image : List Byte} {lab lab' : Lab} (user : InUser image lab)
    {event : LabEvent} (stepped : labStep image event lab = .ok ((), lab')) {child : TaskIndex}
    (born : lab.userTable.Spawns lab'.userTable child)
    : lab.numbersTo lab' = 1 := by
  cases user.numbers stepped with
  | keep _ kept => exact absurd born.1 (kept child born.2).1
  | fail _ kept => exact absurd born.1 (kept child born.2).1
  | spawn counted =>
      refine if_neg fun same => ProcessTable.succ_ne lab.nextPid ?_
      exact (show lab'.nextPid = lab.nextPid + 1 from counted).symm.trans same

/-- A successful spawn returns the value of the counter. -/
theorem InUser.spawns_result {image : List Byte} {lab lab' : Lab} (user : InUser image lab)
    {event : LabEvent} (stepped : labStep image event lab = .ok ((), lab')) {child : TaskIndex}
    (born : lab.userTable.Spawns lab'.userTable child)
    : lab'.cpu.general .rax = wide lab.nextPid := by
  cases user.numbers stepped with
  | keep _ kept => exact absurd born.1 (kept child born.2).1
  | fail _ kept => exact absurd born.1 (kept child born.2).1
  | spawn _ _ _ _ result =>
      rw [lab'.userTable_running] at result
      exact result

-----------------------------------------------------------------------------------------
-- Runs
-----------------------------------------------------------------------------------------

/-- The states of the runs in which every successful spawn is a fresh attempt, with the number of
attempts, that of `init` included, and the attempts that created the tasks.
-/
inductive ReachableFresh (image : List Byte) (info : BootInfo)
    : Nat → (TaskIndex → Nat) → Lab → Prop
  | boot {cold lab : Lab} (booted : kernelMain image info cold = .ok ((), lab))
      (start : cold.Cold)
      : ReachableFresh image info 1 (fun _ => 1) lab
  | step {attempts : Nat} {births : TaskIndex → Nat} {lab lab' : Lab} (event : LabEvent)
      (reached : ReachableFresh image info attempts births lab)
      (stepped : labStep image event lab = .ok ((), lab'))
      (fresh
        : ∀ child,
            lab.userTable.Spawns lab'.userTable child
            → lab.userTable.FreshAttempt births (attempts + 1))
      : ReachableFresh image info (attempts + lab.numbersTo lab')
          (lab.userTable.birthsTo lab'.userTable attempts births) lab'

theorem ReachableFresh.reachable {image : List Byte} {info : BootInfo} {attempts : Nat}
    {births : TaskIndex → Nat} {lab : Lab}
    (reached : ReachableFresh image info attempts births lab)
    : Reachable image info lab := by
  induction reached with
  | boot booted start => exact .boot booted start
  | step event _ stepped _ ih => exact .step event ih stepped

theorem ProcessTable.attempted_boot : ProcessTable.boot.Attempted 1 (fun _ => 1) := by
  have first {index : TaskIndex} (used : (ProcessTable.boot.slots index).Used) : index = 0 := by
    by_contra different
    exact used (ProcessTable.boot_empty different)
  refine ⟨rfl, fun index used => ?_, fun index used => ?_, fun index other used used' _ => ?_⟩
  · cases first used
    exact ⟨Nat.le_refl _, rfl⟩
  · cases first used
    decide
  · exact (first used).trans (first used').symm

/-- The numbers of a fresh run are those of its attempts. Witness: induction on the run. -/
theorem ReachableFresh.attempted {image : List Byte} {info : BootInfo} {attempts : Nat}
    {births : TaskIndex → Nat} {lab : Lab}
    (reached : ReachableFresh image info attempts births lab) (guaranteed : info.Guaranteed)
    : lab.userTable.Attempted attempts births := by
  induction reached with
  | boot booted start =>
      obtain ⟨_, _, start', started⟩ := kernelMain_bare booted start guaranteed
      rw [(taskStart_booted started start').2.1]
      exact ProcessTable.attempted_boot
  | step event reached stepped fresh ih =>
      have user := reached.reachable.user guaranteed
      exact ih.step (user.numbers stepped) fresh

/-- A run is fresh as long as the counter does not wrap. -/
theorem ReachableAfter.fresh {image : List Byte} {info : BootInfo} {spawns : Nat} {lab : Lab}
    (reached : ReachableAfter image info spawns lab) (guaranteed : info.Guaranteed)
    (few : spawns + 1 < 2 ^ 32)
    : ∃ births, ReachableFresh image info (spawns + 1) births lab := by
  induction reached with
  | boot booted start => exact ⟨_, .boot booted start⟩
  | step event reached stepped ih =>
      obtain ⟨births, fresh⟩ := ih (by omega)
      have next := fresh.step event stepped fun child born => by
        have counted := (reached.reachable.user guaranteed).spawns_counted stepped born
        exact (fresh.attempted guaranteed).freshAttempt (by omega)
      rw [Nat.add_right_comm] at next
      exact ⟨_, next⟩

theorem wide_toInt_pos {number : U32} : 0 < (wide number).toInt ↔ number ≠ 0 := by
  have zero : number = 0 ↔ number.toNat = 0 := by
    rw [← BitVec.toNat_inj]
    rfl
  rw [BitVec.toInt_eq_toNat_of_msb (wide_positive number), wide,
    BitVec.toNat_setWidth_of_le (by decide), Ne, zero]
  omega

/-- In every run in which each successful spawn is a fresh attempt, the numbers of the processes are
distinct and not zero in every state. And there the next successful spawn keeps it so, and returns
a positive number that no process has, if and only if it is a fresh attempt too.
-/
theorem fresh_attempts_identify_processes {image : List Byte} {info : BootInfo} {attempts : Nat}
    {births : TaskIndex → Nat} {lab : Lab}
    (reached : ReachableFresh image info attempts births lab) (guaranteed : info.Guaranteed)
    : lab.userTable.Identified
      ∧ ∀ event lab' child,
          labStep image event lab = .ok ((), lab')
          → lab.userTable.Spawns lab'.userTable child
          → (lab'.userTable.Identified
              ∧ 0 < (lab'.cpu.general .rax).toInt
              ∧ (∀ index,
                  (lab.userTable.slots index).Used
                  → wide (lab.userTable.slots index).id ≠ lab'.cpu.general .rax)
            ↔ lab.userTable.FreshAttempt births (attempts + 1)) := by
  have attempted := reached.attempted guaranteed
  refine ⟨attempted.identified, ?_⟩
  intro event lab' child stepped born
  have user := reached.reachable.user guaranteed
  have numbers := user.numbers stepped
  have result := user.spawns_result stepped born
  rw [result, wide_toInt_pos]
  constructor
  · rintro ⟨_, nonzero, unused⟩
    exact attempted.fresh_iff.mp
      ⟨nonzero, fun index used same => unused index used (congrArg wide same)⟩
  · intro fresh
    obtain ⟨nonzero, unused⟩ := attempted.fresh_iff.mpr fresh
    exact ⟨(attempted.step numbers fun _ _ => fresh).identified, nonzero,
      fun index used same => unused index used (wide_injective same)⟩

/-- The shell that `init` has started starts a child. -/
theorem fresh_attempts_identify_sample_processes
    : ∃ lab lab' births shell child,
        ReachableFresh sampleImage sampleInfo 2 births lab
        ∧ (lab.userTable.slots 0).Plays 1 0 .init .waiting
        ∧ (lab.userTable.slots shell).Plays 2 1 .shell .ready
        ∧ labStep sampleImage (.interrupt 128 0 0 fun _ => 0) lab = .ok ((), lab')
        ∧ lab.userTable.Spawns lab'.userTable child
        ∧ lab.userTable.FreshAttempt births 3
        ∧ lab'.userTable.Identified
        ∧ 0 < (lab'.cpu.general .rax).toInt
        ∧ ∀ index,
            (lab.userTable.slots index).Used
            → wide (lab.userTable.slots index).id ≠ lab'.cpu.general .rax := by
  obtain ⟨machine, paged, free⟩ := sample_paged
  have pages := sample_codePages
  obtain ⟨middle, shell, reached, starts, counted⟩ :=
    shell_starts sample_cold sample_guaranteed rfl sample_sized paged (by omega)
  let asking : Lab := middle.calling 9 2
  have reached' : ReachableAfter sampleImage sampleInfo 1 asking := reached.calling 9 2
  have user := reached'.reachable.user sample_guaranteed
  have role (index : TaskIndex) := middle.calling_role 9 2 index
  obtain ⟨apart, empty⟩ := starts.beside_boot
  have isShell : (asking.tasks asking.current).program = .shell := by
    change (middle.tasks middle.current).program = .shell
    rw [show middle.current = shell from starts.current, ← middle.userTable_program]
    exact starts.born.program
  have spare : ∃ index, (asking.tasks index).state = .unused := by
    have other (slot : TaskIndex) : ∃ index : TaskIndex, index ≠ 0 ∧ index ≠ slot := by
      decide +revert
    obtain ⟨index, away, different⟩ := other shell
    exact ⟨index, (middle.userTable_state index).symm.trans (empty index away different)⟩
  have enough : codePages sampleImage + 9 ≤ asking.machine.pages.freeCount.toNat := by
    change _ ≤ middle.machine.pages.freeCount.toNat
    omega
  have permitted : spawnable (asking.tasks asking.current).program 2 = some .hello := by
    rw [isShell]
    decide
  obtain ⟨lab', child, stepped, unused, table, _⟩ :=
    user.spawn_built rfl permitted spare enough 0 0 fun _ => 0
  obtain ⟨born, _⟩ := ProcessTable.spawned_slots table
  have spawns : asking.userTable.Spawns lab'.userTable child := by
    refine ⟨(asking.userTable_state child).trans unused, ?_⟩
    rw [born]
    exact nofun
  obtain ⟨births, fresh⟩ := reached'.fresh sample_guaranteed (by decide)
  obtain ⟨_, next⟩ := fresh_attempts_identify_processes fresh sample_guaranteed
  have attempt : asking.userTable.FreshAttempt births 3 :=
    (fresh.attempted sample_guaranteed).freshAttempt (by decide)
  obtain ⟨identified, positive, unlike⟩ := (next _ lab' child stepped spawns).mpr attempt
  exact ⟨asking, lab', births, shell, child, fresh, (role 0).plays starts.waits,
    (role shell).plays starts.born, stepped, spawns, attempt, identified, positive, unlike⟩

-----------------------------------------------------------------------------------------
-- The counter wraps
-----------------------------------------------------------------------------------------

/-- The shell runs, nobody else is ready, and a slot is unused. -/
structure ProcessTable.ShellAlone (table : ProcessTable) : Prop where
  program : table.running.program = .shell
  ready : table.running.state = .ready
  others : ∀ index, (table.slots index).state = .ready → index = table.current
  spare : ∃ index, (table.slots index).state = .unused

/-- A started child that nobody else waits for ends; then the parent runs alone again. -/
theorem StartsChild.ended {table table' table'' : ProcessTable} {child : TaskIndex} {spawns : Nat}
    {status : U64} (starts : StartsChild table .hello child table') (sound : table'.Sound spawns)
    (alone : table.ShellAlone)
    (called : ∀ index, (table'.slots index).SameRole (table''.slots index))
    (current : table''.current = child)
    : ((table''.ended status).slots table.current).state = .ready
      ∧ ∀ next,
          ((table''.ended status).slots next).state = .ready
          → ({ table''.ended status with current := next } : ProcessTable).ShellAlone := by
  have apart : table.current ≠ child := by
    rintro same
    have free := starts.free
    rw [← same] at free
    cases free.symm.trans alone.ready
  have running : table''.running = table''.slots child := by rw [ProcessTable.running, current]
  have born := (called child).plays starts.born
  have parent := (called table.current).plays starts.waits
  have awaits : (table''.slots table.current).Awaits table''.running := by
    rw [running]
    refine ⟨parent.id.trans born.parent.symm, parent.state, ?_⟩
    exact ((called table.current).waitingFor.trans starts.awaits).trans born.id.symm
  have awaited : table''.Awaited := ⟨_, awaits⟩
  have woken : (table''.ended status).slots table.current
      = { (table''.slots table.current).reply status with state := .ready } := by
    simp only [ProcessTable.ended, current, if_neg apart, if_pos awaits]
  have gone : ((table''.ended status).slots child).state = .unused := by
    simp [ProcessTable.ended, current, awaited]
  have only (next : TaskIndex) (ready : ((table''.ended status).slots next).state = .ready)
      : next = table.current := by
    by_contra different
    rcases eq_or_ne next child with rfl | away
    · cases gone.symm.trans ready
    · simp only [ProcessTable.ended, current, if_neg away] at ready
      split_ifs at ready with waits
      · -- only the parent has the number that the child knows
        refine different (sound.distinct next table.current ?_ ?_ ?_)
        · exact Process.Live.used (Or.inr ((called next).state ▸ waits.2.1))
        · exact Process.Live.used (Or.inr starts.waits.state)
        · rw [← (called next).id, ← (called table.current).id, waits.1, awaits.1]
      · rw [(called next).state, (starts.others next away different).state] at ready
        exact different (alone.others next ready)
  refine ⟨congrArg Process.state woken, fun next ready => ?_⟩
  cases only next ready
  refine ⟨?_, ready, only, ⟨child, gone⟩⟩
  exact (congrArg Process.program woken).trans (parent.program.trans alone.program)

namespace ReachableAfter

variable {image : List Byte} {info : BootInfo} {spawns : Nat} {lab : Lab}

/-- The shell runs a child that exits at once. -/
theorem runs_child (reached : ReachableAfter image info spawns lab) (guaranteed : info.Guaranteed)
    (bound : spawns + 1 < 2 ^ 32 - 1) (alone : lab.userTable.ShellAlone)
    (enough : codePages image + 9 ≤ lab.machine.pages.freeCount.toNat)
    : ∃ lab',
        ReachableAfter image info (spawns + 1) lab'
        ∧ lab'.userTable.ShellAlone
        ∧ lab'.machine.pages.freeCount.toNat = lab.machine.pages.freeCount.toNat := by
  have permitted : spawnable (lab.tasks lab.current).program 2 = some .hello := by
    have program := alone.program
    rw [ProcessTable.running, lab.userTable_program] at program
    rw [show (lab.tasks lab.current).program = .shell from program]
    rfl
  have others (index : TaskIndex) (ready : (lab.tasks index).state = .ready)
      : index = lab.current :=
    alone.others index ((lab.userTable_state index).trans ready)
  have free : ∃ index, (lab.tasks index).state = .unused := by
    obtain ⟨index, unused⟩ := alone.spare
    exact ⟨index, (lab.userTable_state index).symm.trans unused⟩
  obtain ⟨middle, child, reached₁, starts, counted⟩ :=
    reached.starts_child guaranteed bound permitted free enough others
  let asking : Lab := middle.calling 4 0
  have reached₂ : ReachableAfter image info (spawns + 1) asking := reached₁.calling 4 0
  have current : asking.userTable.current = child := starts.current
  obtain ⟨ready, alone'⟩ := starts.ended (reached₁.sound guaranteed bound) alone
    (fun index => middle.calling_role 4 0 index) current
  have program : (asking.tasks asking.current).program = .hello := by
    rw [← asking.userTable_program, show asking.current = child from current]
    exact (middle.calling_role 4 0 child).program.trans starts.born.program
  obtain ⟨lab', next, stepped, ready', table, returned⟩ :=
    (reached₂.reachable.user guaranteed).exit_returns rfl (by simp [program]) ⟨_, ready⟩ 0 0
      fun _ => 0
  have numbers : asking.numbersTo lab' = 0 := if_pos (congrArg ProcessTable.nextPid table)
  have reached₃ := reached₂.step _ stepped
  rw [numbers] at reached₃
  refine ⟨lab', reached₃, ?_, ?_⟩
  · rw [table]
    exact alone' next ready'
  · rw [returned]
    exact counted

/-- The shell runs many children, one after another. -/
theorem runs_children (reached : ReachableAfter image info spawns lab)
    (guaranteed : info.Guaranteed) (alone : lab.userTable.ShellAlone)
    (enough : codePages image + 9 ≤ lab.machine.pages.freeCount.toNat) (count : Nat)
    (bound : spawns + count < 2 ^ 32 - 1)
    : ∃ lab',
        ReachableAfter image info (spawns + count) lab'
        ∧ lab'.userTable.ShellAlone
        ∧ lab'.machine.pages.freeCount.toNat = lab.machine.pages.freeCount.toNat := by
  induction count with
  | zero => exact ⟨lab, reached, alone, rfl⟩
  | succ count ih =>
      obtain ⟨middle, reached₁, alone₁, same₁⟩ := ih (by omega)
      obtain ⟨lab', reached₂, alone₂, same₂⟩ :=
        reached₁.runs_child guaranteed (by omega) alone₁ (by omega)
      exact ⟨lab', reached₂, alone₂, same₂.trans same₁⟩

end ReachableAfter

/-- In the sample the shell runs alone once `init` has started it. -/
theorem sample_shell
    : ∃ lab,
        ReachableAfter sampleImage sampleInfo 1 lab
        ∧ lab.userTable.ShellAlone
        ∧ lab.machine.pages.freeCount.toNat = 42 := by
  obtain ⟨machine, paged, free⟩ := sample_paged
  have pages := sample_codePages
  obtain ⟨lab, shell, reached, started, counted⟩ :=
    shell_starts sample_cold sample_guaranteed rfl sample_sized paged (by omega)
  have left : lab.machine.pages.freeCount.toNat = 42 := by
    rw [pages, free] at counted
    exact Nat.add_right_cancel counted
  obtain ⟨apart, empty⟩ := started.beside_boot
  have running : lab.userTable.running = lab.userTable.slots shell := by
    rw [ProcessTable.running, started.current]
  refine ⟨lab, reached, ⟨?_, ?_, fun index ready => ?_, ?_⟩, left⟩
  · exact running ▸ started.born.program
  · exact running ▸ started.born.state
  · rw [started.current]
    by_contra different
    rcases eq_or_ne index 0 with rfl | away
    · cases started.waits.state.symm.trans ready
    · cases (empty index away different).symm.trans ready
  · have spare : ∀ slot : TaskIndex, ∃ index : TaskIndex, index ≠ 0 ∧ index ≠ slot := by decide
    obtain ⟨index, away, different⟩ := spare shell
    exact ⟨index, empty index away different⟩

/-- The shell can run children, one after another, until the counter is zero. The next spawn then
succeeds, returns 0, and leaves a task with the number 0.
-/
theorem spawn_returns_zero
    : ∃ lab lab' child,
        Reachable sampleImage sampleInfo lab
        ∧ labStep sampleImage (.interrupt 128 0 0 fun _ => 0) lab = .ok ((), lab')
        ∧ lab.userTable.Spawns lab'.userTable child
        ∧ (lab'.tasks child).state = .ready
        ∧ (lab'.tasks child).id = 0
        ∧ lab'.cpu.general .rax = 0 := by
  obtain ⟨first, reached₀, alone₀, free₀⟩ := sample_shell
  have pages := sample_codePages
  obtain ⟨lab, reached, alone, same⟩ :=
    reached₀.runs_children sample_guaranteed alone₀ (by omega) (2 ^ 32 - 3) (by omega)
  have zero : lab.nextPid = 0 := (reached.sound sample_guaranteed (by omega)).next
  let asking : Lab := lab.calling 9 2
  have reached' : Reachable sampleImage sampleInfo asking := (reached.calling 9 2).reachable
  have user : InUser sampleImage asking := reached'.user sample_guaranteed
  have permitted : spawnable (asking.tasks asking.current).program (asking.cpu.general .rdi)
      = some .hello := by
    have program := alone.program
    rw [ProcessTable.running, lab.userTable_program] at program
    change spawnable (lab.tasks lab.current).program 2 = _
    rw [show (lab.tasks lab.current).program = .shell from program]
    rfl
  have free : ∃ index, (asking.tasks index).state = .unused := by
    obtain ⟨index, unused⟩ := alone.spare
    exact ⟨index, (lab.userTable_state index).symm.trans unused⟩
  have enough : codePages sampleImage + 9 ≤ asking.machine.pages.freeCount.toNat := by
    change _ ≤ lab.machine.pages.freeCount.toNat
    omega
  obtain ⟨lab', child, stepped, unused, table, _⟩ :=
    user.spawn_built rfl permitted free enough 0 0 fun _ => 0
  obtain ⟨born, _⟩ := ProcessTable.spawned_slots table
  have state : (lab'.tasks child).state = .ready := by
    rw [← lab'.userTable_state, born]
    rfl
  have spawns : asking.userTable.Spawns lab'.userTable child := by
    refine ⟨(asking.userTable_state child).trans unused, ?_⟩
    rw [born]
    simp [Process.fresh]
  refine ⟨asking, lab', child, reached', stepped, spawns, state, ?_, ?_⟩
  · obtain ⟨context, slot⟩ := lab'.userTable_slot child
    have id := congrArg Process.id (slot.symm.trans born)
    exact id.trans zero
  · rw [user.spawns_result stepped spawns]
    change wide lab.nextPid = 0
    rw [zero]
    rfl

end MiniLinux
