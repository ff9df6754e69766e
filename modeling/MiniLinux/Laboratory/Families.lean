import MiniLinux.Foundation.Family
import MiniLinux.Laboratory.Bringup
import MiniLinux.Laboratory.SlotSteps

/-! The processes as a family.
A step of the process table bears one member, takes one away, or keeps the family. What a parent
can tell of its children changes at the same moments.
-/

namespace MiniLinux

open Foundation

/-- What a slot holds as a member of the family. -/
def Process.member (process : Process) : Option (Member U32 Program) :=
  if process.state = .unused then none else some ⟨process.id, process.parent, process.program⟩

/-- The used slots as a family. -/
def ProcessTable.family (table : ProcessTable) : Family TaskIndex U32 Program := fun index =>
  (table.slots index).member

theorem Process.member_used {process : Process} (used : process.Used)
    : process.member = some ⟨process.id, process.parent, process.program⟩ :=
  if_neg used

theorem Process.member_none {process : Process} : process.member = none ↔ process.state = .unused := by
  unfold Process.member
  split_ifs with unused <;> simp [unused]

theorem Process.member_inv {process : Process} {member : Member U32 Program}
    (here : process.member = some member)
    : process.Used ∧ member = ⟨process.id, process.parent, process.program⟩ := by
  unfold Process.member at here
  split_ifs at here with unused
  exact ⟨unused, (Option.some.inj here).symm⟩

theorem Process.SameRole.member {process process' : Process} (same : process.SameRole process')
    : process'.member = process.member := by
  rw [Process.member, Process.member, same.state, same.id, same.parent, same.program]

namespace ProcessTable

variable {table table' : ProcessTable} {action : Action}

theorem Sound.distinct_family {spawns : Nat} (sound : table.Sound spawns) : table.family.Distinct := by
  intro slot other member member' here there same
  obtain ⟨used, rfl⟩ := Process.member_inv here
  obtain ⟨used', rfl⟩ := Process.member_inv there
  exact sound.distinct slot other used used' same

/-- What a step does to the family. -/
inductive FamilyStep (table : ProcessTable) (action : Action) (table' : ProcessTable) : Prop
  | keep (same : table'.family = table.family)
  | birth {number : U64} {index : TaskIndex} {program : Program} (spawns : action = .spawn number)
      (permitted : spawnable table.running.program number = some program)
      (free : table.family index = none)
      (born : table'.family = table.family.born index ⟨table.nextPid, table.running.id, program⟩)
      (result : table'.running.context.general .rax = wide table.nextPid)
      : FamilyStep table action table'
  | collect {pid : U64} {index : TaskIndex} (waits : action = .wait pid)
      (found : table.child pid = some index) (exited : (table.slots index).state = .exited)
      (gone : table'.family = table.family.departed index)
      : FamilyStep table action table'
  | reap {status : U64} {parent : TaskIndex} (ends : action = .terminate status)
      (mortal : table.running.program ≠ .init ∧ table.running.program ≠ .shell)
      (awaits : (table.slots parent).Awaits table.running)
      (gone : table'.family = table.family.departed table.current)
      : FamilyStep table action table'

theorem family_of_role (same : ∀ index, (table.slots index).SameRole (table'.slots index))
    : table'.family = table.family :=
  funext fun index => (same index).member

theorem answered_family (table : ProcessTable) (value : U64) (files : Slots)
    : (table.answered value files).family = table.family :=
  family_of_role (table.answered_role value files)

theorem collected_family (table : ProcessTable) (index : TaskIndex)
    : (table.collected index).family = table.family.departed index := by
  funext other
  rcases eq_or_ne other index with rfl | different
  · rw [Family.departed_here]
    exact Process.member_none.mpr (congrArg Process.state (ProcessTable.set_here _ _ _))
  · rw [Family.departed_other _ different]
    exact (Sound.collected_slot table different).member

theorem blocked_family (running : table.running.state = .ready) (pid : U64)
    : (table.blocked pid).family = table.family := by
  funext index
  refine set_forall (fun _ process process' => process'.member = process.member) ?_ (fun _ _ => rfl)
    index
  change Process.member _ = table.running.member
  rw [Process.member_used (Process.Live.used (Or.inl running))]
  rfl

/-- The end of the running process takes it from the family if somebody waits for it. -/
theorem ended_family (running : table.running.state = .ready) (status : U64)
    : (table.ended status).family
      = if table.Awaited then table.family.departed table.current else table.family := by
  have beside {other : TaskIndex} (different : other ≠ table.current)
      : (table.ended status).family other = table.family other := by
    change ((table.ended status).slots other).member = (table.slots other).member
    rcases Sound.ended_slot table status other with ⟨here, _⟩ | ⟨_, awaits, same⟩ | ⟨_, _, same⟩
    · exact absurd here different
    · have used : (table.slots other).Used := Process.Live.used (Or.inr awaits.2.1)
      rw [same, Process.member_used used]
      rfl
    · rw [same]
  have here : (table.ended status).slots table.current
      = { table.running with
          status := status, state := if table.Awaited then .unused else .exited } :=
    if_pos rfl
  funext other
  split_ifs with awaited
  · rcases eq_or_ne other table.current with rfl | different
    · rw [Family.departed_here]
      exact Process.member_none.mpr ((congrArg Process.state here).trans (if_pos awaited))
    · rw [Family.departed_other _ different, beside different]
  · rcases eq_or_ne other table.current with rfl | different
    · change ((table.ended status).slots table.current).member = table.running.member
      rw [here, if_neg awaited, Process.member_used (Process.Live.used (Or.inl running))]
      rfl
    · exact beside different

end ProcessTable

open ProcessTable

/-- The step of the family, one case for each step of the table. -/
theorem TableStep.family {table table' : ProcessTable} {action : Action}
    (step : TableStep table action table') (running : table.running.state = .ready)
    : table.FamilyStep action table' := by
  cases step with
  | quiet => exact .keep rfl
  | run context =>
      refine .keep (family_of_role (set_forall (fun _ process process' => process.SameRole process') ?_
        fun _ _ => .refl _))
      exact ⟨rfl, rfl, rfl, rfl, rfl⟩
  | tick chosen => exact .keep rfl
  | answered value files => exact .keep (table.answered_family value files)
  | spawnRefused number value refused => exact .keep (table.answered_family value _)
  | @spawnFailed _ index free process unused =>
      obtain ⟨here, others⟩ := ProcessTable.spawned_slots rfl
      refine .keep (funext fun other => ?_)
      rcases eq_or_ne other index with rfl | different
      · change (_ : Process).member = (_ : Process).member
        rw [here, Process.member_none.mpr unused, Process.member_none.mpr free]
      · exact (others other different).member
  | @spawned number index program free permitted =>
      obtain ⟨here, others⟩ := ProcessTable.spawned_slots rfl
      refine .birth rfl permitted (Process.member_none.mpr free) (funext fun other => ?_) ?_
      · rcases eq_or_ne other index with rfl | different
        · rw [Family.born_here]
          change (_ : Process).member = _
          rw [here]
          rfl
        · rw [Family.born_other _ different]
          exact (others other different).member
      · have apart : table.current ≠ index := by
          rintro rfl
          cases free.symm.trans running
        have caller : ((table.answered (wide table.nextPid) table.running.files).set index
            (.fresh table.nextPid program table.running.id)).slots table.current
              = { table.running with files := table.running.files }.reply (wide table.nextPid) := by
          rw [ProcessTable.set_other _ apart]
          exact ProcessTable.set_here ..
        refine (congrArg (fun process : Process => process.context.general .rax) caller).trans ?_
        simp [Process.reply]
  | waitRefused none => exact .keep (table.answered_family (-3) _)
  | @collected pid index found exited => exact .collect rfl found exited (table.collected_family index)
  | blocked found living chosen => exact .keep (blocked_family running _)
  | @ended status next mortal chosen =>
      have family := table.ended_family running status
      split_ifs at family with awaited
      · obtain ⟨parent, awaits⟩ := awaited
        exact .reap rfl mortal awaits family
      · exact .keep family

-----------------------------------------------------------------------------------------
-- Children
-----------------------------------------------------------------------------------------

namespace ProcessTable

variable {table table' : ProcessTable} {action : Action} {spawns : Nat} {index : TaskIndex}

/-- The numbers of the children of the process in a slot, collected ones no more. -/
def children (table : ProcessTable) (index : TaskIndex) : Set U64 :=
  wide '' table.family.children (table.slots index).id

/-- What a step is to a process that does not run and stays in its slot. -/
inductive Bystander (table table' : ProcessTable) (index : TaskIndex) : Prop
  | kept (same : table'.slots index = table.slots index)
      (children : table'.children index = table.children index)
  | woken {status : U64} (waited : (table.slots index).state = .waiting)
      (woken : table'.slots index = { (table.slots index).reply status with state := .ready })
      (children
        : table'.children index = table.children index \ {wide (table.slots index).waitingFor})

theorem children_eq {parent : U32} {family : Family TaskIndex U32 Program}
    (same : (table'.slots index).id = parent) (changed : table'.family = family)
    : table'.children index = wide '' family.children parent := by
  rw [children, same, changed]

theorem wide_sdiff (ids : Set U32) (id : U32) : wide '' (ids \ {id}) = wide '' ids \ {wide id} := by
  rw [Set.image_sdiff fun _ _ => wide_injective, Set.image_singleton]

/-- The running process and another one have different numbers. -/
theorem Sound.apart (sound : table.Sound spawns) (running : table.running.state = .ready)
    (used : (table.slots index).Used) (different : index ≠ table.current)
    : table.running.id ≠ (table.slots index).id := by
  intro same
  exact different (sound.distinct index table.current used (Process.Live.used (Or.inl running)) same.symm)

end ProcessTable

/-- A step of another process leaves a process and its children as they are, or the process is
woken by the end of the child that it waits for.
-/
theorem TableStep.bystander {table table' : ProcessTable} {action : Action} {spawns : Nat}
    {index : TaskIndex} (step : TableStep table action table') (sound : table.Sound spawns)
    (running : table.running.state = .ready) (different : index ≠ table.current)
    (used : (table.slots index).Used) (used' : (table'.slots index).Used)
    : table.Bystander table' index := by
  have apart := sound.apart running used different
  have distinct := sound.distinct_family
  by_cases ends : ∃ status, action = .terminate status
  · obtain ⟨status, rfl⟩ := ends
    cases step with
    | @ended _ next mortal chosen =>
        have family := table.ended_family running status
        have here : table.family table.current
            = some ⟨table.running.id, table.running.parent, table.running.program⟩ :=
          Process.member_used (Process.Live.used (Or.inl running))
        rcases Sound.ended_slot table status index with
          ⟨same, _⟩ | ⟨_, awaits, same⟩ | ⟨_, stays, same⟩
        · exact absurd same different
        · refine .woken awaits.2.1 same ?_
          rw [if_pos ⟨index, awaits⟩] at family
          refine (children_eq (congrArg Process.id same) family).trans ?_
          rw [awaits.2.2, children, ← wide_sdiff]
          exact congrArg (wide '' ·) (Family.children_departed distinct here _)
        · refine .kept same ((children_eq (congrArg Process.id same) family).trans ?_)
          refine congrArg (wide '' ·) ?_
          split_ifs with awaited
          · obtain ⟨parent, awaits⟩ := awaited
            refine Family.children_departed_other distinct here fun mine => stays ?_
            have same := sound.distinct parent index (Process.Live.used (Or.inr awaits.2.1)) used
              (awaits.1.trans mine)
            exact same ▸ awaits
          · rfl
  · have slot : table'.slots index = table.slots index := by
      generalize same : table'.slots index = process at used'
      cases same ▸ step.slot different with
      | kept => rfl
      | filled _ free => exact absurd free used
      | collected waits found exited => exact absurd rfl used'
      | woken terminates _ => exact absurd ⟨_, terminates⟩ ends
    refine .kept slot ((children_eq (congrArg Process.id slot) rfl).trans ?_)
    refine congrArg (wide '' ·) ?_
    cases step.family running with
    | keep same => rw [same]
    | birth spawns permitted free born result =>
        rw [born]
        exact Family.children_born_other free apart
    | @collect pid child waits found exited gone =>
        obtain ⟨used, _, parent⟩ := Sound.child_spec found
        rw [gone]
        exact Family.children_departed_other distinct (Process.member_used used) (parent ▸ apart)
    | reap terminates => exact absurd ⟨_, terminates⟩ ends

section Roles

variable {table table' : ProcessTable} {action : Action} {index : TaskIndex}

/-- The running process stays live unless it ends. -/
theorem TableStep.live_here (step : TableStep table action table')
    (running : table.running.state = .ready)
    : (table'.slots table.current).Live ↔ ∀ status, action ≠ .terminate status := by
  have busy {process : Process} (same : table'.slots table.current = process)
      (live : process.Live) (endless : ∀ status, action ≠ .terminate status)
      : (table'.slots table.current).Live ↔ ∀ status, action ≠ .terminate status :=
    iff_of_true (same ▸ live) endless
  have apart {slot : TaskIndex} (free : (table.slots slot).state ≠ .ready) : table.current ≠ slot := by
    rintro rfl
    exact free running
  cases step with
  | quiet | tick => exact busy rfl (Or.inl running) fun _ ends => nomatch ends
  | run context => exact busy (table.set_here _ _) (Or.inl running) fun _ ends => nomatch ends
  | answered | spawnRefused | waitRefused =>
      exact busy (table.set_here _ _) (Or.inl running) fun _ ends => nomatch ends
  | spawnFailed number free unused =>
      have away := apart (by rw [free]; decide)
      exact busy ((set_other _ away _).trans (table.set_here _ _)) (Or.inl running)
        fun _ ends => nomatch ends
  | spawned free permitted =>
      have away := apart (by rw [free]; decide)
      exact busy ((set_other _ away _).trans (table.set_here _ _)) (Or.inl running)
        fun _ ends => nomatch ends
  | @collected pid child found exited =>
      have away := apart (by rw [exited]; decide)
      exact busy ((set_other _ away _).trans (table.set_here _ _)) (Or.inl running)
        fun _ ends => nomatch ends
  | blocked found living chosen =>
      exact busy (table.set_here _ _) (Or.inr rfl) fun _ ends => nomatch ends
  | @ended status next mortal chosen =>
      refine iff_of_false ?_ fun endless => endless status rfl
      have here : (table.ended status).slots table.current
          = { table.running with
              status := status, state := if table.Awaited then .unused else .exited } :=
        if_pos rfl
      change ¬((table.ended status).slots table.current).Live
      rw [here, Process.Live]
      split_ifs <;> simp

/-- A process stays the same member while it is in its slot. -/
theorem TableStep.same_member
    (step : TableStep table action table') (running : table.running.state = .ready)
    (used : (table.slots index).Used) (used' : (table'.slots index).Used)
    : (table'.slots index).member = (table.slots index).member := by
  have here : table.family index ≠ none := fun none => used (Process.member_none.mp none)
  have there : table'.family index ≠ none := fun none => used' (Process.member_none.mp none)
  change table'.family index = table.family index
  cases step.family running with
  | keep same => rw [same]
  | @birth number child program spawns permitted free born result =>
      rw [born]
      refine Family.born_other _ ?_ _
      rintro rfl
      exact here free
  | @collect pid child waits found exited gone =>
      rw [gone] at there ⊢
      refine Family.departed_other _ ?_
      rintro rfl
      exact there (Family.departed_here ..)
  | reap ends mortal awaits gone =>
      rw [gone] at there ⊢
      refine Family.departed_other _ ?_
      rintro rfl
      exact there (Family.departed_here ..)

end Roles

-----------------------------------------------------------------------------------------
-- Generations
-----------------------------------------------------------------------------------------

/-- The first process is `init`, its children are shells, and all others are children of shells. -/
structure ProcessTable.Generations (table : ProcessTable) : Prop where
  first : table.family 0 = some ⟨1, 0, .init⟩
  later
    : ∀ index member,
        table.family index = some member
        → index ≠ 0
        → member.parent = 1 ∧ member.role = .shell
          ∨ (member.role ≠ .init ∧ member.role ≠ .shell)
            ∧ ∃ slot grand, table.family slot = some ⟨member.parent, grand, .shell⟩
  exited
    : ∀ index,
        (table.slots index).state = .exited
        → (table.slots index).program ≠ .init ∧ (table.slots index).program ≠ .shell

theorem spawnable_shell {caller program : Program} {number : U64}
    (permitted : spawnable caller number = some program)
    : caller = .init ∧ program = .shell
      ∨ caller = .shell ∧ program ≠ .init ∧ program ≠ .shell := by
  unfold spawnable at permitted
  split at permitted <;> cases permitted <;> simp

section Generations

variable {table table' : ProcessTable} {action : Action} {index : TaskIndex}

/-- Only mortal processes are found ended. -/
theorem TableStep.exited (step : TableStep table action table') (running : table.running.state = .ready)
    (before
      : (table.slots index).state = .exited
        → (table.slots index).program ≠ .init ∧ (table.slots index).program ≠ .shell)
    (exited : (table'.slots index).state = .exited)
    : (table'.slots index).program ≠ .init ∧ (table'.slots index).program ≠ .shell := by
  rcases eq_or_ne index table.current with rfl | different
  · by_cases ends : ∃ status, action = .terminate status
    · obtain ⟨status, rfl⟩ := ends
      cases step with
      | @ended _ next mortal chosen =>
          have same := (Sound.ended_named table status table.current).2.2
          change ((table.ended status).slots table.current).program ≠ .init
            ∧ ((table.ended status).slots table.current).program ≠ .shell
          rw [same]
          exact mortal
    · have live := (step.live_here running).mpr fun status same => ends ⟨status, same⟩
      rw [Process.Live, exited] at live
      simp at live
  · generalize same : table'.slots index = process at exited
    cases same ▸ step.slot different with
    | kept => exact before exited
    | filled _ _ born =>
        rcases born with unused | ⟨_, _, rfl⟩
        · cases unused.symm.trans exited
        · cases exited
    | collected | woken => cases exited

/-- A family without a mortal member. -/
theorem ProcessTable.Generations.departed (generations : table.Generations)
    {member : Member U32 Program} (here : table.family index = some member)
    (mortal : member.role ≠ .init ∧ member.role ≠ .shell)
    (gone : table'.family = table.family.departed index)
    (exited
      : ∀ index,
          (table'.slots index).state = .exited
          → (table'.slots index).program ≠ .init ∧ (table'.slots index).program ≠ .shell)
    : table'.Generations := by
  have stays {slot : TaskIndex} {other : Member U32 Program} (there : table.family slot = some other)
      (immortal : other.role = .init ∨ other.role = .shell)
      : table'.family slot = some other := by
    have different : slot ≠ index := by
      rintro rfl
      cases here.symm.trans there
      exact immortal.elim mortal.1 mortal.2
    rw [gone, Family.departed_other _ different, there]
  refine ⟨stays generations.first (Or.inl rfl), fun slot other there away => ?_, exited⟩
  rw [gone] at there
  obtain ⟨_, there⟩ := Family.departed_inv there
  rcases generations.later slot other there away with shell | ⟨role, parent, grand, above⟩
  · exact Or.inl shell
  · exact Or.inr ⟨role, parent, grand, stays above (Or.inr rfl)⟩

/-- Every step keeps the generations. -/
theorem TableStep.generations (step : TableStep table action table')
    (running : table.running.state = .ready) (generations : table.Generations)
    : table'.Generations := by
  have exited (index : TaskIndex) := step.exited running (generations.exited index)
  have here : table.family table.current
      = some ⟨table.running.id, table.running.parent, table.running.program⟩ :=
    Process.member_used (Process.Live.used (Or.inl running))
  cases step.family running with
  | keep same =>
      refine ⟨by rw [same]; exact generations.first, fun index member there away => ?_, exited⟩
      rw [same] at there ⊢
      exact generations.later index member there away
  | @birth number child program spawns permitted free born result =>
      have stays {slot : TaskIndex} {other : Member U32 Program} (there : table.family slot = some other)
          : table'.family slot = some other := by
        have different : slot ≠ child := by
          rintro rfl
          cases free.symm.trans there
        rw [born, Family.born_other _ different, there]
      refine ⟨stays generations.first, fun index member there away => ?_, exited⟩
      rw [born] at there
      rcases Family.born_inv there with ⟨rfl, rfl⟩ | ⟨_, old⟩
      · rcases spawnable_shell permitted with ⟨caller, rfl⟩ | ⟨caller, role⟩
        · refine Or.inl ⟨?_, rfl⟩
          rw [caller] at here
          have first : table.current = 0 := by
            by_contra other
            rcases generations.later table.current _ here other with ⟨_, shell⟩ | ⟨⟨role, _⟩, _⟩
            · cases shell
            · exact role rfl
          rw [first, generations.first] at here
          exact (congrArg Member.id (Option.some.inj here)).symm
        · exact Or.inr ⟨role, table.current, table.running.parent, stays (caller ▸ here)⟩
      · rcases generations.later index member old away with shell | ⟨role, parent, grand, above⟩
        · exact Or.inl shell
        · exact Or.inr ⟨role, parent, grand, stays above⟩
  | @collect pid child waits found ended gone =>
      have used : (table.slots child).Used := (Sound.child_spec found).1
      exact generations.departed (Process.member_used used) (generations.exited child ended) gone exited
  | reap ends mortal awaits gone => exact generations.departed here mortal gone exited

theorem ProcessTable.boot_generations : ProcessTable.boot.Generations := by
  have alone {index : TaskIndex} {member : Member U32 Program}
      (there : ProcessTable.boot.family index = some member)
      : index = 0 := by
    by_contra different
    exact (Process.member_inv there).1 (ProcessTable.boot_empty different)
  refine ⟨rfl, fun index member there away => absurd (alone there) away, fun index exited => ?_⟩
  rcases eq_or_ne index 0 with rfl | different
  · cases exited
  · cases exited.symm.trans (ProcessTable.boot_empty different)

/-- The generations of a run. Witness: induction on the run. -/
theorem Reachable.generations {image : List Byte} {info : BootInfo} {lab : Lab}
    (reached : Reachable image info lab) (guaranteed : info.Guaranteed)
    : lab.userTable.Generations := by
  induction reached with
  | boot booted start =>
      obtain ⟨_, _, bare, started⟩ := kernelMain_bare booted start guaranteed
      rw [(taskStart_booted started bare).2.1]
      exact ProcessTable.boot_generations
  | @step lab lab' event reached stepped ih =>
      have user := reached.user guaranteed
      exact (user.step stepped).2.generations
        ((congrArg Process.state lab.userTable_running).trans user.ready) ih

/-- A member of the family that never ends is live. -/
theorem ProcessTable.Generations.live (generations : table.Generations) {member : Member U32 Program}
    (here : table.family index = some member) (immortal : member.role = .init ∨ member.role = .shell)
    : (table.slots index).Live := by
  obtain ⟨used, rfl⟩ := Process.member_inv here
  cases state : (table.slots index).state with
  | unused => exact absurd state used
  | ready => exact Or.inl state
  | waiting => exact Or.inr state
  | exited =>
      obtain ⟨notInit, notShell⟩ := generations.exited index state
      exact absurd immortal (not_or_intro notInit notShell)

theorem spawnable_mortal {program : Program} (mortal : program ≠ .init ∧ program ≠ .shell)
    : ∃ number, spawnable .shell number = some program := by
  cases program with
  | init => exact absurd rfl mortal.1
  | shell => exact absurd rfl mortal.2
  | hello => exact ⟨2, rfl⟩
  | reader => exact ⟨3, rfl⟩
  | counterA => exact ⟨4, rfl⟩
  | counterB => exact ⟨5, rfl⟩
  | fault => exact ⟨6, rfl⟩

/-- One process is the parent of another: it has the number, has not ended, and may start the
program.
-/
structure ProcessTable.Parent (table : ProcessTable) (index parent : TaskIndex) : Prop where
  live : (table.slots parent).Live
  number : (table.slots parent).id = (table.slots index).parent
  permitted
    : ∃ number, spawnable (table.slots parent).program number = some (table.slots index).program

/-- In every state of every run `init` is process 1 and has not ended, and every other process, an
ended one too, has a parent that has not ended and may start what it runs. So nobody is orphaned,
and the parent of every result still can collect it.
-/
theorem no_process_is_orphaned {image : List Byte} {info : BootInfo} {lab : Lab}
    (reached : Reachable image info lab) (guaranteed : info.Guaranteed)
    : ((lab.userTable.slots 0).Live
        ∧ (lab.userTable.slots 0).id = 1
        ∧ (lab.userTable.slots 0).program = .init)
      ∧ ∀ index,
          (lab.userTable.slots index).Used → index ≠ 0 → ∃ parent, lab.userTable.Parent index parent := by
  have generations := reached.generations guaranteed
  obtain ⟨_, first⟩ := Process.member_inv generations.first
  have id : (lab.userTable.slots 0).id = 1 := (congrArg Member.id first).symm
  have init : (lab.userTable.slots 0).program = .init := (congrArg Member.role first).symm
  refine ⟨⟨generations.live generations.first (Or.inl rfl), id, init⟩, fun index used away => ?_⟩
  rcases generations.later index _ (Process.member_used used) away with
    ⟨parent, shell⟩ | ⟨mortal, slot, grand, above⟩
  · refine ⟨0, generations.live generations.first (Or.inl rfl), id.trans parent.symm, 1, ?_⟩
    rw [init, show (lab.userTable.slots index).program = .shell from shell]
    rfl
  · obtain ⟨_, same⟩ := Process.member_inv above
    refine ⟨slot, generations.live above (Or.inr rfl), (congrArg Member.id same).symm, ?_⟩
    rw [show (lab.userTable.slots slot).program = .shell from (congrArg Member.role same).symm]
    exact spawnable_mortal mortal

/-- In the sample the parent of the shell's child is the shell, which waits for it. -/
theorem no_process_is_orphaned_on_sample
    : ∃ lab child parent,
        Reachable sampleImage sampleInfo lab
        ∧ (lab.userTable.slots child).program = .hello
        ∧ lab.userTable.Parent child parent := by
  obtain ⟨lab, shell, child, reached, runs⟩ := sample_child
  have used : (lab.userTable.slots child).Used := by
    rw [Process.Used, runs.born.state]
    decide
  obtain ⟨parent, here⟩ :=
    (no_process_is_orphaned reached.reachable sample_guaranteed).2 child used runs.apart.2.1
  exact ⟨lab, child, parent, reached.reachable, runs.born.program, here⟩

end Generations

end MiniLinux
