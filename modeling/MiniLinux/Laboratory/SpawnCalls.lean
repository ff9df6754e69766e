import MiniLinux.Laboratory.Effects

/-! `SYS_SPAWN` from user mode: it takes exactly the frames of one task, or nothing.
A spawn that the program check lets through succeeds exactly where a slot is unused and the
frames of a task are free; where it fails, only the next number and the allocator's hint and free
frames may differ.
-/

namespace MiniLinux

open Foundation Foundation.Halting

/-- The state after a spawn that built a task. -/
structure SpawnSucceeds (image : List Byte) (program : Program) (lab lab' : Lab) : Prop where
  result : lab'.cpu.general .rax = wide lab.nextPid
  counted
    : lab'.machine.pages.freeCount.toNat + (codePages image + 9)
      = lab.machine.pages.freeCount.toNat
  task
    : ∃ index,
        (lab.tasks index).state = .unused
        ∧ (lab'.tasks index).state = .ready
        ∧ (lab'.tasks index).id = lab.nextPid
        ∧ (lab'.tasks index).program = program
        ∧ (lab'.tasks index).pages.length = codePages image + 3
        ∧ (lab'.tasks index).privateSpace.tables.length = 6
        ∧ ∀ k < codePages image + 3,
            ∃ frame ∈ (lab'.tasks index).pages,
              lab'.machine.vmLookup (lab'.tasks index).space (mappingAddress image k) 0 0
                = (true, frame, layoutFlags image k)

/-- The state after a spawn that built nothing. Of what `Lab.Refused` leaves open only the next number
has a use: it advances exactly where a slot is unused.
-/
structure SpawnLeaves (lab lab' : Lab) : Prop extends lab.Refused lab' where
  result : lab'.cpu.general .rax = -5
  advanced : (∃ index, (lab.tasks index).state = .unused) → lab'.nextPid = lab.nextPid + 1
  full
    : (∀ index, (lab.tasks index).state ≠ .unused)
      → lab'.nextPid = lab.nextPid ∧ lab'.machine = lab.machine
  cr3 : lab'.machine.cr3 = lab.machine.cr3
  processes
    : ∀ index,
        (lab.tasks index).state ≠ .unused
        → lab'.userTable.slots index
          = if index = lab.current then (lab.userTable.slots index).reply (-5)
            else lab.userTable.slots index
  mappings
    : ∀ index,
        (lab.tasks index).state ≠ .unused
        → ∀ address,
            lab'.machine.vmLookup (lab'.tasks index).space address 0 0
              = lab.machine.vmLookup (lab.tasks index).space address 0 0
  pages : ∀ index byte, lab.InPage index byte → lab'.InPage index byte

/-- Equal frames behind equal maps: the lookups of a slot are the same. -/
theorem Partition.lookup_same {image : List Byte} {owner owner' : TaskIndex → Prop} {lab lab' : Lab}
    (partition : Partition image owner lab) (partition' : Partition image owner' lab')
    {index : TaskIndex} (same : (lab.tasks index).SameHoldings (lab'.tasks index))
    (owners : owner' index ↔ owner index) (address : U64)
    : lab'.machine.vmLookup (lab'.tasks index).space address 0 0
      = lab.machine.vmLookup (lab.tasks index).space address 0 0 := by
  have space : (lab'.tasks index).space = (lab.tasks index).space := by
    simp only [Task.space, same.hasSpace, same.privateSpace]
  rw [space]
  by_cases owns : owner index
  · have formed := partition.formed index owns
    have formed' := partition'.formed index (owners.mpr owns)
    rw [formed.space, formed.tree.vmLookup_eq partition.ready, formed.mapping, ← same.pages,
      ← formed'.mapping, ← formed'.tree.vmLookup_eq partition'.ready, same.privateSpace]
  · obtain ⟨nothing, _⟩ := partition.empty index owns
    have none : (lab.tasks index).space = .none ∨ (lab.tasks index).space = some .zero := by
      simp only [Task.space, nothing]
      split <;> simp
    rcases none with none | zero
    · rw [none]
      rfl
    · rw [zero]
      rfl

section Steps

variable {image : List Byte} {lab : Lab}

/-- The call returns to its caller. -/
theorem InUser.spawn_step (user : InUser image lab)
    (call : Syscall.ofNumber (lab.cpu.general .rax) = some .spawn) (error cr2 : U64)
    (scratch : Stack)
    : ∃ value served,
        SpawnCall image (lab.entered 128 error scratch) (lab.cpu.general .rdi) value served
        ∧ labStep image (.interrupt 128 error cr2 scratch) lab
          = .ok ((),
              (served.finished lab.taskCurrent.id (lab.cpu.general .rax) lab.arguments value).left)
        := by
  let entered : Lab := lab.entered 128 error scratch
  have number : entered.savedNumber = lab.cpu.general .rax :=
    lab.entered_savedField 128 error scratch (.general .rax)
  have arguments : entered.savedArguments = lab.arguments := lab.entered_arguments 128 error scratch
  have id : entered.taskCurrent.id = lab.taskCurrent.id :=
    lab.entered_id 128 error scratch
  have request : entered.request 128 = .spawn entered.savedArguments.rdi := by
    rw [Lab.request, if_pos rfl, number, call]
  have outcome := user.labStep_spec (.interrupt 128 error cr2 scratch)
  cases stepped : labStep image (.interrupt 128 error cr2 scratch) lab with
  | error reason =>
      have halted : KernelHalt 128 entered reason := outcome.error stepped
      cases halted with
      | exit terminates _ => cases terminates.symm.trans request
      | wait waits _ _ _ => cases waits.symm.trans request
      | unexpected unhandled => simp at unhandled
  | ok pair =>
      obtain ⟨_, _, done⟩ := outcome.ok stepped
      obtain ⟨_, lab'⟩ := pair
      cases done with
      | @interrupt _ _ _ _ middle ran =>
          cases ran with
          | tick timer => exact absurd timer (by decide)
          | fault exception departed => simp at exception
          | exit _ called departed => cases (number ▸ called).symm.trans call
          | wait _ called waited => cases (number ▸ called).symm.trans call
          | call _ immediate called => exact absurd (number ▸ call) immediate.1
          | @spawn value served _ called spawned =>
              have rdi : entered.savedArguments.rdi = lab.cpu.general .rdi :=
                congrArg Arguments.rdi arguments
              change SpawnCall image entered entered.savedArguments.rdi value served at spawned
              rw [rdi] at spawned
              have left : labStep image (.interrupt 128 error cr2 scratch) lab
                  = .ok ((), (served.finished entered.taskCurrent.id entered.savedNumber
                      entered.savedArguments value).left) :=
                stepped
              rw [arguments, number, id] at left
              exact ⟨value, served, spawned, stepped.symm.trans left⟩

/-- The new task has its pages and tables, and its caller the number. -/
theorem Spawned.succeeds {image : List Byte} {lab served : Lab} {program : Program}
    {index : TaskIndex} {parent : U32} (spawned : Spawned image program parent index lab served)
    (kernel : InKernel image lab) (free : (lab.tasks index).state = .unused) (id : U32)
    (number : U64) (arguments : Arguments)
    : SpawnSucceeds image program lab
        (served.finished id number arguments (wide lab.nextPid)).left := by
  have formed := spawned.formed
  have ready := spawned.takes.ready kernel.partition.ready
  have length := Task.owned_length formed.tree
  obtain ⟨_, _, _, here⟩ := spawned.task
  have current : served.current = lab.current := congrArg ProcessTable.current spawned.table
  have apart : index ≠ served.current := current ▸ (kernel.unused_apart free).1
  have same : (served.finished id number arguments (wide lab.nextPid)).left.tasks index
      = served.tasks index :=
    served.finished_other id number arguments (wide lab.nextPid) apart
  refine ⟨served.finished_result id number arguments (wide lab.nextPid), ?_, index, free, ?_⟩
  · have counted := spawned.takes.counted
    rw [length, formed.count, layoutPaths_card, userPages] at counted
    change served.machine.pages.freeCount.toNat + _ = _
    omega
  · rw [same]
    refine ⟨by rw [here], by rw [here]; rfl, by rw [here]; rfl, formed.count, ?_, ?_⟩
    · rw [formed.tree.counted, layoutPaths_card]
    · intro k inside
      exact formed.lookup ready kernel.sized inside

/-- A call that failed in the kernel after it has kept all. -/
theorem InUser.spawn_leaves {image : List Byte} {lab served : Lab} (user : InUser image lab)
    {error : U64} {scratch : Stack} (kernel : InKernel image served)
    (kept : (lab.entered 128 error scratch).Kept served)
    (running : served.taskCurrent = (lab.entered 128 error scratch).taskCurrent)
    (number
      : ((∃ index, (lab.tasks index).state = .unused) ∧ served.nextPid = lab.nextPid + 1)
        ∨ ((∀ index, (lab.tasks index).state ≠ .unused)
          ∧ served.nextPid = lab.nextPid
          ∧ served.machine = lab.machine))
    (id : U32) (call : U64) (arguments : Arguments)
    : SpawnLeaves lab (served.finished id call arguments (-5)).left := by
  have context : served.taskCurrent.context = lab.cpu := by
    rw [running]
    exact lab.entered_context 128 error scratch
  have nextPid : served.nextPid = lab.nextPid ∨ served.nextPid = lab.nextPid + 1 :=
    number.elim (fun free => Or.inr free.2) (fun full => Or.inl full.2.1)
  have refused : lab.Refused (served.finished id call arguments (-5)).left :=
    user.refused kernel kept context nextPid id call arguments (-5)
  have kernel' : InKernel image (served.finished id call arguments (-5)) :=
    kernel.finished id call arguments (-5)
  have process {index : TaskIndex} (used : (lab.tasks index).state ≠ .unused)
      : served.table.slots index = lab.userTable.slots index := by
    rw [← lab.entered_table 128 error scratch]
    rcases eq_or_ne index lab.current with rfl | different
    · have here : served.tasks lab.current = (lab.entered 128 error scratch).tasks lab.current := by
        rw [Lab.taskCurrent, kept.current] at running
        exact running
      exact congrArg Task.process here
    · refine congrArg Task.process (kept.others index different ?_)
      rw [(lab.entered_same 128 error scratch index).state]
      exact used
  refine ⟨refused, served.finished_result id call arguments (-5), ?_, ?_, refused.restored.record.cr3,
    ?_, ?_, ?_⟩
  · intro free
    rcases number with ⟨_, next⟩ | ⟨full, _⟩
    · exact next
    · obtain ⟨index, unused⟩ := free
      exact absurd unused (full index)
  · intro full
    rcases number with ⟨⟨index, unused⟩, _⟩ | ⟨_, same⟩
    · exact absurd unused (full index)
    · exact same
  · intro index here
    have table : (served.finished id call arguments (-5)).left.userTable
        = served.table.set served.current (served.table.running.reply (-5)) :=
      (Lab.left_table _).trans (served.finished_table id call arguments (-5))
    have slot := congrArg (fun table : ProcessTable => table.slots index) table
    refine slot.trans ?_
    rw [show served.current = lab.current from kept.current]
    split
    · next same =>
        subst same
        rw [← process here]
        exact (Function.update_self ..).trans (congrArg (fun slot =>
          Process.reply (served.table.slots slot) (-5)) kept.current)
    · next different =>
        rw [← process here]
        exact Function.update_of_ne different ..
  · intro index here address
    exact user.partition.lookup_same kernel'.partition (refused.slot here).toSameHoldings
      (refused.live index) address
  · intro index byte inside
    obtain ⟨page, member, frame⟩ := inside
    have owns : lab.live index := by
      by_contra dead
      rw [(user.partition.empty index dead).2] at member
      cases member
    have used : (lab.tasks index).state ≠ .unused := by
      intro unused
      rw [Lab.live, Task.Live, unused] at owns
      simp at owns
    exact ⟨page, (refused.slot used).pages ▸ member, frame⟩

/-- A spawn that failed for want of frames. -/
theorem SpawnFailed.leaves {image : List Byte} {lab served : Lab} (user : InUser image lab)
    {error : U64} {scratch : Stack} {index : TaskIndex}
    (failed : SpawnFailed image index (lab.entered 128 error scratch) served)
    (free : ((lab.entered 128 error scratch).tasks index).state = .unused) (id : U32)
    (number : U64) (arguments : Arguments)
    : SpawnLeaves lab (served.finished id number arguments (-5)).left := by
  have kernel := user.entered 128 error scratch
  have before : (lab.tasks index).state = .unused :=
    (lab.entered_same 128 error scratch index).state.symm.trans free
  exact user.spawn_leaves (failed.kernel kernel free) (failed.kept kernel free)
    (failed.running kernel free) (Or.inl ⟨⟨index, before⟩, failed.nextPid⟩) id number arguments

end Steps

/-- The outcomes of a permitted spawn from user mode. -/
theorem InUser.spawn_outcome {image : List Byte} {lab : Lab} (user : InUser image lab)
    (call : Syscall.ofNumber (lab.cpu.general .rax) = some .spawn) {program : Program}
    (permitted
      : spawnable (lab.tasks lab.current).program (lab.cpu.general .rdi) = some program)
    (error cr2 : U64) (scratch : Stack)
    : let enough :=
        (∃ index, (lab.tasks index).state = .unused)
        ∧ codePages image + 9 ≤ lab.machine.pages.freeCount.toNat
      ∃ lab',
        labStep image (.interrupt 128 error cr2 scratch) lab = .ok ((), lab')
        ∧ (lab'.cpu.general .rax = wide lab.nextPid ↔ enough)
        ∧ (enough → SpawnSucceeds image program lab lab')
        ∧ (¬enough → SpawnLeaves lab lab') := by
  have kernel := user.entered 128 error scratch
  have entry := lab.entered_same 128 error scratch
  obtain ⟨value, served, called, stepped⟩ := user.spawn_step call error cr2 scratch
  have named : (lab.entered 128 error scratch).taskCurrent.program
      = (lab.tasks lab.current).program :=
    lab.entered_program 128 error scratch
  have result (value : U64)
      : (served.finished lab.taskCurrent.id (lab.cpu.general .rax) lab.arguments value).left.cpu.general
          .rax = value :=
    served.finished_result ..
  have distinct : (-5 : U64) ≠ wide lab.nextPid := by
    intro same
    have positive := wide_positive lab.nextPid
    rw [← same] at positive
    cases positive
  intro enough
  refine ⟨_, stepped, ?_⟩
  have failed (short : ¬enough) (value' : value = -5)
      (leaves
        : SpawnLeaves lab
            (served.finished lab.taskCurrent.id (lab.cpu.general .rax) lab.arguments (-5)).left)
      : ((served.finished lab.taskCurrent.id (lab.cpu.general .rax) lab.arguments value).left.cpu.general
            .rax = wide lab.nextPid ↔ enough)
        ∧ (enough → SpawnSucceeds image program lab
            (served.finished lab.taskCurrent.id (lab.cpu.general .rax) lab.arguments value).left)
        ∧ (¬enough → SpawnLeaves lab
            (served.finished lab.taskCurrent.id (lab.cpu.general .rax) lab.arguments value).left) := by
    subst value'
    refine ⟨?_, fun holds => absurd holds short, fun _ => leaves⟩
    rw [result]
    exact iff_of_false distinct short
  cases called with
  | forbidden refused => cases (named ▸ refused).symm.trans permitted
  | full _ full =>
      refine failed ?_ rfl ?_
      · intro holds
        obtain ⟨⟨index, unused⟩, _⟩ := holds
        exact Lab.freeTask_none full index ((entry index).state.trans unused)
      · refine user.spawn_leaves kernel (.refl kernel.partition.ready.toPagesWellFormed) rfl
          (Or.inr ⟨fun index unused => ?_, rfl, rfl⟩) ..
        exact Lab.freeTask_none full index ((entry index).state.trans unused)
  | @failed _ index _ _ free short =>
      have unused := Lab.freeTask_unused free
      refine failed ?_ rfl (short.leaves user unused ..)
      intro holds
      have few := short.short
      rw [taskFrames_eq] at few
      exact Nat.not_lt.mpr holds.2 few
  | @spawned program' index _ permitted' free spawned =>
      have unused := Lab.freeTask_unused free
      cases (named ▸ permitted').symm.trans permitted
      have succeeds := spawned.succeeds kernel unused lab.taskCurrent.id (lab.cpu.general .rax)
        lab.arguments
      obtain ⟨slot, before, task⟩ := succeeds.task
      have succeeds' : SpawnSucceeds image program lab
          (served.finished lab.taskCurrent.id (lab.cpu.general .rax) lab.arguments
            (wide lab.nextPid)).left :=
        ⟨succeeds.result, succeeds.counted, slot, (entry slot).state.symm.trans before, task⟩
      have holds : enough :=
        ⟨⟨slot, (entry slot).state.symm.trans before⟩, Nat.le.intro
          ((Nat.add_comm _ _).trans succeeds'.counted)⟩
      refine ⟨?_, fun _ => succeeds', fun short => absurd holds short⟩
      exact iff_of_true succeeds'.result holds

end MiniLinux
