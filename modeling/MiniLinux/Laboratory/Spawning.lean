import MiniLinux.Laboratory.Building

/-! Spawning a task, and giving its frames back.
A spawn that runs out of memory returns exactly what it took, so the allocated frames and
their contents are as before.
-/

namespace MiniLinux

open Foundation Foundation.Halting

/-- Frames were taken and given back: the allocator has the same frames out and in, and only
frames that are free may differ.
-/
structure Machine.Restored (machine machine' : Machine) : Prop where
  wellFormed : machine'.PagesWellFormed
  record : machine.SameRecord machine'
  states : ∀ frame < machine.frames, machine'.stateOf frame = machine.stateOf frame
  counted : machine'.pages.freeCount = machine.pages.freeCount
  memory
    : ∀ byte,
        ¬machine.IsMetadata (frameOf byte)
        → ¬machine.IsFree (frameOf byte)
        → machine'.memory byte = machine.memory byte

theorem Machine.Takes.restored {machine middle machine' : Machine} {taken : List U64}
    (takes : machine.Takes middle taken []) (returns : middle.Returns machine' taken)
    : machine.Restored machine' where
  wellFormed := returns.wellFormed
  record := takes.record.trans returns.record
  states := by
    intro frame inside
    by_cases named : ∃ address ∈ taken, frameOf address.toNat = frame
    · obtain ⟨address, member, same⟩ := named
      subst same
      exact (returns.free address member).2.trans (takes.free address member).2.2.symm
    · have apart : ∀ address ∈ taken, frameOf address.toNat ≠ frame :=
        fun address member same => named ⟨address, member, same⟩
      have inside' : frame < middle.frames := by
        rw [takes.record.frames]
        exact inside
      exact (returns.states frame inside' apart).trans (takes.states frame inside apart)
  counted := by
    apply BitVec.eq_of_toNat_eq
    have first := takes.counted
    have last := returns.counted
    omega
  memory := by
    intro byte usable used
    rw [returns.memory byte (mt (takes.record.isMetadata _).mp usable), takes.memory byte usable]
    intro inside
    obtain ⟨address, member, same⟩ := inside
    rw [List.append_nil] at member
    exact used (same ▸ (takes.free address member).2)

namespace Machine.Restored

variable {machine machine' : Machine}

theorem refl (wellFormed : machine.PagesWellFormed) : machine.Restored machine :=
  ⟨wellFormed, rfl, fun _ _ => rfl, rfl, fun _ _ _ => rfl⟩

theorem trans {machine'' : Machine} (first : machine.Restored machine')
    (second : machine'.Restored machine'')
    : machine.Restored machine'' where
  wellFormed := second.wellFormed
  record := first.record.trans second.record
  states := by
    intro frame inside
    have inside' : frame < machine'.frames := by
      rw [first.record.frames]
      exact inside
    exact (second.states frame inside').trans (first.states frame inside)
  counted := second.counted.trans first.counted
  memory := by
    intro byte usable used
    have free := (frame_of_state first.record fun inside => first.states (frameOf byte) inside).1
    rw [second.memory byte (mt (first.record.isMetadata _).mp usable) (mt free.mp used)]
    exact first.memory byte usable used

theorem isAllocated (restored : machine.Restored machine') (frame : Nat)
    : machine'.IsAllocated frame ↔ machine.IsAllocated frame :=
  (frame_of_state restored.record fun inside => restored.states frame inside).2

theorem outstanding (restored : machine.Restored machine') (address : U64)
    : machine'.Outstanding address ↔ machine.Outstanding address :=
  and_congr_right fun _ => restored.isAllocated _

/-- Allocated frames keep their bytes. -/
theorem memory_of_allocated (restored : machine.Restored machine')
    (wellFormed : machine.PagesWellFormed) {byte : Nat}
    (allocated : machine.IsAllocated (frameOf byte))
    : machine'.memory byte = machine.memory byte :=
  restored.memory byte (wellFormed.not_metadata_of_allocated allocated)
    fun free => free.not_allocated allocated

theorem ready (restored : machine.Restored machine') (ready : machine.Ready) : machine'.Ready :=
  ready.of_record restored.wellFormed restored.record

theorem entry (restored : machine.Restored machine') (ready : machine.Ready) {table : U64}
    (outstanding : machine.Outstanding table) {index : Nat} (inside : index < 512)
    : machine'.entry table index = machine.entry table index := by
  apply (ready.frameAddress outstanding).entry_congr inside
  intro byte place
  apply restored.memory_of_allocated ready.toPagesWellFormed
  rw [place]
  exact outstanding.2

end Machine.Restored

-----------------------------------------------------------------------------------------
-- Giving frames back
-----------------------------------------------------------------------------------------

/-- Distinct outstanding pages are all returned, by induction on the list. -/
theorem freePages_spec (lab : Lab) (wellFormed : lab.machine.PagesWellFormed) {pages : List U64}
    (distinct : pages.Nodup) (outstanding : ∀ page ∈ pages, lab.machine.Outstanding page)
    : ∃ machine,
        freePages pages lab = .ok ((), { lab with machine := machine })
        ∧ lab.machine.Returns machine pages := by
  induction pages generalizing lab with
  | nil => exact ⟨lab.machine, rfl, .refl wellFormed⟩
  | cons page rest ih =>
      obtain ⟨fresh, distinct'⟩ := List.nodup_cons.mp distinct
      have here := outstanding page List.mem_cons_self
      have returns := Machine.Returns.release wellFormed here
      obtain ⟨machine, freed, returns'⟩ :=
        ih { lab with machine := lab.machine.release (frameOf page.toNat) } returns.wellFormed
          distinct' (by
            intro other member
            refine (returns.outstanding_iff ?_ other).mpr ⟨?_, ?_⟩
            · intro address single
              rw [List.mem_singleton.mp single]
              exact here.1
            · exact outstanding other (List.mem_cons_of_mem _ member)
            · intro same
              rw [List.mem_singleton.mp same] at member
              exact fresh member)
      refine ⟨machine, ?_, returns.trans returns'⟩
      rw [freePages, bind_ok (onMachine_ok (wellFormed.pageFree_ok here))]
      exact freed

/-- `release_pages` returns every recorded frame of a task that is not the active one. -/
theorem releasePages_spec {lab : Lab} {index : TaskIndex}
    (wellFormed : lab.machine.PagesWellFormed) (hasSpace : (lab.tasks index).hasSpace = true)
    (distinct : (lab.tasks index).owned.Nodup)
    (outstanding : ∀ address ∈ (lab.tasks index).owned, lab.machine.Outstanding address)
    (space
      : (lab.tasks index).privateSpace = .zero
        ∨ ((lab.tasks index).privateSpace.root ≠ 0
          ∧ (lab.tasks index).privateSpace.root ≠ lab.machine.currentRoot))
    : ∃ machine,
        releasePages index lab
          = .ok
              ((),
                ({ lab with machine := machine } : Lab).withTask index fun task =>
                  { task with privateSpace := .zero, pages := [] })
        ∧ lab.machine.Returns machine (lab.tasks index).owned := by
  have active : (lab.tasks index).space = some (lab.tasks index).privateSpace := by
    rw [Task.space, if_pos hasSpace]
  have root : (lab.tasks index).root = (lab.tasks index).privateSpace.root := by
    rw [Task.root, active]
    rfl
  obtain ⟨distinctTables, distinctPages, apart⟩ := List.nodup_append.mp distinct
  unfold releasePages
  rw [bind_get_apply, root]
  rcases space with zero | ⟨live, inactive⟩
  · have nothing : ¬(lab.tasks index).privateSpace.root ≠ 0 := by
      rw [zero]
      exact fun nonzero => nonzero rfl
    have owned : (lab.tasks index).owned = (lab.tasks index).pages := by
      rw [Task.owned, zero]
      rfl
    rw [owned] at outstanding ⊢
    obtain ⟨machine, freed, returns⟩ := freePages_spec lab wellFormed distinctPages outstanding
    refine ⟨machine, ?_, returns⟩
    rw [if_neg nothing]
    dsimp only
    rw [bind_ok freed, modifyTask_apply, ← zero]
    simp only [Lab.withTask]
  · obtain ⟨middle, destroyed, returns⟩ :=
      vmDestroy_spec wellFormed live inactive distinctTables
        fun table member => outstanding table (List.mem_append_left _ member)
    have called : vmDestroy (lab.tasks index).space lab.machine
        = .ok ((true, some .zero), middle) := by
      rw [active]
      exact destroyed
    let cleared : Lab :=
      ({ lab with machine := middle } : Lab).withTask index fun task =>
        { task with privateSpace := .zero }
    have aligned : ∀ table ∈ (lab.tasks index).privateSpace.tables.reverse,
        table.toNat % pageSize = 0 :=
      fun table member =>
        (outstanding table (List.mem_append_left _ (List.mem_reverse.mp member))).1
    have remaining : ∀ page ∈ (lab.tasks index).pages, cleared.machine.Outstanding page := by
      intro page member
      refine (returns.outstanding_iff aligned page).mpr
        ⟨outstanding page (List.mem_append_right _ member), ?_⟩
      intro table
      exact apart page (List.mem_reverse.mp table) page member rfl
    obtain ⟨machine, freed, returns'⟩ :=
      freePages_spec cleared returns.wellFormed distinctPages remaining
    refine ⟨machine, ?_, (returns.trans returns').perm ?_⟩
    · rw [if_pos live, bind_ok (onSpace_ok called)]
      simp only [if_true]
      rw [bind_ok freed, modifyTask_apply]
      simp only [cleared, Lab.withTask, Function.update_self, Function.update_idem]
    · exact List.Perm.append_right _ (List.reverse_perm _)

-----------------------------------------------------------------------------------------
-- Spawning
-----------------------------------------------------------------------------------------

/-- The slot of a new task before `prepare`. -/
def Task.named (id : U32) (program : Program) (parent : U32) : Task :=
  { Task.zero with id, program, parent }

/-- The records of a successful spawn. -/
def Lab.spawnRecords (image : List Byte) (lab : Lab) (index : TaskIndex) : List TraceRecord :=
  let task := lab.tasks index
  [⟨"spawn", lab.ticks,
      [.number (wide task.id), .number (wide task.parent), .number task.program.number]⟩,
    lab.processRecord index]
  ++ lab.mappingRecords image index ++ [lab.memoryRecord]

@[simp] theorem Lab.traced_spawnRecords (image : List Byte) (lab : Lab) (index : TaskIndex)
    (records : List TraceRecord)
    : (lab.traced records).spawnRecords image index = lab.spawnRecords image index :=
  rfl

/-- A new task was built in the slot. -/
structure Spawned (image : List Byte) (program : Program) (parent : U32) (index : TaskIndex)
    (lab lab' : Lab)
    : Prop where
  confined
    : ∃ machine task,
        lab' = { lab.traced (lab'.spawnRecords image index) with
          machine := machine, tasks := Function.update lab.tasks index task,
          nextPid := lab.nextPid + 1 }
  takes : lab.machine.Takes lab'.machine (lab'.tasks index).owned []
  formed : TaskFormed image lab'.machine (lab'.tasks index)
  task
    : ∃ privateSpace pages dataPage,
        lab'.tasks index
        = { Task.named lab.nextPid program parent with
            hasSpace := true, privateSpace, pages, dataPage,
            frame := some ⟨index, stackWords - frameWords⟩,
            stack := writeInitialFrame (fun _ => 0) (stackWords - frameWords),
            state := .ready, alive := true }
  filled : lab'.Filled image index (userPages image)

/-- Memory ran out: the slot is cleared and the machine restored. -/
structure SpawnFailed (image : List Byte) (index : TaskIndex) (lab lab' : Lab) : Prop where
  confined
    : ∃ machine,
        lab' = { lab with
          machine := machine, tasks := Function.update lab.tasks index Task.zero,
          nextPid := lab.nextPid + 1 }
  restored : lab.machine.Restored lab'.machine
  short : lab.machine.pages.freeCount.toNat < taskFrames image

/-- The state in which `prepare` starts. -/
def Lab.claimed (lab : Lab) (index : TaskIndex) (program : Program) (parent : U32) : Lab :=
  ({ lab with nextPid := lab.nextPid + 1 } : Lab).withTask index fun _ =>
    Task.named lab.nextPid program parent

/-- `spawn` claims the slot, prepares it, and keeps or releases it. -/
theorem spawnAt_eq (image : List Byte) (index : TaskIndex) (program : Program) (parent : U32)
    (lab : Lab)
    : spawnAt image index program parent lab
      = (do
          let prepared ← prepare image index
          if prepared then do
            modifyTask index fun task => { task with state := .ready, alive := true }
            event "spawn"
              [.number (wide lab.nextPid), .number (wide parent), .number program.number]
            processEvent index
            mappingsEvent image index
            memoryEvent
            pure (wide lab.nextPid)
          else do
            releasePages index
            modifyTask index fun _ => Task.zero
            pure (-5) : LabM U64) (lab.claimed index program parent) :=
  rfl

/-- A prepared task is announced and runs. -/
theorem Prepared.spawned {image : List Byte} {index : TaskIndex} {lab middle : Lab}
    {program : Program} {parent : U32} (sized : Sized image) (ready : lab.machine.Ready)
    (prepared : prepare image index (lab.claimed index program parent) = .ok (true, middle))
    (done : Prepared image index (lab.claimed index program parent) middle)
    : ∃ lab',
        spawnAt image index program parent lab = .ok (wide lab.nextPid, lab')
        ∧ Spawned image program parent index lab lab' := by
  let running : Lab := middle.withTask index fun task => { task with state := .ready, alive := true }
  have same : (middle.tasks index).SameHoldings (running.tasks index) := by
    rw [Lab.withTask_self]
    exact ⟨rfl, rfl, rfl, rfl⟩
  have formed : TaskFormed image running.machine (running.tasks index) :=
    done.formed.congr same (fun table owned => done.formed.tree.outstanding table owned)
      fun table _ slot _ => .refl _
  have takes : lab.machine.Takes running.machine (running.tasks index).owned [] := by
    rw [same.owned]
    exact done.takes
  have readyRunning := takes.ready ready
  have data : running.machine.Outstanding (running.tasks index).dataPage :=
    (takes.outstanding_iff _).mpr (Or.inl (List.mem_append_right _ formed.data_mem))
  have built : ∃ privateSpace pages dataPage,
      running.tasks index
      = { Task.named lab.nextPid program parent with
          hasSpace := true, privateSpace, pages, dataPage,
          frame := some ⟨index, stackWords - frameWords⟩,
          stack := writeInitialFrame (fun _ => 0) (stackWords - frameWords),
          state := .ready, alive := true } := by
    obtain ⟨_, _, _, built⟩ := done.task
    have claimed : (lab.claimed index program parent).tasks index
        = Task.named lab.nextPid program parent :=
      Lab.withTask_self ..
    have last : running.tasks index
        = { middle.tasks index with state := .ready, alive := true } :=
      Lab.withTask_self ..
    rw [last, built, claimed]
    exact ⟨_, _, _, rfl⟩
  have reported : Reports
      (event "spawn" [.number (wide lab.nextPid), .number (wide parent), .number program.number]
        >>= fun _ => processEvent index >>= fun _ => mappingsEvent image index >>= fun _ =>
          memoryEvent)
      ([⟨"spawn", running.ticks,
          [.number (wide lab.nextPid), .number (wide parent), .number program.number]⟩]
        ++ ([running.processRecord index]
          ++ (running.mappingRecords image index ++ [running.memoryRecord]))) running :=
    (event_reports _ _ running).bind
      ((processEvent_reports index _).bind
        ((formed.mappingsEvent_reports (running.traced _ |>.traced _) sized readyRunning data).bind
          (memoryEvent_reports _)))
  have records : [⟨"spawn", running.ticks,
          [.number (wide lab.nextPid), .number (wide parent), .number program.number]⟩]
        ++ ([running.processRecord index]
          ++ (running.mappingRecords image index ++ [running.memoryRecord]))
      = running.spawnRecords image index := by
    obtain ⟨_, _, _, same⟩ := built
    rw [Lab.spawnRecords, same]
    simp [Task.named]
  rw [records] at reported
  have served : spawnAt image index program parent lab
      = .ok (wide lab.nextPid, running.traced (running.spawnRecords image index)) := by
    rw [spawnAt_eq, bind_ok prepared]
    simp only [if_true]
    rw [bind_ok (modifyTask_apply ..)]
    have sequence := bind_ok reported fun _ => (pure (wide lab.nextPid) : LabM U64)
    simp only [bind_assoc] at sequence
    exact sequence
  have filled : running.Filled image index (userPages image) :=
    done.filled.congr same.pages rfl
  refine ⟨_, served, ?_, takes, formed, built, filled.congr rfl rfl⟩
  obtain ⟨machine, task, rfl⟩ := done.confined
  refine ⟨machine, { task with state := .ready, alive := true }, ?_⟩
  rw [Lab.traced_spawnRecords]
  generalize running.spawnRecords image index = records
  simp [running, Lab.withTask, Lab.claimed, Lab.traced]

/-- A task that got stuck gives back what it took. -/
theorem Stuck.failed {image : List Byte} {index : TaskIndex} {lab middle : Lab}
    {program : Program} {parent : U32}
    (prepared : prepare image index (lab.claimed index program parent) = .ok (false, middle))
    (stuck : Stuck image index (lab.claimed index program parent) middle)
    (ready : lab.machine.Ready)
    (active : ¬lab.machine.IsFree (frameOf lab.machine.currentRoot.toNat))
    : ∃ lab',
        spawnAt image index program parent lab = .ok (-5, lab')
        ∧ SpawnFailed image index lab lab' := by
  have takes : lab.machine.Takes middle.machine (middle.tasks index).owned [] := stuck.takes
  have space : (middle.tasks index).privateSpace = .zero
      ∨ ((middle.tasks index).privateSpace.root ≠ 0
        ∧ (middle.tasks index).privateSpace.root ≠ middle.machine.currentRoot) := by
    refine stuck.space.imp_right ?_
    intro root
    have member : (middle.tasks index).privateSpace.root ∈ (middle.tasks index).owned :=
      List.mem_append_left _ root
    refine ⟨?_, ?_⟩
    · intro zero
      have nonzero := (takes.ready ready).ne_zero_of_allocated (stuck.outstanding member).2
      rw [zero] at nonzero
      exact nonzero rfl
    · intro same
      apply active
      rw [Machine.currentRoot, ← takes.record.cr3, ← Machine.currentRoot, ← same]
      exact (takes.free _ member).2
  obtain ⟨machine, released, returns⟩ :=
    releasePages_spec takes.wellFormed stuck.hasSpace takes.distinct
      (fun address => stuck.outstanding) space
  refine ⟨{ lab with
    machine := machine, tasks := Function.update lab.tasks index Task.zero,
    nextPid := lab.nextPid + 1 }, ?_, ?_⟩
  · rw [spawnAt_eq, bind_ok prepared]
    simp only [Bool.false_eq_true, if_false]
    rw [bind_ok released, bind_ok (modifyTask_apply ..)]
    obtain ⟨_, _, rfl⟩ := stuck.confined
    simp [Lab.withTask, Lab.claimed]
  · refine ⟨⟨machine, rfl⟩, takes.restored returns, ?_⟩
    have counted := takes.counted
    have few := stuck.few
    rw [stuck.exhausted] at counted
    have nothing : (0 : U64).toNat = 0 := rfl
    omega

/-- `spawn` at a free slot either builds the task, or restores the machine. -/
theorem spawnAt_spec {image : List Byte} {owner : TaskIndex → Prop} {lab : Lab}
    (partition : Partition image owner lab) (sized : Sized image)
    (active : ¬lab.machine.IsFree (frameOf lab.machine.currentRoot.toNat)) (index : TaskIndex)
    (program : Program) (parent : U32)
    : (∃ lab',
        spawnAt image index program parent lab = .ok (wide lab.nextPid, lab')
        ∧ Spawned image program parent index lab lab')
      ∨ ∃ lab',
          spawnAt image index program parent lab = .ok (-5, lab')
          ∧ SpawnFailed image index lab lab' := by
  have claimed : (lab.claimed index program parent).tasks index
      = Task.named lab.nextPid program parent :=
    Lab.withTask_self ..
  obtain ⟨ok, middle, prepared, success, failure⟩ :=
    @prepare_spec image index (lab.claimed index program parent) sized partition.ready
      (by rw [claimed]; rfl) (by rw [claimed]; rfl)
  cases ok with
  | true => exact Or.inl ((success rfl).spawned sized partition.ready prepared)
  | false => exact Or.inr ((failure rfl).failed prepared partition.ready active)

end MiniLinux
