import MiniLinux.Laboratory.Processes

/-! Switching between tasks: `next_ready`, `select_task` and `task_tick`. -/

namespace MiniLinux

open Foundation Foundation.Halting

/-- The machine with a root active. -/
def Machine.rooted (machine : Machine) (root : U64) : Machine :=
  if machine.currentRoot ≠ root then { machine with cr3 := root, tlb := [] } else machine

/-- The state after `select_task`. -/
def Lab.selected (lab : Lab) (next : TaskIndex) : Lab :=
  { lab with
    current := next, rsp0 := some ⟨next, stackWords⟩,
    machine := lab.machine.rooted (lab.tasks next).privateSpace.root }

theorem Machine.rooted_shape (machine : Machine) (root : U64)
    : ∃ cr3 tlb, machine.rooted root = { machine with cr3 := cr3, tlb := tlb } := by
  unfold rooted
  split
  · exact ⟨root, [], rfl⟩
  · exact ⟨machine.cr3, machine.tlb, rfl⟩

theorem Machine.rooted_memory (machine : Machine) (root : U64)
    : (machine.rooted root).memory = machine.memory := by
  obtain ⟨_, _, shape⟩ := machine.rooted_shape root
  rw [shape]

theorem Machine.rooted_pages (machine : Machine) (root : U64)
    : (machine.rooted root).pages = machine.pages := by
  obtain ⟨_, _, shape⟩ := machine.rooted_shape root
  rw [shape]

/-- The root of a space becomes the active one. -/
theorem Machine.rooted_currentRoot (machine : Machine) {root : U64} (frame : FrameAddress root)
    : (machine.rooted root).currentRoot = root := by
  unfold rooted
  split
  · exact frame.and_pteAddress
  · next same => exact not_not.mp same

/-- Every slot is a candidate. -/
theorem Lab.mem_candidates (lab : Lab) (index : TaskIndex) : index ∈ lab.candidates := by
  unfold candidates
  rw [List.mem_map]
  exact ⟨index - lab.current - 1, List.mem_finRange _, by rw [sub_add_cancel, add_sub_cancel]⟩

/-- `next_ready` finds a ready task if there is one, the one that is next in any table with the
same ready slots.
-/
theorem nextReady_ok {lab : Lab} {table : ProcessTable} (current : table.current = lab.current)
    (same : ∀ index, (table.slots index).state = .ready ↔ (lab.tasks index).state = .ready)
    {ready : TaskIndex} (someone : (lab.tasks ready).state = .ready)
    : ∃ next,
        nextReady lab = .ok (next, lab) ∧ (lab.tasks next).state = .ready
        ∧ table.nextReady = some next := by
  have candidates : table.candidates = lab.candidates := by
    rw [ProcessTable.candidates, Lab.candidates, current]
  have found' : table.nextReady
      = lab.candidates.find? fun index => (lab.tasks index).state = .ready := by
    simp only [ProcessTable.nextReady, candidates, same]
  unfold nextReady
  rw [bind_get_apply]
  cases found : lab.candidates.find? fun index => (lab.tasks index).state = .ready with
  | none =>
      have refused := List.find?_eq_none.mp found ready (lab.mem_candidates ready)
      exact absurd (decide_eq_true someone) refused
  | some next =>
      have holds := List.find?_some found
      exact ⟨next, rfl, of_decide_eq_true holds, found'.trans found⟩

theorem nextReady_none {lab : Lab} (none : ∀ index, (lab.tasks index).state ≠ .ready)
    : nextReady lab = .error (.panic "LAB has no runnable shell") := by
  unfold nextReady
  rw [bind_get_apply]
  have nobody : (lab.candidates.find? fun index => (lab.tasks index).state = .ready) = .none := by
    rw [List.find?_eq_none]
    exact fun index _ => by simpa using none index
  rw [nobody]
  rfl

theorem selectTask_ok {lab : Lab} {next : TaskIndex} (active : (lab.tasks next).hasSpace = true)
    : selectTask next lab = .ok ((lab.tasks next).frame, lab.selected next) := by
  have space : (lab.tasks next).space = some (lab.tasks next).privateSpace := by
    rw [Task.space, if_pos active]
  unfold selectTask Lab.taskCurrent
  rw [bind_modify_apply, bind_get_apply]
  simp only [space]
  unfold Lab.selected Machine.rooted
  split <;> rfl

theorem Partition.selected {image : List Byte} {owner : TaskIndex → Prop} {lab : Lab}
    (partition : Partition image owner lab) (next : TaskIndex)
    : Partition image owner (lab.selected next) := by
  obtain ⟨cr3, tlb, shape⟩ := lab.machine.rooted_shape (lab.tasks next).privateSpace.root
  have machine : (lab.selected next).machine = { lab.machine with cr3 := cr3, tlb := tlb } := shape
  refine partition.congr (fun index => .refl _) ?_ ?_ ?_
  · rw [machine]
    exact { partition.ready with }
  · intro address
    rw [machine]
    exact Iff.rfl
  · intro index table _ slot _
    rw [machine]
    exact .refl _

theorem Consistent.selected {image : List Byte} {owner : TaskIndex → Prop} {lab : Lab}
    (consistent : Consistent image owner lab) (next : TaskIndex)
    : Consistent image owner (lab.selected next) :=
  ⟨consistent.sized, consistent.partition.selected next, consistent.descriptors, consistent.alive⟩

/-- A ready task is resumed where it was suspended. -/
theorem Consistent.resume {image : List Byte} {owner : TaskIndex → Prop} {lab : Lab}
    (consistent : Consistent image owner lab) {next : TaskIndex} (owns : owner next)
    (ready : (lab.tasks next).state = .ready)
    : (lab.selected next).Selected := by
  have formed := consistent.partition.formed next owns
  refine ⟨ready, ?_, rfl⟩
  exact lab.machine.rooted_currentRoot
    (formed.tree.frameAddress consistent.partition.ready formed.tree.rootOwned)

/-- All live tasks are suspended, the current one too. -/
structure AllSuspended (image : List Byte) (owner : TaskIndex → Prop) (lab : Lab) : Prop
    extends Consistent image owner lab where
  owns : ∀ index, (lab.tasks index).Live → owner index
  suspended : ∀ index, (lab.tasks index).Live → (lab.tasks index).Suspended index

/-- Switching to a ready task among suspended ones. -/
theorem AllSuspended.select {image : List Byte} {owner : TaskIndex → Prop} {lab : Lab}
    (all : AllSuspended image owner lab) {next : TaskIndex}
    (ready : (lab.tasks next).state = .ready)
    : selectTask next lab = .ok (some (savedAt next), lab.selected next)
      ∧ (lab.selected next).Selected := by
  have live : (lab.tasks next).Live := Or.inl ready
  have formed := all.partition.formed next (all.owns next live)
  refine ⟨?_, all.toConsistent.resume (all.owns next live) ready⟩
  rw [selectTask_ok formed.hasSpace, (all.suspended next live).frame]

/-- Suspended tasks are the kernel's state once one of them is selected. -/
theorem AllSuspended.inKernel {image : List Byte} {owner : TaskIndex → Prop} {lab : Lab}
    (all : AllSuspended image owner lab) (live : ∀ index, owner index → (lab.tasks index).Live)
    {next : TaskIndex} (ready : (lab.tasks next).state = .ready)
    : InKernel image (lab.selected next) := by
  obtain rfl : owner = lab.live :=
    funext fun index => propext ⟨live index, all.owns index⟩
  exact ⟨all.toConsistent.selected next, (all.select ready).2,
    fun index live _ => all.suspended index live, (all.suspended next (Or.inl ready)).context⟩

/-- What was reported does not matter. -/
theorem AllSuspended.traced {image : List Byte} {owner : TaskIndex → Prop} {lab : Lab}
    (all : AllSuspended image owner lab) (records : List TraceRecord)
    : AllSuspended image owner (lab.traced records) :=
  ⟨all.toConsistent.tasks rfl (fun _ => .refl _) (fun _ => rfl) all.alive, all.owns, all.suspended⟩

namespace InKernel

variable {image : List Byte} {lab : Lab}

/-- Suspending the current task at its saved frame suspends all. -/
theorem suspend (kernel : InKernel image lab) (update : Task → Task)
    (frame : (update (lab.tasks lab.current)).frame = some (savedAt lab.current))
    (stack : (update (lab.tasks lab.current)).stack = (lab.tasks lab.current).stack)
    (same : (lab.tasks lab.current).SameHoldings (update (lab.tasks lab.current)))
    (files : (update (lab.tasks lab.current)).files = (lab.tasks lab.current).files)
    (alive
      : (update (lab.tasks lab.current)).Live → (update (lab.tasks lab.current)).alive = true)
    : AllSuspended image lab.live (lab.withTask lab.current update) := by
  refine ⟨kernel.toConsistent.tasks rfl ?_ ?_ ?_, ?_, ?_⟩
  · exact Lab.withTask_forall (fun _ task task' => task.SameHoldings task') _ same fun _ _ => .refl _
  · exact Lab.withTask_forall (fun _ task task' => task'.files = task.files) _ files fun _ _ => rfl
  · exact Lab.withTask_forall (fun _ _ task' => task'.Live → task'.alive = true) _ alive
      fun other _ => kernel.alive other
  · intro index live
    by_cases here : index = lab.current
    · exact here ▸ Or.inl kernel.ready
    · rw [Lab.withTask_other lab here] at live
      exact live
  · intro index live
    by_cases here : index = lab.current
    · subst here
      rw [Lab.withTask_self]
      refine ⟨frame, ?_⟩
      rw [Task.context, stack]
      exact kernel.saved
    · rw [Lab.withTask_other lab here] at live ⊢
      exact kernel.others index live here

/-- The saved frame is one of user mode. -/
theorem saved_mode (kernel : InKernel image lab)
    : loadField (savedAt lab.current) .cs lab = .ok (0x23, lab) := by
  have cs : (lab.tasks lab.current).context.cs = 0x23 := kernel.saved.cs
  rw [← cs]
  rfl

end InKernel

/-- The task whose time slice ended. -/
def Task.ticked (index : TaskIndex) (task : Task) : Task :=
  { task with frame := some (savedAt index), slices := task.slices + 1 }

/-- The state of `task_tick` when it looks for the next task. -/
def Lab.ticked (lab : Lab) : Lab :=
  { lab.withTask lab.current (Task.ticked lab.current) with ticks := lab.ticks + 1 }

/-- The records of `task_tick` when it chooses a task. -/
def Lab.tickRecords (lab : Lab) (next : TaskIndex) : List TraceRecord :=
  if next = lab.current then []
  else
    [⟨"schedule", lab.ticks + 1,
      [.number (wide lab.taskCurrent.id), .number (wide (lab.tasks next).id),
        .hex (lab.tasks next).root, .number 3]⟩]

/-- The state after `task_tick`. -/
def Lab.afterTick (lab : Lab) (next : TaskIndex) : Lab :=
  (lab.ticked.traced (lab.tickRecords next)).selected next

theorem Lab.ticked_forall (relation : TaskIndex → Task → Task → Prop) {lab : Lab}
    (here : relation lab.current (lab.tasks lab.current) ((lab.tasks lab.current).ticked lab.current))
    (others
      : ∀ other, other ≠ lab.current → relation other (lab.tasks other) (lab.tasks other))
    (index : TaskIndex)
    : relation index (lab.tasks index) (lab.ticked.tasks index) :=
  Lab.withTask_forall relation (Task.ticked lab.current) here others index

/-- `task_tick` switches to a ready task. -/
theorem InKernel.taskTick_spec {image : List Byte} {lab : Lab} (kernel : InKernel image lab)
    : ∃ next,
        taskTick (savedAt lab.current) lab = .ok (some (savedAt next), lab.afterTick next)
        ∧ InKernel image (lab.afterTick next)
        ∧ TableStep lab.table .tick (lab.afterTick next).table := by
  have stopped := kernel.suspend (Task.ticked lab.current) rfl rfl ⟨rfl, rfl, rfl, rfl⟩ rfl (fun _ => kernel.alive lab.current (Or.inl kernel.ready))
  have all : AllSuspended image lab.live lab.ticked :=
    ⟨stopped.toConsistent.tasks rfl (fun _ => .refl _) (fun _ => rfl) stopped.alive, stopped.owns,
      stopped.suspended⟩
  have process (index : TaskIndex)
      : (lab.ticked.tasks index).process = (lab.tasks index).process :=
    Lab.ticked_forall (fun _ task task' => task'.process = task.process) rfl (fun _ _ => rfl) index
  have named (index : TaskIndex) : (lab.ticked.tasks index).id = (lab.tasks index).id :=
    congrArg Process.id (process index)
  have state (index : TaskIndex) : (lab.ticked.tasks index).state = (lab.tasks index).state :=
    congrArg Process.state (process index)
  have live : ∀ index, lab.live index → (lab.ticked.tasks index).Live := by
    intro index live
    rw [Task.Live, state]
    exact live
  have again : (lab.ticked.tasks lab.current).state = .ready := (state lab.current).trans kernel.ready
  obtain ⟨next, found, ready, chosen⟩ :=
    @nextReady_ok lab.ticked lab.table rfl (fun index => by rw [state]; rfl) lab.current again
  have finish := (all.traced (lab.tickRecords next)).select ready
  refine ⟨next, ?_, (all.traced _).inKernel live ready, ?_⟩
  · rw [taskTick, bind_ok kernel.saved_mode, if_neg (by decide), bind_get_apply,
      bind_ok (modifyTask_apply ..), bind_ok (modify_apply ..)]
    refine (bind_ok found _).trans ?_
    rcases eq_or_ne next lab.current with same | different
    · have nothing : lab.tickRecords next = [] := if_pos same
      rw [nothing, Lab.traced_nil] at finish
      rw [Lab.afterTick, nothing, Lab.traced_nil]
      simp only [same, ne_eq, not_true_eq_false, if_false]
      exact same ▸ finish.1
    · have formed := all.partition.formed next (all.owns next (Or.inl ready))
      have holdings : (lab.tasks next).SameHoldings (lab.ticked.tasks next) :=
        Lab.ticked_forall (fun _ task task' => task.SameHoldings task') ⟨rfl, rfl, rfl, rfl⟩
          (fun _ _ => .refl _) next
      have root : (lab.tasks next).root = (lab.ticked.tasks next).privateSpace.root := by
        rw [Task.root, Task.space, ← holdings.hasSpace, formed.hasSpace, holdings.privateSpace]
        rfl
      have records : lab.tickRecords next
          = [⟨"schedule", lab.ticked.ticks,
              [.number (wide lab.ticked.taskCurrent.id), .number (wide (lab.ticked.tasks next).id),
                .hex (lab.ticked.tasks next).privateSpace.root, .number ((0x23 : U64) &&& 3)]⟩] := by
        rw [Lab.tickRecords, if_neg different, root, Lab.taskCurrent, ← named, ← named]
        rfl
      rw [records] at finish
      rw [Lab.afterTick, records]
      simp only [ne_eq, different, not_false_eq_true, if_true, bind_get_apply, formed.space]
      exact (bind_ok (event_reports _ _ _) _).trans finish.1
  · have table : (lab.afterTick next).table = { lab.table with current := next } := by
      change ProcessTable.mk (fun index => (lab.ticked.tasks index).process) next lab.nextPid = _
      rw [funext process]
      rfl
    rw [table]
    exact .tick chosen

end MiniLinux
