import MiniLinux.Laboratory.Waiting

/-! Ending the current task: `task_exit` and `user_fault`.
The status goes to a parent that waits, another task is selected, and only then the frames of
the task that ended are returned, when its tables are active no more.
-/

namespace MiniLinux

open Foundation Foundation.Halting

/-- `parent` waits for `child`. -/
def Task.Awaits (parent child : Task) : Prop := parent.process.Awaits child.process

instance (parent child : Task) : Decidable (parent.Awaits child) :=
  inferInstanceAs (Decidable (Process.Awaits _ _))

/-- A waiting task that gets a status runs again. -/
def Task.woken (task : Task) (status : U64) : Task := { task.replied status with state := .ready }

theorem Task.woken_process (task : Task) (status : U64)
    : (task.woken status).process = { task.process.reply status with state := .ready } := by
  have replied := task.replied_process status
  unfold Task.woken
  rw [← replied]
  rfl

-----------------------------------------------------------------------------------------
-- Waking the parents
-----------------------------------------------------------------------------------------

namespace Lab

/-- The tasks among the slots that wait for a task are woken. -/
def woken (lab : Lab) (old : Task) (status : U64) (slots : List TaskIndex) : Lab :=
  { lab with
    tasks := fun index =>
      if index ∈ slots ∧ (lab.tasks index).Awaits old then (lab.tasks index).woken status
      else lab.tasks index }

/-- The reports of the woken tasks. -/
def wakeRecords (lab : Lab) (old : Task) (status : U64) (slots : List TaskIndex)
    : List TraceRecord :=
  (slots.filter fun index => (lab.tasks index).Awaits old).map
    (lab.woken old status slots).processRecord

/-- Waking the first of the slots and then the others. -/
theorem woken_cons {lab : Lab} {old : Task} {index : TaskIndex} {rest : List TaskIndex}
    (status : U64) (fresh : index ∉ rest) (awaits : (lab.tasks index).Awaits old)
    : (lab.withTask index fun task => task.woken status).woken old status rest
      = lab.woken old status (index :: rest) := by
  unfold woken
  congr 1
  funext other
  rcases eq_or_ne other index with same | different
  · subst same
    have left : ¬(other ∈ rest
        ∧ ((lab.withTask other fun task => task.woken status).tasks other).Awaits old) :=
      fun both => fresh both.1
    have right : other ∈ other :: rest ∧ (lab.tasks other).Awaits old :=
      ⟨List.mem_cons_self, awaits⟩
    rw [if_neg left, if_pos right, withTask_self]
  · rw [withTask_other lab different]
    simp [different]

/-- A slot that does not wait changes nothing. -/
theorem woken_skip {lab : Lab} {old : Task} {index : TaskIndex} {rest : List TaskIndex}
    (status : U64) (busy : ¬(lab.tasks index).Awaits old)
    : lab.woken old status rest = lab.woken old status (index :: rest) := by
  unfold woken
  congr 1
  funext other
  rcases eq_or_ne other index with same | different
  · subst same
    simp [busy]
  · simp [different]

end Lab

/-- The loop of `task_exit`, by induction on the slots that are left. -/
theorem wakeParents_ok (old : Task) (status : U64) {slots : List TaskIndex}
    (distinct : slots.Nodup) {lab : Lab}
    (suspended : ∀ index, (lab.tasks index).Awaits old → (lab.tasks index).frame = some (savedAt index))
    : wakeParents old status slots lab
      = .ok
          (decide (∃ index ∈ slots, (lab.tasks index).Awaits old),
            (lab.woken old status slots).traced (lab.wakeRecords old status slots)) := by
  induction slots generalizing lab with
  | nil =>
      have same : lab.woken old status [] = lab := by simp [Lab.woken]
      simp [wakeParents, Lab.wakeRecords, same]
  | cons index rest ih =>
      obtain ⟨fresh, distinct'⟩ := List.nodup_cons.mp distinct
      unfold wakeParents
      rw [bind_get_apply]
      by_cases awaits : (lab.tasks index).Awaits old
      · let woken : Lab := lab.withTask index fun task => task.woken status
        have other {slot : TaskIndex} (member : slot ∈ rest)
            : woken.tasks slot = lab.tasks slot :=
          lab.withTask_other (ne_of_mem_of_not_mem member fresh) fun task => task.woken status
        have busy : ¬(woken.tasks index).Awaits old := by
          intro again
          have waiting := again.2.1
          rw [Lab.withTask_self] at waiting
          cases waiting
        have later := @ih distinct' (woken.announced index) (by
          intro slot awaits'
          rcases eq_or_ne slot index with same | different
          · exact absurd (same ▸ awaits') busy
          · have kept : (woken.announced index).tasks slot = lab.tasks slot :=
                lab.withTask_other different fun task => task.woken status
            rw [kept] at awaits' ⊢
            exact suspended slot awaits')
        have stored : (storeField (savedAt index) (.general .rax) status >>= fun _ =>
              modifyTask index fun task => { task with state := .ready }) lab
            = .ok ((), woken) := by
          rw [bind_ok (storeField_saved ..), modifyTask_apply]
          simp only [woken, Lab.withTask, Task.woken, Function.update_self, Function.update_idem]
        have step : (do
              let frame ← derefFrame (lab.tasks index).frame
              storeField frame (.general .rax) status
              modifyTask index fun task => { task with state := .ready }
              processEvent index
              let _ ← wakeParents old status rest
              pure true : LabM Bool) lab
            = .ok (true, ((woken.announced index).woken old status rest).traced
                ((woken.announced index).wakeRecords old status rest)) := by
          rw [suspended index awaits]
          simp only [derefFrame, pure_bind]
          have first := bind_ok stored fun _ => (do
            processEvent index
            let _ ← wakeParents old status rest
            pure true : LabM Bool)
          rw [bind_assoc] at first
          rw [first, bind_ok (processEvent_reports index woken)]
          exact bind_ok later _
        have found : ∃ slot ∈ index :: rest, (lab.tasks slot).Awaits old :=
          ⟨index, List.mem_cons_self, awaits⟩
        have states : (woken.announced index).woken old status rest
            = (lab.woken old status (index :: rest)).traced [woken.processRecord index] := by
          rw [← Lab.woken_cons status fresh awaits]
          rfl
        have reported : woken.processRecord index
            = (lab.woken old status (index :: rest)).processRecord index := by
          rw [← Lab.woken_cons status fresh awaits]
          have same : (woken.woken old status rest).tasks index = woken.tasks index :=
            if_neg fun both => fresh both.1
          unfold Lab.processRecord
          rw [same]
          rfl
        have waiting : rest.filter (fun slot => ((woken.announced index).tasks slot).Awaits old)
            = rest.filter fun slot => (lab.tasks slot).Awaits old := by
          apply List.filter_congr
          intro slot member
          have kept : (woken.announced index).tasks slot = lab.tasks slot := other member
          rw [kept]
        have records : (lab.woken old status (index :: rest)).processRecord index
              :: (woken.announced index).wakeRecords old status rest
            = lab.wakeRecords old status (index :: rest) := by
          unfold Lab.wakeRecords
          rw [waiting, List.filter_cons_of_pos (by simpa using awaits), List.map_cons, states]
          rfl
        have condition : (lab.tasks index).id = old.parent ∧ (lab.tasks index).state = .waiting
            ∧ (lab.tasks index).waitingFor = old.id := awaits
        rw [if_pos condition, step, decide_eq_true found, states, reported, Lab.traced_traced,
          List.singleton_append, records]
      · have condition : ¬((lab.tasks index).id = old.parent ∧ (lab.tasks index).state = .waiting
            ∧ (lab.tasks index).waitingFor = old.id) := awaits
        have found : (∃ slot ∈ index :: rest, (lab.tasks slot).Awaits old)
            ↔ ∃ slot ∈ rest, (lab.tasks slot).Awaits old := by
          simp [awaits]
        have records : lab.wakeRecords old status rest
            = lab.wakeRecords old status (index :: rest) := by
          unfold Lab.wakeRecords
          rw [List.filter_cons_of_neg (by simpa using awaits), Lab.woken_skip status awaits]
        rw [if_neg condition, ih distinct' suspended, records, Lab.woken_skip status awaits]
        simp only [found]

-----------------------------------------------------------------------------------------
-- Leaving
-----------------------------------------------------------------------------------------

/-- A task that ended with a status. -/
def Task.ended (index : TaskIndex) (status : U64) (task : Task) : Task :=
  { task with frame := some (savedAt index), status, state := .exited, alive := false }

namespace Lab

/-- The current task has ended, and its parents have not been woken. -/
def exiting (lab : Lab) (status : U64) : Lab :=
  (lab.withTask lab.current (Task.ended lab.current status)).traced
    [⟨"exit", lab.ticks, [.number (wide lab.taskCurrent.id), .number status]⟩]

/-- The state of `task_exit` when it looks for the next task. -/
def departing (lab : Lab) (status : U64) : Lab :=
  ((lab.exiting status).woken lab.taskCurrent status (List.finRange 8)).traced
    ((lab.exiting status).wakeRecords lab.taskCurrent status (List.finRange 8))

/-- The current task without its frames, on the machine that is left. -/
def emptied (lab : Lab) (status : U64) (next : TaskIndex) (machine : Machine) : Lab :=
  ({ (lab.departing status).selected next with machine := machine } : Lab).withTask lab.current
    fun task =>
      { task with
        privateSpace := .zero, pages := [],
        state := if lab.table.Awaited then .unused else .exited }

/-- The state after `task_exit`. -/
def departed (lab : Lab) (status : U64) (next : TaskIndex) (machine : Machine) : Lab :=
  let lab' := lab.emptied status next machine
  lab'.traced [lab'.processRecord lab.current, lab'.memoryRecord]

end Lab

/-- What `task_exit` does. -/
structure Departed (lab : Lab) (status : U64) (lab' : Lab) : Prop where
  mortal : lab.taskCurrent.program ≠ .init ∧ lab.taskCurrent.program ≠ .shell
  state
    : ∃ next machine,
        lab' = lab.departed status next machine
        ∧ next ≠ lab.current
        ∧ ((lab.departing status).tasks next).state = .ready
        ∧ ((lab.departing status).selected next).machine.Returns machine lab.taskCurrent.owned

section Tasks

variable {lab : Lab} {status : U64}

/-- The tasks when the next one is chosen: one ended, some woken, the others as before. -/
theorem Lab.departing_tasks (index : TaskIndex)
    : (lab.departing status).tasks index
      = if index = lab.current then lab.taskCurrent.ended lab.current status
        else if (lab.tasks index).Awaits lab.taskCurrent then (lab.tasks index).woken status
        else lab.tasks index := by
  change (if index ∈ List.finRange 8 ∧ ((lab.exiting status).tasks index).Awaits lab.taskCurrent
    then ((lab.exiting status).tasks index).woken status else (lab.exiting status).tasks index) = _
  rcases eq_or_ne index lab.current with same | different
  · subst same
    have ended : (lab.exiting status).tasks lab.current = lab.taskCurrent.ended lab.current status :=
      lab.withTask_self lab.current (Task.ended lab.current status)
    have busy : ¬(lab.taskCurrent.ended lab.current status).Awaits lab.taskCurrent := by
      intro awaits
      cases awaits.2.1
    simp [ended, busy]
  · have kept : (lab.exiting status).tasks index = lab.tasks index :=
      lab.withTask_other different (Task.ended lab.current status)
    simp [kept, different]

/-- A relation that holds of the task that ended, of the woken ones and of the others. -/
theorem Lab.departing_forall (relation : TaskIndex → Task → Task → Prop)
    (ended : relation lab.current lab.taskCurrent (lab.taskCurrent.ended lab.current status))
    (woken
      : ∀ index,
          index ≠ lab.current
          → (lab.tasks index).state = .waiting
          → relation index (lab.tasks index) ((lab.tasks index).woken status))
    (others : ∀ index, index ≠ lab.current → relation index (lab.tasks index) (lab.tasks index))
    (index : TaskIndex)
    : relation index (lab.tasks index) ((lab.departing status).tasks index) := by
  rw [Lab.departing_tasks]
  rcases eq_or_ne index lab.current with same | different
  · subst same
    rw [if_pos rfl]
    exact ended
  · rw [if_neg different]
    split
    · next awaits => exact woken index different awaits.2.1
    · exact others index different

end Tasks

/-- Why `task_exit` would stop. -/
inductive ExitHalt (lab : Lab) (status : U64) : Halt → Prop
  | immortal (program : lab.taskCurrent.program = .init ∨ lab.taskCurrent.program = .shell)
      : ExitHalt lab status (.panic "LAB init or shell exited")
  | nobody (mortal : lab.taskCurrent.program ≠ .init ∧ lab.taskCurrent.program ≠ .shell)
      (idle : ∀ index, ((lab.table.ended status).slots index).state ≠ .ready)
      : ExitHalt lab status (.panic "LAB has no runnable shell")

namespace InKernel

variable {image : List Byte} {lab : Lab}

/-- All live tasks are suspended when the next one is chosen. -/
theorem departing (kernel : InKernel image lab) (status : U64)
    : AllSuspended image lab.live (lab.departing status) := by
  have mortal (index : TaskIndex) (live : ((lab.departing status).tasks index).Live)
      : (lab.tasks index).Live ∧ index ≠ lab.current := by
    revert live
    apply Lab.departing_forall
      (fun index task task' => task'.Live → task.Live ∧ index ≠ lab.current)
    · intro impossible
      rcases impossible with ready | waiting
      · cases ready
      · cases waiting
    · exact fun index different waiting _ => ⟨Or.inr waiting, different⟩
    · exact fun index different live => ⟨live, different⟩
  refine ⟨kernel.toConsistent.tasks rfl ?_ ?_ ?_, fun index live => (mortal index live).1, ?_⟩
  · exact Lab.departing_forall (fun _ task task' => task.SameHoldings task')
      ⟨rfl, rfl, rfl, rfl⟩ (fun _ _ _ => ⟨rfl, rfl, rfl, rfl⟩) fun _ _ => .refl _
  · exact Lab.departing_forall (fun _ task task' => task'.files = task.files) rfl
      (fun _ _ _ => rfl) fun _ _ => rfl
  · intro index live
    obtain ⟨before, different⟩ := mortal index live
    have alive : (lab.tasks index).alive = true := kernel.alive index before
    exact Lab.departing_forall
      (fun slot task task' => slot ≠ lab.current → task.alive = true → task'.alive = true)
      (fun impossible => absurd rfl impossible) (fun _ _ _ _ alive => alive)
      (fun _ _ _ alive => alive) index different alive
  · intro index live
    obtain ⟨before, different⟩ := mortal index live
    have suspended := kernel.others index before different
    exact Lab.departing_forall
      (fun slot task task' => slot ≠ lab.current → task.Suspended slot → task'.Suspended slot)
      (fun impossible => absurd rfl impossible)
      (fun _ _ _ _ suspended => ⟨suspended.frame, Task.replied_user suspended.context status⟩)
      (fun _ _ _ suspended => suspended) index different suspended

/-- The table when the next task is chosen, but for the state of the one that ended. -/
theorem departing_process (lab : Lab) (status : U64) {index : TaskIndex}
    (different : index ≠ lab.current)
    : ((lab.departing status).tasks index).process = (lab.table.ended status).slots index := by
  have shape : (lab.table.ended status).slots index
      = if (lab.tasks index).Awaits lab.taskCurrent then
          { (lab.tasks index).process.reply status with state := .ready }
        else (lab.tasks index).process :=
    if_neg different
  rw [shape, Lab.departing_tasks, if_neg different]
  split
  · exact Task.woken_process _ _
  · rfl

/-- Whoever is chosen next is not the task that ended. -/
theorem departing_ready {status : U64} {next : TaskIndex}
    (ready : ((lab.departing status).tasks next).state = .ready)
    : next ≠ lab.current := by
  intro same
  rw [same, Lab.departing_tasks, if_pos rfl] at ready
  cases ready

theorem departed_table (lab : Lab) (status : U64) (next : TaskIndex)
    (machine : Machine)
    : (lab.departed status next machine).table
      = { lab.table.ended status with current := next } := by
  change (lab.emptied status next machine).table = _
  rw [Lab.emptied, Lab.table_withTask]
  unfold ProcessTable.set
  congr 1
  funext index
  rcases eq_or_ne index lab.current with same | different
  · subst same
    have ended : (lab.departing status).tasks lab.current
        = lab.taskCurrent.ended lab.current status := by
      rw [Lab.departing_tasks, if_pos rfl]
    have slot : (lab.table.ended status).slots lab.current
        = { lab.table.running with
            status := status, state := if lab.table.Awaited then .unused else .exited } :=
      if_pos rfl
    rw [Function.update_self, slot]
    change Task.process { (lab.departing status).tasks lab.current with
      privateSpace := .zero, pages := [],
      state := if lab.table.Awaited then .unused else .exited } = _
    rw [ended]
    rfl
  · rw [Function.update_of_ne different]
    exact departing_process lab status different

/-- Releasing the frames of the task that ended leaves the other tasks theirs. -/
theorem departed_spec (kernel : InKernel image lab) {status : U64} {next : TaskIndex}
    (ready : ((lab.departing status).tasks next).state = .ready)
    : ∃ machine,
        releasePages lab.current ((lab.departing status).selected next)
          = .ok
              ((),
                ({ (lab.departing status).selected next with machine := machine } : Lab).withTask
                  lab.current fun task => { task with privateSpace := .zero, pages := [] })
        ∧ ((lab.departing status).selected next).machine.Returns machine lab.taskCurrent.owned
        ∧ InKernel image (lab.departed status next machine) := by
  have all := kernel.departing status
  have different := departing_ready ready
  have selected := (all.select ready).2
  have consistent := all.toConsistent.selected next
  have partition := consistent.partition
  have ended : ((lab.departing status).selected next).tasks lab.current
      = lab.taskCurrent.ended lab.current status := by
    change (lab.departing status).tasks lab.current = _
    rw [Lab.departing_tasks, if_pos rfl]
  have formed := kernel.partition.formed lab.current (Or.inl kernel.ready)
  have formed' := partition.formed lab.current (Or.inl kernel.ready)
  have nextFormed := partition.formed next (all.owns next (Or.inl ready))
  have apart : (((lab.departing status).selected next).tasks lab.current).privateSpace.root
      ≠ ((lab.departing status).selected next).machine.currentRoot := by
    rw [selected.root]
    intro same
    apply different
    apply partition.divided.apart next lab.current _ (List.mem_append_left _ nextFormed.tree.rootOwned)
    exact List.mem_append_left _ (same ▸ formed'.tree.rootOwned)
  obtain ⟨machine, released, returns⟩ :=
    releasePages_spec partition.ready.toPagesWellFormed formed'.hasSpace
      (partition.divided.distinct lab.current) (fun address => partition.owned_outstanding)
      (Or.inr ⟨formed'.tree.root_ne_zero partition.ready, apart⟩)
  have owned : (((lab.departing status).selected next).tasks lab.current).owned
      = lab.taskCurrent.owned := by
    rw [ended]
    rfl
  refine ⟨machine, released, owned ▸ returns, ?_⟩
  let lab' : Lab := lab.emptied status next machine
  have other {index : TaskIndex} (away : index ≠ lab.current)
      : lab'.tasks index = (lab.departing status).tasks index :=
    Lab.withTask_other _ away _
  have here : lab'.tasks lab.current
      = { lab.taskCurrent.ended lab.current status with
          privateSpace := .zero, pages := [],
          state := if lab.table.Awaited then .unused else .exited } := by
    rw [← ended]
    exact Lab.withTask_self ..
  have dead : ¬(lab'.tasks lab.current).Live := by
    rw [here, Task.Live]
    split <;> simp
  have revoked : Partition image (fun index => index ≠ lab.current ∧ lab.live index) lab' :=
    partition.revoke returns (fun index away => (other away).symm ▸ .refl _)
      (by rw [here]; exact ⟨rfl, rfl⟩)
  have live : lab'.live = fun index => index ≠ lab.current ∧ lab.live index := by
    funext index
    rcases eq_or_ne index lab.current with same | away
    · subst same
      exact propext (iff_of_false dead fun both => both.1 rfl)
    · rw [Lab.live, other away]
      refine propext ⟨fun live => ⟨away, all.owns index live⟩, fun both => ?_⟩
      exact Lab.departing_forall (fun slot task task' => slot ≠ lab.current → task.Live → task'.Live)
        (fun impossible => absurd rfl impossible) (fun _ _ _ _ _ => Or.inl rfl)
        (fun _ _ _ live => live) index away both.2
  have suspended (index : TaskIndex) (alive : (lab'.tasks index).Live)
      : (lab'.tasks index).Suspended index ∧ (lab'.tasks index).alive = true := by
    have away : index ≠ lab.current := fun same => dead (same ▸ alive)
    rw [other away] at alive ⊢
    exact ⟨all.suspended index alive, all.alive index alive⟩
  have files (index : TaskIndex) : (lab'.tasks index).files = (lab.tasks index).files := by
    rcases eq_or_ne index lab.current with same | away
    · subst same
      rw [here]
      rfl
    · rw [other away]
      exact Lab.departing_forall (fun _ task task' => task'.files = task.files) rfl
        (fun _ _ _ => rfl) (fun _ _ => rfl) index
  have kernel' : InKernel image lab' := by
    refine ⟨⟨kernel.sized, live ▸ revoked, ?_, fun index alive => (suspended index alive).2⟩,
      ⟨?_, ?_, rfl⟩, fun index alive _ => (suspended index alive).1, ?_⟩
    · intro index descriptor
      rw [files]
      exact kernel.descriptors index descriptor
    · exact (congrArg Task.state (other different)).trans ready
    · have root : lab'.machine.currentRoot
          = ((lab.departing status).selected next).machine.currentRoot :=
        congrArg (· &&& pteAddress) returns.record.cr3
      rw [root, selected.root]
      exact congrArg (fun task => task.privateSpace.root) (other different).symm
    · exact ((suspended next (Or.inl ((congrArg Task.state (other different)).trans ready))).1).context
  exact kernel'.traced _

/-- `task_exit` ends the current task, unless it may not end or nobody else is ready. -/
theorem taskExit_spec (kernel : InKernel image lab) (status : U64)
    : Outcome (taskExit (savedAt lab.current) status)
        (fun frame lab' =>
          Handled image (.terminate status) lab frame lab' ∧ Departed lab status lab')
        (ExitHalt lab status) lab := by
  have opened : taskExit (savedAt lab.current) status lab
      = (if lab.taskCurrent.program = .init ∨ lab.taskCurrent.program = .shell then
          (halt (.panic "LAB init or shell exited") : LabM (Option StackPointer)) lab
        else (do
          let reaped ← wakeParents lab.taskCurrent status (List.finRange 8)
          let ready ← nextReady
          let next ← selectTask ready
          releasePages lab.current
          if reaped then modifyTask lab.current fun task => { task with state := .unused }
          else pure ()
          processEvent lab.current
          memoryEvent
          pure next : LabM (Option StackPointer)) (lab.exiting status)) := by
    unfold taskExit
    rw [bind_get_apply]
    exact branch_apply ..
  by_cases immortal : lab.taskCurrent.program = .init ∨ lab.taskCurrent.program = .shell
  · rw [if_pos immortal] at opened
    exact .of_error opened (.immortal immortal)
  rw [if_neg immortal] at opened
  have mortal := not_or.mp immortal
  have awaits (index : TaskIndex)
      : ((lab.exiting status).tasks index).Awaits lab.taskCurrent
        ↔ (lab.tasks index).Awaits lab.taskCurrent := by
    refine Lab.withTask_forall
      (fun _ task task' => task'.Awaits lab.taskCurrent ↔ task.Awaits lab.taskCurrent)
      (Task.ended lab.current status) (iff_of_false ?_ ?_) (fun _ _ => Iff.rfl) index
    · intro impossible
      cases impossible.2.1
    · intro impossible
      have waiting : (lab.tasks lab.current).state = .waiting := impossible.2.1
      rw [kernel.ready] at waiting
      cases waiting
  have woken := @wakeParents_ok lab.taskCurrent status _ (List.nodup_finRange 8) (lab.exiting status)
    (by
      intro index awaiting
      have waiting : (lab.tasks index).state = .waiting := ((awaits index).mp awaiting).2.1
      have different : index ≠ lab.current := by
        intro same
        rw [same, kernel.ready] at waiting
        cases waiting
      have kept : (lab.exiting status).tasks index = lab.tasks index :=
        lab.withTask_other different (Task.ended lab.current status)
      rw [kept]
      exact (kernel.others index (Or.inr waiting) different).frame)
  have reaped : (∃ index ∈ List.finRange 8,
        ((lab.exiting status).tasks index).Awaits lab.taskCurrent) ↔ lab.table.Awaited := by
    simp only [List.mem_finRange, true_and, awaits]
    rfl
  simp only [reaped] at woken
  have departing := opened.trans (bind_ok woken _)
  by_cases someone : ∃ next, ((lab.departing status).tasks next).state = .ready
  · obtain ⟨_, someone⟩ := someone
    have states (index : TaskIndex)
        : ((lab.table.ended status).slots index).state = .ready
          ↔ ((lab.departing status).tasks index).state = .ready := by
      rcases eq_or_ne index lab.current with same | different
      · subst same
        have ended : ((lab.departing status).tasks lab.current).state = .exited := by
          rw [Lab.departing_tasks, if_pos rfl]
          rfl
        refine iff_of_false ?_ (by rw [ended]; simp)
        change (if lab.current = lab.current then _ else _ : Process).state ≠ _
        rw [if_pos rfl]
        dsimp only
        split <;> simp
      · rw [← departing_process lab status different]
        exact Iff.rfl
    obtain ⟨next, found, ready, chosen⟩ :=
      @nextReady_ok (lab.departing status) (lab.table.ended status) rfl states _ someone
    obtain ⟨machine, released, returns, kernel'⟩ := kernel.departed_spec ready
    have selected := ((kernel.departing status).select ready).1
    have left := departing.trans ((bind_ok found _).trans ((bind_ok selected _).trans
      (bind_ok released _)))
    have different := departing_ready ready
    have finished : taskExit (savedAt lab.current) status lab
        = .ok (some (savedAt next), lab.departed status next machine) := by
      have reports (lab' : Lab)
          : (processEvent lab.current >>= fun _ => memoryEvent >>= fun _ =>
              (pure (some (savedAt next)) : LabM (Option StackPointer))) lab'
            = .ok (some (savedAt next),
                lab'.traced [lab'.processRecord lab.current, lab'.memoryRecord]) := by
        rw [bind_ok (processEvent_reports ..), bind_ok (memoryEvent_reports _), Lab.traced_traced]
        rfl
      refine left.trans ?_
      by_cases awaited : lab.table.Awaited
      · rw [if_pos (decide_eq_true awaited), bind_ok (modifyTask_apply ..)]
        refine (reports _).trans ?_
        simp only [Lab.departed, Lab.emptied, if_pos awaited, Lab.withTask, Function.update_self,
          Function.update_idem]
      · have exited : ((lab.departing status).tasks lab.current).state = .exited := by
          rw [Lab.departing_tasks, if_pos rfl]
          rfl
        rw [if_neg (by simpa using awaited)]
        refine (reports _).trans ?_
        simp only [Lab.departed, Lab.emptied, if_neg awaited, Lab.withTask, Lab.selected, exited]
    refine .of_ok finished
      ⟨⟨rfl, kernel', ?_⟩, mortal, next, machine, rfl, different, ready, returns⟩
    · rw [departed_table]
      exact .ended mortal chosen
  · have nobody := not_exists.mp someone
    have halted := nextReady_none nobody
    refine .of_error (departing.trans (bind_error halted _)) (.nobody mortal ?_)
    intro index
    rcases eq_or_ne index lab.current with same | different
    · subst same
      change (if lab.current = lab.current then _ else _ : Process).state ≠ _
      rw [if_pos rfl]
      dsimp only
      split <;> simp
    · rw [← departing_process lab status different]
      exact nobody index

end InKernel

-----------------------------------------------------------------------------------------
-- Faults
-----------------------------------------------------------------------------------------

namespace Lab

/-- A word of the saved frame of the current task. -/
def savedField (lab : Lab) (field : FrameField) : U64 :=
  lab.taskCurrent.stack (stackWords - frameWords + field.offset)

/-- The report of a fault in the trace. -/
def faultRecord (lab : Lab) (address : U64) : TraceRecord :=
  ⟨"fault", lab.ticks,
    [.number (wide lab.taskCurrent.id), .number (lab.savedField .vector),
      .number (lab.savedField .error), .hex address, .hex (lab.savedField .rip),
      .number (lab.savedField .cs &&& 3)]⟩

/-- The report of a fault on the console. -/
def faultMessage (lab : Lab) : List Byte :=
  ["\nuser fault: pid=", toString (wide lab.taskCurrent.id).toNat, " vector=",
    toString (lab.savedField .vector).toNat, "\n"].flatMap fun part =>
      serialBytes (textBytes part)

/-- The state after a fault was reported. -/
def faulted (lab : Lab) (address : U64) : Lab :=
  { lab with console :=
    ⟨lab.console.com1 ++ lab.faultMessage, lab.console.trace ++ [lab.faultRecord address]⟩ }

end Lab

/-- A fault is reported and then ends the task. -/
theorem userFault_eq (lab : Lab) (address : U64)
    : userFault (savedAt lab.current) address lab
      = taskExit (savedAt lab.current) (128 + lab.savedField .vector) (lab.faulted address) := by
  have message (com1 : List Byte)
      : com1 ++ lab.faultMessage
        = ((((com1 ++ serialBytes (textBytes "\nuser fault: pid="))
          ++ serialBytes (textBytes (toString (wide lab.taskCurrent.id).toNat)))
          ++ serialBytes (textBytes " vector="))
          ++ serialBytes (textBytes (toString (lab.savedField .vector).toNat)))
          ++ serialBytes (textBytes "\n") := by
    simp only [Lab.faultMessage, List.flatMap_cons, List.flatMap_nil, List.append_assoc,
      List.append_nil]
  rw [Lab.faulted, message]
  rfl

theorem InKernel.userFault_spec {image : List Byte} {lab : Lab} (kernel : InKernel image lab)
    (address : U64)
    : Outcome (userFault (savedAt lab.current) address)
        (fun frame lab' =>
          Handled image (.terminate (128 + lab.savedField .vector)) lab frame lab'
          ∧ Departed (lab.faulted address) (128 + lab.savedField .vector) lab')
        (ExitHalt lab (128 + lab.savedField .vector)) lab := by
  have kernel' : InKernel image (lab.faulted address) := kernel.console _
  refine .of_eq (userFault_eq lab address)
    ((kernel'.taskExit_spec (128 + lab.savedField .vector)).mono ?_ ?_)
  · intro frame lab' both
    obtain ⟨handled, departed⟩ := both
    exact ⟨⟨handled.frame, handled.kernel, handled.table⟩, departed⟩
  · intro reason halted
    cases halted with
    | immortal program => exact .immortal program
    | nobody mortal idle => exact .nobody mortal idle

end MiniLinux
