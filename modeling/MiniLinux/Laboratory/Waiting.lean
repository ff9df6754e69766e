import MiniLinux.Laboratory.Switching

/-! Waiting for a child, and ending: `wait_child`, `task_exit` and `user_fault`. -/

namespace MiniLinux

open Foundation Foundation.Halting

/-- An entry that ended in a step of the table, with the frame to resume. -/
structure Handled (image : List Byte) (action : Action) (lab : Lab) (frame : Option StackPointer)
    (lab' : Lab)
    : Prop where
  frame : frame = some (savedAt lab'.current)
  kernel : InKernel image lab'
  table : TableStep lab.table action lab'.table

/-- The task with a result in its saved frame. -/
def Task.replied (task : Task) (value : U64) : Task :=
  { task with
    stack := Function.update task.stack
      (stackWords - frameWords + (FrameField.general .rax).offset) value }

theorem Task.replied_process (task : Task) (value : U64)
    : (task.replied value).process = task.process.reply value := by
  have context : (task.replied value).context
      = { task.context with general := Function.update task.context.general .rax value } :=
    frameContext_update task.stack _ .rax value
  unfold Task.process Process.reply
  rw [context]
  rfl

theorem Task.replied_same (task : Task) (value : U64) : task.SameSlot (task.replied value) :=
  ⟨⟨rfl, rfl, rfl, rfl⟩, rfl, rfl, rfl⟩

theorem Task.replied_user {task : Task} (user : task.context.User) (value : U64)
    : (task.replied value).context.User := by
  have context : (task.replied value).context
      = { task.context with general := Function.update task.context.general .rax value } :=
    frameContext_update task.stack _ .rax value
  rw [context]
  exact ⟨user.cs, user.ss, user.flags⟩

theorem storeField_saved (index : TaskIndex) (value : U64) (lab : Lab)
    : storeField (savedAt index) (.general .rax) value lab
      = .ok ((), lab.withTask index fun task => task.replied value) :=
  rfl

namespace InKernel

variable {image : List Byte} {lab : Lab}

theorem console (kernel : InKernel image lab) (console : Console)
    : InKernel image { lab with console := console } :=
  ⟨kernel.toConsistent.slots rfl fun _ => .refl _, ⟨kernel.ready, kernel.root, kernel.rsp0⟩,
    kernel.others, kernel.saved⟩

theorem traced (kernel : InKernel image lab) (records : List TraceRecord)
    : InKernel image (lab.traced records) :=
  kernel.console _

/-- A result for the current task. -/
theorem replied (kernel : InKernel image lab) (value : U64)
    : InKernel image (lab.withTask lab.current fun task => task.replied value) := by
  have same := Lab.withTask_forall (fun _ task task' => task.SameSlot task')
    (fun task => task.replied value) ((lab.tasks lab.current).replied_same value) fun _ _ => .refl _
  refine ⟨kernel.toConsistent.slots rfl same, ⟨?_, ?_, kernel.rsp0⟩, ?_, ?_⟩
  · exact (same lab.current).state.trans kernel.ready
  · exact kernel.root.trans (congrArg AddressSpace.root (same lab.current).privateSpace.symm)
  · intro index live different
    have kept : (lab.withTask lab.current fun task => task.replied value).tasks index
        = lab.tasks index :=
      Lab.withTask_other lab different _
    rw [kept] at live ⊢
    exact kernel.others index live different
  · change ((lab.withTask lab.current fun task => task.replied value).tasks
      lab.current).context.User
    rw [Lab.withTask_self]
    exact Task.replied_user kernel.saved value

theorem replied_table (lab : Lab) (value : U64)
    : (lab.withTask lab.current fun task => task.replied value).table
      = lab.table.answered value lab.table.running.files := by
  rw [Lab.table_withTask, Task.replied_process]
  rfl

/-- A slot that is not live is given up. -/
theorem retire (kernel : InKernel image lab) {index : TaskIndex}
    (dead : ¬(lab.tasks index).Live)
    : InKernel image (lab.withTask index fun task => { task with state := .unused }) := by
  let retired : Lab := lab.withTask index fun task => { task with state := .unused }
  have different : index ≠ lab.current := fun same => dead (same ▸ Or.inl kernel.ready)
  have other {slot : TaskIndex} (apart : slot ≠ index) : retired.tasks slot = lab.tasks slot :=
    Lab.withTask_other lab apart _
  have current : retired.tasks lab.current = lab.tasks lab.current := other (Ne.symm different)
  have gone : ¬(retired.tasks index).Live := by
    rw [Lab.withTask_self]
    simp [Task.Live]
  have live : retired.live = lab.live := by
    funext slot
    by_cases same : slot = index
    · rw [Lab.live, Lab.live, same]
      exact propext (iff_of_false gone dead)
    · rw [Lab.live, other same, Lab.live]
  refine ⟨?_, ⟨?_, ?_, kernel.rsp0⟩, ?_, ?_⟩
  · rw [live]
    refine kernel.toConsistent.tasks rfl ?_ ?_ ?_
    · exact Lab.withTask_forall (fun _ task task' => task.SameHoldings task') _
        ⟨rfl, rfl, rfl, rfl⟩ fun _ _ => .refl _
    · exact Lab.withTask_forall (fun _ task task' => task'.files = task.files) _ rfl
        fun _ _ => rfl
    · intro slot alive
      have apart : slot ≠ index := fun same => gone (same ▸ alive)
      rw [other apart] at alive ⊢
      exact kernel.alive slot alive
  · exact (congrArg Task.state current).trans kernel.ready
  · exact kernel.root.trans
      (congrArg (fun task => task.privateSpace.root) current.symm)
  · intro slot alive apart
    have kept : slot ≠ index := fun same => gone (same ▸ alive)
    rw [other kept] at alive ⊢
    exact kernel.others slot alive apart
  · exact current ▸ kernel.saved

end InKernel

-----------------------------------------------------------------------------------------
-- Waiting
-----------------------------------------------------------------------------------------

namespace Lab

/-- The state with the report of a slot. -/
def announced (lab : Lab) (index : TaskIndex) : Lab := lab.traced [lab.processRecord index]

/-- The state after the report of a wait. -/
def asked (lab : Lab) (pid : U64) : Lab :=
  lab.traced [⟨"wait", lab.ticks, [.number (wide lab.taskCurrent.id), .number pid]⟩]

/-- The current task has collected the ended child in a slot. -/
def collectedFrom (lab : Lab) (pid : U64) (index : TaskIndex) : Lab :=
  ((lab.asked pid).withTask lab.current fun task => task.replied (lab.tasks index).status).withTask
    index fun task => { task with state := .unused }

/-- The current task waits. -/
def waitingFor (lab : Lab) (pid : U64) : Lab :=
  (lab.asked pid).withTask lab.current fun task =>
    { task with
      frame := some (savedAt lab.current), state := .waiting, waitingFor := pid.setWidth 32 }

end Lab

/-- What `wait_child` does. -/
inductive Waited (lab : Lab) (pid : U64) : Lab → Prop
  | refused (none : lab.table.child pid = none)
      : Waited lab pid ((lab.asked pid).withTask lab.current fun task => task.replied (-3))
  | collected {index : TaskIndex} (found : lab.table.child pid = some index)
      (exited : (lab.tasks index).state = .exited)
      : Waited lab pid ((lab.collectedFrom pid index).announced index)
  | blocked {index next : TaskIndex} (found : lab.table.child pid = some index)
      (living : (lab.tasks index).state ≠ .exited)
      (ready : ((lab.waitingFor pid).tasks next).state = .ready)
      : Waited lab pid (((lab.waitingFor pid).announced lab.current).selected next)

theorem Lab.waitingFor_table (lab : Lab) (pid : U64)
    : (lab.waitingFor pid).table = lab.table.blocked pid := by
  rw [Lab.waitingFor, Lab.table_withTask]
  rfl

namespace InKernel

variable {image : List Byte} {lab : Lab}

/-- `wait_child` answers, or lets the caller wait and switches away. It stops only where the
caller would wait and no task is ready.
-/
theorem waitChild_spec (kernel : InKernel image lab) (pid : U64)
    : Outcome (waitChild (savedAt lab.current) pid)
        (fun frame lab' => Handled image (.wait pid) lab frame lab' ∧ Waited lab pid lab')
        (fun reason =>
          reason = .panic "LAB has no runnable shell"
          ∧ (∃ index,
              lab.table.child pid = some index ∧ (lab.table.slots index).state ≠ .exited)
          ∧ ∀ index, ((lab.table.blocked pid).slots index).state ≠ .ready)
        lab := by
  have found : lab.findChild lab.taskCurrent pid = lab.table.child pid := rfl
  have kernelAsked : InKernel image (lab.asked pid) := kernel.traced _
  cases child : lab.table.child pid with
  | none =>
      have opened : waitChild (savedAt lab.current) pid lab
          = (do
              storeField (savedAt lab.current) (.general .rax) (-3)
              pure (some (savedAt lab.current)) : LabM (Option StackPointer)) (lab.asked pid) := by
        rw [waitChild, bind_get_apply]
        refine (bind_ok (event_reports ..) _).trans ?_
        rw [found, child]
        rfl
      refine .of_ok (opened.trans rfl) ⟨⟨rfl, kernelAsked.replied (-3), ?_⟩, .refused child⟩
      have table := replied_table (lab.asked pid) (-3)
      change TableStep lab.table (.wait pid)
        ((lab.asked pid).withTask (lab.asked pid).current fun task => task.replied (-3)).table
      rw [table]
      exact .waitRefused child
  | some index =>
      have opened : waitChild (savedAt lab.current) pid lab
          = (if (lab.tasks index).state = .exited then do
              storeField (savedAt lab.current) (.general .rax) (lab.tasks index).status
              modifyTask index fun task => { task with state := .unused }
              processEvent index
              pure (some (savedAt lab.current))
            else do
              modifyTask lab.current fun task =>
                { task with
                  frame := some (savedAt lab.current), state := .waiting,
                  waitingFor := pid.setWidth 32 }
              processEvent lab.current
              let next ← nextReady
              selectTask next : LabM (Option StackPointer)) (lab.asked pid) := by
        rw [waitChild, bind_get_apply]
        refine (bind_ok (event_reports ..) _).trans ?_
        rw [found, child]
        rfl
      by_cases exited : (lab.tasks index).state = .exited
      · rw [if_pos exited, bind_ok (storeField_saved ..), bind_ok (modifyTask_apply ..)] at opened
        have different : index ≠ lab.current := by
          intro same
          rw [same, kernel.ready] at exited
          cases exited
        let answered : Lab := (lab.asked pid).withTask lab.current fun task =>
          task.replied (lab.tasks index).status
        have same : answered.tasks index = lab.tasks index :=
          Lab.withTask_other (lab.asked pid) different _
        have dead : ¬(answered.tasks index).Live := by
          rw [same, Task.Live, exited]
          simp
        have collected := (kernelAsked.replied (lab.tasks index).status).retire dead
        refine .of_ok (opened.trans (bind_ok (processEvent_reports ..) _))
          ⟨⟨rfl, collected.traced _, ?_⟩, .collected child exited⟩
        have table : (lab.collectedFrom pid index).table = lab.table.collected index := by
          change (answered.withTask index fun task => { task with state := .unused }).table = _
          rw [Lab.table_withTask, same, Lab.table_withTask, Task.replied_process]
          rfl
        change TableStep lab.table (.wait pid) (lab.collectedFrom pid index).table
        rw [table]
        exact .collected child exited
      · rw [if_neg exited, bind_ok (modifyTask_apply ..)] at opened
        have all : AllSuspended image (lab.asked pid).live (lab.waitingFor pid) :=
          kernelAsked.suspend
            (fun task =>
              { task with
                frame := some (savedAt lab.current), state := .waiting,
                waitingFor := pid.setWidth 32 })
            rfl rfl ⟨rfl, rfl, rfl, rfl⟩ rfl
            (fun _ => kernel.alive lab.current (Or.inl kernel.ready))
        have live : ∀ slot, (lab.asked pid).live slot → ((lab.waitingFor pid).tasks slot).Live :=
          Lab.withTask_forall (fun _ task task' => task.Live → task'.Live) _
            (fun _ => Or.inr rfl) fun _ _ live => live
        have table := lab.waitingFor_table pid
        have reported := opened.trans
          (bind_ok (processEvent_reports lab.current (lab.waitingFor pid)) _)
        by_cases someone : ∃ next, ((lab.waitingFor pid).tasks next).state = .ready
        · obtain ⟨_, someone⟩ := someone
          obtain ⟨next, next', ready, chosen⟩ :=
            @nextReady_ok ((lab.waitingFor pid).announced lab.current) (lab.waitingFor pid).table
              rfl (fun _ => Iff.rfl) _ someone
          have selected := (all.traced _).select ready
          refine .of_ok (reported.trans ((bind_ok next' _).trans selected.1))
            ⟨⟨rfl, (all.traced _).inKernel live ready, ?_⟩, .blocked child exited ready⟩
          change TableStep lab.table (.wait pid)
            { (lab.waitingFor pid).table with current := next }
          rw [table] at chosen ⊢
          exact .blocked child exited chosen
        · have nobody := not_exists.mp someone
          have halted := @nextReady_none ((lab.waitingFor pid).announced lab.current) nobody
          refine .of_error (reported.trans (bind_error halted _)) ⟨rfl, ⟨index, rfl, exited⟩, ?_⟩
          rw [← table]
          exact nobody

end InKernel

end MiniLinux
