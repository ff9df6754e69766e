import Mathlib.Logic.Relation
import MiniLinux.Laboratory.Scheduling

/-! What one step of the process table does to a process that does not run.
Only three things happen to it: its unused slot is filled, its parent collects it, or the end of
the child that it waits for wakes it. So a ready process keeps its registers until it runs, and a
waiting one until it is woken.
-/

namespace MiniLinux

open Foundation

/-- The slot of a process that does not run, after a step. -/
inductive SlotStep (table : ProcessTable) (action : Action) (index : TaskIndex) : Process → Prop
  | kept : SlotStep table action index (table.slots index)
  | filled {number : U64} {process : Process} (spawns : action = .spawn number)
      (free : (table.slots index).state = .unused)
      (born
        : process.state = .unused
          ∨ ∃ program,
              spawnable table.running.program number = some program
              ∧ process = .fresh table.nextPid program table.running.id)
      : SlotStep table action index process
  | collected {pid : U64} (waits : action = .wait pid) (found : table.child pid = some index)
      (exited : (table.slots index).state = .exited)
      : SlotStep table action index { table.slots index with state := .unused }
  | woken {status : U64} (terminates : action = .terminate status)
      (awaits : (table.slots index).Awaits table.running)
      : SlotStep table action index { (table.slots index).reply status with state := .ready }

section Slots

variable {table table' : ProcessTable} {action : Action} {index : TaskIndex}

theorem SlotStep.of_eq {process : Process} (same : process = table.slots index)
    : SlotStep table action index process :=
  same ▸ .kept

/-- Every step is one of these for a slot besides the current one. -/
theorem TableStep.slot (step : TableStep table action table') (different : index ≠ table.current)
    : SlotStep table action index (table'.slots index) := by
  have beside (process : Process) : (table.set table.current process).slots index = table.slots index :=
    table.set_other different process
  cases step with
  | quiet => exact .kept
  | run context => exact .of_eq (beside _)
  | tick chosen => exact .kept
  | answered value files => exact .of_eq (beside _)
  | spawnRefused number value refused => exact .of_eq (beside _)
  | @spawnFailed number slot free process unused =>
      rcases eq_or_ne index slot with rfl | apart
      · refine .filled rfl free (Or.inl ?_)
        exact (congrArg Process.state (ProcessTable.set_here _ index process)).trans unused
      · exact .of_eq ((ProcessTable.set_other _ apart process).trans (beside _))
  | @spawned number slot program free permitted =>
      rcases eq_or_ne index slot with rfl | apart
      · exact .filled rfl free (Or.inr ⟨program, permitted, ProcessTable.set_here _ index _⟩)
      · exact .of_eq ((ProcessTable.set_other _ apart _).trans (beside _))
  | waitRefused none => exact .of_eq (beside _)
  | @collected pid slot found exited =>
      rcases eq_or_ne index slot with rfl | apart
      · have gone : (table.collected index).slots index
            = { table.slots index with state := .unused } :=
          ProcessTable.set_here _ index _
        rw [gone]
        exact .collected rfl found exited
      · exact .of_eq ((ProcessTable.set_other _ apart _).trans (beside _))
  | blocked found living chosen => exact .of_eq (beside _)
  | @ended status next mortal chosen =>
      rcases ProcessTable.Sound.ended_slot table status index with
        ⟨here, _⟩ | ⟨_, awaits, same⟩ | ⟨_, _, same⟩
      · exact absurd here different
      · have woken : ({ table.ended status with current := next } : ProcessTable).slots index
            = { (table.slots index).reply status with state := .ready } :=
          same
        rw [woken]
        exact .woken rfl awaits
      · exact .of_eq same

/-- A ready process that does not run stays as it is. -/
theorem SlotStep.ready {process : Process} (step : SlotStep table action index process)
    (ready : (table.slots index).state = .ready)
    : process = table.slots index := by
  cases step with
  | kept => rfl
  | filled _ free => cases free.symm.trans ready
  | collected _ _ exited => cases exited.symm.trans ready
  | woken _ awaits => cases awaits.2.1.symm.trans ready

/-- A waiting process stays as it is, or its child ends. -/
theorem SlotStep.waiting {process : Process} (step : SlotStep table action index process)
    (waiting : (table.slots index).state = .waiting)
    : process = table.slots index
      ∨ ∃ status,
          action = .terminate status
          ∧ (table.slots index).Awaits table.running
          ∧ process = { (table.slots index).reply status with state := .ready } := by
  cases step with
  | kept => exact Or.inl rfl
  | filled _ free => cases free.symm.trans waiting
  | collected _ _ exited => cases exited.symm.trans waiting
  | woken terminates awaits => exact Or.inr ⟨_, terminates, awaits, rfl⟩

/-- An ended process stays as it is, or it is collected. -/
theorem SlotStep.exited {process : Process} (step : SlotStep table action index process)
    (exited : (table.slots index).state = .exited)
    : process = table.slots index
      ∨ ∃ pid, action = .wait pid ∧ table.child pid = some index := by
  cases step with
  | kept => exact Or.inl rfl
  | filled _ free => cases free.symm.trans exited
  | collected waits found _ => exact Or.inr ⟨_, waits, found⟩
  | woken _ awaits => cases awaits.2.1.symm.trans exited

end Slots

-----------------------------------------------------------------------------------------
-- Stretches of a run in which a task does not run
-----------------------------------------------------------------------------------------

/-- One event, at a state in which another task runs. -/
def Lab.StepsBeside (image : List Byte) (index : TaskIndex) (lab lab' : Lab) : Prop :=
  lab.current ≠ index ∧ ∃ event, labStep image event lab = .ok ((), lab')

/-- A stretch of a run in which the task in a slot does not run before its end. -/
abbrev Lab.Away (image : List Byte) (index : TaskIndex) : Lab → Lab → Prop :=
  Relation.ReflTransGen (Lab.StepsBeside image index)

section Away

variable {image : List Byte} {index : TaskIndex} {lab lab' later : Lab}

theorem InUser.step (user : InUser image lab) {event : LabEvent}
    (stepped : labStep image event lab = .ok ((), lab'))
    : InUser image lab' ∧ TableStep lab.userTable (lab.action event) lab'.userTable := by
  obtain ⟨user', step, _⟩ := (user.labStep_spec event).ok stepped
  exact ⟨user', step⟩

theorem InUser.away (user : InUser image lab) (away : Lab.Away image index lab later)
    : InUser image later := by
  induction away with
  | refl => exact user
  | tail _ beside ih =>
      obtain ⟨_, event, stepped⟩ := beside
      exact (ih.step stepped).1

theorem InUser.slot (user : InUser image lab) {event : LabEvent}
    (stepped : labStep image event lab = .ok ((), lab')) (different : lab.current ≠ index)
    : SlotStep lab.userTable (lab.action event) index (lab'.userTable.slots index) :=
  (user.step stepped).2.slot (Ne.symm different)

/-- A ready task that is away keeps its registers. -/
theorem InUser.away_ready (user : InUser image lab) (away : Lab.Away image index lab later)
    (ready : (lab.userTable.slots index).state = .ready)
    : later.userTable.slots index = lab.userTable.slots index := by
  induction away with
  | refl => rfl
  | @tail middle last before beside ih =>
      obtain ⟨different, event, stepped⟩ := beside
      have slot := (user.away before).slot stepped different
      rw [slot.ready (ih ▸ ready), ih]

/-- The end of its child wakes the waiting task in a slot, in a step of a stretch. -/
structure Lab.Wakes (image : List Byte) (index : TaskIndex) (lab : Lab) (status : U64)
    (later : Lab)
    : Prop where
  ends
    : ∃ before event after,
        Lab.Away image index lab before
        ∧ before.userTable.slots index = lab.userTable.slots index
        ∧ before.action event = .terminate status
        ∧ (before.userTable.slots index).Awaits before.userTable.running
        ∧ labStep image event before = .ok ((), after)
        ∧ Lab.Away image index after later
  slot
    : later.userTable.slots index
      = { (lab.userTable.slots index).reply status with state := .ready }

/-- A waiting task that is away keeps waiting, or is woken once. -/
theorem InUser.away_waiting (user : InUser image lab) (away : Lab.Away image index lab later)
    (waiting : (lab.userTable.slots index).state = .waiting)
    : later.userTable.slots index = lab.userTable.slots index
      ∨ ∃ status, Lab.Wakes image index lab status later := by
  induction away with
  | refl => exact Or.inl rfl
  | @tail middle last before beside ih =>
      obtain ⟨different, event, stepped⟩ := beside
      have slot := (user.away before).slot stepped different
      rcases ih with same | ⟨status, wakes⟩
      · rcases slot.waiting (same ▸ waiting) with kept | ⟨status, terminates, awaits, woken⟩
        · exact Or.inl (kept.trans same)
        · refine Or.inr ⟨status, ⟨_, _, _, before, same, terminates, awaits, stepped, .refl⟩, ?_⟩
          rw [woken, same]
      · have ready : (middle.userTable.slots index).state = .ready := by
          rw [wakes.slot]
        obtain ⟨start, end', after, before', same, terminates, awaits, stepped', rest⟩ := wakes.ends
        refine Or.inr ⟨status, ⟨_, _, _, before', same, terminates, awaits, stepped', ?_⟩, ?_⟩
        · exact rest.tail ⟨different, event, stepped⟩
        · rw [slot.ready ready, wakes.slot]

end Away

end MiniLinux
