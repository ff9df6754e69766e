import MiniLinux.Laboratory.Containment
import MiniLinux.Laboratory.Contexts
import MiniLinux.Laboratory.ProcessIds

/-! The way of an exit status to the parent.
A status goes to one call of the parent, whether that waits already or asks later; until then the
slot keeps it, and afterwards nobody has the number of the child.
-/

namespace MiniLinux

open Foundation

-----------------------------------------------------------------------------------------
-- Runs that count the spawns
-----------------------------------------------------------------------------------------

/-- One event, with the number of spawns so far. -/
def Lab.Steps (image : List Byte) (before after : Nat × Lab) : Prop :=
  ∃ event,
    labStep image event before.2 = .ok ((), after.2)
    ∧ after.1 = before.1 + before.2.numbersTo after.2

abbrev Lab.Run (image : List Byte) : Nat × Lab → Nat × Lab → Prop :=
  Relation.ReflTransGen (Lab.Steps image)

section Run

variable {image : List Byte} {info : BootInfo} {before after : Nat × Lab}

theorem Lab.Run.spawns_le (run : Lab.Run image before after) : before.1 ≤ after.1 := by
  induction run with
  | refl => exact Nat.le_refl _
  | tail _ step ih =>
      obtain ⟨_, _, spawns⟩ := step
      omega

theorem ReachableAfter.run (reached : ReachableAfter image info before.1 before.2)
    (run : Lab.Run image before after)
    : ReachableAfter image info after.1 after.2 := by
  induction run with
  | refl => exact reached
  | tail _ step ih =>
      obtain ⟨event, stepped, spawns⟩ := step
      rw [spawns]
      exact .step event ih stepped

end Run

-----------------------------------------------------------------------------------------
-- Numbers that nobody has
-----------------------------------------------------------------------------------------

/-- No process has the number. -/
def ProcessTable.Forgets (table : ProcessTable) (pid : U32) : Prop :=
  ∀ index, (table.slots index).Used → (table.slots index).id ≠ pid

namespace ProcessTable

variable {table table' : ProcessTable} {pid : U32} {spawns : Nat}

/-- Nobody waits for such a number with success. -/
theorem Forgets.child (forgets : table.Forgets pid) : table.child (wide pid) = none := by
  cases found : table.child (wide pid) with
  | none => rfl
  | some index =>
      obtain ⟨used, number, _⟩ := Sound.child_spec found
      exact absurd (wide_injective number) (forgets index used)

/-- A number that was handed out and is gone does not come back. -/
theorem Forgets.step (forgets : table.Forgets pid) (old : pid.toNat ≤ spawns + 1)
    (sound : table.Sound spawns) (numbers : table.Numbers table')
    (bound : spawns + table.numbersTo table' < 2 ^ 32 - 1)
    : table'.Forgets pid := by
  intro index used
  have kept (keeps : table.KeepsNumbers table' index) : (table'.slots index).id ≠ pid := by
    obtain ⟨used', same⟩ := keeps used
    rw [same]
    exact forgets index used'
  cases numbers with
  | keep next keeps => exact kept (keeps index)
  | fail next keeps => exact kept (keeps index)
  | @spawn child next born id others result =>
      rcases eq_or_ne index child with rfl | different
      · rw [numbersTo_next next] at bound
        intro same
        rw [id, sound.next] at same
        rw [← same, BitVec.toNat_ofNat, Nat.mod_eq_of_lt (by omega)] at old
        omega
      · exact kept (others index different)

/-- When the only process of a number leaves, the number is gone. -/
theorem Sound.forgets (sound : table.Sound spawns) {index : TaskIndex}
    (used : (table.slots index).Used) (gone : ¬(table'.slots index).Used)
    (others
      : ∀ other, other ≠ index → (table'.slots other).Used
        → (table.slots other).Used ∧ (table'.slots other).id = (table.slots other).id)
    : table'.Forgets (table.slots index).id := by
  intro other used' same
  have different : other ≠ index := by
    rintro rfl
    exact gone used'
  obtain ⟨before, id⟩ := others other different used'
  exact different (sound.distinct other index before used (id ▸ same))

end ProcessTable

/-- A call that returns -3 and changes no task but its caller's `rax`. -/
def Lab.Refuses (image : List Byte) (event : LabEvent) (lab : Lab) : Prop :=
  ∃ lab',
    labStep image event lab = .ok ((), lab')
    ∧ lab'.userTable = lab.userTable.answered (-3) (lab.tasks lab.current).files
    ∧ lab.Effect 0 0 lab'

/-- No task has the number, and every wait for it is refused. -/
structure Lab.Forgot (image : List Byte) (pid : U32) (lab : Lab) : Prop where
  absent : ∀ index, (lab.tasks index).state ≠ .unused → (lab.tasks index).id ≠ pid
  refused : ∀ event, lab.action event = .wait (wide pid) → lab.Refuses image event

section Waits

variable {image : List Byte} {info : BootInfo} {lab : Lab}

/-- A wait writes nothing to its caller. -/
theorem Lab.output_wait {event : LabEvent} {pid : U64} (waits : lab.action event = .wait pid)
    (lab' : Lab)
    : lab.output event lab' = (0, 0) := by
  cases event with
  | interrupt vector error cr2 scratch =>
      by_cases call : vector.val = 128
      · obtain rfl : vector = 128 := Fin.ext call
        rw [Lab.action] at waits
        simp only [Lab.output, callOutput]
        cases number : Syscall.ofNumber (lab.cpu.general .rax) with
        | none => rfl
        | some found => cases found <;> simp_all
      · exact if_neg call
  | store address byte => cases waits
  | _ => rfl

/-- A wait that finds no child is refused. -/
theorem InUser.refuses (user : InUser image lab) {event : LabEvent} {pid : U64}
    (waits : lab.action event = .wait pid) (none : lab.userTable.child pid = none)
    : lab.Refuses image event := by
  have spec := user.labStep_spec event
  cases result : labStep image event lab with
  | ok pair =>
      obtain ⟨⟨⟩, lab'⟩ := pair
      obtain ⟨_, step, done⟩ := spec.ok result
      have effect := done.effect user
      rw [lab.output_wait waits lab'] at effect
      refine ⟨lab', result, ?_, effect⟩
      have files : lab.userTable.running.files = (lab.tasks lab.current).files :=
        congrArg Process.files lab.userTable_running
      rw [waits] at step
      rw [← files]
      generalize lab'.userTable = table' at step
      cases step with
      | waitRefused => rfl
      | collected found => cases none.symm.trans found
      | blocked found => cases none.symm.trans found
  | error reason =>
      have halted := spec.error result
      cases event with
      | interrupt vector error cr2 scratch =>
          have table := lab.entered_table vector error scratch
          have request := lab.entered_request vector error cr2 scratch
          cases halted with
          | exit terminates =>
              rw [request, waits] at terminates
              cases terminates
          | wait waits' found =>
              rw [request, waits] at waits'
              cases waits'
              rw [table] at found
              cases none.symm.trans found
          | unexpected unhandled =>
              rw [Lab.action] at waits
              split at waits
              · next call => exact absurd (by simp [call]) unhandled
              · split at waits
                · cases waits
                · cases waits
      | _ => exact halted.elim

theorem InUser.forgot (user : InUser image lab) {pid : U32} (forgets : lab.userTable.Forgets pid)
    : lab.Forgot image pid := by
  refine ⟨?_, fun event waits => user.refuses waits forgets.child⟩
  intro index used
  obtain ⟨context, slot⟩ := lab.userTable_slot index
  have other := forgets index
  rw [slot] at other
  exact other used

/-- Along a run a number that is gone stays gone. -/
theorem ReachableAfter.forgets {before after : Nat × Lab} {pid : U32}
    (reached : ReachableAfter image info before.1 before.2) (guaranteed : info.Guaranteed)
    (forgets : before.2.userTable.Forgets pid) (old : pid.toNat ≤ before.1 + 1)
    (run : Lab.Run image before after) (bound : after.1 < 2 ^ 32 - 1)
    : after.2.userTable.Forgets pid := by
  induction run with
  | refl => exact forgets
  | @tail middle last run step ih =>
      obtain ⟨event, stepped, spawns⟩ := step
      have grown := Lab.Run.spawns_le run
      have reached' := reached.run run
      have user := reached'.reachable.user guaranteed
      have running : middle.2.userTable.running.state = .ready :=
        (congrArg Process.state middle.2.userTable_running).trans user.ready
      have small : middle.1 < 2 ^ 32 - 1 := by omega
      have total : middle.1 + middle.2.userTable.numbersTo last.2.userTable < 2 ^ 32 - 1 :=
        spawns ▸ bound
      exact (ih small).step (by omega) (reached'.sound guaranteed small)
        ((user.step stepped).2.numbers running) total

end Waits

-----------------------------------------------------------------------------------------
-- From the end of a task to its collection
-----------------------------------------------------------------------------------------

/-- The slot of a task that ended keeps its status for the parent. -/
structure Process.Kept (process : Process) (pid parent : U32) (status : U64) : Prop where
  state : process.state = .exited
  id : process.id = pid
  parent : process.parent = parent
  status : process.status = status

/-- The parent collects the status: it waits for the number of the child and gets the status in
`rax`. The slot is unused from now on, and the other tasks are as before.
-/
structure Lab.Collects (lab : Lab) (event : LabEvent) (index : TaskIndex) (pid parent : U32)
    (status : U64) (lab' : Lab)
    : Prop where
  waits : lab.action event = .wait (wide pid)
  caller : (lab.tasks lab.current).id = parent
  resumes : lab'.current = lab.current ∧ lab'.cpu = lab.cpu.answered status
  gone : (lab'.tasks index).state = .unused
  others
    : ∀ other,
        other ≠ index
        → other ≠ lab.current
        → lab'.userTable.slots other = lab.userTable.slots other

section Kept

variable {image : List Byte} {info : BootInfo} {lab lab' : Lab} {event : LabEvent}
  {index : TaskIndex} {pid parent : U32} {status : U64}

/-- A step keeps the status, or it is the collection. -/
theorem InUser.kept_step (user : InUser image lab)
    (kept : (lab.userTable.slots index).Kept pid parent status)
    (stepped : labStep image event lab = .ok ((), lab'))
    : (lab'.userTable.slots index).Kept pid parent status
      ∨ lab.Collects event index pid parent status lab'
        ∧ lab'.userTable = lab.userTable.collected index := by
  have different : lab.current ≠ index := by
    rintro rfl
    have running := user.ready
    rw [← lab.userTable_state, kept.state] at running
    cases running
  rcases (user.slot stepped different).exited kept.state with same | ⟨number, waits, found⟩
  · exact Or.inl (same ▸ kept)
  · right
    obtain ⟨_, step⟩ := user.step stepped
    obtain ⟨_, named, child⟩ := ProcessTable.Sound.child_spec found
    rw [kept.id] at named
    rw [kept.parent, lab.userTable_running] at child
    have table : lab'.userTable = lab.userTable.collected index := by
      rw [waits] at step
      generalize lab'.userTable = table' at step
      cases step with
      | waitRefused none => cases none.symm.trans found
      | collected found' => cases found.symm.trans found'; rfl
      | blocked found' living =>
          cases found.symm.trans found'
          exact absurd kept.state living
    have current : lab'.current = lab.current := congrArg ProcessTable.current table
    refine ⟨⟨named ▸ waits, child.symm, ⟨current, ?_⟩, ?_, ?_⟩, table⟩
    · rw [lab'.cpu_eq, current, table, ProcessTable.collected,
        ProcessTable.set_other _ different, kept.status]
      refine (congrArg Process.context (ProcessTable.set_here _ lab.current _)).trans ?_
      rw [lab.userTable_running]
      rfl
    · rw [← lab'.userTable_state, table, ProcessTable.collected]
      exact congrArg Process.state (ProcessTable.set_here _ index _)
    · intro other away away'
      rw [table, ProcessTable.collected, ProcessTable.set_other _ away]
      exact ProcessTable.set_other _ away' _

/-- Along a run the status is kept until it is collected, and after that the number is gone.
Witness: induction on the run.
-/
theorem ReachableAfter.kept {before after : Nat × Lab}
    (reached : ReachableAfter image info before.1 before.2) (guaranteed : info.Guaranteed)
    (kept : (before.2.userTable.slots index).Kept pid parent status)
    (run : Lab.Run image before after) (bound : after.1 < 2 ^ 32 - 1)
    : (after.2.userTable.slots index).Kept pid parent status
      ∨ ∃ first event last,
          Lab.Run image before first
          ∧ (first.2.userTable.slots index).Kept pid parent status
          ∧ labStep image event first.2 = .ok ((), last.2)
          ∧ last.1 = first.1 + first.2.numbersTo last.2
          ∧ first.2.Collects event index pid parent status last.2
          ∧ Lab.Run image last after
          ∧ last.2.userTable.Forgets pid
          ∧ pid.toNat ≤ last.1 + 1 := by
  induction run with
  | refl => exact Or.inl kept
  | @tail middle last run step ih =>
      have grown := Lab.Run.spawns_le (Relation.ReflTransGen.single step)
      have small : middle.1 < 2 ^ 32 - 1 := by omega
      have reached' := reached.run run
      have user := reached'.reachable.user guaranteed
      have sound := reached'.sound guaranteed small
      rcases ih small with
        kept' | ⟨first, event, next, run', kept', stepped, spawns, collects, rest, gone, old⟩
      · obtain ⟨event, stepped, spawns⟩ := step
        rcases user.kept_step kept' stepped with still | ⟨collects, table⟩
        · exact Or.inl still
        · have used : (middle.2.userTable.slots index).Used := by
            rw [Process.Used, kept'.state]
            decide
          have emptied : ¬(last.2.userTable.slots index).Used := by
            rw [Process.Used, last.2.userTable_state, collects.gone]
            exact not_not.mpr rfl
          have forgets := sound.forgets used emptied fun other different used' => by
            have same := ProcessTable.Sound.collected_slot middle.2.userTable different
            rw [table] at used' ⊢
            rw [Process.Used, same.state] at used'
            exact ⟨used', same.id⟩
          have old := (sound.numbered index used).2
          rw [kept'.id] at forgets old
          exact Or.inr ⟨middle, event, last, run, kept', stepped, spawns, collects, .refl, forgets,
            by omega⟩
      · exact Or.inr ⟨first, event, next, run', kept', stepped, spawns, collects, rest.tail step,
          gone, old⟩

end Kept

-----------------------------------------------------------------------------------------
-- Delivery
-----------------------------------------------------------------------------------------

section Delivery

variable {image : List Byte} {info : BootInfo} {lab lab' : Lab} {event : LabEvent} {spawns : Nat}

/-- What the end of the current task makes of the table. -/
theorem InUser.ended (user : InUser image lab) {status : U64}
    (ends : lab.action event = .terminate status)
    (stepped : labStep image event lab = .ok ((), lab'))
    : ∃ next, lab'.userTable = { lab.userTable.ended status with current := next } := by
  obtain ⟨_, step⟩ := user.step stepped
  rw [ends] at step
  generalize lab'.userTable = table' at step
  cases step with
  | @ended _ next mortal chosen => exact ⟨next, rfl⟩

/-- The end of a task takes no number. -/
theorem ReachableAfter.ended (reached : ReachableAfter image info spawns lab)
    (guaranteed : info.Guaranteed) {status : U64} (ends : lab.action event = .terminate status)
    (stepped : labStep image event lab = .ok ((), lab'))
    : ReachableAfter image info spawns lab' := by
  obtain ⟨next, table⟩ := (reached.reachable.user guaranteed).ended ends stepped
  have numbers : lab.numbersTo lab' = 0 := if_pos (congrArg ProcessTable.nextPid table)
  have reached' := reached.step event stepped
  rw [numbers] at reached'
  exact reached'

end Delivery

-----------------------------------------------------------------------------------------
-- Whole runs
-----------------------------------------------------------------------------------------

/-- The number is not that of a present child of the current task. -/
def Lab.NoChild (lab : Lab) (pid : U64) : Prop :=
  ∀ index,
    (lab.tasks index).state ≠ .unused
    → wide (lab.tasks index).id = pid
    → (lab.tasks index).parent ≠ (lab.tasks lab.current).id

section NoChild

variable {lab : Lab} {pid : U64} {spawns : Nat}

theorem Lab.NoChild.none (noChild : lab.NoChild pid) : lab.userTable.child pid = none := by
  cases found : lab.userTable.child pid with
  | none => rfl
  | some index =>
      obtain ⟨used, number, parent⟩ := ProcessTable.Sound.child_spec found
      obtain ⟨context, slot⟩ := lab.userTable_slot index
      rw [slot] at used number parent
      rw [lab.userTable_running] at parent
      exact absurd parent (noChild index used number)

end NoChild

end MiniLinux
