import MiniLinux.Foundation.CyclicScan
import MiniLinux.Laboratory.Bringup

/-! The order in which ready tasks are selected.
Each selection either takes a given ready task or comes closer to it in the ring of slots, so a
task that stays ready is passed over at most six times.
-/

namespace MiniLinux

open Foundation Foundation.Halting

namespace ProcessTable

/-- The actions on which `next_ready` is called. -/
def Selects (table : ProcessTable) : Action → Prop
  | .tick => True
  | .terminate _ => True
  | .wait pid => ∃ index, table.child pid = some index ∧ (table.slots index).state ≠ .exited
  | _ => False

instance (table : ProcessTable) (action : Action) : Decidable (table.Selects action) := by
  unfold Selects
  split <;> infer_instance

/-- How many slots lie between the current one and another one, with the latter counted. -/
def distance (table : ProcessTable) (slot : TaskIndex) : Nat := (slot - table.current).val

variable {table : ProcessTable} {slot : TaskIndex}

theorem distance_pos (different : slot ≠ table.current) : 0 < table.distance slot := by
  have nonzero : slot - table.current ≠ 0 := sub_ne_zero.mpr different
  exact Nat.pos_of_ne_zero fun zero => nonzero (Fin.ext zero)

theorem distance_lt (table : ProcessTable) (slot : TaskIndex) : table.distance slot < 8 :=
  (slot - table.current).isLt

theorem nextReady_closer {next : TaskIndex} (chosen : table.nextReady = some next)
    (ready : (table.slots slot).state = .ready) (different : slot ≠ table.current)
    : next = slot ∨ ({ table with current := next } : ProcessTable).distance slot
        < table.distance slot :=
  distance_of_find? chosen (decide_eq_true ready) different

/-- Where another process is ready the current one is not selected. -/
theorem nextReady_leaves {next : TaskIndex} (chosen : table.nextReady = some next)
    (ready : (table.slots slot).state = .ready) (different : slot ≠ table.current)
    : next ≠ table.current := by
  rintro rfl
  rcases nextReady_closer chosen ready different with same | closer
  · exact different same.symm
  · exact absurd closer (Nat.lt_irrefl _)

end ProcessTable

/-- A selection takes the slot or comes closer to it. -/
theorem TableStep.closer {table table' : ProcessTable} {action : Action} {slot : TaskIndex}
    (step : TableStep table action table') (selects : table.Selects action)
    (ready : (table.slots slot).state = .ready) (different : slot ≠ table.current)
    : table'.current = slot ∨ table'.distance slot < table.distance slot := by
  cases step with
  | tick chosen => exact ProcessTable.nextReady_closer chosen ready different
  | waitRefused none =>
      obtain ⟨index, found, _⟩ := selects
      cases none.symm.trans found
  | collected found exited =>
      obtain ⟨index, found', living⟩ := selects
      cases found.symm.trans found'
      exact absurd exited living
  | @blocked pid index next found living chosen =>
      have kept : ((table.blocked pid).slots slot).state = .ready := by
        rw [ProcessTable.blocked, table.set_other different]
        exact ready
      exact ProcessTable.nextReady_closer chosen kept different
  | @ended status next mortal chosen =>
      have kept : ((table.ended status).slots slot).state = .ready := by
        rcases ProcessTable.Sound.ended_slot table status slot with
          ⟨here, _⟩ | ⟨_, _, same⟩ | ⟨_, _, same⟩
        · exact absurd here different
        · rw [same]
        · rw [same]
          exact ready
      exact ProcessTable.nextReady_closer chosen kept different
  | _ => exact selects.elim

/-- Without a selection the current slot stays. -/
theorem TableStep.stays {table table' : ProcessTable} {action : Action}
    (step : TableStep table action table') (same : ¬table.Selects action)
    : table'.current = table.current := by
  cases step with
  | tick chosen => exact absurd trivial same
  | blocked found living chosen => exact absurd ⟨_, found, living⟩ same
  | ended mortal chosen => exact absurd trivial same
  | _ => rfl

-----------------------------------------------------------------------------------------
-- Runs
-----------------------------------------------------------------------------------------

/-- Events that were all served, each with the state that it led to. -/
inductive Served (image : List Byte) : Lab → List (LabEvent × Lab) → Prop
  | nil (lab : Lab) : Served image lab []
  | cons {lab lab' : Lab} {event : LabEvent} {rest : List (LabEvent × Lab)}
      (stepped : labStep image event lab = .ok ((), lab')) (more : Served image lab' rest)
      : Served image lab ((event, lab') :: rest)

/-- How many of the events selected a task. -/
def selections (lab : Lab) : List (LabEvent × Lab) → Nat
  | [] => 0
  | (event, lab') :: rest =>
      (if lab.userTable.Selects (lab.action event) then 1 else 0) + selections lab' rest

/-- A ready task that is not selected for as many selections as its distance is then selected.
Witness: induction on the run.
-/
theorem Served.selected {image : List Byte} {lab : Lab} {steps : List (LabEvent × Lab)}
    (served : Served image lab steps) (user : InUser image lab) {slot : TaskIndex}
    (ready : (lab.tasks slot).state = .ready)
    (readies : ∀ step ∈ steps, (step.2.tasks slot).state = .ready) (different : slot ≠ lab.current)
    (enough : lab.userTable.distance slot ≤ selections lab steps)
    : ∃ before event lab' after,
        steps = before ++ (event, lab') :: after
        ∧ lab'.current = slot
        ∧ selections lab before < lab.userTable.distance slot := by
  induction served with
  | nil lab =>
      have positive : 0 < lab.userTable.distance slot := ProcessTable.distance_pos different
      exact absurd (Nat.le_zero.mp enough) (Nat.ne_of_gt positive)
  | @cons lab lab' event rest stepped more ih =>
      obtain ⟨user', step, _⟩ := (user.labStep_spec event).ok stepped
      have ready' : (lab'.tasks slot).state = .ready := readies _ List.mem_cons_self
      have readies' : ∀ step ∈ rest, (step.2.tasks slot).state = .ready :=
        fun step member => readies step (List.mem_cons_of_mem _ member)
      have state : (lab.userTable.slots slot).state = .ready := by
        obtain ⟨context, same⟩ := lab.userTable_slot slot
        rw [same]
        exact ready
      -- Once another slot was selected, or none was, the rest of the run decides.
      have later (different' : slot ≠ lab'.current)
          (closer
            : lab'.userTable.distance slot
                + (if lab.userTable.Selects (lab.action event) then 1 else 0)
              ≤ lab.userTable.distance slot)
          : ∃ before event' lab'' after,
              (event, lab') :: rest = before ++ (event', lab'') :: after
              ∧ lab''.current = slot
              ∧ selections lab before < lab.userTable.distance slot := by
        rw [selections] at enough
        have enough' : lab'.userTable.distance slot ≤ selections lab' rest := by omega
        obtain ⟨before, event', lab'', after, rfl, here, few⟩ :=
          ih user' ready' readies' different' enough'
        refine ⟨(event, lab') :: before, event', lab'', after, rfl, here, ?_⟩
        rw [selections]
        omega
      by_cases selects : lab.userTable.Selects (lab.action event)
      · rcases eq_or_ne slot lab'.current with here | different'
        · refine ⟨[], event, lab', rest, rfl, here.symm, ?_⟩
          exact ProcessTable.distance_pos different
        · apply later different'
          rw [if_pos selects]
          exact (step.closer selects state different).resolve_left (Ne.symm different')
      · have stays : lab'.current = lab.current := step.stays selects
        apply later (stays ▸ different)
        rw [if_neg selects]
        change (slot - lab'.current).val + 0 ≤ (slot - lab.current).val
        rw [stays]
        exact Nat.le_refl _

/-- Every selection takes a given ready task or comes closer to it; so a task that stays ready is
the seventh selected one at the latest.
-/
theorem ready_task_is_selected {image : List Byte} {info : BootInfo} {lab : Lab}
    (reached : Reachable image info lab) (guaranteed : info.Guaranteed) {slot : TaskIndex}
    (ready : (lab.tasks slot).state = .ready) (different : slot ≠ lab.current)
    : (∀ event lab',
        labStep image event lab = .ok ((), lab')
        → if lab.userTable.Selects (lab.action event) then
            lab'.current = slot ∨ (slot - lab'.current).val < (slot - lab.current).val
          else lab'.current = lab.current)
      ∧ ∀ steps,
          Served image lab steps
          → (∀ step ∈ steps, (step.2.tasks slot).state = .ready)
          → 7 ≤ selections lab steps
          → ∃ before event lab' after,
              steps = before ++ (event, lab') :: after
              ∧ lab'.current = slot
              ∧ selections lab before < 7 := by
  have user := reached.user guaranteed
  have state : (lab.userTable.slots slot).state = .ready := by
    obtain ⟨context, same⟩ := lab.userTable_slot slot
    rw [same]
    exact ready
  constructor
  · intro event lab' stepped
    have step := ((user.labStep_spec event).ok stepped).2.1
    split
    · next selects => exact step.closer selects state different
    · next same => exact step.stays same
  · intro steps served readies seven
    have near : lab.userTable.distance slot ≤ 7 :=
      Nat.le_of_lt_succ (lab.userTable.distance_lt slot)
    obtain ⟨before, event, lab', after, same, here, few⟩ :=
      served.selected user ready readies different (near.trans seven)
    exact ⟨before, event, lab', after, same, here, few.trans_le near⟩

/-- The timer lets the only other ready task run. -/
theorem InUser.switches {image : List Byte} {lab : Lab} (user : InUser image lab) {index : TaskIndex}
    (ready : (lab.userTable.slots index).state = .ready) (different : index ≠ lab.current)
    (only
      : ∀ other, (lab.userTable.slots other).state = .ready → other = lab.current ∨ other = index)
    (error cr2 : U64) (scratch : Stack)
    : ∃ lab',
        labStep image (.interrupt 32 error cr2 scratch) lab = .ok ((), lab')
        ∧ lab'.userTable = { lab.userTable with current := index } := by
  have action : lab.action (.interrupt 32 error cr2 scratch) = .tick := by
    simp [Lab.action]
  have outcome := user.labStep_spec (.interrupt 32 error cr2 scratch)
  cases stepped : labStep image (.interrupt 32 error cr2 scratch) lab with
  | error reason =>
      have request := (lab.entered_request 32 error cr2 scratch).trans action
      cases outcome.error stepped with
      | exit terminates _ => cases terminates.symm.trans request
      | wait waits _ _ _ => cases waits.symm.trans request
      | unexpected unhandled => simp at unhandled
  | ok pair =>
      obtain ⟨_, step, _⟩ := outcome.ok stepped
      obtain ⟨_, lab'⟩ := pair
      rw [action] at step
      refine ⟨lab', rfl, ?_⟩
      generalize lab'.userTable = table at step
      cases step with
      | @tick next chosen =>
          have away := ProcessTable.nextReady_leaves chosen ready different
          have ready := ProcessTable.nextReady_ready chosen
          rw [(only next ready).resolve_left away]

theorem ready_task_is_selected_in_sample
    : ∃ lab slot,
        Reachable sampleImage sampleInfo lab
        ∧ (lab.tasks slot).state = .ready
        ∧ slot ≠ lab.current
        ∧ ∀ event lab',
            labStep sampleImage event lab = .ok ((), lab')
            → lab.userTable.Selects (lab.action event)
            → lab'.current = slot ∨ (slot - lab'.current).val < (slot - lab.current).val := by
  obtain ⟨before, lab, slot, reached, stepped, _, _, _, _, ready, different⟩ := sample_spawns
  have reached' := Reachable.step _ reached.reachable stepped
  refine ⟨lab, slot, reached', ready, different, fun event lab' served selects => ?_⟩
  have closer := (ready_task_is_selected reached' sample_guaranteed ready different).1 event lab' served
  rw [if_pos selects] at closer
  exact closer

end MiniLinux
