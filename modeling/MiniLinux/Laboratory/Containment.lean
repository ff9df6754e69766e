import MiniLinux.Laboratory.Guarantees

/-! Exceptions that a user program raises.
The dispatcher ends the program for four vectors and stops the kernel for the others, so that
the four are contained and the others are not.
-/

namespace MiniLinux

open Foundation Foundation.Halting

/-- The synchronous exceptions of user code: not NMI, double fault or machine check. -/
def UserException (vector : Fin 256) : Prop := vector.val < 32 ∧ vector.val ∉ [2, 8, 18]

instance (vector : Fin 256) : Decidable (UserException vector) :=
  inferInstanceAs (Decidable (_ ∧ _))

/-- `task_exit` wakes the task in a slot for the current one. -/
def Lab.AwaitsCurrent (lab : Lab) (index : TaskIndex) : Prop :=
  (lab.tasks index).Awaits lab.taskCurrent

/-- When the current task has ended there is one to run: another is ready or waits for it. -/
def Lab.HasSuccessor (lab : Lab) : Prop :=
  ∃ index, index ≠ lab.current ∧ ((lab.tasks index).state = .ready ∨ lab.AwaitsCurrent index)

/-- The current task, and no other, was terminated with a status. The registers of a task are in
the processor where it runs and in its saved frame elsewhere.
-/
structure Lab.Contained (lab : Lab) (status : U64) (lab' : Lab) : Prop where
  recorded : (lab'.tasks lab.current).status = status
  handed : (∃ index, lab.AwaitsCurrent index) → (lab'.tasks lab.current).state = .unused
  kept : (¬∃ index, lab.AwaitsCurrent index) → (lab'.tasks lab.current).state = .exited
  released
    : (lab'.tasks lab.current).owned = []
      ∧ ∀ address ∈ (lab.tasks lab.current).owned, lab'.machine.IsFree (frameOf address.toNat)
  woken
    : ∀ index,
        lab.AwaitsCurrent index
        → lab'.userTable.slots index
          = { (lab.userTable.slots index).reply status with state := .ready }
  others
    : ∀ index,
        index ≠ lab.current
        → ¬lab.AwaitsCurrent index
        → lab'.userTable.slots index = lab.userTable.slots index
  maps
    : ∀ index address physical flags,
        index ≠ lab.current
        → (lab'.Maps index address physical flags ↔ lab.Maps index address physical flags)
  reads
    : ∀ index, index ≠ lab.current → (lab.tasks index).Live → lab'.reads index = lab.reads index

section Contained

variable {image : List Byte} {lab lab' : Lab}

theorem InUser.awaits_apart (user : InUser image lab) {index : TaskIndex}
    (awaits : lab.AwaitsCurrent index)
    : index ≠ lab.current := by
  rintro rfl
  cases user.ready.symm.trans awaits.2.1

/-- Waiting is a matter of the table, not of the registers. -/
theorem Lab.userTable_awaits (lab : Lab) (index : TaskIndex)
    : (lab.userTable.slots index).Awaits lab.userTable.running ↔ lab.AwaitsCurrent index := by
  obtain ⟨context, slot⟩ := lab.userTable_slot index
  rw [slot, lab.userTable_running]
  exact Iff.rfl

/-- A fault goes through `task_exit`, after the report. -/
theorem Stepped.departed {vector : Fin 256} {error cr2 : U64} {scratch : Stack}
    (stepped : Stepped image lab (.interrupt vector error cr2 scratch) lab')
    (exception : UserException vector)
    : vector.val ∈ [0, 6, 13, 14]
      ∧ ∃ address middle,
          Departed ((lab.entered vector error scratch).faulted address)
            (128 + BitVec.ofNat 64 vector.val) middle
          ∧ lab' = middle.left := by
  have low := exception.1
  cases stepped with
  | @interrupt _ _ _ _ middle ran =>
      cases ran with
      | tick timer => omega
      | fault exception departed => exact ⟨exception, _, _, departed, rfl⟩
      | exit number | wait number | spawn number | call number => omega

/-- What the end of a process makes of the table. -/
theorem TableStep.terminated {table table' : ProcessTable} {status : U64}
    (step : TableStep table (.terminate status) table')
    : table'.slots = (table.ended status).slots
      ∧ ((table.ended status).slots table'.current).state = .ready := by
  cases step with
  | ended mortal chosen => exact ⟨rfl, ProcessTable.nextReady_ready chosen⟩

/-- Whoever runs next was ready before or has been woken. -/
theorem Lab.hasSuccessor_of_ready {status : U64} {next : TaskIndex}
    (ready : ((lab.userTable.ended status).slots next).state = .ready)
    : lab.HasSuccessor := by
  obtain ⟨context, slot⟩ := lab.userTable_slot next
  rcases ProcessTable.Sound.ended_slot lab.userTable status next with
    ⟨_, same⟩ | ⟨different, awaits, _⟩ | ⟨different, _, same⟩
  · rw [same] at ready
    revert ready
    change (if _ then _ else _) = ProcessState.ready → _
    split <;> exact fun wrong => nomatch wrong
  · exact ⟨next, different, Or.inr ((lab.userTable_awaits next).mp awaits)⟩
  · rw [same, slot] at ready
    exact ⟨next, different, Or.inl ready⟩

/-- With a successor somebody is ready when the current task has ended. -/
theorem Lab.HasSuccessor.ready (successor : lab.HasSuccessor) (status : U64)
    : ∃ next, ((lab.userTable.ended status).slots next).state = .ready := by
  obtain ⟨next, different, before⟩ := successor
  obtain ⟨context, slot⟩ := lab.userTable_slot next
  refine ⟨next, ?_⟩
  rcases ProcessTable.Sound.ended_slot lab.userTable status next with
    ⟨here, _⟩ | ⟨_, _, same⟩ | ⟨_, apart, same⟩
  · exact absurd here different
  · rw [same]
  · rw [same, slot]
    rcases before with ready | awaits
    · exact ready
    · exact absurd ((lab.userTable_awaits next).mpr awaits) apart

theorem Lab.userTable_awaited (lab : Lab)
    : lab.userTable.Awaited ↔ ∃ index, lab.AwaitsCurrent index :=
  exists_congr lab.userTable_awaits

/-- The frames of the task that ended are free. -/
theorem Departed.released {vector : Fin 256} {error address status : U64} {scratch : Stack}
    {middle : Lab}
    (departed : Departed ((lab.entered vector error scratch).faulted address) status middle)
    : (middle.tasks lab.current).owned = []
      ∧ ∀ address ∈ (lab.tasks lab.current).owned, middle.machine.IsFree (frameOf address.toNat) := by
  obtain ⟨_, next, machine, rfl, _, _, returns⟩ := departed
  have owned : ((lab.entered vector error scratch).faulted address).taskCurrent.owned
      = (lab.tasks lab.current).owned :=
    (lab.entered_same vector error scratch lab.current).toSameHoldings.owned
  have here := Lab.departed_here ((lab.entered vector error scratch).faulted address) status next
    machine
  rw [owned] at returns
  refine ⟨(congrArg Task.owned here).trans rfl, ?_⟩
  exact fun page member => returns.free page member

/-- The other tasks map what they mapped. -/
theorem Lab.Effect.maps_iff {output : U64} {length : Nat} (effect : lab.Effect output length lab')
    (user : InUser image lab) (user' : InUser image lab') {index : TaskIndex}
    (same : lab'.live index ↔ lab.live index) (address physical : U64) (flags : U32)
    : lab'.Maps index address physical flags ↔ lab.Maps index address physical flags := by
  by_cases live : lab.live index
  · have live' := same.mpr live
    have formed := user.partition.formed index live
    have formed' := user'.partition.formed index live'
    rw [formed.maps_iff user.partition.ready user.sized,
      formed'.maps_iff user'.partition.ready user.sized,
      (effect.holdings index live live').pages]
  · exact iff_of_false (fun maps => same.not.mpr live (user'.toConsistent.live_of_maps maps))
      fun maps => live (user.toConsistent.live_of_maps maps)

/-- A terminated task is contained. -/
theorem InUser.contained (user : InUser image lab) (user' : InUser image lab') {status : U64}
    (step : TableStep lab.userTable (.terminate status) lab'.userTable)
    (released
      : (lab'.tasks lab.current).owned = []
        ∧ ∀ address ∈ (lab.tasks lab.current).owned, lab'.machine.IsFree (frameOf address.toNat))
    {output : U64} {length : Nat} (effect : lab.Effect output length lab')
    : lab.Contained status lab' := by
  obtain ⟨slots, _⟩ := step.terminated
  have state (index : TaskIndex)
      : (lab'.tasks index).state = ((lab.userTable.ended status).slots index).state := by
    rw [← slots, lab'.userTable_state index]
  have ended := ProcessTable.Sound.ended_slot lab.userTable status
  have here : (lab.userTable.ended status).slots lab.current
      = { lab.userTable.running with
          status := status, state := if lab.userTable.Awaited then .unused else .exited } :=
    if_pos rfl
  have live (index : TaskIndex) (different : index ≠ lab.current)
      : lab'.live index ↔ lab.live index := by
    rw [Lab.live, Lab.live, Task.Live, Task.Live, state index, ← lab.userTable_state index]
    rcases ended index with ⟨same, _⟩ | ⟨_, awaits, same⟩ | ⟨_, _, same⟩
    · exact absurd same different
    · rw [same, awaits.2.1]
      simp
    · rw [same]
  refine ⟨?_, ?_, ?_, released, ?_, ?_, ?_, ?_⟩
  · obtain ⟨context, slot⟩ := lab'.userTable_slot lab.current
    have known := congrArg Process.status (slot.symm.trans ((congrFun slots _).trans here))
    exact known
  · intro awaited
    rw [state, here]
    exact if_pos (lab.userTable_awaited.mpr awaited)
  · intro alone
    rw [state, here]
    exact if_neg (lab.userTable_awaited.not.mpr alone)
  · intro index awaits
    rw [slots]
    rcases ended index with ⟨same, _⟩ | ⟨_, _, same⟩ | ⟨_, apart, _⟩
    · exact absurd same (user.awaits_apart awaits)
    · exact same
    · exact absurd ((lab.userTable_awaits index).mpr awaits) apart
  · intro index different busy
    rw [slots]
    rcases ended index with ⟨same, _⟩ | ⟨_, awaits, _⟩ | ⟨_, _, same⟩
    · exact absurd same different
    · exact absurd ((lab.userTable_awaits index).mp awaits) busy
    · exact same
  · intro index address physical flags different
    exact effect.maps_iff user user' (live index different) address physical flags
  · intro index different alive
    exact (effect.beside user user' alive ((live index different).mpr alive) different).2

/-- A user exception ends its program where its vector is handled and there is another program to
run; otherwise the kernel stops.
-/
theorem InUser.exception_contained_iff (user : InUser image lab)
    (mortal : (lab.tasks lab.current).program ≠ .init ∧ (lab.tasks lab.current).program ≠ .shell)
    {vector : Fin 256} (exception : UserException vector) (error cr2 : U64) (scratch : Stack)
    : (∃ lab',
        labStep image (.interrupt vector error cr2 scratch) lab = .ok ((), lab')
        ∧ lab.Contained (128 + BitVec.ofNat 64 vector.val) lab')
      ↔ vector.val ∈ [0, 6, 13, 14] ∧ lab.HasSuccessor := by
  have low := exception.1
  have spec := user.labStep_spec (.interrupt vector error cr2 scratch)
  have asked (handled : vector.val ∈ [0, 6, 13, 14])
      : lab.action (.interrupt vector error cr2 scratch)
        = .terminate (128 + BitVec.ofNat 64 vector.val) := by
    rw [Lab.action, if_neg (by omega), if_pos handled]
  constructor
  · rintro ⟨lab', stepped, _⟩
    obtain ⟨_, step, done⟩ := spec.ok stepped
    obtain ⟨handled, _⟩ := done.departed exception
    rw [asked handled] at step
    obtain ⟨_, ready⟩ := step.terminated
    exact ⟨handled, Lab.hasSuccessor_of_ready ready⟩
  · rintro ⟨handled, successor⟩
    cases result : labStep image (.interrupt vector error cr2 scratch) lab with
    | ok pair =>
        obtain ⟨⟨⟩, lab'⟩ := pair
        obtain ⟨user', step, done⟩ := spec.ok result
        obtain ⟨_, address, middle, departed, rfl⟩ := done.departed exception
        rw [asked handled] at step
        exact ⟨_, rfl, user.contained user' step departed.released (done.effect user)⟩
    | error reason =>
        have table := lab.entered_table vector error scratch
        have halted : KernelHalt vector.val (lab.entered vector error scratch) reason :=
          spec.error result
        cases halted with
        | exit terminates halted =>
            cases halted with
            | immortal program =>
                rw [lab.entered_program] at program
                rcases program with init | shell
                · exact absurd init mortal.1
                · exact absurd shell mortal.2
            | nobody _ idle =>
                rw [table] at idle
                obtain ⟨next, ready⟩ := successor.ready _
                exact absurd ready (idle next)
        | wait waits =>
            rw [lab.entered_request vector error cr2 scratch, asked handled] at waits
            cases waits
        | unexpected unhandled =>
            exact absurd handled fun member => unhandled (by
              simp only [List.mem_cons, List.not_mem_nil, or_false] at member ⊢
              omega)

/-- While the counter of the numbers lasts there is always another program to run. -/
theorem ReachableAfter.hasSuccessor {info : BootInfo} {spawns : Nat}
    (reached : ReachableAfter image info spawns lab) (guaranteed : info.Guaranteed)
    (bound : spawns < 2 ^ 32 - 1) (mortal : (lab.tasks lab.current).program ≠ .init)
    : lab.HasSuccessor := by
  have user := reached.reachable.user guaranteed
  have running : lab.userTable.running.state = .ready :=
    (congrArg Process.state lab.userTable_running).trans user.ready
  have program : lab.userTable.running.program ≠ .init := by
    rw [lab.userTable_running]
    exact mortal
  obtain ⟨next, ready⟩ :=
    ((reached.sound guaranteed bound).ended running program 0).exists_ready
  exact Lab.hasSuccessor_of_ready ready

end Contained

-----------------------------------------------------------------------------------------
-- Reachable states
-----------------------------------------------------------------------------------------

/-- In every reachable state a user exception of a program that may end is contained just where its
vector is one of four and another program can run. With fewer than `2 ^ 32 - 1` spawns there always
is one, and at most one task waits for the program.
-/
theorem user_exceptions_are_contained_iff {image : List Byte} {info : BootInfo} {lab : Lab}
    (reached : Reachable image info lab) (guaranteed : info.Guaranteed)
    (mortal : (lab.tasks lab.current).program ≠ .init ∧ (lab.tasks lab.current).program ≠ .shell)
    {vector : Fin 256} (exception : UserException vector) (error cr2 : U64) (scratch : Stack)
    : ((∃ lab',
          labStep image (.interrupt vector error cr2 scratch) lab = .ok ((), lab')
          ∧ lab.Contained (128 + BitVec.ofNat 64 vector.val) lab')
        ↔ vector.val ∈ [0, 6, 13, 14] ∧ lab.HasSuccessor)
      ∧ ∀ spawns < 2 ^ 32 - 1,
          ReachableAfter image info spawns lab
          → lab.HasSuccessor
            ∧ ∀ index other,
                lab.AwaitsCurrent index → lab.AwaitsCurrent other → index = other := by
  have user := reached.user guaranteed
  refine ⟨user.exception_contained_iff mortal exception error cr2 scratch, ?_⟩
  intro spawns bound counted
  have sound := counted.sound guaranteed bound
  constructor
  · exact counted.hasSuccessor guaranteed bound mortal.1
  · intro index other awaits awaits'
    rw [← lab.userTable_awaits] at awaits awaits'
    exact sound.distinct index other (Process.Live.used (Or.inr awaits.2.1))
      (Process.Live.used (Or.inr awaits'.2.1)) (awaits.1.trans awaits'.1.symm)

theorem ChildRuns.mortal {program : Program} {shell child : TaskIndex} {lab : Lab}
    (runs : ChildRuns program shell child lab.userTable)
    : (lab.tasks lab.current).program = program := by
  have current : lab.current = child := runs.current
  rw [← lab.userTable_program, current]
  exact runs.born.program

theorem user_exceptions_are_contained_in_sample
    : ∃ lab lab',
        Reachable sampleImage sampleInfo lab
        ∧ labStep sampleImage (.interrupt 6 0 0 fun _ => 0) lab = .ok ((), lab')
        ∧ lab.Contained (128 + 6) lab' := by
  obtain ⟨lab, shell, child, reached, runs⟩ := sample_child
  have program := runs.mortal
  obtain ⟨contained, successor⟩ :=
    user_exceptions_are_contained_iff reached.reachable sample_guaranteed
      (by rw [program]; decide) (show UserException 6 by decide) 0 0 fun _ => 0
  obtain ⟨lab', stepped, done⟩ :=
    contained.mpr ⟨by decide, (successor 2 (by decide) reached).1⟩
  exact ⟨lab, lab', reached.reachable, stepped, done⟩

/-- A single step exception stops the kernel, with two programs that wait. -/
theorem debug_exception_stops_the_kernel
    : ∃ lab,
        Reachable sampleImage sampleInfo lab
        ∧ (lab.tasks lab.current).program = .hello
        ∧ UserException 1
        ∧ labStep sampleImage (.interrupt 1 0 0 fun _ => 0) lab
          = .error (.panic "unexpected CPU exception")
        ∧ ¬∃ lab',
            labStep sampleImage (.interrupt 1 0 0 fun _ => 0) lab = .ok ((), lab')
            ∧ lab.Contained (128 + 1) lab' := by
  obtain ⟨lab, shell, child, reached, runs⟩ := sample_child
  have user := reached.reachable.user sample_guaranteed
  have entered := enterKernel_ok user.toSelected 1 0 fun _ => 0
  have stopped : labStep sampleImage (.interrupt 1 0 0 fun _ => 0) lab
      = .error (.panic "unexpected CPU exception") := by
    have dispatched :=
      interruptDispatch_entered user.running sampleImage 1 0 0 fun _ => 0
    rw [labStep, bind_ok entered]
    exact bind_error dispatched _
  refine ⟨lab, reached.reachable, runs.mortal, by decide, stopped, ?_⟩
  rintro ⟨lab', stepped, _⟩
  cases stopped.symm.trans stepped

end MiniLinux
