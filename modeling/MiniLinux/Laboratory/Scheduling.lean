import MiniLinux.Laboratory.Runs

/-! The process table over whole runs.
Numbers are handed out once, parents are older than their children, and whoever waits does so
for a live child. So the waiting processes cannot all wait for each other, and some process is
always ready.
-/

namespace MiniLinux

open Foundation

/-- Where every blocked member waits for one of higher rank, some member is not blocked. -/
theorem exists_unblocked {ι : Type*} [Finite ι] {live blocked : ι → Prop} (rank : ι → Nat)
    (someone : ∃ i, live i)
    (waits : ∀ i, live i → blocked i → ∃ j, live j ∧ rank i < rank j)
    : ∃ i, live i ∧ ¬blocked i := by
  obtain ⟨last, alive, highest⟩ :=
    Set.exists_max_image { i | live i } rank (Set.toFinite _) someone
  refine ⟨last, alive, fun stuck => ?_⟩
  obtain ⟨other, alive', above⟩ := waits last alive stuck
  exact Nat.not_lt.mpr (highest other alive') above

/-- The slot holds a process. -/
def Process.Used (process : Process) : Prop := process.state ≠ .unused

theorem Process.Live.used {process : Process} (live : process.Live) : process.Used := by
  intro unused
  rcases live with ready | waiting
  · rw [ready] at unused
    cases unused
  · rw [waiting] at unused
    cases unused

/-- The processes after some number of spawns; the first process has number 1. -/
structure ProcessTable.Sound (spawns : Nat) (table : ProcessTable) : Prop where
  next : table.nextPid = BitVec.ofNat 32 (spawns + 2)
  numbered
    : ∀ index,
        (table.slots index).Used
        → 0 < (table.slots index).id.toNat ∧ (table.slots index).id.toNat ≤ spawns + 1
  distinct
    : ∀ index other,
        (table.slots index).Used
        → (table.slots other).Used
        → (table.slots index).id = (table.slots other).id
        → index = other
  older
    : ∀ index,
        (table.slots index).Used
        → (table.slots index).parent.toNat < (table.slots index).id.toNat
  awaited
    : ∀ index,
        (table.slots index).state = .waiting
        → ∃ child, (table.slots child).Live ∧ (table.slots index).Awaits (table.slots child)
  init : ∃ index, (table.slots index).Live ∧ (table.slots index).program = .init

/-- What the table says of a process apart from its descriptors and context. -/
structure Process.SameRole (process process' : Process) : Prop where
  id : process'.id = process.id
  parent : process'.parent = process.parent
  program : process'.program = process.program
  state : process'.state = process.state
  waitingFor : process'.waitingFor = process.waitingFor

theorem Process.SameRole.refl (process : Process) : process.SameRole process :=
  ⟨rfl, rfl, rfl, rfl, rfl⟩

theorem Process.SameRole.trans {process process' process'' : Process}
    (first : process.SameRole process') (second : process'.SameRole process'')
    : process.SameRole process'' :=
  ⟨second.id.trans first.id, second.parent.trans first.parent,
    second.program.trans first.program, second.state.trans first.state,
    second.waitingFor.trans first.waitingFor⟩

theorem wide_narrow (value : U32) : (wide value).setWidth 32 = value := by
  rw [wide, BitVec.setWidth_setWidth_of_le _ (by decide), BitVec.setWidth_eq]

theorem wide_injective {value value' : U32} (same : wide value = wide value') : value = value' := by
  rw [wide, wide] at same
  bv_omega

/-- How many numbers a step of the table takes. -/
def ProcessTable.numbersTo (table table' : ProcessTable) : Nat :=
  if table'.nextPid = table.nextPid then 0 else 1

namespace ProcessTable

variable {spawns : Nat} {table table' : ProcessTable}

@[simp] theorem set_here (table : ProcessTable) (index : TaskIndex) (process : Process)
    : (table.set index process).slots index = process :=
  Function.update_self ..

theorem set_other (table : ProcessTable) {index other : TaskIndex} (different : other ≠ index)
    (process : Process)
    : (table.set index process).slots other = table.slots other :=
  Function.update_of_ne different ..

/-- A process in `table.set`, by cases on the slot. -/
theorem set_forall (relation : TaskIndex → Process → Process → Prop) {index : TaskIndex}
    {process : Process} (here : relation index (table.slots index) process)
    (others : ∀ other, other ≠ index → relation other (table.slots other) (table.slots other))
    (other : TaskIndex)
    : relation other (table.slots other) ((table.set index process).slots other) := by
  rcases eq_or_ne other index with same | different
  · subst same
    rw [set_here]
    exact here
  · rw [set_other table different]
    exact others other different

namespace Sound

/-- Work that brings no process into a slot. -/
theorem rework (sound : table.Sound spawns)
    (named
      : ∀ index,
          (table'.slots index).id = (table.slots index).id
          ∧ (table'.slots index).parent = (table.slots index).parent
          ∧ (table'.slots index).program = (table.slots index).program)
    (used : ∀ index, (table'.slots index).Used → (table.slots index).Used)
    (next : table'.nextPid = table.nextPid)
    (awaited
      : ∀ index,
          (table'.slots index).state = .waiting
          → ∃ child, (table'.slots child).Live ∧ (table'.slots index).Awaits (table'.slots child))
    (init
      : ∀ index,
          (table.slots index).program = .init
          → (table.slots index).Live → (table'.slots index).Live)
    : table'.Sound spawns := by
  refine ⟨next.trans sound.next, ?_, ?_, ?_, awaited, ?_⟩
  · intro index here
    rw [(named index).1]
    exact sound.numbered index (used index here)
  · intro index other here there ids
    rw [(named index).1, (named other).1] at ids
    exact sound.distinct index other (used index here) (used other there) ids
  · intro index here
    rw [(named index).1, (named index).2.1]
    exact sound.older index (used index here)
  · obtain ⟨index, alive, program⟩ := sound.init
    exact ⟨index, init index program alive, (named index).2.2.trans program⟩

/-- Work that keeps every role. -/
theorem roles (sound : table.Sound spawns)
    (same : ∀ index, (table.slots index).SameRole (table'.slots index))
    (next : table'.nextPid = table.nextPid)
    : table'.Sound spawns := by
  have live {index : TaskIndex} (live : (table.slots index).Live) : (table'.slots index).Live := by
    rw [Process.Live, (same index).state]
    exact live
  refine sound.rework (fun index => ⟨(same index).id, (same index).parent, (same index).program⟩)
    ?_ next ?_ fun _ _ => live
  · intro index used
    rw [Process.Used, (same index).state] at used
    exact used
  · intro index waiting
    rw [(same index).state] at waiting
    obtain ⟨child, alive, awaits⟩ := sound.awaited index waiting
    refine ⟨child, live alive, ?_⟩
    rw [Process.Awaits, (same index).id, (same index).state, (same index).waitingFor,
      (same child).parent, (same child).id]
    exact awaits

/-- Answering a call keeps every role. -/
theorem answered (sound : table.Sound spawns) (value : U64) (files : Slots)
    : (table.answered value files).Sound spawns := by
  refine sound.roles ?_ rfl
  exact set_forall (fun _ process process' => process.SameRole process') ⟨rfl, rfl, rfl, rfl, rfl⟩
    fun _ _ => .refl _

/-- The table after the boot. -/
theorem boot : ProcessTable.boot.Sound 0 := by
  have here : ProcessTable.boot.slots 0 = .fresh 1 .init 0 := rfl
  have only (index : TaskIndex) (used : (ProcessTable.boot.slots index).Used) : index = 0 := by
    by_contra different
    refine used ?_
    exact congrArg Process.state (Function.update_of_ne different (Process.fresh 1 .init 0)
      fun _ => Task.zero.process)
  refine ⟨rfl, ?_, ?_, ?_, ?_, 0, ?_, ?_⟩
  · intro index used
    rw [only index used, here]
    decide
  · intro index other used used' _
    rw [only index used, only other used']
  · intro index used
    rw [only index used, here]
    decide
  · intro index waiting
    have used : (ProcessTable.boot.slots index).Used := by
      rw [Process.Used, waiting]
      decide
    rw [only index used, here] at waiting
    cases waiting
  · rw [here]
    exact Or.inl rfl
  · rw [here]
    rfl

/-- A process that is used up to now is not the one that gets the next number. -/
theorem fresh_ne (sound : table.Sound spawns) (bound : spawns + 1 < 2 ^ 32 - 1) {index : TaskIndex}
    (used : (table.slots index).Used)
    : table.nextPid ≠ (table.slots index).id := by
  intro same
  have small := (sound.numbered index used).2
  rw [← same, sound.next, BitVec.toNat_ofNat, Nat.mod_eq_of_lt (by omega)] at small
  omega

/-- Filling an unused slot with a process that nobody is. -/
theorem fill (sound : table.Sound spawns) (bound : spawns + 1 < 2 ^ 32 - 1) {index : TaskIndex}
    (free : (table.slots index).state = .unused) {process : Process}
    (state : process.state = .unused ∨ process.state = .ready)
    (id : process.Used → process.id = table.nextPid)
    (parent : process.Used → process.parent = table.running.id)
    (running : table.running.state = .ready)
    : ({ table.set index process with nextPid := table.nextPid + 1 } : ProcessTable).Sound
        (spawns + 1) := by
  let filled : ProcessTable := { table.set index process with nextPid := table.nextPid + 1 }
  have here : filled.slots index = process := table.set_here index process
  have other {slot : TaskIndex} (different : slot ≠ index) : filled.slots slot = table.slots slot :=
    table.set_other different process
  have busy {slot : TaskIndex} (used : (table.slots slot).Used) : slot ≠ index :=
    fun same => used (same ▸ free)
  have number : table.nextPid.toNat = spawns + 2 := by
    rw [sound.next, BitVec.toNat_ofNat, Nat.mod_eq_of_lt (by omega)]
  refine ⟨?_, ?_, ?_, ?_, ?_, ?_⟩
  · change table.nextPid + 1 = _
    rw [sound.next]
    exact (BitVec.ofNat_add (spawns + 2) 1).symm
  · intro slot used
    rcases eq_or_ne slot index with same | different
    · subst same
      change (filled.slots slot).Used at used
      change 0 < (filled.slots slot).id.toNat ∧ (filled.slots slot).id.toNat ≤ _
      rw [here] at used ⊢
      rw [id used, number]
      omega
    · change (filled.slots slot).Used at used
      change 0 < (filled.slots slot).id.toNat ∧ (filled.slots slot).id.toNat ≤ _
      rw [other different] at used ⊢
      have within := sound.numbered slot used
      omega
  · intro first second used used' ids
    change (filled.slots first).Used at used
    change (filled.slots second).Used at used'
    change (filled.slots first).id = (filled.slots second).id at ids
    rcases eq_or_ne first index with same | different
    · rcases eq_or_ne second index with same' | different'
      · rw [same, same']
      · rw [same, here] at used ids
        rw [other different'] at used' ids
        rw [id used] at ids
        exact absurd ids (sound.fresh_ne bound used')
    · rcases eq_or_ne second index with same' | different'
      · rw [same', here] at used' ids
        rw [other different] at used ids
        rw [id used'] at ids
        exact absurd ids.symm (sound.fresh_ne bound used)
      · rw [other different] at used ids
        rw [other different'] at used' ids
        exact sound.distinct first second used used' ids
  · intro slot used
    change (filled.slots slot).Used at used
    change (filled.slots slot).parent.toNat < (filled.slots slot).id.toNat
    rcases eq_or_ne slot index with same | different
    · rw [same, here] at used ⊢
      rw [id used, parent used, number]
      have within := (sound.numbered table.current (Process.Live.used (Or.inl running))).2
      exact Nat.lt_succ_of_le within
    · rw [other different] at used ⊢
      exact sound.older slot used
  · intro slot waiting
    change (filled.slots slot).state = _ at waiting
    rcases eq_or_ne slot index with same | different
    · rw [same, here] at waiting
      rcases state with unused | ready
      · cases unused.symm.trans waiting
      · cases ready.symm.trans waiting
    · rw [other different] at waiting
      obtain ⟨child, live, awaits⟩ := sound.awaited slot waiting
      refine ⟨child, ?_, ?_⟩
      · change (filled.slots child).Live
        rw [other (busy live.used)]
        exact live
      · change (filled.slots slot).Awaits (filled.slots child)
        rw [other (busy live.used), other different]
        exact awaits
  · obtain ⟨slot, live, program⟩ := sound.init
    refine ⟨slot, ?_, ?_⟩
    · change (filled.slots slot).Live
      rw [other (busy live.used)]
      exact live
    · change (filled.slots slot).program = _
      rw [other (busy live.used)]
      exact program

/-- The child that a wait finds. -/
theorem child_spec {pid : U64} {index : TaskIndex} (found : table.child pid = some index)
    : (table.slots index).Used ∧ wide (table.slots index).id = pid
      ∧ (table.slots index).parent = table.running.id := by
  have holds := List.find?_some found
  unfold Process.Used
  simpa only [decide_eq_true_eq] using holds

/-- A child is not its own parent. -/
theorem child_apart (sound : table.Sound spawns) {pid : U64} {index : TaskIndex}
    (found : table.child pid = some index)
    : index ≠ table.current := by
  obtain ⟨used, _, parent⟩ := child_spec found
  intro same
  have older := sound.older index used
  rw [parent, same] at older
  exact Nat.lt_irrefl _ older

/-- The caller waits for a live child, and everyone else waits as before. -/
theorem blocked_awaited (sound : table.Sound spawns) {pid : U64} {index : TaskIndex}
    (found : table.child pid = some index) (living : (table.slots index).state ≠ .exited)
    {waiting : TaskIndex} (waits : ((table.blocked pid).slots waiting).state = .waiting)
    : ∃ child,
        ((table.blocked pid).slots child).Live
        ∧ ((table.blocked pid).slots waiting).Awaits ((table.blocked pid).slots child) := by
  have live {slot : TaskIndex} (live : (table.slots slot).Live)
      : ((table.blocked pid).slots slot).Live :=
    set_forall (fun _ process process' => process.Live → process'.Live) (fun _ => Or.inr rfl)
      (fun _ _ live => live) slot live
  have named (slot : TaskIndex)
      : ((table.blocked pid).slots slot).id = (table.slots slot).id
        ∧ ((table.blocked pid).slots slot).parent = (table.slots slot).parent := by
    refine set_forall
      (fun _ process process' => process'.id = process.id ∧ process'.parent = process.parent)
      ?_ (fun _ _ => ⟨rfl, rfl⟩) slot
    exact ⟨rfl, rfl⟩
  obtain ⟨used, number, parent⟩ := child_spec found
  rcases eq_or_ne waiting table.current with same | different
  · subst same
    have here : (table.blocked pid).slots table.current
        = { table.running with state := .waiting, waitingFor := pid.setWidth 32 } :=
      table.set_here _ _
    have alive : (table.slots index).Live := by
      unfold Process.Live
      unfold Process.Used at used
      cases state : (table.slots index).state with
      | unused => exact absurd state used
      | ready => exact Or.inl rfl
      | waiting => exact Or.inr rfl
      | exited => exact absurd state living
    refine ⟨index, live alive, ?_⟩
    rw [Process.Awaits, (named index).1, (named index).2, here]
    refine ⟨parent.symm, rfl, ?_⟩
    change pid.setWidth 32 = _
    rw [← number, wide_narrow]
  · have kept : (table.blocked pid).slots waiting = table.slots waiting :=
      table.set_other different _
    rw [kept] at waits ⊢
    obtain ⟨child, alive, awaits⟩ := sound.awaited waiting waits
    refine ⟨child, live alive, ?_⟩
    rw [Process.Awaits, (named child).1, (named child).2]
    exact awaits

theorem blocked (sound : table.Sound spawns) (running : table.running.state = .ready)
    {pid : U64} {index : TaskIndex} (found : table.child pid = some index)
    (living : (table.slots index).state ≠ .exited)
    : (table.blocked pid).Sound spawns := by
  refine sound.rework ?_ ?_ rfl (fun _ => sound.blocked_awaited found living) ?_
  · refine set_forall
      (fun _ process process' => process'.id = process.id ∧ process'.parent = process.parent
        ∧ process'.program = process.program) ?_ fun _ _ => ⟨rfl, rfl, rfl⟩
    exact ⟨rfl, rfl, rfl⟩
  · exact set_forall (fun _ process process' => process'.Used → process.Used)
      (fun _ => Process.Live.used (Or.inl running)) fun _ _ used => used
  · exact set_forall
      (fun _ process process' => process.program = .init → process.Live → process'.Live)
      (fun _ _ => Or.inr rfl) fun _ _ _ live => live

/-- Collecting a child leaves every other process its role. -/
theorem collected_slot (table : ProcessTable) {index slot : TaskIndex} (different : slot ≠ index)
    : (table.slots slot).SameRole ((table.collected index).slots slot) := by
  unfold ProcessTable.collected
  rw [set_other _ different]
  refine set_forall (fun _ process process' => process.SameRole process') ?_
    (fun _ _ => .refl _) slot
  exact ⟨rfl, rfl, rfl, rfl, rfl⟩

theorem collected (sound : table.Sound spawns) {index : TaskIndex}
    (exited : (table.slots index).state = .exited)
    : (table.collected index).Sound spawns := by
  have here : (table.collected index).slots index = { table.slots index with state := .unused } :=
    set_here _ _ _
  have apart {slot : TaskIndex} (live : (table.slots slot).Live) : slot ≠ index := by
    intro same
    rw [same] at live
    rcases live with ready | waiting
    · cases ready.symm.trans exited
    · cases waiting.symm.trans exited
  have live {slot : TaskIndex} (live : (table.slots slot).Live)
      : ((table.collected index).slots slot).Live := by
    rw [Process.Live, (collected_slot table (apart live)).state]
    exact live
  refine sound.rework ?_ ?_ rfl ?_ fun _ _ => live
  · intro slot
    rcases eq_or_ne slot index with same | different
    · rw [same, here]
      exact ⟨rfl, rfl, rfl⟩
    · have same := collected_slot table different
      exact ⟨same.id, same.parent, same.program⟩
  · intro slot used
    rcases eq_or_ne slot index with same | different
    · rw [same, here] at used
      exact absurd rfl used
    · rw [Process.Used, (collected_slot table different).state] at used
      exact used
  · intro slot waiting
    rcases eq_or_ne slot index with same | different
    · rw [same, here] at waiting
      cases waiting
    · have same := collected_slot table different
      rw [same.state] at waiting
      obtain ⟨child, alive, awaits⟩ := sound.awaited slot waiting
      have same' := collected_slot table (apart alive)
      refine ⟨child, live alive, ?_⟩
      rw [Process.Awaits, same.id, same.state, same.waitingFor, same'.parent, same'.id]
      exact awaits

/-- What the end of the current process makes of each process. -/
theorem ended_slot (table : ProcessTable) (status : U64) (slot : TaskIndex)
    : (slot = table.current
        ∧ (table.ended status).slots slot = { table.running with
            status := status, state := if table.Awaited then .unused else .exited })
      ∨ (slot ≠ table.current
        ∧ (table.slots slot).Awaits table.running
        ∧ (table.ended status).slots slot
          = { (table.slots slot).reply status with state := .ready })
      ∨ (slot ≠ table.current
        ∧ ¬(table.slots slot).Awaits table.running
        ∧ (table.ended status).slots slot = table.slots slot) := by
  unfold ProcessTable.ended
  by_cases here : slot = table.current
  · exact Or.inl ⟨here, if_pos here⟩
  · by_cases awaits : (table.slots slot).Awaits table.running
    · exact Or.inr (Or.inl ⟨here, awaits, (if_neg here).trans (if_pos awaits)⟩)
    · exact Or.inr (Or.inr ⟨here, awaits, (if_neg here).trans (if_neg awaits)⟩)

theorem ended_named (table : ProcessTable) (status : U64) (slot : TaskIndex)
    : ((table.ended status).slots slot).id = (table.slots slot).id
      ∧ ((table.ended status).slots slot).parent = (table.slots slot).parent
      ∧ ((table.ended status).slots slot).program = (table.slots slot).program := by
  rcases ended_slot table status slot with ⟨here, same⟩ | ⟨_, _, same⟩ | ⟨_, _, same⟩
  · rw [same, here]
    exact ⟨rfl, rfl, rfl⟩
  · rw [same]
    exact ⟨rfl, rfl, rfl⟩
  · rw [same]
    exact ⟨rfl, rfl, rfl⟩

theorem ended_live (table : ProcessTable) (status : U64) {slot : TaskIndex}
    (different : slot ≠ table.current) (live : (table.slots slot).Live)
    : ((table.ended status).slots slot).Live := by
  rcases ended_slot table status slot with ⟨here, _⟩ | ⟨_, _, same⟩ | ⟨_, _, same⟩
  · exact absurd here different
  · rw [same]
    exact Or.inl rfl
  · rw [same]
    exact live

theorem ended (sound : table.Sound spawns) (running : table.running.state = .ready)
    (mortal : table.running.program ≠ .init) (status : U64)
    : (table.ended status).Sound spawns := by
  refine sound.rework (ended_named table status) ?_ rfl ?_ ?_
  · intro slot used
    rcases ended_slot table status slot with ⟨here, _⟩ | ⟨_, awaits, _⟩ | ⟨_, _, same⟩
    · rw [here]
      exact Process.Live.used (Or.inl running)
    · exact Process.Live.used (Or.inr awaits.2.1)
    · rw [same] at used
      exact used
  · intro slot waiting
    rcases ended_slot table status slot with ⟨_, same⟩ | ⟨_, _, same⟩ | ⟨_, apart, same⟩
    · rw [same] at waiting
      revert waiting
      change (if _ then _ else _) = ProcessState.waiting → _
      split <;> exact fun wrong => nomatch wrong
    · rw [same] at waiting
      cases waiting
    · rw [same] at waiting ⊢
      obtain ⟨child, alive, awaits⟩ := sound.awaited slot waiting
      -- Whoever waited for the ended process has been answered.
      have different : child ≠ table.current := by
        intro here
        rw [here] at awaits
        exact apart awaits
      obtain ⟨id, parent, _⟩ := ended_named table status child
      refine ⟨child, ended_live table status different alive, ?_⟩
      rw [Process.Awaits, id, parent]
      exact awaits
  · intro slot program live
    have different : slot ≠ table.current := by
      intro here
      rw [here] at program
      exact mortal program
    exact ended_live table status different live

/-- Not everyone waits: the child of a waiting process is younger. -/
theorem exists_ready (sound : table.Sound spawns) : ∃ index, (table.slots index).state = .ready := by
  have waits (index : TaskIndex) (_ : (table.slots index).Live)
      (waiting : (table.slots index).state = .waiting)
      : ∃ child, (table.slots child).Live
          ∧ (table.slots index).id.toNat < (table.slots child).id.toNat := by
    obtain ⟨child, live, parent, _⟩ := sound.awaited index waiting
    refine ⟨child, live, ?_⟩
    rw [parent]
    exact sound.older child live.used
  obtain ⟨init, alive, _⟩ := sound.init
  obtain ⟨index, ready | waiting, unblocked⟩ :=
    exists_unblocked (fun index => (table.slots index).id.toNat) ⟨init, alive⟩ waits
  · exact ⟨index, ready⟩
  · exact absurd waiting unblocked

/-- Moving the processor to another process. -/
theorem select (sound : table.Sound spawns) (next : TaskIndex)
    : ({ table with current := next } : ProcessTable).Sound spawns :=
  ⟨sound.next, sound.numbered, sound.distinct, sound.older, sound.awaited, sound.init⟩

end Sound

theorem numbersTo_same (same : table'.nextPid = table.nextPid) : table.numbersTo table' = 0 :=
  if_pos same

theorem succ_ne (number : U32) : number + 1 ≠ number := by bv_omega

theorem numbersTo_next (next : table'.nextPid = table.nextPid + 1) : table.numbersTo table' = 1 := by
  refine if_neg ?_
  rw [next]
  exact succ_ne table.nextPid

/-- Answering the caller of a failed or successful spawn, and then filling the slot. -/
theorem Sound.answered_fill (sound : table.Sound spawns) (running : table.running.state = .ready)
    (bound : spawns + 1 < 2 ^ 32 - 1) (value : U64) {index : TaskIndex}
    (free : (table.slots index).state = .unused) {process : Process}
    (state : process.state = .unused ∨ process.state = .ready)
    (id : process.Used → process.id = table.nextPid)
    (parent : process.Used → process.parent = table.running.id)
    : ({ (table.answered value table.running.files).set index process with
          nextPid := table.nextPid + 1 } : ProcessTable).Sound (spawns + 1) := by
  have different : index ≠ table.current := by
    intro same
    rw [same] at free
    cases free.symm.trans running
  have here : (table.answered value table.running.files).running
      = ({ table.running with files := table.running.files }.reply value) :=
    table.set_here table.current _
  refine (sound.answered value table.running.files).fill bound ?_ state id ?_ ?_
  · exact (congrArg Process.state (table.set_other different _)).trans free
  · intro used
    exact (parent used).trans (congrArg Process.id here).symm
  · exact (congrArg Process.state here).trans running

end ProcessTable

/-- A step keeps the table sound. -/
theorem TableStep.sound {table table' : ProcessTable} {action : Action} {spawns : Nat}
    (step : TableStep table action table') (sound : table.Sound spawns)
    (running : table.running.state = .ready)
    (bound : spawns + table.numbersTo table' < 2 ^ 32 - 1)
    : table'.Sound (spawns + table.numbersTo table') := by
  cases step with
  | quiet => exact (table.numbersTo_same rfl).symm ▸ sound
  | run context =>
      refine (table.numbersTo_same rfl).symm ▸ sound.roles ?_ rfl
      exact ProcessTable.set_forall (fun _ process process' => process.SameRole process')
        ⟨rfl, rfl, rfl, rfl, rfl⟩ fun _ _ => .refl _
  | tick chosen => exact (table.numbersTo_same rfl).symm ▸ sound.select _
  | answered value files => exact (table.numbersTo_same rfl).symm ▸ sound.answered value files
  | spawnRefused number value refused => exact (table.numbersTo_same rfl).symm ▸ sound.answered value _
  | spawnFailed number free unused =>
      rw [table.numbersTo_next rfl] at bound ⊢
      exact sound.answered_fill running bound (-5) free (Or.inl unused)
        (fun used => absurd unused used) fun used => absurd unused used
  | spawned free permitted =>
      rw [table.numbersTo_next rfl] at bound ⊢
      exact sound.answered_fill running bound _ free (Or.inr rfl) (fun _ => rfl) fun _ => rfl
  | waitRefused none => exact (table.numbersTo_same rfl).symm ▸ sound.answered (-3) _
  | collected found exited => exact (table.numbersTo_same rfl).symm ▸ sound.collected exited
  | blocked found living chosen =>
      exact (table.numbersTo_same rfl).symm ▸ (sound.blocked running found living).select _
  | ended mortal chosen =>
      exact (table.numbersTo_same rfl).symm ▸ (sound.ended running mortal.1 _).select _

theorem Lab.userTable_running (lab : Lab)
    : lab.userTable.running = { (lab.tasks lab.current).process with context := lab.cpu } :=
  lab.table.set_here lab.current _

/-- What the user table says of a process apart from its context. -/
theorem Lab.userTable_slot (lab : Lab) (index : TaskIndex)
    : ∃ context,
        lab.userTable.slots index = { (lab.tasks index).process with context := context } := by
  rcases eq_or_ne index lab.current with same | different
  · subst same
    exact ⟨lab.cpu, lab.userTable_running⟩
  · exact ⟨(lab.tasks index).context, lab.table.set_other different _⟩

/-- The processes of every run with fewer than `2 ^ 32 - 1` spawns are in order. Witness:
induction on the run. -/
theorem ReachableAfter.sound {image : List Byte} {info : BootInfo} {spawns : Nat} {lab : Lab}
    (reached : ReachableAfter image info spawns lab) (guaranteed : info.Guaranteed)
    (bound : spawns < 2 ^ 32 - 1)
    : lab.userTable.Sound spawns := by
  induction reached with
  | boot booted start =>
      obtain ⟨_, _, start', started⟩ := kernelMain_bare booted start guaranteed
      rw [(taskStart_booted started start').2.1]
      exact .boot
  | @step spawns lab lab' event reached stepped ih =>
      have user := reached.reachable.user guaranteed
      obtain ⟨_, step, _⟩ := (user.labStep_spec event).ok stepped
      have running : lab.userTable.running.state = .ready :=
        (congrArg Process.state lab.userTable_running).trans user.ready
      exact step.sound (ih (Nat.lt_of_le_of_lt (Nat.le_add_right ..) bound)) running bound

end MiniLinux
