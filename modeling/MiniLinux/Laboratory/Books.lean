import MiniLinux.Laboratory.Contexts
import MiniLinux.Laboratory.Families
import MiniLinux.Laboratory.ProcessIds

/-! What the kernel keeps for a process: its children and its open descriptors.
Every call changes these as its number and its result say, whatever its other arguments are.
-/

namespace MiniLinux

open Foundation Foundation.Halting

-----------------------------------------------------------------------------------------
-- Descriptors
-----------------------------------------------------------------------------------------

/-- The number of a descriptor. -/
def descriptorNumber (descriptor : Descriptor) : U64 := BitVec.ofNat 64 descriptor.val

theorem descriptorNumber_injective : Function.Injective descriptorNumber := by
  decide

/-- The numbers of the open descriptors. -/
def Slots.opened (slots : Slots) : Set U64 := descriptorNumber '' { descriptor | (slots descriptor).used }

theorem usedSlot_iff {slots : Slots} {fd : U64} {descriptor : Descriptor}
    : usedSlot slots fd = some descriptor
      ↔ fd = descriptorNumber descriptor ∧ (slots descriptor).used = true := by
  have number : (descriptorNumber descriptor).toNat = descriptor.val := by
    have small := descriptor.isLt
    simp only [descriptorNumber, BitVec.toNat_ofNat]
    omega
  unfold usedSlot
  constructor
  · intro found
    split_ifs at found with inside used
    cases found
    refine ⟨BitVec.eq_of_toNat_eq ?_, used⟩
    rw [number]
  · rintro ⟨rfl, used⟩
    have inside : (descriptorNumber descriptor).toNat < 2 := number ▸ descriptor.isLt
    have same : (⟨(descriptorNumber descriptor).toNat, inside⟩ : Descriptor) = descriptor :=
      Fin.ext number
    rw [dif_pos inside, same, if_pos used]

theorem Slots.mem_opened {slots : Slots} {fd : U64}
    : fd ∈ slots.opened ↔ ∃ descriptor, usedSlot slots fd = some descriptor := by
  simp only [usedSlot_iff, opened, Set.mem_image, Set.mem_ofPred_eq]
  exact exists_congr fun descriptor => by rw [and_comm, eq_comm]

theorem Slots.zero_opened : Slots.zero.opened = ∅ := by
  simp [Slots.opened, Slots.zero]

/-- One slot is filled or changed. -/
theorem Slots.opened_fill (slots : Slots) (descriptor : Descriptor) {file : OpenFile}
    (used : file.used = true)
    : Slots.opened (Function.update slots descriptor file)
      = insert (descriptorNumber descriptor) slots.opened := by
  rw [opened, opened, ← Set.image_insert_eq]
  congr 1
  ext other
  rcases eq_or_ne other descriptor with rfl | different
  · simp [used]
  · simp [different]

theorem Slots.opened_empty (slots : Slots) (descriptor : Descriptor) {file : OpenFile}
    (unused : file.used = false)
    : Slots.opened (Function.update slots descriptor file)
      = slots.opened \ {descriptorNumber descriptor} := by
  rw [opened, opened, ← Set.image_singleton, ← Set.image_sdiff descriptorNumber_injective]
  congr 1
  ext other
  rcases eq_or_ne other descriptor with rfl | different
  · simp [unused]
  · simp [different]

/-- An open that succeeds opens its result. -/
theorem ramfsOpen_opened (files : List File) (slots : Slots) (name : List Byte)
    : (ramfsOpen files slots name).2.opened
      = if (ramfsOpen files slots name).1.slt 0 then slots.opened
        else insert (ramfsOpen files slots name).1 slots.opened := by
  unfold ramfsOpen
  split
  · rfl
  · split
    · rfl
    · next descriptor _ =>
        have positive : ∀ descriptor, (descriptorNumber descriptor).slt 0 = false := by decide
        refine (Slots.opened_fill slots descriptor rfl).trans ?_
        exact (if_neg (Bool.eq_false_iff.mp (positive descriptor))).symm

theorem ramfsClose_opened (slots : Slots) (fd : U64)
    : (ramfsClose slots fd).2.opened = slots.opened \ {fd} := by
  unfold ramfsClose
  split
  · next closed =>
      refine (Set.sdiff_singleton_eq_self ?_).symm
      rw [Slots.mem_opened, closed]
      simp
  · next descriptor used =>
      obtain ⟨rfl, _⟩ := usedSlot_iff.mp used
      exact Slots.opened_empty slots descriptor rfl

theorem ramfsRead_opened {files : List File} {slots slots' : Slots} {fd length result : U64}
    {bytes : List Byte} (found : ramfsRead files slots fd length = some (result, bytes, slots'))
    : slots'.opened = slots.opened := by
  unfold ramfsRead at found
  split at found
  · cases found
    rfl
  · next descriptor used =>
      obtain ⟨rfl, here⟩ := usedSlot_iff.mp used
      dsimp only at found
      split at found
      · cases found
      · split_ifs at found
        all_goals
          cases found
          refine (Slots.opened_fill slots descriptor ?_).trans ?_
          · exact here
          · exact Set.insert_eq_of_mem (Slots.mem_opened.mpr ⟨descriptor, used⟩)

-----------------------------------------------------------------------------------------
-- Books
-----------------------------------------------------------------------------------------

/-- What a process has: the numbers of its children and of its open descriptors. -/
@[ext] structure Books where
  children : Set U64
  opened : Set U64

/-- What a call makes of the books of its caller, by its first argument and its result. -/
def Books.after (books : Books) (call : Option Syscall) (first result : U64) : Books :=
  match call with
  | some .spawn =>
      { books with
        children := if (0 : U64).slt result then insert result books.children else books.children }
  | some .wait => { books with children := books.children \ {first} }
  | some .open =>
      { books with opened := if result.slt 0 then books.opened else insert result books.opened }
  | some .close => { books with opened := books.opened \ {first} }
  | _ => books

/-- What the kernel keeps for the process in a slot. -/
def ProcessTable.books (table : ProcessTable) (index : TaskIndex) : Books :=
  ⟨table.children index, (table.slots index).files.opened⟩

theorem Called.opens {image : List Byte} {lab lab' : Lab} {arguments : Arguments}
    {call : Option Syscall} {value : U64} (called : Called image lab arguments call value lab')
    (children : Set U64)
    : Books.mk children lab'.taskCurrent.files.opened
      = (Books.mk children lab.taskCurrent.files.opened).after call arguments.rdi value := by
  have files (lab : Lab) (slots : Slots) : (lab.withFiles slots).taskCurrent.files = slots :=
    congrArg Task.files (lab.withTask_self lab.current _)
  have stored (lab : Lab) (address : U64) (bytes : List Byte)
      : (lab.stored address bytes).taskCurrent.files = lab.taskCurrent.files :=
    rfl
  cases called with
  | @refused call _ _ _ buffer _ =>
      cases call with
      | spawn | wait | close => cases buffer
      | «open» => rfl
      | _ => rfl
  | opened length accepted =>
      rw [files]
      exact congrArg (Books.mk children) (ramfsOpen_opened ..)
  | read accepted found length =>
      rw [files]
      exact congrArg (Books.mk children) (ramfsRead_opened found)
  | close =>
      rw [files]
      exact congrArg (Books.mk children) (ramfsClose_opened ..)
  | process | memory | file | input =>
      exact congrArg (fun files => Books.mk children (Slots.opened files)) (stored ..)
  | _ => rfl

-----------------------------------------------------------------------------------------
-- Steps of the table
-----------------------------------------------------------------------------------------

section Steps

variable {table table' : ProcessTable} {action : Action} {spawns : Nat} {index : TaskIndex}

theorem ProcessTable.books_eq {process : Process} (family : table'.family = table.family)
    (slot : table'.slots index = process) (id : process.id = (table.slots index).id)
    (files : process.files = (table.slots index).files)
    : table'.books index = table.books index := by
  rw [books, books, slot, files, children_eq ((congrArg Process.id slot).trans id) family]
  rfl

/-- What a step is to the books of a process that does not run and stays in its slot. -/
theorem TableStep.bystander_books (step : TableStep table action table')
    (sound : table.Sound spawns) (running : table.running.state = .ready)
    (different : index ≠ table.current) (used : (table.slots index).Used)
    (used' : (table'.slots index).Used)
    : (table'.slots index = table.slots index ∧ table'.books index = table.books index)
      ∨ ((table.slots index).state = .waiting
        ∧ (table'.slots index).state = .ready
        ∧ (table'.slots index).id = (table.slots index).id
        ∧ ∀ result,
            table'.books index
              = (table.books index).after (some .wait) (wide (table.slots index).waitingFor) result)
      := by
  cases step.bystander sound running different used used' with
  | kept same children =>
      refine Or.inl ⟨same, ?_⟩
      rw [ProcessTable.books, ProcessTable.books, children, same]
  | woken waited woken children =>
      refine Or.inr ⟨waited, congrArg Process.state woken, by rw [woken]; rfl, fun _ => ?_⟩
      rw [ProcessTable.books, children, woken]
      rfl

/-- A wait that does not find its child. -/
theorem ProcessTable.child_none {pid : U64} (none : table.child pid = none)
    : pid ∉ table.children table.current := by
  rintro ⟨id, ⟨slot, role, here⟩, rfl⟩
  obtain ⟨used, same⟩ := Process.member_inv here
  have refused := List.find?_eq_none.mp none slot (List.mem_finRange slot)
  refine refused (decide_eq_true ⟨used, ?_, ?_⟩)
  · exact congrArg wide (congrArg Member.id same).symm
  · exact (congrArg Member.parent same).symm

/-- A wait returns and takes the child from the books, or it blocks and takes nothing yet. -/
theorem TableStep.wait_books {pid : U64} (step : TableStep table (.wait pid) table')
    (sound : table.Sound spawns) (running : table.running.state = .ready)
    : (table'.current = table.current
        ∧ (table'.slots table.current).state = .ready
        ∧ ∀ result,
            table'.books table.current
              = (table.books table.current).after (some .wait) pid result)
      ∨ (table'.current ≠ table.current
        ∧ (table'.slots table.current).state = .waiting
        ∧ wide (table'.slots table.current).waitingFor = pid
        ∧ table'.books table.current = table.books table.current) := by
  cases step with
  | waitRefused none =>
      have here : (table.answered (-3) table.running.files).slots table.current
          = { table.running with files := table.running.files }.reply (-3) :=
        ProcessTable.set_here ..
      refine Or.inl ⟨rfl, (congrArg Process.state here).trans running, fun _ => ?_⟩
      rw [ProcessTable.books_eq (table.answered_family (-3) table.running.files) here rfl rfl]
      ext1
      · exact (Set.sdiff_singleton_eq_self (ProcessTable.child_none none)).symm
      · rfl
  | @collected _ child found exited =>
      obtain ⟨used, number, parent⟩ := ProcessTable.Sound.child_spec found
      have apart := ProcessTable.Sound.child_apart sound found
      have here : (table.collected child).slots table.current
          = table.running.reply (table.slots child).status :=
        (ProcessTable.set_other _ (Ne.symm apart) _).trans (ProcessTable.set_here ..)
      have family := (congrArg (Family.children · table.running.id) (table.collected_family child)).trans
        (Family.children_departed sound.distinct_family (Process.member_used used) _)
      refine Or.inl ⟨rfl, (congrArg Process.state here).trans running, fun _ => ?_⟩
      ext1
      · refine (congrArg (wide '' ·) ?_).trans
          ((ProcessTable.wide_sdiff _ _).trans (congrArg (_ \ {·}) number))
        rw [here]
        exact family
      · refine (congrArg (fun process : Process => process.files.opened) here).trans rfl
  | @blocked _ child next found living chosen =>
      obtain ⟨used, number, parent⟩ := ProcessTable.Sound.child_spec found
      have here : (table.blocked pid).slots table.current
          = { table.running with state := .waiting, waitingFor := pid.setWidth 32 } :=
        ProcessTable.set_here ..
      have waiting := congrArg Process.state here
      refine Or.inr ⟨?_, waiting, ?_, ?_⟩
      · rintro rfl
        cases (ProcessTable.nextReady_ready chosen).symm.trans waiting
      · refine (congrArg (fun process : Process => wide process.waitingFor) here).trans ?_
        change wide (pid.setWidth 32) = pid
        rw [← number, wide_narrow]
      · exact ProcessTable.books_eq (ProcessTable.blocked_family running pid) here rfl rfl

/-- A spawn returns to its caller. -/
theorem TableStep.spawn_slot {number : U64} (step : TableStep table (.spawn number) table')
    (running : table.running.state = .ready)
    : table'.current = table.current
      ∧ ∃ value, table'.slots table.current = table.running.reply value := by
  have apart {slot : TaskIndex} (free : (table.slots slot).state = .unused) : table.current ≠ slot := by
    rintro rfl
    cases free.symm.trans running
  cases step with
  | spawnRefused _ value refused => exact ⟨rfl, value, ProcessTable.set_here ..⟩
  | spawnFailed _ free unused =>
      exact ⟨rfl, -5, (ProcessTable.set_other _ (apart free) _).trans (ProcessTable.set_here ..)⟩
  | spawned free permitted =>
      exact ⟨rfl, wide table.nextPid,
        (ProcessTable.set_other _ (apart free) _).trans (ProcessTable.set_here ..)⟩

/-- A process keeps its number while it is in its slot. -/
theorem TableStep.same_id (step : TableStep table action table')
    (running : table.running.state = .ready) (used : (table.slots index).Used)
    (used' : (table'.slots index).Used)
    : (table'.slots index).id = (table.slots index).id := by
  cases step.numbers running with
  | keep _ kept | fail _ kept => exact (kept index used').2
  | @spawn child _ born _ others _ =>
      refine (others index ?_ used').2
      rintro rfl
      exact used born.1

/-- A slot that is filled holds a process that has not run. -/
theorem TableStep.filled (step : TableStep table action table') (running : table.running.state = .ready)
    (free : (table.slots index).state = .unused) (used' : (table'.slots index).Used)
    : ∃ program, table'.slots index = .fresh table.nextPid program table.running.id := by
  have different : index ≠ table.current := by
    rintro rfl
    cases free.symm.trans running
  generalize same : table'.slots index = process at used'
  cases same ▸ step.slot different with
  | kept => exact absurd free used'
  | filled _ _ born =>
      obtain ⟨program, _, same⟩ := born.resolve_left used'
      exact ⟨program, same⟩
  | collected _ _ exited => cases free.symm.trans exited
  | woken _ awaits => cases free.symm.trans awaits.2.1

/-- A new process has nothing: it is the youngest, so nobody has it as a parent. -/
theorem TableStep.newborn (step : TableStep table action table') (running : table.running.state = .ready)
    {spawns' : Nat} (sound' : table'.Sound spawns') (bound : spawns' < 2 ^ 32 - 1)
    (free : (table.slots index).state = .unused) (used' : (table'.slots index).Used)
    : (table'.slots index).state = .ready ∧ table'.books index = ⟨∅, ∅⟩ := by
  obtain ⟨program, here⟩ := step.filled running free used'
  refine ⟨by rw [here]; rfl, ?_⟩
  have next : table'.nextPid = table.nextPid + 1 := by
    cases step.numbers running with
    | keep _ kept | fail _ kept => exact absurd free (kept index used').1
    | spawn next => exact next
  have youngest : (table'.slots index).id.toNat = spawns' + 1 := by
    have last := sound'.next
    rw [next] at last
    rw [here]
    change table.nextPid.toNat = _
    bv_omega
  ext1
  · refine (congrArg (wide '' ·) (Family.children_none fun slot member there => ?_)).trans
      (Set.image_empty wide)
    obtain ⟨used, rfl⟩ := Process.member_inv there
    intro mine
    have older := sound'.older slot used
    have last := (sound'.numbered slot used).2
    change (table'.slots slot).parent = _ at mine
    rw [mine] at older
    omega
  · rw [ProcessTable.books, here]
    exact Slots.zero_opened

/-- An ended process that stays in its slot keeps its books. -/
theorem TableStep.exit_books {status : U64} (step : TableStep table (.terminate status) table')
    (running : table.running.state = .ready) (used' : (table'.slots table.current).Used)
    : (table'.slots table.current).state = .exited
      ∧ table'.books table.current = table.books table.current := by
  cases step with
  | @ended _ next mortal chosen =>
      have here : (table.ended status).slots table.current
          = { table.running with
              status := status, state := if table.Awaited then .unused else .exited } :=
        if_pos rfl
      have family := table.ended_family running status
      by_cases awaited : table.Awaited
      · exact absurd ((congrArg Process.state here).trans (if_pos awaited)) used'
      · rw [if_neg awaited] at family
        exact ⟨(congrArg Process.state here).trans (if_neg awaited),
          ProcessTable.books_eq family here rfl rfl⟩

/-- The process of the boot has nothing. -/
theorem ProcessTable.boot_books {index : TaskIndex} (used : (ProcessTable.boot.slots index).Used)
    : (ProcessTable.boot.slots index).state = .ready ∧ ProcessTable.boot.books index = ⟨∅, ∅⟩ := by
  have first {slot : TaskIndex} (used : (ProcessTable.boot.slots slot).Used) : slot = 0 := by
    by_contra different
    exact used (ProcessTable.boot_empty different)
  obtain rfl := first used
  have here : ProcessTable.boot.slots 0 = .fresh 1 .init 0 := by simp [ProcessTable.boot]
  refine ⟨by rw [here]; rfl, ?_⟩
  ext1
  · refine (congrArg (wide '' ·) (Family.children_none fun slot member there => ?_)).trans
      (Set.image_empty wide)
    obtain ⟨used', rfl⟩ := Process.member_inv there
    obtain rfl := first used'
    rw [here]
    decide
  · rw [ProcessTable.books, here]
    exact Slots.zero_opened

/-- The action is no request to the kernel. -/
def Action.Computes : Action → Prop
  | .quiet | .run _ | .tick => True
  | _ => False

/-- Where nobody asks for anything, only a context changes. -/
theorem TableStep.compute_slot (step : TableStep table action table') (computes : action.Computes)
    (index : TaskIndex)
    : table'.books index = table.books index
      ∧ (table.slots index).SameRole (table'.slots index) := by
  cases step with
  | quiet => exact ⟨rfl, .refl _⟩
  | tick chosen => exact ⟨rfl, .refl _⟩
  | run context =>
      have role := ProcessTable.set_forall (fun _ process process' => process.SameRole process')
        (show table.running.SameRole { table.running with context := table.running.context.runTo context }
          from ⟨rfl, rfl, rfl, rfl, rfl⟩) fun _ _ => .refl _
      have files := ProcessTable.set_forall (fun _ process process' => process'.files = process.files)
        (show ({ table.running with
            context := table.running.context.runTo context } : Process).files = table.running.files
          from rfl) (fun _ _ => rfl) index
      exact ⟨ProcessTable.books_eq (ProcessTable.family_of_role role) rfl (role index).id files, role index⟩
  | _ => exact computes.elim

end Steps

-----------------------------------------------------------------------------------------
-- Calls
-----------------------------------------------------------------------------------------

theorem Lab.used_iff {lab : Lab} {index : TaskIndex}
    : (lab.userTable.slots index).Used ↔ (lab.tasks index).state ≠ .unused := by
  rw [Process.Used, lab.userTable_state]

/-- An event that is no call lets the program go on, or ends it. -/
theorem Lab.action_other {lab : Lab} {event : LabEvent}
    (noCall : ∀ error cr2 scratch, event ≠ .interrupt 128 error cr2 scratch)
    : (lab.action event).Computes ∨ ∃ status, lab.action event = .terminate status := by
  cases event with
  | run | store | mark | receive => exact Or.inl trivial
  | interrupt vector error cr2 scratch =>
      have other : vector.val ≠ 128 := by
        intro same
        exact noCall error cr2 scratch (congrArg (LabEvent.interrupt · error cr2 scratch) (Fin.ext same))
      rw [Lab.action, if_neg other]
      split_ifs
      · exact Or.inr ⟨_, rfl⟩
      · exact Or.inl trivial

section Calls

variable {image : List Byte} {lab lab' : Lab} {error cr2 : U64} {scratch : Stack} {spawns : Nat}

/-- A call came back to its caller, whose books changed as its result says. -/
structure Lab.Returned (lab lab' : Lab) : Prop where
  current : lab'.current = lab.current
  ready : (lab'.userTable.slots lab.current).state = .ready
  id : (lab'.userTable.slots lab.current).id = (lab.userTable.slots lab.current).id
  books
    : lab'.userTable.books lab.current
      = (lab.userTable.books lab.current).after (Syscall.ofNumber (lab.cpu.general .rax))
          (lab.cpu.general .rdi) (lab'.cpu.general .rax)

/-- The table after a call that is served at once. -/
theorem Called.finished_table {arguments : Arguments} {call : Option Syscall} {value : U64}
    (called : Called image lab arguments call value lab') (id : U32) (number : U64)
    : (lab'.finished id number arguments value).left.userTable
      = lab.table.answered value lab'.taskCurrent.files := by
  refine (Lab.left_table _).trans ?_
  rw [Lab.finished_table, called.current, ProcessTable.running, called.table]
  unfold ProcessTable.answered ProcessTable.set
  dsimp only
  have current : lab.current = lab.table.current := rfl
  rw [current, Function.update_self, Function.update_idem]

/-- The calls that are served at once. -/
theorem InUser.at_once_returned (user : InUser image lab)
    (immediate : Syscall.Immediate (Syscall.ofNumber (lab.cpu.general .rax)))
    (stepped : labStep image (.interrupt 128 error cr2 scratch) lab = .ok ((), lab'))
    : lab.Returned lab' := by
  have number : (lab.entered 128 error scratch).savedNumber = lab.cpu.general .rax :=
    lab.entered_savedField 128 error scratch (.general .rax)
  have rdi : (lab.entered 128 error scratch).savedArguments.rdi = lab.cpu.general .rdi :=
    lab.entered_savedField 128 error scratch (.general .rdi)
  obtain ⟨_, step, done⟩ := (user.labStep_spec _).ok stepped
  cases done with
  | @interrupt _ _ _ _ middle ran =>
      cases ran with
      | tick timer => exact absurd timer (by decide)
      | fault exception departed => simp at exception
      | exit _ called departed => exact absurd (number ▸ called) immediate.2.2
      | wait _ called waited => exact absurd (number ▸ called) immediate.2.1
      | spawn _ called spawned => exact absurd (number ▸ called) immediate.1
      | @call value served _ _ called =>
          have table := called.finished_table (lab.entered 128 error scratch).taskCurrent.id
            (lab.entered 128 error scratch).savedNumber
          rw [lab.entered_table] at table
          have here : (lab.userTable.answered value served.taskCurrent.files).slots lab.current
              = { lab.userTable.running with files := served.taskCurrent.files }.reply value :=
            ProcessTable.set_here ..
          have opens := called.opens (lab.userTable.children lab.current)
          rw [number, rdi] at opens
          refine ⟨congrArg ProcessTable.current table, ?_, ?_, ?_⟩
          · rw [table, here]
            exact (congrArg Process.state lab.userTable_running).trans user.ready
          · rw [table, here]
            rfl
          · have result := served.finished_result (lab.entered 128 error scratch).taskCurrent.id
              (lab.entered 128 error scratch).savedNumber
              (lab.entered 128 error scratch).savedArguments value
            have children : (lab.userTable.answered value served.taskCurrent.files).children lab.current
                = lab.userTable.children lab.current :=
              ProcessTable.children_eq ((congrArg Process.id here).trans rfl)
                (ProcessTable.answered_family ..)
            have files : (lab.entered 128 error scratch).taskCurrent.files
                = (lab.userTable.slots lab.current).files :=
              congrArg (fun table : ProcessTable => (table.slots lab.current).files)
                (lab.entered_table 128 error scratch)
            rw [files] at opens
            rw [table, ProcessTable.books, children, here]
            exact opens.trans (congrArg (Books.after _ _ _) result.symm)

/-- A call that is served at once never halts the machine, and answers its caller alone. -/
theorem InUser.served_at_once (user : InUser image lab)
    (immediate : Syscall.Immediate (Syscall.ofNumber (lab.cpu.general .rax))) (error cr2 : U64)
    (scratch : Stack)
    : ∃ lab' value files,
        labStep image (.interrupt 128 error cr2 scratch) lab = .ok ((), lab')
        ∧ lab.action (.interrupt 128 error cr2 scratch) = .call
        ∧ lab'.userTable = lab.userTable.answered value files := by
  obtain ⟨notSpawn, notWait, notExit⟩ := immediate
  have action : lab.action (.interrupt 128 error cr2 scratch) = .call := by
    rw [lab.action_call]
    split
    · next wait => exact absurd wait notWait
    · next exit => exact absurd exit notExit
    · next spawn => exact absurd spawn notSpawn
    · rfl
  have outcome := user.labStep_spec (.interrupt 128 error cr2 scratch)
  cases stepped : labStep image (.interrupt 128 error cr2 scratch) lab with
  | error reason =>
      have request := (lab.entered_request 128 error cr2 scratch).trans action
      cases outcome.error stepped with
      | exit terminates _ => cases terminates.symm.trans request
      | wait waits _ _ _ => cases waits.symm.trans request
      | unexpected unhandled => simp at unhandled
  | ok pair =>
      obtain ⟨_, step, _⟩ := outcome.ok stepped
      obtain ⟨_, lab'⟩ := pair
      rw [action] at step
      generalize same : lab'.userTable = table at step
      cases step with
      | answered value files => exact ⟨lab', value, files, rfl, action, same⟩

/-- `SYS_PROGRAM` tells a process what it is. -/
theorem InUser.program_result (user : InUser image lab)
    (call : Syscall.ofNumber (lab.cpu.general .rax) = some .program)
    (stepped : labStep image (.interrupt 128 error cr2 scratch) lab = .ok ((), lab'))
    : lab'.cpu.general .rax = (lab.tasks lab.current).program.number := by
  have number : (lab.entered 128 error scratch).savedNumber = lab.cpu.general .rax :=
    lab.entered_savedField 128 error scratch (.general .rax)
  obtain ⟨_, _, done⟩ := (user.labStep_spec _).ok stepped
  cases done with
  | @interrupt _ _ _ _ middle ran =>
      cases ran with
      | tick timer => exact absurd timer (by decide)
      | fault exception departed => simp at exception
      | exit _ called _ | wait _ called _ | spawn _ called _ =>
          cases (number ▸ called).symm.trans call
      | @call value served _ _ called =>
          refine (served.finished_result _ _ _ value).trans ?_
          rw [number, call] at called
          cases called with
          | refused buffer => cases buffer
          | program => exact congrArg Program.number (lab.entered_program 128 error scratch)

/-- A spawn that builds a task changes the family. -/
theorem Spawned.bears {served : Lab} {program : Program} {parent : U32} {index : TaskIndex}
    (spawned : Spawned image program parent index (lab.entered 128 error scratch) served)
    (user : InUser image lab) (free : (lab.entered 128 error scratch).freeTask = some index)
    (id : U32) (number : U64) (arguments : Arguments) (value : U64)
    : (served.finished id number arguments value).left.userTable.family ≠ lab.userTable.family := by
  intro same
  have unused := (lab.entered_same 128 error scratch index).state.symm.trans (Lab.freeTask_unused free)
  have gone := Process.member_none.mp ((congrFun same index).trans
    (Process.member_none.mpr ((lab.userTable_state index).trans unused)))
  have current : served.current = lab.current := congrArg ProcessTable.current spawned.table
  have apart : index ≠ served.current := by
    rw [current]
    rintro rfl
    cases unused.symm.trans user.ready
  obtain ⟨_, _, _, here⟩ := spawned.task
  have after : ((served.finished id number arguments value).left.tasks index).state = .ready := by
    have other : (served.finished id number arguments value).left.tasks index = served.tasks index :=
      served.finished_other id number arguments value apart
    rw [other, here]
  cases gone.symm.trans ((Lab.userTable_state _ index).trans after)

/-- A spawn that bears nobody has a result that is no number of a process. -/
theorem InUser.spawn_kept (user : InUser image lab)
    (call : Syscall.ofNumber (lab.cpu.general .rax) = some .spawn)
    (stepped : labStep image (.interrupt 128 error cr2 scratch) lab = .ok ((), lab'))
    (same : lab'.userTable.family = lab.userTable.family)
    : (0 : U64).slt (lab'.cpu.general .rax) = false := by
  obtain ⟨value, served, called, stepped'⟩ := user.spawn_step call error cr2 scratch
  cases stepped.symm.trans stepped'
  have result := served.finished_result lab.taskCurrent.id (lab.cpu.general .rax) lab.arguments value
  change (0 : U64).slt ((served.finished lab.taskCurrent.id (lab.cpu.general .rax) lab.arguments
    value).taskCurrent.context.general .rax) = false
  rw [result]
  cases called with
  | forbidden | full | failed => decide
  | spawned permitted free spawned => exact absurd same (spawned.bears user free _ _ _ _)

theorem wide_slt {id : U32} (some : 0 < id.toNat) : (0 : U64).slt (wide id) = true := by
  have value : (wide id).toNat = id.toNat := by
    have bound := id.isLt
    rw [wide, BitVec.toNat_setWidth]
    omega
  rw [BitVec.slt_eq_decide, decide_eq_true_eq, BitVec.toInt_eq_toNat_of_msb (wide_positive id), value]
  exact Int.natCast_pos.mpr some

/-- The result of a spawn is the number of a new child, or it is no number of a process. -/
theorem InUser.spawn_returned (user : InUser image lab)
    (call : Syscall.ofNumber (lab.cpu.general .rax) = some .spawn)
    (stepped : labStep image (.interrupt 128 error cr2 scratch) lab = .ok ((), lab'))
    (sound : lab'.userTable.Sound spawns)
    : lab.Returned lab' := by
  obtain ⟨_, step⟩ := user.step stepped
  have action : lab.action (.interrupt 128 error cr2 scratch) = .spawn (lab.cpu.general .rdi) := by
    rw [lab.action_call, call]
  rw [action] at step
  have running : lab.userTable.running.state = .ready :=
    (congrArg Process.state lab.userTable_running).trans user.ready
  obtain ⟨current, value, here⟩ := step.spawn_slot running
  change lab'.userTable.slots lab.current = _ at here
  have id : (lab'.userTable.slots lab.current).id = (lab.userTable.slots lab.current).id :=
    (congrArg Process.id here).trans rfl
  refine ⟨current, ?_, id, ?_⟩
  · rw [here]
    exact running
  · rw [call]
    cases step.family running with
    | keep same =>
        rw [ProcessTable.books_eq same here rfl rfl]
        simp only [Books.after, user.spawn_kept call stepped same, Bool.false_eq_true, if_false]
    | @birth number index program spawns permitted free born result =>
        have number' : lab'.cpu.general .rax = wide lab.userTable.nextPid :=
          (congrArg (fun context : Context => context.general .rax) lab'.cpu_eq).trans result
        have positive : (0 : U64).slt (wide lab.userTable.nextPid) = true := by
          have there : lab'.userTable.family index
              = some ⟨lab.userTable.nextPid, lab.userTable.running.id, program⟩ := by
            rw [born, Family.born_here]
          obtain ⟨used, same⟩ := Process.member_inv there
          have named : lab.userTable.nextPid = (lab'.userTable.slots index).id :=
            congrArg Member.id same
          rw [named]
          exact wide_slt (sound.numbered index used).1
        rw [number', ProcessTable.books, here]
        simp only [Books.after, positive, if_true]
        ext1
        · refine (ProcessTable.children_eq id born).trans ?_
          refine (congrArg (wide '' ·) (Family.children_born free)).trans ?_
          exact Set.image_insert_eq
        · rfl
    | collect waits => cases waits
    | reap ends => cases ends

/-- A wait blocks its caller, whose books stay as they are. -/
structure Lab.Blocked (lab lab' : Lab) : Prop where
  call : Syscall.ofNumber (lab.cpu.general .rax) = some .wait
  away : lab'.current ≠ lab.current
  waiting : (lab'.userTable.slots lab.current).state = .waiting
  awaits : wide (lab'.userTable.slots lab.current).waitingFor = lab.cpu.general .rdi
  id : (lab'.userTable.slots lab.current).id = (lab.userTable.slots lab.current).id
  books : lab'.userTable.books lab.current = lab.userTable.books lab.current

/-- Every call but an exit returns or blocks. -/
theorem InUser.call_books (user : InUser image lab)
    (notExit : Syscall.ofNumber (lab.cpu.general .rax) ≠ some .exit)
    (stepped : labStep image (.interrupt 128 error cr2 scratch) lab = .ok ((), lab'))
    {spawns' : Nat} (sound : lab.userTable.Sound spawns) (sound' : lab'.userTable.Sound spawns')
    : lab.Returned lab' ∨ lab.Blocked lab' := by
  by_cases spawn : Syscall.ofNumber (lab.cpu.general .rax) = some .spawn
  · exact Or.inl (user.spawn_returned spawn stepped sound')
  by_cases wait : Syscall.ofNumber (lab.cpu.general .rax) = some .wait
  · obtain ⟨_, step⟩ := user.step stepped
    have action : lab.action (.interrupt 128 error cr2 scratch) = .wait (lab.cpu.general .rdi) := by
      rw [lab.action_call, wait]
    rw [action] at step
    have running : lab.userTable.running.state = .ready :=
      (congrArg Process.state lab.userTable_running).trans user.ready
    have used : (lab.userTable.slots lab.current).Used := Process.Live.used (Or.inl running)
    rcases step.wait_books sound running with
      ⟨current, ready, books⟩ | ⟨away, waiting, awaits, books⟩
    · have id := step.same_id running used (Process.Live.used (Or.inl ready))
      exact Or.inl ⟨current, ready, id, wait ▸ books _⟩
    · have id := step.same_id running used (Process.Live.used (Or.inr waiting))
      exact Or.inr ⟨wait, away, waiting, awaits, id, books⟩
  · exact Or.inl (user.at_once_returned ⟨spawn, wait, notExit⟩ stepped)

/-- A task runs the same program while it is in its slot. -/
theorem InUser.same_program {event : LabEvent} {index : TaskIndex} (user : InUser image lab)
    (stepped : labStep image event lab = .ok ((), lab'))
    (used : (lab.tasks index).state ≠ .unused) (used' : (lab'.tasks index).state ≠ .unused)
    : (lab'.tasks index).program = (lab.tasks index).program := by
  have running : lab.userTable.running.state = .ready :=
    (congrArg Process.state lab.userTable_running).trans user.ready
  have same := (user.step stepped).2.same_member running (Lab.used_iff.mpr used)
    (Lab.used_iff.mpr used')
  rw [Process.member_used (Lab.used_iff.mpr used), Process.member_used (Lab.used_iff.mpr used')]
    at same
  rw [← lab'.userTable_program, ← lab.userTable_program]
  exact congrArg Member.role (Option.some.inj same)

end Calls

end MiniLinux
