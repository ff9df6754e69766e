import MiniLinux.Laboratory.Serial

/-! What the laboratory guarantees in every reachable state: address spaces apart from each
other, every frame with one owner, a processor that serves the current task, and calls that
touch only what they were given.
-/

namespace MiniLinux

open Foundation Foundation.Halting

-----------------------------------------------------------------------------------------
-- Address spaces
-----------------------------------------------------------------------------------------

/-- What user code may do with a page: code from 4 MiB, data at 6 MiB, two stack pages at 8 MiB. -/
def userPageFlags (image : List Byte) (page : Nat) : Option U32 :=
  if 0x400 ≤ page ∧ page < 0x400 + codePages image then some (vmUser ||| vmExec)
  else if page = 0x600 ∨ page = 0x800 ∨ page = 0x801 then some (vmUser ||| vmWrite)
  else none

/-- `vm_lookup` reaches a physical address through the space of a task. -/
def Lab.Maps (lab : Lab) (index : TaskIndex) (address physical : U64) (flags : U32) : Prop :=
  ∃ space,
    (lab.tasks index).space = some space
    ∧ lab.machine.vmLookup (some space) address 0 0 = (true, physical, flags)

/-- The tasks are apart: each maps just its own pages, which no other task maps and which hold
neither tables nor the allocator's state bytes.
-/
structure Lab.Isolated (image : List Byte) (lab : Lab) : Prop where
  layout
    : ∀ index,
        (lab.tasks index).root ≠ 0
        → ∀ address flags,
            address.toNat < 2 ^ 47
            → ((∃ physical, lab.Maps index address physical flags)
              ↔ userPageFlags image (address.toNat / pageSize) = some flags)
  apart
    : ∀ index other address address' physical physical' flags flags',
        index ≠ other
        → lab.Maps index address physical flags
        → lab.Maps other address' physical' flags'
        → frameOf physical.toNat ≠ frameOf physical'.toNat
  allocated
    : ∀ index address physical flags,
        lab.Maps index address physical flags
        → lab.machine.IsAllocated (frameOf physical.toNat)
          ∧ ¬lab.machine.IsMetadata (frameOf physical.toNat)
  tables
    : ∀ index address physical flags,
        lab.Maps index address physical flags
        → ∀ other, ∀ table ∈ (lab.tasks other).privateSpace.tables,
            frameOf physical.toNat ≠ frameOf table.toNat

theorem layoutIndex_flags {image : List Byte} (sized : Sized image) (page : Nat)
    : (layoutIndex image page).map (layoutFlags image) = userPageFlags image page := by
  have bound := sized.codePages_le
  unfold layoutIndex layoutFlags userPageFlags
  split_ifs <;> simp <;> omega

/-- An address inside a page lies in the frame of the page. -/
theorem frameOf_inside {frame : U64} (aligned : frame.toNat % pageSize = 0) (address : U64)
    : frameOf (frame + BitVec.ofNat 64 (address.toNat % pageSize)).toNat = frameOf frame.toNat := by
  have bound := frame.isLt
  have inside : address.toNat % 4096 < 4096 := Nat.mod_lt _ (by decide)
  simp only [pageSize, frameOf, BitVec.toNat_add, BitVec.toNat_ofNat] at aligned ⊢
  omega

section Maps

variable {image : List Byte} {lab : Lab} {index : TaskIndex} {address physical : U64} {flags : U32}

theorem TaskFormed.maps_iff (formed : TaskFormed image lab.machine (lab.tasks index))
    (ready : lab.machine.Ready) (sized : Sized image)
    : lab.Maps index address physical flags
      ↔ ∃ frame ∈ (lab.tasks index).pages,
          layoutMap image (lab.tasks index).pages (address.toNat / pageSize) = some (frame, flags)
          ∧ physical = frame + BitVec.ofNat 64 (address.toNat % pageSize) := by
  have lookup := formed.tree.vmLookup_eq ready address 0 0
  rw [formed.mapping] at lookup
  unfold Lab.Maps
  rw [formed.space]
  cases found : layoutMap image (lab.tasks index).pages (address.toNat / pageSize) with
  | none =>
      rw [found] at lookup
      constructor
      · rintro ⟨_, same, result⟩
        cases same
        cases lookup.symm.trans result
      · rintro ⟨_, _, impossible, _⟩
        cases impossible
  | some entry =>
      obtain ⟨frame, permissions⟩ := entry
      rw [found] at lookup
      have member : frame ∈ (lab.tasks index).pages := by
        obtain ⟨k, _, _, held, _⟩ := (layoutMap_eq_some sized).mp found
        exact List.mem_of_getElem? held
      constructor
      · rintro ⟨_, same, result⟩
        cases same
        cases lookup.symm.trans result
        exact ⟨frame, member, rfl, rfl⟩
      · rintro ⟨_, _, same, rfl⟩
        cases same
        exact ⟨_, rfl, lookup⟩

namespace Consistent

variable (consistent : Consistent image lab.live lab)
include consistent

/-- Only a live task has a root. -/
theorem live_of_root (root : (lab.tasks index).root ≠ 0) : (lab.tasks index).Live := by
  by_contra dead
  obtain ⟨zero, _⟩ := consistent.partition.empty index dead
  apply root
  rw [Task.root, Task.space, zero]
  split <;> rfl

/-- Only a live task maps anything. -/
theorem live_of_maps (maps : lab.Maps index address physical flags) : (lab.tasks index).Live := by
  obtain ⟨space, found, result⟩ := maps
  by_contra dead
  obtain ⟨zero, _⟩ := consistent.partition.empty index dead
  unfold Task.space at found
  split at found
  · cases found
    rw [zero] at result
    cases result
  · cases found

/-- What a task maps is the inside of one of its own pages. -/
theorem maps_page (maps : lab.Maps index address physical flags)
    : ∃ frame ∈ (lab.tasks index).pages, frameOf physical.toNat = frameOf frame.toNat := by
  have live := consistent.live_of_maps maps
  obtain ⟨frame, member, _, rfl⟩ :=
    ((consistent.partition.formed index live).maps_iff consistent.partition.ready
      consistent.sized).mp maps
  exact ⟨frame, member, frameOf_inside (consistent.partition.page_outstanding member).1 address⟩

theorem isolated : lab.Isolated image := by
  have partition := consistent.partition
  have aligned {slot : TaskIndex} {frame : U64} (owned : frame ∈ (lab.tasks slot).owned)
      : frame.toNat % pageSize = 0 :=
    (partition.owned_outstanding owned).1
  have same {slot slot' : TaskIndex} {frame frame' : U64} (owned : frame ∈ (lab.tasks slot).owned)
      (owned' : frame' ∈ (lab.tasks slot').owned)
      (frames : frameOf frame.toNat = frameOf frame'.toNat)
      : frame = frame' := by
    rw [← frameAddress_frameOf (aligned owned), frames, frameAddress_frameOf (aligned owned')]
  refine ⟨?_, ?_, ?_, ?_⟩
  · intro slot root address flags low
    have formed := partition.formed slot (consistent.live_of_root root)
    rw [← layoutIndex_flags consistent.sized, Option.map_eq_some_iff]
    simp only [formed.maps_iff partition.ready consistent.sized]
    constructor
    · rintro ⟨_, frame, _, found, _⟩
      obtain ⟨k, inside, page, _, rfl⟩ := (layoutMap_eq_some consistent.sized).mp found
      exact ⟨k, (layoutIndex_eq_some consistent.sized).mpr ⟨inside, page⟩, rfl⟩
    · rintro ⟨k, found, rfl⟩
      obtain ⟨inside, page⟩ := (layoutIndex_eq_some consistent.sized).mp found
      have bound : k < (lab.tasks slot).pages.length := formed.count.symm ▸ inside
      exact ⟨_, _, List.getElem_mem bound,
        (layoutMap_eq_some consistent.sized).mpr
          ⟨k, inside, page, List.getElem?_eq_getElem bound, rfl⟩, rfl⟩
  · intro slot other _ _ _ _ _ _ different maps maps' frames
    obtain ⟨frame, member, place⟩ := consistent.maps_page maps
    obtain ⟨frame', member', place'⟩ := consistent.maps_page maps'
    rw [place, place'] at frames
    have owned := List.mem_append_right (lab.tasks slot).privateSpace.tables member
    have owned' := List.mem_append_right (lab.tasks other).privateSpace.tables member'
    cases same owned owned' frames
    exact different (partition.divided.apart slot other frame owned owned')
  · intro slot _ _ _ maps
    obtain ⟨frame, member, place⟩ := consistent.maps_page maps
    have allocated := (partition.page_outstanding member).2
    rw [place]
    exact ⟨allocated, partition.ready.not_metadata_of_allocated allocated⟩
  · intro slot _ _ _ maps other table member frames
    obtain ⟨frame, member', place⟩ := consistent.maps_page maps
    rw [place] at frames
    have owned := List.mem_append_right (lab.tasks slot).privateSpace.tables member'
    have owned' := List.mem_append_left (lab.tasks other).pages member
    cases same owned owned' frames
    exact partition.page_not_table member' member

end Consistent

end Maps

/-- In every reachable state the tasks are apart. -/
theorem address_spaces_are_isolated {image : List Byte} {info : BootInfo} {lab : Lab}
    (reached : Reachable image info lab) (guaranteed : info.Guaranteed)
    : lab.Isolated image :=
  (reached.user guaranteed).toConsistent.isolated

theorem address_spaces_are_isolated_in_sample
    : ∃ lab shell child,
        Reachable sampleImage sampleInfo lab
        ∧ ChildRuns .hello shell child lab.userTable
        ∧ lab.Isolated sampleImage := by
  obtain ⟨lab, shell, child, reached, runs⟩ := sample_child
  exact ⟨lab, shell, child, reached.reachable, runs,
    address_spaces_are_isolated reached.reachable sample_guaranteed⟩

-----------------------------------------------------------------------------------------
-- Frames
-----------------------------------------------------------------------------------------

/-- What stops a step of the laboratory. -/
theorem StepHalt.panics {lab : Lab} {event : LabEvent} {reason : Halt}
    (halted : StepHalt lab event reason)
    : reason
      ∈ [.panic "LAB init or shell exited", .panic "LAB has no runnable shell",
          .panic "unexpected CPU exception"] := by
  cases event with
  | interrupt vector error cr2 scratch =>
      cases halted with
      | exit _ halted =>
          cases halted with
          | immortal => simp
          | nobody => simp
      | wait => simp
      | unexpected => simp
  | _ => exact halted.elim

/-- In every reachable state the allocated frames are what the live tasks record, each once, and
the others record nothing. So releasing them never fails, and `page_data` of an owned frame is
never null, neither in a step nor in a boot on tables outside usable memory.
-/
theorem frames_are_partitioned {image : List Byte} {info : BootInfo} {lab : Lab}
    (reached : Reachable image info lab) (guaranteed : info.Guaranteed)
    : (∀ address,
        lab.machine.Outstanding address
        ↔ ∃ index, (lab.tasks index).Live ∧ address ∈ (lab.tasks index).owned)
      ∧ (∀ index, (lab.tasks index).owned.Nodup)
      ∧ (∀ index other address,
          address ∈ (lab.tasks index).owned → address ∈ (lab.tasks other).owned → index = other)
      ∧ (∀ index, ¬(lab.tasks index).Live → (lab.tasks index).owned = [])
      ∧ (∀ event reason,
          labStep image event lab = .error reason
          → reason
            ∈ [.panic "LAB init or shell exited", .panic "LAB has no runnable shell",
                .panic "unexpected CPU exception"])
      ∧ ∀ cold reason,
          cold.Cold
          → (∀ entries,
              info.memmap.entries = some entries
              → ¬UsableFrame entries (frameOf cold.machine.currentRoot.toNat))
          → kernelMain image info cold = .error reason
          → reason
            ∈ [.panic "physical page initialization failed",
                .panic "M2 requires four-level paging", .panic "LAB init creation failed"] := by
  have user := reached.user guaranteed
  have divided := user.partition.divided
  have idle (index : TaskIndex) (dead : ¬(lab.tasks index).Live)
      : (lab.tasks index).owned = [] := by
    obtain ⟨space, pages⟩ := user.partition.empty index dead
    rw [Task.owned, space, pages]
    rfl
  refine ⟨fun address => ?_, divided.distinct, divided.apart, idle, ?_, ?_⟩
  · rw [divided.accounted address]
    refine exists_congr fun index => ⟨fun owned => ⟨?_, owned⟩, fun both => both.2⟩
    by_contra dead
    rw [idle index dead] at owned
    cases owned
  · exact fun event reason halted => ((user.labStep_spec event).error halted).panics
  · exact fun cold reason start active halted =>
      kernelMain_halts start guaranteed user.sized active halted

theorem frames_are_partitioned_in_sample
    : ∃ lab shell child,
        Reachable sampleImage sampleInfo lab
        ∧ ChildRuns .hello shell child lab.userTable
        ∧ ∀ address,
            lab.machine.Outstanding address
            ↔ ∃ index, (lab.tasks index).Live ∧ address ∈ (lab.tasks index).owned := by
  obtain ⟨lab, shell, child, reached, runs⟩ := sample_child
  exact ⟨lab, shell, child, reached.reachable, runs,
    (frames_are_partitioned reached.reachable sample_guaranteed).1⟩

-----------------------------------------------------------------------------------------
-- The processor
-----------------------------------------------------------------------------------------

/-- The processor serves the current task: it is ready and alive, `CR3` holds its root, and the task
state segment the top of its kernel stack.
-/
structure Lab.Serves (lab : Lab) : Prop where
  ready : (lab.tasks lab.current).state = .ready
  alive : (lab.tasks lab.current).alive = true
  root
    : ∃ space,
        (lab.tasks lab.current).space = some space
        ∧ lab.machine.currentRoot = space.root
  rsp0 : lab.rsp0 = some ⟨lab.current, stackWords⟩

theorem Lab.Selected.serves {image : List Byte} {lab : Lab} (selected : lab.Selected)
    (consistent : Consistent image lab.live lab)
    : lab.Serves :=
  have live : (lab.tasks lab.current).Live := Or.inl selected.ready
  ⟨selected.ready, consistent.alive lab.current live,
    ⟨_, (consistent.partition.formed lab.current live).space, selected.root⟩, selected.rsp0⟩

/-- Whenever the kernel looks for a ready process there is one. -/
theorem InUser.never_idle {image : List Byte} {spawns : Nat} {lab : Lab} (user : InUser image lab)
    (sound : lab.userTable.Sound spawns) {event : LabEvent} {reason : Halt}
    (halted : StepHalt lab event reason)
    : reason ≠ .panic "LAB has no runnable shell" := by
  have running : lab.userTable.running.state = .ready :=
    (congrArg Process.state lab.userTable_running).trans user.ready
  cases event with
  | interrupt vector error cr2 scratch =>
      have table : (lab.entered vector error scratch).table = lab.userTable :=
        lab.entered_table vector error scratch
      cases halted with
      | exit _ exits =>
          cases exits with
          | immortal => simp
          | nobody mortal idle =>
              rw [lab.entered_program] at mortal
              have program : lab.userTable.running.program ≠ .init := by
                rw [lab.userTable_running]
                exact mortal.1
              rw [table] at idle
              obtain ⟨index, ready⟩ := (sound.ended running program _).exists_ready
              exact absurd ready (idle index)
      | wait _ child living idle =>
          rw [table] at child living idle
          obtain ⟨index, ready⟩ := (sound.blocked running child living).exists_ready
          exact absurd ready (idle index)
      | unexpected => simp
  | _ => exact halted.elim

/-- With fewer than `2 ^ 32 - 1` spawns the processor always serves a ready task with its own
tables and its own kernel stack, which holds the frame that the kernel returns to; and the kernel
always finds a ready task.
-/
theorem processor_serves_current_task {image : List Byte} {info : BootInfo} {spawns : Nat}
    {lab : Lab} (reached : ReachableAfter image info spawns lab) (guaranteed : info.Guaranteed)
    (bound : spawns < 2 ^ 32 - 1)
    : lab.Serves
      ∧ (∀ event, labStep image event lab ≠ .error (.panic "LAB has no runnable shell"))
      ∧ (∀ vector error cr2 scratch frame entered next middle,
          enterKernel vector error scratch lab = .ok (frame, entered)
          → interruptDispatch image frame cr2 entered = .ok (next, middle)
          → middle.Serves
            ∧ ∃ word, next = some ⟨middle.current, word⟩ ∧ word + frameWords = stackWords)
      ∧ ∀ cold,
          cold.Cold
          → kernelMain image info cold = .ok ((), lab)
          → lab.cpu = frameContext (lab.tasks lab.current).stack (stackWords - frameWords) := by
  have user := reached.reachable.user guaranteed
  have sound := reached.sound guaranteed bound
  refine ⟨user.serves user.toConsistent, ?_, ?_, ?_⟩
  · intro event halted
    exact user.never_idle sound ((user.labStep_spec event).error halted) rfl
  · intro vector error cr2 scratch frame entered next middle enters dispatched
    cases (enterKernel_ok user.toSelected vector error scratch).symm.trans enters
    obtain ⟨handled, _⟩ := (user.interruptDispatch_spec vector error cr2 scratch).ok dispatched
    exact ⟨handled.kernel.serves handled.kernel.toConsistent, _, handled.frame, rfl⟩
  · intro cold start booted
    obtain ⟨_, _, bare, started⟩ := kernelMain_bare booted start guaranteed
    obtain ⟨_, _, served, _, rfl⟩ := taskStart_booted started bare
    rfl

theorem processor_serves_sample_task
    : ∃ lab shell child,
        ReachableAfter sampleImage sampleInfo 2 lab
        ∧ ChildRuns .hello shell child lab.userTable
        ∧ lab.Serves := by
  obtain ⟨lab, shell, child, reached, runs⟩ := sample_child
  exact ⟨lab, shell, child, reached, runs,
    (processor_serves_current_task reached sample_guaranteed (by decide)).1⟩

-----------------------------------------------------------------------------------------
-- Calls
-----------------------------------------------------------------------------------------

/-- `SYS_SPAWN` of a permitted program succeeds exactly where a slot is unused and the frames of
a task are free. Then it takes just these; otherwise everything in use is as before.
-/
theorem spawn_is_all_or_nothing {image : List Byte} {info : BootInfo} {lab : Lab}
    (reached : Reachable image info lab) (guaranteed : info.Guaranteed)
    (call : Syscall.ofNumber (lab.cpu.general .rax) = some .spawn) {program : Program}
    (permitted
      : spawnable (lab.tasks lab.current).program (lab.cpu.general .rdi) = some program)
    (error cr2 : U64) (scratch : Stack)
    : let enough :=
        (∃ index, (lab.tasks index).state = .unused)
        ∧ codePages image + 9 ≤ lab.machine.pages.freeCount.toNat
      ∃ lab',
        labStep image (.interrupt 128 error cr2 scratch) lab = .ok ((), lab')
        ∧ (lab'.cpu.general .rax = wide lab.nextPid ↔ enough)
        ∧ (enough → SpawnSucceeds image program lab lab')
        ∧ (¬enough → SpawnLeaves lab lab') := by
  exact (reached.user guaranteed).spawn_outcome call permitted error cr2 scratch

/-- With 62 free frames the spawn succeeds, and with four it leaves all as it was. -/
theorem spawn_is_all_or_nothing_on_sample
    : (∃ lab lab',
        Reachable sampleImage sampleInfo lab
        ∧ labStep sampleImage (.interrupt 128 0 0 fun _ => 0) lab = .ok ((), lab')
        ∧ SpawnSucceeds sampleImage .shell lab lab')
      ∧ ∃ lab lab',
          Reachable sampleImage (flatInfo 16) lab
          ∧ labStep sampleImage (.interrupt 128 0 0 fun _ => 0) lab = .ok ((), lab')
          ∧ SpawnLeaves lab lab' := by
  constructor
  · obtain ⟨lab, lab', index, reached, stepped, call, permitted, free, enough, _⟩ := sample_spawns
    obtain ⟨lab'', stepped', _, succeeds, _⟩ :=
      spawn_is_all_or_nothing reached.reachable sample_guaranteed call permitted 0 0 fun _ => 0
    cases stepped.symm.trans stepped'
    exact ⟨lab, lab', reached.reachable, stepped, succeeds ⟨⟨index, free⟩, enough⟩⟩
  · obtain ⟨lab, reached, call, permitted, few⟩ := short_asks
    obtain ⟨lab', stepped, _, _, leaves⟩ :=
      spawn_is_all_or_nothing reached.reachable (flat_guaranteed 16) call permitted 0 0 fun _ => 0
    have short : ¬codePages sampleImage + 9 ≤ lab.machine.pages.freeCount.toNat := by omega
    exact ⟨lab, lab', reached.reachable, stepped, leaves fun enough => short enough.2⟩

/-- A call writes only the bytes that it hands out, all of which its caller may write; and one
that fails changes nothing, but that a spawn may have advanced the next number and written free
frames. Witness: the ways through the kernel, one case each.
-/
theorem syscalls_write_only_their_output {image : List Byte} {info : BootInfo} {lab lab' : Lab}
    (reached : Reachable image info lab) (guaranteed : info.Guaranteed) {error cr2 : U64}
    {scratch : Stack} (stepped : labStep image (.interrupt 128 error cr2 scratch) lab = .ok ((), lab'))
    : let number := Syscall.ofNumber (lab.cpu.general .rax)
      let result := lab'.cpu.general .rax
      let output := callOutput lab.arguments result number
      (∀ i < output.2,
        ∃ place,
          lab.machine.cpuAccess (lab.tasks lab.current).privateSpace.root true true
              (output.1 + BitVec.ofNat 64 i)
            = some place)
      ∧ (∀ index byte,
          lab.InPage index byte
          → (∀ i < output.2,
              lab.machine.cpuAccess (lab.tasks lab.current).privateSpace.root true true
                  (output.1 + BitVec.ofNat 64 i)
                ≠ some byte)
          → lab'.machine.memory byte = lab.machine.memory byte)
      ∧ ((∀ name ∈ [Syscall.wait, .exit, .ticks], number ≠ some name)
        → result.msb = true
        → lab.Refused lab' ∧ (number ≠ some .spawn → lab.RefusedAtOnce lab')) := by
  have user := reached.user guaranteed
  have done := ((user.labStep_spec _).ok stepped).2.2
  have range := done.output_range user
  have effect := done.effect user
  have output : lab.output (.interrupt 128 error cr2 scratch) lab'
      = callOutput lab.arguments (lab'.cpu.general .rax)
          (Syscall.ofNumber (lab.cpu.general .rax)) :=
    rfl
  rw [output] at range effect
  unfold Machine.UserRange Machine.userPlace at range
  have bytes := effect.bytes
  unfold Machine.userPlace at bytes
  rw [user.root] at range bytes
  exact ⟨range, bytes, done.refused user rfl⟩

/-- `SYS_MEMORY` returns by whether it may write. -/
theorem InUser.memory_result {image : List Byte} {lab : Lab} (user : InUser image lab)
    (call : Syscall.ofNumber (lab.cpu.general .rax) = some .memory) (error cr2 : U64)
    (scratch : Stack)
    : ∃ lab',
        labStep image (.interrupt 128 error cr2 scratch) lab = .ok ((), lab')
        ∧ lab'.cpu.general .rax
          = if lab.userRange lab.arguments.rdi memoryInfoSize true then 0 else -2 := by
  have immediate : Syscall.Immediate (Syscall.ofNumber (lab.cpu.general .rax)) := by
    rw [call]
    exact ⟨by decide, by decide, by decide⟩
  obtain ⟨value, served, _, called, stepped⟩ := user.call_serves immediate error cr2 scratch
  refine ⟨_, stepped, (served.finished_result ..).trans ?_⟩
  rw [← lab.entered_userRange 128 error scratch]
  rw [call] at called
  cases called with
  | refused buffer refuses =>
      cases buffer
      rw [refuses]
      rfl
  | memory accepted => rw [if_pos accepted]

/-- `init` asks for the counts of frames, once into its data and once into its code. -/
theorem syscalls_write_only_their_output_on_sample
    : ∃ lab told refused,
        Reachable sampleImage sampleInfo lab
        ∧ labStep sampleImage (.interrupt 128 0 0 fun _ => 0) (lab.calling 14 userData)
          = .ok ((), told)
        ∧ labStep sampleImage (.interrupt 128 0 0 fun _ => 0) (lab.calling 14 userCode)
          = .ok ((), refused)
        ∧ (∀ i < 16,
            ∃ place,
              lab.machine.cpuAccess (lab.tasks lab.current).privateSpace.root true true
                  (userData + BitVec.ofNat 64 i)
                = some place)
        ∧ (∀ index byte,
            lab.InPage index byte
            → (∀ i < 16,
                lab.machine.cpuAccess (lab.tasks lab.current).privateSpace.root true true
                    (userData + BitVec.ofNat 64 i)
                  ≠ some byte)
            → told.machine.memory byte = lab.machine.memory byte)
        ∧ (lab.calling 14 userCode).Refused refused
        ∧ (lab.calling 14 userCode).RefusedAtOnce refused := by
  obtain ⟨machine, paged, free⟩ := sample_paged
  have pages := sample_codePages
  obtain ⟨lab, reached, _⟩ :=
    boots sample_cold sample_guaranteed rfl sample_sized paged (by omega)
  have reached₁ := (reached.calling 14 userData).reachable
  have reached₂ := (reached.calling 14 userCode).reachable
  have user₁ := reached₁.user sample_guaranteed
  have user₂ := reached₂.user sample_guaranteed
  obtain ⟨told, stepped₁, result₁⟩ := user₁.memory_result rfl 0 0 fun _ => 0
  obtain ⟨refused, stepped₂, result₂⟩ := user₂.memory_result rfl 0 0 fun _ => 0
  have data : (lab.calling 14 userData).arguments.rdi = userData := rfl
  have code : (lab.calling 14 userCode).arguments.rdi = userCode := rfl
  have positive : 0 < memoryInfoSize.toNat := by decide
  rw [data, user₁.toConsistent.userRange_data user₁.toSelected positive (by decide) true] at result₁
  rw [code, user₂.toConsistent.userRange_code user₂.toSelected positive] at result₂
  obtain ⟨range, kept, _⟩ :=
    syscalls_write_only_their_output reached₁ sample_guaranteed stepped₁
  obtain ⟨_, _, fails⟩ :=
    syscalls_write_only_their_output reached₂ sample_guaranteed stepped₂
  have output : callOutput (lab.calling 14 userData).arguments (told.cpu.general .rax)
      (Syscall.ofNumber ((lab.calling 14 userData).cpu.general .rax)) = (userData, 16) := by
    rw [result₁]
    rfl
  rw [output] at range kept
  rw [if_neg Bool.false_ne_true] at result₂
  obtain ⟨nothing, atOnce⟩ := fails
    (show ∀ name ∈ [Syscall.wait, .exit, .ticks], some Syscall.memory ≠ some name by decide)
    (by rw [result₂]; decide)
  exact ⟨lab, told, refused, reached.reachable, stepped₁, stepped₂, range, kept, nothing,
    atOnce (show some Syscall.memory ≠ some .spawn by decide)⟩

end MiniLinux
