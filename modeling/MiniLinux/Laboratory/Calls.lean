import MiniLinux.Laboratory.Ending
import MiniLinux.Laboratory.RamFsStreams
import MiniLinux.Laboratory.UserCopy

/-! The calls that return to their caller at once.
Each of them either refuses and changes nothing, or works on the descriptors of the caller, the
bytes that wait in the receiver, the console, and memory that the caller may write.
-/

namespace MiniLinux

open Foundation Foundation.Halting

-----------------------------------------------------------------------------------------
-- Descriptors
-----------------------------------------------------------------------------------------

/-- The streams of some slots, with what must have been delivered. -/
def streamsOf (slots : Slots) : Streams := fun descriptor =>
  if (slots descriptor).used then
    files[(slots descriptor).file]?.map fun file =>
      ⟨file.bytes, file.bytes.take (slots descriptor).offset.toNat⟩
  else none

theorem streamsOf_match {slots : Slots} (valid : ∀ descriptor, (slots descriptor).Valid)
    : (streamsOf slots).Match files slots := by
  intro descriptor
  unfold streamsOf
  cases used : (slots descriptor).used with
  | false => simp
  | true =>
      obtain ⟨file, known, inside⟩ := valid descriptor used
      simp only [if_true, known, Option.map_some]
      refine ⟨used, ⟨file, known, rfl⟩, ?_, List.take_prefix _ _⟩
      rw [List.length_take]
      exact (Nat.min_eq_left inside).symm

theorem Streams.Match.valid {streams : Streams} {slots : Slots} (holds : streams.Match files slots)
    (descriptor : Descriptor)
    : (slots descriptor).Valid := by
  intro used
  cases stream : streams descriptor with
  | none => cases used.symm.trans (holds.closed stream)
  | some stream' =>
      obtain ⟨_, ⟨file, known, contents⟩, offset, part⟩ := holds.opened stream
      refine ⟨file, known, ?_⟩
      rw [offset, contents]
      exact part.length_le

/-- The calls of `ramfs.c` on valid descriptors stay inside the files. -/
theorem fileCall_valid {slots : Slots} (valid : ∀ descriptor, (slots descriptor).Valid)
    (call : FileCall)
    : ∃ reply slots',
        fileCall files slots call = some (reply, slots')
        ∧ reply.Right files (streamsOf slots) call
        ∧ (∀ descriptor, (slots' descriptor).Valid)
        ∧ Touches slots call reply slots' := by
  obtain ⟨reply, slots', called, right, holds, touches⟩ :=
    (streamsOf_match valid).answered files_bounded call
  exact ⟨reply, slots', called, right, holds.valid, touches⟩

theorem ramfsOpen_valid {slots : Slots} (valid : ∀ descriptor, (slots descriptor).Valid)
    (name : List Byte) (descriptor : Descriptor)
    : ((ramfsOpen files slots name).2 descriptor).Valid := by
  obtain ⟨_, _, called, _, valid', _⟩ := fileCall_valid valid (.open name)
  cases called
  exact valid' descriptor

theorem ramfsClose_valid {slots : Slots} (valid : ∀ descriptor, (slots descriptor).Valid)
    (fd : U64) (descriptor : Descriptor)
    : ((ramfsClose slots fd).2 descriptor).Valid := by
  obtain ⟨_, _, called, _, valid', _⟩ := fileCall_valid valid (.close fd)
  cases called
  exact valid' descriptor

/-- A read is never outside the files, and copies no more than was asked for. -/
theorem ramfsRead_valid {slots : Slots} (valid : ∀ descriptor, (slots descriptor).Valid)
    (fd length : U64)
    : ∃ result bytes slots',
        ramfsRead files slots fd length = some (result, bytes, slots')
        ∧ bytes.length ≤ length.toNat
        ∧ ∀ descriptor, (slots' descriptor).Valid := by
  obtain ⟨reply, slots', called, right, valid', _⟩ := fileCall_valid valid (.read fd length)
  obtain ⟨⟨result, bytes, slots''⟩, found, same⟩ := Option.map_eq_some_iff.mp called
  cases same
  refine ⟨result, bytes, slots', found, ?_, valid'⟩
  obtain ⟨_, closed, opened⟩ := right
  cases stream : (streamsOf slots).at fd with
  | none =>
      rw [show bytes = [] from closed stream]
      exact Nat.zero_le _
  | some stream' =>
      obtain ⟨count, _, length_eq, _⟩ := opened stream' stream
      rw [show bytes.length = result.toNat from length_eq]
      exact count.trans_le (Nat.min_le_left _ _)

-----------------------------------------------------------------------------------------
-- What a call does
-----------------------------------------------------------------------------------------

namespace Lab

/-- The state with other descriptors of the current task. -/
def withFiles (lab : Lab) (slots : Slots) : Lab :=
  lab.withTask lab.current fun task => { task with files := slots }

/-- The state after bytes were sent to COM1. -/
def printed (lab : Lab) (bytes : List Byte) : Lab :=
  { lab with console := { lab.console with com1 := lab.console.com1 ++ serialBytes bytes } }

end Lab

/-- The calls that check a buffer first, with the buffer and whether they write to it. -/
def Syscall.buffer (arguments : Arguments) : Syscall → Option (U64 × U64 × Bool)
  | .write => some (arguments.rdi, arguments.rsi, false)
  | .open => some (arguments.rdi, arguments.rsi, false)
  | .read => some (arguments.rsi, arguments.rdx, true)
  | .input => some (arguments.rdi, 1, true)
  | .process => some (arguments.rsi, processInfoSize, true)
  | .file => some (arguments.rsi, BitVec.ofNat 64 fileInfoSize, true)
  | .memory => some (arguments.rdi, memoryInfoSize, true)
  | _ => none

/-- The results and effects of the calls. Each constructor is one way through the code. -/
inductive Called (image : List Byte) (lab : Lab) (arguments : Arguments)
    : Option Syscall → U64 → Lab → Prop
  | taskId : Called image lab arguments (some .taskId) (wide lab.taskCurrent.id) lab
  | program : Called image lab arguments (some .program) lab.taskCurrent.program.number lab
  | ticks : Called image lab arguments (some .ticks) lab.ticks lab
  | unknown : Called image lab arguments none (-1) lab
  | report : Called image lab arguments (some .report) (-1) lab
  | refused {call : Syscall} {address length : U64} {writing : Bool}
      (buffer : call.buffer arguments = some (address, length, writing))
      (refuses : lab.userRange address length writing = false)
      : Called image lab arguments (some call) (-2) lab
  | write {bytes : List Byte} (length : bytes.length = arguments.rsi.toNat)
      (accepted : lab.userRange arguments.rdi arguments.rsi false = true)
      : Called image lab arguments (some .write) arguments.rsi (lab.printed bytes)
  | opened {name : List Byte} (length : name.length = arguments.rsi.toNat)
      (accepted : lab.userRange arguments.rdi arguments.rsi false = true)
      : Called image lab arguments (some .open) (ramfsOpen files lab.taskCurrent.files name).1
          (lab.withFiles (ramfsOpen files lab.taskCurrent.files name).2)
  | read {result : U64} {bytes : List Byte} {slots : Slots}
      (accepted : lab.userRange arguments.rsi arguments.rdx true = true)
      (found
        : ramfsRead files lab.taskCurrent.files arguments.rdi arguments.rdx
          = some (result, bytes, slots))
      (length : bytes.length ≤ arguments.rdx.toNat)
      : Called image lab arguments (some .read) result
          ((lab.stored arguments.rsi bytes).withFiles slots)
  | close
      : Called image lab arguments (some .close)
          (ramfsClose lab.taskCurrent.files arguments.rdi).1
          (lab.withFiles (ramfsClose lab.taskCurrent.files arguments.rdi).2)
  | noInput (accepted : lab.userRange arguments.rdi 1 true = true) (nothing : lab.received = [])
      : Called image lab arguments (some .input) (-6) lab
  | input {byte : Byte} {rest : List Byte}
      (accepted : lab.userRange arguments.rdi 1 true = true)
      (waiting : lab.received = byte :: rest)
      : Called image lab arguments (some .input) 1
          (({ lab with received := rest } : Lab).stored arguments.rdi [byte])
  | noProcess (accepted : lab.userRange arguments.rsi processInfoSize true = true)
      (missing
        : ∀ index : TaskIndex,
            index.val = arguments.rdi.toNat → (lab.tasks index).state = .unused)
      : Called image lab arguments (some .process) 0 lab
  | process {index : TaskIndex}
      (accepted : lab.userRange arguments.rsi processInfoSize true = true)
      (named : index.val = arguments.rdi.toNat) (used : (lab.tasks index).state ≠ .unused)
      : Called image lab arguments (some .process) 1
          (lab.stored arguments.rsi (lab.tasks index).info)
  | noFile (accepted : lab.userRange arguments.rsi (BitVec.ofNat 64 fileInfoSize) true = true)
      : Called image lab arguments (some .file) 0 lab
  | file {bytes : List Byte}
      (accepted : lab.userRange arguments.rsi (BitVec.ofNat 64 fileInfoSize) true = true)
      (found : ramfsFile files (arguments.rdi.setWidth 32) = some bytes)
      : Called image lab arguments (some .file) 1 (lab.stored arguments.rsi bytes)
  | memory (accepted : lab.userRange arguments.rdi memoryInfoSize true = true)
      : Called image lab arguments (some .memory) 0
          (lab.stored arguments.rdi lab.machine.pageInfo.bytes)
  | inspect
      : Called image lab arguments (some .inspect) 0 (lab.traced (lab.inspectRecords image))

section Calls

variable {image : List Byte} {lab : Lab} {arguments : Arguments}

theorem sysWrite_spec (consistent : Consistent image lab.live lab) (selected : lab.Selected)
    : ∃ value lab',
        sysWrite arguments lab = .ok (value, lab')
        ∧ Called image lab arguments (some .write) value lab' := by
  unfold sysWrite
  rw [bind_get_apply]
  cases accepted : lab.userRange arguments.rdi arguments.rsi false with
  | false => exact ⟨_, _, rfl, .refused rfl accepted⟩
  | true =>
      obtain ⟨bytes, loaded, length⟩ := loadUserBytes_ok (consistent.userRange selected accepted)
      refine ⟨_, _, (bind_ok loaded _).trans rfl, .write length accepted⟩

theorem sysOpen_spec (consistent : Consistent image lab.live lab) (selected : lab.Selected)
    : ∃ value lab',
        sysOpen arguments lab = .ok (value, lab')
        ∧ Called image lab arguments (some .open) value lab' := by
  unfold sysOpen
  rw [bind_get_apply]
  cases accepted : lab.userRange arguments.rdi arguments.rsi false with
  | false => exact ⟨_, _, rfl, .refused rfl accepted⟩
  | true =>
      obtain ⟨name, loaded, length⟩ := loadUserBytes_ok (consistent.userRange selected accepted)
      exact ⟨_, _, (bind_ok loaded _).trans rfl, .opened length accepted⟩

theorem sysRead_spec (consistent : Consistent image lab.live lab) (selected : lab.Selected)
    : ∃ value lab',
        sysRead arguments lab = .ok (value, lab')
        ∧ Called image lab arguments (some .read) value lab' := by
  unfold sysRead
  rw [bind_get_apply]
  cases accepted : lab.userRange arguments.rsi arguments.rdx true with
  | false => exact ⟨_, _, rfl, .refused rfl accepted⟩
  | true =>
      obtain ⟨result, bytes, slots, found, length, _⟩ :=
        ramfsRead_valid (consistent.descriptors lab.current) arguments.rdi arguments.rdx
      have range := consistent.userRange selected accepted
      have stored : storeUserBytes arguments.rsi bytes lab
          = .ok ((), lab.stored arguments.rsi bytes) :=
        consistent.storeUserBytes_ok selected fun i inside => range i (inside.trans_le length)
      refine ⟨_, _, ?_, .read accepted found length⟩
      simp only [if_true, Lab.taskCurrent, found]
      exact (bind_ok stored _).trans rfl

theorem sysInput_spec (consistent : Consistent image lab.live lab) (selected : lab.Selected)
    : ∃ value lab',
        sysInput arguments lab = .ok (value, lab')
        ∧ Called image lab arguments (some .input) value lab' := by
  unfold sysInput
  rw [bind_get_apply]
  cases accepted : lab.userRange arguments.rdi 1 true with
  | false => exact ⟨_, _, rfl, .refused rfl accepted⟩
  | true =>
      cases waiting : lab.received with
      | nil =>
          have read : serialReadChar lab = .ok (none, lab) := by
            rw [serialReadChar, bind_get_apply, waiting]
            rfl
          exact ⟨_, _, (bind_ok read _).trans rfl, .noInput accepted waiting⟩
      | cons byte rest =>
          have read : serialReadChar lab = .ok (some byte, { lab with received := rest }) := by
            rw [serialReadChar, bind_get_apply, waiting]
            rfl
          have range : ({ lab with received := rest } : Lab).machine.UserRange true arguments.rdi 1 :=
            consistent.userRange selected accepted
          exact ⟨_, _, (bind_ok read _).trans ((bind_ok (storeUser_ok range byte) _).trans rfl),
            .input accepted waiting⟩

theorem sysProcess_spec (consistent : Consistent image lab.live lab) (selected : lab.Selected)
    : ∃ value lab',
        sysProcess arguments lab = .ok (value, lab')
        ∧ Called image lab arguments (some .process) value lab' := by
  unfold sysProcess
  rw [bind_get_apply]
  cases accepted : lab.userRange arguments.rsi processInfoSize true with
  | false => exact ⟨_, _, rfl, .refused rfl accepted⟩
  | true =>
      simp only [if_true]
      by_cases inside : arguments.rdi.toNat < 8
      · rw [dif_pos inside]
        by_cases unused : (lab.tasks ⟨arguments.rdi.toNat, inside⟩).state = .unused
        · rw [if_pos unused]
          refine ⟨_, _, rfl, .noProcess accepted ?_⟩
          intro index named
          rw [show index = ⟨arguments.rdi.toNat, inside⟩ from Fin.ext named]
          exact unused
        · rw [if_neg unused]
          have range := consistent.userRange selected accepted
          exact ⟨_, _, (bind_ok (consistent.storeUserBytes_ok selected range) _).trans rfl,
            .process accepted rfl unused⟩
      · rw [dif_neg inside]
        refine ⟨_, _, rfl, .noProcess accepted ?_⟩
        intro index named
        exact absurd (named ▸ index.isLt) inside

theorem ramfsFile_length {index : U32} {bytes : List Byte} (found : ramfsFile files index = some bytes)
    : bytes.length = fileInfoSize := by
  obtain ⟨file, known, same⟩ := Option.map_eq_some_iff.mp found
  have sizes : ∀ file ∈ files, file.info.length = fileInfoSize := by decide
  exact same ▸ sizes file (List.mem_of_getElem? known)

theorem sysFile_spec (consistent : Consistent image lab.live lab) (selected : lab.Selected)
    : ∃ value lab',
        sysFile arguments lab = .ok (value, lab')
        ∧ Called image lab arguments (some .file) value lab' := by
  unfold sysFile
  rw [bind_get_apply]
  cases accepted : lab.userRange arguments.rsi (BitVec.ofNat 64 fileInfoSize) true with
  | false => exact ⟨_, _, rfl, .refused rfl accepted⟩
  | true =>
      simp only [if_true]
      by_cases large : arguments.rdi.toNat > 0xffffffff
      · rw [if_pos large]
        exact ⟨_, _, rfl, .noFile accepted⟩
      · rw [if_neg large]
        cases found : ramfsFile files (arguments.rdi.setWidth 32) with
        | none => exact ⟨_, _, rfl, .noFile accepted⟩
        | some bytes =>
            have range := consistent.userRange selected accepted
            have length : bytes.length = (BitVec.ofNat 64 fileInfoSize).toNat :=
              ramfsFile_length found
            rw [← length] at range
            exact ⟨_, _, (bind_ok (consistent.storeUserBytes_ok selected range) _).trans rfl,
              .file accepted found⟩

theorem sysMemory_spec (consistent : Consistent image lab.live lab) (selected : lab.Selected)
    : ∃ value lab',
        sysMemory arguments lab = .ok (value, lab')
        ∧ Called image lab arguments (some .memory) value lab' := by
  unfold sysMemory
  rw [bind_get_apply]
  cases accepted : lab.userRange arguments.rdi memoryInfoSize true with
  | false => exact ⟨_, _, rfl, .refused rfl accepted⟩
  | true =>
      have range := consistent.userRange selected accepted
      exact ⟨_, _, (bind_ok (consistent.storeUserBytes_ok selected range) _).trans rfl,
        .memory accepted⟩

/-- The calls that are served at once. -/
def Syscall.Immediate (call : Option Syscall) : Prop :=
  call ≠ some .spawn ∧ call ≠ some .wait ∧ call ≠ some .exit

/-- The calls, one case each. -/
theorem syscallResult_spec (consistent : Consistent image lab.live lab) (selected : lab.Selected)
    {call : Option Syscall} (immediate : Syscall.Immediate call)
    : ∃ value lab',
        syscallResult image arguments call lab = .ok (value, lab')
        ∧ Called image lab arguments call value lab' := by
  obtain ⟨notSpawn, notWait, notExit⟩ := immediate
  match call with
  | none => exact ⟨_, _, rfl, .unknown⟩
  | some .taskId => exact ⟨_, _, rfl, .taskId⟩
  | some .program => exact ⟨_, _, rfl, .program⟩
  | some .ticks => exact ⟨_, _, rfl, .ticks⟩
  | some .report => exact ⟨_, _, rfl, .report⟩
  | some .write => exact sysWrite_spec consistent selected
  | some .open => exact sysOpen_spec consistent selected
  | some .read => exact sysRead_spec consistent selected
  | some .close => exact ⟨_, _, rfl, .close⟩
  | some .input => exact sysInput_spec consistent selected
  | some .process => exact sysProcess_spec consistent selected
  | some .file => exact sysFile_spec consistent selected
  | some .memory => exact sysMemory_spec consistent selected
  | some .inspect =>
      have reported := consistent.partition.inspect_reports consistent.sized
      exact ⟨_, _, (bind_ok reported _).trans rfl, .inspect⟩
  | some .spawn => exact absurd rfl notSpawn
  | some .wait => exact absurd rfl notWait
  | some .exit => exact absurd rfl notExit

end Calls

end MiniLinux
