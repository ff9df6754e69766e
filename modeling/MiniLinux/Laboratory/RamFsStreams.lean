import MiniLinux.Foundation.Sessions
import MiniLinux.Laboratory.RamFs

/-! The descriptors of `kernel/ramfs.c` refine streams.
A stream is what a client can tell of an open file from the calls alone: the contents, and
the bytes that its reads have delivered. Every run of calls of any tasks is answered as the
streams say, and the slots hold no more than the streams' lengths.
-/

namespace MiniLinux

open Foundation Foundation.Halting

/-- A call on the descriptors of a task. -/
inductive FileCall where
  | open (name : List Byte)
  | read (fd length : U64)
  | close (fd : U64)

/-- The result, and the bytes that were copied to the caller. -/
structure FileReply where
  result : U64
  bytes : List Byte

/-- A call on the slots of one task; `none` is an access outside the files. -/
def fileCall (files : List File) (slots : Slots) : FileCall → Option (FileReply × Slots)
  | .open name =>
      let (result, slots) := ramfsOpen files slots name
      some (⟨result, []⟩, slots)
  | .read fd length =>
      (ramfsRead files slots fd length).map fun (result, bytes, slots) => (⟨result, bytes⟩, slots)
  | .close fd =>
      let (result, slots) := ramfsClose slots fd
      some (⟨result, []⟩, slots)

/-- A call by one of several tasks on its own slots. -/
def taskFileCall {ι : Type} [DecidableEq ι] (files : List File) (request : ι × FileCall)
    : Halting Halt (ι → Slots) FileReply := do
  let tasks ← get
  match fileCall files (tasks request.1) request.2 with
  | none => halt .outOfBounds
  | some (reply, slots) => do
      set (Function.update tasks request.1 slots)
      pure reply

-----------------------------------------------------------------------------------------
-- Streams
-----------------------------------------------------------------------------------------

/-- An open file: all its bytes, and those that were read. -/
structure Stream where
  contents : List Byte
  delivered : List Byte

/-- The streams of the descriptors of a task. -/
abbrev Streams := Descriptor → Option Stream

/-- The descriptor that a number names. -/
def descriptorOf (fd : U64) : Option Descriptor :=
  if inside : fd.toNat < 2 then some ⟨fd.toNat, inside⟩ else none

/-- A number names an open stream. -/
def Streams.at (streams : Streams) (fd : U64) : Option Stream := (descriptorOf fd).bind streams

/-- The streams after a call and its reply. A successful open starts a stream of the first
file of the name, a read delivers the bytes of its reply, and a close ends the stream.
-/
def Streams.advance (files : List File) (streams : Streams) (call : FileCall) (reply : FileReply)
    : Streams :=
  match call with
  | .open name =>
      match files.find? fun file => file.name = name, descriptorOf reply.result with
      | some file, some descriptor => Function.update streams descriptor (some ⟨file.bytes, []⟩)
      | _, _ => streams
  | .read fd _ =>
      match descriptorOf fd with
      | none => streams
      | some descriptor =>
          Function.update streams descriptor
            ((streams descriptor).map fun stream =>
              { stream with delivered := stream.delivered ++ reply.bytes })
  | .close fd =>
      match descriptorOf fd with
      | none => streams
      | some descriptor => Function.update streams descriptor none

/-- The number of the descriptor that a call is about. -/
def FileCall.about (reply : FileReply) : FileCall → U64
  | .open _ => reply.result
  | .read fd _ => fd
  | .close fd => fd

/-- What the streams say of a reply. -/
def FileReply.Right (files : List File) (streams : Streams) (reply : FileReply)
    : FileCall → Prop
  | .open name =>
      (reply.result = -4 ↔ ∀ file ∈ files, file.name ≠ name)
      ∧ (reply.result = -5
        ↔ (∃ file ∈ files, file.name = name) ∧ ∀ descriptor, streams descriptor ≠ none)
      ∧ ((∃ file ∈ files, file.name = name)
        → ∀ descriptor,
            streams descriptor = none
            → (∀ lower < descriptor, streams lower ≠ none)
            → reply.result = BitVec.ofNat 64 descriptor.val)
      ∧ reply.bytes = []
  | .read fd length =>
      (reply.result = -3 ↔ streams.at fd = none)
      ∧ (streams.at fd = none → reply.bytes = [])
      ∧ ∀ stream,
          streams.at fd = some stream
          → reply.result.toNat
              = min length.toNat (stream.contents.length - stream.delivered.length)
            ∧ reply.bytes
              = (stream.contents.drop stream.delivered.length).take reply.result.toNat
            ∧ reply.bytes.length = reply.result.toNat
            ∧ (reply.result = 0 → length ≠ 0 → stream.delivered = stream.contents)
  | .close fd =>
      (reply.result = -3 ↔ streams.at fd = none)
      ∧ (streams.at fd ≠ none → reply.result = 0)
      ∧ reply.bytes = []

/-- The slot of an open stream. -/
structure Stream.Holds (files : List File) (stream : Stream) (slot : OpenFile) : Prop where
  used : slot.used = true
  file : ∃ file, files[slot.file]? = some file ∧ file.bytes = stream.contents
  offset : slot.offset.toNat = stream.delivered.length
  part : stream.delivered <+: stream.contents

/-- The slots are those of the streams. -/
def Streams.Match (files : List File) (streams : Streams) (slots : Slots) : Prop :=
  ∀ descriptor,
    match streams descriptor with
    | none => (slots descriptor).used = false
    | some stream => stream.Holds files (slots descriptor)

/-- No file is larger than an object in memory can be: its length is a positive `int64_t`. -/
def Bounded (files : List File) : Prop := ∀ file ∈ files, file.bytes.length < 2 ^ 63

-----------------------------------------------------------------------------------------
-- One call
-----------------------------------------------------------------------------------------

namespace Streams.Match

variable {files : List File} {streams : Streams} {slots : Slots}

theorem closed (holds : streams.Match files slots) {descriptor : Descriptor}
    (none : streams descriptor = none)
    : (slots descriptor).used = false := by
  have here := holds descriptor
  rw [none] at here
  exact here

theorem opened (holds : streams.Match files slots) {descriptor : Descriptor} {stream : Stream}
    (some : streams descriptor = some stream)
    : stream.Holds files (slots descriptor) := by
  have here := holds descriptor
  rw [some] at here
  exact here

theorem used_iff (holds : streams.Match files slots) (descriptor : Descriptor)
    : (slots descriptor).used = true ↔ streams descriptor ≠ none := by
  cases stream : streams descriptor with
  | none => simp [holds.closed stream]
  | some stream => simp [(holds.opened stream).used]

/-- The test of `ramfs_read` and `ramfs_close`. -/
theorem usedSlot_eq (holds : streams.Match files slots) (fd : U64)
    : usedSlot slots fd = if streams.at fd = none then none else descriptorOf fd := by
  unfold usedSlot Streams.at descriptorOf
  split
  · next inside =>
      have used := holds.used_iff ⟨fd.toNat, inside⟩
      rw [Option.bind_some]
      by_cases open' : streams ⟨fd.toNat, inside⟩ = none
      · rw [if_pos open', if_neg]
        exact fun is => (used.mp is) open'
      · rw [if_neg open', if_pos (used.mpr open')]
  · simp

/-- Changing one slot with its stream. -/
theorem update (holds : streams.Match files slots) (descriptor : Descriptor)
    {stream : Option Stream} {slot : OpenFile}
    (here
      : match stream with
        | none => slot.used = false
        | some stream => stream.Holds files slot)
    : Streams.Match files (Function.update streams descriptor stream)
        (Function.update slots descriptor slot) := by
  intro other
  rcases eq_or_ne other descriptor with same | different
  · subst same
    rw [Function.update_self, Function.update_self]
    exact here
  · rw [Function.update_of_ne different, Function.update_of_ne different]
    exact holds other

/-- The lowest closed descriptor is the first unused slot. -/
theorem freeSlot_eq (holds : streams.Match files slots) {descriptor : Descriptor}
    : freeSlot slots = some descriptor
      ↔ streams descriptor = none ∧ ∀ lower < descriptor, streams lower ≠ none := by
  have unused (other : Descriptor) : (slots other).used = false ↔ streams other = none := by
    have used := holds.used_iff other
    cases open' : (slots other).used <;> simp_all
  have first : freeSlot slots
      = if (slots 0).used = false then some 0
        else if (slots 1).used = false then some 1 else none := by
    unfold freeSlot
    change List.find? (fun descriptor => !(slots descriptor).used) [0, 1] = _
    cases zero : (slots 0).used <;> cases one : (slots 1).used <;> simp [zero, one]
  rw [first]
  simp only [unused]
  fin_cases descriptor
  · by_cases zero : streams 0 = none <;> by_cases one : streams 1 = none <;> simp [zero, one]
  · by_cases zero : streams 0 = none <;> by_cases one : streams 1 = none
    all_goals simp [zero, one, Fin.lt_def]

end Streams.Match

/-- What a call may change: nothing if it fails, and never another descriptor. -/
structure Touches (slots : Slots) (call : FileCall) (reply : FileReply) (slots' : Slots)
    : Prop where
  failed : reply.result.toInt < 0 → slots' = slots
  others
    : ∀ descriptor : Descriptor,
        descriptor.val ≠ (call.about reply).toNat → slots' descriptor = slots descriptor

theorem Touches.refl (slots : Slots) (call : FileCall) (reply : FileReply)
    : Touches slots call reply slots :=
  ⟨fun _ => rfl, fun _ _ => rfl⟩

theorem touches_update {slots : Slots} {call : FileCall} {reply : FileReply}
    {descriptor : Descriptor} {slot : OpenFile} (succeeded : 0 ≤ reply.result.toInt)
    (about : (call.about reply).toNat = descriptor.val)
    : Touches slots call reply (Function.update slots descriptor slot) where
  failed negative := absurd negative (Int.not_lt.mpr succeeded)
  others other different := by
    apply Function.update_of_ne
    intro same
    exact different (same ▸ about.symm)

/-- A call that is answered rightly and leaves slots and streams in agreement. -/
def Answered (files : List File) (streams : Streams) (slots : Slots) (call : FileCall) : Prop :=
  ∃ reply slots',
    fileCall files slots call = some (reply, slots')
    ∧ reply.Right files streams call
    ∧ (streams.advance files call reply).Match files slots'
    ∧ Touches slots call reply slots'

namespace Streams.Match

variable {files : List File} {streams : Streams} {slots : Slots}

/-- A number that no descriptor has. -/
theorem descriptorOf_refused {value : U64} (large : 2 ≤ value.toNat) : descriptorOf value = none :=
  dif_neg (Nat.not_lt.mpr large)

theorem descriptorOf_val (descriptor : Descriptor)
    : descriptorOf (BitVec.ofNat 64 descriptor.val) = some descriptor := by
  fin_cases descriptor <;> rfl

theorem open_answered (holds : streams.Match files slots) (name : List Byte)
    : Answered files streams slots (.open name) := by
  cases found : files.findIdx? fun file => file.name = name with
  | none =>
      have absent : ∀ file ∈ files, file.name ≠ name := by
        simpa using List.findIdx?_eq_none_iff.mp found
      have missing : ¬∃ file ∈ files, file.name = name := by
        rintro ⟨file, member, same⟩
        exact absent file member same
      have refused : fileCall files slots (.open name) = some (⟨-4, []⟩, slots) := by
        simp only [fileCall, ramfsOpen, found]
      refine ⟨⟨-4, []⟩, slots, refused, ⟨iff_of_true rfl absent, ?_, ?_, rfl⟩, ?_, .refl ..⟩
      · exact iff_of_false (by decide) fun both => missing both.1
      · exact fun known => absurd known missing
      · have unknown : (files.find? fun file => file.name = name) = none := by
          simpa using absent
        rw [advance, unknown]
        exact holds
  | some index =>
      obtain ⟨inside, first, before⟩ := List.findIdx?_eq_some_iff_getElem.mp found
      have same : files[index].name = name := of_decide_eq_true first
      have known : ∃ file ∈ files, file.name = name := ⟨_, List.getElem_mem inside, same⟩
      have present : ¬∀ file ∈ files, file.name ≠ name := by
        intro absent
        exact absent _ (List.getElem_mem inside) same
      have chosen : (files.find? fun file => file.name = name) = some files[index] := by
        refine List.find?_eq_some_iff_getElem.mpr ⟨first, index, inside, rfl, ?_⟩
        intro earlier lower
        simpa using before earlier lower
      cases free : freeSlot slots with
      | none =>
          have full : ∀ descriptor, streams descriptor ≠ none := by
            have refused (descriptor : Descriptor)
                : ¬(streams descriptor = none ∧ ∀ lower < descriptor, streams lower ≠ none) := by
              intro lowest
              rw [← holds.freeSlot_eq, free] at lowest
              cases lowest
            intro descriptor
            induction descriptor using Fin.induction with
            | zero => exact fun none => refused 0 ⟨none, fun lower less => absurd less (by simp)⟩
            | succ previous ih =>
                intro none
                refine refused _ ⟨none, fun lower less => ?_⟩
                have zero : lower = previous.castSucc := by
                  apply Fin.ext
                  have bound := previous.isLt
                  have order := Fin.lt_def.mp less
                  simp only [Fin.val_succ, Fin.val_castSucc] at order ⊢
                  omega
                exact zero ▸ ih
          have refused : fileCall files slots (.open name) = some (⟨-5, []⟩, slots) := by
            simp only [fileCall, ramfsOpen, found, free]
          refine ⟨⟨-5, []⟩, slots, refused, ⟨?_, iff_of_true rfl ⟨known, full⟩, ?_, rfl⟩, ?_, .refl ..⟩
          · exact iff_of_false (by decide) present
          · exact fun _ descriptor closed => absurd closed (full descriptor)
          · rw [advance, chosen, descriptorOf_refused (by decide)]
            exact holds
      | some descriptor =>
          obtain ⟨closed, lowest⟩ := holds.freeSlot_eq.mp free
          have small : ∀ descriptor : Descriptor,
              (BitVec.ofNat 64 descriptor.val).toNat = descriptor.val
              ∧ 0 ≤ (BitVec.ofNat 64 descriptor.val).toInt
              ∧ BitVec.ofNat 64 descriptor.val ≠ -4 ∧ BitVec.ofNat 64 descriptor.val ≠ -5 := by
            decide
          obtain ⟨value, positive, notMissing, notFull⟩ := small descriptor
          have opened : fileCall files slots (.open name)
              = some (⟨BitVec.ofNat 64 descriptor.val, []⟩,
                  Function.update slots descriptor ⟨true, index, 0⟩) := by
            simp only [fileCall, ramfsOpen, found, free]
          refine ⟨⟨BitVec.ofNat 64 descriptor.val, []⟩, _, opened, ⟨?_, ?_, ?_, rfl⟩, ?_,
            touches_update positive value⟩
          · exact iff_of_false notMissing present
          · exact iff_of_false notFull fun both => both.2 descriptor closed
          · intro _ other otherClosed otherLowest
            rcases lt_trichotomy other descriptor with less | same | greater
            · exact absurd otherClosed (lowest other less)
            · rw [same]
            · exact absurd closed (otherLowest descriptor greater)
          · rw [advance, chosen, descriptorOf_val]
            refine holds.update descriptor ⟨rfl, ⟨files[index], ?_, rfl⟩, rfl, List.nil_prefix⟩
            exact List.getElem?_eq_getElem inside

/-- The unsigned subtraction of `ramfs_read` is exact, since no offset exceeds its file. -/
theorem read_answered (holds : streams.Match files slots) (bounded : Bounded files)
    (fd length : U64)
    : Answered files streams slots (.read fd length) := by
  have slot := holds.usedSlot_eq fd
  cases found : streams.at fd with
  | none =>
      rw [found, if_pos rfl] at slot
      have refused : fileCall files slots (.read fd length) = some (⟨-3, []⟩, slots) := by
        simp only [fileCall, ramfsRead, slot, Option.map_some]
      refine ⟨⟨-3, []⟩, slots, refused, ⟨iff_of_true rfl found, fun _ => rfl, ?_⟩, ?_, .refl ..⟩
      · intro stream open'
        rw [found] at open'
        cases open'
      · cases named : descriptorOf fd with
        | none =>
            simp only [advance, named]
            exact holds
        | some descriptor =>
            rw [Streams.at, named, Option.bind_some] at found
            simp only [advance, named, found, Option.map_none]
            rw [← found, Function.update_eq_self]
            exact holds
  | some stream =>
      rw [found, if_neg (Option.some_ne_none stream)] at slot
      obtain ⟨descriptor, named, here⟩ := Option.bind_eq_some_iff.mp found
      obtain ⟨used, ⟨file, known, contents⟩, offset, part⟩ := holds.opened here
      have size : file.bytes.length < 2 ^ 63 := bounded file (List.mem_of_getElem? known)
      have within := part.length_le
      rw [← contents] at within
      have within' : (slots descriptor).offset.toNat ≤ file.bytes.length := offset ▸ within
      obtain ⟨count, count_eq, read⟩ := @ramfsRead_inside files slots fd length descriptor file
        (slot.trans named) known within' (by omega)
      rw [offset] at count_eq read
      let bytes := (file.bytes.drop stream.delivered.length).take count.toNat
      have length_eq : bytes.length = count.toNat := by
        rw [List.length_take, List.length_drop, count_eq]
        omega
      have ran : fileCall files slots (.read fd length)
          = some (⟨count, bytes⟩,
              Function.update slots descriptor
                { slots descriptor with offset := (slots descriptor).offset + count }) := by
        rw [fileCall, read]
        rfl
      have positive : 0 ≤ count.toInt := by
        rw [BitVec.toInt_eq_toNat_of_lt (by omega)]
        exact Int.natCast_nonneg _
      have about : fd.toNat = descriptor.val := by
        unfold descriptorOf at named
        split at named
        · cases named
          rfl
        · cases named
      refine ⟨⟨count, bytes⟩, _, ran, ⟨?_, ?_, ?_⟩, ?_, touches_update positive about⟩
      · refine iff_of_false ?_ (by simp [found])
        intro negative
        rw [show count = -3 from negative] at positive
        exact absurd positive (by decide)
      · exact fun closed => absurd (found.symm.trans closed) (by simp)
      · intro stream' open'
        cases found.symm.trans open'
        rw [← contents]
        refine ⟨count_eq, rfl, length_eq, ?_⟩
        intro zero some
        have none : count.toNat = 0 := congrArg BitVec.toNat zero
        have request : length.toNat ≠ 0 := fun zero => some (BitVec.eq_of_toNat_eq zero)
        rw [contents] at count_eq within ⊢
        exact part.eq_of_length (by omega)
      · simp only [advance, named, here, Option.map_some]
        refine holds.update descriptor ⟨used, ⟨file, known, contents⟩, ?_, ?_⟩
        · change ((slots descriptor).offset + count).toNat = (stream.delivered ++ bytes).length
          rw [List.length_append, length_eq, BitVec.toNat_add_of_lt, offset]
          rw [offset]
          omega
        · obtain ⟨rest, whole⟩ := part
          change stream.delivered ++ bytes <+: stream.contents
          rw [← whole, List.prefix_append_right_inj]
          have dropped : file.bytes.drop stream.delivered.length = rest := by
            rw [contents, ← whole, List.drop_left]
          change (file.bytes.drop stream.delivered.length).take count.toNat <+: rest
          rw [dropped]
          exact List.take_prefix _ _

theorem close_answered (holds : streams.Match files slots) (fd : U64)
    : Answered files streams slots (.close fd) := by
  have slot := holds.usedSlot_eq fd
  cases found : streams.at fd with
  | none =>
      rw [found, if_pos rfl] at slot
      have refused : fileCall files slots (.close fd) = some (⟨-3, []⟩, slots) := by
        simp only [fileCall, ramfsClose, slot]
      refine ⟨⟨-3, []⟩, slots, refused, ⟨iff_of_true rfl found, ?_, rfl⟩, ?_, .refl ..⟩
      · exact fun open' => absurd found open'
      · cases named : descriptorOf fd with
        | none =>
            simp only [advance, named]
            exact holds
        | some descriptor =>
            rw [Streams.at, named, Option.bind_some] at found
            simp only [advance, named]
            rw [← found, Function.update_eq_self]
            exact holds
  | some stream =>
      rw [found, if_neg (Option.some_ne_none stream)] at slot
      obtain ⟨descriptor, named, here⟩ := Option.bind_eq_some_iff.mp found
      have about : fd.toNat = descriptor.val := by
        unfold descriptorOf at named
        split at named
        · cases named
          rfl
        · cases named
      have closed : fileCall files slots (.close fd)
          = some (⟨0, []⟩,
              Function.update slots descriptor { slots descriptor with used := false }) := by
        simp only [fileCall, ramfsClose, slot, named]
      refine ⟨⟨0, []⟩, _, closed, ⟨?_, fun _ => rfl, rfl⟩, ?_, touches_update (by decide) about⟩
      · exact iff_of_false (by decide) (by simp [found])
      · simp only [advance, named]
        exact holds.update descriptor rfl

theorem answered (holds : streams.Match files slots) (bounded : Bounded files) (call : FileCall)
    : Answered files streams slots call := by
  match call with
  | .open name => exact holds.open_answered name
  | .read fd length => exact holds.read_answered bounded fd length
  | .close fd => exact holds.close_answered fd

end Streams.Match

-----------------------------------------------------------------------------------------
-- Runs
-----------------------------------------------------------------------------------------

variable {ι : Type} [DecidableEq ι]

/-- The streams of all tasks after a call of one of them. -/
def advanceTasks (files : List File) (ledger : ι → Streams) (request : ι × FileCall)
    (reply : FileReply)
    : ι → Streams :=
  Function.update ledger request.1 ((ledger request.1).advance files request.2 reply)

/-- A reply is right, and the call has changed nothing else. -/
def FileRight (files : List File) (ledger : ι → Streams) (tasks : ι → Slots)
    (request : ι × FileCall) (reply : FileReply)
    : Prop :=
  reply.Right files (ledger request.1) request.2
  ∧ ∀ tasks',
      taskFileCall files request tasks = .ok (reply, tasks')
      → (reply.result.toInt < 0 → tasks' = tasks)
        ∧ ∀ task (descriptor : Descriptor),
            task ≠ request.1 ∨ descriptor.val ≠ (request.2.about reply).toNat
            → tasks' task descriptor = tasks task descriptor

theorem taskFileCall_answered {files : List File} (bounded : Bounded files) {ledger : ι → Streams}
    {tasks : ι → Slots} (holds : ∀ task, (ledger task).Match files (tasks task))
    (request : ι × FileCall)
    : ∃ reply tasks',
        taskFileCall files request tasks = .ok (reply, tasks')
        ∧ FileRight files ledger tasks request reply
        ∧ ∀ task, (advanceTasks files ledger request reply task).Match files (tasks' task) := by
  obtain ⟨task, call⟩ := request
  obtain ⟨reply, slots, ran, right, kept, touches⟩ := (holds task).answered bounded call
  have result : taskFileCall files (task, call) tasks
      = .ok (reply, Function.update tasks task slots) := by
    rw [taskFileCall, bind_get_apply, ran]
    rfl
  refine ⟨reply, _, result, ⟨right, ?_⟩, ?_⟩
  · intro tasks' again
    cases result.symm.trans again
    constructor
    · intro negative
      rw [touches.failed negative, Function.update_eq_self]
    · intro other descriptor apart
      rcases eq_or_ne other task with same | different
      · subst same
        rw [Function.update_self]
        exact touches.others descriptor (apart.resolve_left fun no => no rfl)
      · rw [Function.update_of_ne different]
  · intro other
    rcases eq_or_ne other task with same | different
    · subst same
      rw [advanceTasks, Function.update_self, Function.update_self]
      exact kept
    · rw [advanceTasks, Function.update_of_ne different, Function.update_of_ne different]
      exact holds other

/-- For any table of files and every run of calls by any number of tasks, each reply is that of
the streams and no call leaves the files. After the run, every used slot is that of a stream:
what was read since it was opened is a first part of the file, as long as the slot's offset.
-/
theorem ramfs_refines_streams {files : List File} (bounded : Bounded files)
    (requests : List (ι × FileCall))
    : ∃ replies tasks ledger,
        serve (taskFileCall files) requests (fun _ => Slots.zero) = .ok (replies, tasks)
        ∧ Answers (taskFileCall files) (advanceTasks files) (FileRight files)
          (fun _ _ => none) (fun _ => Slots.zero) requests replies
        ∧ ledger = settle (advanceTasks files) (fun _ _ => none) requests replies
        ∧ (∀ task, (ledger task).Match files (tasks task))
        ∧ ∀ task descriptor,
            (tasks task descriptor).used = true
            → ∃ file,
                files[(tasks task descriptor).file]? = some file
                ∧ (tasks task descriptor).offset.toNat ≤ file.bytes.length := by
  have start : ∀ task : ι, Streams.Match files (fun _ => none) Slots.zero :=
    fun _ _ => rfl
  have permitted : ∀ (requests : List (ι × FileCall)) ledger tasks,
      Permitted (taskFileCall files) (advanceTasks files) (fun _ _ _ => True) ledger tasks
        requests := by
    intro requests
    induction requests with
    | nil => exact fun _ _ => trivial
    | cons request rest ih => exact fun _ _ => ⟨trivial, fun _ _ _ => ih _ _⟩
  have step : ∀ ledger (tasks : ι → Slots) request,
      (∀ task, (ledger task).Match files (tasks task))
      → True
      → ∃ reply tasks',
          taskFileCall files request tasks = .ok (reply, tasks')
          ∧ FileRight files ledger tasks request reply
          ∧ ∀ task, (advanceTasks files ledger request reply task).Match files (tasks' task) :=
    fun ledger tasks request holds _ => taskFileCall_answered bounded holds request
  obtain ⟨replies, tasks, served, answers, holds⟩ :=
    serve_answers step requests start (permitted requests _ _)
  refine ⟨replies, tasks, _, served, answers, rfl, holds, ?_⟩
  intro task descriptor used
  cases stream : settle (advanceTasks files) (fun _ _ => none) requests replies task descriptor with
  | none =>
      have unused := (holds task).closed stream
      rw [used] at unused
      cases unused
  | some stream' =>
      obtain ⟨_, ⟨file, known, contents⟩, offset, part⟩ := (holds task).opened stream
      refine ⟨file, known, ?_⟩
      rw [offset, contents]
      exact part.length_le

/-- The kernel's own table. -/
theorem files_bounded : Bounded files := by
  unfold Bounded
  decide

theorem ramfs_refines_streams_on_sample
    : ∃ replies tasks,
        serve (taskFileCall files)
            [(0, .open (textBytes "/hello.txt")), (1, .open (textBytes "/none")),
              (0, .read 0 5), (0, .read 0 100), (1, .close 0)]
            (fun _ : Fin 2 => Slots.zero)
          = .ok (replies, tasks)
        ∧ ∀ task descriptor,
            (tasks task descriptor).used = true
            → ∃ file,
                files[(tasks task descriptor).file]? = some file
                ∧ (tasks task descriptor).offset.toNat ≤ file.bytes.length := by
  obtain ⟨replies, tasks, _, served, _, _, _, inside⟩ :=
    ramfs_refines_streams files_bounded
      [((0 : Fin 2), .open (textBytes "/hello.txt")), (1, .open (textBytes "/none")),
        (0, .read 0 5), (0, .read 0 100), (1, .close 0)]
  exact ⟨replies, tasks, served, inside⟩

end MiniLinux
