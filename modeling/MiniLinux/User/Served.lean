import MiniLinux.User.Execution

/-! `cat` on the laboratory.
The kernel serves the calls of a task on files as its table of files does, and sends what the task
writes, whoever runs between the calls. A pointer stands for the range that the kernel accepts; what
it points at is what the program reads there.
-/

namespace MiniLinux.User

open Foundation Halting Interaction

-----------------------------------------------------------------------------------------
-- The four calls
-----------------------------------------------------------------------------------------

section Kernel

variable {image : List Byte} {lab : Lab} {arguments : Arguments} {writes : List (List Byte)}

/-- The descriptors of the running task. -/
def fileStateOf (lab : Lab) (writes : List (List Byte)) : FileState := ⟨lab.taskCurrent.files, writes⟩

@[simp] theorem withFiles_files (lab : Lab) (slots : Slots)
    : (lab.withFiles slots).taskCurrent.files = slots :=
  congrArg Task.files (Lab.withTask_self ..)

theorem withFiles_text (lab : Lab) (slots : Slots) (address : U64) (count : Nat)
    : (lab.withFiles slots).text address count = lab.text address count := by
  induction count generalizing address with
  | zero => rfl
  | succ count ih =>
      have reads : (lab.withFiles slots).reads lab.current = lab.reads lab.current :=
        Lab.reads_congr rfl ((congrArg Task.privateSpace (Lab.withTask_self ..)).trans rfl)
      rw [Lab.text, Lab.text, ih, show (lab.withFiles slots).current = lab.current from rfl, reads]

/-- How many bytes a read with this result has stored. -/
def readCount (result : U64) : Nat := if (0 : U64).slt result then result.toNat else 0

/-- A short read stores as many bytes as its result says. -/
theorem ramfsRead_count {slots slots' : Slots} {fd length result : U64} {bytes : List Byte}
    (valid : ∀ descriptor, (slots descriptor).Valid)
    (found : ramfsRead files slots fd length = some (result, bytes, slots'))
    (short : length.toNat ≤ copyLimit)
    : bytes.length = readCount result := by
  obtain ⟨reply, _, called, right, _⟩ := fileCall_valid valid (.read fd length)
  rw [fileCall, found] at called
  cases called
  obtain ⟨closed, nothing, opened⟩ := right
  unfold readCount
  cases stream : (streamsOf slots).at fd with
  | none =>
      rw [show result = -3 from closed.mpr stream, show bytes = [] from nothing stream]
      rfl
  | some stream' =>
      obtain ⟨count, _, length_eq, _⟩ := opened stream' stream
      rw [show bytes.length = result.toNat from length_eq]
      have small : result.toNat ≤ copyLimit := count.trans_le ((Nat.min_le_left _ _).trans short)
      split
      · rfl
      · next zero =>
          have sign : result.toInt = result.toNat := by
            refine BitVec.toInt_eq_toNat_of_lt ?_
            simp only [copyLimit] at small
            omega
          simp only [BitVec.slt, decide_eq_true_eq, BitVec.ofNat_eq_ofNat, BitVec.toInt_zero, sign]
            at zero
          omega

/-- `SYS_WRITE` prints what its caller points at. -/
theorem sysWrite_served (consistent : Consistent image lab.live lab) (selected : lab.Selected)
    (accepted : lab.userRange arguments.rdi arguments.rsi false = true)
    : ∃ bytes,
        lab.text arguments.rdi arguments.rsi.toNat = some bytes
        ∧ sysWrite arguments lab = .ok (arguments.rsi, lab.printed bytes)
        ∧ fileReply files (fileStateOf lab writes) (.write bytes)
          = some (⟨arguments.rsi, []⟩, fileStateOf (lab.printed bytes) (writes ++ [bytes])) := by
  have range := consistent.userRange selected accepted
  obtain ⟨bytes, loaded, text⟩ := loadUserBytes_text selected range
  obtain ⟨bytes', loaded', length⟩ := loadUserBytes_ok range
  cases loaded.symm.trans loaded'
  refine ⟨bytes, text, ?_, ?_⟩
  · rw [sysWrite, bind_get_apply, if_pos accepted]
    exact (bind_ok loaded _).trans rfl
  · have short := Lab.userRange_small accepted
    simp only [fileReply, length, short, if_true, BitVec.ofNat_toNat, BitVec.setWidth_eq]
    rfl

/-- `SYS_OPEN` -/
theorem sysOpen_served (consistent : Consistent image lab.live lab) (selected : lab.Selected)
    (accepted : lab.userRange arguments.rdi arguments.rsi false = true)
    : ∃ name value lab',
        lab.text arguments.rdi arguments.rsi.toNat = some name
        ∧ sysOpen arguments lab = .ok (value, lab')
        ∧ fileReply files (fileStateOf lab writes) (.open name)
          = some (⟨value, []⟩, fileStateOf lab' writes) := by
  have range := consistent.userRange selected accepted
  obtain ⟨name, loaded, text⟩ := loadUserBytes_text selected range
  obtain ⟨name', loaded', length⟩ := loadUserBytes_ok range
  cases loaded.symm.trans loaded'
  let opened := ramfsOpen files lab.taskCurrent.files name
  refine ⟨name, opened.1, lab.withFiles opened.2, text, ?_, ?_⟩
  · rw [sysOpen, bind_get_apply, if_pos accepted]
    exact (bind_ok loaded _).trans rfl
  · have short := Lab.userRange_small accepted
    rw [← length] at short
    simp only [fileReply, short, if_true, fileStateOf, withFiles_files, opened]

/-- `SYS_READ` stores what its caller then finds. -/
theorem sysRead_served (consistent : Consistent image lab.live lab) (selected : lab.Selected)
    (accepted : lab.userRange arguments.rsi arguments.rdx true = true)
    : ∃ value bytes slots,
        sysRead arguments lab = .ok (value, (lab.stored arguments.rsi bytes).withFiles slots)
        ∧ (lab.stored arguments.rsi bytes).text arguments.rsi (readCount value) = some bytes
        ∧ fileReply files (fileStateOf lab writes) (.read arguments.rdi arguments.rdx)
          = some (⟨value, bytes⟩,
              fileStateOf ((lab.stored arguments.rsi bytes).withFiles slots) writes) := by
  have valid := consistent.descriptors lab.current
  obtain ⟨value, bytes, slots, found, length, _⟩ :=
    ramfsRead_valid valid arguments.rdi arguments.rdx
  have short := Lab.userRange_small accepted
  have range : lab.machine.UserRange true arguments.rsi bytes.length :=
    fun i inside => consistent.userRange selected accepted i (inside.trans_le length)
  have stored := consistent.storeUserBytes_ok selected range
  refine ⟨value, bytes, slots, ?_, ?_, ?_⟩
  · rw [sysRead, bind_get_apply, if_pos accepted]
    simp only [Lab.taskCurrent, found]
    exact (bind_ok stored _).trans rfl
  · rw [← ramfsRead_count valid found short]
    exact consistent.text_stored selected range (by simp only [copyLimit] at short; omega)
  · simp only [fileReply, short, if_true, fileStateOf, withFiles_files]
    simp only [Lab.taskCurrent, found, Option.map_some]

/-- `SYS_CLOSE` -/
theorem sysClose_served
    : ∃ value lab',
        sysClose arguments lab = .ok (value, lab')
        ∧ fileReply files (fileStateOf lab writes) (closeCall arguments.rdi)
          = some (⟨value, []⟩, fileStateOf lab' writes) := by
  have number : Syscall.ofNumber 7 = some .close := rfl
  let closed := ramfsClose lab.taskCurrent.files arguments.rdi
  refine ⟨closed.1, lab.withFiles closed.2, rfl, ?_⟩
  simp only [fileReply, closeCall, number, if_true, fileStateOf, withFiles_files, closed]

end Kernel

-----------------------------------------------------------------------------------------
-- A call of a task
-----------------------------------------------------------------------------------------

/-- The pointers of a call point at ranges of the program's own memory. -/
def Request.Points (request : Request) (lab : Lab) : Prop :=
  match request with
  | .write bytes | .open bytes =>
      bytes.length < 2 ^ 64
      ∧ lab.userRange lab.arguments.rdi lab.arguments.rsi false = true
      ∧ lab.text lab.arguments.rdi bytes.length = some bytes
  | .read _ _ => lab.userRange lab.arguments.rsi lab.arguments.rdx true = true
  | _ => True

/-- The running program has prepared a call. -/
structure Request.Prepared (request : Request) (lab : Lab) : Prop where
  registers : request.Registers lab.cpu
  points : request.Points lab

/-- What the program finds where its call pointed. -/
def Request.Finds (request : Request) (lab lab' : Lab) (stored : List Byte) : Prop :=
  match request with
  | .read _ _ => lab'.text lab.arguments.rsi (readCount (lab'.cpu.general .rax)) = some stored
  | _ => stored = []

/-- What a call passes to `SYS_WRITE`. -/
def Request.writes : Request → List (List Byte)
  | .write bytes => [bytes]
  | _ => []

section Call

variable {image : List Byte} {lab lab' : Lab} {request : Request} {error cr2 : U64} {scratch : Stack}

/-- What the caller sees of a call that is served at once. -/
structure CallSeen (lab lab' served : Lab) (value : U64) : Prop where
  current : lab'.current = lab.current
  ready : (lab'.tasks lab.current).state = .ready
  result : lab'.cpu.general .rax = value
  files : (lab'.tasks lab.current).files = served.taskCurrent.files
  text : lab'.text = served.text

/-- A call of the running task that is served at once. -/
theorem call_seen (user : InUser image lab) (registers : request.Registers lab.cpu)
    (immediate : Syscall.Immediate request.syscall) (error cr2 : U64) (scratch : Stack)
    : ∃ lab' value served,
        labStep image (.interrupt 128 error cr2 scratch) lab = .ok ((), lab')
        ∧ syscallResult image lab.arguments request.syscall (lab.entered 128 error scratch)
          = .ok (value, served)
        ∧ CallSeen lab lab' served value := by
  have syscall : request.syscall = Syscall.ofNumber (lab.cpu.general .rax) :=
    congrArg Syscall.ofNumber registers.1.symm
  rw [syscall] at immediate ⊢
  obtain ⟨value, served, result, called, stepped⟩ := user.call_serves immediate error cr2 scratch
  have current : served.current = lab.current := called.current
  have same := served.finished_same lab.taskCurrent.id (lab.cpu.general .rax) lab.arguments value
  have returned := user.at_once_returned immediate stepped
  refine ⟨_, value, served, stepped, result, returned.current, ?_, served.finished_result .., ?_, ?_⟩
  · rw [← Lab.userTable_state]
    exact returned.ready
  · rw [← current]
    exact (same served.current).files
  · funext address count
    have reads := @Lab.reads_congr served
      (served.finished lab.taskCurrent.id (lab.cpu.general .rax) lab.arguments value).left
      served.current rfl (same served.current).privateSpace
    induction count generalizing address with
    | zero => rfl
    | succ count ih =>
        rw [Lab.text, Lab.text, ih]
        exact congrArg (fun read : U64 → Option Byte => (read address).bind fun byte =>
          (served.text (address + 1) count).bind fun rest => some (byte :: rest)) reads

theorem immediate_of_syscall {call : Syscall} (known : request.syscall = some call)
    (other : call ≠ .spawn ∧ call ≠ .wait ∧ call ≠ .exit)
    : Syscall.Immediate request.syscall := by
  rw [known]
  simpa [Syscall.Immediate] using other

/-- The kernel serves a prepared call on files as the table of files does, and sends what is
written.
-/
theorem call_served {writes : List (List Byte)} {reply : Reply} {state : FileState}
    (user : InUser image lab) (prepared : request.Prepared lab)
    (served : fileReply files (fileStateOf lab writes) request = some (reply, state))
    (error cr2 : U64) (scratch : Stack)
    : ∃ lab',
        labStep image (.interrupt 128 error cr2 scratch) lab = .ok ((), lab')
        ∧ lab'.current = lab.current
        ∧ (lab'.tasks lab.current).state = .ready
        ∧ lab'.cpu.general .rax = reply.result
        ∧ request.Finds lab lab' reply.stored
        ∧ state = ⟨(lab'.tasks lab.current).files, writes ++ request.writes⟩
        ∧ lab.sent (.interrupt 128 error cr2 scratch) = serialBytes request.writes.flatten := by
  have kernel := user.entered 128 error scratch
  obtain ⟨registers, points⟩ := prepared
  have number : Syscall.ofNumber (lab.cpu.general .rax) = request.syscall :=
    congrArg Syscall.ofNumber registers.1
  have before : fileStateOf (lab.entered 128 error scratch) writes = fileStateOf lab writes :=
    congrArg (FileState.mk · writes) (lab.entered_same 128 error scratch lab.current).files
  rw [← before] at served
  have silent {call : Syscall} (known : request.syscall = some call) (other : call ≠ .write)
      : lab.sent (.interrupt 128 error cr2 scratch) = [] := by
    simp [Lab.sent, number, known, other]
  cases request with
  | write bytes =>
      obtain ⟨bounded, accepted, text⟩ := points
      have length : lab.arguments.rsi.toNat = bytes.length := by
        rw [show lab.arguments.rsi = _ from registers.2, BitVec.toNat_ofNat, Nat.mod_eq_of_lt bounded]
      obtain ⟨lab', value, after, stepped, ran, seen⟩ :=
        call_seen user registers (immediate_of_syscall rfl (by decide)) error cr2 scratch
      have accepted' := accepted
      rw [← lab.entered_userRange 128 error scratch] at accepted'
      obtain ⟨bytes', text', wrote, right⟩ :=
        @sysWrite_served _ _ _ writes kernel.toConsistent kernel.toSelected accepted'
      rw [lab.entered_text, length, text] at text'
      cases text'
      cases ran.symm.trans wrote
      cases served.symm.trans right
      refine ⟨lab', stepped, seen.current, seen.ready, seen.result, rfl, ?_, ?_⟩
      · exact congrArg (FileState.mk · _) seen.files.symm
      · rw [lab.sent_write number, if_pos (Lab.userRange_small accepted), length, text]
        exact congrArg serialBytes (List.append_nil _).symm
  | «open» name =>
      obtain ⟨bounded, accepted, text⟩ := points
      have length : lab.arguments.rsi.toNat = name.length := by
        rw [show lab.arguments.rsi = _ from registers.2, BitVec.toNat_ofNat, Nat.mod_eq_of_lt bounded]
      obtain ⟨lab', value, after, stepped, ran, seen⟩ :=
        call_seen user registers (immediate_of_syscall rfl (by decide)) error cr2 scratch
      rw [← lab.entered_userRange 128 error scratch] at accepted
      obtain ⟨name', _, _, text', opened, right⟩ :=
        @sysOpen_served _ _ _ writes kernel.toConsistent kernel.toSelected accepted
      rw [lab.entered_text, length, text] at text'
      cases text'
      cases ran.symm.trans opened
      cases served.symm.trans right
      refine ⟨lab', stepped, seen.current, seen.ready, seen.result, rfl, ?_,
        silent rfl (by decide)⟩
      rw [seen.files]
      exact congrArg (FileState.mk _) (List.append_nil writes).symm
  | read fd length =>
      obtain ⟨named, first, third⟩ := registers
      obtain rfl : fd = lab.arguments.rdi := first.symm
      obtain rfl : length = lab.arguments.rdx := third.symm
      obtain ⟨lab', value, after, stepped, ran, seen⟩ :=
        @call_seen _ _ (.read _ _) user ⟨named, rfl, rfl⟩ (immediate_of_syscall rfl (by decide)) error
          cr2 scratch
      have accepted : lab.userRange lab.arguments.rsi lab.arguments.rdx true = true := points
      rw [← lab.entered_userRange 128 error scratch] at accepted
      obtain ⟨value', bytes, slots, read, text, right⟩ :=
        @sysRead_served _ _ _ writes kernel.toConsistent kernel.toSelected accepted
      cases ran.symm.trans read
      cases served.symm.trans right
      refine ⟨lab', stepped, seen.current, seen.ready, seen.result, ?_, ?_, silent rfl (by decide)⟩
      · change lab'.text lab.arguments.rsi (readCount (lab'.cpu.general .rax)) = some bytes
        rw [seen.text, seen.result]
        exact (withFiles_text _ _ _ _).trans text
      · rw [seen.files]
        exact congrArg (FileState.mk _) (List.append_nil writes).symm
  | plain call fd b c =>
      have close : Syscall.ofNumber call = some .close := by
        by_contra other
        simp [fileReply, other] at served
      have known : (Request.plain call fd b c).syscall = some .close := close
      obtain ⟨named, first, second, third⟩ := registers
      obtain rfl : fd = lab.arguments.rdi := first.symm
      obtain ⟨lab', value, after, stepped, ran, seen⟩ :=
        @call_seen _ _ (.plain _ _ _ _) user ⟨named, rfl, second, third⟩
          (immediate_of_syscall known (by decide)) error cr2 scratch
      obtain ⟨value', _, closed, right⟩ := @sysClose_served (lab.entered 128 error scratch)
        lab.arguments writes
      rw [known] at ran
      cases ran.symm.trans closed
      have same : fileReply files (fileStateOf (lab.entered 128 error scratch) writes)
            (.plain call lab.arguments.rdi b c)
          = fileReply files (fileStateOf (lab.entered 128 error scratch) writes)
            (closeCall lab.arguments.rdi) := by
        have seven : Syscall.ofNumber 7 = some .close := rfl
        simp only [fileReply, closeCall, close, seven]
      cases (served.symm.trans same).trans right
      refine ⟨lab', stepped, seen.current, seen.ready, seen.result, rfl, ?_,
        silent known (by decide)⟩
      rw [seen.files]
      exact congrArg (FileState.mk _) (List.append_nil writes).symm
  | input => cases served
  | process => cases served
  | file => cases served
  | memory => cases served

end Call

-----------------------------------------------------------------------------------------
-- A program of a task
-----------------------------------------------------------------------------------------

/-- The calls of the task in a slot with what it finds, and what they send, in a run in which any
task may run between them.
-/
inductive Calls (image : List Byte) (index : TaskIndex) (start : Lab)
    : List (Request × Reply) → List Byte → Lab → Prop
  | start : Calls image index start [] [] start
  | between {exchanges : List (Request × Reply)} {sent : List Byte} {lab lab' : Lab}
      (event : LabEvent) (calls : Calls image index start exchanges sent lab)
      (noCall
        : lab.current = index → ∀ error cr2 scratch, event ≠ .interrupt 128 error cr2 scratch)
      (stepped : labStep image event lab = .ok ((), lab'))
      (ready : (lab'.tasks index).state = .ready)
      : Calls image index start exchanges sent lab'
  | call {exchanges : List (Request × Reply)} {sent stored : List Byte} {lab lab' : Lab}
      (request : Request) (error cr2 : U64) (scratch : Stack)
      (calls : Calls image index start exchanges sent lab) (here : lab.current = index)
      (prepared : request.Prepared lab)
      (stepped : labStep image (.interrupt 128 error cr2 scratch) lab = .ok ((), lab'))
      (finds : request.Finds lab lab' stored)
      : Calls image index start (exchanges ++ [(request, ⟨lab'.cpu.general .rax, stored⟩)])
          (sent ++ lab.sent (.interrupt 128 error cr2 scratch)) lab'

section Program

variable {image : List Byte} {index : TaskIndex} {start lab lab' : Lab} {sent : List Byte}
  {exchanges : List (Request × Reply)}

/-- Between the calls of a ready task its descriptors stay as they are. -/
theorem files_between {event : LabEvent} (user : InUser image lab)
    (stepped : labStep image event lab = .ok ((), lab'))
    (noCall : lab.current = index → ∀ error cr2 scratch, event ≠ .interrupt 128 error cr2 scratch)
    (ready : (lab.tasks index).state = .ready) (ready' : (lab'.tasks index).state = .ready)
    : (lab'.tasks index).files = (lab.tasks index).files := by
  have process (lab : Lab) : (lab.userTable.slots index).files = (lab.tasks index).files := by
    obtain ⟨context, same⟩ := lab.userTable_slot index
    rw [same]
    rfl
  rw [← process, ← process]
  rw [← Lab.userTable_state] at ready ready'
  rcases eq_or_ne lab.current index with here | different
  · have others := lab.action_other (noCall here)
    obtain ⟨_, step⟩ := user.step stepped
    obtain rfl : lab.userTable.current = index := here
    generalize lab'.userTable = table' at step ready' ⊢
    generalize lab.action event = action at step others
    cases step with
    | quiet | tick => rfl
    | run context =>
        rw [ProcessTable.set_here]
        rfl
    | @ended status next mortal chosen =>
        -- it does not end, since it is ready
        have ready' : ((lab.userTable.ended status).slots lab.userTable.current).state = .ready := ready'
        rcases ProcessTable.Sound.ended_slot lab.userTable status lab.userTable.current with
          ⟨_, same⟩ | ⟨away, _⟩ | ⟨away, _⟩
        · rw [same] at ready'
          split_ifs at ready'
        · exact absurd rfl away
        · exact absurd rfl away
    | _ => simp [Action.Computes] at others
  · rw [(user.slot stepped different).ready ready]

theorem finds_unique {request : Request} {stored stored' : List Byte}
    (finds : request.Finds lab lab' stored) (finds' : request.Finds lab lab' stored')
    : stored = stored' := by
  cases request with
  | read => exact Option.some.inj (Eq.trans (Eq.symm finds) finds')
  | _ => exact Eq.trans finds (Eq.symm finds')

/-- What holds of a program that the table of files serves holds of it on the laboratory. Witness:
induction on the run.
-/
theorem calls_ensured {α : Type} {program rest : UserCode α} {post : α → FileState → Prop}
    (user : InUser image start) (ready : (start.tasks index).state = .ready)
    (ensures : Ensures (fileServer files) program ⟨(start.tasks index).files, []⟩ post)
    (calls : Calls image index start exchanges sent lab) (reached : program.Reaches exchanges rest)
    : ∃ writes,
        InUser image lab
        ∧ (lab.tasks index).state = .ready
        ∧ sent = serialBytes writes.flatten
        ∧ Ensures (fileServer files) rest ⟨(lab.tasks index).files, writes⟩ post := by
  induction calls generalizing rest with
  | start =>
      obtain rfl := reaches_nil.mp reached
      exact ⟨[], user, ready, rfl, ensures⟩
  | between event _ noCall stepped ready' ih =>
      obtain ⟨writes, user', here, same, later⟩ := ih reached
      refine ⟨writes, (user'.step stepped).1, ready', same, ?_⟩
      rw [files_between user' stepped noCall here ready']
      exact later
  | @call _ _ stored lab lab' request error cr2 scratch _ here prepared stepped finds ih =>
      obtain ⟨middle, before, last⟩ := reached.split
      cases last with
      | ask now =>
          obtain rfl := reaches_nil.mp now
          obtain ⟨writes, user', _, same, ⟨reply, state, served⟩, later⟩ := ih before
          subst here
          obtain ⟨lab'', stepped', current, ready', value, finds', rfl, sends⟩ :=
            call_served user' prepared served error cr2 scratch
          cases stepped.symm.trans stepped'
          have found : (⟨lab'.cpu.general .rax, stored⟩ : Reply) = reply := by
            rw [value, finds_unique finds finds']
          refine ⟨writes ++ request.writes, (user'.step stepped).1, ready', ?_, ?_⟩
          · rw [same, sends, List.flatten_append]
            exact List.flatMap_append.symm
          · rw [found]
            exact later _ _ served

/-- `cat` of a task, whoever runs between its calls: it never gets stuck, the kernel serves every
call that it prepares, and when it ends it has sent the bytes of the file and closed its descriptor,
or has sent one message and no descriptor has changed.
-/
theorem cat_prints_the_file_on_laboratory (user : InUser image start)
    (ready : (start.tasks index).state = .ready) {word : List Byte} (some : word ≠ [])
    : ∃ enough, ∀ rounds, enough ≤ rounds → ∀ exchanges sent lab rest,
        Calls image index start exchanges sent lab
        → (cat rounds word).Reaches exchanges rest
        → rest ≠ .stuck
          ∧ rest ≠ .spent
          ∧ (∀ request resume error cr2 scratch,
            rest = .ask request resume
            → lab.current = index
            → request.Prepared lab
            → ∃ lab', labStep image (.interrupt 128 error cr2 scratch) lab = .ok ((), lab'))
          ∧ ∀ value,
              rest = .done value
              → (∀ file ∈ files,
                  file.name = pathOf word
                  → (∃ descriptor, ((start.tasks index).files descriptor).used = false)
                  → sent = serialBytes file.bytes
                    ∧ ∀ descriptor,
                        ((lab.tasks index).files descriptor).used
                          = ((start.tasks index).files descriptor).used)
                ∧ ((∀ file ∈ files, file.name ≠ pathOf word)
                    ∨ (∀ descriptor, ((start.tasks index).files descriptor).used = true)
                  → (lab.tasks index).files = (start.tasks index).files
                    ∧ ∃ message ∈ catErrors, sent = serialBytes (textBytes message)) := by
  obtain ⟨enough, ensures⟩ := @cat_prints_the_file MiniLinux.files word (by decide) (by decide)
    (by decide) (start.tasks index).files some
  refine ⟨enough, fun rounds more exchanges sent lab rest calls reached => ?_⟩
  obtain ⟨writes, user', _, same, later⟩ := calls_ensured user ready (ensures rounds more) calls reached
  refine ⟨?_, ?_, ?_, ?_⟩
  · rintro rfl
    exact later
  · rintro rfl
    exact later
  · rintro request resume error cr2 scratch rfl here prepared
    obtain ⟨⟨reply, state, served⟩, _⟩ := later
    subst here
    obtain ⟨lab', stepped, _⟩ := call_served user' prepared served error cr2 scratch
    exact ⟨lab', stepped⟩
  · rintro value rfl
    obtain ⟨prints, refuses⟩ := ensures_done.mp later
    refine ⟨fun file member named free => ?_, fun refused => ?_⟩
    · obtain ⟨whole, _, descriptors⟩ := prints file member named free
      exact ⟨same.trans (congrArg serialBytes whole), fun descriptor => (descriptors descriptor).1⟩
    · obtain ⟨kept, message, member, wrote⟩ := refuses refused
      refine ⟨kept, message, member, same.trans (congrArg serialBytes ?_)⟩
      change writes = _ at wrote
      rw [wrote, List.flatten_singleton]

end Program

end MiniLinux.User
