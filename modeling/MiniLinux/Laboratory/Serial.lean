import MiniLinux.Laboratory.Bringup
import MiniLinux.Laboratory.Effects

/-! The serial line between the programs and the world.
A byte that arrives is delivered to one `SYS_INPUT`, and the bytes that a `SYS_WRITE` can read
are sent; whatever else happens in between, the order of both streams is kept.
-/

namespace MiniLinux

open Foundation Foundation.Halting

-----------------------------------------------------------------------------------------
-- What programs see of the line
-----------------------------------------------------------------------------------------

/-- The byte that an event brings to the receiver. -/
def LabEvent.arrived : LabEvent → List Byte
  | .receive byte => [byte]
  | _ => []

/-- The bytes that the running program reads upwards from an address, if it may read them all. -/
def Lab.text (lab : Lab) (address : U64) : Nat → Option (List Byte)
  | 0 => some []
  | count + 1 => do
      let byte ← lab.reads lab.current address
      let rest ← lab.text (address + 1) count
      pure (byte :: rest)

/-- The line that reports a fault on the console. -/
def faultLine (id : U32) (vector : Nat) : List Byte :=
  ["\nuser fault: pid=", toString (wide id).toNat, " vector=", toString vector, "\n"].flatMap
    fun part => serialBytes (textBytes part)

/-- The bytes that an event sends to COM1. -/
def Lab.sent (lab : Lab) : LabEvent → List Byte
  | .interrupt vector _ _ _ =>
      if vector.val = 128 then
        if Syscall.ofNumber (lab.cpu.general .rax) = some .write
          ∧ lab.arguments.rsi.toNat ≤ copyLimit
        then serialBytes ((lab.text lab.arguments.rdi lab.arguments.rsi.toNat).getD [])
        else []
      else if vector.val ∈ [0, 6, 13, 14] then faultLine lab.taskCurrent.id vector.val
      else []
  | _ => []

/-- The byte that an event hands to a program: the one its caller finds when `SYS_INPUT` returned
1.
-/
def Lab.delivered (lab : Lab) (event : LabEvent) (lab' : Lab) : List Byte :=
  match event with
  | .interrupt vector _ _ _ =>
      if vector.val = 128 ∧ Syscall.ofNumber (lab.cpu.general .rax) = some .input
        ∧ lab'.cpu.general .rax = 1
      then (lab'.reads lab.current lab.arguments.rdi).toList
      else []
  | _ => []

-----------------------------------------------------------------------------------------
-- The ranges that are read
-----------------------------------------------------------------------------------------

theorem Machine.userByte_lookup (machine : Machine) (space : Option AddressSpace) (position : U64)
    (writing : Bool)
    : machine.userByte space position writing = true
      ↔ (machine.vmLookup space position 0 0).1 = true
        ∧ (machine.vmLookup space position 0 0).2.2 &&& vmUser ≠ 0
        ∧ (writing = true → (machine.vmLookup space position 0 0).2.2 &&& vmWrite ≠ 0) := by
  rw [Machine.userByte]
  generalize machine.vmLookup space position 0 0 = reply
  obtain ⟨found, _, flags⟩ := reply
  cases writing <;> simp [and_assoc]

/-- In a well-formed space the kernel's check of a byte is the processor's. -/
theorem Machine.SpaceFormed.userByte_iff {machine : Machine} {space : AddressSpace}
    {paths : Finset (List Nat)} (formed : machine.SpaceFormed space paths)
    (ready : machine.Ready) (address : U64) (writing : Bool)
    : machine.userByte (some space) address writing = true
      ↔ machine.cpuAccess space.root true writing address ≠ none := by
  rw [Option.ne_none_iff_exists', machine.userByte_lookup, formed.vmLookup_eq ready]
  simp only [formed.cpuAccess_user ready]
  cases machine.mapping space.root (address.toNat / pageSize) with
  | none => simp [lookupReply]
  | some entry =>
      obtain ⟨frame, permissions⟩ := entry
      simp [lookupReply]

section Ranges

variable {image : List Byte} {lab : Lab} {address length : U64} {writing : Bool}

/-- What CPL3 reaches is in the lower half. -/
theorem Consistent.access_low (consistent : Consistent image lab.live lab)
    (selected : lab.Selected)
    (reached : lab.machine.cpuAccess lab.machine.currentRoot true writing address ≠ none)
    : address.toNat < 2 ^ 47 := by
  obtain ⟨place, found⟩ := Option.ne_none_iff_exists'.mp reached
  obtain ⟨formed, root⟩ := consistent.current selected
  rw [root, formed.tree.cpuAccess_user consistent.partition.ready] at found
  obtain ⟨_, _, mapped, _⟩ := found
  unfold Machine.mapping at mapped
  split at mapped
  · next inside =>
      simp only [pageSize, lowerPages] at inside
      omega
  · cases mapped

/-- `user_range` accepts the short ranges that the running program may access. -/
theorem Consistent.userRange_iff (consistent : Consistent image lab.live lab)
    (selected : lab.Selected) (positive : 0 < length.toNat)
    : lab.userRange address length writing = true
      ↔ length.toNat ≤ copyLimit
        ∧ ∀ i < length.toNat,
            lab.machine.cpuAccess lab.machine.currentRoot true writing
              (address + BitVec.ofNat 64 i) ≠ none := by
  obtain ⟨formed, root⟩ := consistent.current selected
  have byte (offset : U64) := formed.tree.userByte_iff consistent.partition.ready offset writing
  rw [Lab.userRange, formed.space, lab.machine.userRange_iff]
  simp only [byte, ← root]
  constructor
  · exact fun accepted => ⟨accepted.1, accepted.2.2.2⟩
  · intro accepted
    obtain ⟨short, reached⟩ := accepted
    have low (i : Nat) (inside : i < length.toNat) :=
      consistent.access_low selected (reached i inside)
    have first := low 0 positive
    have last := low (length.toNat - 1) (by omega)
    simp only [BitVec.toNat_add, BitVec.toNat_ofNat, copyLimit] at first last short
    exact ⟨short, by omega, by omega, reached⟩

/-- The data page of a task is its own to read and to write. -/
theorem Consistent.userRange_data (consistent : Consistent image lab.live lab)
    (selected : lab.Selected) (positive : 0 < length.toNat) (short : length.toNat ≤ copyLimit)
    (writing : Bool)
    : lab.userRange userData length writing = true := by
  refine (consistent.userRange_iff selected positive).mpr ⟨short, fun i inside => ?_⟩
  obtain ⟨formed, _⟩ := consistent.current selected
  have few := consistent.sized.codePages_le
  have known : codePages image < userPages image := by simp only [userPages]; omega
  have held : codePages image < lab.taskCurrent.pages.length := formed.count.symm ▸ known
  have page : (userData + BitVec.ofNat 64 i).toNat / pageSize = 0x600 := by
    have base : userData.toNat = 0x600000 := rfl
    simp only [pageSize, copyLimit] at short ⊢
    rw [BitVec.toNat_add, BitVec.toNat_ofNat, base]
    omega
  have mapped : layoutMap image lab.taskCurrent.pages 0x600
      = some (lab.taskCurrent.pages[codePages image], vmUser ||| vmWrite) := by
    refine (layoutMap_eq_some consistent.sized).mpr
      ⟨codePages image, known, ?_, List.getElem?_eq_getElem held, ?_⟩
    · rw [layoutPage, if_neg (lt_irrefl _), if_pos rfl]
    · rw [layoutFlags, if_neg (lt_irrefl _)]
  rw [← page] at mapped
  have reached := (consistent.userAccess selected writing _ _).mpr
    ⟨_, _, mapped, by decide, by decide +revert, rfl⟩
  rw [reached]
  exact Option.some_ne_none _

/-- Its code it may not write. -/
theorem Consistent.userRange_code (consistent : Consistent image lab.live lab)
    (selected : lab.Selected) (positive : 0 < length.toNat)
    : lab.userRange userCode length true = false := by
  apply Bool.eq_false_of_not_eq_true
  intro accepted
  obtain ⟨_, reached⟩ := (consistent.userRange_iff selected positive).mp accepted
  obtain ⟨place, found⟩ := Option.ne_none_iff_exists'.mp (reached 0 positive)
  obtain ⟨_, permissions, mapped, _, writable, _⟩ :=
    (consistent.userAccess selected true _ place).mp found
  obtain ⟨k, inside, page, _, rfl⟩ := (layoutMap_eq_some consistent.sized).mp mapped
  have first : layoutPage image k = 0x400 := page
  have code : k < codePages image := by
    unfold layoutPage at first
    split at first
    · assumption
    · split at first <;> omega
  rw [layoutFlags, if_pos code] at writable
  exact writable rfl (by decide)

theorem Lab.text_eq_none {count : Nat}
    : lab.text address count = none
      ↔ ∃ i < count, lab.reads lab.current (address + BitVec.ofNat 64 i) = none := by
  induction count generalizing address with
  | zero => simp [Lab.text]
  | succ count ih =>
      rw [Lab.text]
      cases first : lab.reads lab.current address with
      | none =>
          refine iff_of_true rfl ⟨0, Nat.succ_pos _, ?_⟩
          rw [BitVec.add_zero]
          exact first
      | some byte =>
          have rest : lab.text (address + 1) count = none
              ↔ ((some byte).bind fun byte => (lab.text (address + 1) count).bind fun rest =>
                some (byte :: rest)) = none := by
            cases lab.text (address + 1) count <;> simp
          refine rest.symm.trans (ih.trans ?_)
          constructor
          · intro found
            obtain ⟨i, inside, missing⟩ := found
            exact ⟨i + 1, Nat.succ_lt_succ inside, address_succ address i ▸ missing⟩
          · intro found
            obtain ⟨i, inside, missing⟩ := found
            cases i with
            | zero =>
                rw [BitVec.add_zero, first] at missing
                cases missing
            | succ i =>
                exact ⟨i, Nat.lt_of_succ_lt_succ inside, (address_succ address i).symm ▸ missing⟩

/-- A short text that the running program may read is accepted. -/
theorem Consistent.userRange_of_text (consistent : Consistent image lab.live lab)
    (selected : lab.Selected) (positive : 0 < length.toNat) (short : length.toNat ≤ copyLimit)
    {bytes : List Byte} (text : lab.text address length.toNat = some bytes)
    : lab.userRange address length false = true := by
  refine (consistent.userRange_iff selected positive).mpr ⟨short, ?_⟩
  intro i inside missing
  have unread : lab.reads lab.current (address + BitVec.ofNat 64 i) = none := by
    have root : (lab.tasks lab.current).privateSpace.root = lab.machine.currentRoot :=
      selected.root.symm
    rw [Lab.reads, root, missing]
    rfl
  cases text.symm.trans (lab.text_eq_none.mpr ⟨i, inside, unread⟩)

/-- The kernel loads what the running program would read. Witness: induction on the bytes. -/
theorem loadUserBytes_text (selected : lab.Selected) {count : Nat}
    (range : lab.machine.UserRange false address count)
    : ∃ bytes,
        loadUserBytes address count lab = .ok (bytes, lab) ∧ lab.text address count = some bytes := by
  induction count generalizing address with
  | zero => exact ⟨[], rfl, rfl⟩
  | succ count ih =>
      obtain ⟨place, found⟩ := range 0 (Nat.succ_pos _)
      rw [Machine.userPlace, BitVec.add_zero] at found
      have loaded : loadUser address lab = .ok (lab.machine.memory place, lab) := by
        rw [loadUser, bind_get_apply, Machine.cpuAccess_kernel found]
        rfl
      have read : lab.reads lab.current address = some (lab.machine.memory place) := by
        have root : (lab.tasks lab.current).privateSpace.root = lab.machine.currentRoot :=
          selected.root.symm
        rw [Lab.reads, root, found]
        rfl
      obtain ⟨bytes, rest, text⟩ := @ih (address + 1) (by
        intro i inside
        rw [Machine.userPlace, address_succ]
        exact range (i + 1) (Nat.succ_lt_succ inside))
      refine ⟨lab.machine.memory place :: bytes, ?_, ?_⟩
      · rw [loadUserBytes, bind_ok loaded, bind_ok rest]
        rfl
      · rw [Lab.text, read, text]
        rfl

end Ranges

-----------------------------------------------------------------------------------------
-- Kernel runs
-----------------------------------------------------------------------------------------

/-- The later state has the same bytes at both ends of the line. -/
def Lab.SameLine (lab lab' : Lab) : Prop :=
  lab'.received = lab.received ∧ lab'.console.com1 = lab.console.com1

section Kernel

variable {image : List Byte} {lab lab' : Lab}

theorem Lab.SameLine.refl (lab : Lab) : lab.SameLine lab := ⟨rfl, rfl⟩

theorem Lab.SameLine.trans {middle : Lab} (first : lab.SameLine middle)
    (second : middle.SameLine lab')
    : lab.SameLine lab' :=
  ⟨second.1.trans first.1, second.2.trans first.2⟩

theorem Lab.stored_line (lab : Lab) (address : U64) (bytes : List Byte)
    : lab.SameLine (lab.stored address bytes) :=
  ⟨rfl, rfl⟩

theorem Lab.withFiles_line (lab : Lab) (slots : Slots) : lab.SameLine (lab.withFiles slots) :=
  ⟨rfl, rfl⟩

theorem Lab.traced_line (lab : Lab) (records : List TraceRecord)
    : lab.SameLine (lab.traced records) :=
  ⟨rfl, rfl⟩

theorem Called.line {arguments : Arguments} {call : Option Syscall} {value : U64}
    (called : Called image lab arguments call value lab') (notWrite : call ≠ some .write)
    (notInput : call ≠ some .input)
    : lab.SameLine lab' := by
  cases called with
  | write => exact absurd rfl notWrite
  | input => exact absurd rfl notInput
  | opened | close => exact lab.withFiles_line _
  | read => exact (lab.stored_line _ _).trans (Lab.withFiles_line _ _)
  | process | file | memory => exact lab.stored_line _ _
  | inspect => exact lab.traced_line _
  | taskId | program | ticks | unknown | report | refused | noInput | noProcess | noFile =>
      exact .refl lab

theorem SpawnCall.line {number value : U64} (called : SpawnCall image lab number value lab')
    : lab.SameLine lab' := by
  cases called with
  | forbidden | full => exact .refl lab
  | failed _ _ failed =>
      obtain ⟨machine, shape⟩ := failed.confined
      rw [shape]
      exact .refl lab
  | spawned _ _ spawned =>
      obtain ⟨machine, task, shape⟩ := spawned.confined
      rw [shape]
      exact .refl lab

theorem Waited.line {pid : U64} (waited : Waited lab pid lab') : lab.SameLine lab' := by
  cases waited <;> exact .refl lab

theorem Departed.line {status : U64} (departed : Departed lab status lab')
    : lab.SameLine lab' := by
  obtain ⟨next, machine, shape, _⟩ := departed.state
  rw [shape]
  exact .refl lab

/-- Only `SYS_INPUT` takes from the receiver. Witness: the ways through the kernel. -/
theorem KernelRun.received {vector : Nat} (ran : KernelRun image vector lab lab')
    (quiet : vector = 128 → Syscall.ofNumber lab.savedNumber ≠ some .input)
    : lab'.received = lab.received := by
  cases ran with
  | tick => rfl
  | fault _ departed => exact departed.line.1
  | exit _ _ departed => exact departed.line.1
  | wait _ _ waited => exact waited.line.1
  | spawn _ _ spawned => exact spawned.line.1
  | @call value served vector _ called =>
      change served.received = _
      by_cases write : Syscall.ofNumber lab.savedNumber = some .write
      · rw [write] at called
        cases called <;> rfl
      · exact (called.line write (quiet vector)).1

/-- Only `SYS_WRITE` and the report of a fault send to COM1. -/
theorem KernelRun.com1 {vector : Nat} (ran : KernelRun image vector lab lab')
    (quiet : vector = 128 → Syscall.ofNumber lab.savedNumber ≠ some .write)
    : lab'.console.com1
      = lab.console.com1 ++ if vector ∈ [0, 6, 13, 14] then lab.faultMessage else [] := by
  have none (same : lab'.console.com1 = lab.console.com1) (other : vector ∉ [0, 6, 13, 14])
      : lab'.console.com1
        = lab.console.com1 ++ if vector ∈ [0, 6, 13, 14] then lab.faultMessage else [] := by
    rw [if_neg other, List.append_nil, same]
  have call (vector' : vector = 128) : vector ∉ [0, 6, 13, 14] := by
    rw [vector']
    decide
  cases ran with
  | tick timer =>
      refine none rfl ?_
      rw [timer]
      decide
  | fault exception departed =>
      rw [if_pos exception]
      exact departed.line.2
  | exit vector' _ departed => exact none departed.line.2 (call vector')
  | wait vector' _ waited => exact none waited.line.2 (call vector')
  | spawn vector' _ spawned => exact none spawned.line.2 (call vector')
  | @call value served vector' _ called =>
      refine none ?_ (call vector')
      change served.console.com1 = _
      by_cases input : Syscall.ofNumber lab.savedNumber = some .input
      · rw [input] at called
        cases called <;> rfl
      · exact (called.line (quiet vector') input).2

end Kernel

-----------------------------------------------------------------------------------------
-- Events
-----------------------------------------------------------------------------------------

section Events

variable {image : List Byte} {lab lab' : Lab} {error cr2 : U64} {scratch : Stack}

theorem Lab.entered_number (lab : Lab) (vector : Fin 256) (error : U64) (scratch : Stack)
    : (lab.entered vector error scratch).savedNumber = lab.cpu.general .rax :=
  lab.entered_savedField vector error scratch (.general .rax)

/-- A call that is served at once runs its own part of the kernel and returns. -/
theorem InUser.call_serves (user : InUser image lab)
    (immediate : Syscall.Immediate (Syscall.ofNumber (lab.cpu.general .rax))) (error cr2 : U64)
    (scratch : Stack)
    : ∃ value served,
        syscallResult image lab.arguments (Syscall.ofNumber (lab.cpu.general .rax))
            (lab.entered 128 error scratch)
          = .ok (value, served)
        ∧ Called image (lab.entered 128 error scratch) lab.arguments
            (Syscall.ofNumber (lab.cpu.general .rax)) value served
        ∧ labStep image (.interrupt 128 error cr2 scratch) lab
          = .ok ((),
              (served.finished lab.taskCurrent.id (lab.cpu.general .rax) lab.arguments value).left)
        := by
  have kernel := user.entered 128 error scratch
  have number := lab.entered_number 128 error scratch
  have arguments := lab.entered_arguments 128 error scratch
  have entered := enterKernel_ok user.toSelected 128 error scratch
  have dispatched : interruptDispatch image (savedAt lab.current) cr2 (lab.entered 128 error scratch)
      = syscallDispatch image (savedAt lab.current) (lab.entered 128 error scratch) :=
    interruptDispatch_entered user.running image 128 error cr2 scratch
  obtain ⟨value, served, result, called⟩ :=
    @syscallResult_spec image _ lab.arguments kernel.toConsistent kernel.toSelected _ immediate
  have current : served.current = lab.current := called.current
  have finish : finishSyscall (savedAt lab.current) lab.taskCurrent.id (lab.cpu.general .rax)
        lab.arguments value served
      = .ok (some (savedAt served.current),
          served.finished lab.taskCurrent.id (lab.cpu.general .rax) lab.arguments value) := by
    rw [← current]
    exact finishSyscall_ok ..
  have call : syscallDispatch image (savedAt lab.current) (lab.entered 128 error scratch)
      = .ok (some (savedAt served.current),
          served.finished lab.taskCurrent.id (lab.cpu.general .rax) lab.arguments value) := by
    refine (kernel.syscallDispatch_result ?_ ?_).trans ?_
    · exact number ▸ immediate.2.1
    · exact number ▸ immediate.2.2
    · rw [number, arguments, lab.entered_id, bind_ok result]
      exact finish
  refine ⟨value, served, result, called, ?_⟩
  rw [labStep, bind_ok entered, bind_ok (dispatched.trans call)]
  exact leaveKernel_ok _

theorem InUser.call_served (user : InUser image lab)
    (immediate : Syscall.Immediate (Syscall.ofNumber (lab.cpu.general .rax)))
    (stepped : labStep image (.interrupt 128 error cr2 scratch) lab = .ok ((), lab'))
    : ∃ value served,
        syscallResult image lab.arguments (Syscall.ofNumber (lab.cpu.general .rax))
            (lab.entered 128 error scratch)
          = .ok (value, served)
        ∧ Called image (lab.entered 128 error scratch) lab.arguments
            (Syscall.ofNumber (lab.cpu.general .rax)) value served
        ∧ lab' = (served.finished lab.taskCurrent.id (lab.cpu.general .rax) lab.arguments value).left
      := by
  obtain ⟨value, served, result, called, returned⟩ :=
    user.call_serves immediate error cr2 scratch
  cases stepped.symm.trans returned
  exact ⟨value, served, result, called, rfl⟩

theorem Lab.reads_congr {index : TaskIndex} (machine : lab'.machine = lab.machine)
    (privateSpace : (lab'.tasks index).privateSpace = (lab.tasks index).privateSpace)
    : lab'.reads index = lab.reads index := by
  funext address
  rw [Lab.reads, Lab.reads, machine, privateSpace]

theorem Lab.entered_text (lab : Lab) (vector : Fin 256) (error : U64) (scratch : Stack)
    (address : U64) (count : Nat)
    : (lab.entered vector error scratch).text address count = lab.text address count := by
  have reads : (lab.entered vector error scratch).reads lab.current = lab.reads lab.current :=
    Lab.reads_congr rfl (lab.entered_same vector error scratch lab.current).privateSpace
  induction count generalizing address with
  | zero => rfl
  | succ count ih =>
      have current : (lab.entered vector error scratch).current = lab.current := rfl
      rw [Lab.text, Lab.text, current, reads, ih]

/-- The running program reaches each byte at one address only. -/
theorem Consistent.place_injective (consistent : Consistent image lab.live lab)
    (selected : lab.Selected) {address address' : U64} {writing writing' : Bool} {place : Nat}
    (found : lab.machine.cpuAccess lab.machine.currentRoot true writing address = some place)
    (found' : lab.machine.cpuAccess lab.machine.currentRoot true writing' address' = some place)
    : address = address' := by
  obtain ⟨frame, _, mapped, _, _, rfl⟩ := (consistent.userAccess selected _ _ _).mp found
  obtain ⟨frame', _, mapped', _, _, same⟩ := (consistent.userAccess selected _ _ _).mp found'
  obtain ⟨k, _, page, held, _⟩ := (layoutMap_eq_some consistent.sized).mp mapped
  obtain ⟨k', _, page', held', _⟩ := (layoutMap_eq_some consistent.sized).mp mapped'
  have distinct : lab.taskCurrent.pages.Nodup :=
    (List.nodup_append.mp (consistent.partition.divided.distinct lab.current)).2.1
  have owned {frame : U64} (member : frame ∈ lab.taskCurrent.pages) : frame.toNat % pageSize = 0 :=
    (consistent.partition.page_outstanding member).1
  have aligned := owned (List.mem_of_getElem? held)
  have aligned' := owned (List.mem_of_getElem? held')
  -- the frame and the place in it are the same, so the page is
  have inside : address.toNat % pageSize < pageSize := Nat.mod_lt _ (by decide)
  have inside' : address'.toNat % pageSize < pageSize := Nat.mod_lt _ (by decide)
  simp only [pageByte, pageSize] at same aligned aligned' inside inside' page page'
  have frames : frame = frame' := BitVec.eq_of_toNat_eq (by omega)
  subst frames
  obtain ⟨less, here⟩ := List.getElem?_eq_some_iff.mp held
  obtain ⟨less', here'⟩ := List.getElem?_eq_some_iff.mp held'
  have slots : k = k' := distinct.getElem_inj_iff.mp (here.trans here'.symm)
  subst slots
  exact BitVec.eq_of_toNat_eq (by omega)

/-- Stores change no access of the running program. -/
theorem Consistent.userStores_access (consistent : Consistent image lab.live lab)
    (selected : lab.Selected) (address : U64) (bytes : List Byte) (writing : Bool) (other : U64)
    : (lab.stored address bytes).machine.cpuAccess (lab.stored address bytes).machine.currentRoot
        true writing other
      = lab.machine.cpuAccess lab.machine.currentRoot true writing other := by
  obtain ⟨consistent', written⟩ := consistent.userStores selected address bytes
  apply Option.ext
  intro place
  exact (consistent'.userAccess (selected.userStore written) writing other place).trans
    (consistent.userAccess selected writing other place).symm

/-- The first of the stored bytes is read again: no later byte goes to its place. -/
theorem Consistent.reads_stored (consistent : Consistent image lab.live lab)
    (selected : lab.Selected) {address : U64} {byte : Byte} {rest : List Byte}
    (range : lab.machine.UserRange true address 1) (short : rest.length + 1 < 2 ^ 64)
    : (lab.stored address (byte :: rest)).reads lab.current address = some byte := by
  obtain ⟨place, found⟩ := range 0 Nat.one_pos
  rw [Machine.userPlace, BitVec.add_zero] at found
  obtain ⟨_, written⟩ := consistent.userStores selected address (byte :: rest)
  obtain ⟨consistent₁, written₁⟩ := consistent.userStore selected address byte
  obtain ⟨_, later⟩ := consistent₁.userStores (selected.userStore written₁) (address + 1) rest
  have root : ((lab.stored address (byte :: rest)).tasks lab.current).privateSpace.root
      = (lab.stored address (byte :: rest)).machine.currentRoot :=
    (selected.userStore written).root.symm
  have readable := consistent.userStores_access selected address (byte :: rest) false address
  rw [Machine.cpuAccess_reads found] at readable
  rw [Lab.reads, root, readable]
  refine congrArg some ((later.outside place fun i inside same => ?_).trans ?_)
  · rw [Machine.userPlace, address_succ] at same
    have same := (consistent.userStore_access selected address byte true _).symm.trans same
    have equal := congrArg BitVec.toNat (consistent.place_injective selected found same)
    rw [BitVec.toNat_add, BitVec.toNat_ofNat] at equal
    have bound := address.isLt
    omega
  · change (lab.machine.userStore address byte).memory place = byte
    rw [Machine.userStore, found]
    exact Memory.store_self ..

/-- Stored bytes are read again. Witness: induction on the bytes. -/
theorem Consistent.text_stored (consistent : Consistent image lab.live lab)
    (selected : lab.Selected) {address : U64} {bytes : List Byte}
    (range : lab.machine.UserRange true address bytes.length) (short : bytes.length < 2 ^ 64)
    : (lab.stored address bytes).text address bytes.length = some bytes := by
  induction bytes generalizing lab address with
  | nil => rfl
  | cons byte rest ih =>
      obtain ⟨consistent₁, written₁⟩ := consistent.userStore selected address byte
      have range₁ : (lab.stored address [byte]).machine.UserRange true (address + 1) rest.length := by
        intro i inside
        rw [Machine.userPlace, address_succ, consistent.userStores_access selected]
        exact range (i + 1) (Nat.succ_lt_succ inside)
      have first : (lab.stored address (byte :: rest)).reads
          (lab.stored address (byte :: rest)).current address = some byte :=
        consistent.reads_stored selected
          (fun i inside => range i (inside.trans_le (Nat.succ_pos _))) short
      have later : (lab.stored address (byte :: rest)).text (address + 1) rest.length = some rest :=
        ih consistent₁ (selected.userStore written₁) range₁ (by rw [List.length_cons] at short; omega)
      rw [List.length_cons, Lab.text, first, later]
      rfl

theorem Lab.sent_write (lab : Lab) (write : Syscall.ofNumber (lab.cpu.general .rax) = some .write)
    (error cr2 : U64) (scratch : Stack)
    : lab.sent (.interrupt 128 error cr2 scratch)
      = if lab.arguments.rsi.toNat ≤ copyLimit then
          serialBytes ((lab.text lab.arguments.rdi lab.arguments.rsi.toNat).getD [])
        else [] := by
  simp only [Lab.sent, write, true_and]
  rfl

/-- `SYS_WRITE` sends the bytes that its caller could read itself, and nothing if there is one that
it could not.
-/
theorem InUser.write_sends (user : InUser image lab)
    (write : Syscall.ofNumber (lab.cpu.general .rax) = some .write)
    (stepped : labStep image (.interrupt 128 error cr2 scratch) lab = .ok ((), lab'))
    : lab'.received = lab.received
      ∧ lab'.console.com1
        = lab.console.com1 ++ lab.sent (.interrupt 128 error cr2 scratch) := by
  have kernel := user.entered 128 error scratch
  have immediate : Syscall.Immediate (Syscall.ofNumber (lab.cpu.general .rax)) := by
    rw [write]
    exact ⟨by decide, by decide, by decide⟩
  obtain ⟨value, served, result, _, rfl⟩ := user.call_served immediate stepped
  rw [write] at result
  change sysWrite lab.arguments (lab.entered 128 error scratch) = .ok (value, served) at result
  change served.received = lab.received ∧ served.console.com1 = _
  have sent := lab.sent_write write error cr2 scratch
  rw [sysWrite, bind_get_apply] at result
  cases accepted : (lab.entered 128 error scratch).userRange lab.arguments.rdi lab.arguments.rsi
      false with
  | true =>
      have range := kernel.toConsistent.userRange kernel.toSelected accepted
      obtain ⟨bytes, loaded, text⟩ := loadUserBytes_text kernel.toSelected range
      rw [accepted, if_pos rfl, bind_ok loaded] at result
      cases result
      rw [lab.entered_text] at text
      rw [sent, if_pos (Lab.userRange_small accepted), text]
      exact ⟨rfl, rfl⟩
  | false =>
      rw [accepted] at result
      cases result
      refine ⟨rfl, ?_⟩
      have nothing : lab.sent (.interrupt 128 error cr2 scratch) = [] := by
        rw [sent]
        split
        · next short =>
            cases text : lab.text lab.arguments.rdi lab.arguments.rsi.toNat with
            | none => rfl
            | some bytes =>
                rcases Nat.eq_zero_or_pos lab.arguments.rsi.toNat with empty | positive
                · rw [empty] at text
                  cases text
                  rfl
                · rw [← lab.entered_text 128 error scratch] at text
                  have reads :=
                    kernel.toConsistent.userRange_of_text kernel.toSelected positive short text
                  cases accepted.symm.trans reads
        · rfl
      rw [nothing, List.append_nil]
      rfl

/-- The byte that `SYS_INPUT` takes from the line is what its caller then reads. -/
theorem InKernel.reads_input (kernel : InKernel image lab) {address : U64} (byte : Byte)
    (rest : List Byte) (accepted : lab.userRange address 1 true = true)
    : (({ lab with received := rest } : Lab).stored address [byte]).reads lab.current address
      = some byte := by
  have range := kernel.toConsistent.userRange kernel.toSelected accepted
  have consistent : Consistent image ({ lab with received := rest } : Lab).live
      { lab with received := rest } :=
    kernel.toConsistent.slots rfl fun _ => .refl _
  exact @Consistent.reads_stored _ _ consistent ⟨kernel.ready, kernel.root, kernel.rsp0⟩ _ byte []
    range (by decide)

/-- `SYS_INPUT` moves the first waiting byte to its caller, or nothing. -/
theorem InUser.input_delivers (user : InUser image lab)
    (input : Syscall.ofNumber (lab.cpu.general .rax) = some .input)
    (stepped : labStep image (.interrupt 128 error cr2 scratch) lab = .ok ((), lab'))
    : lab.received
        = lab.delivered (.interrupt 128 error cr2 scratch) lab' ++ lab'.received
      ∧ lab'.console.com1 = lab.console.com1 := by
  have kernel := user.entered 128 error scratch
  have immediate : Syscall.Immediate (Syscall.ofNumber (lab.cpu.general .rax)) := by
    rw [input]
    exact ⟨by decide, by decide, by decide⟩
  obtain ⟨value, served, _, called, rfl⟩ := user.call_served immediate stepped
  rw [input] at called
  let finished := served.finished lab.taskCurrent.id (lab.cpu.general .rax) lab.arguments value
  have result : finished.left.cpu.general .rax = value := served.finished_result ..
  have delivered : lab.delivered (.interrupt 128 error cr2 scratch) finished.left
      = if value = 1 then (served.reads lab.current lab.arguments.rdi).toList else [] := by
    have reads : finished.left.reads lab.current = served.reads lab.current :=
      Lab.reads_congr rfl (served.finished_same _ _ _ _ lab.current).privateSpace
    have vector : (128 : Fin 256).val = 128 := rfl
    simp only [Lab.delivered, vector, input, result, reads, true_and]
  change lab.received = lab.delivered _ finished.left ++ served.received
    ∧ served.console.com1 = lab.console.com1
  rw [delivered]
  cases called with
  | refused => exact ⟨rfl, rfl⟩
  | noInput => exact ⟨rfl, rfl⟩
  | @input byte rest accepted waiting =>
      refine ⟨?_, rfl⟩
      rw [if_pos rfl]
      exact waiting.trans
        (congrArg (fun found => found.toList ++ rest) (kernel.reads_input byte rest accepted).symm)

theorem Lab.entered_userRange (lab : Lab) (vector : Fin 256) (error : U64) (scratch : Stack)
    (address length : U64) (writing : Bool)
    : (lab.entered vector error scratch).userRange address length writing
      = lab.userRange address length writing := by
  have same := (lab.entered_same vector error scratch lab.current).toSameHoldings
  have space : (lab.entered vector error scratch).taskCurrent.space = lab.taskCurrent.space := by
    unfold Task.space
    change (if ((lab.entered vector error scratch).tasks lab.current).hasSpace = true
      then some ((lab.entered vector error scratch).tasks lab.current).privateSpace else none) = _
    rw [same.hasSpace, same.privateSpace]
    rfl
  rw [Lab.userRange, Lab.userRange, space]
  rfl

/-- Where a byte waits, `SYS_INPUT` takes it into the buffer of its caller. -/
theorem InUser.input_takes (user : InUser image lab)
    (input : Syscall.ofNumber (lab.cpu.general .rax) = some .input)
    (accepted : lab.userRange lab.arguments.rdi 1 true = true) {byte : Byte} {rest : List Byte}
    (waiting : lab.received = byte :: rest) (error cr2 : U64) (scratch : Stack)
    : ∃ lab',
        labStep image (.interrupt 128 error cr2 scratch) lab = .ok ((), lab')
        ∧ lab'.cpu.general .rax = 1
        ∧ lab'.reads lab.current lab.arguments.rdi = some byte
        ∧ lab'.received = rest
        ∧ lab'.current = lab.current := by
  have kernel := user.entered 128 error scratch
  have immediate : Syscall.Immediate (Syscall.ofNumber (lab.cpu.general .rax)) := by
    rw [input]
    exact ⟨by decide, by decide, by decide⟩
  obtain ⟨value, served, _, called, stepped⟩ := user.call_serves immediate error cr2 scratch
  rw [← lab.entered_userRange 128 error scratch] at accepted
  rw [input] at called
  cases called with
  | refused buffer refuses =>
      cases buffer
      cases accepted.symm.trans refuses
  | noInput _ nothing => cases nothing.symm.trans waiting
  | @input byte' rest' _ waiting' =>
      cases (show byte' :: rest' = byte :: rest from waiting'.symm.trans waiting)
      let stored : Lab :=
        ({ lab.entered 128 error scratch with received := rest } : Lab).stored lab.arguments.rdi [byte]
      let finished : Lab :=
        stored.finished lab.taskCurrent.id (lab.cpu.general .rax) lab.arguments 1
      have reads : finished.left.reads lab.current = stored.reads lab.current :=
        Lab.reads_congr rfl (stored.finished_same _ _ _ _ lab.current).privateSpace
      refine ⟨finished.left, stepped, stored.finished_result .., ?_, rfl, rfl⟩
      rw [reads]
      exact kernel.reads_input byte rest accepted

/-- A vector of an exception is what the report prints. -/
theorem Lab.entered_faultMessage (lab : Lab) {vector : Fin 256} (error : U64) (scratch : Stack)
    (exception : vector.val ∈ [0, 6, 13, 14])
    : (lab.entered vector error scratch).faultMessage
      = faultLine lab.taskCurrent.id vector.val := by
  have number : (lab.entered vector error scratch).savedField .vector
      = BitVec.ofNat 64 vector.val := by
    rw [Lab.entered_savedField, entryFrame, stubNumber, if_pos]
    simp only [List.mem_cons, List.not_mem_nil, or_false] at exception
    omega
  have small : (BitVec.ofNat 64 vector.val).toNat = vector.val := by
    rw [BitVec.toNat_ofNat]
    omega
  rw [Lab.faultMessage, number, small, lab.entered_id]
  rfl

/-- What one event does to the line. Witness: the two calls that use it, and the ways through the
kernel for all others.
-/
theorem InUser.serial_step (user : InUser image lab) {event : LabEvent}
    (stepped : labStep image event lab = .ok ((), lab'))
    : lab.received ++ event.arrived = lab.delivered event lab' ++ lab'.received
      ∧ lab'.console.com1 = lab.console.com1 ++ lab.sent event := by
  have done := ((user.labStep_spec event).ok stepped).2.2
  cases done with
  | run | store | mark => exact ⟨List.append_nil _, (List.append_nil _).symm⟩
  | receive byte => exact ⟨rfl, (List.append_nil _).symm⟩
  | @interrupt vector error cr2 scratch middle ran =>
      have number := lab.entered_number vector error scratch
      have arrived : lab.received ++ (LabEvent.interrupt vector error cr2 scratch).arrived
          = lab.received :=
        List.append_nil _
      rw [arrived]
      by_cases call : vector.val = 128
      · have vector' : vector = 128 := Fin.ext call
        subst vector'
        by_cases write : Syscall.ofNumber (lab.cpu.general .rax) = some .write
        · obtain ⟨received, com1⟩ := user.write_sends write stepped
          have delivered : lab.delivered (.interrupt 128 error cr2 scratch) middle.left = [] := by
            simp [Lab.delivered, write]
          exact ⟨by rw [delivered, received]; rfl, com1⟩
        · have quiet : lab.sent (.interrupt 128 error cr2 scratch) = [] := by
            simp [Lab.sent, write]
          rw [quiet, List.append_nil]
          by_cases input : Syscall.ofNumber (lab.cpu.general .rax) = some .input
          · exact user.input_delivers input stepped
          · have delivered : lab.delivered (.interrupt 128 error cr2 scratch) middle.left = [] := by
              simp [Lab.delivered, input]
            have received := ran.received fun _ => number ▸ input
            have com1 := ran.com1 fun _ => number ▸ write
            rw [if_neg (by decide), List.append_nil] at com1
            exact ⟨by rw [delivered]; exact received.symm, com1⟩
      · have delivered : lab.delivered (.interrupt vector error cr2 scratch) middle.left = [] := by
          simp [Lab.delivered, call]
        have received := ran.received fun vector' => absurd vector' call
        have com1 := ran.com1 fun vector' => absurd vector' call
        refine ⟨by rw [delivered]; exact received.symm, com1.trans ?_⟩
        rw [Lab.sent, if_neg call]
        refine congrArg (lab.console.com1 ++ ·) ?_
        split
        · next exception => exact lab.entered_faultMessage error scratch exception
        · rfl

end Events

-----------------------------------------------------------------------------------------
-- Whole runs
-----------------------------------------------------------------------------------------

/-- A run, with the bytes that arrived, that were delivered, and that were sent in it. -/
inductive Lab.Exchanges (image : List Byte) (start : Lab)
    : List Byte → List Byte → List Byte → Lab → Prop
  | start : Exchanges image start [] [] [] start
  | step {arrived delivered sent : List Byte} {lab lab' : Lab} (event : LabEvent)
      (run : Exchanges image start arrived delivered sent lab)
      (stepped : labStep image event lab = .ok ((), lab'))
      : Exchanges image start (arrived ++ event.arrived) (delivered ++ lab.delivered event lab')
          (sent ++ lab.sent event) lab'

/-- The serial line in every run: each byte that arrives is handed to one `SYS_INPUT`, in order and
once, or still waits; and COM1 shows one block for each event, which is what a `SYS_WRITE` may read
or the report of a fault. Witness: induction on the run.
-/
theorem serial_line_is_faithful {image : List Byte} {info : BootInfo} {start lab : Lab}
    {arrived delivered sent : List Byte} (reached : Reachable image info start)
    (guaranteed : info.Guaranteed)
    (run : Lab.Exchanges image start arrived delivered sent lab)
    : start.received ++ arrived = delivered ++ lab.received
      ∧ lab.console.com1 = start.console.com1 ++ sent := by
  suffices both : Reachable image info lab
      ∧ start.received ++ arrived = delivered ++ lab.received
      ∧ lab.console.com1 = start.console.com1 ++ sent from both.2
  induction run with
  | start => exact ⟨reached, List.append_nil _, (List.append_nil _).symm⟩
  | step event run stepped ih =>
      obtain ⟨reached', input, output⟩ := ih
      obtain ⟨input', output'⟩ := (reached'.user guaranteed).serial_step stepped
      refine ⟨.step event reached' stepped, ?_, ?_⟩
      · rw [← List.append_assoc, input, List.append_assoc, input', List.append_assoc]
      · rw [output', output, List.append_assoc]

/-- The boot takes no byte from the receiver. -/
theorem kernelMain_received {image : List Byte} {info : BootInfo} {cold lab : Lab}
    (booted : kernelMain image info cold = .ok ((), lab)) (start : cold.Cold)
    (guaranteed : info.Guaranteed)
    : lab.received = cold.received := by
  obtain ⟨_, _, bare, started⟩ := kernelMain_bare booted start guaranteed
  obtain ⟨_, _, spawned, built, rfl⟩ := taskStart_booted started bare
  obtain ⟨_, _, shape⟩ := built.confined
  change spawned.received = _
  rw [shape]
  rfl

/-- The registers of a program that writes one byte of its data page. -/
def writingContext : Context :=
  { callingContext 1 userData with
    general := Function.update (callingContext 1 userData).general .rsi 1 }

/-- `init` writes back what it has read. -/
theorem serial_line_is_faithful_on_sample
    : ∃ start lab,
        Lab.Exchanges sampleImage start [97] [97] [97] lab
        ∧ start.received ++ [97] = [97] ++ lab.received
        ∧ lab.console.com1 = start.console.com1 ++ [97] := by
  obtain ⟨machine, paged, free⟩ := sample_paged
  have pages := sample_codePages
  obtain ⟨start, booted, _⟩ :=
    kernelMain_boots sample_cold sample_guaranteed rfl sample_sized paged (by omega)
  have reached : Reachable sampleImage sampleInfo start := .boot booted sample_cold
  have empty : start.received = [] := kernelMain_received booted sample_cold sample_guaranteed
  let typed : Lab := { start with received := start.received ++ [97] }
  have reached₁ : Reachable sampleImage sampleInfo (typed.calling 11 userData) :=
    .step (.run (callingContext 11 userData)) (.step (.receive 97) reached rfl) rfl
  have user₁ := reached₁.user sample_guaranteed
  have waiting : (typed.calling 11 userData).received = 97 :: [] :=
    congrArg (· ++ [97]) empty
  obtain ⟨heard, asked, result, read, _, current⟩ := user₁.input_takes rfl
    (user₁.toConsistent.userRange_data user₁.toSelected (by decide) (by decide) true) waiting 0 0
    fun _ => 0
  have given : (typed.calling 11 userData).delivered (.interrupt 128 0 0 fun _ => 0) heard = [97] := by
    rw [Lab.delivered, if_pos ⟨rfl, rfl, result⟩, show heard.reads _ _ = some 97 from read]
    rfl
  let writing : Lab := { heard with cpu := heard.cpu.runTo writingContext }
  have reached₂ : Reachable sampleImage sampleInfo writing :=
    .step (.run writingContext) (.step _ reached₁ asked) rfl
  have user₂ := reached₂.user sample_guaranteed
  obtain ⟨lab, answered⟩ : ∃ lab,
      labStep sampleImage (.interrupt 128 0 0 fun _ => 0) writing = .ok ((), lab) := by
    obtain ⟨_, _, _, _, answered⟩ :=
      user₂.call_serves (show Syscall.Immediate (some .write) from
        ⟨by decide, by decide, by decide⟩) 0 0 fun _ => 0
    exact ⟨_, answered⟩
  have sent : writing.sent (.interrupt 128 0 0 fun _ => 0) = [97] := by
    have text : writing.text userData 1 = some [97] := by
      have reads : writing.reads writing.current userData = some 97 := by
        change heard.reads heard.current userData = _
        rw [current]
        exact read
      rw [Lab.text, reads]
      rfl
    have short : writing.arguments.rsi.toNat ≤ copyLimit := show 1 ≤ 256 by decide
    refine (writing.sent_write rfl 0 0 fun _ => 0).trans ((if_pos short).trans ?_)
    change serialBytes ((writing.text userData 1).getD []) = _
    rw [text]
    rfl
  have run₁ : Lab.Exchanges sampleImage start [97] [97] [] heard := by
    have run := Lab.Exchanges.step _
      (.step (.run (callingContext 11 userData)) (.step (.receive 97) .start rfl) rfl) asked
    change Lab.Exchanges sampleImage start [97]
      ((typed.calling 11 userData).delivered (.interrupt 128 0 0 fun _ => 0) heard) [] heard at run
    rw [given] at run
    exact run
  have silent : writing.delivered (.interrupt 128 0 0 fun _ => 0) lab = [] := by
    have call : Syscall.ofNumber (writing.cpu.general .rax) = some .write := rfl
    simp [Lab.delivered, call]
  have run₂ : Lab.Exchanges sampleImage start [97]
      ([97] ++ writing.delivered (.interrupt 128 0 0 fun _ => 0) lab)
      (writing.sent (.interrupt 128 0 0 fun _ => 0)) lab :=
    .step _ (.step (.run writingContext) run₁ rfl) answered
  rw [silent, sent] at run₂
  obtain ⟨input, output⟩ := serial_line_is_faithful reached sample_guaranteed run₂
  exact ⟨start, lab, run₂, input, output⟩

end MiniLinux
