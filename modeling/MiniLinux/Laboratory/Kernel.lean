import MiniLinux.Laboratory.State

/-! The task code of `kernel/laboratory.c`. The embedded program `user_image` is built
elsewhere and is a parameter; its size is the length of the list.
-/

namespace MiniLinux

open Foundation Foundation.Halting

def userCode : U64 := 0x400000

def userData : U64 := 0x600000

def userStack : U64 := 0x800000

/-- `(user_image_size + PAGE_SIZE - 1) / PAGE_SIZE` -/
def codePages (image : List Byte) : Nat := (image.length + pageSize - 1) / pageSize

/-- A 32-bit field in a 64-bit value. -/
def wide (value : U32) : U64 := value.setWidth 64

-----------------------------------------------------------------------------------------
-- Observations
-----------------------------------------------------------------------------------------

/-- `process_event` -/
def processEvent (index : TaskIndex) : LabM Unit := do
  let lab ← get
  let task := lab.tasks index
  event "process"
    [.number (wide task.id), .number (wide task.parent), .number task.program.number,
      .number task.state.number, .hex task.root, .number (wide task.slices),
      .number (if index = lab.current ∧ task.state = .ready then 1 else 0)]

/-- `memory_event` -/
def memoryEvent : LabM Unit := do
  let lab ← get
  let info := lab.machine.pageInfo
  event "memory" [.number info.frameCount, .number info.freeCount]

/-- The address of the `i`-th page that `mappings_event` reports. -/
def mappingAddress (image : List Byte) (i : Nat) : U64 :=
  if i < codePages image then userCode + BitVec.ofNat 64 (i * pageSize)
  else if i = codePages image then userData
  else userStack + BitVec.ofNat 64 ((i - codePages image - 1) * pageSize)

def mappingKind (image : List Byte) (i : Nat) : String :=
  if i < codePages image then "code" else if i = codePages image then "data" else "stack"

/-- The loop of `mappings_event`. -/
def mapEvents (image : List Byte) (index : TaskIndex) (i : Nat) : Nat → LabM Unit
  | 0 => pure ()
  | count + 1 => do
      let lab ← get
      let task := lab.tasks index
      let va := mappingAddress image i
      let (found, pa, flags) := lab.machine.vmLookup task.space va 0 0
      if found then do
        event "map"
          [.number (wide task.id), .hex va, .hex pa, .number (wide flags),
            .text (mappingKind image i)]
        mapEvents image index (i + 1) count
      else halt (.panic "LAB mapping disappeared")

/-- A dereference of `page_data(physical)`; the physical address behind it. -/
def derefPage (physical : U64) : LabM Nat := do
  let data ← onMachine (pageData physical)
  let lab ← get
  match data with
  | none => halt .nullPointer
  | some pointer => pure (directMap lab.machine.pages.hhdmOffset pointer)

/-- `mappings_event` -/
def mappingsEvent (image : List Byte) (index : TaskIndex) : LabM Unit := do
  let lab ← get
  let task := lab.tasks index
  if task.root = 0 then pure ()
  else do
    mapEvents image index 0 (codePages image + 3)
    let place ← derefPage task.dataPage
    event "data"
      [.number (wide task.id), .hex userData, .hex task.dataPage,
        .hex (lab.machine.memory.word place)]

/-- The loop of `inspect`. -/
def inspectTasks (image : List Byte) : List TaskIndex → LabM Unit
  | [] => pure ()
  | index :: rest => do
      let lab ← get
      if (lab.tasks index).state = .unused then inspectTasks image rest
      else do
        processEvent index
        mappingsEvent image index
        inspectTasks image rest

/-- `inspect` -/
def inspect (image : List Byte) : LabM Unit := do
  event "snapshot" []
  inspectTasks image (List.finRange 8)
  memoryEvent
  event "snapshot-end" []

-----------------------------------------------------------------------------------------
-- Building and releasing a task
-----------------------------------------------------------------------------------------

/-- Runs a space operation on `task->space`. -/
def onSpace (index : TaskIndex)
    (program : Option AddressSpace → MachineM (Bool × Option AddressSpace))
    : LabM Bool := do
  let lab ← get
  let (ok, space) ← onMachine (program (lab.tasks index).space)
  modifyTask index fun task => { task with privateSpace := space.getD task.privateSpace }
  pure ok

/-- `memset` and `memcpy` to a page -/
def writePage (place : Nat) (bytes : List Byte) : LabM Unit :=
  onMachine (modify fun machine =>
    { machine with memory := machine.memory.storeBytes place bytes })

/-- `map_owned`; the verdict and the caller's variable -/
def mapOwned (index : TaskIndex) (va : U64) (flags : U32) (pa : U64) : LabM (Bool × U64) := do
  let lab ← get
  if (lab.tasks index).pages.length = 19 then pure (false, pa)
  else do
    let (ok, output) ← onMachine (pageAlloc (some pa))
    let pa := output.getD pa
    if ok then do
      modifyTask index fun task => { task with pages := task.pages ++ [pa] }
      let place ← derefPage pa
      writePage place (List.replicate pageSize 0)
      let mapped ← onSpace index fun space => vmMap space va pa flags
      pure (mapped, pa)
    else pure (false, pa)

/-- The loop of `release_pages`. -/
def freePages : List U64 → LabM Unit
  | [] => pure ()
  | page :: rest => do
      let ok ← onMachine (pageFree page)
      if ok then freePages rest else halt (.panic "LAB user page ownership differs")

/-- `release_pages` -/
def releasePages (index : TaskIndex) : LabM Unit := do
  let lab ← get
  if (lab.tasks index).root ≠ 0 then do
    let destroyed ← onSpace index vmDestroy
    if destroyed then pure () else halt (.panic "LAB tried to release an active root")
  else pure ()
  freePages (lab.tasks index).pages
  modifyTask index fun task => { task with pages := [] }

/-- The bytes that go into the `i`-th code page. -/
def imageChunk (image : List Byte) (i : Nat) : List Byte :=
  (image.drop (i * pageSize)).take pageSize

/-- The loop of `prepare`. -/
def prepareCode (image : List Byte) (index : TaskIndex) (i : Nat) : Nat → LabM Bool
  | 0 => pure true
  | count + 1 => do
      let (ok, pa) ←
        mapOwned index (userCode + BitVec.ofNat 64 (i * pageSize)) (vmUser ||| vmExec) 0
      if ok then do
        let place ← derefPage pa
        writePage place (imageChunk image i)
        prepareCode image index (i + 1) count
      else pure false

/-- `mapOwned` for a writable page. -/
def mapWritable (index : TaskIndex) (va pa : U64) : LabM (Bool × U64) :=
  mapOwned index va (vmUser ||| vmWrite) pa

/-- The three writable pages of `prepare`. -/
def prepareData (index : TaskIndex) : LabM Bool := do
  let lab ← get
  let (ok, page) ← mapWritable index userData (lab.tasks index).dataPage
  modifyTask index fun task => { task with dataPage := page }
  if ok then do
    let (ok, stack) ← mapWritable index userStack 0
    if ok then do
      let (ok, _) ← mapWritable index (userStack + BitVec.ofNat 64 pageSize) stack
      pure ok
    else pure false
  else pure false

/-- The first frame that `prepare` builds on the kernel stack of the task. -/
def initialFrame : FrameField → U64
  | .rip => userCode
  | .cs => 0x23
  | .ss => 0x1b
  | .rsp => userStack + BitVec.ofNat 64 (2 * pageSize) - 8
  | .rflags => 0x202
  | _ => 0

/-- The fields that `prepare` sets after clearing the frame. -/
def frameFields : List FrameField := [.rip, .cs, .ss, .rsp, .rflags]

/-- `memset(task->frame, 0, sizeof(*task->frame))`, then the fields -/
def writeInitialFrame (stack : Stack) (word : Nat) : Stack :=
  frameFields.foldl
    (fun stack field => Function.update stack (word + field.offset) (initialFrame field))
    fun other => if word ≤ other ∧ other < word + frameWords then 0 else stack other

/-- `prepare` -/
def prepare (image : List Byte) (index : TaskIndex) : LabM Bool := do
  modifyTask index fun task => { task with hasSpace := true }
  let created ← onSpace index vmCreate
  if created then do
    let coded ← prepareCode image index 0 (codePages image)
    if coded then do
      let mapped ← prepareData index
      if mapped then do
        modifyTask index fun task =>
          { task with
            frame := some ⟨index, stackWords - frameWords⟩
            stack := writeInitialFrame task.stack (stackWords - frameWords) }
        pure true
      else pure false
    else pure false
  else pure false

/-- The first unused slot. -/
def Lab.freeTask (lab : Lab) : Option TaskIndex :=
  (List.finRange 8).find? fun index => (lab.tasks index).state = .unused

/-- The body of the loop of `spawn`, at an unused slot. -/
def spawnAt (image : List Byte) (index : TaskIndex) (program : Program) (parent : U32)
    : LabM U64 := do
  let lab ← get
  let pid := lab.nextPid
  set { lab with nextPid := pid + 1 }
  modifyTask index fun _ => { Task.zero with id := pid, program, parent }
  let prepared ← prepare image index
  if prepared then do
    modifyTask index fun task => { task with state := .ready, alive := true }
    event "spawn" [.number (wide pid), .number (wide parent), .number program.number]
    processEvent index
    mappingsEvent image index
    memoryEvent
    pure (wide pid)
  else do
    releasePages index
    modifyTask index fun _ => Task.zero
    pure (-5)

/-- `spawn` -/
def spawn (image : List Byte) (program : Program) (parent : U32) : LabM U64 := do
  let lab ← get
  match lab.freeTask with
  | none => pure (-5)
  | some index => spawnAt image index program parent

-----------------------------------------------------------------------------------------
-- Scheduling
-----------------------------------------------------------------------------------------

/-- The slots after the current one, in the order of `next_ready`. -/
def Lab.candidates (lab : Lab) : List TaskIndex :=
  (List.finRange 8).map fun step => lab.current + (step + 1)

/-- `next_ready` -/
def nextReady : LabM TaskIndex := do
  let lab ← get
  match lab.candidates.find? fun index => (lab.tasks index).state = .ready with
  | none => halt (.panic "LAB has no runnable shell")
  | some index => pure index

/-- `select_task` -/
def selectTask (next : TaskIndex) : LabM (Option StackPointer) := do
  modify fun lab => { lab with current := next, rsp0 := some ⟨next, stackWords⟩ }
  let lab ← get
  let task := lab.taskCurrent
  match task.space with
  | none => halt .nullPointer
  | some space => do
      if lab.machine.currentRoot ≠ space.root then onMachine (vmSwitch space.root) else pure ()
      pure task.frame

/-- `task_tick` -/
def taskTick (frame : StackPointer) : LabM (Option StackPointer) := do
  let cs ← loadField frame .cs
  if cs &&& 3 ≠ 3 then halt (.panic "LAB timer must preempt user mode")
  else do
    let lab ← get
    modifyTask lab.current fun task =>
      { task with frame := some frame, slices := task.slices + 1 }
    modify fun lab => { lab with ticks := lab.ticks + 1 }
    let next ← nextReady
    if next ≠ lab.current then do
      let lab ← get
      match (lab.tasks next).space with
      | none => halt .nullPointer
      | some space =>
          event "schedule"
            [.number (wide lab.taskCurrent.id), .number (wide (lab.tasks next).id),
              .hex space.root, .number (cs &&& 3)]
    else pure ()
    selectTask next

/-- The loop of `task_exit` that hands the status to a waiting parent. -/
def wakeParents (old : Task) (status : U64) : List TaskIndex → LabM Bool
  | [] => pure false
  | index :: rest => do
      let lab ← get
      let parent := lab.tasks index
      if parent.id = old.parent ∧ parent.state = .waiting ∧ parent.waitingFor = old.id then do
        let frame ← derefFrame parent.frame
        storeField frame (.general .rax) status
        modifyTask index fun task => { task with state := .ready }
        processEvent index
        let _ ← wakeParents old status rest
        pure true
      else wakeParents old status rest

/-- `task_exit` -/
def taskExit (frame : StackPointer) (status : U64) : LabM (Option StackPointer) := do
  let lab ← get
  let old := lab.current
  if (lab.tasks old).program = .init ∨ (lab.tasks old).program = .shell then
    halt (.panic "LAB init or shell exited")
  else do
    modifyTask old fun task =>
      { task with frame := some frame, status, state := .exited, alive := false }
    event "exit" [.number (wide (lab.tasks old).id), .number status]
    let reaped ← wakeParents (lab.tasks old) status (List.finRange 8)
    let ready ← nextReady
    let next ← selectTask ready
    releasePages old
    if reaped then modifyTask old fun task => { task with state := .unused } else pure ()
    processEvent old
    memoryEvent
    pure next

/-- `user_fault` -/
def userFault (frame : StackPointer) (address : U64) : LabM (Option StackPointer) := do
  let lab ← get
  let id := wide lab.taskCurrent.id
  let vector ← loadField frame .vector
  let error ← loadField frame .error
  let rip ← loadField frame .rip
  let cs ← loadField frame .cs
  event "fault"
    [.number id, .number vector, .number error, .hex address, .hex rip, .number (cs &&& 3)]
  serialWrite "\nuser fault: pid="
  serialWriteNumber id
  serialWrite " vector="
  serialWriteNumber vector
  serialWrite "\n"
  taskExit frame (128 + vector)

/-- The child that `wait_child` finds for a pid. -/
def Lab.findChild (lab : Lab) (parent : Task) (pid : U64) : Option TaskIndex :=
  (List.finRange 8).find? fun index =>
    let child := lab.tasks index
    child.state ≠ .unused ∧ wide child.id = pid ∧ child.parent = parent.id

/-- `wait_child` -/
def waitChild (frame : StackPointer) (pid : U64) : LabM (Option StackPointer) := do
  let lab ← get
  let parent := lab.taskCurrent
  event "wait" [.number (wide parent.id), .number pid]
  match lab.findChild parent pid with
  | none => do
      storeField frame (.general .rax) (-3)
      pure (some frame)
  | some index =>
      if (lab.tasks index).state = .exited then do
        storeField frame (.general .rax) (lab.tasks index).status
        modifyTask index fun task => { task with state := .unused }
        processEvent index
        pure (some frame)
      else do
        modifyTask lab.current fun task =>
          { task with frame := some frame, state := .waiting, waitingFor := pid.setWidth 32 }
        processEvent lab.current
        let next ← nextReady
        selectTask next

end MiniLinux
