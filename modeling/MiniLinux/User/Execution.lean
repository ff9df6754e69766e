import MiniLinux.Laboratory.FrameCount
import MiniLinux.Laboratory.RoundRobin
import MiniLinux.Laboratory.Serial
import MiniLinux.User.Accounts

/-! Programs on the laboratory.
A scene is a state of the laboratory with what every process has called so far. The kernel's
books agree with these calls in every scene that can be reached, whatever the programs are.
-/

namespace MiniLinux.User

open Foundation Interaction

-----------------------------------------------------------------------------------------
-- Scenes
-----------------------------------------------------------------------------------------

/-- The calls of a process that have returned, and the one that has not. -/
structure Thread where
  exchanges : List (Request × Reply)
  pending : Option Request

def Thread.fresh : Thread := ⟨[], none⟩

/-- The thread runs, so its call has returned. -/
def Thread.resume (thread : Thread) (reply : Reply) : Thread :=
  match thread.pending with
  | none => thread
  | some request => ⟨thread.exchanges ++ [(request, reply)], none⟩

/-- The laboratory with the threads of its slots. -/
structure Scene where
  lab : Lab
  threads : TaskIndex → Thread

/-- The registers of a call; a register that points to the program's own memory may hold any
address.
-/
def Request.Registers (request : Request) (context : Context) : Prop :=
  context.general .rax = request.number
  ∧ match request with
    | .plain _ a b c =>
        context.general .rdi = a ∧ context.general .rsi = b ∧ context.general .rdx = c
    | .write bytes => context.general .rsi = BitVec.ofNat 64 bytes.length
    | .open name => context.general .rsi = BitVec.ofNat 64 name.length
    | .read fd length => context.general .rdi = fd ∧ context.general .rdx = length
    | .input | .memory => True
    | .process index | .file index => context.general .rdi = index

/-- What the processes call, after an event that led to a state of the laboratory. A new process
has called nothing. The process that runs now has its reply: the result in `rax`, and whatever it
finds where its pointer points.
-/
def Scene.advance (scene : Scene) (lab' : Lab) (request : Option Request) (stored : List Byte)
    : Scene where
  lab := lab'
  threads index :=
    let thread := if (scene.lab.tasks index).state = .unused then .fresh else scene.threads index
    let asking :=
      if index = scene.lab.current then { thread with pending := request <|> thread.pending }
      else thread
    if index = lab'.current then asking.resume ⟨lab'.cpu.general .rax, stored⟩ else asking

/-- One event. A program whose code is known makes only the calls of its code; all else that it
does between its calls is arbitrary.
-/
inductive Scene.Step (codes : Program → Option (UserCode PUnit)) (image : List Byte) (scene : Scene)
    : Scene → Prop
  | other {lab' : Lab} (event : LabEvent) (stored : List Byte)
      (noCall : ∀ error cr2 scratch, event ≠ .interrupt 128 error cr2 scratch)
      (stepped : labStep image event scene.lab = .ok ((), lab'))
      : Step codes image scene (scene.advance lab' none stored)
  | call {lab' : Lab} (request : Request) (error cr2 : U64) (scratch : Stack) (stored : List Byte)
      (registers : request.Registers scene.lab.cpu)
      (follows
        : ∀ code ∈ codes scene.lab.taskCurrent.program,
            ∃ resume,
              code.Reaches (scene.threads scene.lab.current).exchanges (.ask request resume))
      (stepped : labStep image (.interrupt 128 error cr2 scratch) scene.lab = .ok ((), lab'))
      : Step codes image scene (scene.advance lab' (some request) stored)

/-- The scenes after some number of spawns, from the state `start` after the boot. -/
inductive Scene.ReachedAfter (codes : Program → Option (UserCode PUnit)) (image : List Byte)
    (info : BootInfo) (start : Lab)
    : Nat → Scene → Prop
  | boot {cold : Lab} (booted : kernelMain image info cold = .ok ((), start)) (bare : cold.Cold)
      : ReachedAfter codes image info start 0 ⟨start, fun _ => .fresh⟩
  | step {spawns : Nat} {scene scene' : Scene}
      (reached : ReachedAfter codes image info start spawns scene)
      (step : scene.Step codes image scene')
      : ReachedAfter codes image info start (spawns + scene.lab.numbersTo scene'.lab) scene'

theorem Scene.Step.stepped {codes : Program → Option (UserCode PUnit)} {image : List Byte}
    {scene scene' : Scene} (step : scene.Step codes image scene')
    : ∃ event, labStep image event scene.lab = .ok ((), scene'.lab) := by
  cases step with
  | other event _ _ stepped => exact ⟨event, stepped⟩
  | call _ error cr2 scratch _ _ _ stepped => exact ⟨.interrupt 128 error cr2 scratch, stepped⟩

/-- The laboratory of a scene is one that can be reached. -/
theorem Scene.ReachedAfter.lab {codes : Program → Option (UserCode PUnit)} {image : List Byte}
    {info : BootInfo} {start : Lab} {spawns : Nat} {scene : Scene}
    (reached : Scene.ReachedAfter codes image info start spawns scene)
    : ReachableAfter image info spawns scene.lab := by
  induction reached with
  | boot booted bare => exact .boot booted bare
  | step _ step ih =>
      obtain ⟨event, stepped⟩ := step.stepped
      exact .step event ih stepped

-----------------------------------------------------------------------------------------
-- Accounts and books
-----------------------------------------------------------------------------------------

/-- The account as the kernel would keep it. -/
def Account.books (account : Account) : Books := ⟨account.children, account.descriptors⟩

theorem Account.empty_books : Account.empty.books = ⟨∅, ∅⟩ := by
  simp [Account.books, Account.empty]

theorem Account.after_books (account : Account) (request : Request) (reply : Reply)
    : (account.after (request, reply)).books
      = account.books.after request.syscall request.first reply.result := by
  unfold Account.after Books.after
  dsimp only
  cases request.syscall with
  | none => rfl
  | some call =>
      cases call with
      | spawn | «open» =>
          dsimp only
          split_ifs
          all_goals simp [Account.books]
      | wait | close => simp [Account.books]
      | _ => rfl

/-- The books change by what the registers say of the call. -/
theorem Request.Registers.after {request : Request} {context : Context}
    (registers : request.Registers context) (books : Books) (result : U64)
    : books.after (Syscall.ofNumber (context.general .rax)) (context.general .rdi) result
      = books.after request.syscall request.first result := by
  obtain ⟨number, arguments⟩ := registers
  rw [number]
  cases request with
  | plain => rw [arguments.1]; rfl
  | read => rw [arguments.1]; rfl
  | process | file => rw [arguments]; rfl
  | _ => rfl

/-- A wait passes the number of the child, and a spawn that of the program. -/
theorem Request.Registers.first {request : Request} {context : Context}
    (registers : request.Registers context)
    (named : request.syscall = some .wait ∨ request.syscall = some .spawn)
    : request.first = context.general .rdi := by
  cases request with
  | plain => exact registers.2.1.symm
  | _ => simp [Request.syscall, Request.number, Syscall.ofNumber] at named

/-- The account of a thread whose pending call has taken effect. -/
def Thread.settled (thread : Thread) : Account :=
  match thread.pending with
  | none => .of thread.exchanges
  | some request => (Account.of thread.exchanges).after (request, ⟨0, []⟩)

/-- The thread is that of a process with these books. A pending wait takes effect when the child
has ended, which is when the process is ready again.
-/
structure Thread.Agrees (thread : Thread) (process : Process) (books : Books) : Prop where
  asked
    : ∀ request ∈ thread.pending,
        request.syscall = some .wait ∨ request.syscall = some .exit
  waits
    : process.state = .waiting
      → ∃ request,
          thread.pending = some request
          ∧ request.syscall = some .wait
          ∧ request.first = wide process.waitingFor
          ∧ books = (Account.of thread.exchanges).books
  settled : process.state ≠ .waiting → books = thread.settled.books

theorem Thread.resume_settled {thread : Thread}
    (asked
      : ∀ request ∈ thread.pending,
          request.syscall = some .wait ∨ request.syscall = some .exit)
    (reply : Reply)
    : (thread.resume reply).settled = thread.settled := by
  unfold Thread.resume Thread.settled
  cases pending : thread.pending with
  | none => simp only [pending]
  | some request =>
      simp only [Account.of_snoc]
      rcases asked request pending with wait | exit
      · simp only [Account.after, wait]
      · simp only [Account.after, exit]

theorem Thread.resume_pending (thread : Thread) (reply : Reply)
    : (thread.resume reply).pending = none := by
  unfold Thread.resume
  cases pending : thread.pending with
  | none => exact pending
  | some request => rfl

theorem Thread.Agrees.resume {thread : Thread} {process : Process} {books : Books}
    (agrees : thread.Agrees process books) (busy : process.state ≠ .waiting) (reply : Reply)
    : (thread.resume reply).Agrees process books := by
  refine ⟨?_, fun waiting => absurd waiting busy, fun _ => ?_⟩
  · rw [thread.resume_pending reply]
    simp
  · rw [Thread.resume_settled agrees.asked]
    exact agrees.settled busy

/-- A thread without a pending call. -/
theorem Thread.Agrees.of_none {thread : Thread} {process : Process} {books : Books}
    (none : thread.pending = none) (busy : process.state ≠ .waiting)
    (same : books = (Account.of thread.exchanges).books)
    : thread.Agrees process books := by
  refine ⟨by simp [none], fun waiting => absurd waiting busy, fun _ => ?_⟩
  rw [Thread.settled, none]
  exact same

/-- The kernel's books are the accounts of the threads, and the running thread has its reply. -/
structure Scene.Ledger (scene : Scene) (index : TaskIndex) : Prop where
  agrees
    : (scene.threads index).Agrees (scene.lab.userTable.slots index)
        (scene.lab.userTable.books index)
  running : index = scene.lab.current → (scene.threads index).pending = none

section Ledger

variable {codes : Program → Option (UserCode PUnit)} {image : List Byte} {scene : Scene}
  {lab' : Lab} {index : TaskIndex} {spawns spawns' : Nat}

/-- What a process calls and has called, before it may find a reply. -/
def Scene.asking (scene : Scene) (request : Option Request) (index : TaskIndex) : Thread :=
  let thread := if (scene.lab.tasks index).state = .unused then .fresh else scene.threads index
  if index = scene.lab.current then { thread with pending := request <|> thread.pending }
  else thread

theorem Scene.asking_beside (request : Option Request) (different : index ≠ scene.lab.current)
    : scene.asking request index
      = if (scene.lab.tasks index).state = .unused then .fresh else scene.threads index :=
  if_neg different

theorem Scene.asking_here (request : Option Request)
    (used : (scene.lab.tasks scene.lab.current).state ≠ .unused)
    (idle : (scene.threads scene.lab.current).pending = none)
    : scene.asking request scene.lab.current
      = ⟨(scene.threads scene.lab.current).exchanges, request⟩ := by
  rw [Scene.asking, if_pos rfl, if_neg used, idle]
  cases request <;> rfl

/-- Replies keep the agreement. -/
theorem Scene.Ledger.of_asking {request : Option Request} {stored : List Byte}
    (user' : InUser image lab')
    (agrees
      : (scene.asking request index).Agrees (lab'.userTable.slots index)
          (lab'.userTable.books index))
    : (scene.advance lab' request stored).Ledger index := by
  have thread : (scene.advance lab' request stored).threads index
      = if index = lab'.current then
          (scene.asking request index).resume ⟨lab'.cpu.general .rax, stored⟩
        else scene.asking request index :=
    rfl
  by_cases here : index = lab'.current
  · have busy : (lab'.userTable.slots index).state ≠ .waiting := by
      rw [lab'.userTable_state, here, user'.ready]
      decide
    rw [if_pos here] at thread
    refine ⟨?_, fun _ => ?_⟩
    · rw [thread]
      exact agrees.resume busy _
    · rw [thread]
      exact Thread.resume_pending ..
  · rw [if_neg here] at thread
    exact ⟨thread ▸ agrees, fun same => absurd same here⟩

/-- A process that does not run agrees with its thread after an event of another one. -/
theorem Scene.asking_agrees {event : LabEvent} (request : Option Request)
    (user : InUser image scene.lab) (stepped : labStep image event scene.lab = .ok ((), lab'))
    (sound : scene.lab.userTable.Sound spawns) (sound' : lab'.userTable.Sound spawns')
    (bound : spawns' < 2 ^ 32 - 1)
    (ledger : (scene.lab.tasks index).state ≠ .unused → scene.Ledger index)
    (used' : (lab'.tasks index).state ≠ .unused) (different : index ≠ scene.lab.current)
    : (scene.asking request index).Agrees (lab'.userTable.slots index)
        (lab'.userTable.books index) := by
  obtain ⟨_, step⟩ := user.step stepped
  have running : scene.lab.userTable.running.state = .ready :=
    (congrArg Process.state scene.lab.userTable_running).trans user.ready
  rw [← lab'.userTable_state] at used'
  rw [Scene.asking_beside request different]
  split_ifs with unused
  · rw [← scene.lab.userTable_state] at unused
    obtain ⟨ready, books⟩ := step.newborn running sound' bound unused used'
    refine .of_none rfl (by rw [ready]; decide) ?_
    rw [books]
    exact Account.empty_books.symm
  · have agrees := (ledger unused).agrees
    rw [← scene.lab.userTable_state] at unused
    rcases step.bystander_books sound running different unused used' with
      ⟨same, books⟩ | ⟨waited, ready, id, books⟩
    · rw [same, books]
      exact agrees
    · obtain ⟨call, pending, wait, first, account⟩ := agrees.waits waited
      refine ⟨agrees.asked, fun waiting => ?_, fun _ => ?_⟩
      · rw [ready] at waiting
        cases waiting
      · rw [books 0, Thread.settled, pending, Account.after_books, wait, first, account]

/-- Every step keeps the ledger of the processes that remain. -/
theorem Scene.Step.ledger {scene' : Scene} (step : scene.Step codes image scene')
    (user : InUser image scene.lab) (sound : scene.lab.userTable.Sound spawns)
    (sound' : scene'.lab.userTable.Sound spawns') (bound : spawns' < 2 ^ 32 - 1)
    (ledger : ∀ index, (scene.lab.tasks index).state ≠ .unused → scene.Ledger index)
    (used' : (scene'.lab.tasks index).state ≠ .unused)
    : scene'.Ledger index := by
  have current : (scene.lab.tasks scene.lab.current).state ≠ .unused := by
    rw [user.ready]
    decide
  have running : scene.lab.userTable.running.state = .ready :=
    (congrArg Process.state scene.lab.userTable_running).trans user.ready
  have idle := (ledger _ current).running rfl
  have agrees := (ledger _ current).agrees
  have books := agrees.settled (by rw [scene.lab.userTable_state, user.ready]; decide)
  rw [Thread.settled, idle] at books
  cases step with
  | @other lab' event stored noCall stepped =>
      obtain ⟨user', step⟩ := user.step stepped
      refine .of_asking user' ?_
      rcases eq_or_ne index scene.lab.current with rfl | different
      · rw [Scene.asking_here none current idle]
        rcases scene.lab.action_other noCall with computes | ⟨status, action⟩
        · obtain ⟨same, role⟩ := step.compute_slot computes scene.lab.current
          refine .of_none rfl ?_ (same.trans books)
          rw [role.state, scene.lab.userTable_state, user.ready]
          decide
        · rw [action] at step
          obtain ⟨exited, same⟩ := step.exit_books running (lab'.used_iff.mpr used')
          refine .of_none rfl ?_ (same.trans books)
          intro waiting
          cases exited.symm.trans waiting
      · exact Scene.asking_agrees none user stepped sound sound' bound (ledger index) used' different
  | @call lab' request error cr2 scratch stored registers follows stepped =>
      obtain ⟨user', step⟩ := user.step stepped
      rcases eq_or_ne index scene.lab.current with rfl | different
      · have asking := Scene.asking_here (some request) current idle
        have syscall : request.syscall = Syscall.ofNumber (scene.lab.cpu.general .rax) :=
          congrArg Syscall.ofNumber registers.1.symm
        by_cases exit : Syscall.ofNumber (scene.lab.cpu.general .rax) = some .exit
        · rw [scene.lab.action_call, exit] at step
          obtain ⟨exited, same⟩ := step.exit_books running (lab'.used_iff.mpr used')
          refine .of_asking user' ?_
          rw [asking]
          refine ⟨?_, fun waiting => (nomatch exited.symm.trans waiting), fun _ => ?_⟩
          · rintro _ ⟨⟩
            exact Or.inr (syscall.trans exit)
          · rw [Thread.settled, Account.after_books, syscall, exit]
            exact same.trans books
        · rcases user.call_books exit stepped sound sound' with returned | blocked
          · have thread
                : (scene.advance lab' (some request) stored).threads scene.lab.current
                  = ⟨(scene.threads scene.lab.current).exchanges
                      ++ [(request, ⟨lab'.cpu.general .rax, stored⟩)], none⟩ := by
              refine (if_pos returned.current.symm).trans ?_
              exact congrArg (Thread.resume · _) asking
            refine ⟨?_, fun _ => by rw [thread]⟩
            rw [thread]
            refine .of_none rfl (fun waiting => (nomatch returned.ready.symm.trans waiting)) ?_
            refine returned.books.trans ?_
            rw [registers.after, books, Account.of_snoc, Account.after_books]
          · refine .of_asking user' ?_
            rw [asking]
            have wait := syscall.trans blocked.call
            refine ⟨?_, fun _ => ⟨request, rfl, wait, ?_, blocked.books.trans books⟩,
              fun busy => absurd blocked.waiting busy⟩
            · rintro _ ⟨⟩
              exact Or.inl wait
            · exact (registers.first (Or.inl wait)).trans blocked.awaits.symm
      · refine .of_asking user' ?_
        exact Scene.asking_agrees (some request) user stepped sound sound' bound (ledger index) used'
          different

end Ledger

/-- The ledger holds in every scene of a run. Witness: induction on the run. -/
theorem Scene.ReachedAfter.ledger {codes : Program → Option (UserCode PUnit)} {image : List Byte}
    {info : BootInfo} {start : Lab} {spawns : Nat} {scene : Scene}
    (reached : Scene.ReachedAfter codes image info start spawns scene) (guaranteed : info.Guaranteed)
    (bound : spawns < 2 ^ 32 - 1) (index : TaskIndex)
    (used : (scene.lab.tasks index).state ≠ .unused)
    : scene.Ledger index := by
  induction reached generalizing index with
  | boot booted bare =>
      obtain ⟨_, _, bare', started⟩ := kernelMain_bare booted bare guaranteed
      obtain ⟨user, table, _⟩ := taskStart_booted started bare'
      have used' := Lab.used_iff.mpr used
      rw [table] at used'
      obtain ⟨ready, books⟩ := ProcessTable.boot_books used'
      refine ⟨.of_none rfl ?_ ?_, fun _ => rfl⟩
      · rw [table]
        exact fun waiting => nomatch ready.symm.trans waiting
      · rw [table, books]
        exact Account.empty_books.symm
  | @step spawns scene scene' reached step ih =>
      have before : spawns < 2 ^ 32 - 1 := Nat.lt_of_le_of_lt (Nat.le_add_right ..) bound
      have sound := reached.lab.sound guaranteed before
      have sound' := (reached.step step).lab.sound guaranteed bound
      exact step.ledger (reached.lab.reachable.user guaranteed) sound sound' bound
        (fun index used => ih before index used) used

/-- The account of the calls of a process that have taken effect. A wait that blocks takes effect
when the child has ended.
-/
def Scene.account (scene : Scene) (index : TaskIndex) : Account :=
  if (scene.lab.tasks index).state = .waiting then .of (scene.threads index).exchanges
  else (scene.threads index).settled

/-- What the kernel keeps for a process is what the process can tell from its own calls: the
children that it got and did not wait for, and the descriptors that it opened and did not close.
This holds in every scene of every run, whatever the programs are.
-/
theorem books_are_accounts {codes : Program → Option (UserCode PUnit)} {image : List Byte}
    {info : BootInfo} {start : Lab} {spawns : Nat} {scene : Scene}
    (reached : Scene.ReachedAfter codes image info start spawns scene) (guaranteed : info.Guaranteed)
    (bound : spawns < 2 ^ 32 - 1) {index : TaskIndex}
    (used : (scene.lab.tasks index).state ≠ .unused)
    : scene.lab.userTable.books index = (scene.account index).books := by
  have agrees := (reached.ledger guaranteed bound index used).agrees
  unfold Scene.account
  rw [← scene.lab.userTable_state]
  split_ifs with waiting
  · obtain ⟨_, _, _, _, same⟩ := agrees.waits waiting
    exact same
  · exact agrees.settled waiting

-----------------------------------------------------------------------------------------
-- Programs that go on
-----------------------------------------------------------------------------------------

/-- The registers that a program loads for a call. -/
def Request.context (request : Request) : Context :=
  let arguments : U64 × U64 × U64 :=
    match request with
    | .plain _ a b c => (a, b, c)
    | .write bytes => (0, BitVec.ofNat 64 bytes.length, 0)
    | .open name => (0, BitVec.ofNat 64 name.length, 0)
    | .read fd length => (fd, 0, length)
    | .input | .memory => (0, 0, 0)
    | .process index | .file index => (index, 0, 0)
  ⟨fun register =>
      match register with
      | .rax => request.number
      | .rdi => arguments.1
      | .rsi => arguments.2.1
      | .rdx => arguments.2.2
      | _ => 0,
    userCode, 0x23, 0x202, 0, 0x1b⟩

theorem Request.context_registers (request : Request) (cpu : Context)
    : request.Registers (cpu.runTo request.context) := by
  refine ⟨rfl, ?_⟩
  cases request with
  | plain => exact ⟨rfl, rfl, rfl⟩
  | read => exact ⟨rfl, rfl⟩
  | write | «open» | process | file => rfl
  | input | memory => trivial

theorem Thread.of_idle {thread : Thread} (idle : thread.pending = none)
    : (⟨thread.exchanges, none⟩ : Thread) = thread := by
  rw [← idle]

/-- The running program has loaded its registers. -/
def loading (lab : Lab) (context : Context) : Lab := { lab with cpu := lab.cpu.runTo context }

/-- The same process runs, the tasks are those that were there, and as many frames are free. -/
structure Scene.Remains (scene scene' : Scene) : Prop where
  current : scene'.lab.current = scene.lab.current
  nextPid : scene'.lab.nextPid = scene.lab.nextPid
  free : scene'.lab.machine.pages.freeCount = scene.lab.machine.pages.freeCount
  roles
    : ∀ index, (scene.lab.userTable.slots index).SameRole (scene'.lab.userTable.slots index)

theorem Scene.Remains.refl (scene : Scene) : scene.Remains scene :=
  ⟨rfl, rfl, rfl, fun _ => .refl _⟩

theorem Scene.Remains.trans {scene scene' scene'' : Scene} (first : scene.Remains scene')
    (second : scene'.Remains scene'')
    : scene.Remains scene'' where
  current := second.current.trans first.current
  nextPid := second.nextPid.trans first.nextPid
  free := second.free.trans first.free
  roles index := (first.roles index).trans (second.roles index)

/-- The running process has made one more call, and nothing else has changed but for the byte that
`SYS_INPUT` takes.
-/
structure Scene.Continues (scene scene' : Scene) (request : Request) (reply : Reply) : Prop
    extends scene.Remains scene' where
  received : request.syscall ≠ some .input → scene'.lab.received = scene.lab.received
  thread
    : scene'.threads scene.lab.current
      = ⟨(scene.threads scene.lab.current).exchanges ++ [(request, reply)], none⟩

section Continues

variable {codes : Program → Option (UserCode PUnit)} {image : List Byte} {info : BootInfo}
  {start : Lab} {spawns : Nat} {scene scene' : Scene}

/-- A step that gives no number. -/
theorem Scene.ReachedAfter.quiet (reached : Scene.ReachedAfter codes image info start spawns scene)
    (step : scene.Step codes image scene') (same : scene'.lab.nextPid = scene.lab.nextPid)
    : Scene.ReachedAfter codes image info start spawns scene' := by
  have none : spawns + scene.lab.numbersTo scene'.lab = spawns := by
    rw [Lab.numbersTo, if_pos same, Nat.add_zero]
  rw [← none]
  exact reached.step step

/-- A program can load registers. -/
theorem Scene.ReachedAfter.loads (reached : Scene.ReachedAfter codes image info start spawns scene)
    (guaranteed : info.Guaranteed) (bound : spawns < 2 ^ 32 - 1) (context : Context)
    : ∃ scene',
        Scene.ReachedAfter codes image info start spawns scene'
        ∧ scene'.lab = loading scene.lab context
        ∧ scene'.threads scene.lab.current = scene.threads scene.lab.current := by
  have user := reached.lab.reachable.user guaranteed
  have current : (scene.lab.tasks scene.lab.current).state ≠ .unused := by
    rw [user.ready]
    decide
  have idle := (reached.ledger guaranteed bound _ current).running rfl
  have step : scene.Step codes image (scene.advance (loading scene.lab context) none []) :=
    .other (.run context) [] (by simp) rfl
  refine ⟨_, reached.quiet step rfl, rfl, ?_⟩
  refine (if_pos rfl).trans ?_
  refine (congrArg (Thread.resume · _) (scene.asking_here none current idle)).trans ?_
  exact Thread.of_idle idle

/-- A call that is served at once comes back, from where the registers are loaded. -/
theorem Scene.ReachedAfter.calls (reached : Scene.ReachedAfter codes image info start spawns scene)
    (guaranteed : info.Guaranteed) (bound : spawns < 2 ^ 32 - 1) {request : Request}
    (registers : request.Registers scene.lab.cpu) (immediate : Syscall.Immediate request.syscall)
    (follows
      : ∀ code ∈ codes scene.lab.taskCurrent.program,
          ∃ resume,
            code.Reaches (scene.threads scene.lab.current).exchanges (.ask request resume))
    (stored : List Byte)
    : ∃ lab',
        labStep image (.interrupt 128 0 0 fun _ => 0) scene.lab = .ok ((), lab')
        ∧ Scene.ReachedAfter codes image info start spawns
            (scene.advance lab' (some request) stored)
        ∧ scene.Continues (scene.advance lab' (some request) stored) request
            ⟨lab'.cpu.general .rax, stored⟩ := by
  have user := reached.lab.reachable.user guaranteed
  have syscall : Syscall.ofNumber (scene.lab.cpu.general .rax) = request.syscall :=
    congrArg Syscall.ofNumber registers.1
  obtain ⟨lab', value, files, stepped, action, table⟩ :=
    user.served_at_once (syscall ▸ immediate) 0 0 fun _ => 0
  have step : scene.Step codes image (scene.advance lab' (some request) stored) :=
    .call request 0 0 (fun _ => 0) stored registers follows stepped
  have used : (scene.lab.tasks scene.lab.current).state ≠ .unused := by
    rw [user.ready]
    decide
  have idle := (reached.ledger guaranteed bound _ used).running rfl
  have same : lab'.current = scene.lab.current := congrArg ProcessTable.current table
  have next : lab'.nextPid = scene.lab.nextPid := congrArg ProcessTable.nextPid table
  refine ⟨lab', stepped, reached.quiet step next, ⟨same, next, ?_, fun index => ?_⟩, fun other => ?_, ?_⟩
  · exact user.free_kept stepped (fun _ ends => nomatch action.symm.trans ends)
      fun _ spawns => nomatch action.symm.trans spawns
  · change (scene.lab.userTable.slots index).SameRole (lab'.userTable.slots index)
    rw [table]
    exact ProcessTable.answered_role ..
  · have nothing : scene.lab.delivered (.interrupt 128 0 0 fun _ => 0) lab' = [] := by
      simp [Lab.delivered, syscall, other]
    have line := (user.serial_step stepped).1
    rw [nothing] at line
    exact line.symm.trans (List.append_nil _)
  · refine (if_pos same.symm).trans ?_
    exact congrArg (Thread.resume · _) (scene.asking_here (some request) used idle)

/-- What follows the loading of the registers follows what was before it. -/
theorem Scene.Continues.loaded {scene₁ : Scene} {context : Context} {request : Request} {reply : Reply}
    (continues : scene₁.Continues scene' request reply) (user : InUser image scene.lab)
    (loaded : scene₁.lab = loading scene.lab context)
    (thread : scene₁.threads scene.lab.current = scene.threads scene.lab.current)
    : scene.Continues scene' request reply := by
  have stepped : labStep image (.run context) scene.lab = .ok ((), scene₁.lab) := by
    rw [loaded]
    rfl
  have here : scene₁.lab.current = scene.lab.current := (congrArg Lab.current loaded).trans rfl
  refine ⟨⟨continues.current.trans here, ?_, ?_, fun index => ?_⟩, fun other => ?_, ?_⟩
  · exact continues.nextPid.trans ((congrArg Lab.nextPid loaded).trans rfl)
  · refine continues.free.trans ?_
    exact (congrArg (fun lab : Lab => lab.machine.pages.freeCount) loaded).trans rfl
  · exact ((user.step stepped).2.compute_slot trivial index).2.trans (continues.roles index)
  · exact (continues.received other).trans ((congrArg Lab.received loaded).trans rfl)
  · rw [← thread, ← here]
    exact continues.thread

/-- A call that is served at once comes back. -/
theorem Scene.ReachedAfter.asks (reached : Scene.ReachedAfter codes image info start spawns scene)
    (guaranteed : info.Guaranteed) (bound : spawns < 2 ^ 32 - 1) {request : Request}
    (immediate : Syscall.Immediate request.syscall)
    (follows
      : ∀ code ∈ codes scene.lab.taskCurrent.program,
          ∃ resume,
            code.Reaches (scene.threads scene.lab.current).exchanges (.ask request resume))
    : ∃ scene' reply,
        Scene.ReachedAfter codes image info start spawns scene'
        ∧ scene.Continues scene' request reply := by
  obtain ⟨scene₁, reached₁, loaded, thread⟩ := reached.loads guaranteed bound request.context
  have registers : request.Registers scene₁.lab.cpu := by
    rw [loaded]
    exact request.context_registers scene.lab.cpu
  have here : scene₁.lab.current = scene.lab.current := (congrArg Lab.current loaded).trans rfl
  have named : scene₁.lab.taskCurrent = scene.lab.taskCurrent :=
    (congrArg Lab.taskCurrent loaded).trans rfl
  rw [← named, ← thread, ← here] at follows
  obtain ⟨lab', _, reached₂, continues⟩ :=
    reached₁.calls guaranteed bound registers immediate follows []
  exact ⟨_, _, reached₂, continues.loaded (reached.lab.reachable.user guaranteed) loaded thread⟩

/-- Where a byte waits at the receiver, a program that polls for one gets it. -/
theorem Scene.ReachedAfter.hears (reached : Scene.ReachedAfter codes image info start spawns scene)
    (guaranteed : info.Guaranteed) (bound : spawns < 2 ^ 32 - 1) {byte : Byte} {rest : List Byte}
    (waiting : scene.lab.received = byte :: rest)
    (follows
      : ∀ code ∈ codes scene.lab.taskCurrent.program,
          ∃ resume,
            code.Reaches (scene.threads scene.lab.current).exchanges (.ask .input resume))
    : ∃ scene',
        Scene.ReachedAfter codes image info start spawns scene'
        ∧ scene.Continues scene' .input ⟨1, [byte]⟩
        ∧ scene'.lab.received = rest
        ∧ scene'.lab.reads scene'.lab.current userData = some byte := by
  obtain ⟨scene₁, reached₁, loaded, thread⟩ :=
    reached.loads guaranteed bound (callingContext 11 userData)
  have user₁ := reached₁.lab.reachable.user guaranteed
  have here : scene₁.lab.current = scene.lab.current := (congrArg Lab.current loaded).trans rfl
  have named : scene₁.lab.taskCurrent = scene.lab.taskCurrent :=
    (congrArg Lab.taskCurrent loaded).trans rfl
  have number : scene₁.lab.cpu.general .rax = 11 :=
    (congrArg (fun lab : Lab => lab.cpu.general .rax) loaded).trans rfl
  have buffer : scene₁.lab.arguments.rdi = userData :=
    (congrArg (fun lab : Lab => lab.arguments.rdi) loaded).trans rfl
  have waiting₁ : scene₁.lab.received = byte :: rest :=
    (congrArg Lab.received loaded).trans waiting
  have accepted : scene₁.lab.userRange scene₁.lab.arguments.rdi 1 true = true := by
    rw [buffer]
    exact user₁.toConsistent.userRange_data user₁.toSelected (by decide) (by decide) true
  rw [← named, ← thread, ← here] at follows
  obtain ⟨lab', stepped, reached₂, continues⟩ :=
    @Scene.ReachedAfter.calls _ _ _ _ _ _ reached₁ guaranteed bound .input ⟨number, trivial⟩
      ⟨by decide, by decide, by decide⟩ follows [byte]
  obtain ⟨_, stepped', result, read, left, current⟩ :=
    user₁.input_takes (number ▸ rfl) accepted waiting₁ 0 0 fun _ => 0
  cases stepped.symm.trans stepped'
  rw [result] at continues
  refine ⟨_, reached₂, continues.loaded (reached.lab.reachable.user guaranteed) loaded thread, left, ?_⟩
  rw [buffer, ← current] at read
  exact read

/-- The running process has started a child. -/
structure Scene.Starts (scene scene' : Scene) (image : List Byte) (number : U64) (program : Program)
    (child : TaskIndex)
    : Prop where
  current : scene'.lab.current = scene.lab.current
  unused : (scene.lab.tasks child).state = .unused
  born
    : scene'.lab.userTable.slots child
      = .fresh scene.lab.nextPid program (scene.lab.tasks scene.lab.current).id
  roles
    : ∀ index,
        index ≠ child
        → (scene.lab.userTable.slots index).SameRole (scene'.lab.userTable.slots index)
  free
    : scene'.lab.machine.pages.freeCount.toNat + (codePages image + 9)
      = scene.lab.machine.pages.freeCount.toNat
  thread
    : scene'.threads scene.lab.current
      = ⟨(scene.threads scene.lab.current).exchanges
          ++ [(spawnCall number, ⟨wide scene.lab.nextPid, []⟩)], none⟩
  fresh : scene'.threads child = .fresh
  received : scene'.lab.received = scene.lab.received

/-- Where there is a slot and memory, a spawn starts a child. -/
theorem Scene.ReachedAfter.starts (reached : Scene.ReachedAfter codes image info start spawns scene)
    (guaranteed : info.Guaranteed) (bound : spawns + 1 < 2 ^ 32 - 1) {number : U64} {program : Program}
    (permitted : spawnable (scene.lab.tasks scene.lab.current).program number = some program)
    (spare : ∃ index, (scene.lab.tasks index).state = .unused)
    (enough : codePages image + 9 ≤ scene.lab.machine.pages.freeCount.toNat)
    (follows
      : ∀ code ∈ codes scene.lab.taskCurrent.program,
          ∃ resume,
            code.Reaches (scene.threads scene.lab.current).exchanges
              (.ask (spawnCall number) resume))
    : ∃ scene' child,
        Scene.ReachedAfter codes image info start (spawns + 1) scene'
        ∧ scene.Starts scene' image number program child := by
  have before : spawns < 2 ^ 32 - 1 := by omega
  obtain ⟨scene₁, reached₁, loaded, thread⟩ :=
    reached.loads guaranteed before (spawnCall number).context
  have user := reached.lab.reachable.user guaranteed
  have user₁ := reached₁.lab.reachable.user guaranteed
  have registers : (spawnCall number).Registers scene₁.lab.cpu := by
    rw [loaded]
    exact (spawnCall number).context_registers scene.lab.cpu
  have call : Syscall.ofNumber (scene₁.lab.cpu.general .rax) = some .spawn :=
    congrArg Syscall.ofNumber registers.1
  have argument : scene₁.lab.cpu.general .rdi = number := registers.2.1
  have here : scene₁.lab.current = scene.lab.current := (congrArg Lab.current loaded).trans rfl
  have tasks : scene₁.lab.tasks = scene.lab.tasks := (congrArg Lab.tasks loaded).trans rfl
  have pages : scene₁.lab.machine = scene.lab.machine := (congrArg Lab.machine loaded).trans rfl
  have next : scene₁.lab.nextPid = scene.lab.nextPid := (congrArg Lab.nextPid loaded).trans rfl
  rw [← tasks, ← here, ← argument] at permitted
  rw [← tasks] at spare
  rw [← pages] at enough
  obtain ⟨lab', child, stepped, unused, table, counted⟩ :=
    user₁.spawn_built call permitted spare enough 0 0 fun _ => 0
  obtain ⟨_, stepped', result, _⟩ := user₁.spawn_outcome call permitted 0 0 fun _ => 0
  cases stepped.symm.trans stepped'
  have result := result.mpr ⟨spare, enough⟩
  have step : scene₁.Step codes image (scene₁.advance lab' (some (spawnCall number)) []) := by
    refine .call (spawnCall number) 0 0 (fun _ => 0) [] registers ?_ stepped
    rw [Lab.taskCurrent, tasks, here, thread]
    exact follows
  have one : scene₁.lab.numbersTo lab' = 1 := by
    have after : lab'.nextPid = scene₁.lab.nextPid + 1 := congrArg ProcessTable.nextPid table
    rw [Lab.numbersTo, after]
    exact if_neg (ProcessTable.succ_ne scene₁.lab.nextPid)
  have reached₂ := reached₁.step step
  change Scene.ReachedAfter codes image info start (spawns + scene₁.lab.numbersTo lab') _ at reached₂
  rw [one] at reached₂
  obtain ⟨born, others⟩ := ProcessTable.spawned_slots table
  have current : (scene₁.lab.tasks scene₁.lab.current).state ≠ .unused := by
    rw [user₁.ready]
    decide
  have idle := (reached₁.ledger guaranteed before _ current).running rfl
  have same : lab'.current = scene₁.lab.current := congrArg ProcessTable.current table
  have apart : child ≠ scene₁.lab.current := by
    rintro rfl
    exact current unused
  refine ⟨_, child, reached₂, same.trans here, tasks ▸ unused, ?_, fun index different => ?_, ?_, ?_, ?_,
    ?_⟩
  · rw [← next, ← tasks, ← here]
    exact born
  · have stepped₁ : labStep image (.run (spawnCall number).context) scene.lab
        = .ok ((), scene₁.lab) := by
      rw [loaded]
      rfl
    exact ((user.step stepped₁).2.compute_slot trivial index).2.trans (others index different)
  · rw [← pages]
    exact counted
  · refine (if_pos (same.trans here).symm).trans ?_
    have asked := scene₁.asking_here (some (spawnCall number)) current idle
    rw [here, thread] at asked
    rw [← next, ← result]
    exact congrArg (Thread.resume · _) asked
  · refine (if_neg fun other => apart (other.trans same)).trans ?_
    exact (scene₁.asking_beside _ apart).trans (if_pos unused)
  · have nothing : scene₁.lab.delivered (.interrupt 128 0 0 fun _ => 0) lab' = [] := by
      simp [Lab.delivered, call]
    have line := (user₁.serial_step stepped).1
    rw [nothing] at line
    exact (line.symm.trans (List.append_nil _)).trans ((congrArg Lab.received loaded).trans rfl)

/-- The timer lets the only other ready process run. -/
theorem Scene.ReachedAfter.switches (reached : Scene.ReachedAfter codes image info start spawns scene)
    (guaranteed : info.Guaranteed) {index : TaskIndex} (ready : (scene.lab.tasks index).state = .ready)
    (different : index ≠ scene.lab.current)
    (only
      : ∀ other, (scene.lab.tasks other).state = .ready → other = scene.lab.current ∨ other = index)
    (idle : (scene.threads index).pending = none)
    : ∃ scene',
        Scene.ReachedAfter codes image info start spawns scene'
        ∧ scene'.lab.userTable = { scene.lab.userTable with current := index }
        ∧ scene'.lab.machine.pages.freeCount = scene.lab.machine.pages.freeCount
        ∧ scene'.lab.received = scene.lab.received
        ∧ scene'.threads index = scene.threads index := by
  have user := reached.lab.reachable.user guaranteed
  have action : scene.lab.action (.interrupt 32 0 0 fun _ => 0) = .tick := by
    simp [Lab.action]
  obtain ⟨lab', stepped, table⟩ :=
    user.switches ((scene.lab.userTable_state index).trans ready) different
      (fun other ready => only other ((scene.lab.userTable_state other).symm.trans ready)) 0 0
      fun _ => 0
  have step : scene.Step codes image (scene.advance lab' none []) :=
    .other (.interrupt 32 0 0 fun _ => 0) [] (by simp) stepped
  refine ⟨_, reached.quiet step (congrArg ProcessTable.nextPid table), table, ?_, ?_, ?_⟩
  · refine user.free_kept stepped (fun _ ends => ?_) fun _ spawns => ?_
    · cases action.symm.trans ends
    · cases action.symm.trans spawns
  · exact (user.serial_step stepped).1.symm.trans (List.append_nil _)
  · refine (if_pos (congrArg ProcessTable.current table).symm).trans ?_
    have used : (scene.lab.tasks index).state ≠ .unused := by
      rw [ready]
      decide
    have asked := (scene.asking_beside none different).trans (if_neg used)
    refine (congrArg (Thread.resume · _) asked).trans ?_
    rw [Thread.resume, idle]

end Continues

/-- In the sample `init` starts the shell. Its one call says that it has child 2. -/
theorem books_are_accounts_on_sample
    : ∃ start scene,
        Scene.ReachedAfter (fun _ => none) sampleImage sampleInfo start 1 scene
        ∧ (scene.threads 0).exchanges = [(spawnCall 1, ⟨2, []⟩)]
        ∧ scene.lab.userTable.books 0 = ⟨{2}, ∅⟩ := by
  obtain ⟨machine, paged, free⟩ := sample_paged
  have pages := sample_codePages
  obtain ⟨start, booted, counted⟩ :=
    kernelMain_boots sample_cold sample_guaranteed rfl sample_sized paged (by omega)
  obtain ⟨_, _, bare, started⟩ := kernelMain_bare booted sample_cold sample_guaranteed
  have table : start.userTable = .boot := (taskStart_booted started bare).2.1
  have current : start.current = 0 := congrArg ProcessTable.current table
  have next : start.nextPid = 2 := congrArg ProcessTable.nextPid table
  have permitted : spawnable (start.tasks start.current).program 1 = some .shell := by
    rw [current, ← start.userTable_program, table]
    rfl
  have unused : (start.tasks 1).state = .unused := by
    rw [← start.userTable_state, table]
    exact ProcessTable.boot_empty (by decide)
  have reached : Scene.ReachedAfter (fun _ => none) sampleImage sampleInfo start 0
      ⟨start, fun _ => .fresh⟩ :=
    .boot booted sample_cold
  have enough : codePages sampleImage + 9 ≤ start.machine.pages.freeCount.toNat := by omega
  obtain ⟨scene, child, reached', starts⟩ :=
    reached.starts sample_guaranteed (by decide) permitted ⟨1, unused⟩ enough (by simp)
  have thread : scene.threads 0 = ⟨[(spawnCall 1, ⟨2, []⟩)], none⟩ := by
    have here := starts.thread
    change scene.threads start.current = ⟨[(spawnCall 1, ⟨wide start.nextPid, []⟩)], none⟩ at here
    rwa [current, next] at here
  have ready : (scene.lab.tasks 0).state = .ready := by
    have here := (reached'.lab.reachable.user sample_guaranteed).ready
    rwa [starts.current, show Lab.current _ = 0 from current] at here
  have books : scene.lab.userTable.books 0 = (scene.account 0).books :=
    books_are_accounts reached' sample_guaranteed (by decide) (by rw [ready]; decide)
  refine ⟨start, scene, reached', by rw [thread], books.trans ?_⟩
  rw [Scene.account, ready, if_neg (by decide), thread]
  have account : Account.of [(spawnCall 1, ⟨2, []⟩)] = ⟨{2}, ∅⟩ := rfl
  change (Account.of [(spawnCall 1, ⟨2, []⟩)]).books = _
  rw [account]
  simp [Account.books]

end MiniLinux.User
