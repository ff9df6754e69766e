import MiniLinux.User.Execution

/-! The programs of `user/laboratory.c` from their entry on, and those of them that never end.
`init` and the shell run their code, whatever the other programs do. So their calls are runs of
that code up to the call that they make next.
-/

namespace MiniLinux.User

open Foundation Interaction

-----------------------------------------------------------------------------------------
-- The image
-----------------------------------------------------------------------------------------

/-- `SYS_TASK_ID` -/
def taskIdCall : Request := .plain 0 0 0 0

/-- `SYS_EXIT` -/
def exitCall (status : U64) : Request := .plain 4 status 0 0

/-- `SYS_PROGRAM` -/
def programCall : Request := .plain 8 0 0 0

/-- The two words of the data page that `counter` uses. -/
structure CounterData where
  marker : U64
  work : U64

/-- One round of the inner loop of `counter`; the inner `for` counts to 10000. -/
def counterWait (marker start step : U64) (data : CounterData)
    : UserCode (CounterData ⊕ CounterData) := do
  let now ← call ticksCall
  if now - start < (step + 1) * 100 then do
    let data := { data with work := data.work + 10000 }
    if data.marker ≠ marker then do
      print "counter: ISOLATION FAILED\n"
      let _ ← call (exitCall 2)
      pure (.inl data)
    else pure (.inl data)
  else pure (.inr data)

/-- One step of `counter`. -/
def counterStep (rounds : Nat) (program pid marker start : U64) (data : CounterData) (step : U64)
    : UserCode CounterData := do
  let data ← iterate (counterWait marker start step) rounds data
  let line := ((Line.empty.message (programName program)).message " pid=").number pid
  let line := (line.message " step=").number (step + 1)
  let line := (line.message " marker=").hex data.marker
  finish ((line.message " work=").number data.work)
  let _ ← call inspectCall
  pure data

/-- `counter` -/
def counter (rounds : Nat) (program : U64) : UserCode PUnit := do
  let pid ← call taskIdCall
  let marker : U64 := if program = 4 then 0xa110 else 0xb220
  let start ← call ticksCall
  let _ ← ([0, 1, 2, 3, 4] : List U64).foldlM (counterStep rounds program pid marker start) ⟨marker, 0⟩
  pure ⟨⟩

/-- What `user_main` does for `PROGRAM_INIT`. -/
def initMain : UserCode PUnit := do
  print "init: PID 1 entered user mode; starting shell\n"
  let pid ← call (spawnCall 1)
  let _ ← if (0 : U64).slt pid then call (waitCall pid) else pure 0
  print "init: shell stopped\n"

/-- The body of `user_main` for a program; the read of `PROGRAM_FAULT` is no step of its own. -/
def programMain (rounds : Nat) (program : U32) : UserCode PUnit :=
  match program.toNat with
  | 0 => initMain
  | 1 => shell rounds
  | 2 => print "hello from user mode\n"
  | 3 => do
      print "reader: reading /hello.txt through syscalls\n"
      cat rounds (textBytes "/hello.txt")
  | 4 => counter rounds 4
  | 5 => counter rounds 5
  | 6 => do
      print "fault: requesting a forbidden kernel read\n"
      .stuck
  | _ => pure ⟨⟩

/-- `user_main`; after the exit it loops and calls nothing. -/
def userMain (rounds : Nat) : UserCode PUnit := do
  let program ← call programCall
  programMain rounds (program.setWidth 32)
  let _ ← call (exitCall 0)
  .spent

/-- The code of the programs that never end. The others may do anything. -/
def residents (rounds : Nat) (program : Program) : Option (UserCode PUnit) :=
  if program = .init ∨ program = .shell then some (userMain rounds) else none

-----------------------------------------------------------------------------------------
-- Threads follow their code
-----------------------------------------------------------------------------------------

/-- The thread is on its way through the code, and knows which program it is. -/
structure Thread.Follows (codes : Program → Option (UserCode PUnit)) (thread : Thread)
    (program : Program)
    : Prop where
  code
    : ∀ code ∈ codes program,
        match thread.pending with
        | none => ∃ rest, code.Reaches thread.exchanges rest
        | some request => ∃ resume, code.Reaches thread.exchanges (.ask request resume)
  named
    : ∀ exchange ∈ thread.exchanges,
        exchange.1.syscall = some .program → exchange.2.result = program.number

section Follows

variable {codes : Program → Option (UserCode PUnit)} {image : List Byte} {scene : Scene}
  {lab' : Lab} {index : TaskIndex} {spawns spawns' : Nat} {thread : Thread} {program : Program}

theorem Thread.fresh_follows (codes : Program → Option (UserCode PUnit)) (program : Program)
    : Thread.fresh.Follows codes program :=
  ⟨fun code _ => ⟨code, .refl code⟩, fun _ member => nomatch member⟩

/-- A truthful reply keeps the thread on its way. -/
theorem Thread.Follows.resume (follows : thread.Follows codes program) {reply : Reply}
    (truth
      : ∀ request ∈ thread.pending,
          request.syscall = some .program → reply.result = program.number)
    : (thread.resume reply).Follows codes program := by
  obtain ⟨exchanges, pending⟩ := thread
  cases pending with
  | none => exact follows
  | some request =>
      refine ⟨fun code known => ?_, fun exchange member => ?_⟩
      · obtain ⟨resume, reached⟩ := follows.code code known
        exact ⟨_, reached.answered reply⟩
      · rcases List.mem_append.mp member with old | new
        · exact follows.named exchange old
        · obtain rfl := List.mem_singleton.mp new
          exact truth request rfl

theorem Scene.advance_thread (scene : Scene) (lab' : Lab) (request : Option Request)
    (stored : List Byte) (index : TaskIndex)
    : (scene.advance lab' request stored).threads index
      = if index = lab'.current then
          (scene.asking request index).resume ⟨lab'.cpu.general .rax, stored⟩
        else scene.asking request index :=
  rfl

/-- Replies keep the threads on their way. -/
theorem Thread.Follows.advance {request : Option Request} {stored : List Byte}
    (follows : (scene.asking request index).Follows codes program)
    (truth
      : ∀ asked ∈ (scene.asking request index).pending,
          asked.syscall = some .program → lab'.cpu.general .rax = program.number)
    : ((scene.advance lab' request stored).threads index).Follows codes program := by
  rw [scene.advance_thread]
  split_ifs
  · exact follows.resume truth
  · exact follows

/-- Every step keeps the threads on their way. -/
theorem Scene.Step.follows {scene' : Scene} (step : scene.Step codes image scene')
    (user : InUser image scene.lab)
    (ledger : ∀ index, (scene.lab.tasks index).state ≠ .unused → scene.Ledger index)
    (follows
      : ∀ index,
          (scene.lab.tasks index).state ≠ .unused
          → (scene.threads index).Follows codes (scene.lab.tasks index).program)
    (used' : (scene'.lab.tasks index).state ≠ .unused)
    : (scene'.threads index).Follows codes (scene'.lab.tasks index).program := by
  have current : (scene.lab.tasks scene.lab.current).state ≠ .unused := by
    rw [user.ready]
    decide
  have idle := (ledger _ current).running rfl
  have beside {event : LabEvent} {lab' : Lab} {request : Option Request} (stored : List Byte)
      (stepped : labStep image event scene.lab = .ok ((), lab'))
      (used' : (lab'.tasks index).state ≠ .unused) (different : index ≠ scene.lab.current)
      : ((scene.advance lab' request stored).threads index).Follows codes
          (lab'.tasks index).program := by
    have thread := scene.asking_beside request different
    by_cases unused : (scene.lab.tasks index).state = .unused
    · rw [if_pos unused] at thread
      refine .advance ?_ ?_
      · rw [thread]
        exact Thread.fresh_follows codes _
      · rw [thread]
        exact fun _ pending => nomatch pending
    · rw [if_neg unused] at thread
      rw [user.same_program stepped unused used']
      refine .advance ?_ ?_
      · rw [thread]
        exact follows index unused
      · rw [thread]
        intro asked pending named
        rcases (ledger index unused).agrees.asked asked pending with wait | exit
        · cases named.symm.trans wait
        · cases named.symm.trans exit
  obtain ⟨code, named⟩ := follows _ current
  rw [idle] at code
  cases step with
  | @other lab' event stored noCall stepped =>
      rcases eq_or_ne index scene.lab.current with rfl | different
      · have thread := Scene.asking_here none current idle
        change ((scene.advance lab' none stored).threads _).Follows codes (lab'.tasks _).program
        rw [user.same_program stepped current used']
        refine .advance ?_ ?_
        · rw [thread]
          exact ⟨code, named⟩
        · rw [thread]
          exact fun _ pending => nomatch pending
      · exact beside stored stepped used' different
  | @call lab' request error cr2 scratch stored registers makes stepped =>
      rcases eq_or_ne index scene.lab.current with rfl | different
      · have thread := Scene.asking_here (some request) current idle
        change ((scene.advance lab' (some request) stored).threads _).Follows codes
          (lab'.tasks _).program
        rw [user.same_program stepped current used']
        refine .advance ?_ ?_
        · rw [thread]
          exact ⟨makes, named⟩
        · rw [thread]
          rintro _ ⟨⟩ asks
          refine user.program_result ?_ stepped
          rw [registers.1]
          exact asks
      · exact beside stored stepped used' different

/-- The threads of a run are on their way. Witness: induction on the run. -/
theorem Scene.ReachedAfter.follows {info : BootInfo} {start : Lab}
    (reached : Scene.ReachedAfter codes image info start spawns scene) (guaranteed : info.Guaranteed)
    (bound : spawns < 2 ^ 32 - 1) (index : TaskIndex)
    (used : (scene.lab.tasks index).state ≠ .unused)
    : (scene.threads index).Follows codes (scene.lab.tasks index).program := by
  induction reached generalizing index with
  | boot => exact Thread.fresh_follows codes _
  | @step spawns scene scene' reached step ih =>
      have before : spawns < 2 ^ 32 - 1 := Nat.lt_of_le_of_lt (Nat.le_add_right ..) bound
      exact step.follows (reached.lab.reachable.user guaranteed) (reached.ledger guaranteed before)
        (fun index used => ih before index used) used

end Follows

end MiniLinux.User
