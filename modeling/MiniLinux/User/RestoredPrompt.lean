import MiniLinux.Laboratory.FrameCount
import MiniLinux.User.Scripts

/-! The machine at the prompt of the shell.
Whatever was typed and however the programs interleave: when the shell is back at its prompt, only
it and `init` are there, its descriptors are closed, and the frames of all others are free again.
This takes memory for eight tasks. With less, the last spawn of `boundary_check` may succeed, and
nobody waits for that child.
-/

namespace MiniLinux.User

open Foundation Interaction

-----------------------------------------------------------------------------------------
-- The only shell
-----------------------------------------------------------------------------------------

/-- The call is a spawn, of whatever program. -/
def Request.isSpawn (request : Request) : Bool := decide (request.syscall = some .spawn)

/-- An account has no more children than there were spawns. -/
theorem Account.children_le (exchanges : List (Request × Reply))
    : (Account.of exchanges).children.card ≤ exchanges.countP (·.1.isSpawn) := by
  induction exchanges using List.reverseRecOn with
  | nil => simp [Account.empty]
  | append_singleton exchanges exchange ih =>
      obtain ⟨request, reply⟩ := exchange
      rw [Account.of_snoc, List.countP_append, List.countP_singleton]
      by_cases spawn : request.syscall = some .spawn
      · have one : (child reply.result).card ≤ 1 := by
          unfold child
          split_ifs <;> simp
        have both := Finset.card_union_le (child reply.result) (Account.of exchanges).children
        have counts : request.isSpawn = true := decide_eq_true spawn
        rw [Account.after_spawn spawn, if_pos counts]
        dsimp only
        omega
      · have fewer : ((Account.of exchanges).after (request, reply)).children
            ⊆ (Account.of exchanges).children := by
          unfold Account.after
          dsimp only
          split
          · next same => exact absurd same spawn
          · exact Finset.erase_subset ..
          · split_ifs <;> exact subset_rfl
          · exact subset_rfl
          · exact subset_rfl
        have := Finset.card_le_card fewer
        omega

/-- Neutral code spawns nothing. -/
theorem spawns_of_neutral {α : Type} {program : UserCode α}
    (neutral : program.AsksOnly Request.Neutral)
    : program.AsksAtMost Request.isSpawn 0 := by
  refine (neutral.mono fun request neutral => ?_).atMost
  refine decide_eq_false fun spawn => neutral ?_
  simp [spawn]

/-- `init` spawns once. -/
theorem initMain_spawns : initMain.AsksAtMost Request.isSpawn 1 := by
  have stopped : (print "init: shell stopped\n").AsksAtMost Request.isSpawn 0 :=
    spawns_of_neutral (print_neutral _)
  refine @AsksAtMost.bind _ _ _ _ _ 0 _ _ 1 (spawns_of_neutral (print_neutral _)) fun _ => ?_
  refine @AsksAtMost.bind _ _ _ _ _ 1 _ _ 0 (.ask_counted fun _ => asksAtMost_done _) fun pid => ?_
  dsimp only
  split_ifs
  · exact .ask rfl fun _ => stopped
  · exact stopped

/-- What a process with number 0 for its program does after it has read that number. -/
theorem userMain_spawns {rounds : Nat} {exchanges : List (Request × Reply)} {rest : UserCode PUnit}
    (reached : (userMain rounds).Reaches exchanges rest)
    (named
      : ∀ exchange ∈ exchanges,
          exchange.1.syscall = some .program → exchange.2.result = Program.init.number)
    : exchanges.countP (·.1.isSpawn) ≤ 1 := by
  simp only [userMain, call, request_bind, pure_eq, ask_bind, done_bind] at reached
  rcases reaches_ask.mp reached with ⟨rfl, _⟩ | ⟨reply, more, rfl, below⟩
  · simp
  · have zero : reply.result = 0 := named _ List.mem_cons_self rfl
    rw [zero] at below
    have ends : (Interaction.ask (exitCall 0) fun _ => .spent : UserCode PUnit).AsksAtMost
        Request.isSpawn 0 :=
      .ask rfl fun _ => AsksOnly.atMost trivial
    have bound := initMain_spawns.bind (fun _ => ends) more rest below
    rw [List.countP_cons]
    exact bound

/-- The children of a process are among those that its calls got. -/
theorem Thread.Agrees.children_subset {thread : Thread} {process : Process} {books : Books}
    (agrees : thread.Agrees process books)
    : books.children ⊆ (Account.of thread.exchanges).children := by
  by_cases waiting : process.state = .waiting
  · obtain ⟨_, _, _, _, rfl⟩ := agrees.waits waiting
    exact subset_rfl
  · rw [agrees.settled waiting, Thread.settled]
    cases pending : thread.pending with
    | none => exact subset_rfl
    | some request =>
        rcases agrees.asked request pending with wait | exit
        · simp only [Account.after, wait, Account.books, Finset.coe_erase]
          exact Set.sdiff_subset
        · simp only [Account.after, exit]
          exact subset_rfl

/-- What holds of the scenes of a run. -/
structure Scene.Orderly (codes : Program → Option (UserCode PUnit)) (image : List Byte) (spawns : Nat)
    (scene : Scene)
    : Prop where
  user : InUser image scene.lab
  sound : scene.lab.userTable.Sound spawns
  generations : scene.lab.userTable.Generations
  ledger : ∀ index, (scene.lab.tasks index).state ≠ .unused → scene.Ledger index
  follows
    : ∀ index,
        (scene.lab.tasks index).state ≠ .unused
        → (scene.threads index).Follows codes (scene.lab.tasks index).program

theorem Scene.ReachedAfter.orderly {codes : Program → Option (UserCode PUnit)} {image : List Byte}
    {info : BootInfo} {start : Lab} {spawns : Nat} {scene : Scene}
    (reached : Scene.ReachedAfter codes image info start spawns scene) (guaranteed : info.Guaranteed)
    (bound : spawns < 2 ^ 32 - 1)
    : scene.Orderly codes image spawns where
  user := reached.lab.reachable.user guaranteed
  sound := reached.lab.sound guaranteed bound
  generations := reached.lab.reachable.generations guaranteed
  ledger := reached.ledger guaranteed bound
  follows := reached.follows guaranteed bound

section Orderly

variable {image : List Byte} {rounds spawns : Nat} {scene : Scene} {index other : TaskIndex}

/-- The process in a slot, as a member of the family. -/
theorem Scene.member (used : (scene.lab.tasks index).state ≠ .unused)
    : scene.lab.userTable.family index
      = some ⟨(scene.lab.userTable.slots index).id, (scene.lab.userTable.slots index).parent,
          (scene.lab.tasks index).program⟩ := by
  rw [← scene.lab.userTable_program]
  exact Process.member_used (Lab.used_iff.mpr used)

/-- There is one shell: `init` starts one, and nobody else starts any. -/
theorem Scene.Orderly.one_shell (orderly : scene.Orderly (residents rounds) image spawns)
    (used : (scene.lab.tasks index).state ≠ .unused)
    (used' : (scene.lab.tasks other).state ≠ .unused)
    (shell : (scene.lab.tasks index).program = .shell)
    (shell' : (scene.lab.tasks other).program = .shell)
    : index = other := by
  obtain ⟨first, same⟩ := Process.member_inv orderly.generations.first
  have alive : (scene.lab.tasks 0).state ≠ .unused := Lab.used_iff.mp first
  have init : (scene.lab.tasks 0).program = .init := by
    rw [← scene.lab.userTable_program]
    exact (congrArg Member.role same).symm
  have child {slot : TaskIndex} (used : (scene.lab.tasks slot).state ≠ .unused)
      (shell : (scene.lab.tasks slot).program = .shell)
      : wide (scene.lab.userTable.slots slot).id ∈ (scene.lab.userTable.books 0).children := by
    have here := scene.member used
    have away : slot ≠ 0 := by
      rintro rfl
      cases shell.symm.trans init
    rcases orderly.generations.later slot _ here away with ⟨parent, _⟩ | ⟨mortal, _⟩
    · have mine : (scene.lab.userTable.slots slot).parent = (scene.lab.userTable.slots 0).id :=
        parent.trans (congrArg Member.id same)
      rw [mine] at here
      exact ⟨_, ⟨slot, _, here⟩, rfl⟩
    · exact absurd shell mortal.2
  have few : (Account.of (scene.threads 0).exchanges).children.card ≤ 1 := by
    obtain ⟨code, named⟩ := orderly.follows 0 alive
    rw [init] at code named
    have reached : ∃ rest, (userMain rounds).Reaches (scene.threads 0).exchanges rest := by
      have here := code (userMain rounds) (if_pos (Or.inl rfl))
      split at here
      · exact here
      · obtain ⟨_, here⟩ := here
        exact ⟨_, here⟩
    obtain ⟨rest, reached⟩ := reached
    exact (Account.children_le _).trans (userMain_spawns reached named)
  have subset := (orderly.ledger 0 alive).agrees.children_subset
  have numbers := Finset.card_le_one.mp few _ (subset (child used shell)) _
    (subset (child used' shell'))
  exact orderly.sound.distinct index other (Lab.used_iff.mpr used) (Lab.used_iff.mpr used')
    (wide_injective numbers)

/-- A mortal process is the child of the shell. -/
theorem Scene.Orderly.parent_shell (orderly : scene.Orderly (residents rounds) image spawns)
    (used : (scene.lab.tasks index).state ≠ .unused)
    (mortal : (scene.lab.tasks index).program ≠ .init ∧ (scene.lab.tasks index).program ≠ .shell)
    : ∃ parent,
        (scene.lab.tasks parent).state ≠ .unused
        ∧ (scene.lab.tasks parent).program = .shell
        ∧ (scene.lab.userTable.slots parent).id = (scene.lab.userTable.slots index).parent := by
  have here := scene.member used
  have away : index ≠ 0 := by
    rintro rfl
    have same := Option.some.inj (here.symm.trans orderly.generations.first)
    exact mortal.1 (congrArg Member.role same)
  rcases orderly.generations.later index _ here away with ⟨_, shell⟩ | ⟨_, slot, grand, above⟩
  · exact absurd shell mortal.2
  · obtain ⟨alive, same⟩ := Process.member_inv above
    refine ⟨slot, Lab.used_iff.mp alive, ?_, (congrArg Member.id same).symm⟩
    rw [← scene.lab.userTable_program]
    exact (congrArg Member.role same).symm

/-- `init` and the shell are two. -/
theorem Scene.Orderly.two_le (orderly : scene.Orderly (residents rounds) image spawns)
    (used : (scene.lab.tasks index).state ≠ .unused) (shell : (scene.lab.tasks index).program = .shell)
    : 2 ≤ scene.lab.userTable.family.size := by
  have here := scene.member used
  have first := orderly.generations.first
  refine Family.two_le_size (by rw [here]; simp) (by rw [first]; simp) fun same => ?_
  subst same
  cases (congrArg Member.role (Option.some.inj (first.symm.trans here))).trans shell

/-- While the shell waits for nothing and another process runs, nobody leaves the family. -/
theorem Scene.Orderly.size_beside {event : LabEvent} {lab' : Lab}
    (orderly : scene.Orderly (residents rounds) image spawns)
    (stepped : labStep image event scene.lab = .ok ((), lab'))
    (used : (scene.lab.tasks index).state ≠ .unused) (shell : (scene.lab.tasks index).program = .shell)
    (different : index ≠ scene.lab.current) (idle : (scene.threads index).pending = none)
    : scene.lab.userTable.family.size ≤ lab'.userTable.family.size := by
  obtain ⟨_, step⟩ := orderly.user.step stepped
  have running : scene.lab.userTable.running.state = .ready :=
    (congrArg Process.state scene.lab.userTable_running).trans orderly.user.ready
  have distinct := orderly.sound.distinct
  have only {slot : TaskIndex} (used' : (scene.lab.tasks slot).state ≠ .unused)
      (shell' : (scene.lab.tasks slot).program = .shell)
      : slot = index :=
    orderly.one_shell used' used shell' shell
  cases step.family running with
  | keep same => rw [same]
  | birth _ _ free born =>
      rw [born, Family.size_born free]
      exact Nat.le_succ _
  | @collect pid child waits found exited gone =>
      -- the child has ended, so its parent is the shell; but that does not run
      have mortal := orderly.generations.exited child exited
      rw [scene.lab.userTable_program] at mortal
      obtain ⟨used', _, parent⟩ := ProcessTable.Sound.child_spec found
      obtain ⟨slot, alive, role, number⟩ := orderly.parent_shell (Lab.used_iff.mp used') mortal
      have here := distinct slot scene.lab.current (Lab.used_iff.mpr alive)
        (Process.Live.used (Or.inl running)) (number.trans parent)
      exact absurd ((only alive role).symm.trans here) different
  | @reap status parent ends mortal awaits gone =>
      -- the shell would wait for the one that ends
      have current : (scene.lab.tasks scene.lab.current).state ≠ .unused := by
        rw [orderly.user.ready]
        decide
      change (scene.lab.userTable.slots scene.lab.current).program ≠ .init
        ∧ (scene.lab.userTable.slots scene.lab.current).program ≠ .shell at mortal
      rw [scene.lab.userTable_program] at mortal
      obtain ⟨slot, alive, role, number⟩ := orderly.parent_shell current mortal
      have here := distinct slot parent (Lab.used_iff.mpr alive)
        (Process.Live.used (Or.inr awaits.2.1)) (number.trans awaits.1.symm)
      obtain ⟨_, pending, _⟩ := (orderly.ledger index used).agrees.waits (by
        rw [← only alive role, here]
        exact awaits.2.1)
      cases idle.symm.trans pending

/-- While the shell runs and calls nothing, nobody leaves the family either. -/
theorem Scene.Orderly.size_other {event : LabEvent} {lab' : Lab}
    (orderly : scene.Orderly (residents rounds) image spawns)
    (noCall : ∀ error cr2 scratch, event ≠ .interrupt 128 error cr2 scratch)
    (stepped : labStep image event scene.lab = .ok ((), lab'))
    (shell : (scene.lab.tasks scene.lab.current).program = .shell)
    : scene.lab.userTable.family.size ≤ lab'.userTable.family.size := by
  obtain ⟨_, step⟩ := orderly.user.step stepped
  have running : scene.lab.userTable.running.state = .ready :=
    (congrArg Process.state scene.lab.userTable_running).trans orderly.user.ready
  cases step.family running with
  | keep same => rw [same]
  | birth _ _ free born =>
      rw [born, Family.size_born free]
      exact Nat.le_succ _
  | collect waits =>
      rcases scene.lab.action_other noCall with computes | ⟨status, ends⟩
      · rw [waits] at computes
        exact computes.elim
      · cases waits.symm.trans ends
  | reap _ mortal =>
      have named : scene.lab.userTable.running.program = .shell :=
        (congrArg Process.program scene.lab.userTable_running).trans shell
      exact absurd named mortal.2

/-- With memory for eight tasks only a full table refuses a spawn. -/
theorem Scene.Orderly.full_of_kept {error cr2 : U64} {scratch : Stack} {lab' : Lab}
    {program : Program} (orderly : scene.Orderly (residents rounds) image spawns)
    (memory : 8 * (codePages image + 9) ≤ scene.lab.frameTotal image)
    (call : Syscall.ofNumber (scene.lab.cpu.general .rax) = some .spawn)
    (permitted
      : spawnable (scene.lab.tasks scene.lab.current).program (scene.lab.cpu.general .rdi)
        = some program)
    (stepped : labStep image (.interrupt 128 error cr2 scratch) scene.lab = .ok ((), lab'))
    (kept : lab'.userTable.family = scene.lab.userTable.family)
    : scene.lab.userTable.family.size = 8 := by
  refine Family.size_full.mpr fun index free => ?_
  have unused : (scene.lab.tasks index).state = .unused :=
    (scene.lab.userTable_state index).symm.trans (Process.member_none.mp free)
  have few : scene.lab.userTable.liveSlots.card ≤ 7 := by
    have absent : index ∉ scene.lab.userTable.liveSlots := by
      rw [ProcessTable.mem_liveSlots]
      exact fun live => live.used (Process.member_none.mp free)
    have less := Finset.card_lt_univ_of_notMem absent
    rw [Fintype.card_fin] at less
    omega
  have enough : codePages image + 9 ≤ scene.lab.machine.pages.freeCount.toNat := by
    have most := Nat.mul_le_mul_left (codePages image + 9) few
    unfold Lab.frameTotal at memory
    omega
  obtain ⟨_, slot, stepped', empty, table, _⟩ :=
    orderly.user.spawn_built call permitted ⟨index, unused⟩ enough error cr2 scratch
  cases stepped.symm.trans stepped'
  obtain ⟨born, _⟩ := ProcessTable.spawned_slots table
  have there := congrFun kept slot
  rw [show scene.lab.userTable.family slot = none from
    Process.member_none.mpr ((scene.lab.userTable_state slot).trans empty)] at there
  cases (congrArg Process.state born).symm.trans (Process.member_none.mp there)

-----------------------------------------------------------------------------------------
-- Room for children
-----------------------------------------------------------------------------------------

/-- As many of the last calls as are spawns, so many processes there are beside two, if there is
room.
-/
def Fills (exchanges : List (Request × Reply)) (size : Nat) : Prop :=
  ∀ front last,
    exchanges = front ++ last
    → (∀ exchange ∈ last, exchange.1.Spawns)
    → min 8 (2 + last.length) ≤ size

section Fills

variable {exchanges : List (Request × Reply)} {request : Request} {reply : Reply} {size size' : Nat}

theorem fills_nil (two : 2 ≤ size) : Fills [] size := by
  intro front last same _
  obtain ⟨_, rfl⟩ := List.append_eq_nil_iff.mp same.symm
  simpa using two

theorem Fills.mono (fills : Fills exchanges size) (more : size ≤ size') : Fills exchanges size' :=
  fun front last same spawns => (fills front last same spawns).trans more

theorem Fills.two_le (fills : Fills exchanges size) : 2 ≤ size := by
  simpa using fills exchanges [] (by simp) (by simp)

/-- Another call ends the row of spawns. -/
theorem fills_other (other : ¬request.Spawns) (two : 2 ≤ size)
    : Fills (exchanges ++ [(request, reply)]) size := by
  intro front last same spawns
  rcases List.eq_nil_or_concat last with rfl | ⟨last, exchange, rfl⟩
  · simpa using two
  · rw [List.concat_eq_append, ← List.append_assoc] at same
    obtain ⟨_, same⟩ := List.append_inj' same rfl
    cases same
    exact absurd (spawns (request, reply) (by simp)) other

/-- One more spawn, that added a process or found no room. -/
theorem Fills.snoc (fills : Fills exchanges size) (grown : size' = size + 1 ∨ size' = 8)
    : Fills (exchanges ++ [(request, reply)]) size' := by
  have two := fills.two_le
  intro front last same spawns
  rcases List.eq_nil_or_concat last with rfl | ⟨last, exchange, rfl⟩
  · rw [List.length_nil]
    omega
  · rw [List.concat_eq_append, ← List.append_assoc] at same
    obtain ⟨rfl, _⟩ := List.append_inj' same rfl
    have before := fills front last rfl fun exchange member => spawns exchange (by simp [member])
    rw [List.concat_eq_append, List.length_append, List.length_singleton]
    omega

/-- After six spawns in a row the table is full. -/
theorem Fills.six (fills : Fills exchanges size) (six : SixSpawns exchanges) : 8 ≤ size := by
  obtain ⟨front, last, same, length, spawns⟩ := six
  simpa [length] using fills front last same spawns

end Fills

/-- The shell has spawned no unknown program and none beyond the slots, and the rows of its spawns
fill the table.
-/
structure Scene.Capacity (scene : Scene) (index : TaskIndex) : Prop where
  refused : RefusedIn (scene.threads index).exchanges
  fills
    : (scene.threads index).pending = none
      → Fills (scene.threads index).exchanges scene.lab.userTable.family.size

/-- A thread that the last event did not wake. -/
theorem Scene.Capacity.of_asking {lab' : Lab} {request : Option Request} {stored : List Byte}
    (refused : RefusedIn (scene.asking request index).exchanges)
    (waits
      : ∀ asked ∈ (scene.asking request index).pending,
          ¬asked.syscall = some .spawn)
    (fills
      : (scene.asking request index).pending = none
        → Fills (scene.asking request index).exchanges lab'.userTable.family.size)
    (two : 2 ≤ lab'.userTable.family.size)
    : (scene.advance lab' request stored).Capacity index := by
  have thread := scene.advance_thread lab' request stored index
  by_cases here : index = lab'.current
  · rw [if_pos here, Thread.resume] at thread
    cases pending : (scene.asking request index).pending with
    | none =>
        simp only [pending] at thread
        exact ⟨thread ▸ refused, fun _ => thread ▸ fills pending⟩
    | some asked =>
        simp only [pending] at thread
        have other := waits asked pending
        refine ⟨?_, fun _ => ?_⟩
        · rw [thread]
          exact refused.snoc fun spawn => absurd spawn other
        · rw [thread]
          exact fills_other (fun spawns => other spawns.1) two
  · rw [if_neg here] at thread
    exact ⟨thread ▸ refused, thread ▸ fills⟩

/-- The shell's calls keep its room. -/
theorem Scene.Orderly.call_capacity {error cr2 : U64} {scratch : Stack} {lab' : Lab}
    {request : Request} {stored : List Byte}
    (orderly : scene.Orderly (residents rounds) image spawns)
    (memory : 8 * (codePages image + 9) ≤ scene.lab.frameTotal image)
    (registers : request.Registers scene.lab.cpu)
    (stepped : labStep image (.interrupt 128 error cr2 scratch) scene.lab = .ok ((), lab'))
    (shell : (scene.lab.tasks scene.lab.current).program = .shell)
    (returned : scene.lab.Returned lab') (two : 2 ≤ lab'.userTable.family.size)
    (idle : (scene.threads scene.lab.current).pending = none)
    (capacity : scene.Capacity scene.lab.current)
    : (scene.advance lab' (some request) stored).Capacity scene.lab.current := by
  have current : (scene.lab.tasks scene.lab.current).state ≠ .unused := by
    rw [orderly.user.ready]
    decide
  have thread
      : (scene.advance lab' (some request) stored).threads scene.lab.current
        = ⟨(scene.threads scene.lab.current).exchanges
            ++ [(request, ⟨lab'.cpu.general .rax, stored⟩)], none⟩ := by
    rw [scene.advance_thread, if_pos returned.current.symm, scene.asking_here _ current idle]
    rfl
  have syscall : request.syscall = Syscall.ofNumber (scene.lab.cpu.general .rax) :=
    congrArg Syscall.ofNumber registers.1.symm
  by_cases spawn : request.syscall = some .spawn
  · obtain ⟨_, step⟩ := orderly.user.step stepped
    have call := syscall.symm.trans spawn
    have running : scene.lab.userTable.running.state = .ready :=
      (congrArg Process.state scene.lab.userTable_running).trans orderly.user.ready
    have named : scene.lab.userTable.running.program = .shell :=
      (congrArg Process.program scene.lab.userTable_running).trans shell
    have first := registers.first (Or.inr spawn)
    have fills := capacity.fills idle
    rw [scene.lab.action_call, call] at step
    cases step.family running with
    | keep same =>
        refine ⟨?_, fun _ => ?_⟩
        · rw [thread]
          exact capacity.refused.snoc fun _ _ => orderly.user.spawn_kept call stepped same
        · rw [thread]
          by_cases spawns : request.Spawns
          · obtain ⟨program, permitted⟩ := Option.ne_none_iff_exists'.mp spawns.2
            rw [first, ← shell] at permitted
            refine fills.snoc (Or.inr ?_)
            change lab'.userTable.family.size = 8
            rw [same]
            exact orderly.full_of_kept memory call permitted stepped same
          · exact fills_other spawns two
    | @birth number index program spawns permitted free born result =>
        obtain rfl := Action.spawn.inj spawns
        rw [named, ← first] at permitted
        refine ⟨?_, fun _ => ?_⟩
        · rw [thread]
          refine capacity.refused.snoc fun _ must => ?_
          rcases must with unknown | six
          · cases unknown.symm.trans permitted
          · have full : scene.lab.userTable.family.size = Fintype.card TaskIndex :=
              le_antisymm (Family.size_le _) (fills.six six)
            exact absurd free (Family.size_full.mp full index)
        · rw [thread]
          refine fills.snoc (Or.inl ?_)
          change lab'.userTable.family.size = _
          rw [born, Family.size_born free]
    | collect waits => cases waits
    | reap ends => cases ends
  · refine ⟨?_, fun _ => ?_⟩
    · rw [thread]
      exact capacity.refused.snoc fun asks => absurd asks spawn
    · rw [thread]
      exact fills_other (fun spawns => spawn spawns.1) two

/-- Every step keeps the room of the shell. -/
theorem Scene.Step.capacity {scene' : Scene} {spawns' : Nat}
    (step : scene.Step (residents rounds) image scene')
    (orderly : scene.Orderly (residents rounds) image spawns)
    (orderly' : scene'.Orderly (residents rounds) image spawns')
    (memory : 8 * (codePages image + 9) ≤ scene.lab.frameTotal image)
    (capacity
      : (scene.lab.tasks index).state ≠ .unused
        → (scene.lab.tasks index).program = .shell
        → scene.Capacity index)
    (used' : (scene'.lab.tasks index).state ≠ .unused)
    (shell' : (scene'.lab.tasks index).program = .shell)
    : scene'.Capacity index := by
  have two := orderly'.two_le used' shell'
  have current : (scene.lab.tasks scene.lab.current).state ≠ .unused := by
    rw [orderly.user.ready]
    decide
  have beside {event : LabEvent} {lab' : Lab} {request : Option Request} (stored : List Byte)
      (stepped : labStep image event scene.lab = .ok ((), lab'))
      (used' : (lab'.tasks index).state ≠ .unused) (shell' : (lab'.tasks index).program = .shell)
      (two : 2 ≤ lab'.userTable.family.size) (different : index ≠ scene.lab.current)
      : (scene.advance lab' request stored).Capacity index := by
    have thread := scene.asking_beside request different
    by_cases unused : (scene.lab.tasks index).state = .unused
    · rw [if_pos unused] at thread
      refine .of_asking ?_ ?_ ?_ two
      · rw [thread]
        exact refusedIn_nil
      · rw [thread]
        exact fun _ pending => nomatch pending
      · rw [thread]
        exact fun _ => fills_nil two
    · rw [if_neg unused] at thread
      have shell := (orderly.user.same_program stepped unused used').symm.trans shell'
      obtain ⟨refused, fills⟩ := capacity unused shell
      refine .of_asking ?_ ?_ ?_ two
      · rw [thread]
        exact refused
      · rw [thread]
        intro asked pending spawn
        rcases (orderly.ledger index unused).agrees.asked asked pending with wait | exit
        · cases spawn.symm.trans wait
        · cases spawn.symm.trans exit
      · rw [thread]
        exact fun idle => (fills idle).mono (orderly.size_beside stepped unused shell different idle)
  have idle := (orderly.ledger _ current).running rfl
  cases step with
  | @other lab' event stored noCall stepped =>
      rcases eq_or_ne index scene.lab.current with rfl | different
      · have thread := scene.asking_here none current idle
        have shell := (orderly.user.same_program stepped current used').symm.trans shell'
        obtain ⟨refused, fills⟩ := capacity current shell
        refine .of_asking (by rw [thread]; exact refused) ?_ (fun _ => ?_) two
        · rw [thread]
          exact fun _ pending => nomatch pending
        · rw [thread]
          exact (fills idle).mono (orderly.size_other noCall stepped shell)
      · exact beside stored stepped used' shell' two different
  | @call lab' request error cr2 scratch stored registers follows stepped =>
      rcases eq_or_ne index scene.lab.current with rfl | different
      · have thread := scene.asking_here (some request) current idle
        have shell := (orderly.user.same_program stepped current used').symm.trans shell'
        have capacity := capacity current shell
        have syscall : request.syscall = Syscall.ofNumber (scene.lab.cpu.general .rax) :=
          congrArg Syscall.ofNumber registers.1.symm
        -- a call that does not return leaves the calls so far as they are
        have asks (named : request.syscall = some .wait ∨ request.syscall = some .exit)
            : (scene.advance lab' (some request) stored).Capacity scene.lab.current := by
          refine .of_asking (by rw [thread]; exact capacity.refused) ?_ ?_ two
          · rw [thread]
            rintro _ ⟨⟩ spawn
            rcases named with wait | exit
            · cases spawn.symm.trans wait
            · cases spawn.symm.trans exit
          · rw [thread]
            exact fun pending => nomatch pending
        by_cases exit : Syscall.ofNumber (scene.lab.cpu.general .rax) = some .exit
        · exact asks (Or.inr (syscall.trans exit))
        · rcases orderly.user.call_books exit stepped orderly.sound orderly'.sound with
            returned | blocked
          · exact orderly.call_capacity memory registers stepped shell returned two idle capacity
          · exact asks (Or.inl (syscall.trans blocked.call))
      · exact beside stored stepped used' shell' two different

end Orderly

section Run

variable {image : List Byte} {info : BootInfo} {start : Lab} {rounds spawns : Nat} {scene : Scene}
  {codes : Program → Option (UserCode PUnit)}

/-- After the boot `init` holds its frames. -/
theorem Scene.ReachedAfter.boot_total
    (reached : Scene.ReachedAfter codes image info start spawns scene) (guaranteed : info.Guaranteed)
    : start.frameTotal image = start.machine.pages.freeCount.toNat + (codePages image + 9) := by
  induction reached with
  | boot booted bare =>
      obtain ⟨_, _, bare', started⟩ := kernelMain_bare booted bare guaranteed
      rw [Lab.frameTotal, (taskStart_booted started bare').2.1, ProcessTable.boot_live, Nat.mul_one]
  | step _ _ ih => exact ih

/-- No step of a run changes the frames that are free or that some live task holds. -/
theorem Scene.ReachedAfter.total
    (reached : Scene.ReachedAfter codes image info start spawns scene) (guaranteed : info.Guaranteed)
    : scene.lab.frameTotal image = start.frameTotal image := by
  induction reached with
  | boot => rfl
  | step reached step ih =>
      obtain ⟨_, stepped⟩ := step.stepped
      exact ((reached.lab.reachable.user guaranteed).frameTotal_kept stepped).trans ih

/-- The shell has its room in every scene of a run. Witness: induction on the run. -/
theorem Scene.ReachedAfter.capacity
    (reached : Scene.ReachedAfter (residents rounds) image info start spawns scene)
    (guaranteed : info.Guaranteed) (bound : spawns < 2 ^ 32 - 1)
    (memory : 8 * (codePages image + 9) ≤ start.frameTotal image) (index : TaskIndex)
    (used : (scene.lab.tasks index).state ≠ .unused)
    (shell : (scene.lab.tasks index).program = .shell)
    : scene.Capacity index := by
  induction reached generalizing index with
  | boot booted bare =>
      have reached : Scene.ReachedAfter (residents rounds) image info start 0 ⟨start, fun _ => .fresh⟩ :=
        .boot booted bare
      have two := (reached.orderly guaranteed bound).two_le used shell
      exact ⟨refusedIn_nil, fun _ => fills_nil two⟩
  | @step spawns scene scene' reached step ih =>
      have before : spawns < 2 ^ 32 - 1 := Nat.lt_of_le_of_lt (Nat.le_add_right ..) bound
      refine step.capacity (reached.orderly guaranteed before)
        ((reached.step step).orderly guaranteed bound) ?_ (ih before index) used shell
      rw [reached.total guaranteed]
      exact memory

end Run

-----------------------------------------------------------------------------------------
-- At the prompt
-----------------------------------------------------------------------------------------

/-- What `shell` prints first. -/
def shellGreets : UserCode PUnit := do
  print "MiniLinux / x86_64 teaching kernel\n"
  print "Type 'help' for commands.\n\n"

/-- The shell is between the end of a command and the next Enter. It has greeted and made whole
rounds of its loop. Since then it has at most printed the prompt and polled for keys, the last poll
perhaps in part; or the next command has come to its end, and the round is not yet over.
-/
structure Scene.AtPrompt (rounds : Nat) (scene : Scene) (index : TaskIndex) : Prop where
  used : (scene.lab.tasks index).state ≠ .unused
  shell : (scene.lab.tasks index).program = .shell
  idle : (scene.threads index).pending = none
  calls
    : ∃ first greeting loops last line,
        (scene.threads index).exchanges = (programCall, first) :: (greeting ++ loops ++ last)
        ∧ shellGreets.Runs greeting ⟨⟩
        ∧ Repeats (shellRound rounds) Buffer.fresh loops line
        ∧ ((∃ rest, (shellTypes rounds line).Reaches last rest)
          ∨ ∃ line', (shellTypes rounds line >>= shellObeys rounds).Runs last line')

section AtPrompt

variable {image : List Byte} {rounds spawns : Nat} {scene : Scene} {shell : TaskIndex}

/-- At the prompt the calls of the shell add up to nothing. -/
theorem Scene.AtPrompt.account (prompt : scene.AtPrompt rounds shell) (capacity : scene.Capacity shell)
    : Account.of (scene.threads shell).exchanges = .empty := by
  obtain ⟨first, greeting, loops, last, line, same, greets, repeats, current⟩ := prompt.calls
  have refused := capacity.refused
  have asks : programCall.Neutral := by decide
  have greeted : Account.of ((programCall, first) :: greeting) = .empty := by
    refine @Account.of_neutral [] _ fun exchange member => ?_
    rcases List.mem_cons.mp member with rfl | member
    · exact asks
    · exact ((print_neutral _).bind fun _ => print_neutral _).runs greets exchange member
  have shape : (scene.threads shell).exchanges
      = (programCall, first) :: greeting ++ loops ++ last := by
    rw [same]
    simp
  rw [shape] at refused ⊢
  have before : Account.of ((programCall, first) :: greeting ++ loops) = .empty :=
    repeats_settle (shellRound_settles rounds) repeats refused.front greeted
  rcases current with ⟨rest, typing⟩ | ⟨line', run⟩
  · rw [Account.of_neutral ((shellTypes_neutral rounds line).reaches typing)]
    exact before
  · have settles : Settles (shellTypes rounds line >>= shellObeys rounds) :=
      (Settles.of_neutral (shellTypes_neutral rounds line)).bind (shellObeys_settles rounds)
    exact settles _ _ _ run refused before

/-- At the prompt the shell has no children and no open descriptors. -/
theorem Scene.AtPrompt.books (prompt : scene.AtPrompt rounds shell) (capacity : scene.Capacity shell)
    (ledger : scene.Ledger shell)
    : scene.lab.userTable.books shell = ⟨∅, ∅⟩ := by
  have busy : (scene.lab.userTable.slots shell).state ≠ .waiting := by
    intro waiting
    obtain ⟨_, pending, _⟩ := ledger.agrees.waits waiting
    cases prompt.idle.symm.trans pending
  rw [ledger.agrees.settled busy, Thread.settled, prompt.idle]
  dsimp only
  rw [prompt.account capacity, Account.empty_books]

/-- Nobody but `init` and a shell without children. -/
theorem Scene.Orderly.used_iff {index : TaskIndex}
    (orderly : scene.Orderly (residents rounds) image spawns)
    (used : (scene.lab.tasks shell).state ≠ .unused)
    (role : (scene.lab.tasks shell).program = .shell)
    (childless : (scene.lab.userTable.books shell).children = ∅)
    : (scene.lab.tasks index).state ≠ .unused ↔ index = 0 ∨ index = shell := by
  constructor
  · intro there
    by_contra others
    obtain ⟨away, apart⟩ := not_or.mp others
    have here := scene.member there
    have mortal : (scene.lab.tasks index).program ≠ .init
        ∧ (scene.lab.tasks index).program ≠ .shell := by
      rcases orderly.generations.later index _ here away with ⟨_, also⟩ | ⟨mortal, _⟩
      · exact absurd (orderly.one_shell there used also role) apart
      · exact mortal
    obtain ⟨parent, alive, also, number⟩ := orderly.parent_shell there mortal
    obtain rfl := orderly.one_shell alive used also role
    rw [← number] at here
    have child : wide (scene.lab.userTable.slots index).id
        ∈ (scene.lab.userTable.books parent).children :=
      ⟨_, ⟨index, _, here⟩, rfl⟩
    rw [childless] at child
    exact child
  · rintro (rfl | rfl)
    · exact Lab.used_iff.mp (Process.member_inv orderly.generations.first).1
    · exact used

/-- Whenever the shell is at its prompt, whatever was typed before and however the programs and
their ends came between: only `init` and the shell are there, the shell has no descriptor open, and
the free frames are those of the start but for the shell's own. The memory is enough for eight
tasks.
-/
theorem prompt_restores_machine {info : BootInfo} {start : Lab}
    (reached : Scene.ReachedAfter (residents rounds) image info start spawns scene)
    (guaranteed : info.Guaranteed) (bound : spawns < 2 ^ 32 - 1)
    (memory : 7 * (codePages image + 9) ≤ start.machine.pages.freeCount.toNat)
    (prompt : scene.AtPrompt rounds shell)
    : (∀ index, (scene.lab.tasks index).state ≠ .unused ↔ index = 0 ∨ index = shell)
      ∧ (∀ descriptor, ((scene.lab.tasks shell).files descriptor).used = false)
      ∧ scene.lab.machine.pages.freeCount.toNat + (codePages image + 9)
        = start.machine.pages.freeCount.toNat := by
  have orderly := reached.orderly guaranteed bound
  have boot := reached.boot_total guaranteed
  have total := reached.total guaranteed
  have capacity := reached.capacity guaranteed bound (by omega) shell prompt.used prompt.shell
  have books := prompt.books capacity (orderly.ledger shell prompt.used)
  have only (index : TaskIndex) := @Scene.Orderly.used_iff _ _ _ _ _ index orderly prompt.used
    prompt.shell (congrArg Books.children books)
  have apart : (0 : TaskIndex) ≠ shell := by
    rintro rfl
    have here := orderly.generations.first.symm.trans (scene.member prompt.used)
    cases (congrArg Member.role (Option.some.inj here)).trans prompt.shell
  have live : scene.lab.userTable.liveSlots = {0, shell} := by
    ext index
    rw [ProcessTable.mem_liveSlots, Finset.mem_insert, Finset.mem_singleton]
    constructor
    · exact fun live => (only index).mp (Lab.used_iff.mp live.used)
    · rintro (rfl | rfl)
      · exact orderly.generations.live orderly.generations.first (Or.inl rfl)
      · exact orderly.generations.live (scene.member prompt.used) (Or.inr prompt.shell)
  refine ⟨only, fun descriptor => ?_, ?_⟩
  · obtain ⟨context, same⟩ := scene.lab.userTable_slot shell
    have closed : (scene.lab.userTable.slots shell).files.opened = ∅ := congrArg Books.opened books
    rw [same] at closed
    by_contra used
    have opened : descriptorNumber descriptor ∈ (scene.lab.tasks shell).files.opened :=
      ⟨descriptor, Bool.eq_true_of_not_eq_false used, rfl⟩
    exact Set.eq_empty_iff_forall_notMem.mp closed _ opened
  · rw [boot, Lab.frameTotal, live, Finset.card_pair apart] at total
    omega

end AtPrompt

-----------------------------------------------------------------------------------------
-- A sample
-----------------------------------------------------------------------------------------

theorem userMain_asks (rounds : Nat)
    : userMain rounds
      = .ask programCall fun reply =>
          programMain rounds (reply.result.setWidth 32)
            >>= fun _ => .ask (exitCall 0) fun _ => .spent :=
  rfl

/-- What `init` prints before it starts the shell. -/
theorem initMain_plays (next : PUnit → UserCode PUnit)
    : ∃ rest,
        (initMain >>= next).Plays
          (lines [.tells (.write (textBytes "init: PID 1 entered user mode; starting shell\n"))])
          (.ask (spawnCall 1) rest) := by
  unfold initMain
  rw [print_short (by decide) (by decide)]
  exact ⟨_, .ask fun _ _ => .refl _⟩

def greetingScript : List Cue :=
  [.tells (.write (textBytes "MiniLinux / x86_64 teaching kernel\n")),
    .tells (.write (textBytes "Type 'help' for commands.\n\n"))]

theorem shellGreets_plays : shellGreets.Plays (lines greetingScript) (.done ⟨⟩) := by
  unfold shellGreets
  rw [print_short (by decide) (by decide), print_short (by decide) (by decide)]
  exact .ask fun _ _ => .ask fun _ _ => .refl _

theorem shell_greets (rounds : Nat)
    : shell rounds = shellGreets >>= fun _ => iterate (shellRound rounds) rounds Buffer.fresh :=
  (bind_bind _ _ _).symm

def helpScript : List Cue :=
  [.tells (.write (textBytes "help | ls | cat FILE | ps | run PROGRAM [PROGRAM]\n")),
    .tells (.write (textBytes "programs: hello reader counter-a counter-b fault\n")),
    .tells (.write (textBytes "observe: mem | check\n"))]

theorem help_plays (rounds : Nat)
    : ∃ left, (command rounds (textBytes "help")).Plays (lines helpScript) (.done left) := by
  have words : wordsOf (textBytes "help") = some [textBytes "help"] := by decide
  have named : equal (textBytes "help") (textBytes "help") = true ∧ [textBytes "help"].length = 1 := by
    decide
  refine ⟨(tokenize [] [] false (textBytes "help")).1, ?_⟩
  unfold command
  rw [words]
  dsimp only [dispatch]
  rw [if_pos named, print_short (by decide) (by decide), print_short (by decide) (by decide),
    print_short (by decide) (by decide)]
  exact .ask fun _ _ => .ask fun _ _ => .ask fun _ _ => .refl _

section Sample

variable {image : List Byte} {info : BootInfo} {start : Lab} {rounds spawns : Nat} {scene : Scene}

theorem same_state {lab lab' : Lab} {index : TaskIndex}
    (role : (lab.userTable.slots index).SameRole (lab'.userTable.slots index))
    : (lab'.tasks index).state = (lab.tasks index).state := by
  rw [← lab'.userTable_state, role.state, lab.userTable_state]

theorem same_program {lab lab' : Lab} {index : TaskIndex}
    (role : (lab.userTable.slots index).SameRole (lab'.userTable.slots index))
    : (lab'.tasks index).program = (lab.tasks index).program := by
  rw [← lab'.userTable_program, role.program, lab.userTable_program]

/-- A resident that has called nothing asks for its program, and then does what that program does. -/
theorem Scene.ReachedAfter.named {program : Program}
    (reached : Scene.ReachedAfter (residents rounds) image info start spawns scene)
    (guaranteed : info.Guaranteed) (bound : spawns < 2 ^ 32 - 1)
    (role : (scene.lab.tasks scene.lab.current).program = program)
    (new : (scene.threads scene.lab.current).exchanges = [])
    : ∃ scene' reply,
        Scene.ReachedAfter (residents rounds) image info start spawns scene'
        ∧ scene.Remains scene'
        ∧ scene'.lab.received = scene.lab.received
        ∧ (scene'.threads scene'.lab.current).exchanges = [(programCall, reply)]
        ∧ scene'.At (residents rounds)
            (programMain rounds (program.number.setWidth 32)
              >>= fun _ => .ask (exitCall 0) fun _ => .spent) := by
  have here : scene.At (residents rounds) (userMain rounds) := by
    intro code known
    rw [new]
    unfold residents at known
    split_ifs at known
    · cases known
      exact .refl _
    · cases known
  rw [userMain_asks] at here
  obtain ⟨scene', reply, reached', continues⟩ :=
    @Scene.ReachedAfter.asks _ _ _ _ _ _ reached guaranteed bound programCall
      ⟨by decide, by decide, by decide⟩ here.asks
  have thread := continues.thread
  rw [new, ← continues.current] at thread
  have there := here.continues continues
  have result : reply.result = program.number := by
    have user := reached'.lab.reachable.user guaranteed
    have used : (scene'.lab.tasks scene'.lab.current).state ≠ .unused := by
      rw [user.ready]
      decide
    have same : (scene'.lab.tasks scene'.lab.current).program = program := by
      rw [continues.current, same_program (continues.roles _)]
      exact role
    rw [← same]
    refine (reached'.follows guaranteed bound _ used).named (programCall, reply) ?_ rfl
    rw [thread]
    exact List.mem_cons_self
  rw [result] at there
  exact ⟨scene', reply, reached', continues.toRemains, continues.received (by decide),
    by rw [thread]; rfl, there⟩

end Sample

/-- In the sample `init` has started the shell, which the timer lets run for the first time, and the
line `help` waits.
-/
theorem sample_shell_enters
    : ∃ start scene shell,
        Scene.ReachedAfter (residents 8) sampleImage (flatInfo 128) start 1 scene
        ∧ start.machine.pages.freeCount.toNat = 116
        ∧ scene.lab.current = shell
        ∧ (scene.lab.tasks shell).program = .shell
        ∧ (scene.threads shell).exchanges = []
        ∧ scene.lab.received = textBytes "help\r" := by
  have guaranteed := flat_guaranteed 128
  obtain ⟨machine, paged, free⟩ := @flat_paged 128 (by decide) (by decide) (by decide)
  have pages := sample_codePages
  obtain ⟨start, booted, counted⟩ :=
    kernelMain_boots sample_cold guaranteed rfl sample_sized paged (by omega)
  obtain ⟨_, _, bare, started⟩ := kernelMain_bare booted sample_cold guaranteed
  have table : start.userTable = .boot := (taskStart_booted started bare).2.1
  have current : start.current = 0 := congrArg ProcessTable.current table
  have silent : start.received = [] := kernelMain_received booted sample_cold guaranteed
  have init : (start.tasks 0).program = .init := by
    rw [← start.userTable_program, table]
    rfl
  have empty {index : TaskIndex} (different : index ≠ 0) : (start.tasks index).state = .unused := by
    rw [← start.userTable_state, table]
    exact ProcessTable.boot_empty different
  have reached : Scene.ReachedAfter (residents 8) sampleImage (flatInfo 128) start 0
      ⟨start, fun _ => .fresh⟩ :=
    .boot booted sample_cold
  -- `init` greets and starts the shell
  obtain ⟨scene₁, _, reached₁, remains₁, received₁, _, at₁⟩ :=
    reached.named guaranteed (by decide) (show (start.tasks start.current).program = .init
      from current ▸ init) rfl
  obtain ⟨_, greets⟩ := initMain_plays fun _ => .ask (exitCall 0) fun _ => .spent
  obtain ⟨scene₂, _, reached₂, _, remains₂, received₂, _, at₂⟩ :=
    reached₁.plays greets (by decide) guaranteed (by decide) (received₁.trans silent) at₁
  have remains := remains₁.trans remains₂
  have current₂ : scene₂.lab.current = 0 := remains.current.trans current
  have state₂ (index : TaskIndex) : (scene₂.lab.tasks index).state = (start.tasks index).state :=
    same_state (remains.roles index)
  have permitted : spawnable (scene₂.lab.tasks scene₂.lab.current).program 1 = some .shell := by
    rw [current₂, same_program (remains.roles 0)]
    exact congrArg (spawnable · 1) init
  have enough : codePages sampleImage + 9 ≤ scene₂.lab.machine.pages.freeCount.toNat := by
    rw [remains.free]
    change _ ≤ start.machine.pages.freeCount.toNat
    omega
  obtain ⟨scene₃, shell, reached₃, starts⟩ :=
    reached₂.starts guaranteed (by decide) permitted ⟨1, (state₂ 1).trans (empty (by decide))⟩ enough
      at₂.asks
  have ready₃ : (scene₃.lab.tasks shell).state = .ready := by
    rw [← scene₃.lab.userTable_state, starts.born]
    rfl
  have current₃ : scene₃.lab.current = 0 := starts.current.trans current₂
  have apart : shell ≠ scene₃.lab.current := by
    rw [starts.current]
    rintro rfl
    cases starts.unused.symm.trans (reached₂.lab.reachable.user guaranteed).ready
  -- the timer lets it run, and `help` and Enter arrive
  obtain ⟨scene₄, reached₄, table₄, free₄, received₄, thread₄⟩ :=
    reached₃.switches guaranteed ready₃ apart (fun other ready => by
      by_contra neither
      obtain ⟨away, different⟩ := not_or.mp neither
      rw [current₃] at away
      rw [same_state (starts.roles other different), state₂, empty away] at ready
      cases ready) (by rw [starts.fresh]; rfl)
  obtain ⟨scene, reached', remains', received', thread'⟩ :=
    reached₄.arrives guaranteed (by decide) (textBytes "help\r")
  have current₄ : scene₄.lab.current = shell := congrArg ProcessTable.current table₄
  refine ⟨start, scene, shell, reached', by omega, remains'.current.trans current₄, ?_, ?_, ?_⟩
  · rw [same_program (remains'.roles shell), ← scene₄.lab.userTable_program, table₄]
    exact congrArg Process.program starts.born
  · rw [← current₄, thread', current₄, thread₄, starts.fresh]
    rfl
  · rw [received', received₄, starts.received, received₂]
    rfl

/-- In the sample `help` has been typed and has run. The shell is in the first poll after the next
prompt.
-/
theorem prompt_restores_machine_on_sample
    : ∃ start scene shell past reply,
        Scene.ReachedAfter (residents 8) sampleImage (flatInfo 128) start 1 scene
        ∧ (scene.threads shell).exchanges = past ++ [(.input, reply)]
        ∧ keys past = textBytes "help\r"
        ∧ scene.AtPrompt 8 shell
        ∧ (∀ index, (scene.lab.tasks index).state ≠ .unused ↔ index = 0 ∨ index = shell)
        ∧ (∀ descriptor, ((scene.lab.tasks shell).files descriptor).used = false)
        ∧ scene.lab.machine.pages.freeCount.toNat = 106 := by
  have guaranteed := flat_guaranteed 128
  have pages := sample_codePages
  obtain ⟨start, scene₁, shell, reached₁, counted, current₁, role₁, new₁, typed⟩ :=
    sample_shell_enters
  -- it greets, runs the line, and polls again
  obtain ⟨scene₂, first, reached₂, remains₂, received₂, thread₂, at₂⟩ :=
    reached₁.named guaranteed (by decide) (current₁ ▸ role₁) (current₁ ▸ new₁)
  change scene₂.At (residents 8) (User.shell 8 >>= _) at at₂
  rw [shell_greets, bind_bind] at at₂
  obtain ⟨scene₃, greeting, reached₃, greeted, remains₃, received₃, thread₃, at₃⟩ :=
    reached₂.plays (shellGreets_plays.bind _) (by decide) guaranteed (by decide)
      (received₂.trans typed) at₂
  obtain ⟨_, helps⟩ := help_plays 8
  obtain ⟨line, round⟩ :=
    @shellRound_plays _ 8 _ _ Buffer.fresh (by decide) (by decide) (by decide) helps
  obtain ⟨scene₄, loops, reached₄, looped, remains₄, received₄, thread₄, at₄⟩ :=
    reached₃.plays ((round.iterate 7).bind _) (by decide) guaranteed (by decide) received₃ at₃
  obtain ⟨_, opens⟩ := shellTypes_opens 7 line
  obtain ⟨_, asks⟩ := shellRound_opens opens
  obtain ⟨_, turn⟩ := asks.iterate_asks 6
  obtain ⟨scene₅, opening, reached₅, opened, remains₅, _, thread₅, at₅⟩ :=
    reached₄.plays (turn.bind _) (by decide) guaranteed (by decide) received₄ at₄
  obtain ⟨scene, reply, reached, continues⟩ :=
    reached₅.asks guaranteed (by decide) ⟨by decide, by decide, by decide⟩ at₅.asks
  have remains : scene₁.Remains scene :=
    remains₂.trans (remains₃.trans (remains₄.trans (remains₅.trans continues.toRemains)))
  have here : scene.lab.current = shell := remains.current.trans current₁
  let past : List (Request × Reply) := (programCall, first) :: (greeting ++ loops ++ opening)
  have thread : scene.threads shell = ⟨past ++ [(.input, reply)], none⟩ := by
    have same := continues.thread
    rw [thread₅, thread₄, thread₃, thread₂, ← continues.current, here] at same
    rw [same]
    simp [past]
  have prompt : scene.AtPrompt 8 shell := by
    refine ⟨?_, ?_, by rw [thread], first, greeting, loops, opening ++ [(.input, reply)], line, ?_,
      shellGreets_plays.runs greeted, .tail (.refl _) (round.runs looped),
      Or.inl ⟨_, (opens.reaches opened).answered reply⟩⟩
    · rw [← here, (reached.lab.reachable.user guaranteed).ready]
      decide
    · rw [same_program (remains.roles shell)]
      exact role₁
    · rw [thread]
      simp [past]
  have heard : keys past = textBytes "help\r" := by
    rw [keys_cons, keys_append, keys_append, keys_of_answers (by decide) greeted,
      keys_of_answers (by decide) looped, keys_of_answers (by decide) opened]
    rfl
  obtain ⟨only, closed, kept⟩ :=
    prompt_restores_machine reached guaranteed (by decide) (by omega) prompt
  exact ⟨start, scene, shell, past, reply, reached, by rw [thread], heard, prompt, only, closed,
    by omega⟩

end MiniLinux.User
