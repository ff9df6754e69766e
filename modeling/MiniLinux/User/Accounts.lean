import MiniLinux.User.Shell

/-! What a program takes from the kernel: children to wait for and descriptors to close.
An account is kept of the calls and their results. The account of the shell is empty at every
prompt, provided that the kernel refused the spawns that the shell expects to be refused.
-/

namespace MiniLinux.User

open Foundation Interaction

-----------------------------------------------------------------------------------------
-- Accounts
-----------------------------------------------------------------------------------------

/-- The number that a call passes in `rax`. -/
def Request.number : Request → U64
  | .plain number _ _ _ => number
  | .write _ => 1
  | .open _ => 5
  | .read _ _ => 6
  | .input => 11
  | .process _ => 12
  | .file _ => 13
  | .memory => 14

/-- What a call passes in `rdi`, where that is no pointer. -/
def Request.first : Request → U64
  | .plain _ a _ _ => a
  | .read fd _ => fd
  | .process index => index
  | .file index => index
  | _ => 0

def Request.syscall (request : Request) : Option Syscall := Syscall.ofNumber request.number

/-- The children that a program has and did not wait for, and the descriptors that it did not close. -/
structure Account where
  children : Finset U64
  descriptors : Finset U64

namespace Account

def empty : Account := ⟨∅, ∅⟩

/-- The account after a call returned. -/
def after (account : Account) (exchange : Request × Reply) : Account :=
  let (request, reply) := exchange
  match request.syscall with
  | some .spawn =>
      if (0 : U64).slt reply.result then
        { account with children := insert reply.result account.children }
      else account
  | some .wait => { account with children := account.children.erase request.first }
  | some .open =>
      if reply.result.slt 0 then account
      else { account with descriptors := insert reply.result account.descriptors }
  | some .close => { account with descriptors := account.descriptors.erase request.first }
  | _ => account

/-- The account after all of these calls. -/
def of (exchanges : List (Request × Reply)) : Account := exchanges.foldl after empty

@[simp] theorem of_nil : of [] = empty := rfl

theorem of_append (history more : List (Request × Reply))
    : of (history ++ more) = more.foldl after (of history) :=
  List.foldl_append

@[simp] theorem of_snoc (history : List (Request × Reply)) (exchange : Request × Reply)
    : of (history ++ [exchange]) = (of history).after exchange :=
  of_append history [exchange]

end Account

/-- The call changes no account. -/
def Request.Neutral (request : Request) : Prop :=
  request.syscall ∉ [some .spawn, some .wait, some .open, some .close]

instance (request : Request) : Decidable request.Neutral := inferInstanceAs (Decidable (¬_))

theorem Request.Neutral.after {request : Request} (neutral : request.Neutral) (account : Account)
    (reply : Reply)
    : account.after (request, reply) = account := by
  simp only [Request.Neutral, List.mem_cons, List.not_mem_nil, or_false, not_or] at neutral
  unfold Account.after
  dsimp only
  split
  · next spawn => exact absurd spawn neutral.1
  · next wait => exact absurd wait neutral.2.1
  · next opened => exact absurd opened neutral.2.2.1
  · next close => exact absurd close neutral.2.2.2
  · rfl

/-- Neutral calls change nothing. Witness: induction on the calls. -/
theorem Account.of_neutral {history more : List (Request × Reply)}
    (neutral : ∀ exchange ∈ more, exchange.1.Neutral)
    : Account.of (history ++ more) = Account.of history := by
  induction more using List.reverseRecOn with
  | nil => rw [List.append_nil]
  | append_singleton more exchange ih =>
      obtain ⟨request, reply⟩ := exchange
      have here : request.Neutral := neutral (request, reply) (by simp)
      rw [← List.append_assoc, Account.of_snoc, here.after]
      exact ih fun other member => neutral other (List.mem_append_left _ member)

-----------------------------------------------------------------------------------------
-- Refused spawns
-----------------------------------------------------------------------------------------

/-- The call spawns a program that the shell may start. -/
def Request.Spawns (request : Request) : Prop :=
  request.syscall = some .spawn ∧ spawnable .shell request.first ≠ none

/-- The last six calls are spawns, as they are where `boundary_check` makes its seventh. -/
def SixSpawns (history : List (Request × Reply)) : Prop :=
  ∃ front six,
    history = front ++ six
    ∧ six.length = 6
    ∧ ∀ exchange ∈ six, exchange.1.Spawns

/-- No spawn of an unknown program and no seventh spawn in a row has succeeded. -/
def RefusedIn (history : List (Request × Reply)) : Prop :=
  ∀ before request reply rest,
    history = before ++ (request, reply) :: rest
    → request.syscall = some .spawn
    → spawnable .shell request.first = none ∨ SixSpawns before
    → (0 : U64).slt reply.result = false

theorem RefusedIn.front {history more : List (Request × Reply)} (refused : RefusedIn (history ++ more))
    : RefusedIn history := by
  intro before request reply rest same spawn must
  refine refused before request reply (rest ++ more) ?_ spawn must
  rw [same]
  simp

theorem refusedIn_nil : RefusedIn [] := by
  intro before request reply rest same
  simp at same

/-- One more call. -/
theorem RefusedIn.snoc {history : List (Request × Reply)} {request : Request} {reply : Reply}
    (refused : RefusedIn history)
    (last
      : request.syscall = some .spawn
        → spawnable .shell request.first = none ∨ SixSpawns history
        → (0 : U64).slt reply.result = false)
    : RefusedIn (history ++ [(request, reply)]) := by
  intro before other reply' rest same spawn must
  rcases List.eq_nil_or_concat rest with rfl | ⟨rest, exchange, rfl⟩
  · obtain ⟨rfl, last'⟩ := List.append_inj' same rfl
    cases last'
    exact last spawn must
  · rw [List.concat_eq_append, ← List.cons_append, ← List.append_assoc] at same
    obtain ⟨rfl, _⟩ := List.append_inj' same rfl
    exact refused before other reply' rest rfl spawn must

-----------------------------------------------------------------------------------------
-- Programs that settle their account
-----------------------------------------------------------------------------------------

/-- A program that starts with an empty account ends with one. -/
def Settles {α : Type} (program : UserCode α) : Prop :=
  ∀ history exchanges value,
    program.Runs exchanges value
    → RefusedIn (history ++ exchanges)
    → Account.of history = .empty
    → Account.of (history ++ exchanges) = .empty

section Settles

variable {α β : Type} {program : UserCode α}

theorem settles_done (value : α) : Settles (.done value : UserCode α) := by
  rintro history exchanges _ run _ empty
  obtain ⟨rfl, _⟩ := runs_done.mp run
  rwa [List.append_nil]

theorem Settles.bind {next : α → UserCode β} (settles : Settles program)
    (later : ∀ value, Settles (next value))
    : Settles (program >>= next) := by
  intro history exchanges value run refused empty
  obtain ⟨first, middle, second, rfl, here, run⟩ := runs_bind.mp run
  rw [← List.append_assoc] at refused ⊢
  exact later middle _ _ _ run refused (settles _ _ _ here refused.front empty)

theorem Settles.of_neutral (neutral : program.AsksOnly Request.Neutral) : Settles program := by
  intro history exchanges value run _ empty
  rw [Account.of_neutral (neutral.runs run), empty]

end Settles

/-- Complete rounds of a loop. Witness: induction on the rounds. -/
theorem repeats_settle {σ α : Type} {step : σ → UserCode (σ ⊕ α)}
    (round : ∀ state, Settles (step state)) {history exchanges : List (Request × Reply)}
    {state state' : σ} (rounds : Repeats step state exchanges state')
    (refused : RefusedIn (history ++ exchanges)) (empty : Account.of history = .empty)
    : Account.of (history ++ exchanges) = .empty := by
  induction rounds with
  | refl => rwa [List.append_nil]
  | tail _ last ih =>
      rw [← List.append_assoc] at refused ⊢
      exact round _ _ _ _ last refused (ih refused.front)

-----------------------------------------------------------------------------------------
-- Neutral parts of the programs
-----------------------------------------------------------------------------------------

theorem neutral_of_syscall {request : Request} {name : Syscall} (named : request.syscall = some name)
    (other : name ∉ [Syscall.spawn, .wait, .open, .close])
    : request.Neutral := by
  simpa [Request.Neutral, named] using other

theorem writeBytes_neutral (text : List Byte) : (writeBytes text).AsksOnly Request.Neutral := by
  induction text using writeBytes.induct with
  | case1 text empty =>
      unfold writeBytes
      simp only [empty, if_true, pure_eq, asksOnly_done]
  | case2 text some part ih =>
      unfold writeBytes
      simp only [some, if_false, call, request_bind, pure_eq, ask_bind, done_bind, asksOnly_ask]
      exact ⟨neutral_of_syscall rfl (by decide), fun _ => ih⟩

theorem print_neutral (message : String) : (print message).AsksOnly Request.Neutral :=
  writeBytes_neutral _

theorem finish_neutral (line : Line) : (finish line).AsksOnly Request.Neutral :=
  writeBytes_neutral _

theorem load_neutral {size : Nat} (buffer : Buffer size) (index : Nat)
    : (buffer.load index).AsksOnly Request.Neutral := by
  unfold Buffer.load
  split
  · split <;> trivial
  · trivial

theorem loadAll_neutral {size : Nat} (buffer : Buffer size) (index count : Nat)
    : (buffer.loadAll index count).AsksOnly Request.Neutral := by
  induction count generalizing index with
  | zero => trivial
  | succ count ih =>
      refine (load_neutral buffer index).bind fun byte => ?_
      exact (ih _).bind fun rest => trivial

theorem store_neutral {size : Nat} (buffer : Buffer size) (index : Nat) (byte : Byte)
    : (buffer.store index byte).AsksOnly Request.Neutral := by
  unfold Buffer.store
  split <;> trivial

theorem stringFrom_neutral {size : Nat} (buffer : Buffer size) (index limit : Nat)
    : (buffer.stringFrom index limit).AsksOnly Request.Neutral := by
  induction limit generalizing index with
  | zero => trivial
  | succ limit ih =>
      refine (load_neutral buffer index).bind fun c => ?_
      split
      · trivial
      · exact (ih _).bind fun rest => trivial

/-- A call of a neutral request. -/
theorem call_neutral {request : Request} (neutral : request.Neutral)
    : (call request).AsksOnly Request.Neutral :=
  ⟨neutral, fun _ => trivial⟩

theorem shellPoll_neutral (prompt : Prompt) : (shellPoll prompt).AsksOnly Request.Neutral := by
  refine ⟨by decide, fun reply => ?_⟩
  change AsksOnly _ (if reply.result ≠ 1 then _ else shellKey prompt (reply.stored.headD 0))
  split
  · refine (call_neutral (by decide)).bind fun now => ?_
    split
    · exact (call_neutral (by decide)).bind fun _ => trivial
    · trivial
  · unfold shellKey
    split
    · exact (writeBytes_neutral _).bind fun _ => trivial
    · split
      · split
        · exact (print_neutral _).bind fun _ => trivial
        · trivial
      · split
        · split
          · exact (store_neutral _ _ _).bind fun line => (writeBytes_neutral _).bind fun _ => trivial
          · trivial
        · trivial

theorem listFiles_neutral (rounds : Nat) : (listFiles rounds).AsksOnly Request.Neutral := by
  refine AsksOnly.iterate (fun state => ?_) rounds _
  obtain ⟨i, info⟩ := state
  refine ⟨neutral_of_syscall rfl (by decide), fun reply => ?_⟩
  change AsksOnly _ (if reply.result = 1 then _ else _)
  split
  · have name (bytes : List Byte) : (string bytes).AsksOnly Request.Neutral := by
      unfold string
      split <;> trivial
    exact (name _).bind fun _ => (finish_neutral _).bind fun _ => trivial
  · trivial

theorem processes_neutral : processes.AsksOnly Request.Neutral := by
  have line (i : U64) : (processLine i).AsksOnly Request.Neutral := by
    refine ⟨neutral_of_syscall rfl (by decide), fun reply => ?_⟩
    change AsksOnly _ (if reply.result ≠ 1 then _ else _)
    split
    · trivial
    · exact finish_neutral _
  have lines (indices : List U64) : (indices.forM processLine).AsksOnly Request.Neutral := by
    induction indices with
    | nil => trivial
    | cons i rest ih => exact (line i).bind fun _ => ih
  exact (print_neutral _).bind fun _ => lines _

theorem memory_neutral : memory.AsksOnly Request.Neutral := by
  refine ⟨by decide, fun reply => ?_⟩
  change AsksOnly _ (if reply.result ≠ 0 then _ else _)
  split
  · trivial
  · exact finish_neutral _

-----------------------------------------------------------------------------------------
-- The commands
-----------------------------------------------------------------------------------------

theorem catRound_neutral (fd : U64) (bytes : Buffer 128)
    : (catRound fd bytes).AsksOnly Request.Neutral := by
  refine ⟨neutral_of_syscall rfl (by decide), fun reply => ?_⟩
  change AsksOnly _ (if reply.result.sle 0 = true then _ else _)
  split
  · split
    · exact (print_neutral _).bind fun _ => trivial
    · trivial
  · exact (loadAll_neutral _ _ _).bind fun text => (writeBytes_neutral text).bind fun _ => trivial

/-- `cat` closes what it opened. -/
theorem cat_settles (rounds : Nat) (name : List Byte) : Settles (cat rounds name) := by
  unfold cat
  split_ifs with refused
  · exact .of_neutral (print_neutral _)
  · obtain ⟨short, _⟩ := not_or.mp refused
    simp only [catPath_eq (Nat.le_of_not_lt short), done_bind, call, request_bind, pure_eq, ask_bind]
    intro history exchanges value run _ empty
    rw [runs_ask] at run
    obtain ⟨opened, rest, rfl, run⟩ := run
    have account : Account.of (history ++ [(.open (pathOf name), opened)])
        = if opened.result.slt 0 then .empty else ⟨∅, {opened.result}⟩ := by
      rw [Account.of_snoc, empty]
      rfl
    rw [List.append_cons]
    split_ifs at run with failed
    · rw [Account.of_neutral ((print_neutral _).runs run), account, if_pos failed]
    · obtain ⟨reads, _, last, rfl, loop, closing⟩ := runs_bind.mp run
      simp only [runs_ask, runs_done] at closing
      obtain ⟨closed, _, rfl, rfl, _⟩ := closing
      have neutral := (AsksOnly.iterate (catRound_neutral opened.result) rounds _).runs loop
      rw [← List.append_assoc, Account.of_snoc, Account.of_neutral neutral, account, if_neg failed]
      change Account.mk ∅ (Finset.erase {opened.result} opened.result) = .empty
      rw [Finset.erase_singleton]
      rfl

/-- What is left of the children after a wait for one of them, if it is one. -/
theorem awaitChild_account {pid : U64} {history exchanges : List (Request × Reply)} {value : PUnit}
    (run : (awaitChild pid).Runs exchanges value)
    : Account.of (history ++ exchanges)
      = if (0 : U64).slt pid then
          { Account.of history with children := (Account.of history).children.erase pid }
        else Account.of history := by
  unfold awaitChild at run
  split_ifs at run ⊢ with some
  · simp only [call, request_bind, pure_eq, ask_bind, done_bind, runs_ask] at run
    obtain ⟨reply, rest, rfl, run⟩ := run
    rw [List.append_cons, Account.of_neutral ((finish_neutral _).runs run), Account.of_snoc]
    rfl
  · obtain ⟨rfl, _⟩ := runs_done.mp run
    rw [List.append_nil]

/-- A child that the program got from a spawn. -/
def child (pid : U64) : Finset U64 := if (0 : U64).slt pid then {pid} else ∅

theorem awaitChild_children {pid : U64} {history exchanges : List (Request × Reply)} {value : PUnit}
    (run : (awaitChild pid).Runs exchanges value)
    : Account.of (history ++ exchanges)
      = { Account.of history with children := (Account.of history).children \ child pid } := by
  rw [awaitChild_account run, child]
  split_ifs
  · rw [Finset.sdiff_singleton_eq_erase]
  · rw [Finset.sdiff_empty]

theorem Account.after_spawn {request : Request} (spawn : request.syscall = some .spawn)
    (account : Account) (reply : Reply)
    : account.after (request, reply)
      = { account with children := child reply.result ∪ account.children } := by
  unfold Account.after child
  simp only [spawn]
  split_ifs
  · rw [Finset.insert_eq]
  · rw [Finset.empty_union]

theorem spawnCall_children (account : Account) (program : U64) (reply : Reply)
    : account.after (spawnCall program, reply)
      = { account with children := child reply.result ∪ account.children } :=
  Account.after_spawn rfl account reply

/-- `run` waits for whatever it started. -/
theorem run_settles (first : List Byte) (second : Option (List Byte)) : Settles (run first second) := by
  -- what `run` does once it has spawned
  have waits {a b : U64} {history exchanges : List (Request × Reply)} {value : PUnit}
      (run
        : Runs
            (if a.slt 0 = true ∨ b.slt 0 = true then do
              print "run: no free process slot or pages\n"
              awaitChild a
              awaitChild b
            else do
              awaitChild a
              awaitChild b)
            exchanges value)
      : Account.of (history ++ exchanges)
        = { Account.of history with
            children := ((Account.of history).children \ child a) \ child b } := by
    have both {history exchanges : List (Request × Reply)}
        (run : (awaitChild a >>= fun _ => awaitChild b).Runs exchanges value)
        : Account.of (history ++ exchanges)
          = { Account.of history with
              children := ((Account.of history).children \ child a) \ child b } := by
      obtain ⟨front, _, last, rfl, one, two⟩ := runs_bind.mp run
      rw [← List.append_assoc, awaitChild_children two, awaitChild_children one]
    split_ifs at run with failed
    · obtain ⟨front, _, last, rfl, told, run⟩ := runs_bind.mp run
      rw [← List.append_assoc, both run, Account.of_neutral ((print_neutral _).runs told)]
    · exact both run
  unfold run
  split
  · exact .of_neutral (print_neutral _)
  · exact .of_neutral (print_neutral _)
  · intro history exchanges value run _ empty
    simp only [call, request_bind, pure_eq, ask_bind, done_bind, runs_ask] at run
    obtain ⟨started, rest, rfl, run⟩ := run
    rw [List.append_cons]
    split at run
    · rw [runs_ask] at run
      obtain ⟨also, rest, rfl, run⟩ := run
      rw [List.append_cons, waits run, Account.of_snoc, Account.of_snoc, spawnCall_children,
        spawnCall_children, empty]
      refine congrArg (Account.mk · ∅) ?_
      change ((child also.result ∪ (child started.result ∪ ∅)) \ child started.result)
        \ child also.result = ∅
      rw [Finset.union_empty, Finset.union_comm, Finset.sdiff_eq_empty_iff_subset]
      exact sdiff_le_iff.mpr subset_rfl
    · rw [waits run, Account.of_snoc, spawnCall_children, empty]
      refine congrArg (Account.mk · ∅) ?_
      change ((child started.result ∪ ∅) \ child started.result) \ child 0 = ∅
      simp

-----------------------------------------------------------------------------------------
-- The checks
-----------------------------------------------------------------------------------------

/-- The calls that must be refused take nothing. -/
theorem checks_settles {calls : List (Request × U64)}
    (harmless
      : ∀ call ∈ calls,
          call.1.Neutral
          ∨ call.1.syscall = some .wait
          ∨ call.1.syscall = some .spawn ∧ spawnable .shell call.1.first = none)
    : Settles (checks calls) := by
  induction calls with
  | nil => exact settles_done true
  | cons first rest ih =>
      obtain ⟨request, expected⟩ := first
      have later := ih fun call member => harmless call (List.mem_cons_of_mem _ member)
      have here := harmless (request, expected) List.mem_cons_self
      dsimp only at here
      intro history exchanges value run refused empty
      simp only [checks, call, request_bind, pure_eq, ask_bind, done_bind, runs_ask] at run
      obtain ⟨reply, more, rfl, run⟩ := run
      rw [List.append_cons] at refused ⊢
      have kept : Account.of (history ++ [(request, reply)]) = .empty := by
        rw [Account.of_snoc, empty]
        rcases here with neutral | wait | ⟨spawn, unknown⟩
        · exact neutral.after _ _
        · simp [Account.after, wait, Account.empty]
        · have failed := refused history request reply more (List.append_cons ..).symm spawn
            (Or.inl unknown)
          rw [Account.after_spawn spawn, child, failed]
          rfl
      split_ifs at run
      · exact later _ _ _ run refused kept
      · obtain ⟨rfl, _⟩ := runs_done.mp run
        rwa [List.append_nil]

/-- The last call of a program closes a descriptor, and all others are neutral. -/
def ClosesLast {α : Type} (fd : U64) (program : UserCode α) : Prop :=
  ∀ exchanges value,
    program.Runs exchanges value
    → ∃ before reply,
        exchanges = before ++ [(closeCall fd, reply)]
        ∧ ∀ exchange ∈ before, exchange.1.Neutral

theorem ClosesLast.bind {α β : Type} {fd : U64} {program : UserCode α} {next : α → UserCode β}
    (neutral : program.AsksOnly Request.Neutral) (later : ∀ value, ClosesLast fd (next value))
    : ClosesLast fd (program >>= next) := by
  intro exchanges value run
  obtain ⟨first, middle, second, rfl, here, run⟩ := runs_bind.mp run
  obtain ⟨before, reply, rfl, others⟩ := later middle _ _ run
  refine ⟨first ++ before, reply, by simp, fun exchange member => ?_⟩
  rcases List.mem_append.mp member with old | new
  · exact neutral.runs here exchange old
  · exact others exchange new

theorem ClosesLast.ask {α : Type} {fd : U64} {request : Request} {resume : Reply → UserCode α}
    (neutral : request.Neutral) (later : ∀ reply, ClosesLast fd (resume reply))
    : ClosesLast fd (.ask request resume) :=
  @ClosesLast.bind _ _ _ (Interaction.request request) _ ⟨neutral, fun _ => trivial⟩ later

theorem checkReads_settles (okay : Bool) : Settles (checkReads okay) := by
  intro history exchanges value run _ empty
  unfold checkReads at run
  simp only [call, request_bind, pure_eq, ask_bind, done_bind] at run
  rw [runs_ask] at run
  obtain ⟨opened, rest, rfl, run⟩ := run
  have closes (okay : Bool)
      : ClosesLast opened.result (.ask (closeCall opened.result) fun _ => .done okay) := by
    intro exchanges value run
    simp only [runs_ask, runs_done] at run
    obtain ⟨reply, _, rfl, rfl, _⟩ := run
    exact ⟨[], reply, rfl, by simp⟩
  have compares (okay : Bool) (buffer : Buffer 32)
      : ClosesLast opened.result
          (if okay = true then do
            let first ← buffer.load 0
            if first = 104 then do
              let last ← buffer.load 16
              .ask (closeCall opened.result) fun _ => .done (decide (last = 10))
            else .ask (closeCall opened.result) fun _ => .done false
          else .ask (closeCall opened.result) fun _ => .done false) := by
    split
    · refine .bind (load_neutral _ _) fun first => ?_
      split
      · exact .bind (load_neutral _ _) fun last => closes _
      · exact closes false
    · exact closes false
  have ends
      : ∃ before reply,
          rest = before ++ [(closeCall opened.result, reply)]
          ∧ ∀ exchange ∈ before, exchange.1.Neutral := by
    have read : (Request.read opened.result 32).Neutral := neutral_of_syscall rfl (by decide)
    split at run
    · have probe : (Request.plain 6 opened.result 4194304 1).Neutral :=
        neutral_of_syscall rfl (by decide)
      exact ClosesLast.ask probe (fun _ => .ask read fun _ => compares _ _) _ _ run
    · exact ClosesLast.ask read (fun _ => compares _ _) _ _ run
  obtain ⟨before, reply, rfl, neutral⟩ := ends
  rw [List.append_cons, ← List.append_assoc, Account.of_snoc, Account.of_neutral neutral,
    Account.of_snoc, empty]
  change
    (if opened.result.slt 0 then Account.empty else ⟨∅, insert opened.result ∅⟩).after
      (closeCall opened.result, reply)
      = .empty
  split_ifs
  · change Account.mk ∅ (Finset.erase ∅ opened.result) = .empty
    rw [Finset.erase_empty]
    rfl
  · change Account.mk ∅ ((insert opened.result ∅ : Finset U64).erase opened.result) = .empty
    simp [Account.empty]

/-- What the spawns of `boundary_check` add to the account. -/
theorem spawnChildren_account {count : Nat} {history exchanges : List (Request × Reply)}
    {outcome : List U64 × Bool} (run : (spawnChildren count).Runs exchanges outcome)
    : exchanges.length = count
      ∧ (∀ exchange ∈ exchanges, exchange.1.Spawns)
      ∧ Account.of (history ++ exchanges)
        = { Account.of history with
            children := (Account.of history).children ∪ outcome.1.toFinset.biUnion child } := by
  induction count generalizing history exchanges outcome with
  | zero =>
      obtain ⟨rfl, rfl⟩ := runs_done.mp run
      simp
  | succ count ih =>
      simp only [spawnChildren, call, request_bind, pure_eq, ask_bind, done_bind, runs_ask] at run
      obtain ⟨first, rest, rfl, run⟩ := run
      obtain ⟨spawns, children, last, rfl, others, run⟩ := runs_bind.mp run
      obtain ⟨rfl, rfl⟩ := runs_done.mp run
      obtain ⟨length, named, account⟩ := @ih (history ++ [(spawnCall 2, first)]) _ _ others
      refine ⟨by simp [length], ?_, ?_⟩
      · intro exchange member
        rcases List.mem_cons.mp member with rfl | member
        · have known : spawnable .shell (spawnCall 2).first ≠ none := by decide
          exact ⟨rfl, known⟩
        · exact named exchange (by simpa using member)
      · rw [List.append_nil, List.append_cons, account, Account.of_snoc, spawnCall_children]
        simp only [List.toFinset_cons, Finset.biUnion_insert, Account.mk.injEq, and_true]
        rw [Finset.union_comm (child first.result), Finset.union_assoc]

/-- What the waits of `boundary_check` take from it. -/
theorem awaitChildren_account {children : List U64} {history exchanges : List (Request × Reply)}
    {okay : Bool} (run : (awaitChildren children).Runs exchanges okay)
    : Account.of (history ++ exchanges)
      = { Account.of history with
          children := (Account.of history).children \ children.toFinset.biUnion child } := by
  induction children generalizing history exchanges okay with
  | nil =>
      obtain ⟨rfl, rfl⟩ := runs_done.mp run
      simp
  | cons pid rest ih =>
      unfold awaitChildren at run
      split_ifs at run with some
      · simp only [call, request_bind, pure_eq, ask_bind, done_bind, runs_ask] at run
        obtain ⟨status, more, rfl, run⟩ := run
        obtain ⟨waits, okay', last, rfl, others, run⟩ := runs_bind.mp run
        obtain ⟨rfl, rfl⟩ := runs_done.mp run
        have here : Account.of (history ++ [(waitCall pid, status)])
            = { Account.of history with children := (Account.of history).children \ child pid } := by
          rw [child, if_pos some, Finset.sdiff_singleton_eq_erase]
          exact Account.of_snoc ..
        rw [List.append_nil, List.append_cons, ih others, here]
        simp only [List.toFinset_cons, Finset.biUnion_insert, Account.mk.injEq, and_true]
        exact sdiff_sdiff_left
      · have nothing : child pid = ∅ := if_neg some
        rw [ih run, List.toFinset_cons, Finset.biUnion_insert, nothing, Finset.empty_union]

theorem freeFrames_neutral : freeFrames.AsksOnly Request.Neutral :=
  ⟨by decide, fun _ => trivial⟩

/-- The check waits for every child that it got. Its last spawn comes after six, so it was refused. -/
theorem boundaryCheck_settles : Settles boundaryCheck := by
  have refused : Settles (checks refusals) := checks_settles (by decide)
  refine refused.bind fun okay => (checkReads_settles okay).bind fun okay => ?_
  refine (Settles.of_neutral (print_neutral _)).bind fun _ => ?_
  refine (Settles.of_neutral freeFrames_neutral).bind fun before => ?_
  intro history exchanges value run refused empty
  rw [runs_bind] at run
  obtain ⟨spawns, ⟨children, created⟩, rest, rfl, spawned, run⟩ := run
  simp only [call, request_bind, pure_eq, ask_bind, done_bind] at run
  rw [runs_ask] at run
  obtain ⟨extra, rest, rfl, run⟩ := run
  obtain ⟨waits, returned, last, rfl, waited, run⟩ := runs_bind.mp run
  obtain ⟨length, named, account⟩ := @spawnChildren_account _ history _ _ spawned
  have neutral : ∀ exchange ∈ last, exchange.1.Neutral :=
    (freeFrames_neutral.bind fun _ => print_neutral _).runs run
  have failed : (0 : U64).slt extra.result = false :=
    refused (history ++ spawns) (spawnCall 2) extra (waits ++ last) (by simp) rfl
      (Or.inr ⟨history, spawns, rfl, length, named⟩)
  have same : history ++ (spawns ++ (spawnCall 2, extra) :: (waits ++ last))
      = history ++ spawns ++ [(spawnCall 2, extra)] ++ waits ++ last := by
    simp
  rw [same, Account.of_neutral neutral, awaitChildren_account waited, Account.of_snoc,
    spawnCall_children, child, failed, account, empty]
  simp [Account.empty]

-----------------------------------------------------------------------------------------
-- The shell
-----------------------------------------------------------------------------------------

theorem dispatch_settles (rounds : Nat) (words : List (List Byte)) : Settles (dispatch rounds words) := by
  unfold dispatch
  split
  · exact settles_done _
  · dsimp only
    split_ifs
    · exact .of_neutral ((print_neutral _).bind fun _ => (print_neutral _).bind fun _ => print_neutral _)
    · exact .of_neutral (listFiles_neutral rounds)
    · exact cat_settles rounds _
    · exact .of_neutral processes_neutral
    · exact run_settles _ _
    · exact .of_neutral memory_neutral
    · exact boundaryCheck_settles
    · exact .of_neutral (print_neutral _)

theorem command_settles (rounds : Nat) (line : List Byte) : Settles (command rounds line) := by
  unfold command
  split
  · exact (Settles.of_neutral (print_neutral _)).bind fun _ => settles_done _
  · exact (dispatch_settles rounds _).bind fun _ => settles_done _

theorem shellTypes_neutral (rounds : Nat) (line : Buffer 96)
    : (shellTypes rounds line).AsksOnly Request.Neutral := by
  have prompted : (shellPrompt line).AsksOnly Request.Neutral :=
    (print_neutral _).bind fun _ => trivial
  exact prompted.bind fun prompt => AsksOnly.iterate shellPoll_neutral rounds prompt

theorem shellObeys_settles (rounds : Nat) (prompt : Prompt) : Settles (shellObeys rounds prompt) := by
  unfold shellObeys
  refine (Settles.of_neutral (store_neutral _ _ _)).bind fun line => ?_
  split
  · exact (Settles.of_neutral (print_neutral _)).bind fun _ => settles_done _
  · refine (Settles.of_neutral (stringFrom_neutral _ _ _)).bind fun text => ?_
    exact (command_settles rounds text).bind fun left => settles_done _

/-- A round of the shell settles its account. -/
theorem shellRound_settles (rounds : Nat) (line : Buffer 96) : Settles (shellRound rounds line) := by
  rw [shellRound_parts]
  refine (Settles.of_neutral (shellTypes_neutral rounds line)).bind fun prompt => ?_
  refine (shellObeys_settles rounds prompt).bind fun line => ?_
  exact .of_neutral ((call_neutral (by decide)).bind fun _ => trivial)

end MiniLinux.User
