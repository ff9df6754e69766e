import MiniLinux.User.Cat

/-! The other commands of `user/laboratory.c`, and how a typed line becomes one of them. -/

namespace MiniLinux.User

open Foundation Interaction

/-- The string at the start of an object that the kernel filled. -/
def string (bytes : List Byte) : UserCode (List Byte) :=
  if 0 ∈ bytes then pure (bytes.takeWhile fun byte => byte ≠ 0) else .stuck

/-- An object after the kernel stored these bytes at its start. -/
def filled (object stored : List Byte) : List Byte := stored ++ object.drop stored.length

/-- `{0}` -/
def zeros (size : Nat) : List Byte := List.replicate size 0

/-- One round of the loop of `list_files`, with `i` and `info`. -/
def listFilesRound : U32 × List Byte → UserCode (U32 × List Byte ⊕ PUnit)
  | (i, info) => do
      let reply ← request (.file (wide i))
      let info := filled info reply.stored
      if reply.result = 1 then do
        let name ← string info
        finish ((((Line.empty.text name).message "  ").number (field info 32)).message " bytes")
        pure (.inl (i + 1, info))
      else pure (.inr ⟨⟩)

/-- `list_files` -/
def listFiles (rounds : Nat) : UserCode PUnit := iterate listFilesRound rounds (0, zeros fileInfoSize)

/-- `program_name` -/
def programName (program : U64) : String :=
  match program.toNat with
  | 0 => "init"
  | 1 => "shell"
  | 2 => "hello"
  | 3 => "reader"
  | 4 => "counter-a"
  | 5 => "counter-b"
  | 6 => "fault"
  | _ => "unknown"

/-- The names of the states in `processes`. -/
def stateName (state : U64) : String :=
  if state = 2 then "waiting  " else if state = 3 then "exited   " else "ready    "

/-- One round of the loop of `processes`. -/
def processLine (i : U64) : UserCode PUnit := do
  let reply ← request (.process i)
  if reply.result ≠ 1 then pure ⟨⟩
  else do
    let info := filled (zeros 48) reply.stored
    let line := ((Line.empty.number (field info 0)).message "    ").number (field info 8)
    let line := (line.message "     ").message (stateName (field info 24))
    let line := (line.message (programName (field info 16))).message "  "
    finish (line.hex (field info 32))

/-- `processes` -/
def processes : UserCode PUnit := do
  print "PID  PPID  STATE    PROGRAM     CR3\n"
  ([0, 1, 2, 3, 4, 5, 6, 7] : List U64).forM processLine

/-- `memory` -/
def memory : UserCode PUnit := do
  let reply ← request .memory
  if reply.result ≠ 0 then pure ⟨⟩
  else do
    let info := filled (zeros 16) reply.stored
    finish ((((Line.empty.message "frames=").number (field info 0)).message " free=").number
      (field info 8))

/-- `program_id`; `none` is -1 -/
def programId (name : List Byte) : Option U64 :=
  ([2, 3, 4, 5, 6] : List U64).find? fun program => equal name (textBytes (programName program))

/-- Waits for a child and reports its status. -/
def awaitChild (pid : U64) : UserCode PUnit :=
  if (0 : U64).slt pid then do
    let status ← call (waitCall pid)
    finish ((((Line.empty.message "run: pid ").number pid).message " exited status ").number status)
  else pure ⟨⟩

/-- `run` -/
def run (first : List Byte) (second : Option (List Byte)) : UserCode PUnit :=
  match programId first, second.map programId with
  | none, _ => print "run: unknown embedded program\n"
  | some _, some none => print "run: unknown embedded program\n"
  | some a, b => do
      let pidA ← call (spawnCall a)
      let pidB ← match b with
        | some (some b) => call (spawnCall b)
        | _ => pure 0
      if pidA.slt 0 ∨ pidB.slt 0 then print "run: no free process slot or pages\n"
      awaitChild pidA
      awaitChild pidB

/-- `call(..) == .. && call(..) == .. && ..` -/
def checks : List (Request × U64) → UserCode Bool
  | [] => pure true
  | (request, expected) :: rest => do
      let result ← call request
      if result = expected then checks rest else pure false

/-- The calls that must be refused, with their results. -/
def refusals : List (Request × U64) :=
  [(.plain 99 0 0 0, -1), (.plain 11 0x400000 0 0, -2), (.plain 1 0xffffffff80000000 1 0, -2),
    (spawnCall (-1), -3), (waitCall (-1), -3), (.plain 12 (-1) (0x600000 + 64) 0, 0)]

/-- The reads of `boundary_check`; the second one must find the file as it is. -/
def checkReads (okay : Bool) : UserCode Bool := do
  let fd ← call (.open (textBytes "/hello.txt"))
  let okay ←
    if okay && !fd.slt 0 then do
      let refused ← call (.plain 6 fd 0x400000 1)
      pure (decide (refused = -2))
    else pure false
  let reply ← request (.read fd 32)
  let buffer := (Buffer.fresh : Buffer 32).receive reply.stored
  let okay ←
    if okay && decide (reply.result = 17) then do
      let first ← buffer.load 0
      if first = 104 then do
        let last ← buffer.load 16
        pure (decide (last = 10))
      else pure false
    else pure false
  let _ ← call (closeCall fd)
  pure okay

/-- The free frames that `SYS_MEMORY` reports. -/
def freeFrames : UserCode U64 := do
  let reply ← request .memory
  pure (field (filled (zeros 16) reply.stored) 8)

/-- Spawns children; also whether all of them were created. -/
def spawnChildren : Nat → UserCode (List U64 × Bool)
  | 0 => pure ([], true)
  | count + 1 => do
      let child ← call (spawnCall 2)
      let (children, okay) ← spawnChildren count
      pure (child :: children, (0 : U64).slt child && okay)

/-- Waits for the children that were created; also whether all of them returned 0. -/
def awaitChildren : List U64 → UserCode Bool
  | [] => pure true
  | child :: children =>
      if (0 : U64).slt child then do
        let status ← call (waitCall child)
        let okay ← awaitChildren children
        pure (decide (status = 0) && okay)
      else awaitChildren children

/-- `boundary_check` -/
def boundaryCheck : UserCode PUnit := do
  let okay ← checks refusals
  let okay ← checkReads okay
  print (if okay then "check: user boundaries passed\n" else "check: FAILED\n")
  let before ← freeFrames
  let (children, created) ← spawnChildren 6
  let extra ← call (spawnCall 2)
  let returned ← awaitChildren children
  let after ← freeFrames
  let okay := okay && created && decide (extra = -5) && returned && decide (before = after)
  print (if okay then "check: process capacity and reclamation passed\n"
    else "check: capacity FAILED\n")

-----------------------------------------------------------------------------------------
-- Words
-----------------------------------------------------------------------------------------

/-- `line[i] == ' ' || line[i] == '\t'` -/
def blank (c : Byte) : Bool := decide (c = 32 ∨ c = 9)

/-- The loop of `command` between the part of the line it has passed and the rest: the line as
it leaves it, and where the words start, or `none` where a fifth word starts.
-/
def tokenize (passed : List Byte) (words : List Nat) (inside : Bool)
    : List Byte → List Byte × Option (List Nat)
  | [] => (passed, some words)
  | c :: rest =>
      if blank c then tokenize (passed ++ [0]) words false rest
      else if !inside then
        if words.length = 4 then (passed ++ c :: rest, none)
        else tokenize (passed ++ [c]) (words ++ [passed.length]) true rest
      else tokenize (passed ++ [c]) words inside rest

/-- The string at `&line[start]`. -/
def wordAt (line : List Byte) (start : Nat) : List Byte :=
  (line.drop start).takeWhile fun c => c ≠ 0

/-- The words of a line that `command` looks at; `none` are too many. -/
def wordsOf (line : List Byte) : Option (List (List Byte)) :=
  let (left, words) := tokenize [] [] false line
  words.map fun words => words.map (wordAt left)

/-- The program that the words name. -/
def dispatch (rounds : Nat) (words : List (List Byte)) : UserCode PUnit :=
  match words with
  | [] => pure ⟨⟩
  | name :: arguments =>
      let count := words.length
      if equal name (textBytes "help") ∧ count = 1 then do
        print "help | ls | cat FILE | ps | run PROGRAM [PROGRAM]\n"
        print "programs: hello reader counter-a counter-b fault\n"
        print "observe: mem | check\n"
      else if equal name (textBytes "ls") ∧ count = 1 then listFiles rounds
      else if equal name (textBytes "cat") ∧ count = 2 then cat rounds (arguments.getD 0 [])
      else if equal name (textBytes "ps") ∧ count = 1 then processes
      else if equal name (textBytes "run") ∧ (count = 2 ∨ count = 3) then
        run (arguments.getD 0 []) arguments[1]?
      else if equal name (textBytes "mem") ∧ count = 1 then memory
      else if equal name (textBytes "check") ∧ count = 1 then boundaryCheck
      else print "shell: unknown command or arguments; type help\n"

/-- `command` on a line without the zero at its end; it returns the line as it leaves it. -/
def command (rounds : Nat) (line : List Byte) : UserCode (List Byte) := do
  match wordsOf line with
  | none => print "shell: too many arguments\n"
  | some words => dispatch rounds words
  pure (tokenize [] [] false line).1

end MiniLinux.User
