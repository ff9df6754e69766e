import Mathlib.Data.List.DropRight
import MiniLinux.Foundation.BoundedLog
import MiniLinux.Foundation.Dictionary
import MiniLinux.Foundation.ByteMemory

/-! The host's view of the guest, `Guest` of `tools/lab_guest.py`.
A method changes the object and may raise; what it changed before raising stays changed.
-/

namespace MiniLinux

open Foundation

/-- A `str`, one character each. -/
abbrev Text := List Char

/-- The exceptions that the observer's code can raise. -/
inductive PyError where
  | valueError
  | indexError
  | runtimeError (message : String)
  deriving DecidableEq, Repr

/-- The value of a decimal digit. -/
def digitValue (character : Char) : Option Nat :=
  if '0' ≤ character ∧ character ≤ '9' then some (character.toNat - '0'.toNat) else none

/-- The rest of an integer literal: digits, with single underscores between them. -/
def pyDigits (value : Nat) : Text → Option Nat
  | [] => some value
  | '_' :: character :: rest => do
      let digit ← digitValue character
      pyDigits (10 * value + digit) rest
  | character :: rest => do
      let digit ← digitValue character
      pyDigits (10 * value + digit) rest

/-- The unsigned part of an integer literal. -/
def pyUnsigned : Text → Option Nat
  | [] => none
  | character :: rest => do
      let digit ← digitValue character
      pyDigits digit rest

/-- The white space of ASCII. -/
def isPySpace (character : Char) : Bool :=
  (9 ≤ character.toNat && character.toNat ≤ 13) || (28 ≤ character.toNat && character.toNat ≤ 32)

/-- `int(text)` -/
def pyInt (text : Text) : Option Int :=
  match (text.dropWhile isPySpace).rdropWhile isPySpace with
  | '-' :: rest => (pyUnsigned rest).map fun (value : Nat) => -(value : Int)
  | '+' :: rest => (pyUnsigned rest).map fun (value : Nat) => (value : Int)
  | rest => (pyUnsigned rest).map fun (value : Nat) => (value : Int)

/-- An entry of `self.events`. -/
structure GuestEvent where
  id : Nat
  kind : Text
  tick : Int
  fields : List Text
  deriving DecidableEq, Repr

/-- An entry of `self.processes`. -/
structure ProcessView where
  pid : Int
  parent : Int
  program : Text
  state : Text
  root : Text
  slices : Int
  current : Bool
  deriving DecidableEq, Repr

/-- An entry of `self.maps[pid]`. -/
structure MapView where
  va : Text
  pa : Text
  flags : Int
  name : Text
  deriving DecidableEq, Repr

/-- An entry of `self.data`. -/
structure DataView where
  va : Text
  pa : Text
  marker : Text
  deriving DecidableEq, Repr

/-- The fields of `Guest` that its readers fill and `snapshot` returns. -/
structure Guest where
  console : Text
  consoleBase : Nat
  events : List GuestEvent
  processes : Dictionary Int ProcessView
  maps : Dictionary Int (Dictionary Text MapView)
  data : Dictionary Int DataView
  frames : Int
  free : Int
  ticks : Int
  sequence : Nat
  status : Text
  error : Text

/-- `Guest.__init__` -/
def Guest.fresh : Guest where
  console := []
  consoleBase := 0
  events := []
  processes := .empty
  maps := .empty
  data := .empty
  frames := 0
  free := 0
  ticks := 0
  sequence := 0
  status := "starting".toList
  error := []

/-- `PROGRAMS` -/
def programNames : List Text :=
  ["init", "shell", "hello", "reader", "counter-a", "counter-b", "fault"].map String.toList

/-- `STATES` -/
def stateNames : List Text := ["unused", "ready", "waiting", "exited"].map String.toList

/-- Methods of the guest. -/
abbrev GuestM := ExceptT PyError (StateM Guest)

/-- `fields[i]` for a literal `i` -/
def pyItem {α : Type} (items : List α) (index : Nat) : GuestM α :=
  match items[index]? with
  | some item => pure item
  | none => throw .indexError

/-- `items[i]` for a computed `i`; a negative index counts from the end. -/
def pyIndex {α : Type} (items : List α) (index : Int) : GuestM α :=
  if 0 ≤ index then pyItem items index.toNat
  else if -index ≤ items.length then pyItem items (items.length - (-index).toNat)
  else throw .indexError

/-- `int(text)`, raising where it is no integer -/
def pyToInt (text : Text) : GuestM Int :=
  match pyInt text with
  | some value => pure value
  | none => throw .valueError

/-- The kinds that are always kept. -/
def interestingKinds : List Text :=
  ["boot", "spawn", "schedule", "syscall", "wait", "exit", "fault"].map String.toList

/-- Whether a record goes into `self.events`. -/
def interestingRecord (kind : Text) (fields : List Text) : GuestM Bool := do
  let guest ← get
  if kind = "memory".toList then
    let free ← pyToInt (← pyItem fields 1)
    pure (decide (free ≠ guest.free))
  else if kind = "data".toList then
    let pid ← pyToInt (← pyItem fields 0)
    match guest.data.find pid with
    | none => pure true
    | some old =>
        if old.pa ≠ (← pyItem fields 2) then pure true
        else pure (decide (old.marker ≠ (← pyItem fields 3)))
  else pure (decide (kind ∈ interestingKinds))

/-- How many events are kept. -/
@[irreducible] def eventLimit : Nat := 2000

/-- `self.events.append(event); self.events = self.events[-2000:]` -/
def Guest.keep (guest : Guest) (event : GuestEvent) : Guest :=
  { guest with events := keepLast eventLimit (guest.events ++ [event]) }

/-- The unpacking of `map(int, fields[:count])`. -/
def pyInts (count : Nat) (fields : List Text) : GuestM (List Int) := do
  let values ← (fields.take count).mapM pyToInt
  if values.length = count then pure values else throw .valueError

/-- The branch of a `process` record. -/
def observeProcess (fields : List Text) : GuestM Unit := do
  match ← pyInts 4 fields with
  | [pid, parent, program, state] =>
      if state = 0 then
        modify fun guest =>
          { guest with
            processes := guest.processes.erase pid
            maps := guest.maps.erase pid
            data := guest.data.erase pid }
      else do
        let program ← pyIndex programNames program
        let state ← pyIndex stateNames state
        let root ← pyItem fields 4
        let slices ← pyToInt (← pyItem fields 5)
        let current ← pyItem fields 6
        modify fun guest =>
          { guest with
            processes := guest.processes.set pid
              { pid, parent, program, state, root, slices,
                current := decide (current = "1".toList) } }
  | _ => throw .valueError

/-- The branch of a `map` record. -/
def observeMap (fields : List Text) : GuestM Unit := do
  let pid ← pyToInt (← pyItem fields 0)
  let va ← pyItem fields 1
  let pa ← pyItem fields 2
  let flags ← pyToInt (← pyItem fields 3)
  let name ← pyItem fields 4
  modify fun guest =>
    { guest with
      maps := guest.maps.set pid
        (((guest.maps.find pid).getD .empty).set va { va, pa, flags, name }) }

/-- The branch of a `data` record. -/
def observeData (fields : List Text) : GuestM Unit := do
  let pid ← pyToInt (← pyItem fields 0)
  let va ← pyItem fields 1
  let pa ← pyItem fields 2
  let marker ← pyItem fields 3
  modify fun guest => { guest with data := guest.data.set pid { va, pa, marker } }

/-- The branch of a `memory` record. -/
def observeMemory (fields : List Text) : GuestM Unit := do
  match ← pyInts 2 fields with
  | [frames, free] => modify fun guest => { guest with frames, free }
  | _ => throw .valueError

/-- The branches of `schedule` and `syscall`: the process whose number the field gives is the
running one. The field is read only if there is a process.
-/
def observeCurrent (fields : List Text) (index : Nat) : GuestM Unit := do
  let guest ← get
  if guest.processes.entries = [] then pure ()
  else do
    let pid ← pyToInt (← pyItem fields index)
    modify fun guest =>
      { guest with
        processes := guest.processes.mapValues fun process =>
          { process with current := decide (process.pid = pid) } }

/-- What a record tells of the kernel's state. -/
def observeRecord (kind : Text) (fields : List Text) : GuestM Unit :=
  if kind = "process".toList then observeProcess fields
  else if kind = "map".toList then observeMap fields
  else if kind = "data".toList then observeData fields
  else if kind = "memory".toList then observeMemory fields
  else if kind = "schedule".toList then observeCurrent fields 1
  else if kind = "syscall".toList then observeCurrent fields 0
  else pure ()

/-- `_event` from the point where the record is known. -/
def handleRecord (kind : Text) (tick : Int) (fields : List Text) : GuestM Unit := do
  modify fun guest =>
    { guest with ticks := max guest.ticks tick, sequence := guest.sequence + 1 }
  let guest ← get
  let interesting ← interestingRecord kind fields
  if interesting then modify fun state => state.keep ⟨guest.sequence, kind, tick, fields⟩
  else pure ()
  observeRecord kind fields

/-- `line.rstrip("\r").split("\t")` -/
def lineParts (line : Text) : List Text :=
  (line.rdropWhile fun character => character = '\r').splitOn '\t'

/-- `_event` -/
def guestEvent (line : Text) : GuestM Unit :=
  match lineParts line with
  | mark :: kind :: tick :: fields =>
      if mark ≠ "ML".toList then pure ()
      else do
        let tick ← pyToInt tick
        handleRecord kind tick fields
  | _ => pure ()

/-- `chunk.decode("ascii", errors="replace")` -/
def decodeAscii (bytes : List Byte) : Text :=
  bytes.map fun byte => if byte.toNat < 128 then Char.ofNat byte.toNat else '\uFFFD'

/-- How many characters of the console are kept. -/
@[irreducible] def consoleLimit : Nat := 64000

/-- One character of COM1. -/
def consoleCharacter (console : Text) (character : Char) : Text :=
  if character = '\x08' then console.dropLast
  else if character ≠ '\r' then console ++ [character]
  else console

/-- The guest after `_read` has handled a chunk of COM1. -/
def Guest.readConsole (guest : Guest) (chunk : List Byte) : Guest :=
  let console := (decodeAscii chunk).foldl consoleCharacter guest.console
  let kept := keepLast consoleLimit console
  let guest :=
    { guest with
      consoleBase := guest.consoleBase + (console.length - consoleLimit)
      console := kept }
  if "MiniLinux PANIC:".toList <:+: kept then
    { guest with
      status := "faulted".toList
      error := "Kernel panic; inspect the console and restart.".toList }
  else guest

/-- The guest after a reader thread has ended, with the message of what it caught. -/
def Guest.readerEnds (guest : Guest) (caught : Text) : Guest :=
  let guest := if caught ≠ [] then { guest with error := caught } else guest
  let guest := { guest with status := "disconnected".toList }
  if guest.error = [] then { guest with error := "QEMU serial channel closed.".toList } else guest

end MiniLinux
