import MiniLinux.Foundation.Interaction
import MiniLinux.Laboratory.Syscalls

/-! The runtime of `user/laboratory.c`: its calls, its output, its buffers and its lines.
A user program is an interaction with the kernel. A pointer to the program's own memory is
replaced by what it points at; a step outside an object, or one that uses what was never
written, is stuck.
-/

namespace MiniLinux.User

open Foundation

-----------------------------------------------------------------------------------------
-- Calls
-----------------------------------------------------------------------------------------

/-- A call and its arguments; in `plain` ones no register points at the program's own objects. -/
inductive Request where
  | plain (number a b c : U64)
  | write (bytes : List Byte)
  | open (name : List Byte)
  | read (fd length : U64)
  | input
  | process (index : U64)
  | file (index : U64)
  | memory
  deriving DecidableEq

/-- The result, and what the kernel stored where the call's pointer points. -/
structure Reply where
  result : U64
  stored : List Byte

/-- A user program. -/
abbrev UserCode := Interaction Request Reply

/-- `call`, where the kernel stores nothing that is used -/
def call (request : Request) : UserCode U64 := do
  let reply ← Interaction.request request
  pure reply.result

/-- `SYS_CLOSE` -/
def closeCall (fd : U64) : Request := .plain 7 fd 0 0

/-- `SYS_SPAWN` -/
def spawnCall (program : U64) : Request := .plain 9 program 0 0

/-- `SYS_WAIT` -/
def waitCall (pid : U64) : Request := .plain 10 pid 0 0

/-- `SYS_TICKS` -/
def ticksCall : Request := .plain 2 0 0 0

/-- `SYS_INSPECT` -/
def inspectCall : Request := .plain 15 0 0 0

-----------------------------------------------------------------------------------------
-- Output
-----------------------------------------------------------------------------------------

/-- `write_bytes` -/
def writeBytes (text : List Byte) : UserCode PUnit :=
  if text.length = 0 then pure ⟨⟩
  else do
    let part := min copyLimit text.length
    let _ ← call (.write (text.take part))
    writeBytes (text.drop part)
termination_by text.length
decreasing_by
  simp only [List.length_drop, copyLimit]
  omega

/-- `print` -/
def print (message : String) : UserCode PUnit := writeBytes (textBytes message)

/-- `character` -/
def character (c : Byte) : UserCode PUnit := writeBytes [c]

/-- A text that fits one call is written by one call. -/
theorem writeBytes_short {text : List Byte} (some : text ≠ []) (short : text.length ≤ copyLimit)
    : writeBytes text = .ask (.write text) fun _ => .done ⟨⟩ := by
  have nothing : writeBytes [] = .done ⟨⟩ := by
    unfold writeBytes
    simp
  have length : text.length ≠ 0 := by simpa using some
  have whole : min copyLimit text.length = text.length := Nat.min_eq_right short
  unfold writeBytes
  simp [length, whole, call, nothing]

@[simp] theorem character_eq (c : Byte)
    : character c = .ask (.write [c]) fun _ => .done ⟨⟩ := by
  unfold character
  exact writeBytes_short (by simp) (by simp [copyLimit])

/-- A message that fits one call is written by one call. -/
theorem print_short {message : String} (some : message ≠ "") (short : message.length ≤ copyLimit)
    : print message = .ask (.write (textBytes message)) fun _ => .done ⟨⟩ := by
  unfold print
  refine writeBytes_short ?_ ?_
  · simpa [textBytes] using some
  · simpa [textBytes, String.length_toList] using short

-----------------------------------------------------------------------------------------
-- Buffers
-----------------------------------------------------------------------------------------

/-- An array of characters; `none` is one that was never written. -/
abbrev Buffer (size : Nat) := Fin size → Option Byte

namespace Buffer

variable {size : Nat}

def fresh : Buffer size := fun _ => none

/-- `buffer[index] = byte` -/
def store (buffer : Buffer size) (index : Nat) (byte : Byte) : UserCode (Buffer size) :=
  if inside : index < size then pure (Function.update buffer ⟨index, inside⟩ (some byte))
  else .stuck

/-- `for (i = 0; ..; i++) { buffer[index + i] = bytes[i]; }` -/
def storeAll (buffer : Buffer size) (index : Nat) : List Byte → UserCode (Buffer size)
  | [] => pure buffer
  | byte :: rest => do
      let buffer ← buffer.store index byte
      buffer.storeAll (index + 1) rest

/-- `buffer[index]` -/
def load (buffer : Buffer size) (index : Nat) : UserCode Byte :=
  if inside : index < size then
    match buffer ⟨index, inside⟩ with
    | some byte => pure byte
    | none => .stuck
  else .stuck

/-- The bytes from an index on that a callee of `buffer` uses. -/
def loadAll (buffer : Buffer size) (index : Nat) : Nat → UserCode (List Byte)
  | 0 => pure []
  | count + 1 => do
      let byte ← buffer.load index
      let rest ← buffer.loadAll (index + 1) count
      pure (byte :: rest)

/-- The buffer after a callee stored these bytes at its start. -/
def receive (buffer : Buffer size) (bytes : List Byte) : Buffer size :=
  fun index => if inside : index.val < bytes.length then some bytes[index.val] else buffer index

/-- The buffer starts with these bytes. -/
def Holds (buffer : Buffer size) (bytes : List Byte) : Prop :=
  bytes.length ≤ size ∧ ∀ index : Fin size, index.val < bytes.length → buffer index = bytes[index.val]?

theorem holds_nil (buffer : Buffer size) : buffer.Holds [] := by
  simp [Holds]

/-- The next byte is stored. -/
theorem Holds.store {buffer : Buffer size} {bytes : List Byte} (holds : buffer.Holds bytes)
    (room : bytes.length < size) (byte : Byte)
    : ∃ buffer' : Buffer size,
        buffer.store bytes.length byte = .done buffer' ∧ buffer'.Holds (bytes ++ [byte]) := by
  refine ⟨_, dif_pos room, by simpa using room, ?_⟩
  intro index inside
  simp only [List.length_append, List.length_cons, List.length_nil] at inside
  rcases Nat.lt_or_ge index.val bytes.length with old | new
  · have different : index ≠ ⟨bytes.length, room⟩ := by
      intro same
      simp [same] at old
    simp [Function.update_of_ne different, List.getElem?_append_left old, holds.2 index old]
  · have same : index = ⟨bytes.length, room⟩ := Fin.ext (by simp only; omega)
    simp [same]

theorem Holds.storeAll {buffer : Buffer size} {bytes : List Byte} (holds : buffer.Holds bytes)
    (more : List Byte) (room : bytes.length + more.length ≤ size)
    : ∃ buffer' : Buffer size,
        buffer.storeAll bytes.length more = .done buffer' ∧ buffer'.Holds (bytes ++ more) := by
  induction more generalizing buffer bytes with
  | nil => exact ⟨buffer, rfl, by simpa using holds⟩
  | cons byte more ih =>
      simp only [List.length_cons] at room
      obtain ⟨buffer', stored, holds'⟩ := holds.store (by omega) byte
      obtain ⟨buffer'', rest, all⟩ := ih holds' (by simp only [List.length_append, List.length_cons, List.length_nil]; omega)
      refine ⟨buffer'', ?_, by simpa using all⟩
      simpa [Buffer.storeAll, stored] using rest

theorem Holds.load {buffer : Buffer size} {bytes : List Byte} (holds : buffer.Holds bytes)
    {index : Nat} (inside : index < bytes.length)
    : buffer.load index = .done bytes[index] := by
  have fits : index < size := Nat.lt_of_lt_of_le inside holds.1
  have here := holds.2 ⟨index, fits⟩ inside
  simp [Buffer.load, fits, here, inside]

/-- Any part of what the buffer holds can be read. -/
theorem Holds.loadAll {buffer : Buffer size} {bytes : List Byte} (holds : buffer.Holds bytes)
    {index count : Nat} (inside : index + count ≤ bytes.length)
    : buffer.loadAll index count = .done ((bytes.drop index).take count) := by
  induction count generalizing index with
  | zero => simp [Buffer.loadAll]
  | succ count ih =>
      have here := holds.load (show index < bytes.length by omega)
      have rest := ih (show index + 1 + count ≤ bytes.length by omega)
      rw [List.drop_eq_getElem_cons (show index < bytes.length by omega), List.take_succ_cons]
      simp [Buffer.loadAll, here, rest]

theorem receive_holds (buffer : Buffer size) {bytes : List Byte} (fits : bytes.length ≤ size)
    : (buffer.receive bytes).Holds bytes := by
  refine ⟨fits, fun index inside => ?_⟩
  simp [receive, inside]

end Buffer

-----------------------------------------------------------------------------------------
-- Strings and lines
-----------------------------------------------------------------------------------------

/-- `equal`; both strings are given without the zero at their end -/
def equal : List Byte → List Byte → Bool
  | a :: as, b :: bs => if a = b then equal as bs else false
  | [], [] => true
  | _, _ => false

@[simp] theorem equal_iff (a b : List Byte) : equal a b = true ↔ a = b := by
  induction a generalizing b with
  | nil => cases b <;> simp [equal]
  | cons first rest ih => cases b <;> simp [equal, ih]

/-- `struct line` -/
structure Line where
  bytes : List Byte
  fits : bytes.length ≤ 192

def Line.empty : Line := ⟨[], Nat.zero_le _⟩

/-- `if (used < sizeof(bytes)) { bytes[used++] = c; }` -/
def Line.push (line : Line) (c : Byte) : Line :=
  if room : line.bytes.length < 192 then ⟨line.bytes ++ [c], by simpa using room⟩ else line

/-- `text` -/
def Line.text (line : Line) (s : List Byte) : Line := s.foldl Line.push line

/-- `text` with a message -/
def Line.message (line : Line) (s : String) : Line := line.text (textBytes s)

/-- `number` -/
def Line.number (line : Line) (n : U64) : Line := line.message (toString n.toNat)

/-- A digit of `hex`. -/
def hexDigit (n : U64) (i : Nat) : Byte :=
  let digit := (n.toNat >>> i) % 16
  BitVec.ofNat 8 (if digit < 10 then 48 + digit else 87 + digit)

/-- `hex` -/
def Line.hex (line : Line) (n : U64) : Line :=
  ([60, 56, 52, 48, 44, 40, 36, 32, 28, 24, 20, 16, 12, 8, 4, 0].map (hexDigit n)).foldl Line.push
    (line.message "0x")

/-- `finish` -/
def finish (line : Line) : UserCode PUnit := writeBytes (line.message "\n").bytes

/-- The 64-bit field at an offset of a structure that the kernel filled. -/
def field (info : List Byte) (offset : Nat) : U64 :=
  BitVec.ofNat 64 (littleEndian ((info.drop offset).take 8))

end MiniLinux.User
