import Mathlib.Data.BitVec
import Mathlib.Logic.Function.Basic
import Mathlib.Tactic

/-! Byte-addressed memory with little-endian 64-bit words.
Addresses are unbounded numbers; a client that has a bounded address space keeps its own
bounds. Every write states the bytes it changes, so frame facts are pointwise.
-/

namespace Foundation

abbrev Byte := BitVec 8

abbrev Word := BitVec 64

/-- A memory gives a byte to every address. -/
abbrev Memory := Nat → Byte

/-- The number whose base-256 digits are `bytes`, least significant first. -/
def littleEndian : List Byte → Nat
  | [] => 0
  | byte :: rest => byte.toNat + 256 * littleEndian rest

/-- The `count` lowest base-256 digits of `value`, least significant first. -/
def littleEndianBytes : Nat → Nat → List Byte
  | 0, _ => []
  | count + 1, value => BitVec.ofNat 8 value :: littleEndianBytes count (value / 256)

@[simp] theorem littleEndianBytes_length (count value : Nat)
    : (littleEndianBytes count value).length = count := by
  induction count generalizing value with
  | zero => rfl
  | succ count ih => simp [littleEndianBytes, ih]

/-- Splitting a number into digits and reassembling them truncates it, by induction on the
number of digits.
-/
theorem littleEndian_bytes (count value : Nat)
    : littleEndian (littleEndianBytes count value) = value % 256 ^ count := by
  induction count generalizing value with
  | zero => simp [littleEndian, littleEndianBytes, Nat.mod_one]
  | succ count ih =>
      simp only [littleEndianBytes, littleEndian, ih, BitVec.toNat_ofNat]
      rw [show (2 : Nat) ^ 8 = 256 from rfl, Nat.pow_succ', Nat.mod_mul]

namespace Memory

/-- Writes `byte` at `address`. -/
def store (memory : Memory) (address : Nat) (byte : Byte) : Memory :=
  Function.update memory address byte

/-- Writes `bytes` upwards from `address`, one byte at a time. -/
def storeBytes (memory : Memory) (address : Nat) : List Byte → Memory
  | [] => memory
  | byte :: rest => storeBytes (memory.store address byte) (address + 1) rest

/-- The `count` bytes from `address` upwards. -/
def loadBytes (memory : Memory) (address : Nat) : Nat → List Byte
  | 0 => []
  | count + 1 => memory address :: memory.loadBytes (address + 1) count

/-- The little-endian word at `address`. -/
def word (memory : Memory) (address : Nat) : Word :=
  BitVec.ofNat 64 (littleEndian (memory.loadBytes address 8))

/-- Writes `value` little-endian at `address`. -/
def storeWord (memory : Memory) (address : Nat) (value : Word) : Memory :=
  memory.storeBytes address (littleEndianBytes 8 value.toNat)

-----------------------------------------------------------------------------------------
-- Single bytes and byte runs
-----------------------------------------------------------------------------------------

@[simp] theorem store_self (memory : Memory) (address : Nat) (byte : Byte)
    : memory.store address byte address = byte :=
  Function.update_self ..

theorem store_of_ne (memory : Memory) {address other : Nat} (byte : Byte)
    (distinct : other ≠ address)
    : memory.store address byte other = memory other :=
  Function.update_of_ne distinct ..

@[simp] theorem loadBytes_length (memory : Memory) (address count : Nat)
    : (memory.loadBytes address count).length = count := by
  induction count generalizing address with
  | zero => rfl
  | succ count ih => simp [loadBytes, ih]

theorem loadBytes_congr {memory memory' : Memory} {address count : Nat}
    (same : ∀ offset < count, memory' (address + offset) = memory (address + offset))
    : memory'.loadBytes address count = memory.loadBytes address count := by
  induction count generalizing address with
  | zero => rfl
  | succ count ih =>
      have head := same 0 (Nat.succ_pos count)
      have tail := @ih (address + 1) fun offset bound => by
        have next := same (offset + 1) (by omega)
        rwa [← Nat.add_assoc, Nat.add_right_comm] at next
      simp only [loadBytes, tail]
      rw [show memory' address = memory address from head]

/-- A byte run reads back inside its range and leaves every other address alone, by
induction on the run.
-/
theorem storeBytes_apply (memory : Memory) (address : Nat) (bytes : List Byte) (other : Nat)
    : memory.storeBytes address bytes other
      = if address ≤ other ∧ other < address + bytes.length
        then bytes.getD (other - address) 0
        else memory other := by
  induction bytes generalizing memory address with
  | nil =>
      rw [if_neg (by simp), storeBytes]
  | cons byte rest ih =>
      rw [storeBytes, ih]
      simp only [List.length_cons]
      by_cases same : other = address
      · subst other
        simp
      · by_cases inside : address + 1 ≤ other ∧ other < address + 1 + rest.length
        · have index : other - address = other - (address + 1) + 1 := by omega
          rw [if_pos inside, if_pos (by omega), index, List.getD_cons_succ]
        · rw [if_neg inside, if_neg (by omega), store_of_ne _ _ same]

theorem storeBytes_outside (memory : Memory) (address : Nat) (bytes : List Byte) {other : Nat}
    (outside : other < address ∨ address + bytes.length ≤ other)
    : memory.storeBytes address bytes other = memory other := by
  rw [storeBytes_apply, if_neg (by omega)]

/-- A byte run reads back, by induction on the run. -/
theorem loadBytes_storeBytes (memory : Memory) (address : Nat) (bytes : List Byte)
    : (memory.storeBytes address bytes).loadBytes address bytes.length = bytes := by
  induction bytes generalizing memory address with
  | nil => rfl
  | cons byte rest ih =>
      simp only [storeBytes, List.length_cons, loadBytes, ih]
      rw [storeBytes_outside _ _ _ (by omega), store_self]

-----------------------------------------------------------------------------------------
-- Words
-----------------------------------------------------------------------------------------

/-- A word depends only on its eight bytes. -/
theorem word_congr {memory memory' : Memory} {address : Nat}
    (same : ∀ offset < 8, memory' (address + offset) = memory (address + offset))
    : memory'.word address = memory.word address := by
  rw [word, loadBytes_congr same, ← word]

@[simp] theorem word_storeWord (memory : Memory) (address : Nat) (value : Word)
    : (memory.storeWord address value).word address = value := by
  have bytes := loadBytes_storeBytes memory address (littleEndianBytes 8 value.toNat)
  rw [littleEndianBytes_length] at bytes
  rw [word, storeWord, bytes, littleEndian_bytes]
  apply BitVec.eq_of_toNat_eq
  have bound := value.isLt
  simp only [BitVec.toNat_ofNat]
  omega

theorem storeWord_outside (memory : Memory) (address : Nat) (value : Word) {other : Nat}
    (outside : other < address ∨ address + 8 ≤ other)
    : memory.storeWord address value other = memory other :=
  storeBytes_outside memory address _ (by simpa using outside)

/-- Disjoint words do not influence each other. -/
theorem word_storeWord_of_disjoint (memory : Memory) {address other : Nat} (value : Word)
    (disjoint : other + 8 ≤ address ∨ address + 8 ≤ other)
    : (memory.storeWord address value).word other = memory.word other :=
  word_congr fun _ _ => storeWord_outside memory address value (by omega)

example : (storeWord (fun _ => 0) 16 0x0123456789abcdef) 17 = 0xcd := by decide

end Memory

end Foundation
