import MiniLinux.Foundation.ByteMemory
import MiniLinux.Foundation.Halting

/-! The machine state below the tasks: physical memory, the page allocator's record and
the paging registers. Physical addresses index memory directly. Limine's direct map (HHDM)
takes the kernel pointer `offset + p` to physical byte `p`.
-/

namespace MiniLinux

open Foundation

abbrev U64 := BitVec 64

abbrev U32 := BitVec 32

/-- The ways the kernel stops for good. `panic` is the source's own; the others are the
accesses that the C program must never make.
-/
inductive Halt where
  | panic (message : String)
  | nullPointer
  | outOfBounds
  | kernelFault (address : U64)
  deriving DecidableEq, Repr

/-- `PAGE_SIZE` -/
def pageSize : Nat := 4096

/-- `enum page_state`, stored as one byte for each frame. -/
inductive PageState where
  | unmanaged
  | free
  | allocated
  deriving DecidableEq, Repr

def PageState.byte : PageState → Byte
  | unmanaged => 0
  | free => 1
  | allocated => 2

theorem PageState.byte_injective {state state' : PageState} (same : state.byte = state'.byte)
    : state = state' := by
  cases state <;> cases state' <;> first | rfl | exact absurd same (by decide)

/-- The allocator's record `pages`; `states` is a kernel pointer, zero when null. -/
structure Pages where
  states : U64
  frameCount : U64
  freeCount : U64
  nextFrame : U64
  hhdmOffset : U64
  metadataBase : U64
  metadataPages : U64
  deriving DecidableEq, Repr

/-- The zero-initialised static record. -/
def Pages.zero : Pages := ⟨0, 0, 0, 0, 0, 0, 0⟩

/-- A translation that the processor keeps: the page, what it reaches with which
permissions, and the table frames it was read through.
-/
structure Translation where
  page : Nat
  frame : U64
  flags : U32
  through : List U64
  deriving DecidableEq, Repr

/-- `directOffset` and `bootRoot` are the statics of `kernel/memory/vm.c`; `tlb` holds the
translations cached since `cr3` was last loaded.
-/
structure Machine where
  memory : Memory
  pages : Pages
  directOffset : U64
  bootRoot : U64
  cr3 : U64
  tlb : List Translation

/-- Machine programs that return or halt. -/
abbrev MachineM (α : Type) := Halting Halt Machine α

/-- The physical byte behind a direct-map pointer. -/
def directMap (offset pointer : U64) : Nat := (pointer - offset).toNat

@[simp] theorem directMap_add (offset physical : U64)
    : directMap offset (offset + physical) = physical.toNat := by
  simp [directMap, BitVec.add_comm offset]

theorem toNat_add_one {value : U64} (small : value.toNat + 1 < 2 ^ 64)
    : (value + 1).toNat = value.toNat + 1 := by
  have one : (1 : U64).toNat = 1 := rfl
  rw [BitVec.toNat_add, one, Nat.mod_eq_of_lt small]

theorem toNat_sub_one {value : U64} (positive : value.toNat ≠ 0)
    : (value - 1).toNat = value.toNat - 1 := by
  have one : (1 : U64).toNat = 1 := rfl
  have bound := value.isLt
  rw [BitVec.toNat_sub, one]
  omega

/-- The number of the frame that holds a physical byte. -/
def frameOf (address : Nat) : Nat := address / pageSize

/-- The address of a frame. -/
def frameAddress (frame : Nat) : U64 := BitVec.ofNat 64 (frame * pageSize)

end MiniLinux
