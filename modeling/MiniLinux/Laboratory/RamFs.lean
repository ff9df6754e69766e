import MiniLinux.Memory.Machine

/-! The read-only files of `kernel/ramfs.c` and the two descriptors of a task.
The functions take any table of files; the kernel's own table is `files`.
-/

namespace MiniLinux

open Foundation

/-- `struct file`; the two lengths are those of the lists. -/
structure File where
  name : List Byte
  bytes : List Byte
  deriving DecidableEq, Repr

/-- `struct open_file` -/
structure OpenFile where
  used : Bool
  file : Nat
  offset : U64
  deriving DecidableEq, Repr

/-- `OPEN_LIMIT` -/
abbrev Descriptor := Fin 2

/-- `task->files` -/
abbrev Slots := Descriptor → OpenFile

def Slots.zero : Slots := fun _ => ⟨false, 0, 0⟩

/-- The bytes of a text, one for each character. -/
def textBytes (text : String) : List Byte :=
  text.toList.map fun character => BitVec.ofNat 8 character.toNat

def files : List File :=
  [⟨textBytes "/hello.txt", textBytes "hello from ramfs\n"⟩, ⟨textBytes "/empty.txt", []⟩]

/-- `sizeof(struct file_info)`, of which the name takes the first 32 bytes -/
def fileInfoSize : Nat := 40

/-- The bytes of `struct file_info`. -/
def File.info (file : File) : List Byte :=
  file.name ++ List.replicate (32 - file.name.length) 0
  ++ littleEndianBytes 8 file.bytes.length

/-- `ramfs_file`; the bytes to write, or `none` for the result 0 -/
def ramfsFile (files : List File) (index : U32) : Option (List Byte) :=
  files[index.toNat]?.map File.info

/-- The first unused slot. -/
def freeSlot (slots : Slots) : Option Descriptor :=
  (List.finRange 2).find? fun descriptor => !(slots descriptor).used

/-- `ramfs_open` -/
def ramfsOpen (files : List File) (slots : Slots) (name : List Byte) : U64 × Slots :=
  match files.findIdx? fun file => file.name = name with
  | none => (-4, slots)
  | some file =>
      match freeSlot slots with
      | none => (-5, slots)
      | some descriptor =>
          (BitVec.ofNat 64 descriptor.val, Function.update slots descriptor ⟨true, file, 0⟩)

/-- `fd >= OPEN_LIMIT || !slots[fd].used`; the descriptor that passes -/
def usedSlot (slots : Slots) (fd : U64) : Option Descriptor :=
  if inside : fd.toNat < 2 then
    if (slots ⟨fd.toNat, inside⟩).used then some ⟨fd.toNat, inside⟩ else none
  else none

/-- `ramfs_read`; the result, the bytes to copy and the slots. `none` is a read outside the
table of files or outside a file.
-/
def ramfsRead (files : List File) (slots : Slots) (fd length : U64)
    : Option (U64 × List Byte × Slots) :=
  match usedSlot slots fd with
  | none => some (-3, [], slots)
  | some descriptor =>
      let opened := slots descriptor
      match files[opened.file]? with
      | none => none
      | some file =>
          let available := BitVec.ofNat 64 file.bytes.length - opened.offset
          let length := if length > available then available else length
          if opened.offset.toNat + length.toNat > file.bytes.length then none
          else
            some
              (length, (file.bytes.drop opened.offset.toNat).take length.toNat,
                Function.update slots descriptor
                  { opened with offset := opened.offset + length })

/-- The rest of the file bounds a read of a descriptor that is inside its file. The unsigned
subtraction is exact there.
-/
theorem ramfsRead_inside {files : List File} {slots : Slots} {fd length : U64}
    {descriptor : Descriptor} {file : File} (used : usedSlot slots fd = some descriptor)
    (known : files[(slots descriptor).file]? = some file)
    (inside : (slots descriptor).offset.toNat ≤ file.bytes.length)
    (size : file.bytes.length < 2 ^ 64)
    : ∃ count : U64,
        count.toNat = min length.toNat (file.bytes.length - (slots descriptor).offset.toNat)
        ∧ ramfsRead files slots fd length
          = some
              (count, (file.bytes.drop (slots descriptor).offset.toNat).take count.toNat,
                Function.update slots descriptor
                  { slots descriptor with offset := (slots descriptor).offset + count }) := by
  let opened := slots descriptor
  let available := BitVec.ofNat 64 file.bytes.length - opened.offset
  let count := if length > available then available else length
  have remaining : available.toNat = file.bytes.length - opened.offset.toNat := by
    have total : (BitVec.ofNat 64 file.bytes.length).toNat = file.bytes.length := by
      rw [BitVec.toNat_ofNat, Nat.mod_eq_of_lt size]
    rw [BitVec.toNat_sub_of_le, total]
    rw [BitVec.le_def, total]
    exact inside
  have count_eq : count.toNat = min length.toNat (file.bytes.length - opened.offset.toNat) := by
    change (if length > available then available else length).toNat = _
    rw [← remaining]
    split
    · next more =>
        have less := BitVec.lt_def.mp more
        omega
    · next enough =>
        have less := BitVec.not_lt.mp enough
        rw [BitVec.le_def] at less
        omega
  refine ⟨count, count_eq, ?_⟩
  have fits : ¬opened.offset.toNat + count.toNat > file.bytes.length := by
    have bound : opened.offset.toNat ≤ file.bytes.length := inside
    omega
  unfold ramfsRead
  rw [used]
  dsimp only
  rw [known]
  exact if_neg fits

/-- `ramfs_close` -/
def ramfsClose (slots : Slots) (fd : U64) : U64 × Slots :=
  match usedSlot slots fd with
  | none => (-3, slots)
  | some descriptor =>
      (0, Function.update slots descriptor { slots descriptor with used := false })

end MiniLinux
