import MiniLinux.Laboratory.Kernel
import MiniLinux.Memory.VmTree

/-! The address space that every task gets: code pages from 4 MiB, one data page at 6 MiB and
two stack pages at 8 MiB. The pages are numbered in the order in which `prepare` maps them.
-/

namespace MiniLinux

open Foundation

/-- The image sizes that `task_start` accepts. -/
def Sized (image : List Byte) : Prop := 0 < image.length ∧ image.length ≤ 16 * pageSize

/-- The number of pages of a task. -/
def userPages (image : List Byte) : Nat := codePages image + 3

/-- The page number of the `k`-th page. -/
def layoutPage (image : List Byte) (k : Nat) : Nat :=
  if k < codePages image then 0x400 + k
  else if k = codePages image then 0x600
  else 0x800 + (k - codePages image - 1)

/-- Code is executable and read-only, the other pages are writable. -/
def layoutFlags (image : List Byte) (k : Nat) : U32 :=
  if k < codePages image then vmUser ||| vmExec else vmUser ||| vmWrite

/-- Which of the pages has a page number. -/
def layoutIndex (image : List Byte) (page : Nat) : Option Nat :=
  if 0x400 ≤ page ∧ page < 0x400 + codePages image then some (page - 0x400)
  else if page = 0x600 then some (codePages image)
  else if 0x800 ≤ page ∧ page < 0x802 then some (codePages image + 1 + (page - 0x800))
  else none

/-- The map of a task whose first pages have the given frames. -/
def layoutMap (image : List Byte) (pages : List U64) (page : Nat) : Option (U64 × U32) :=
  (layoutIndex image page).bind fun k => pages[k]?.map fun frame => (frame, layoutFlags image k)

/-- The tables that the pages need: the root, two tables below it, and one last-level table
each for code, data and stack.
-/
def layoutPaths : Finset (List Nat) := {[], [0], [0, 0], [0, 0, 2], [0, 0, 3], [0, 0, 4]}

/-- The number of frames of a task. -/
def taskFrames (image : List Byte) : Nat := userPages image + layoutPaths.card

variable {image : List Byte}

theorem layoutPaths_card : layoutPaths.card = 6 := by decide

theorem Sized.codePages_pos (sized : Sized image) : 0 < codePages image := by
  obtain ⟨positive, _⟩ := sized
  simp only [codePages, pageSize]
  omega

theorem Sized.codePages_le (sized : Sized image) : codePages image ≤ 16 := by
  obtain ⟨_, small⟩ := sized
  simp only [codePages, pageSize] at small ⊢
  omega

theorem taskFrames_eq (image : List Byte) : taskFrames image = codePages image + 9 := rfl

theorem layoutIndex_eq_some (sized : Sized image) {page k : Nat}
    : layoutIndex image page = some k ↔ k < userPages image ∧ layoutPage image k = page := by
  have bound := sized.codePages_le
  unfold layoutIndex layoutPage userPages
  split_ifs <;> simp only [Option.some.injEq, false_iff] <;> omega

theorem layoutIndex_layoutPage (sized : Sized image) {k : Nat} (inside : k < userPages image)
    : layoutIndex image (layoutPage image k) = some k :=
  (layoutIndex_eq_some sized).mpr ⟨inside, rfl⟩

/-- Where the map is defined it gives the frame and flags of one of the pages. -/
theorem layoutMap_eq_some (sized : Sized image) {pages : List U64} {page : Nat} {frame : U64}
    {flags : U32}
    : layoutMap image pages page = some (frame, flags)
      ↔ ∃ k < userPages image,
          layoutPage image k = page ∧ pages[k]? = some frame ∧ flags = layoutFlags image k := by
  unfold layoutMap
  simp only [Option.bind_eq_some_iff, Option.map_eq_some_iff, Prod.mk.injEq,
    layoutIndex_eq_some sized]
  constructor
  · intro found
    obtain ⟨k, ⟨inside, same⟩, frame, held, rfl, rfl⟩ := found
    exact ⟨k, inside, same, held, rfl⟩
  · intro found
    obtain ⟨k, inside, same, held, rfl⟩ := found
    exact ⟨k, ⟨inside, same⟩, frame, held, rfl, rfl⟩

theorem layoutMap_nil (image : List Byte) : layoutMap image [] = fun _ => none := by
  funext page
  cases found : layoutIndex image page with
  | none => rw [layoutMap, found, Option.bind_none]
  | some k => rw [layoutMap, found, Option.bind_some, List.getElem?_nil, Option.map_none]

/-- Mapping the next page adds it to the map. -/
theorem layoutMap_append (sized : Sized image) (pages : List U64) (frame : U64)
    (inside : pages.length < userPages image)
    : layoutMap image (pages ++ [frame])
      = Function.update (layoutMap image pages) (layoutPage image pages.length)
          (some (frame, layoutFlags image pages.length)) := by
  funext page
  rw [Function.update_apply]
  by_cases here : page = layoutPage image pages.length
  · rw [if_pos here, here, layoutMap, layoutIndex_layoutPage sized inside, Option.bind_some,
      List.getElem?_concat_length, Option.map_some]
  · rw [if_neg here, layoutMap, layoutMap]
    cases found : layoutIndex image page with
    | none => rw [Option.bind_none, Option.bind_none]
    | some k =>
        have apart : k ≠ pages.length := by
          intro same
          obtain ⟨_, page'⟩ := (layoutIndex_eq_some sized).mp found
          exact here (same ▸ page'.symm)
        rw [Option.bind_some, Option.bind_some]
        congr 1
        by_cases low : k < pages.length
        · rw [List.getElem?_append_left low]
        · have beyond : (pages ++ [frame]).length ≤ k := by
            simp only [List.length_append, List.length_singleton]
            omega
          rw [List.getElem?_eq_none beyond, List.getElem?_eq_none (not_lt.mp low)]

/-- The next page is not mapped yet. -/
theorem layoutMap_next (sized : Sized image) (pages : List U64)
    (inside : pages.length < userPages image)
    : layoutMap image pages (layoutPage image pages.length) = none := by
  rw [layoutMap, layoutIndex_layoutPage sized inside, Option.bind_some,
    List.getElem?_eq_none (Nat.le_refl _), Option.map_none]

-----------------------------------------------------------------------------------------
-- Addresses and table paths
-----------------------------------------------------------------------------------------

theorem mappingAddress_toNat (sized : Sized image) {k : Nat} (inside : k < userPages image)
    : (mappingAddress image k).toNat = layoutPage image k * pageSize := by
  have bound := sized.codePages_le
  have code : userCode.toNat = 0x400000 := rfl
  have data : userData.toNat = 0x600000 := rfl
  have stack : userStack.toNat = 0x800000 := rfl
  unfold mappingAddress layoutPage
  unfold userPages at inside
  split_ifs <;> simp only [BitVec.toNat_add, BitVec.toNat_ofNat, code, data, stack, pageSize] <;>
    omega

theorem mappingAddress_aligned (sized : Sized image) {k : Nat} (inside : k < userPages image)
    : (mappingAddress image k).toNat % pageSize = 0 := by
  rw [mappingAddress_toNat sized inside]
  exact Nat.mul_mod_left _ _

theorem mappingAddress_page (sized : Sized image) {k : Nat} (inside : k < userPages image)
    : (mappingAddress image k).toNat / pageSize = layoutPage image k := by
  rw [mappingAddress_toNat sized inside]
  exact Nat.mul_div_cancel _ (by decide)

theorem layoutPage_bounds (sized : Sized image) {k : Nat} (inside : k < userPages image)
    : 0x400 ≤ layoutPage image k ∧ layoutPage image k < 0x802 := by
  have bound := sized.codePages_le
  unfold layoutPage
  unfold userPages at inside
  split_ifs <;> omega

/-- The page walk of a page needs only tables of the layout. -/
theorem pagePath_layoutPage (sized : Sized image) {k : Nat} (inside : k < userPages image)
    : pagePath (layoutPage image k)
      = [0, 0, if k < codePages image then 2 else if k = codePages image then 3 else 4] := by
  have bound := sized.codePages_le
  unfold pagePath layoutPage
  unfold userPages at inside
  simp only [List.cons.injEq, and_true]
  split_ifs <;> omega

theorem layoutPaths_of_prefix (sized : Sized image) {k : Nat} (inside : k < userPages image)
    {path : List Nat} (initial : path <+: pagePath (layoutPage image k))
    : path ∈ layoutPaths := by
  rw [pagePath_layoutPage sized inside] at initial
  have inits := (List.mem_inits _ _).mpr initial
  split_ifs at inits <;> revert inits <;> simp [layoutPaths] <;> tauto

theorem layoutFlags_known (image : List Byte) (k : Nat)
    : layoutFlags image k &&& ~~~(vmWrite ||| vmUser ||| vmExec) = 0 := by
  unfold layoutFlags
  split <;> decide

theorem layoutFlags_user (image : List Byte) (k : Nat) : layoutFlags image k &&& vmUser ≠ 0 := by
  unfold layoutFlags
  split <;> decide

end MiniLinux
