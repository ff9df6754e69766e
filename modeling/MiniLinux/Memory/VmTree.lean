import MiniLinux.Foundation.RadixTree
import MiniLinux.Memory.PageCalls
import MiniLinux.Memory.VmEntries

/-! The lower half of an address space as a radix tree, and its meaning as a finite map.
Three levels of tables are linked by upper entries; the last-level entry of a page gives
its frame and permissions. The invariant says that the linked tables are owned, distinct
and unshared, and that no upper entry restricts access.
-/

namespace MiniLinux

open Foundation Foundation.Halting

/-- The number of pages below the middle of the address space. -/
def lowerPages : Nat := 2 ^ 35

/-- The indices that lead from the root to the last-level table of a page. -/
def pagePath (page : Nat) : List Nat :=
  [page / 2 ^ 27 % 512, page / 2 ^ 18 % 512, page / 2 ^ 9 % 512]

/-- Only the lower half of the root belongs to the tree. -/
def lowerSlots (root table : U64) : Nat := if table = root then 256 else 512

/-- The table that an upper entry links. -/
def Machine.lowerChild (machine : Machine) (root table : U64) (index : Nat) : Option U64 :=
  if index < lowerSlots root table then entryTarget (machine.entry table index) else none

/-- The table at the end of a path of indices from the root. -/
def Machine.tableOn (machine : Machine) (root : U64) (path : List Nat) : Option U64 :=
  RadixTree.descend (machine.lowerChild root) root path

/-- The frame and permissions that the tables give a page. -/
def Machine.mapping (machine : Machine) (root : U64) (page : Nat) : Option (U64 × U32) :=
  if page < lowerPages then
    (machine.tableOn root (pagePath page)).bind fun table =>
      entryLeaf (machine.entry table (page % 512))
  else none

/-- The reply of `vm_lookup` to a caller with the given variables. -/
def lookupReply (found : Option (U64 × U32)) (address physical : U64) (flags : U32)
    : Bool × U64 × U32 :=
  match found with
  | none => (false, physical, flags)
  | some (frame, permissions) =>
      (true, frame + BitVec.ofNat 64 (address.toNat % pageSize), permissions)

/-- The allocator is initialised below the kernel half, as Limine places its direct map. -/
structure Machine.Ready (machine : Machine) : Prop extends machine.PagesWellFormed where
  higherHalf : 0xffff800000000000 ≤ machine.pages.hhdmOffset.toNat

/-- The tables of `space` form a tree whose existing paths are `paths`. -/
structure Machine.SpaceFormed (machine : Machine) (space : AddressSpace)
    (paths : Finset (List Nat))
    : Prop where
  rootOwned : space.root ∈ space.tables
  distinct : space.tables.Nodup
  outstanding : ∀ table ∈ space.tables, machine.Outstanding table
  linkedOwned
    : ∀ path table,
        path.length ≤ 3 → machine.tableOn space.root path = some table → table ∈ space.tables
  unshared : RadixTree.Unshared (machine.lowerChild space.root) space.root 3
  spanned
    : ∀ path, path.length ≤ 3 → ((machine.tableOn space.root path).isSome ↔ path ∈ paths)
  shallow : ∀ path ∈ paths, path.length ≤ 3
  counted : space.tables.length = paths.card
  permissive
    : ∀ path table index,
        path.length < 3
        → machine.tableOn space.root path = some table
        → index < lowerSlots space.root table
        → machine.entry table index &&& ptePresent ≠ 0
        → machine.entry table index &&& pteLarge = 0
          ∧ entryFlags (machine.entry table index) = vmWrite ||| vmUser ||| vmExec
  supervisor
    : ∀ index, 256 ≤ index → index < 512 → machine.entry space.root index &&& pteUser = 0

theorem lowerSlots_le (root table : U64) : lowerSlots root table ≤ 512 := by
  unfold lowerSlots
  split <;> decide

theorem tableIndex_eq (address : U64) (shift : Nat)
    : tableIndex address shift = address.toNat / 2 ^ shift % 512 := by
  have mask : (511 : U64).toNat = 2 ^ 9 - 1 := rfl
  rw [tableIndex, BitVec.toNat_and, BitVec.toNat_ushiftRight, Nat.shiftRight_eq_div_pow, mask,
    Nat.and_two_pow_sub_one_eq_mod]

/-- The walk of an address follows the path of its page. -/
theorem pagePath_eq (address : U64)
    : upperShifts.map (tableIndex address) = pagePath (address.toNat / pageSize) := by
  simp only [upperShifts, List.map_cons, List.map_nil, tableIndex_eq, pagePath, pageSize,
    Nat.div_div_eq_div_mul, Nat.reduceMul, Nat.reducePow]

theorem tableIndex_last (address : U64)
    : tableIndex address 12 = address.toNat / pageSize % 512 :=
  tableIndex_eq address 12

theorem pagePath_length (page : Nat) : (pagePath page).length = 3 := rfl

/-- A page is determined by its path and its last index. -/
theorem pagePath_injective {page page' : Nat} (low : page < lowerPages) (low' : page' < lowerPages)
    (same : pagePath page = pagePath page') (last : page % 512 = page' % 512)
    : page = page' := by
  simp only [pagePath, List.cons.injEq, and_true] at same
  simp only [lowerPages] at low low'
  omega

theorem below_iff (address : U64)
    : ¬address ≥ 0x800000000000 ↔ address.toNat / pageSize < lowerPages := by
  have bound : (0x800000000000 : U64).toNat = 2 ^ 47 := rfl
  rw [ge_iff_le, BitVec.le_def, bound]
  simp only [pageSize, lowerPages]
  omega

/-- Every allocated frame has an address that an entry can hold. -/
theorem Machine.Ready.frameAddress {machine : Machine} (ready : machine.Ready) {address : U64}
    (outstanding : machine.Outstanding address)
    : FrameAddress address := by
  obtain ⟨aligned, inside, _⟩ := outstanding
  have mapped := ready.mapped
  have half := ready.higherHalf
  refine ⟨aligned, ?_⟩
  simp only [frameOf, pageSize] at *
  omega

namespace Machine.SpaceFormed

variable {machine machine' : Machine} {space : AddressSpace} {paths : Finset (List Nat)}

theorem frameAddress (formed : machine.SpaceFormed space paths) (ready : machine.Ready)
    {table : U64} (owned : table ∈ space.tables)
    : FrameAddress table :=
  ready.frameAddress (formed.outstanding table owned)

theorem root_ne_zero (formed : machine.SpaceFormed space paths) (ready : machine.Ready)
    : space.root ≠ 0 := by
  intro zero
  have nonzero :=
    ready.ne_zero_of_allocated (formed.outstanding space.root formed.rootOwned).2
  rw [zero] at nonzero
  exact nonzero rfl

/-- Every table of the space lies on one of the existing paths. Witness: different paths lead to
different tables, and there are as many paths as tables.
-/
theorem reached (formed : machine.SpaceFormed space paths) {table : U64}
    (member : table ∈ space.tables)
    : ∃ path ∈ paths, machine.tableOn space.root path = some table := by
  have found {path : List Nat} (member : path ∈ paths)
      : ∃ node, machine.tableOn space.root path = some node :=
    Option.isSome_iff_exists.mp ((formed.spanned path (formed.shallow path member)).mpr member)
  let node (path : List Nat) : U64 := (machine.tableOn space.root path).getD 0
  have injective : Set.InjOn node paths := by
    intro first left second right same
    obtain ⟨table, here⟩ := found left
    obtain ⟨table', there⟩ := found right
    simp only [node, here, there, Option.getD_some] at same
    subst same
    exact formed.unshared first second table (formed.shallow _ left) (formed.shallow _ right) here
      there
  have inside : paths.image node ⊆ space.tables.toFinset := by
    intro table member
    obtain ⟨path, exists', rfl⟩ := Finset.mem_image.mp member
    obtain ⟨table, here⟩ := found exists'
    simp only [node, here, Option.getD_some, List.mem_toFinset]
    exact formed.linkedOwned path table (formed.shallow path exists') here
  have all : paths.image node = space.tables.toFinset := by
    apply Finset.eq_of_subset_of_card_le inside
    rw [Finset.card_image_of_injOn injective, ← formed.counted]
    exact List.toFinset_card_le _
  have image : table ∈ paths.image node := by
    rw [all]
    exact List.mem_toFinset.mpr member
  obtain ⟨path, exists', same⟩ := Finset.mem_image.mp image
  obtain ⟨table', here⟩ := found exists'
  simp only [node, here, Option.getD_some] at same
  exact ⟨path, exists', same ▸ here⟩

/-- The existing paths are closed under initial parts. -/
theorem initial_mem (formed : machine.SpaceFormed space paths) (first rest : List Nat)
    (member : first ++ rest ∈ paths)
    : first ∈ paths := by
  have short := formed.shallow _ member
  obtain ⟨table, found⟩ := Option.isSome_iff_exists.mp ((formed.spanned _ short).mpr member)
  obtain ⟨middle, reached⟩ := RadixTree.descend_initial found
  rw [List.length_append] at short
  exact (formed.spanned first (by omega)).mp (Option.isSome_iff_exists.mpr ⟨middle, reached⟩)

/-- The tree depends only on the owned tables, and not on the bits the processor sets. -/
theorem tableOn_congr (formed : machine.SpaceFormed space paths)
    (same
      : ∀ table ∈ space.tables, ∀ index < 512,
          SameEntry (machine'.entry table index) (machine.entry table index))
    {path : List Nat} (short : path.length ≤ 3)
    : machine'.tableOn space.root path = machine.tableOn space.root path := by
  apply RadixTree.descend_congr _ path short
  intro path table index short' found
  have owned := formed.linkedOwned path table (by omega) found
  unfold lowerChild
  split
  · next inside =>
      have bound := Nat.lt_of_lt_of_le inside (lowerSlots_le _ _)
      exact (same table owned index bound).entryTarget
  · rfl

theorem mapping_congr (formed : machine.SpaceFormed space paths)
    (same
      : ∀ table ∈ space.tables, ∀ index < 512,
          SameEntry (machine'.entry table index) (machine.entry table index))
    : machine'.mapping space.root = machine.mapping space.root := by
  funext page
  unfold mapping
  rw [formed.tableOn_congr same (Nat.le_of_eq (pagePath_length page))]
  cases found : machine.tableOn space.root (pagePath page) with
  | none => simp only [Option.bind_none]
  | some table =>
      have owned := formed.linkedOwned _ table (Nat.le_of_eq (pagePath_length page)) found
      have leaf := (same table owned (page % 512) (Nat.mod_lt _ (by decide))).entryLeaf
      simp only [Option.bind_some, leaf]

/-- A change that leaves the owned tables alone leaves the tree alone. -/
theorem congr (formed : machine.SpaceFormed space paths)
    (outstanding : ∀ table ∈ space.tables, machine'.Outstanding table)
    (same
      : ∀ table ∈ space.tables, ∀ index < 512,
          SameEntry (machine'.entry table index) (machine.entry table index))
    : machine'.SpaceFormed space paths := by
  have paths' {path : List Nat} (short : path.length ≤ 3) := formed.tableOn_congr same short
  refine { formed with
    outstanding := outstanding, linkedOwned := ?_, unshared := ?_, spanned := ?_,
    permissive := ?_, supervisor := ?_ }
  · intro path table short found
    rw [paths' short] at found
    exact formed.linkedOwned path table short found
  · intro first second table short short' left right
    exact formed.unshared first second table short short'
      ((paths' short).symm.trans left) ((paths' short').symm.trans right)
  · intro path short
    rw [paths' short]
    exact formed.spanned path short
  · intro path table index short found inside present
    rw [paths' (by omega)] at found
    have owned := formed.linkedOwned path table (by omega) found
    have bound := Nat.lt_of_lt_of_le inside (lowerSlots_le _ _)
    have entry := same table owned index bound
    rw [entry.and (by decide), entry.entryFlags]
    rw [entry.and (by decide)] at present
    exact formed.permissive path table index short found inside present
  · intro index upper bound
    rw [(same space.root formed.rootOwned index bound).and (by decide)]
    exact formed.supervisor index upper bound

/-- Every index on the path of a lower page belongs to the tree. -/
theorem index_inside (formed : machine.SpaceFormed space paths) {page : Nat}
    (low : page < lowerPages) {first rest : List Nat} {index : Nat}
    (on : pagePath page = first ++ index :: rest) {table : U64}
    (found : machine.tableOn space.root first = some table)
    : index < lowerSlots space.root table := by
  have length : (pagePath page).length = first.length + (rest.length + 1) := by
    rw [on, List.length_append, List.length_cons]
  rw [pagePath_length] at length
  unfold lowerSlots
  split
  · next same =>
      subst same
      have top := formed.unshared first [] _ (by omega) (by decide) found rfl
      subst top
      simp only [pagePath, List.nil_append, List.cons.injEq] at on
      simp only [lowerPages] at low
      omega
  · have member : index ∈ pagePath page := by simp [on]
    simp only [pagePath, List.mem_cons, List.not_mem_nil, or_false] at member
    omega

end Machine.SpaceFormed

/-- The walk over upper entries that permit everything follows the tree, by induction on
the levels.
-/
theorem walkTables_eq (machine : Machine) (root : U64) (address : U64) (shifts : List Nat)
    (table : U64) (permissions : U32)
    (full : permissions &&& (vmWrite ||| vmUser ||| vmExec) = permissions)
    (permissive
      : ∀ first index rest node,
          shifts.map (tableIndex address) = first ++ index :: rest
          → RadixTree.descend (machine.lowerChild root) table first = some node
          → index < lowerSlots root node
            ∧ (machine.entry node index &&& ptePresent ≠ 0
              → entryFlags (machine.entry node index) = vmWrite ||| vmUser ||| vmExec))
    : machine.walkTables address shifts (machine.tableAt table) permissions
      = (RadixTree.descend (machine.lowerChild root) table
          (shifts.map (tableIndex address))).map fun node =>
            (machine.tableAt node, permissions) := by
  induction shifts generalizing table with
  | nil => rfl
  | cons shift rest ih =>
      obtain ⟨inside, flags⟩ := permissive [] _ _ table rfl rfl
      rw [List.map_cons, RadixTree.descend_cons, Machine.walkTables, entryAt_tableAt,
        Machine.lowerChild, if_pos inside]
      unfold entryTarget
      by_cases stops : machine.entry table (tableIndex address shift) &&& ptePresent = 0
          ∨ machine.entry table (tableIndex address shift) &&& pteLarge ≠ 0
      · simp only [if_pos stops, Option.bind_none, Option.map_none]
      · obtain ⟨present, _⟩ := not_or.mp stops
        simp only [if_neg stops, Option.bind_some, flags present, full]
        apply ih
        intro first index below node on found
        apply permissive (tableIndex address shift :: first) index below node
        · rw [List.map_cons, on, List.cons_append]
        · rw [RadixTree.descend_cons, Machine.lowerChild, if_pos inside, entryTarget,
            if_neg stops]
          exact found

namespace Machine.SpaceFormed

variable {machine machine' : Machine} {space : AddressSpace} {paths : Finset (List Nat)}

/-- `leaf_entry` finds the last-level entry of the page. -/
theorem leafEntry_eq (formed : machine.SpaceFormed space paths) (ready : machine.Ready)
    {address : U64} (low : ¬address ≥ 0x800000000000) {permissions : U32}
    (full : permissions &&& (vmWrite ||| vmUser ||| vmExec) = permissions)
    : machine.leafEntry (some space) address permissions
      = (machine.tableOn space.root (pagePath (address.toNat / pageSize))).map fun table =>
          (entryPointer (machine.tableAt table) (address.toNat / pageSize % 512),
            permissions) := by
  have page := (below_iff address).mp low
  have walk :=
    walkTables_eq machine space.root address upperShifts space.root permissions full
      (by
        intro first index rest node on found
        rw [pagePath_eq] at on
        have inside := formed.index_inside page on found
        refine ⟨inside, fun present => ?_⟩
        have length := congrArg List.length on
        rw [pagePath_length, List.length_append, List.length_cons] at length
        exact (formed.permissive first node index (by omega) found inside present).2)
  rw [pagePath_eq] at walk
  have live : ¬(space.root = 0 ∨ address ≥ 0x800000000000) :=
    not_or.mpr ⟨formed.root_ne_zero ready, low⟩
  unfold leafEntry
  simp only [if_neg live, walk, tableOn]
  cases RadixTree.descend (machine.lowerChild space.root) space.root
      (pagePath (address.toNat / pageSize)) with
  | none => rfl
  | some table => rw [Option.map_some, Option.map_some, tableIndex_last]

/-- `vm_lookup` reads the map; where the map is undefined it leaves the variables alone. -/
theorem vmLookup_eq (formed : machine.SpaceFormed space paths) (ready : machine.Ready)
    (address physical : U64) (flags : U32)
    : machine.vmLookup (some space) address physical flags
      = lookupReply (machine.mapping space.root (address.toNat / pageSize)) address physical
          flags := by
  by_cases low : ¬address ≥ 0x800000000000
  · have page := (below_iff address).mp low
    rw [vmLookup, formed.leafEntry_eq ready low (by decide), mapping, if_pos page]
    cases machine.tableOn space.root (pagePath (address.toNat / pageSize)) with
    | none => rfl
    | some table =>
        simp only [Option.map_some, Option.bind_some, entryAt_tableAt, entryLeaf]
        by_cases absent
            : machine.entry table (address.toNat / pageSize % 512) &&& ptePresent = 0
        · simp only [if_pos absent, lookupReply]
        · simp only [if_neg absent, lookupReply, Prod.mk.injEq, true_and]
          -- the last-level entry narrows the full permissions to its own
          have all (value : U64)
              : (vmWrite ||| vmUser ||| vmExec) &&& entryFlags value = entryFlags value := by
            unfold entryFlags
            split_ifs <;> decide
          exact all _
  · have page := mt (below_iff address).mpr low
    have beyond : space.root = 0 ∨ address ≥ 0x800000000000 := Or.inr (not_not.mp low)
    rw [vmLookup, mapping, if_neg page, leafEntry]
    simp only [if_pos beyond, lookupReply]

/-- `vm_map` and `vm_unmap` test the entry of the page. -/
theorem leafPresent_eq (formed : machine.SpaceFormed space paths) (ready : machine.Ready)
    {address : U64} (low : ¬address ≥ 0x800000000000)
    : machine.leafPresent (some space) address
      = (machine.mapping space.root (address.toNat / pageSize)).isSome := by
  have page := (below_iff address).mp low
  rw [leafPresent, formed.leafEntry_eq ready low (by decide), mapping, if_pos page]
  cases machine.tableOn space.root (pagePath (address.toNat / pageSize)) with
  | none => rfl
  | some table =>
      simp only [Option.map_some, Option.bind_some, entryAt_tableAt, entryLeaf]
      by_cases absent
          : machine.entry table (address.toNat / pageSize % 512) &&& ptePresent = 0
      · rw [if_pos absent, decide_eq_false (not_not.mpr absent)]
        rfl
      · rw [if_neg absent, decide_eq_true absent]
        rfl

end Machine.SpaceFormed

end MiniLinux
