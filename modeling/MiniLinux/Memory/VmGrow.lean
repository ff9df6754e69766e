import MiniLinux.Memory.FrameTransfer
import MiniLinux.Memory.VmTree

/-! How an address space comes into being and grows.
A fresh root has an empty map. The space grows by tables taken from the allocator, which
are linked one at a time and never change the map.
-/

namespace MiniLinux

open Foundation Foundation.Halting

theorem Machine.SameRecord.tableAt {machine machine' : Machine} (same : machine.SameRecord machine')
    (table : U64)
    : machine'.tableAt table = machine.tableAt table := by
  rw [Machine.tableAt, same.directOffset, Machine.tableAt]

theorem Machine.Ready.of_record {machine machine' : Machine} (ready : machine.Ready)
    (wellFormed : machine'.PagesWellFormed) (same : machine.SameRecord machine')
    : machine'.Ready :=
  { wellFormed with higherHalf := by rw [same.hhdmOffset]; exact ready.higherHalf }

theorem Machine.Takes.ready {machine machine' : Machine} {taken written : List U64}
    (takes : machine.Takes machine' taken written) (ready : machine.Ready)
    : machine'.Ready :=
  ready.of_record takes.wellFormed takes.record

theorem Machine.Returns.ready {machine machine' : Machine} {returned : List U64}
    (returns : machine.Returns machine' returned) (ready : machine.Ready)
    : machine'.Ready :=
  ready.of_record returns.wellFormed returns.record

/-- Entries of tables that are neither taken nor written stay the same. -/
theorem Machine.Takes.entry {machine machine' : Machine} {taken written : List U64}
    (takes : machine.Takes machine' taken written) (ready : machine.Ready) {table : U64}
    (outstanding : machine.Outstanding table) (apart : table ∉ written)
    (aligned : ∀ address ∈ written, FrameAddress address) {index : Nat} (inside : index < 512)
    : machine'.entry table index = machine.entry table index := by
  have frame := ready.frameAddress outstanding
  apply frame.entry_congr inside
  intro byte place
  apply takes.memory_of_allocated ready.toPagesWellFormed
  · rw [place]
    exact outstanding.2
  · intro within
    obtain ⟨address, member, same⟩ := within
    have equal := (aligned address member).eq_of_frameOf frame (same.trans place)
    exact apart (equal ▸ member)

theorem Machine.Returns.entry {machine machine' : Machine} {returned : List U64}
    (returns : machine.Returns machine' returned) (ready : machine.Ready) {table : U64}
    (outstanding : machine.Outstanding table) {index : Nat} (inside : index < 512)
    : machine'.entry table index = machine.entry table index := by
  apply (ready.frameAddress outstanding).entry_congr inside
  intro byte place
  apply returns.memory
  rw [place]
  exact ready.not_metadata_of_allocated outstanding.2

/-- A space whose tables are not written stays as it is. -/
theorem Machine.Takes.spaceFormed {machine machine' : Machine} {taken written : List U64}
    (takes : machine.Takes machine' taken written) (ready : machine.Ready) {space : AddressSpace}
    {paths : Finset (List Nat)} (formed : machine.SpaceFormed space paths)
    (apart : ∀ table ∈ space.tables, table ∉ written)
    (aligned : ∀ address ∈ written, FrameAddress address)
    : machine'.SpaceFormed space paths
      ∧ machine'.mapping space.root = machine.mapping space.root := by
  have entries : ∀ table ∈ space.tables, ∀ index < 512,
      SameEntry (machine'.entry table index) (machine.entry table index) := by
    intro table member index inside
    rw [takes.entry ready (formed.outstanding table member) (apart table member) aligned inside]
    exact .refl _
  refine ⟨formed.congr ?_ entries, formed.mapping_congr entries⟩
  exact fun table member => takes.outstanding (formed.outstanding table member)

/-- Writing bytes of one allocated frame takes nothing. -/
theorem Machine.Takes.storeBytes {machine : Machine} (ready : machine.Ready) {page : U64}
    (outstanding : machine.Outstanding page) {bytes : List Byte} (short : bytes.length ≤ pageSize)
    : machine.Takes
        { machine with memory := machine.memory.storeBytes page.toNat bytes } [] [page] := by
  apply Machine.Takes.write ready.toPagesWellFormed
  · intro address member
    rw [List.mem_singleton.mp member]
    exact outstanding.2
  · intro byte outside
    apply Memory.storeBytes_outside
    by_contra inside
    refine outside ⟨page, List.mem_singleton_self _, ?_⟩
    have aligned := outstanding.1
    simp only [frameOf, pageSize] at aligned short ⊢
    omega

/-- Writing one entry of an allocated table takes nothing. -/
theorem Machine.Takes.withEntry {machine : Machine} (ready : machine.Ready) {table : U64}
    (outstanding : machine.Outstanding table) {index : Nat} (inside : index < 512) (value : U64)
    : machine.Takes (machine.withEntry table index value) [] [table] := by
  apply Machine.Takes.write ready.toPagesWellFormed
  · intro address member
    rw [List.mem_singleton.mp member]
    exact outstanding.2
  · intro byte outside
    apply (ready.frameAddress outstanding).withEntry_memory machine inside value
    intro same
    exact outside ⟨table, List.mem_singleton_self _, same.symm⟩

/-- `new_table` at a full space or without free frames changes nothing. -/
theorem newTable_refused (machine : Machine) {space : AddressSpace} (physical : U64)
    (refused : space.tables.length = vmTableLimit ∨ machine.pages.freeCount = 0)
    : newTable space physical machine = .ok ((false, physical, space), machine) := by
  unfold newTable
  by_cases full : space.tables.length = vmTableLimit
  · rw [if_pos full, pure_apply]
  · have empty := refused.resolve_left full
    rw [if_neg full, bind_ok (pageAlloc_refused machine (some physical) (Or.inr empty))]
    rfl

/-- Otherwise it takes a frame, clears it and records it. -/
theorem newTable_ok {machine : Machine} (ready : machine.Ready) (space : AddressSpace)
    (physical : U64) (room : space.tables.length ≠ vmTableLimit)
    (available : machine.pages.freeCount ≠ 0)
    : ∃ next machine',
        newTable space physical machine
          = .ok ((true, next, { space with tables := space.tables ++ [next] }), machine')
        ∧ machine.Takes machine' [next] []
        ∧ ∀ index < 512, machine'.entry next index = 0 := by
  obtain ⟨frame, found, allocated⟩ := ready.pageAlloc_ok physical available
  obtain ⟨_, _, _, free, _⟩ := found
  let next := frameAddress frame
  have takes := Machine.Takes.allocate ready.toPagesWellFormed free
  have ready' := takes.ready ready
  have outstanding : (machine.allocate frame).Outstanding next :=
    (takes.outstanding_iff next).mpr (Or.inl (List.mem_singleton_self _))
  have frameNext := ready'.frameAddress outstanding
  obtain ⟨memory, result, outside, _, written⟩ :=
    writeEntries_spec frameNext (fun _ _ => 0) (machine.allocate frame) 0 512 (by decide)
  have cleared : (machine.allocate frame).Takes { machine.allocate frame with memory := memory }
      [] [next] := by
    apply Machine.Takes.write ready'.toPagesWellFormed
    · intro address member
      rw [List.mem_singleton.mp member]
      exact outstanding.2
    · intro byte apart
      exact outside byte fun same => apart ⟨next, List.mem_singleton_self _, same.symm⟩
  refine ⟨next, { machine.allocate frame with memory := memory }, ?_, ?_, ?_⟩
  · unfold newTable
    rw [if_neg room, bind_ok allocated]
    simp only [if_true, Option.getD_some, bind_get_apply]
    rw [zeroEntries, bind_ok result]
    rfl
  · exact (takes.trans cleared).mono [] (by simp [next])
  · intro index inside
    obtain ⟨_, _, entry⟩ := written index (Nat.zero_le _) (by omega)
    exact entry

/-- The root that the bootloader left is a page outside the frames that the allocator manages. -/
structure Machine.BootTables (machine : Machine) : Prop where
  frame : FrameAddress machine.bootRoot
  unfree : ¬machine.IsFree (frameOf machine.bootRoot.toNat)
  unallocated : ¬machine.IsAllocated (frameOf machine.bootRoot.toNat)
  apart : ¬machine.IsMetadata (frameOf machine.bootRoot.toNat)

/-- What changes no byte of the bootloader's root changes none of its entries. -/
theorem Machine.BootTables.entry_congr {machine machine' : Machine} (boot : machine.BootTables)
    {index : Nat} (inside : index < 512)
    (same
      : ∀ byte,
          frameOf byte = frameOf machine.bootRoot.toNat
          → machine'.memory byte = machine.memory byte)
    : machine'.entry machine.bootRoot index = machine.entry machine.bootRoot index :=
  boot.frame.entry_congr inside same

/-- Taking frames and writing allocated ones leaves the bootloader's root alone. -/
theorem Machine.Takes.bootTables {machine machine' : Machine} {taken written : List U64}
    (takes : machine.Takes machine' taken written) (boot : machine.BootTables)
    (allocated : ∀ address ∈ written, machine.IsAllocated (frameOf address.toNat))
    : machine'.BootTables
      ∧ ∀ index < 512,
          machine'.entry machine'.bootRoot index = machine.entry machine.bootRoot index := by
  have root := takes.record.bootRoot
  have free {address : U64} (member : address ∈ taken)
      : frameOf address.toNat ≠ frameOf machine.bootRoot.toNat :=
    fun same => boot.unfree (same ▸ (takes.free address member).2)
  have states := frame_of_state takes.record fun inside =>
    takes.states (frameOf machine.bootRoot.toNat) inside fun _ => free
  refine ⟨⟨?_, ?_, ?_, ?_⟩, ?_⟩
  · rw [root]
    exact boot.frame
  · rw [root, states.1]
    exact boot.unfree
  · rw [root, states.2]
    exact boot.unallocated
  · rw [root, takes.record.isMetadata]
    exact boot.apart
  · intro index inside
    rw [root]
    refine boot.entry_congr inside fun byte here => takes.memory byte (here ▸ boot.apart) ?_
    rintro ⟨address, member, same⟩
    rcases List.mem_append.mp member with new | old
    · exact free new (same.trans here)
    · exact boot.unallocated (here ▸ same ▸ allocated address old)

/-- Returning frames leaves the bootloader's root alone. -/
theorem Machine.Returns.bootTables {machine machine' : Machine} {returned : List U64}
    (returns : machine.Returns machine' returned) (boot : machine.BootTables)
    (allocated : ∀ address ∈ returned, machine.IsAllocated (frameOf address.toNat))
    : machine'.BootTables
      ∧ ∀ index < 512,
          machine'.entry machine'.bootRoot index = machine.entry machine.bootRoot index := by
  have root := returns.record.bootRoot
  have states := frame_of_state returns.record fun inside =>
    returns.states (frameOf machine.bootRoot.toNat) inside fun address member same =>
      boot.unallocated (same ▸ allocated address member)
  refine ⟨⟨?_, ?_, ?_, ?_⟩, ?_⟩
  · rw [root]
    exact boot.frame
  · rw [root, states.1]
    exact boot.unfree
  · rw [root, states.2]
    exact boot.unallocated
  · rw [root, returns.record.isMetadata]
    exact boot.apart
  · intro index inside
    rw [root]
    exact boot.entry_congr inside fun byte here => returns.memory byte (here ▸ boot.apart)

/-- A space whose root has no lower entries has an empty map. -/
theorem Machine.SpaceFormed.of_empty {machine : Machine} {root : U64}
    (outstanding : machine.Outstanding root)
    (empty : ∀ index < 256, machine.entry root index = 0)
    (supervisor
      : ∀ index, 256 ≤ index → index < 512 → machine.entry root index &&& pteUser = 0)
    : machine.SpaceFormed ⟨root, [root]⟩ {[]} ∧ machine.mapping root = fun _ => none := by
  have childless : ∀ index, machine.lowerChild root root index = none := by
    intro index
    unfold lowerChild
    split
    · next inside =>
        rw [empty index (by simpa only [lowerSlots, if_pos] using inside), entryTarget_zero]
    · rfl
  have top {path : List Nat} {table : U64} (found : machine.tableOn root path = some table)
      : path = [] :=
    RadixTree.descend_of_childless childless found
  constructor
  · constructor
    · exact List.mem_singleton_self _
    · exact List.nodup_singleton _
    · intro table member
      rw [List.mem_singleton.mp member]
      exact outstanding
    · intro path table _ found
      rw [top found] at found
      cases found
      exact List.mem_singleton_self _
    · exact RadixTree.unshared_of_childless childless 3
    · intro path _
      rw [Finset.mem_singleton, Option.isSome_iff_exists]
      constructor
      · intro found
        obtain ⟨table, found⟩ := found
        exact top found
      · intro same
        exact ⟨root, same ▸ rfl⟩
    · intro path member
      rw [Finset.mem_singleton.mp member]
      exact Nat.zero_le 3
    · rfl
    · intro path table index _ found inside present
      have same := top found
      subst same
      cases found
      rw [empty index (by simpa only [lowerSlots, if_pos] using inside)] at present
      exact absurd rfl present
    · exact supervisor
  · funext page
    have absent : machine.tableOn root (pagePath page) = none := by
      cases found : machine.tableOn root (pagePath page) with
      | none => rfl
      | some table => exact absurd (top found) (by simp [pagePath])
    rw [mapping, absent, Option.bind_none, ite_self]

/-- `vm_create` on a space in use is refused. -/
theorem vmCreate_refused (machine : Machine) {space : AddressSpace}
    (used : space.root ≠ 0 ∨ space.tables.length ≠ 0)
    : vmCreate (some space) machine = .ok ((false, some space), machine) := by
  rw [vmCreate, if_pos used, pure_apply]

/-- `vm_create` without free frames changes nothing. -/
theorem vmCreate_exhausted {machine : Machine} (exhausted : machine.pages.freeCount = 0)
    : vmCreate (some .zero) machine = .ok ((false, some .zero), machine) := by
  have unused : ¬(AddressSpace.zero.root ≠ 0 ∨ AddressSpace.zero.tables.length ≠ 0) := by
    simp [AddressSpace.zero]
  rw [vmCreate, if_neg unused, bind_ok (newTable_refused machine _ (Or.inr exhausted))]
  rfl

/-- Otherwise it takes one frame for a root without lower entries. -/
theorem vmCreate_ok {machine : Machine} (ready : machine.Ready)
    (available : machine.pages.freeCount ≠ 0)
    : ∃ root machine',
        vmCreate (some .zero) machine = .ok ((true, some ⟨root, [root]⟩), machine')
        ∧ machine.Takes machine' [root] []
        ∧ machine'.SpaceFormed ⟨root, [root]⟩ {[]}
        ∧ machine'.mapping root = (fun _ => none)
        ∧ (machine.BootTables → ∀ index,
            256 ≤ index
            → index < 512
            → machine'.entry root index
              = machine.entry machine.bootRoot index &&& ~~~pteUser) := by
  have unused : ¬(AddressSpace.zero.root ≠ 0 ∨ AddressSpace.zero.tables.length ≠ 0) := by
    simp [AddressSpace.zero]
  obtain ⟨root, cleared, created, takes, zero⟩ :=
    newTable_ok ready .zero 0 (by decide) available
  have ready' := takes.ready ready
  have outstanding : cleared.Outstanding root :=
    (takes.outstanding_iff root).mpr (Or.inl (List.mem_singleton_self _))
  have frame := ready'.frameAddress outstanding
  obtain ⟨memory, result, outside, kept, written⟩ :=
    writeEntries_spec frame (upperEntry (cleared.tableAt cleared.bootRoot)) cleared 256 256
      (by decide)
  have copied : cleared.Takes { cleared with memory := memory } [] [root] := by
    apply Machine.Takes.write ready'.toPagesWellFormed
    · intro address member
      rw [List.mem_singleton.mp member]
      exact outstanding.2
    · intro byte apart
      exact outside byte fun same => apart ⟨root, List.mem_singleton_self _, same.symm⟩
  obtain ⟨formed, empty⟩ : ({ cleared with memory := memory } : Machine).SpaceFormed ⟨root, [root]⟩ {[]}
      ∧ ({ cleared with memory := memory } : Machine).mapping root = fun _ => none := by
    apply Machine.SpaceFormed.of_empty (copied.outstanding outstanding)
    · intro index lower
      rw [kept index (by omega) (Or.inl lower)]
      exact zero index (by omega)
    · intro index upper bound
      obtain ⟨_, _, entry⟩ := written index upper (by omega)
      rw [entry, upperEntry, BitVec.and_assoc, show ~~~pteUser &&& pteUser = 0#64 from by decide]
      exact BitVec.and_zero
  refine ⟨root, { cleared with memory := memory }, ?_, (takes.trans copied).mono [] (by simp), formed,
    empty, ?_⟩
  · rw [vmCreate, if_neg unused]
    refine (bind_ok created _).trans ?_
    simp only [if_true, bind_get_apply]
    rw [copyUpperHalf, bind_ok result]
    rfl
  · intro boot index upper bound
    obtain ⟨before, same, entry⟩ := written index upper (by omega)
    obtain ⟨boot', entries⟩ := takes.bootTables boot fun _ impossible => by cases impossible
    have apart : frameOf root.toNat ≠ frameOf cleared.bootRoot.toNat :=
      fun here => boot'.unallocated (here ▸ outstanding.2)
    have read : ({ cleared with memory := before } : Machine).entryAt
          (entryPointer (cleared.tableAt cleared.bootRoot) index)
        = cleared.entry cleared.bootRoot index :=
      (entryAt_tableAt { cleared with memory := before } cleared.bootRoot index).trans
        (boot'.entry_congr bound fun byte here => same byte (here ▸ Ne.symm apart))
    rw [entry, upperEntry, ← entries index bound, read]

/-- Between the machines a space grew by the tables `taken`; its map is the same. Old entries stay
and new ones are zero, but for the links to new tables, which are none of the kernel half's.
-/
structure Machine.Extends (machine machine' : Machine) (space space' : AddressSpace)
    (paths paths' : Finset (List Nat)) (taken : List U64)
    : Prop where
  takes : machine.Takes machine' taken space.tables
  root : space'.root = space.root
  tables : space'.tables = space.tables ++ taken
  formed : machine'.SpaceFormed space' paths'
  mapping : machine'.mapping space.root = machine.mapping space.root
  kept
    : ∀ path table,
        path.length ≤ 3
        → machine.tableOn space.root path = some table
        → machine'.tableOn space.root path = some table
  old
    : ∀ table ∈ space.tables, ∀ index < 512,
        machine'.entry table index = machine.entry table index
        ∨ ∃ next ∈ taken, machine'.entry table index = linkValue next
  fresh
    : ∀ table ∈ taken, ∀ index < 512,
        machine'.entry table index = 0
        ∨ ∃ next ∈ taken, machine'.entry table index = linkValue next
  upper
    : ∀ index,
        256 ≤ index
        → index < 512 → machine'.entry space.root index = machine.entry space.root index
  limited : space.tables.length ≤ vmTableLimit → space'.tables.length ≤ vmTableLimit

namespace Machine.Extends

variable {machine machine' machine'' : Machine} {space space' space'' : AddressSpace}
  {paths paths' paths'' : Finset (List Nat)} {taken taken' : List U64}

theorem refl (ready : machine.Ready) (formed : machine.SpaceFormed space paths)
    : machine.Extends machine space space paths paths [] where
  takes := (Machine.Takes.refl ready.toPagesWellFormed).mono _ (by simp)
  root := rfl
  tables := (List.append_nil _).symm
  formed := formed
  mapping := rfl
  kept _ _ _ found := found
  old _ _ _ _ := Or.inl rfl
  fresh _ impossible := by cases impossible
  upper _ _ _ := rfl
  limited small := small

theorem trans (first : machine.Extends machine' space space' paths paths' taken)
    (second : machine'.Extends machine'' space' space'' paths' paths'' taken')
    : machine.Extends machine'' space space'' paths paths'' (taken ++ taken') where
  takes := by
    refine (first.takes.trans second.takes).mono _ ?_
    intro address member
    rw [first.tables] at member
    simp only [List.mem_append] at member ⊢
    tauto
  root := second.root.trans first.root
  tables := by rw [second.tables, first.tables, List.append_assoc]
  formed := second.formed
  mapping := by
    have later := second.mapping
    rw [first.root] at later
    exact later.trans first.mapping
  kept := by
    intro path table short found
    have later := second.kept path table short
    rw [first.root] at later
    exact later (first.kept path table short found)
  old := by
    intro table member index inside
    have grown : table ∈ space'.tables := first.tables ▸ List.mem_append_left _ member
    rcases second.old table grown index inside with same | ⟨next, new, link⟩
    · rw [same]
      refine (first.old table member index inside).imp_right ?_
      exact fun ⟨next, new, link⟩ => ⟨next, List.mem_append_left _ new, link⟩
    · exact Or.inr ⟨next, List.mem_append_right _ new, link⟩
  fresh := by
    intro table member index inside
    rcases List.mem_append.mp member with early | late
    · have grown : table ∈ space'.tables := first.tables ▸ List.mem_append_right _ early
      rcases second.old table grown index inside with same | ⟨next, new, link⟩
      · rw [same]
        refine (first.fresh table early index inside).imp_right ?_
        exact fun ⟨next, new, link⟩ => ⟨next, List.mem_append_left _ new, link⟩
      · exact Or.inr ⟨next, List.mem_append_right _ new, link⟩
    · refine (second.fresh table late index inside).imp_right ?_
      exact fun ⟨next, new, link⟩ => ⟨next, List.mem_append_right _ new, link⟩
  upper := by
    intro index high inside
    have later := second.upper index high inside
    rw [first.root] at later
    exact later.trans (first.upper index high inside)
  limited small := second.limited (first.limited small)

end Machine.Extends

/-- `cleared` is `machine` after a fresh table `next` was taken and cleared, to be linked
into the empty entry `index` of the table at path `first`.
-/
structure Machine.Links (machine cleared : Machine) (space : AddressSpace)
    (paths : Finset (List Nat)) (first : List Nat) (table : U64) (index : Nat) (next : U64)
    : Prop where
  ready : machine.Ready
  formed : machine.SpaceFormed space paths
  short : first.length < 3
  found : machine.tableOn space.root first = some table
  inside : index < lowerSlots space.root table
  absent : machine.entry table index &&& ptePresent = 0
  takes : machine.Takes cleared [next] []
  zero : ∀ other < 512, cleared.entry next other = 0

/-- The machine after the link. -/
def Machine.linked (cleared : Machine) (table : U64) (index : Nat) (next : U64) : Machine :=
  cleared.withEntry table index (linkValue next)

namespace Machine.Links

variable {machine cleared : Machine} {space : AddressSpace} {paths : Finset (List Nat)}
  {first : List Nat} {table next : U64} {index : Nat}

theorem bound (links : machine.Links cleared space paths first table index next)
    : index < 512 :=
  Nat.lt_of_lt_of_le links.inside (lowerSlots_le _ _)

theorem owned (links : machine.Links cleared space paths first table index next)
    : table ∈ space.tables :=
  links.formed.linkedOwned first table (Nat.le_of_lt links.short) links.found

theorem fresh (links : machine.Links cleared space paths first table index next)
    : next ∉ space.tables := by
  intro member
  exact (links.takes.free next (List.mem_singleton_self _)).2.not_allocated
    (links.formed.outstanding next member).2

theorem frameNext (links : machine.Links cleared space paths first table index next)
    : FrameAddress next :=
  (links.takes.ready links.ready).frameAddress
    ((links.takes.outstanding_iff next).mpr (Or.inl (List.mem_singleton_self _)))

/-- Of the entries owned before, only the linked one changes. -/
theorem ownedEntry (links : machine.Links cleared space paths first table index next)
    {other : U64} (member : other ∈ space.tables) {slot : Nat} (slotBound : slot < 512)
    : (cleared.linked table index next).entry other slot
      = if other = table ∧ slot = index then linkValue next else machine.entry other slot := by
  have frame := links.formed.frameAddress links.ready links.owned
  have frame' := links.formed.frameAddress links.ready member
  have kept := links.takes.entry links.ready (links.formed.outstanding other member)
    List.not_mem_nil (by simp) slotBound
  rw [linked, frame.entry_withEntry cleared frame' links.bound slotBound, kept]

theorem nextEntry (links : machine.Links cleared space paths first table index next)
    {slot : Nat} (slotBound : slot < 512)
    : (cleared.linked table index next).entry next slot = 0 := by
  have frame := links.formed.frameAddress links.ready links.owned
  have apart : ¬(next = table ∧ slot = index) :=
    fun same => links.fresh (same.1 ▸ links.owned)
  rw [linked, frame.entry_withEntry cleared links.frameNext links.bound slotBound, if_neg apart]
  exact links.zero slot slotBound

/-- The fresh table was free, so no path reaches it and no owned entry but one changes. -/
theorem tree (links : machine.Links cleared space paths first table index next)
    : RadixTree.Linked (machine.lowerChild space.root)
        ((cleared.linked table index next).lowerChild space.root)
        space.root 3 first table index next := by
  refine ⟨links.found, links.short, ?_, ?_, ?_, ?_, ?_⟩
  · rw [lowerChild, if_pos links.inside, entryTarget, if_pos (Or.inl links.absent)]
  · intro path within reached
    exact links.fresh (links.formed.linkedOwned path next within reached)
  · rw [lowerChild, if_pos links.inside, links.ownedEntry links.owned links.bound,
      if_pos ⟨rfl, rfl⟩]
    exact links.frameNext.entryTarget_link
  · intro slot
    unfold lowerChild
    split
    · next within =>
        rw [links.nextEntry (Nat.lt_of_lt_of_le within (lowerSlots_le _ _)), entryTarget_zero]
    · rfl
  · intro path node slot within reached apart
    have member := links.formed.linkedOwned path node (by omega) reached
    unfold lowerChild
    split
    · next slotInside =>
        rw [links.ownedEntry member (Nat.lt_of_lt_of_le slotInside (lowerSlots_le _ _)),
          if_neg apart]
    · rfl

/-- Exactly the path to the fresh table is added. -/
theorem tableOn (links : machine.Links cleared space paths first table index next)
    {path : List Nat} (within : path.length ≤ 3)
    : (cleared.linked table index next).tableOn space.root path
      = if path = first ++ [index] then some next else machine.tableOn space.root path :=
  links.tree.descend links.formed.unshared path within

theorem newLength (links : machine.Links cleared space paths first table index next)
    : (first ++ [index]).length ≤ 3 := by
  have short := links.short
  rw [List.length_append, List.length_singleton]
  omega

theorem unreached (links : machine.Links cleared space paths first table index next)
    : machine.tableOn space.root (first ++ [index]) = none := by
  have step : machine.tableOn space.root (first ++ [index])
      = (machine.tableOn space.root first).bind fun node =>
          machine.lowerChild space.root node index :=
    RadixTree.descend_concat ..
  rw [step, links.found]
  exact links.tree.slotEmpty

theorem linkedTakes (links : machine.Links cleared space paths first table index next)
    : machine.Takes (cleared.linked table index next) [next] space.tables := by
  have outstanding := links.takes.outstanding (links.formed.outstanding table links.owned)
  have write := Machine.Takes.withEntry (links.takes.ready links.ready) outstanding links.bound
    (linkValue next)
  refine (links.takes.trans write).mono _ ?_
  intro address member
  rw [List.nil_append, List.mem_singleton] at member
  rw [member]
  exact List.mem_append_right _ links.owned

/-- The new entry permits everything, like the entries before it. -/
theorem permissive (links : machine.Links cleared space paths first table index next)
    {path : List Nat} {other : U64} {slot : Nat} (within : path.length < 3)
    (reached : (cleared.linked table index next).tableOn space.root path = some other)
    (slotInside : slot < lowerSlots space.root other)
    (present : (cleared.linked table index next).entry other slot &&& ptePresent ≠ 0)
    : (cleared.linked table index next).entry other slot &&& pteLarge = 0
      ∧ entryFlags ((cleared.linked table index next).entry other slot)
        = vmWrite ||| vmUser ||| vmExec := by
  have slotBound := Nat.lt_of_lt_of_le slotInside (lowerSlots_le _ _)
  rw [links.tableOn (by omega)] at reached
  split at reached
  · cases reached
    rw [links.nextEntry slotBound] at present
    exact absurd rfl present
  · have member := links.formed.linkedOwned path other (by omega) reached
    rw [links.ownedEntry member slotBound] at present ⊢
    split at present
    · next same =>
        rw [if_pos same]
        refine ⟨?_, links.frameNext.entryFlags_link⟩
        rw [linkValue_eq, links.frameNext.entry_bits (by decide)]
        decide
    · next apart =>
        rw [if_neg apart]
        exact links.formed.permissive path other slot within reached slotInside present

/-- A link is never put into the kernel half. -/
theorem upperEntry (links : machine.Links cleared space paths first table index next) {slot : Nat}
    (upper : 256 ≤ slot) (slotBound : slot < 512)
    : (cleared.linked table index next).entry space.root slot = machine.entry space.root slot := by
  have apart : ¬(space.root = table ∧ slot = index) := by
    intro same
    obtain ⟨top, here⟩ := same
    have inside := links.inside
    rw [lowerSlots, if_pos top.symm] at inside
    omega
  rw [links.ownedEntry links.formed.rootOwned slotBound, if_neg apart]

theorem linkedFormed (links : machine.Links cleared space paths first table index next)
    : (cleared.linked table index next).SpaceFormed
        { space with tables := space.tables ++ [next] } (insert (first ++ [index]) paths) := by
  have formed := links.formed
  have taken := links.linkedTakes
  have newPath : first ++ [index] ∉ paths := by
    intro member
    have some := (formed.spanned _ links.newLength).mpr member
    rw [links.unreached] at some
    cases some
  constructor
  · exact List.mem_append_left _ formed.rootOwned
  · refine List.nodup_append.mpr ⟨formed.distinct, List.nodup_singleton _, ?_⟩
    intro other member other' member' same
    rw [List.mem_singleton.mp member'] at same
    exact links.fresh (same ▸ member)
  · intro other member
    rcases List.mem_append.mp member with member | member
    · exact taken.outstanding (formed.outstanding other member)
    · exact (taken.outstanding_iff other).mpr (Or.inl member)
  · intro path other within reached
    rw [links.tableOn within] at reached
    split at reached
    · cases reached
      exact List.mem_append_right _ (List.mem_singleton_self _)
    · exact List.mem_append_left _ (formed.linkedOwned path other within reached)
  · exact links.tree.unshared formed.unshared
  · intro path within
    rw [links.tableOn within, Finset.mem_insert, ← formed.spanned path within]
    split
    · next same => simp [same]
    · next other => simp [other]
  · intro path member
    rcases Finset.mem_insert.mp member with same | member
    · exact same ▸ links.newLength
    · exact formed.shallow path member
  · rw [Finset.card_insert_of_notMem newPath, ← formed.counted, List.length_append,
      List.length_singleton]
  · intro path other slot within reached slotInside present
    exact links.permissive within reached slotInside present
  · intro slot upper slotBound
    rw [links.upperEntry upper slotBound]
    exact formed.supervisor slot upper slotBound

/-- The fresh table is empty, so the map stays the same. -/
theorem mapping (links : machine.Links cleared space paths first table index next)
    : (cleared.linked table index next).mapping space.root = machine.mapping space.root := by
  funext page
  unfold Machine.mapping
  have within : (pagePath page).length ≤ 3 := Nat.le_of_eq (pagePath_length page)
  have slot : page % 512 < 512 := Nat.mod_lt _ (by decide)
  rw [links.tableOn within]
  by_cases new : pagePath page = first ++ [index]
  · rw [if_pos new, new, links.unreached]
    simp only [Option.bind_some, Option.bind_none, links.nextEntry slot, entryLeaf_zero]
  · rw [if_neg new]
    cases reached : machine.tableOn space.root (pagePath page) with
    | none => simp only [Option.bind_none]
    | some leaf =>
        have member := links.formed.linkedOwned _ leaf within reached
        have apart : ¬(leaf = table ∧ page % 512 = index) := by
          intro same
          have paths := links.formed.unshared _ first table within (Nat.le_of_lt links.short)
            (same.1 ▸ reached) links.found
          have lengths := congrArg List.length paths
          have short := links.short
          rw [pagePath_length] at lengths
          omega
        simp only [Option.bind_some, links.ownedEntry member slot, if_neg apart]

theorem grown (links : machine.Links cleared space paths first table index next)
    (room : space.tables.length ≠ vmTableLimit)
    : machine.Extends (cleared.linked table index next) space
        { space with tables := space.tables ++ [next] } paths
        (insert (first ++ [index]) paths) [next] := by
  refine ⟨links.linkedTakes, rfl, rfl, links.linkedFormed, links.mapping, ?_, ?_, ?_,
    fun slot upper slotBound => links.upperEntry upper slotBound, fun small => ?_⟩
  · intro path other within reached
    rw [links.tableOn within, if_neg]
    · exact reached
    · intro same
      rw [same, links.unreached] at reached
      cases reached
  · intro other member slot slotBound
    rw [links.ownedEntry member slotBound]
    split
    · exact Or.inr ⟨next, List.mem_singleton_self _, rfl⟩
    · exact Or.inl rfl
  · intro other member slot slotBound
    rw [List.mem_singleton.mp member]
    exact Or.inl (links.nextEntry slotBound)
  · rw [List.length_append, List.length_singleton]
    omega

end Machine.Links

end MiniLinux
