import MiniLinux.Laboratory.KernelState

/-! User memory, as the kernel and the running task reach it.
Both go through the active tables, which are those of the current task. What the kernel copies
out after a range check is what the task could have stored itself, and no store of a task
reaches a table or a page of another task.
-/

namespace MiniLinux

open Foundation Foundation.Halting

/-- Dropping the CPL3 condition keeps an access. -/
theorem Machine.cpuAccess_kernel {machine : Machine} {root address : U64} {writing : Bool}
    {place : Nat} (found : machine.cpuAccess root true writing address = some place)
    : machine.cpuAccess root false writing address = some place := by
  unfold cpuAccess at found ⊢
  dsimp only at found ⊢
  split at found
  · next allowed =>
      obtain ⟨canonical, length, permits⟩ := allowed
      rw [if_pos, found]
      refine ⟨canonical, length, fun entry member => ?_⟩
      obtain ⟨present, _, writes⟩ := permits entry member
      refine ⟨present, fun impossible => ?_, writes⟩
      cases impossible
  · cases found

/-- Stores of a user program upwards from an address. -/
def Machine.userStores (machine : Machine) (address : U64) : List Byte → Machine
  | [] => machine
  | byte :: rest => (machine.userStore address byte).userStores (address + 1) rest

/-- The `i`-th byte of a range in the active tables, as the running program may access it. -/
def Machine.userPlace (machine : Machine) (writing : Bool) (address : U64) (i : Nat) : Option Nat :=
  machine.cpuAccess machine.currentRoot true writing (address + BitVec.ofNat 64 i)

/-- Only bytes that the running program may write have changed, and all of them in a range. -/
structure Machine.UserWritten (machine : Machine) (address : U64) (length : Nat)
    (machine' : Machine)
    : Prop where
  confined : machine' = { machine with memory := machine'.memory }
  outside
    : ∀ byte,
        (∀ i < length, machine.userPlace true address i ≠ some byte)
        → machine'.memory byte = machine.memory byte

theorem Machine.UserWritten.refl (machine : Machine) (address : U64) (length : Nat)
    : machine.UserWritten address length machine :=
  ⟨rfl, fun _ _ => rfl⟩

/-- The state after the running program has stored some bytes. -/
def Lab.stored (lab : Lab) (address : U64) (bytes : List Byte) : Lab :=
  { lab with machine := lab.machine.userStores address bytes }

theorem address_succ (address : U64) (i : Nat)
    : address + 1 + BitVec.ofNat 64 i = address + BitVec.ofNat 64 (i + 1) := by
  have one : (1 : U64) = BitVec.ofNat 64 1 := rfl
  rw [BitVec.add_assoc, one, ← BitVec.ofNat_add, Nat.add_comm]

section Current

variable {image : List Byte} {lab : Lab}

/-- The current task's address space, with the active root. -/
theorem Consistent.current (consistent : Consistent image lab.live lab) (selected : lab.Selected)
    : TaskFormed image lab.machine lab.taskCurrent
      ∧ lab.machine.currentRoot = lab.taskCurrent.privateSpace.root :=
  ⟨consistent.partition.formed lab.current (Or.inl selected.ready), selected.root⟩

/-- The running program reaches bytes of its own pages only, by their permissions. -/
theorem Consistent.userAccess (consistent : Consistent image lab.live lab)
    (selected : lab.Selected) (writing : Bool) (address : U64) (place : Nat)
    : lab.machine.cpuAccess lab.machine.currentRoot true writing address = some place
      ↔ ∃ frame permissions,
          layoutMap image lab.taskCurrent.pages (address.toNat / pageSize)
            = some (frame, permissions)
          ∧ permissions &&& vmUser ≠ 0
          ∧ (writing = true → permissions &&& vmWrite ≠ 0)
          ∧ place = pageByte frame address := by
  obtain ⟨formed, root⟩ := consistent.current selected
  rw [root, formed.tree.cpuAccess_user consistent.partition.ready, formed.mapping]

theorem layoutMap_mem (sized : Sized image) {pages : List U64} {page : Nat} {frame : U64}
    {permissions : U32} (mapped : layoutMap image pages page = some (frame, permissions))
    : frame ∈ pages := by
  obtain ⟨k, _, _, held, _⟩ := (layoutMap_eq_some sized).mp mapped
  exact List.mem_of_getElem? held

/-- One store of the running program. -/
theorem Consistent.userStore (consistent : Consistent image lab.live lab)
    (selected : lab.Selected) (address : U64) (byte : Byte)
    : Consistent image lab.live { lab with machine := lab.machine.userStore address byte }
      ∧ lab.machine.UserWritten address 1 (lab.machine.userStore address byte) := by
  unfold Machine.userStore
  cases access : lab.machine.cpuAccess lab.machine.currentRoot true true address with
  | none => exact ⟨consistent, .refl _ _ _⟩
  | some place =>
      obtain ⟨frame, permissions, mapped, _, _, same⟩ :=
        (consistent.userAccess selected true address place).mp access
      have partition : Partition image lab.live
          { lab with machine := { lab.machine with
            memory := lab.machine.memory.store place byte } } := by
        have owned : ∀ page ∈ [frame], ∃ index, page ∈ (lab.tasks index).pages := by
          intro page member
          rw [List.mem_singleton.mp member]
          exact ⟨lab.current, layoutMap_mem consistent.sized mapped⟩
        refine consistent.partition.write rfl rfl owned ?_
        intro other outside
        apply Memory.store_of_ne
        intro here
        refine outside ⟨frame, List.mem_singleton_self _, ?_⟩
        rw [here, same, pageByte_frame]
      refine ⟨⟨consistent.sized, partition, consistent.descriptors, consistent.alive⟩, rfl, ?_⟩
      intro other outside
      apply Memory.store_of_ne
      intro here
      apply outside 0 Nat.one_pos
      rw [Machine.userPlace, BitVec.add_zero, access, here]

theorem Lab.Selected.userStore (selected : lab.Selected) {address : U64} {length : Nat}
    {machine : Machine} (written : lab.machine.UserWritten address length machine)
    : ({ lab with machine := machine } : Lab).Selected := by
  refine ⟨selected.ready, ?_, selected.rsp0⟩
  rw [written.confined]
  exact selected.root

/-- A store changes no access of the running program. -/
theorem Consistent.userStore_access (consistent : Consistent image lab.live lab)
    (selected : lab.Selected) (address : U64) (byte : Byte) (writing : Bool) (other : U64)
    : (lab.machine.userStore address byte).cpuAccess
        (lab.machine.userStore address byte).currentRoot true writing other
      = lab.machine.cpuAccess lab.machine.currentRoot true writing other := by
  obtain ⟨consistent', written⟩ := consistent.userStore selected address byte
  apply Option.ext
  intro place
  exact (consistent'.userAccess (selected.userStore written) writing other place).trans
    (consistent.userAccess selected writing other place).symm

/-- Stores of the running program, by induction on the bytes. -/
theorem Consistent.userStores (consistent : Consistent image lab.live lab)
    (selected : lab.Selected) (address : U64) (bytes : List Byte)
    : Consistent image lab.live (lab.stored address bytes)
      ∧ lab.machine.UserWritten address bytes.length (lab.machine.userStores address bytes) := by
  induction bytes generalizing lab address with
  | nil => exact ⟨consistent, .refl _ _ _⟩
  | cons byte rest ih =>
      obtain ⟨consistent', written⟩ := consistent.userStore selected address byte
      obtain ⟨consistent'', written'⟩ := ih consistent' (selected.userStore written) (address + 1)
      refine ⟨consistent'', ?_, ?_⟩
      · exact written'.confined.trans (congrArg
          (fun machine : Machine =>
            { machine with
              memory := ((lab.machine.userStore address byte).userStores (address + 1) rest).memory })
          written.confined)
      · intro place outside
        have later := written'.outside place (by
          intro i inside
          rw [Machine.userPlace, consistent.userStore_access selected, address_succ]
          exact outside (i + 1) (Nat.succ_lt_succ inside))
        refine later.trans (written.outside place ?_)
        intro i inside
        obtain rfl : i = 0 := Nat.lt_one_iff.mp inside
        exact outside 0 (Nat.succ_pos _)

/-- A range that the running program may access. -/
def Machine.UserRange (machine : Machine) (writing : Bool) (address : U64) (length : Nat) : Prop :=
  ∀ i < length, ∃ place, machine.userPlace writing address i = some place

/-- What `user_range` accepts the running program may access. -/
theorem Consistent.userRange (consistent : Consistent image lab.live lab)
    (selected : lab.Selected) {address length : U64} {writing : Bool}
    (accepted : lab.userRange address length writing = true)
    : lab.machine.UserRange writing address length.toNat := by
  obtain ⟨formed, root⟩ := consistent.current selected
  unfold Lab.userRange at accepted
  rw [formed.space] at accepted
  obtain ⟨_, _, access⟩ := (userRange_agrees_with_cpu _ _ _ _ _).1 accepted
  intro i inside
  obtain ⟨_, found, _⟩ := access i inside
  rw [Machine.userPlace, root]
  exact Option.ne_none_iff_exists'.mp found

/-- The kernel reads an accessible range. -/
theorem loadUserBytes_ok {address : U64} {length : Nat}
    (range : lab.machine.UserRange false address length)
    : ∃ bytes, loadUserBytes address length lab = .ok (bytes, lab) ∧ bytes.length = length := by
  induction length generalizing address with
  | zero => exact ⟨[], rfl, rfl⟩
  | succ length ih =>
      obtain ⟨place, found⟩ := range 0 (Nat.succ_pos _)
      rw [Machine.userPlace, BitVec.add_zero] at found
      have loaded : loadUser address lab = .ok (lab.machine.memory place, lab) := by
        rw [loadUser, bind_get_apply, Machine.cpuAccess_kernel found]
        rfl
      obtain ⟨bytes, rest, count⟩ := @ih (address + 1) (by
        intro i inside
        rw [Machine.userPlace, address_succ]
        exact range (i + 1) (Nat.succ_lt_succ inside))
      refine ⟨lab.machine.memory place :: bytes, ?_, congrArg Nat.succ count⟩
      rw [loadUserBytes, bind_ok loaded, bind_ok rest]
      rfl

/-- The kernel writes a byte that the program may write, as the program would. -/
theorem storeUser_ok {address : U64} (range : lab.machine.UserRange true address 1) (byte : Byte)
    : storeUser address byte lab = .ok ((), lab.stored address [byte]) := by
  obtain ⟨place, found⟩ := range 0 Nat.one_pos
  rw [Machine.userPlace, BitVec.add_zero] at found
  rw [storeUser, bind_get_apply, Machine.cpuAccess_kernel found, Lab.stored, Machine.userStores,
    Machine.userStores, Machine.userStore, found]
  rfl

/-- The kernel writes a range that the program may write, as the program would. -/
theorem Consistent.storeUserBytes_ok (consistent : Consistent image lab.live lab)
    (selected : lab.Selected) {address : U64} {bytes : List Byte}
    (range : lab.machine.UserRange true address bytes.length)
    : storeUserBytes address bytes lab = .ok ((), lab.stored address bytes) := by
  induction bytes generalizing lab address with
  | nil => rfl
  | cons byte rest ih =>
      have first : lab.machine.UserRange true address 1 :=
        fun i inside => range i (inside.trans_le (Nat.succ_pos _))
      obtain ⟨consistent', written⟩ := consistent.userStore selected address byte
      rw [storeUserBytes, bind_ok (storeUser_ok first byte)]
      refine ih consistent' (selected.userStore written) ?_
      intro i inside
      rw [Machine.userPlace, consistent.userStore_access selected, address_succ]
      exact range (i + 1) (Nat.succ_lt_succ inside)

end Current

-----------------------------------------------------------------------------------------
-- Accessed and dirty bits
-----------------------------------------------------------------------------------------

/-- The walk of a lower address reads only entries of the tables of the space.
Witness: induction on the levels that are left.
-/
theorem Machine.SpaceFormed.walkSlots_mem {machine : Machine} {space : AddressSpace}
    {paths : Finset (List Nat)} (formed : machine.SpaceFormed space paths) {address : U64}
    (low : address.toNat < 2 ^ 47) (slot : U64 × Nat)
    : ∀ (shifts : List Nat) (first : List Nat) (table : U64),
        shifts = [] ∨ first ++ shifts.dropLast.map (tableIndex address)
          = pagePath (address.toNat / pageSize)
        → machine.tableOn space.root first = some table
        → slot ∈ machine.walkSlots address shifts table
        → slot.1 ∈ space.tables ∧ slot.2 < 512 := by
  have page : address.toNat / pageSize < lowerPages := by
    simp only [pageSize, lowerPages]
    omega
  intro shifts
  induction shifts with
  | nil =>
      intro first table _ _ member
      exact absurd member List.not_mem_nil
  | cons shift rest ih =>
      intro first table path found member
      have on := path.resolve_left (List.cons_ne_nil _ _)
      have length := congrArg List.length on
      rw [pagePath_length, List.length_append] at length
      have here : table ∈ space.tables ∧ tableIndex address shift < 512 :=
        ⟨formed.linkedOwned first table (by omega) found, tableIndex_lt address shift⟩
      unfold Machine.walkSlots at member
      dsimp only at member
      split at member
      · exact absurd member List.not_mem_nil
      · next present =>
          split at member
          · rw [List.mem_singleton.mp member]
            exact here
          · next small =>
              rcases List.mem_cons.mp member with same | later
              · rw [same]
                exact here
              · cases rest with
                | nil => exact absurd later List.not_mem_nil
                | cons next rest =>
                    rw [List.dropLast_cons_of_ne_nil (List.cons_ne_nil _ _), List.map_cons] at on
                    have inside := formed.index_inside page on.symm found
                    have target : entryTarget (machine.entry table (tableIndex address shift))
                        = some (machine.entry table (tableIndex address shift) &&& pteAddress) :=
                      if_neg (not_or.mpr ⟨present, small⟩)
                    refine ih (first ++ [tableIndex address shift]) _ (Or.inr ?_) ?_ later
                    · rw [List.append_assoc]
                      exact on
                    · unfold Machine.tableOn at found ⊢
                      rw [RadixTree.descend_concat, found, Option.bind_some, Machine.lowerChild,
                        if_pos inside, target]

theorem SameEntry.mark (entry bits : U64) : SameEntry (entry ||| (bits &&& pteAccessedDirty)) entry := by
  unfold SameEntry
  apply BitVec.eq_of_getLsbD_eq
  intro i _
  simp only [BitVec.getLsbD_or, BitVec.getLsbD_and]
  cases entry.getLsbD i <;> cases bits.getLsbD i <;> cases pteAccessedDirty.getLsbD i <;> rfl

/-- Marking an entry changes no map and no page. -/
theorem Consistent.markEntry {image : List Byte} {lab : Lab}
    (consistent : Consistent image lab.live lab) (selected : lab.Selected) (address : U64)
    (level : Nat) (bits : U64)
    : Consistent image lab.live { lab with machine := lab.machine.markEntry address level bits }
      ∧ ({ lab with machine := lab.machine.markEntry address level bits } : Lab).Selected
      ∧ ∀ index,
          ∀ page ∈ (lab.tasks index).pages, ∀ byte,
            frameOf byte = frameOf page.toNat
            → (lab.machine.markEntry address level bits).memory byte = lab.machine.memory byte := by
  have nothing : Consistent image lab.live { lab with machine := lab.machine }
      ∧ ({ lab with machine := lab.machine } : Lab).Selected
      ∧ ∀ index,
          ∀ page ∈ (lab.tasks index).pages, ∀ byte,
            frameOf byte = frameOf page.toNat → lab.machine.memory byte = lab.machine.memory byte :=
    ⟨consistent, selected, fun _ _ _ _ _ => rfl⟩
  obtain ⟨formed, root⟩ := consistent.current selected
  unfold Machine.markEntry
  split
  · next low =>
      cases found : (lab.machine.walkSlots address walkShifts lab.machine.currentRoot)[level]? with
      | none => exact nothing
      | some slot =>
          have member := List.mem_of_getElem? found
          rw [root] at member
          obtain ⟨owned, inside⟩ := formed.tree.walkSlots_mem low slot walkShifts [] _
            (Or.inr (pagePath_eq address)) rfl member
          have ready := consistent.partition.ready
          have outstanding := consistent.partition.table_outstanding owned
          have frame := ready.frameAddress outstanding
          have takes := Machine.Takes.withEntry ready outstanding inside
            (lab.machine.entry slot.1 slot.2 ||| (bits &&& pteAccessedDirty))
          refine ⟨⟨consistent.sized, ?_, consistent.descriptors, consistent.alive⟩,
            ⟨selected.ready, selected.root, selected.rsp0⟩, ?_⟩
          · refine consistent.partition.congr (fun _ => .refl _) (takes.ready ready) ?_ ?_
            · intro address
              rw [takes.outstanding_iff]
              simp
            · intro index table member slot' inside'
              have frame' := ready.frameAddress (consistent.partition.table_outstanding member)
              change SameEntry ((lab.machine.withEntry _ _ _).entry table slot') _
              rw [frame.entry_withEntry lab.machine frame' inside inside']
              split
              · next same =>
                  rw [same.1, same.2]
                  exact .mark _ _
              · exact .refl _
          · intro index page member byte same
            apply frame.withEntry_memory lab.machine inside
            intro table
            have pageFrame := ready.frameAddress (consistent.partition.page_outstanding member)
            have equal : page = slot.1 := by
              have left := pageFrame.1
              have right := frame.1
              apply BitVec.eq_of_toNat_eq
              rw [same] at table
              simp only [frameOf, pageSize] at table left right
              omega
            exact consistent.partition.page_not_table (equal ▸ member) owned
  · exact nothing

end MiniLinux
