import MiniLinux.Memory.Exhaustion
import MiniLinux.Memory.Translations

/-! The kernel's own accesses to the lower half, through the active space.
The processor may cache and drop translations at any time and use any that it has; a strategy
stands for its choices. As long as no cached translation is stale, an access reaches the byte that
the map of the space gives, whatever the strategy.
-/

namespace MiniLinux

open Foundation Foundation.Halting

-----------------------------------------------------------------------------------------
-- The paging registers
-----------------------------------------------------------------------------------------

/-- Another active root and other cached translations. -/
def Machine.withPaging (machine : Machine) (cr3 : U64) (tlb : List Translation) : Machine :=
  { machine with cr3 := cr3, tlb := tlb }

section Registers

variable {machine machine' : Machine} {taken written : List U64}

theorem Machine.Ready.withPaging (ready : machine.Ready) (cr3 : U64) (tlb : List Translation)
    : (machine.withPaging cr3 tlb).Ready :=
  { ready with }

theorem Machine.SpaceFormed.withPaging {space : AddressSpace} {paths : Finset (List Nat)}
    (formed : machine.SpaceFormed space paths) (cr3 : U64) (tlb : List Translation)
    : (machine.withPaging cr3 tlb).SpaceFormed space paths :=
  { formed with }

theorem Machine.Takes.withPaging (takes : machine.Takes machine' taken written) (cr3 : U64)
    (tlb : List Translation)
    : (machine.withPaging cr3 tlb).Takes (machine'.withPaging cr3 tlb) taken written where
  wellFormed := { takes.wellFormed with }
  record := by
    rw [SameRecord, takes.record]
    rfl
  distinct := takes.distinct
  free := takes.free
  allocated := takes.allocated
  states := takes.states
  counted := takes.counted
  memory := takes.memory

theorem Machine.Returns.withPaging (returns : machine.Returns machine' taken) (cr3 : U64)
    (tlb : List Translation)
    : (machine.withPaging cr3 tlb).Returns (machine'.withPaging cr3 tlb) taken where
  wellFormed := { returns.wellFormed with }
  record := by
    rw [SameRecord, returns.record]
    rfl
  free := returns.free
  states := returns.states
  counted := returns.counted
  memory := returns.memory

end Registers

-----------------------------------------------------------------------------------------
-- Accesses
-----------------------------------------------------------------------------------------

/-- What the processor does with translations before an access: the addresses whose translations
it caches, the cached ones that it keeps, and which of those for the page it uses, if that exists.
-/
structure Processor where
  fetches : Machine → U64 → List U64
  keeps : Machine → U64 → Translation → Bool
  picks : Machine → U64 → Nat

/-- The cached translations when an access begins. -/
def Processor.kept (processor : Processor) (machine : Machine) (address : U64)
    : List Translation :=
  ((processor.fetches machine address).foldl Machine.cached machine).tlb.filter
    (processor.keeps machine address)

/-- The translation of a lower address: a cached one, or what the active tables yield now. -/
def Processor.translate (processor : Processor) (address : U64) : MachineM Translation := do
  let machine ← get
  let kept := processor.kept machine address
  match (kept.filter (·.page = address.toNat / pageSize))[processor.picks machine address]? with
  | some translation => do
      modify fun machine => machine.withTlb kept
      pure translation
  | none =>
      match machine.translation address with
      | some translation => do
          modify fun machine => machine.withTlb (translation :: kept)
          pure translation
      | none => halt (.kernelFault address)

/-- The physical byte behind a lower address that the kernel reads or writes. -/
def Processor.reach (processor : Processor) (writing : Bool) (address : U64) : MachineM Nat := do
  let translation ← processor.translate address
  if writing = true ∧ translation.flags &&& vmWrite = 0 then halt (.kernelFault address)
  else pure (translation.frame.toNat + address.toNat % pageSize)

/-- `pointer[0] = byte` for a pointer into the active space -/
def Processor.store (processor : Processor) (pointer : U64) (byte : Byte) : MachineM Unit := do
  let place ← processor.reach true pointer
  modify fun machine => { machine with memory := machine.memory.store place byte }

/-- `pointer[0]` for a pointer into the active space -/
def Processor.load (processor : Processor) (pointer : U64) : MachineM Byte := do
  let place ← processor.reach false pointer
  let machine ← get
  pure (machine.memory place)

/-- `vm_map` of a free page whose tables are all there adds none. -/
theorem Machine.SpaceFormed.vmMap_within {machine : Machine} {space : AddressSpace}
    {paths : Finset (List Nat)} (formed : machine.SpaceFormed space paths) (ready : machine.Ready)
    {address physical : U64} {flags : U32}
    (admits : machine.MapAdmits space address physical flags)
    (there : pagePath (address.toNat / pageSize) ∈ paths)
    : ∃ machine',
        vmMap (some space) address physical flags machine = .ok ((true, some space), machine')
        ∧ machine.Takes machine' [] space.tables
        ∧ machine'.SpaceFormed space paths
        ∧ machine'.mapping space.root
          = Function.update (machine.mapping space.root) (address.toNat / pageSize)
              (some (physical, flags)) := by
  obtain ⟨ok, space', machine', morePaths, taken, called, takes, root, tables, formed', grew,
    prefixed, added, refused⟩ := formed.vmMap_spec ready admits
  have missing := missingLevels_grow formed formed' root tables grew prefixed
  rw [(missingLevels_zero formed).mp there] at missing
  have none : taken = [] := List.eq_nil_of_length_eq_zero (by omega)
  subst none
  rw [List.append_nil] at tables
  have same : space' = space := by
    cases space
    cases space'
    cases root
    cases tables
    rfl
  subst same
  have paths_eq : paths = morePaths :=
    Finset.eq_of_subset_of_card_le grew (by rw [← formed'.counted, ← formed.counted])
  subst paths_eq
  cases ok with
  | true => exact ⟨machine', called, takes, formed', (added rfl).2⟩
  | false => exact absurd there (refused rfl).1

-----------------------------------------------------------------------------------------
-- The active space
-----------------------------------------------------------------------------------------

/-- The kernel runs in a formed space, and no cached translation is stale. -/
structure Machine.RunsIn (machine : Machine) (space : AddressSpace) (paths : Finset (List Nat))
    : Prop where
  ready : machine.Ready
  formed : machine.SpaceFormed space paths
  root : space.root = machine.currentRoot
  cached
    : ∀ translation ∈ machine.tlb,
        machine.mapping space.root translation.page = some (translation.frame, translation.flags)

theorem translation_page {machine : Machine} {address : U64} {translation : Translation}
    (yields : machine.translation address = some translation)
    : translation.page = address.toNat / pageSize := by
  unfold Machine.translation at yields
  dsimp only at yields
  split at yields
  · cases yields
    rfl
  · cases yields

namespace Machine.RunsIn

variable {machine : Machine} {space : AddressSpace} {paths : Finset (List Nat)}

/-- Loading the root of a space drops all translations. -/
theorem switch (ready : machine.Ready) (formed : machine.SpaceFormed space paths)
    : (machine.withPaging space.root []).RunsIn space paths where
  ready := ready.withPaging space.root []
  formed := formed.withPaging space.root []
  root := (formed.frameAddress ready formed.rootOwned).and_pteAddress.symm
  cached := by
    intro translation member
    cases member

/-- Other translations of the same map. -/
theorem withTlb (runs : machine.RunsIn space paths) {tlb : List Translation}
    (right
      : ∀ translation ∈ tlb,
          machine.mapping space.root translation.page
          = some (translation.frame, translation.flags))
    : (machine.withTlb tlb).RunsIn space paths where
  ready := { runs.ready with }
  formed := { runs.formed with }
  root := runs.root
  cached := right

theorem yields_mapped (runs : machine.RunsIn space paths) {address : U64}
    {translation : Translation} (yields : machine.translation address = some translation)
    : machine.mapping space.root translation.page = some (translation.frame, translation.flags) :=
  (runs.formed.translation_spec runs.ready runs.root yields).1

/-- What the processor has fetched is right. Witness: induction on the addresses. -/
theorem fetched (runs : machine.RunsIn space paths) (addresses : List U64)
    : ∀ translation ∈ (addresses.foldl Machine.cached machine).tlb,
        machine.mapping space.root translation.page
        = some (translation.frame, translation.flags) := by
  induction addresses generalizing machine with
  | nil => exact runs.cached
  | cons address rest ih =>
      have right : ∀ translation ∈ (machine.cached address).tlb,
          machine.mapping space.root translation.page
          = some (translation.frame, translation.flags) := by
        intro translation member
        rcases List.mem_append.mp member with new | old
        · exact runs.yields_mapped (Option.mem_toList.mp new)
        · exact runs.cached translation old
      exact ih (runs.withTlb right)

/-- An access to a mapped page finds the map, whatever the processor does. -/
theorem translate_spec (runs : machine.RunsIn space paths) (processor : Processor) {address : U64}
    {entry : U64 × U32} (mapped : machine.mapping space.root (address.toNat / pageSize) = some entry)
    : ∃ translation tlb,
        processor.translate address machine = .ok (translation, machine.withTlb tlb)
        ∧ (translation.frame, translation.flags) = entry
        ∧ (machine.withTlb tlb).RunsIn space paths := by
  have right : ∀ translation ∈ processor.kept machine address,
      machine.mapping space.root translation.page
      = some (translation.frame, translation.flags) :=
    fun translation member => runs.fetched _ translation (List.mem_filter.mp member).1
  have entries {translation : Translation}
      (found
        : machine.mapping space.root translation.page
          = some (translation.frame, translation.flags))
      (page : translation.page = address.toNat / pageSize)
      : (translation.frame, translation.flags) = entry := by
    rw [page, mapped] at found
    exact (Option.some.inj found).symm
  cases picked : ((processor.kept machine address).filter
      (·.page = address.toNat / pageSize))[processor.picks machine address]? with
  | some translation =>
      have member := List.mem_filter.mp (List.mem_of_getElem? picked)
      refine ⟨translation, processor.kept machine address, ?_,
        entries (right translation member.1) (of_decide_eq_true member.2), runs.withTlb right⟩
      change (match ((processor.kept machine address).filter
        (·.page = address.toNat / pageSize))[processor.picks machine address]? with
        | some translation => _
        | none => _ : MachineM Translation) machine = _
      rw [picked]
      rfl
  | none =>
      have isSome := runs.formed.translation_isSome runs.ready runs.root mapped
      obtain ⟨translation, yields⟩ := Option.isSome_iff_exists.mp isSome
      have found := runs.yields_mapped yields
      refine ⟨translation, translation :: processor.kept machine address, ?_,
        entries found (translation_page yields), runs.withTlb ?_⟩
      · change (match ((processor.kept machine address).filter
          (·.page = address.toNat / pageSize))[processor.picks machine address]? with
          | some translation => _
          | none => _ : MachineM Translation) machine = _
        rw [picked]
        dsimp only
        rw [yields]
        rfl
      · intro other member
        rcases List.mem_cons.mp member with same | old
        · exact same ▸ found
        · exact right other old

/-- The kernel reaches a byte of a mapped page, and writes only where the map permits. -/
theorem reach_spec (runs : machine.RunsIn space paths) (processor : Processor) {address frame : U64}
    {flags : U32}
    (mapped : machine.mapping space.root (address.toNat / pageSize) = some (frame, flags))
    {writing : Bool} (permits : writing = true → flags &&& vmWrite ≠ 0)
    : ∃ tlb,
        processor.reach writing address machine
          = .ok (frame.toNat + address.toNat % pageSize, machine.withTlb tlb)
        ∧ (machine.withTlb tlb).RunsIn space paths := by
  obtain ⟨translation, tlb, found, same, runs'⟩ := runs.translate_spec processor mapped
  cases same
  refine ⟨tlb, (bind_ok found _).trans ?_, runs'⟩
  rw [if_neg fun refused => permits refused.1 refused.2]
  rfl

theorem load_spec (runs : machine.RunsIn space paths) (processor : Processor) {address frame : U64}
    {flags : U32}
    (mapped : machine.mapping space.root (address.toNat / pageSize) = some (frame, flags))
    : ∃ tlb,
        processor.load address machine
          = .ok (machine.memory (frame.toNat + address.toNat % pageSize), machine.withTlb tlb)
        ∧ (machine.withTlb tlb).RunsIn space paths := by
  have reading : false = true → flags &&& vmWrite ≠ 0 := fun impossible => nomatch impossible
  obtain ⟨tlb, reached, runs'⟩ := runs.reach_spec processor mapped reading
  exact ⟨tlb, bind_ok reached _, runs'⟩

theorem store_spec (runs : machine.RunsIn space paths) (processor : Processor) {address frame : U64}
    {flags : U32}
    (mapped : machine.mapping space.root (address.toNat / pageSize) = some (frame, flags))
    (permits : flags &&& vmWrite ≠ 0) (byte : Byte)
    : ∃ tlb,
        processor.store address byte machine
          = .ok ((),
              { machine.withTlb tlb with
                memory := machine.memory.store (frame.toNat + address.toNat % pageSize) byte })
        ∧ (machine.withTlb tlb).RunsIn space paths := by
  obtain ⟨tlb, reached, runs'⟩ := runs.reach_spec processor mapped fun _ => permits
  exact ⟨tlb, bind_ok reached _, runs'⟩

/-- Other bytes in a frame that is no table of the space. -/
theorem write (runs : machine.RunsIn space paths) {memory : Memory} {page : U64}
    (outstanding : machine.Outstanding page) (apart : page ∉ space.tables)
    (same : ∀ byte, frameOf byte ≠ frameOf page.toNat → memory byte = machine.memory byte)
    : machine.Takes { machine with memory := memory } [] [page]
      ∧ ({ machine with memory := memory } : Machine).RunsIn space paths
      ∧ ({ machine with memory := memory } : Machine).mapping space.root
        = machine.mapping space.root := by
  have takes : machine.Takes { machine with memory := memory } [] [page] := by
    apply Machine.Takes.write runs.ready.toPagesWellFormed
    · intro address member
      exact List.mem_singleton.mp member ▸ outstanding.2
    · intro byte outside
      exact same byte fun here => outside ⟨page, List.mem_singleton_self page, here.symm⟩
  obtain ⟨formed, mapping⟩ := takes.spaceFormed runs.ready runs.formed
    (fun table member inside => apart (List.mem_singleton.mp inside ▸ member))
    (fun address member => List.mem_singleton.mp member ▸ runs.ready.frameAddress outstanding)
  refine ⟨takes, ⟨takes.ready runs.ready, formed, runs.root, ?_⟩, mapping⟩
  intro translation member
  rw [mapping]
  exact runs.cached translation member

/-- `vm_unmap` in the active space drops the translations of the page. -/
theorem unmap (runs : machine.RunsIn space paths) {address : U64}
    (aligned : address.toNat % pageSize = 0)
    (mapped : machine.mapping space.root (address.toNat / pageSize) ≠ none)
    : ∃ machine',
        vmUnmap (some space) address machine = .ok (true, machine')
        ∧ machine.Takes (machine'.withTlb machine.tlb) [] space.tables
        ∧ machine'.RunsIn space paths
        ∧ machine'.mapping space.root
          = Function.update (machine.mapping space.root) (address.toNat / pageSize) none := by
  obtain ⟨machine', tlb, called, cache, takes, formed, mapping, _⟩ :=
    runs.formed.vmUnmap_spec runs.ready aligned mapped
  rw [if_pos runs.root] at cache
  have old : (machine'.withTlb tlb).withTlb machine.tlb = machine' := by
    have record := takes.tlb
    cases machine'
    cases record
    rfl
  refine ⟨machine'.withTlb tlb, called, old.symm ▸ takes, ⟨{ takes.ready runs.ready with },
    { formed with }, ?_, ?_⟩, mapping⟩
  · change space.root = machine'.cr3 &&& pteAddress
    rw [takes.record.cr3]
    exact runs.root
  · intro translation member
    change machine'.mapping space.root translation.page = _
    change translation ∈ tlb at member
    rw [cache, List.mem_filter] at member
    rw [mapping, Function.update_of_ne (of_decide_eq_true member.2)]
    exact runs.cached translation member.1

/-- `vm_map` of a free page whose tables are all there. No translation of the page is cached. -/
theorem map (runs : machine.RunsIn space paths) {address physical : U64} {flags : U32}
    (admits : machine.MapAdmits space address physical flags)
    (there : pagePath (address.toNat / pageSize) ∈ paths)
    : ∃ machine',
        vmMap (some space) address physical flags machine = .ok ((true, some space), machine')
        ∧ machine.Takes machine' [] space.tables
        ∧ machine'.RunsIn space paths
        ∧ machine'.mapping space.root
          = Function.update (machine.mapping space.root) (address.toNat / pageSize)
              (some (physical, flags)) := by
  obtain ⟨machine', called, takes, formed, mapping⟩ :=
    runs.formed.vmMap_within runs.ready admits there
  refine ⟨machine', called, takes, ⟨takes.ready runs.ready, formed, ?_, ?_⟩, mapping⟩
  · rw [Machine.currentRoot, takes.record.cr3]
    exact runs.root
  · intro translation member
    rw [takes.tlb] at member
    have old := runs.cached translation member
    rw [mapping, Function.update_of_ne, old]
    intro same
    rw [same, admits.unmapped] at old
    cases old

end Machine.RunsIn

end MiniLinux
