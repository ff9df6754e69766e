import MiniLinux.Memory.VmGrow

/-! The exact result of each operation on a well-formed address space. -/

namespace MiniLinux

open Foundation Foundation.Halting

/-- The machine with other cached translations. -/
def Machine.withTlb (machine : Machine) (tlb : List Translation) : Machine :=
  { machine with tlb := tlb }

/-- No table can be added. -/
def Machine.Exhausted (machine : Machine) (space : AddressSpace) : Prop :=
  space.tables.length = vmTableLimit ∨ machine.pages.freeCount = 0

namespace Machine.SpaceFormed

variable {machine : Machine} {space : AddressSpace} {paths : Finset (List Nat)}

/-- A level of the descent is there, is added, or cannot be added. -/
theorem ensureTable_spec (ready : machine.Ready) (formed : machine.SpaceFormed space paths)
    {first : List Nat} {table : U64} {index : Nat} (short : first.length < 3)
    (found : machine.tableOn space.root first = some table)
    (inside : index < lowerSlots space.root table)
    : ∃ ok space' machine' paths' taken,
        ensureTable (entryPointer (machine.tableAt table) index) space machine
          = .ok ((ok, space'), machine')
        ∧ machine.Extends machine' space space' paths paths' taken
        ∧ (∀ path ∈ paths', path ∈ paths ∨ path = first ++ [index])
        ∧ (ok = true
          → ∃ next,
              machine'.tableOn space.root (first ++ [index]) = some next
              ∧ entryTarget (machine'.entry table index) = some next)
        ∧ (ok = false
          → machine'.tableOn space.root (first ++ [index]) = none
            ∧ machine'.Exhausted space') := by
  have step (other : Machine) (same : other.tableOn space.root first = some table)
      : other.tableOn space.root (first ++ [index])
        = entryTarget (other.entry table index) := by
    have split : other.tableOn space.root (first ++ [index])
        = (other.tableOn space.root first).bind fun node =>
            other.lowerChild space.root node index :=
      RadixTree.descend_concat ..
    rw [split, same, Option.bind_some, lowerChild, if_pos inside]
  have opened : ensureTable (entryPointer (machine.tableAt table) index) space machine
      = (if machine.entry table index &&& ptePresent = 0 then do
          let made ← newTable space 0
          if made.1 then do
            setEntry (entryPointer (machine.tableAt table) index) (linkValue made.2.1)
            pure (true, made.2.2)
          else pure (false, made.2.2)
        else pure (true, space) : MachineM (Bool × AddressSpace)) machine := by
    rw [ensureTable, bind_get_apply, entryAt_tableAt]
    rfl
  by_cases absent : machine.entry table index &&& ptePresent = 0
  · rw [if_pos absent] at opened
    by_cases exhausted : machine.Exhausted space
    · refine ⟨false, space, machine, paths, [], ?_, .refl ready formed, fun _ => Or.inl, ?_, ?_⟩
      · rw [opened, bind_ok (newTable_refused machine 0 exhausted)]
        rfl
      · intro impossible
        cases impossible
      · intro _
        refine ⟨?_, exhausted⟩
        rw [step machine found, entryTarget, if_pos (Or.inl absent)]
    · obtain ⟨room, available⟩ := not_or.mp exhausted
      obtain ⟨next, cleared, created, takes, zero⟩ := newTable_ok ready space 0 room available
      have links : machine.Links cleared space paths first table index next :=
        ⟨ready, formed, short, found, inside, absent, takes, zero⟩
      have reached := links.tableOn links.newLength
      rw [if_pos rfl] at reached
      refine ⟨true, _, cleared.linked table index next, _, [next], ?_, links.grown room, ?_, ?_, ?_⟩
      · rw [opened, bind_ok created]
        simp only [if_true]
        rw [← takes.record.tableAt table, bind_ok (setEntry_tableAt ..)]
        rfl
      · intro path member
        exact (Finset.mem_insert.mp member).symm
      · intro _
        refine ⟨next, reached, ?_⟩
        rw [← step _ ((links.grown room).kept first table (Nat.le_of_lt short) found)]
        exact reached
      · intro impossible
        cases impossible
  · rw [if_neg absent, pure_apply] at opened
    refine ⟨true, space, machine, paths, [], opened, .refl ready formed, fun _ => Or.inl, ?_, ?_⟩
    · intro _
      have small := (formed.permissive first table index short found inside absent).1
      rw [step machine found, entryTarget, if_neg (not_or.mpr ⟨absent, not_not.mpr small⟩)]
      exact ⟨_, rfl, rfl⟩
    · intro impossible
      cases impossible

/-- A path with a missing start is missing. -/
theorem tableOn_none {machine : Machine} {root : U64} {first rest : List Nat}
    (missing : machine.tableOn root first = none)
    : machine.tableOn root (first ++ rest) = none := by
  have split : machine.tableOn root (first ++ rest)
      = (machine.tableOn root first).bind fun node =>
          RadixTree.descend (machine.lowerChild root) node rest :=
    RadixTree.descend_append ..
  rw [split, missing, Option.bind_none]

/-- The descent of `vm_map` builds the missing levels of the page's path, as far as it can.
Witness: induction on the levels still to go.
-/
theorem mapTables_spec {address : U64} (low : address.toNat / pageSize < lowerPages)
    (shifts : List Nat) {machine : Machine} {space : AddressSpace} {paths : Finset (List Nat)}
    (ready : machine.Ready) (formed : machine.SpaceFormed space paths) (first : List Nat)
    {table : U64} (found : machine.tableOn space.root first = some table)
    (on : pagePath (address.toNat / pageSize) = first ++ shifts.map (tableIndex address))
    : ∃ result space' machine' paths' taken,
        mapTables address shifts (machine.tableAt table) space machine
          = .ok ((result.map machine.tableAt, space'), machine')
        ∧ machine.Extends machine' space space' paths paths' taken
        ∧ (∀ path ∈ paths', path ∈ paths ∨ path <+: pagePath (address.toNat / pageSize))
        ∧ machine'.tableOn space.root (pagePath (address.toNat / pageSize)) = result
        ∧ (result = none → machine'.Exhausted space') := by
  induction shifts generalizing machine space paths first table with
  | nil =>
      rw [List.map_nil, List.append_nil] at on
      refine ⟨some table, space, machine, paths, [], rfl, .refl ready formed, fun _ => Or.inl, ?_, ?_⟩
      · rw [on]
        exact found
      · intro impossible
        cases impossible
  | cons shift rest ih =>
      let index := tableIndex address shift
      have on' : pagePath (address.toNat / pageSize)
          = (first ++ [index]) ++ rest.map (tableIndex address) := by
        rw [on, List.map_cons, List.append_assoc, List.singleton_append]
      have lengths := congrArg List.length on
      rw [pagePath_length, List.length_append, List.map_cons, List.length_cons] at lengths
      have inside := formed.index_inside low on found
      obtain ⟨ok, space₁, machine₁, paths₁, taken₁, ensured, extends₁, added, there, missing⟩ :=
        formed.ensureTable_spec ready (by omega) found inside
      have prefixed : ∀ path ∈ paths₁,
          path ∈ paths ∨ path <+: pagePath (address.toNat / pageSize) := by
        intro path member
        refine (added path member).imp_right ?_
        intro same
        exact ⟨rest.map (tableIndex address), by rw [same, on']⟩
      cases ok with
      | false =>
          obtain ⟨absent, exhausted⟩ := missing rfl
          refine ⟨none, space₁, machine₁, paths₁, taken₁, ?_, extends₁, prefixed, ?_,
            fun _ => exhausted⟩
          · rw [mapTables, bind_ok ensured]
            rfl
          · rw [on', tableOn_none absent]
      | true =>
          obtain ⟨next, reached, target⟩ := there rfl
          have ready₁ := extends₁.takes.ready ready
          have same := extends₁.takes.record
          rw [← extends₁.root] at reached
          obtain ⟨result, space₂, machine₂, paths₂, taken₂, mapped, extends₂, added₂, leaf,
            exhausted⟩ := ih ready₁ extends₁.formed _ reached on'
          rw [extends₁.root] at leaf
          refine ⟨result, space₂, machine₂, paths₂, taken₁ ++ taken₂, ?_,
            extends₁.trans extends₂, ?_, leaf, exhausted⟩
          · have small : ¬(machine₁.entry table index &&& ptePresent = 0
                ∨ machine₁.entry table index &&& pteLarge ≠ 0) := by
              intro stops
              rw [entryTarget, if_pos stops] at target
              cases target
            rw [entryTarget, if_neg small] at target
            rw [mapTables, bind_ok ensured]
            simp only [if_true, bind_get_apply]
            rw [← same.tableAt table, entryAt_tableAt, if_neg (not_or.mp small).2,
              Option.some.inj target, mapped]
            have tables : machine₁.tableAt = machine.tableAt := funext same.tableAt
            rw [tables]
          · intro path member
            rcases added₂ path member with old | new
            · exact prefixed path old
            · exact Or.inr new

/-- A last-level entry changes the map at its page and the tree nowhere.
Witness: the table of the page is at depth three, and no other path reaches it.
-/
theorem writeLeaf (ready : machine.Ready) (formed : machine.SpaceFormed space paths) {page : Nat}
    (low : page < lowerPages) {table : U64}
    (found : machine.tableOn space.root (pagePath page) = some table) (value : U64)
    : machine.Takes (machine.withEntry table (page % 512) value) [] [table]
      ∧ (machine.withEntry table (page % 512) value).SpaceFormed space paths
      ∧ (machine.withEntry table (page % 512) value).mapping space.root
        = Function.update (machine.mapping space.root) page (entryLeaf value)
      ∧ ∀ index < 512,
          (machine.withEntry table (page % 512) value).entry space.root index
          = machine.entry space.root index := by
  have three (page : Nat) : (pagePath page).length ≤ 3 := Nat.le_of_eq (pagePath_length page)
  have slot (page : Nat) : page % 512 < 512 := Nat.mod_lt _ (by decide)
  have owned := formed.linkedOwned _ table (three page) found
  have outstanding := formed.outstanding table owned
  have frame := ready.frameAddress outstanding
  have takes := Machine.Takes.withEntry ready outstanding (slot page) value
  have entry {other : U64} (member : other ∈ space.tables) {index : Nat} (inside : index < 512)
      : (machine.withEntry table (page % 512) value).entry other index
        = if other = table ∧ index = page % 512 then value else machine.entry other index :=
    frame.entry_withEntry machine (formed.frameAddress ready member) (slot page) inside value
  have upperEntry {path : List Nat} {other : U64} (short : path.length < 3)
      (reached : machine.tableOn space.root path = some other) {index : Nat}
      (inside : index < 512)
      : (machine.withEntry table (page % 512) value).entry other index
        = machine.entry other index := by
    rw [entry (formed.linkedOwned path other (by omega) reached) inside, if_neg]
    intro same
    have paths := formed.unshared path _ table (by omega) (three page) (same.1 ▸ reached) found
    rw [paths, pagePath_length] at short
    exact absurd short (by decide)
  have tree {path : List Nat} (within : path.length ≤ 3)
      : (machine.withEntry table (page % 512) value).tableOn space.root path
        = machine.tableOn space.root path := by
    apply RadixTree.descend_congr _ path within
    intro path other index short reached
    unfold lowerChild
    split
    · next inside =>
        rw [upperEntry short reached (Nat.lt_of_lt_of_le inside (lowerSlots_le _ _))]
    · rfl
  refine ⟨takes, ?_, ?_, fun index inside => @upperEntry [] space.root (by decide) rfl index inside⟩
  · refine { formed with
      outstanding := fun other member => takes.outstanding (formed.outstanding other member)
      linkedOwned := ?_, unshared := ?_, spanned := ?_, permissive := ?_, supervisor := ?_ }
    · intro path other within reached
      exact formed.linkedOwned path other within ((tree within).symm.trans reached)
    · intro first second other within within' left right
      exact formed.unshared first second other within within'
        ((tree within).symm.trans left) ((tree within').symm.trans right)
    · intro path within
      rw [tree within]
      exact formed.spanned path within
    · intro path other index short reached inside present
      rw [tree (by omega)] at reached
      have same := upperEntry short reached (Nat.lt_of_lt_of_le inside (lowerSlots_le _ _))
      rw [same] at present ⊢
      exact formed.permissive path other index short reached inside present
    · intro index upper inside
      rw [@upperEntry [] space.root (by decide) rfl index inside]
      exact formed.supervisor index upper inside
  · funext other
    rw [Function.update_apply]
    unfold mapping
    rw [tree (three other)]
    by_cases same : other = page
    · subst other
      rw [if_pos low, if_pos rfl, found, Option.bind_some, entry owned (slot page),
        if_pos ⟨rfl, rfl⟩]
    · rw [if_neg same]
      by_cases low' : other < lowerPages
      · rw [if_pos low', if_pos low']
        cases reached : machine.tableOn space.root (pagePath other) with
        | none => rw [Option.bind_none, Option.bind_none]
        | some leaf =>
            have apart : ¬(leaf = table ∧ other % 512 = page % 512) := by
              intro both
              have path := formed.unshared _ _ table (three other) (three page)
                (both.1 ▸ reached) found
              exact same (pagePath_injective low' low path both.2)
            rw [Option.bind_some, Option.bind_some,
              entry (formed.linkedOwned _ leaf (three other) reached) (slot other), if_neg apart]
      · rw [if_neg low', if_neg low']

end Machine.SpaceFormed

-----------------------------------------------------------------------------------------
-- Mapping and unmapping
-----------------------------------------------------------------------------------------

/-- The arguments that `vm_map` accepts. -/
structure Machine.MapAdmits (machine : Machine) (space : AddressSpace) (address physical : U64)
    (flags : U32)
    : Prop where
  nonzero : address ≠ 0
  low : ¬address ≥ 0x800000000000
  aligned : address.toNat % pageSize = 0
  outstanding : machine.Outstanding physical
  known : flags &&& ~~~(vmWrite ||| vmUser ||| vmExec) = 0
  unmapped : machine.mapping space.root (address.toNat / pageSize) = none

namespace Machine.SpaceFormed

variable {machine : Machine} {space : AddressSpace} {paths : Finset (List Nat)}

theorem vmMap_refused (ready : machine.Ready) (formed : machine.SpaceFormed space paths)
    {address physical : U64} {flags : U32}
    (refused : ¬machine.MapAdmits space address physical flags)
    : vmMap (some space) address physical flags machine
      = .ok ((false, some space), machine) := by
  unfold vmMap
  dsimp only
  by_cases bad : mapRefuses space address physical
  · rw [if_pos bad, pure_apply]
  · rw [if_neg bad, bind_ok (ready.pageData_eq physical)]
    obtain ⟨_, nonzero, low, aligned, _⟩ : space.root ≠ 0 ∧ address ≠ 0
        ∧ ¬address ≥ 0x800000000000 ∧ ¬address.toNat % pageSize ≠ 0
        ∧ ¬physical.toNat % pageSize ≠ 0 := by
      simpa only [mapRefuses, not_or] using bad
    by_cases outstanding : machine.Outstanding physical
    · by_cases known : flags &&& ~~~(vmWrite ||| vmUser ||| vmExec) ≠ 0
      · rw [if_pos (Or.inr known), pure_apply]
      · have mapped : machine.leafPresent (some space) address = true := by
          rw [formed.leafPresent_eq ready low, Option.isSome_iff_ne_none]
          intro unmapped
          exact refused ⟨nonzero, low, not_not.mp aligned, outstanding, not_not.mp known, unmapped⟩
        have given : ¬((if machine.Outstanding physical
              then some (machine.pages.hhdmOffset + physical) else none) = none
            ∨ flags &&& ~~~(vmWrite ||| vmUser ||| vmExec) ≠ 0) := by
          rw [if_pos outstanding]
          exact not_or.mpr ⟨Option.some_ne_none _, known⟩
        rw [if_neg given, bind_get_apply, if_pos mapped, pure_apply]
    · rw [if_neg outstanding, if_pos (Or.inl rfl), pure_apply]

/-- `vm_map` builds the missing levels and then adds the page, or stops where no table can
be added. Only the page's own entry of the map may change, and nothing in the kernel half.
-/
theorem vmMap_outcome (ready : machine.Ready) (formed : machine.SpaceFormed space paths)
    {address physical : U64} {flags : U32}
    (admits : machine.MapAdmits space address physical flags)
    : ∃ ok space' machine' paths' taken,
        vmMap (some space) address physical flags machine = .ok ((ok, some space'), machine')
        ∧ machine.Takes machine' taken space.tables
        ∧ space'.root = space.root
        ∧ space'.tables = space.tables ++ taken
        ∧ machine'.SpaceFormed space' paths'
        ∧ (∀ path ∈ paths, path ∈ paths')
        ∧ (∀ path ∈ paths', path ∈ paths ∨ path <+: pagePath (address.toNat / pageSize))
        ∧ (ok = true
          → pagePath (address.toNat / pageSize) ∈ paths'
            ∧ machine'.mapping space.root
              = Function.update (machine.mapping space.root) (address.toNat / pageSize)
                (some (physical, flags)))
        ∧ (ok = false
          → pagePath (address.toNat / pageSize) ∉ paths'
            ∧ machine.Extends machine' space space' paths paths' taken
            ∧ machine'.Exhausted space')
        ∧ (space.tables.length ≤ vmTableLimit → space'.tables.length ≤ vmTableLimit)
        ∧ ∀ index,
            256 ≤ index
            → index < 512 → machine'.entry space.root index = machine.entry space.root index := by
  have page := (below_iff address).mp admits.low
  have three : (pagePath (address.toNat / pageSize)).length ≤ 3 :=
    Nat.le_of_eq (pagePath_length _)
  obtain ⟨result, space', machine', paths', taken, mapped, extended, added, leaf, exhausted⟩ :=
    formed.mapTables_spec page upperShifts ready [] rfl (pagePath_eq address).symm
  have ready' := extended.takes.ready ready
  have formed' := extended.formed
  have grew : ∀ path ∈ paths, path ∈ paths' := by
    intro path member
    have short := formed.shallow path member
    obtain ⟨table, found⟩ := Option.isSome_iff_exists.mp ((formed.spanned path short).mpr member)
    have kept := extended.kept path table short found
    rw [← extended.root] at kept
    exact (formed'.spanned path short).mp (Option.isSome_iff_exists.mpr ⟨table, kept⟩)
  have accepted : vmMap (some space) address physical flags machine
      = (mapTables address upperShifts (machine.tableAt space.root) space
          >>= finishMap address physical flags) machine := by
    have good : ¬mapRefuses space address physical := by
      simp only [mapRefuses, not_or]
      exact ⟨formed.root_ne_zero ready, admits.nonzero, admits.low, not_not.mpr admits.aligned,
        not_not.mpr admits.outstanding.1⟩
    have given : ¬((if machine.Outstanding physical
          then some (machine.pages.hhdmOffset + physical) else none) = none
        ∨ flags &&& ~~~(vmWrite ||| vmUser ||| vmExec) ≠ 0) := by
      rw [if_pos admits.outstanding]
      exact not_or.mpr ⟨Option.some_ne_none _, not_not.mpr admits.known⟩
    have absent : ¬machine.leafPresent (some space) address = true := by
      rw [formed.leafPresent_eq ready admits.low, admits.unmapped]
      exact Bool.false_ne_true
    unfold vmMap
    dsimp only
    rw [if_neg good, bind_ok (ready.pageData_eq physical), if_neg given, bind_get_apply,
      if_neg absent]
  rw [bind_ok mapped] at accepted
  rw [← extended.root] at leaf
  cases result with
  | none =>
      refine ⟨false, space', machine', paths', taken, accepted, extended.takes, extended.root,
        extended.tables, formed', grew, added, ?_, ?_, extended.limited, extended.upper⟩
      · intro impossible
        cases impossible
      · intro _
        refine ⟨?_, extended, exhausted rfl⟩
        rw [← formed'.spanned _ three, leaf]
        exact Bool.false_ne_true
  | some table =>
      let written := machine'.withEntry table (address.toNat / pageSize % 512)
        (leafValue physical flags)
      obtain ⟨write, formed'', update, kept⟩ :=
        formed'.writeLeaf ready' page leaf (leafValue physical flags)
      have owned := formed'.linkedOwned _ table three leaf
      rw [extended.tables] at owned
      refine ⟨true, space', written, paths', taken, ?_, ?_, extended.root, extended.tables,
        formed'', grew, added, ?_, ?_, extended.limited, ?_⟩
      · rw [accepted]
        rw [Option.map_some, finishMap, ← extended.takes.record.tableAt table, tableIndex_last,
          bind_ok (setEntry_tableAt ..)]
        rfl
      · have both := (extended.takes.trans write).mono space.tables ?_
        · rw [List.append_nil] at both
          exact both
        · intro other member
          rcases List.mem_append.mp member with member | member
          · exact List.mem_append_right _ member
          · rw [List.mem_singleton.mp member, List.append_nil]
            rcases List.mem_append.mp owned with owned | owned
            · exact List.mem_append_right _ owned
            · exact List.mem_append_left _ owned
      · intro _
        refine ⟨(formed'.spanned _ three).mp (Option.isSome_iff_exists.mpr ⟨table, leaf⟩), ?_⟩
        rw [extended.root] at update
        rw [update, extended.mapping,
          (ready.frameAddress admits.outstanding).entryLeaf_leafValue admits.known]
      · intro impossible
        cases impossible
      · intro index high inside
        rw [extended.root] at kept
        exact (kept index inside).trans (extended.upper index high inside)

/-- What most callers of `vm_map` need. -/
theorem vmMap_spec (ready : machine.Ready) (formed : machine.SpaceFormed space paths)
    {address physical : U64} {flags : U32}
    (admits : machine.MapAdmits space address physical flags)
    : ∃ ok space' machine' paths' taken,
        vmMap (some space) address physical flags machine = .ok ((ok, some space'), machine')
        ∧ machine.Takes machine' taken space.tables
        ∧ space'.root = space.root
        ∧ space'.tables = space.tables ++ taken
        ∧ machine'.SpaceFormed space' paths'
        ∧ (∀ path ∈ paths, path ∈ paths')
        ∧ (∀ path ∈ paths', path ∈ paths ∨ path <+: pagePath (address.toNat / pageSize))
        ∧ (ok = true
          → pagePath (address.toNat / pageSize) ∈ paths'
            ∧ machine'.mapping space.root
              = Function.update (machine.mapping space.root) (address.toNat / pageSize)
                (some (physical, flags)))
        ∧ (ok = false
          → pagePath (address.toNat / pageSize) ∉ paths'
            ∧ machine'.mapping space.root = machine.mapping space.root
            ∧ machine'.Exhausted space') := by
  obtain ⟨ok, space', machine', paths', taken, result, takes, root, tables, formed', grew, prefixed,
    added, refused, _⟩ := formed.vmMap_outcome ready admits
  refine ⟨ok, space', machine', paths', taken, result, takes, root, tables, formed', grew, prefixed,
    added, fun failed => ?_⟩
  obtain ⟨missing, extended, exhausted⟩ := refused failed
  exact ⟨missing, extended.mapping, exhausted⟩

theorem vmUnmap_refused (ready : machine.Ready) (formed : machine.SpaceFormed space paths)
    {address : U64}
    (refused
      : ¬(address.toNat % pageSize = 0
          ∧ machine.mapping space.root (address.toNat / pageSize) ≠ none))
    : vmUnmap (some space) address machine = .ok (false, machine) := by
  rw [vmUnmap, bind_get_apply]
  by_cases aligned : address.toNat % pageSize = 0
  · rw [if_neg (not_not.mpr aligned)]
    have unmapped : machine.mapping space.root (address.toNat / pageSize) = none := by
      by_contra mapped
      exact refused ⟨aligned, mapped⟩
    by_cases low : ¬address ≥ 0x800000000000
    · have page := (below_iff address).mp low
      rw [mapping, if_pos page] at unmapped
      rw [formed.leafEntry_eq ready low (by decide)]
      cases found : machine.tableOn space.root (pagePath (address.toNat / pageSize)) with
      | none => rfl
      | some table =>
          rw [found, Option.bind_some, entryLeaf] at unmapped
          have absent
              : machine.entry table (address.toNat / pageSize % 512) &&& ptePresent = 0 := by
            by_contra present
            rw [if_neg present] at unmapped
            cases unmapped
          simp only [Option.map_some, entryAt_tableAt, if_pos absent, pure_apply]
    · have beyond : space.root = 0 ∨ address ≥ 0x800000000000 := Or.inr (not_not.mp low)
      rw [leafEntry]
      simp only [if_pos beyond, pure_apply]
  · rw [if_pos aligned, pure_apply]

/-- `vm_unmap` removes exactly the page; on the active root it also drops the page's cached
translations.
-/
theorem vmUnmap_spec (ready : machine.Ready) (formed : machine.SpaceFormed space paths)
    {address : U64} (aligned : address.toNat % pageSize = 0)
    (mapped : machine.mapping space.root (address.toNat / pageSize) ≠ none)
    : ∃ machine' tlb,
        vmUnmap (some space) address machine = .ok (true, machine'.withTlb tlb)
        ∧ tlb
          = (if space.root = machine.currentRoot then
              machine.tlb.filter fun translation => translation.page ≠ address.toNat / pageSize
            else machine.tlb)
        ∧ machine.Takes machine' [] space.tables
        ∧ machine'.SpaceFormed space paths
        ∧ machine'.mapping space.root
          = Function.update (machine.mapping space.root) (address.toNat / pageSize) none
        ∧ ∀ index < 512, machine'.entry space.root index = machine.entry space.root index := by
  have low : ¬address ≥ 0x800000000000 := by
    intro beyond
    apply mapped
    rw [mapping, if_neg (mt (below_iff address).mpr (not_not.mpr beyond))]
  have page := (below_iff address).mp low
  obtain ⟨table, found, present⟩
      : ∃ table,
          machine.tableOn space.root (pagePath (address.toNat / pageSize)) = some table
          ∧ ¬machine.entry table (address.toNat / pageSize % 512) &&& ptePresent = 0 := by
    rw [mapping, if_pos page] at mapped
    cases found : machine.tableOn space.root (pagePath (address.toNat / pageSize)) with
    | none =>
        rw [found] at mapped
        exact absurd rfl mapped
    | some table =>
        refine ⟨table, rfl, fun absent => mapped ?_⟩
        rw [found, Option.bind_some, entryLeaf, if_pos absent]
  obtain ⟨takes, formed', update, kept⟩ := formed.writeLeaf ready page found 0
  rw [entryLeaf_zero] at update
  have owned := formed.linkedOwned _ table (Nat.le_of_eq (pagePath_length _)) found
  refine ⟨machine.withEntry table (address.toNat / pageSize % 512) 0, _, ?_, rfl, takes.mono _ ?_,
    formed', update, kept⟩
  · rw [vmUnmap, bind_get_apply, if_neg (not_not.mpr aligned),
      formed.leafEntry_eq ready low (by decide), found]
    simp only [Option.map_some, entryAt_tableAt, if_neg present]
    rw [bind_ok (setEntry_tableAt ..)]
    by_cases active : space.root = machine.currentRoot
    · simp only [if_pos active]
      rfl
    · simp only [if_neg active]
      rfl
  · intro other member
    rw [List.mem_singleton.mp member]
    exact List.mem_append_right _ owned

end Machine.SpaceFormed

-----------------------------------------------------------------------------------------
-- Destroying a space
-----------------------------------------------------------------------------------------

/-- Distinct outstanding tables are all returned, by induction on the list. -/
theorem freeTables_spec {machine : Machine} (wellFormed : machine.PagesWellFormed)
    {tables : List U64} (distinct : tables.Nodup)
    (outstanding : ∀ table ∈ tables, machine.Outstanding table)
    : ∃ machine',
        freeTables tables machine = .ok ((), machine') ∧ machine.Returns machine' tables := by
  induction tables generalizing machine with
  | nil => exact ⟨machine, rfl, .refl wellFormed⟩
  | cons table rest ih =>
      obtain ⟨fresh, distinct'⟩ := List.nodup_cons.mp distinct
      have here := outstanding table List.mem_cons_self
      have returns := Machine.Returns.release wellFormed here
      obtain ⟨machine', freed, returns'⟩ := ih returns.wellFormed distinct' (by
        intro other member
        refine (returns.outstanding_iff ?_ other).mpr ⟨?_, ?_⟩
        · intro address single
          rw [List.mem_singleton.mp single]
          exact here.1
        · exact outstanding other (List.mem_cons_of_mem _ member)
        · intro same
          rw [List.mem_singleton.mp same] at member
          exact fresh member)
      refine ⟨machine', ?_, returns.trans returns'⟩
      rw [freeTables, bind_ok (wellFormed.pageFree_ok here), if_pos rfl]
      exact freed

/-- `vm_destroy` on the active root, or without a root, changes nothing. -/
theorem vmDestroy_refused {machine : Machine} {space : AddressSpace}
    (refused : space.root = 0 ∨ space.root = machine.currentRoot)
    : vmDestroy (some space) machine = .ok ((false, some space), machine) := by
  rw [vmDestroy, bind_get_apply, if_pos refused, pure_apply]

/-- Elsewhere it returns every table and leaves an empty record. -/
theorem vmDestroy_spec {machine : Machine} (wellFormed : machine.PagesWellFormed)
    {space : AddressSpace} (live : space.root ≠ 0) (inactive : space.root ≠ machine.currentRoot)
    (distinct : space.tables.Nodup)
    (outstanding : ∀ table ∈ space.tables, machine.Outstanding table)
    : ∃ machine',
        vmDestroy (some space) machine = .ok ((true, some .zero), machine')
        ∧ machine.Returns machine' space.tables.reverse := by
  obtain ⟨machine', freed, returns⟩ :=
    freeTables_spec wellFormed (List.nodup_reverse.mpr distinct)
      (fun table member => outstanding table (List.mem_reverse.mp member))
  refine ⟨machine', ?_, returns⟩
  rw [vmDestroy, bind_get_apply, if_neg (not_or.mpr ⟨live, inactive⟩), bind_ok freed]
  rfl

end MiniLinux
