import MiniLinux.Memory.SpacesRuns

/-! The processor never uses a stale translation.
Invalidation is conditional and `vm_map` does none, yet with the active space every cached
translation is one that the tables still give: only the active space caches, its map loses
a page only by `vm_unmap`, and its tables stay while it is active.
-/

namespace MiniLinux

open Foundation Foundation.Halting

-----------------------------------------------------------------------------------------
-- What the tables of a space yield
-----------------------------------------------------------------------------------------

theorem and_pteAddress_aligned (entry : U64) : (entry &&& pteAddress).toNat % pageSize = 0 := by
  rw [BitVec.toNat_and, pageSize, show 4096 = 2 ^ 12 from rfl, Nat.and_mod_two_pow,
    show pteAddress.toNat % 2 ^ 12 = 0 from rfl, Nat.and_zero]

/-- With four levels, a translation names the frame of the last entry. -/
theorem physicalByte_page {entries : List U64} (four : entries.length = 4) (page : Nat)
    : BitVec.ofNat 64 (physicalByte entries (BitVec.ofNat 64 (page * pageSize)))
      = entries.getLastD 0 &&& pteAddress := by
  have aligned := and_pteAddress_aligned (entries.getLastD 0)
  apply BitVec.eq_of_toNat_eq
  have bound := (entries.getLastD 0 &&& pteAddress).isLt
  rw [physicalByte, four, BitVec.toNat_ofNat, BitVec.toNat_ofNat]
  simp only [pageSize] at aligned ⊢
  omega

namespace Machine.SpaceFormed

variable {machine : Machine} {space : AddressSpace} {paths : Finset (List Nat)}

/-- Every table on a lower walk belongs to the space, by induction on the levels. -/
theorem cpuTables_owned (formed : machine.SpaceFormed space paths) {address : U64}
    (low : address.toNat / pageSize < lowerPages) {first : List Nat} (shifts : List Nat)
    (on : pagePath (address.toNat / pageSize) = first ++ shifts.map (tableIndex address))
    {table : U64} (found : machine.tableOn space.root first = some table)
    : ∀ other ∈ machine.cpuTables address (shifts ++ [12]) table, other ∈ space.tables := by
  have length := congrArg List.length on
  rw [pagePath_length, List.length_append, List.length_map] at length
  have owned := formed.linkedOwned first table (by omega) found
  induction shifts generalizing first table with
  | nil =>
      intro other member
      rw [List.nil_append, cpuTables] at member
      have same : other = table := by
        split at member <;> simpa [cpuTables] using member
      exact same ▸ owned
  | cons shift rest ih =>
      intro other member
      rw [List.map_cons] at on
      have inside := formed.index_inside low on found
      rw [List.cons_append, cpuTables] at member
      split at member
      · exact List.mem_singleton.mp member ▸ owned
      · next continues =>
          rcases List.mem_cons.mp member with same | member
          · exact same ▸ owned
          · have next : machine.tableOn space.root (first ++ [tableIndex address shift])
                = some (machine.entry table (tableIndex address shift) &&& pteAddress) := by
              rw [tableOn] at found ⊢
              rw [RadixTree.descend_concat, found, Option.bind_some, lowerChild, if_pos inside,
                entryTarget, if_neg continues]
            have on' : pagePath (address.toNat / pageSize)
                = (first ++ [tableIndex address shift]) ++ rest.map (tableIndex address) := by
              rw [on, List.append_assoc]
              rfl
            have length' := congrArg List.length on'
            rw [pagePath_length, List.length_append, List.length_map] at length'
            exact ih on' next length' (formed.linkedOwned _ _ (by omega) next) other member

/-- A translation that the tables yield is a page of the map, read through owned tables. -/
theorem translation_spec (formed : machine.SpaceFormed space paths) (ready : machine.Ready)
    (active : space.root = machine.currentRoot) {address : U64} {translation : Translation}
    (yields : machine.translation address = some translation)
    : machine.mapping space.root translation.page = some (translation.frame, translation.flags)
      ∧ ∀ table ∈ translation.through, table ∈ space.tables := by
  unfold Machine.translation at yields
  dsimp only at yields
  split at yields
  · next walked =>
      obtain ⟨low, _, present⟩ := walked
      cases yields
      rw [← active] at present ⊢
      have four := formed.four_levels low present
      have page : address.toNat / pageSize < lowerPages := by
        simp only [pageSize, lowerPages]
        omega
      constructor
      · rw [formed.mapping_cpu ready,
          if_pos ⟨formed.root_ne_zero ready, low, four, present⟩, physicalByte_page four]
      · have root : machine.tableOn space.root [] = some space.root := rfl
        exact formed.cpuTables_owned page upperShifts (pagePath_eq address).symm root
  · cases yields

end Machine.SpaceFormed

-----------------------------------------------------------------------------------------
-- The invariant
-----------------------------------------------------------------------------------------

/-- After `vm_init` the active root is the one the bootloader left, outside usable memory. -/
structure Machine.OnBootRoot (machine : Machine) : Prop where
  boot : machine.bootRoot = machine.currentRoot
  kept : ¬machine.IsFree (frameOf machine.currentRoot.toNat)

section Invariant

variable {ι : Type} {start : Machine} {audit : Audit ι} {client : SpacesClient ι}

/-- The space is the active one. -/
structure SpacesClient.Active (client : SpacesClient ι) (index : ι) : Prop where
  live : (client.spaces index).root ≠ 0
  root : (client.spaces index).root = client.machine.currentRoot

/-- Cached translations agree with the active space, and an active root that belongs to no
space can never become the root of one.
-/
structure TlbSound (start : Machine) (client : SpacesClient ι) : Prop where
  boot : client.machine.bootRoot = start.bootRoot
  anchored
    : (∃ index, client.Active index)
      ∨ ¬start.IsFree (frameOf client.machine.currentRoot.toNat)
  current
    : ∀ index,
        client.Active index
        → ∀ translation ∈ client.machine.tlb,
            client.machine.mapping (client.spaces index).root translation.page
              = some (translation.frame, translation.flags)
            ∧ ∀ table ∈ translation.through, table ∈ (client.spaces index).tables

namespace SpacesSound

/-- The map of a space whose tables keep their entries. -/
theorem mapping_congr (sound : SpacesSound start audit client) {index : ι}
    (live : (client.spaces index).root ≠ 0) {machine : Machine}
    (entries
      : ∀ table ∈ (client.spaces index).tables, ∀ slot < 512,
          machine.entry table slot = client.machine.entry table slot)
    : machine.mapping (client.spaces index).root
      = client.machine.mapping (client.spaces index).root := by
  obtain ⟨paths, formed⟩ := sound.ready.formed live
  apply formed.mapping_congr
  intro table member slot inside
  rw [entries table member slot inside]
  exact .refl _

/-- Two live spaces with one root are the same. -/
theorem eq_of_root (sound : SpacesSound start audit client) {index other : ι}
    (live : (client.spaces index).root ≠ 0)
    (same : (client.spaces index).root = (client.spaces other).root)
    : index = other := by
  obtain ⟨_, formed⟩ := sound.ready.formed live
  obtain ⟨_, formed'⟩ := sound.ready.formed (same ▸ live)
  exact sound.apart formed.rootOwned (same ▸ formed'.rootOwned)

/-- Frames that are taken elsewhere leave the map of a live space. -/
theorem mapping_takes (sound : SpacesSound start audit client) {index : ι}
    (live : (client.spaces index).root ≠ 0) {machine : Machine} {taken written : List U64}
    (takes : client.machine.Takes machine taken written)
    (elsewhere : ∀ table ∈ (client.spaces index).tables, table ∉ written)
    (aligned : ∀ table ∈ written, FrameAddress table)
    : machine.mapping (client.spaces index).root
      = client.machine.mapping (client.spaces index).root :=
  sound.mapping_congr live fun table member _ inside =>
    takes.entry sound.conserves.ready (sound.outstanding member) (elsewhere table member) aligned
      inside

theorem mapping_returns (sound : SpacesSound start audit client) {index : ι}
    (live : (client.spaces index).root ≠ 0) {machine : Machine} {returned : List U64}
    (returns : client.machine.Returns machine returned)
    : machine.mapping (client.spaces index).root
      = client.machine.mapping (client.spaces index).root :=
  sound.mapping_congr live fun _ member _ inside =>
    returns.entry sound.conserves.ready (sound.outstanding member) inside

end SpacesSound

namespace TlbSound

/-- A step that loads no root keeps the agreement if it keeps the map and the tables of every
space that stays active.
-/
theorem keep (tlb : TlbSound start client) {client' : SpacesClient ι}
    (cr3 : client'.machine.cr3 = client.machine.cr3)
    (boot : client'.machine.bootRoot = client.machine.bootRoot)
    (stays : ∀ index, client.Active index → client'.Active index)
    (kept
      : ∀ index,
          client'.Active index
          → client.Active index
            ∧ (∀ translation ∈ client'.machine.tlb,
                translation ∈ client.machine.tlb
                ∧ (client.machine.mapping (client.spaces index).root translation.page
                    = some (translation.frame, translation.flags)
                  → client'.machine.mapping (client'.spaces index).root translation.page
                    = some (translation.frame, translation.flags)))
            ∧ ∀ table ∈ (client.spaces index).tables, table ∈ (client'.spaces index).tables)
    : TlbSound start client' := by
  refine ⟨boot.trans tlb.boot, ?_, ?_⟩
  · rcases tlb.anchored with ⟨index, active⟩ | outside
    · exact Or.inl ⟨index, stays index active⟩
    · refine Or.inr ?_
      rw [Machine.currentRoot, cr3]
      exact outside
  · intro index active translation cached
    obtain ⟨before, translations, tables⟩ := kept index active
    obtain ⟨cached, mapping⟩ := translations translation cached
    obtain ⟨found, through⟩ := tlb.current index before translation cached
    exact ⟨mapping found, fun table member => tables table (through table member)⟩

/-- The simplest case: the spaces are the same, and so are the maps of the live ones. -/
theorem machine (tlb : TlbSound start client) {machine : Machine}
    (cr3 : machine.cr3 = client.machine.cr3) (boot : machine.bootRoot = client.machine.bootRoot)
    (cache : machine.tlb = client.machine.tlb)
    (mapping
      : ∀ index,
          (client.spaces index).root ≠ 0
          → machine.mapping (client.spaces index).root
            = client.machine.mapping (client.spaces index).root)
    : TlbSound start { client with machine := machine } := by
  have active (index : ι)
      : ({ client with machine := machine } : SpacesClient ι).Active index
        ↔ client.Active index := by
    constructor
    · exact fun active => ⟨active.live, active.root.trans (by rw [Machine.currentRoot, cr3]; rfl)⟩
    · exact fun active => ⟨active.live, active.root.trans (by
        change _ = machine.cr3 &&& pteAddress
        rw [cr3]
        rfl)⟩
  apply tlb.keep cr3 boot fun index => (active index).mpr
  intro index now
  refine ⟨(active index).mp now, ?_, fun _ member => member⟩
  intro translation cached
  refine ⟨cache ▸ cached, fun found => ?_⟩
  exact (congrFun (mapping index now.live) translation.page).trans found

end TlbSound

theorem Machine.Takes.tlb {machine machine' : Machine} {taken written : List U64}
    (takes : machine.Takes machine' taken written)
    : machine'.tlb = machine.tlb := by
  rw [takes.record]

theorem Machine.Returns.tlb {machine machine' : Machine} {returned : List U64}
    (returns : machine.Returns machine' returned)
    : machine'.tlb = machine.tlb := by
  rw [returns.record]

variable [DecidableEq ι]

namespace TlbSound

/-- A space changes while another or the same one is active. -/
theorem space (tlb : TlbSound start client) {machine : Machine} {index : ι} {space : AddressSpace}
    (same : client.machine.SameRecord machine)
    (root : client.Active index → space.root = (client.spaces index).root)
    (tables : ∀ table ∈ (client.spaces index).tables, client.Active index → table ∈ space.tables)
    (mine
      : space.root = client.machine.currentRoot
        → space.root ≠ 0
        → client.Active index
          ∧ ∀ page entry,
              client.machine.mapping (client.spaces index).root page = some entry
              → machine.mapping space.root page = some entry)
    (others
      : ∀ other,
          other ≠ index
          → (client.spaces other).root ≠ 0
          → machine.mapping (client.spaces other).root
            = client.machine.mapping (client.spaces other).root)
    : TlbSound start ⟨machine, Function.update client.spaces index space⟩ := by
  have current : machine.currentRoot = client.machine.currentRoot := by
    rw [Machine.currentRoot, same.cr3]
    rfl
  have cache : machine.tlb = client.machine.tlb := by rw [same]
  apply tlb.keep same.cr3 same.bootRoot
  · intro other active
    refine ⟨?_, ?_⟩
    all_goals
      dsimp only
      rcases eq_or_ne other index with equal | different
    · rw [equal, Function.update_self, root (equal ▸ active)]
      exact equal ▸ active.live
    · rw [Function.update_of_ne different]
      exact active.live
    · rw [equal, Function.update_self, current, root (equal ▸ active)]
      exact equal ▸ active.root
    · rw [Function.update_of_ne different, current]
      exact active.root
  · intro other active
    obtain ⟨live, rooted⟩ := active
    dsimp only at live rooted ⊢
    rw [cache]
    rcases eq_or_ne other index with equal | different
    · subst equal
      rw [Function.update_self] at live rooted ⊢
      obtain ⟨before, kept⟩ := mine (rooted.trans current) live
      exact ⟨before, fun translation cached => ⟨cached, kept _ _⟩,
        fun table member => tables table member before⟩
    · rw [Function.update_of_ne different] at live rooted ⊢
      refine ⟨⟨live, rooted.trans current⟩, fun translation cached => ⟨cached, fun found => ?_⟩,
        fun _ member => member⟩
      exact (congrFun (others other different live) translation.page).trans found

/-- Every step keeps the cached translations right. -/
theorem step (tlb : TlbSound start client) (sound : SpacesSound start audit client)
    (started : start.PagesWellFormed) (onBoot : start.OnBootRoot) {request : SpacesRequest ι}
    {reply : SpacesReply} {client' : SpacesClient ι} (permits : SpacesPermits audit client request)
    (stepped : SpacesStep client request reply client')
    : TlbSound start client' := by
  have ready := sound.conserves.ready
  cases stepped with
  | refused | allocRefused => exact tlb
  | @created index root machine unused takes formed =>
      have fresh : client.machine.IsFree (frameOf root.toNat) :=
        (takes.free root (List.mem_singleton_self _)).2
      have dead : ¬client.Active index := by
        intro active
        apply active.live
        rw [unused]
        rfl
      apply tlb.space takes.record
      · exact fun active => absurd active dead
      · exact fun _ _ active => absurd active dead
      · intro same _
        -- the new root was free, so it is not the one that is active
        change root = _ at same
        rcases tlb.anchored with ⟨other, active⟩ | outside
        · obtain ⟨_, formed'⟩ := sound.ready.formed active.live
          have owned := formed'.rootOwned
          rw [active.root, ← same] at owned
          exact absurd (sound.outstanding owned).2 fresh.not_allocated
        · exact absurd (same ▸ sound.conserves.startFree fresh) outside
      · exact fun other _ live => sound.mapping_takes live takes (by simp) (by simp)
  | mapped index live takes root tables formed kept =>
      apply tlb.space takes.record
      · exact fun _ => root
      · intro table member _
        rw [tables]
        exact List.mem_append_left _ member
      · intro same alive
        rw [root] at same
        exact ⟨⟨live, same⟩, root ▸ kept⟩
      · intro other different live'
        apply sound.mapping_takes live' takes
        · exact fun table theirs mine => different (sound.apart theirs mine)
        · exact fun table member => sound.frameAddress member
  | @unmapped index address machine live takes formed mapping =>
      have current : machine.currentRoot = client.machine.currentRoot :=
        congrArg (· &&& pteAddress) takes.record.cr3
      refine tlb.keep takes.record.cr3 takes.record.bootRoot ?_ ?_
      · exact fun other active => ⟨active.live, active.root.trans current.symm⟩
      · intro other now
        have active : client.Active other := ⟨now.live, now.root.trans current⟩
        refine ⟨active, fun translation cached => ?_, fun _ member => member⟩
        dsimp only [Machine.withTlb] at cached
        rcases eq_or_ne other index with equal | different
        · subst equal
          rw [if_pos active.root, List.mem_filter] at cached
          obtain ⟨cached, elsewhere⟩ := cached
          refine ⟨cached, fun found => ?_⟩
          have kept := congrFun mapping translation.page
          rw [Function.update_of_ne (of_decide_eq_true elsewhere)] at kept
          exact kept.trans found
        · have inactive : (client.spaces index).root ≠ client.machine.currentRoot := by
            intro same
            exact different (sound.eq_of_root now.live (active.root.trans same.symm))
          rw [if_neg inactive] at cached
          refine ⟨cached, fun found => ?_⟩
          have kept := sound.mapping_takes now.live takes
            (fun table theirs mine => different (sound.apart theirs mine))
            fun table member => sound.frameAddress member
          exact (congrFun kept translation.page).trans found
  | switched space =>
      refine ⟨tlb.boot, ?_, fun _ _ _ cached => absurd cached List.not_mem_nil⟩
      cases space with
      | none =>
          refine Or.inr ?_
          have same : client.machine.bootRoot &&& pteAddress = start.currentRoot := by
            rw [tlb.boot, onBoot.boot, Machine.currentRoot, BitVec.and_assoc, BitVec.and_self]
          change ¬start.IsFree (frameOf (client.machine.bootRoot &&& pteAddress).toNat)
          rw [same]
          exact onBoot.kept
      | some index =>
          rcases eq_or_ne (client.spaces index).root 0 with dead | live
          · refine Or.inr fun free => ?_
            change start.IsFree (frameOf ((client.spaces index).root &&& pteAddress).toNat) at free
            rw [dead] at free
            have reserved := started.reserved 0 free.1 (Or.inr rfl)
            exact absurd (PageState.byte_injective (free.2.symm.trans reserved)) (by decide)
          · obtain ⟨_, formed⟩ := sound.ready.formed live
            have root := (sound.frameAddress formed.rootOwned).and_pteAddress
            exact Or.inl ⟨index, live, root.symm⟩
  | @destroyed index machine live inactive returns =>
      have dead : ¬client.Active index := fun active => inactive active.root
      apply tlb.space returns.record
      · exact fun active => absurd active dead
      · exact fun _ _ active => absurd active dead
      · exact fun _ alive => absurd rfl alive
      · exact fun other _ live' => sound.mapping_returns live' returns
  | allocated output free =>
      have takes := Machine.Takes.allocate ready.toPagesWellFormed free
      apply tlb.machine takes.record.cr3 takes.record.bootRoot takes.tlb
      exact fun index live => sound.mapping_takes live takes (by simp) (by simp)
  | freed outstanding =>
      have returns := Machine.Returns.release ready.toPagesWellFormed outstanding
      apply tlb.machine returns.record.cr3 returns.record.bootRoot returns.tlb
      exact fun index live => sound.mapping_returns live returns
  | stored address byte =>
      refine TlbSound.machine tlb rfl rfl rfl ?_
      intro index live
      apply sound.mapping_congr live
      intro table member slot inside
      apply (sound.frameAddress member).entry_congr inside
      intro other place
      apply Memory.store_of_ne
      intro same
      exact permits.2 index ⟨table, member, same ▸ place.symm⟩
  | cached address =>
      have same (index : ι)
          : ({ client with machine := client.machine.cached address } : SpacesClient ι).Active index
            ↔ client.Active index :=
        ⟨fun active => ⟨active.live, active.root⟩, fun active => ⟨active.live, active.root⟩⟩
      refine ⟨tlb.boot, ?_, ?_⟩
      · exact tlb.anchored.imp_left fun found => found.imp fun index => (same index).mpr
      intro index now translation member
      have active := (same index).mp now
      obtain ⟨_, formed⟩ := sound.ready.formed active.live
      rcases List.mem_append.mp member with new | old
      · exact formed.translation_spec ready active.root (Option.mem_toList.mp new)
      · exact tlb.current index active translation old

end TlbSound

/-- Every run keeps the cached translations right. Witness: induction on the run. -/
theorem SpacesReached.tlbSound (ready : start.Ready) (onBoot : start.OnBootRoot)
    (reached : SpacesReached start audit client)
    : TlbSound start client := by
  induction reached with
  | start => exact ⟨rfl, Or.inr onBoot.kept, fun _ active => absurd rfl active.live⟩
  | step request reached permits served ih =>
      have sound := reached.sound ready
      obtain ⟨_, _, served', stepped⟩ := sound.ready.serve (fun _ => sound.owned) request permits
      cases served'.symm.trans served
      exact ih.step sound ready.toPagesWellFormed onBoot permits stepped

/-- The active space keeps its tables in every step. -/
theorem SpacesStep.keepsTables {request : SpacesRequest ι} {reply : SpacesReply}
    {client' : SpacesClient ι} (stepped : SpacesStep client request reply client') {index : ι}
    (active : client.Active index) {table : U64} (member : table ∈ (client.spaces index).tables)
    : table ∈ (client'.spaces index).tables := by
  have update {other : ι} {space : AddressSpace}
      (mine : index = other → table ∈ space.tables)
      : table ∈ (Function.update client.spaces other space index).tables := by
    rcases eq_or_ne index other with same | different
    · rw [same, Function.update_self]
      exact mine same
    · rw [Function.update_of_ne different]
      exact member
  cases stepped with
  | refused | allocRefused | switched | allocated | freed | stored | cached => exact member
  | unmapped => exact member
  | created other unused takes formed =>
      refine update fun same => absurd ?_ active.live
      rw [same, unused]
      rfl
  | mapped other live takes root tables formed kept =>
      refine update fun same => ?_
      rw [tables]
      exact List.mem_append_left _ (same ▸ member)
  | destroyed other live inactive returns =>
      exact update fun same => absurd (same ▸ active.root) inactive

/-- In every run over any number of spaces, with the processor caching at any time, every
cached translation of the active space is what `vm_lookup` returns, and the table frames that
it was read through are allocated and stay so in the next step: none was freed since.
-/
theorem no_stale_translation (ready : start.Ready) (onBoot : start.OnBootRoot)
    (reached : SpacesReached start audit client) {index : ι} (active : client.Active index)
    {translation : Translation} (cached : translation ∈ client.machine.tlb)
    : (∀ address physical flags,
        address.toNat / pageSize = translation.page
        → client.machine.vmLookup (some (client.spaces index)) address physical flags
          = (true, translation.frame + BitVec.ofNat 64 (address.toNat % pageSize),
              translation.flags))
      ∧ translation.page < lowerPages
      ∧ ∀ table ∈ translation.through,
          client.machine.Outstanding table
          ∧ ∀ request reply client',
              SpacesPermits audit client request
              → spacesRequest request client = .ok (reply, client')
              → client'.machine.Outstanding table := by
  have sound := reached.sound ready
  obtain ⟨found, through⟩ :=
    (reached.tlbSound ready onBoot).current index active translation cached
  obtain ⟨_, formed⟩ := sound.ready.formed active.live
  refine ⟨?_, ?_, ?_⟩
  · intro address physical flags page
    rw [formed.vmLookup_eq sound.conserves.ready, page, found]
    rfl
  · by_contra beyond
    rw [Machine.mapping, if_neg beyond] at found
    cases found
  · intro table member
    refine ⟨sound.outstanding (through table member), ?_⟩
    intro request reply client' permits served
    obtain ⟨_, _, served', stepped⟩ := sound.ready.serve (fun _ => sound.owned) request permits
    cases served'.symm.trans served
    exact (sound.step permits stepped).outstanding
      (stepped.keepsTables active (through table member))

end Invariant

/-- Where the map of the active space has a page, the processor can cache it. -/
theorem Machine.SpaceFormed.translation_isSome {machine : Machine} {space : AddressSpace}
    {paths : Finset (List Nat)} (formed : machine.SpaceFormed space paths) (ready : machine.Ready)
    (active : space.root = machine.currentRoot) {address : U64} {entry : U64 × U32}
    (mapped : machine.mapping space.root (address.toNat / pageSize) = some entry)
    : (machine.translation address).isSome := by
  rw [formed.mapping_cpu ready] at mapped
  split at mapped
  · next walked =>
      obtain ⟨_, low, four, present⟩ := walked
      rw [active] at four present
      unfold Machine.translation
      dsimp only
      rw [if_pos ⟨low, by omega, present⟩]
      rfl
  · cases mapped

/-- A space is created, mapped into and activated, and the processor caches its page. -/
theorem no_stale_translation_on_sample
    : ∃ (start : Machine) (audit : Audit (Fin 2)) (client : SpacesClient (Fin 2))
        (translation : Translation),
        SpacesReached start audit client
        ∧ client.Active 0
        ∧ translation ∈ client.machine.tlb
        ∧ ∀ table ∈ translation.through, client.machine.Outstanding table := by
  obtain ⟨start, _, client, root, frame, initialised, reached, spaces, formed, empty, outstanding, count⟩ :=
    sample_space
  have ready := initialised.ready (by decide)
  have boot : start.bootRoot = 0 := by rw [initialised.record, sampleMachine]
  have bootRoot : start.currentRoot = 0 := by
    rw [initialised.record]
    exact BitVec.zero_and
  have onBoot : start.OnBootRoot := by
    refine ⟨boot.trans bootRoot.symm, fun free => ?_⟩
    rw [bootRoot] at free
    exact ((initialised.free _).mp free).2.1 rfl
  have ready₁ := (reached.sound ready).ready.ready
  have admits : client.machine.MapAdmits ⟨root, [root]⟩ 0x400000 frame 6 := by
    refine ⟨by decide, by decide, by decide, outstanding, by decide, ?_⟩
    exact congrFun empty _
  -- the page is mapped, the space activated and the page cached
  obtain ⟨space, mapped, paths, result, takes₂, same₂, formed₂, mapping⟩ :=
    formed.vmMap_fresh ready₁ admits (by omega)
  have mine : client.spaces 0 = ⟨root, [root]⟩ := by
    rw [spaces]
    exact Function.update_self ..
  rw [← mine] at result
  have reached₂ := reached.step (.map (some 0) 0x400000 frame 6) trivial
    (withSpace_ok (fun space => vmMap space 0x400000 frame 6) result)
  have ready₂ := takes₂.ready ready₁
  have frameRoot := (formed₂.frameAddress ready₂ formed₂.rootOwned).and_pteAddress
  let spaces' : Fin 2 → AddressSpace := Function.update client.spaces 0 space
  have mine' : spaces' 0 = space := Function.update_self ..
  let active : Machine := { mapped with cr3 := (spaces' 0).root, tlb := [] }
  have reached₃ : SpacesReached start _ ⟨active, spaces'⟩ := reached₂.step (.switch (some 0)) trivial rfl
  have reached₄ : SpacesReached start _ ⟨active.cached 0x400000, spaces'⟩ :=
    reached₃.step (.cache 0x400000) trivial rfl
  have current : space.root = active.currentRoot := by
    change space.root = (spaces' 0).root &&& pteAddress
    rw [mine', frameRoot]
  have rooted : SpacesClient.Active ⟨active.cached 0x400000, spaces'⟩ 0 := by
    refine ⟨?_, ?_⟩
    · dsimp only
      rw [mine']
      exact formed₂.root_ne_zero ready₂
    · dsimp only
      rw [mine']
      exact current
  have readyActive : active.Ready := { ready₂ with }
  have formedActive : active.SpaceFormed space paths := { formed₂ with }
  have yields := formedActive.translation_isSome readyActive current (same₂ ▸ mapping)
  obtain ⟨translation, yields⟩ := Option.isSome_iff_exists.mp yields
  have cached : translation ∈ (active.cached 0x400000).tlb :=
    List.mem_append_left _ (Option.mem_toList.mpr yields)
  obtain ⟨_, _, through⟩ := no_stale_translation ready onBoot reached₄ rooted cached
  exact ⟨start, _, _, translation, reached₄, rooted, cached,
    fun table member => (through table member).1⟩

end MiniLinux
