import MiniLinux.Memory.Spaces
import MiniLinux.Memory.VmRuns

/-! The lifecycle of address spaces conserves frames.
In every run each allocated frame is held once, by the clients or as a table of one space;
destroying a space returns exactly the frames that were taken for it.
-/

namespace MiniLinux

open Foundation Foundation.Halting

-----------------------------------------------------------------------------------------
-- Frames that leave and join the free ones
-----------------------------------------------------------------------------------------

/-- The frames of some addresses. -/
def frameNumbers (addresses : List U64) : Finset Nat :=
  (addresses.map fun address => frameOf address.toNat).toFinset

@[simp] theorem mem_frameNumbers (addresses : List U64) (frame : Nat)
    : frame ∈ frameNumbers addresses ↔ ∃ address ∈ addresses, frameOf address.toNat = frame := by
  simp [frameNumbers]

theorem Machine.Takes.freeFrames {machine machine' : Machine} {taken written : List U64}
    (takes : machine.Takes machine' taken written)
    : machine.freeFrames \ machine'.freeFrames = frameNumbers taken := by
  ext frame
  rw [Finset.mem_sdiff, mem_freeFrames, mem_freeFrames, mem_frameNumbers]
  constructor
  · intro both
    by_contra apart
    apply both.2
    refine (frame_of_state takes.record fun inside => ?_).1.mpr both.1
    exact takes.states frame inside fun address member same => apart ⟨address, member, same⟩
  · intro named
    obtain ⟨address, member, same⟩ := named
    subst same
    exact ⟨(takes.free address member).2,
      fun free => free.not_allocated (takes.allocated address member)⟩

theorem Machine.Returns.freeFrames {machine machine' : Machine} {returned : List U64}
    (returns : machine.Returns machine' returned)
    : machine'.freeFrames = machine.freeFrames ∪ frameNumbers returned := by
  ext frame
  rw [Finset.mem_union, mem_freeFrames, mem_freeFrames, mem_frameNumbers]
  constructor
  · intro free
    by_cases named : ∃ address ∈ returned, frameOf address.toNat = frame
    · exact Or.inr named
    · refine Or.inl ((frame_of_state returns.record fun inside => ?_).1.mp free)
      exact returns.states frame inside fun address member same => named ⟨address, member, same⟩
  · intro either
    rcases either with free | ⟨address, member, same⟩
    · exact returns.isFree free
    · exact same ▸ returns.free address member

/-- The frames allocated since the start are divided among the holders; no other frame has
changed its state.
-/
structure Machine.Conserves {κ : Type*} (start machine : Machine) (holdings : κ → List U64)
    : Prop where
  ready : machine.Ready
  frames : machine.frames = start.frames
  divided
    : Partitioned
        (fun address => machine.Outstanding address ∧ start.IsFree (frameOf address.toNat))
        holdings
  states
    : ∀ frame < start.frames,
        machine.stateOf frame = start.stateOf frame
        ∨ (start.IsFree frame ∧ machine.IsAllocated frame)

namespace Machine.Conserves

variable {κ : Type*} {start machine machine' : Machine} {holdings holdings' : κ → List U64}

theorem held (conserves : start.Conserves machine holdings) (holder : κ) {address : U64}
    (member : address ∈ holdings holder)
    : machine.Outstanding address ∧ start.IsFree (frameOf address.toNat) :=
  conserves.divided.out_of_mem member

/-- What is free now was free at the start. -/
theorem startFree (conserves : start.Conserves machine holdings) {frame : Nat}
    (free : machine.IsFree frame)
    : start.IsFree frame := by
  have inside : frame < start.frames := conserves.frames ▸ free.1
  rcases conserves.states frame inside with same | ⟨_, allocated⟩
  · exact ⟨inside, same ▸ free.2⟩
  · exact absurd allocated free.not_allocated

/-- One holder takes fresh frames. -/
theorem takes (conserves : start.Conserves machine holdings) {taken written : List U64}
    (takes : machine.Takes machine' taken written) (holder : κ)
    (others : ∀ other, other ≠ holder → holdings' other = holdings other)
    (mine : (holdings' holder).Perm (holdings holder ++ taken))
    : start.Conserves machine' holdings' where
  ready := takes.ready conserves.ready
  frames := takes.record.frames.trans conserves.frames
  divided := by
    have member (address : U64)
        : address ∈ holdings' holder ↔ address ∈ holdings holder ∨ address ∈ taken :=
      mine.mem_iff.trans List.mem_append
    have unheld : ∀ address ∈ taken, ¬machine.Outstanding address := fun address new held =>
      (takes.free address new).2.not_allocated held.2
    apply conserves.divided.change others
    · refine mine.nodup_iff.mpr (List.nodup_append.mpr
        ⟨conserves.divided.distinct holder, takes.distinct, ?_⟩)
      intro address old address' new same
      exact unheld address' new (same ▸ (conserves.held holder old).1)
    · intro address new
      rcases (member address).mp new with old | new
      · exact Or.inl old
      · exact Or.inr fun out => unheld address new out.1
    · intro address
      rw [takes.outstanding_iff, member]
      constructor
      · intro both
        obtain ⟨new | old, free⟩ := both
        · exact Or.inl (Or.inr new)
        · by_cases mine : address ∈ holdings holder
          · exact Or.inl (Or.inl mine)
          · exact Or.inr ⟨⟨old, free⟩, mine⟩
      · intro either
        rcases either with (old | new) | ⟨out, _⟩
        · exact ⟨Or.inr (conserves.held holder old).1, (conserves.held holder old).2⟩
        · exact ⟨Or.inl new, conserves.startFree (takes.free address new).2⟩
        · exact ⟨Or.inr out.1, out.2⟩
  states frame inside := by
    by_cases named : ∃ address ∈ taken, frameOf address.toNat = frame
    · obtain ⟨address, member, same⟩ := named
      subst same
      exact Or.inr ⟨conserves.startFree (takes.free address member).2, takes.allocated address member⟩
    · have same := takes.states frame (conserves.frames.symm ▸ inside)
        fun address member same => named ⟨address, member, same⟩
      rw [same]
      exact (conserves.states frame inside).imp_right fun both => ⟨both.1, takes.isAllocated both.2⟩

/-- One holder returns some of its frames. -/
theorem returns (conserves : start.Conserves machine holdings) {returned : List U64}
    (returns : machine.Returns machine' returned) (holder : κ)
    (others : ∀ other, other ≠ holder → holdings' other = holdings other)
    (mine : (holdings holder).Perm (holdings' holder ++ returned))
    : start.Conserves machine' holdings' where
  ready := returns.ready conserves.ready
  frames := returns.record.frames.trans conserves.frames
  divided := by
    have member (address : U64)
        : address ∈ holdings holder ↔ address ∈ holdings' holder ∨ address ∈ returned :=
      mine.mem_iff.trans List.mem_append
    have given : ∀ address ∈ returned, address ∈ holdings holder := fun address gone =>
      (member address).mpr (Or.inr gone)
    obtain ⟨distinct, _, apart⟩ :=
      List.nodup_append.mp (mine.nodup_iff.mp (conserves.divided.distinct holder))
    have aligned : ∀ address ∈ returned, address.toNat % pageSize = 0 := fun address gone =>
      (conserves.held holder (given address gone)).1.1
    apply conserves.divided.change others distinct
    · exact fun address kept => Or.inl ((member address).mpr (Or.inl kept))
    · intro address
      rw [returns.outstanding_iff aligned, member, not_or]
      constructor
      · intro both
        obtain ⟨⟨out, kept⟩, free⟩ := both
        by_cases mine : address ∈ holdings' holder
        · exact Or.inl mine
        · exact Or.inr ⟨⟨out, free⟩, mine, kept⟩
      · intro either
        rcases either with kept | ⟨⟨out, free⟩, _, kept⟩
        · have held := conserves.held holder ((member address).mpr (Or.inl kept))
          exact ⟨⟨held.1, fun gone => apart address kept address gone rfl⟩, held.2⟩
        · exact ⟨⟨out, kept⟩, free⟩
  states frame inside := by
    have given : ∀ address ∈ returned, address ∈ holdings holder := fun address gone =>
      mine.mem_iff.mpr (List.mem_append_right _ gone)
    by_cases named : ∃ address ∈ returned, frameOf address.toNat = frame
    · obtain ⟨address, member, same⟩ := named
      subst same
      have free := (conserves.held holder (given address member)).2
      exact Or.inl ((returns.free address member).2.trans free.2.symm)
    · have apart : ∀ address ∈ returned, frameOf address.toNat ≠ frame := fun address member same =>
        named ⟨address, member, same⟩
      rw [returns.states frame (conserves.frames.symm ▸ inside) apart]
      exact (conserves.states frame inside).imp_right fun both =>
        ⟨both.1, returns.isAllocated both.2 apart⟩

/-- Changes elsewhere. -/
theorem congr (conserves : start.Conserves machine holdings) (ready : machine'.Ready)
    (frames : machine'.frames = machine.frames)
    (states : ∀ frame < machine.frames, machine'.stateOf frame = machine.stateOf frame)
    (lists : ∀ holder, holdings' holder = holdings holder)
    : start.Conserves machine' holdings' := by
  have allocated (frame : Nat) : machine'.IsAllocated frame ↔ machine.IsAllocated frame := by
    rw [Machine.IsAllocated, Machine.IsAllocated, frames]
    exact and_congr_right fun inside => by rw [states frame inside]
  refine ⟨ready, frames.trans conserves.frames, conserves.divided.congr ?_ lists, ?_⟩
  · intro address
    rw [Machine.Outstanding, Machine.Outstanding, allocated]
  · intro frame inside
    rw [states frame (conserves.frames.symm ▸ inside), allocated]
    exact conserves.states frame inside

/-- When nothing is held any more, everything is as at the start. -/
theorem restored (conserves : start.Conserves machine holdings) (started : start.PagesWellFormed)
    (nothing : ∀ holder, holdings holder = [])
    : (∀ frame < start.frames, machine.stateOf frame = start.stateOf frame)
      ∧ machine.pages.freeCount = start.pages.freeCount := by
  have states : ∀ frame < start.frames, machine.stateOf frame = start.stateOf frame := by
    intro frame inside
    rcases conserves.states frame inside with same | ⟨free, allocated⟩
    · exact same
    · have inside' : frame < machine.frames := conserves.frames.symm ▸ inside
      have number := conserves.ready.frameOf_frameAddress inside'
      have aligned : (frameAddress frame).toNat % pageSize = 0 := by
        rw [conserves.ready.frameAddress_toNat inside', Nat.mul_mod_left]
      have out : machine.Outstanding (frameAddress frame)
          ∧ start.IsFree (frameOf (frameAddress frame).toNat) := by
        rw [Machine.Outstanding, number]
        exact ⟨⟨aligned, allocated⟩, free⟩
      obtain ⟨holder, member⟩ := (conserves.divided.accounted _).mp out
      rw [nothing holder] at member
      exact absurd member List.not_mem_nil
  have free : machine.freeFrames = start.freeFrames := by
    ext frame
    rw [mem_freeFrames, mem_freeFrames, Machine.IsFree, Machine.IsFree, conserves.frames]
    exact and_congr_right fun inside => by rw [states frame inside]
  refine ⟨states, BitVec.eq_of_toNat_eq ?_⟩
  rw [conserves.ready.counted, started.counted, free]

end Machine.Conserves

-----------------------------------------------------------------------------------------
-- The invariant
-----------------------------------------------------------------------------------------

section Invariant

variable {ι : Type} {start : Machine} {audit : Audit ι} {client : SpacesClient ι}

/-- Who holds which frames: the clients, and each space. -/
noncomputable def Audit.holdings (audit : Audit ι) (spaces : ι → AddressSpace) : Option ι → List U64
  | none => audit.owned.toList
  | some index => (spaces index).tables

/-- The state of a run agrees with its audit. -/
structure SpacesSound (start : Machine) (audit : Audit ι) (client : SpacesClient ι) : Prop where
  conserves : start.Conserves client.machine (audit.holdings client.spaces)
  spaces
    : ∀ index,
        client.spaces index = .zero
        ∨ ∃ paths, client.machine.SpaceFormed (client.spaces index) paths
  counted : ∀ index, audit.tables index = frameNumbers (client.spaces index).tables

namespace SpacesSound

theorem ready (sound : SpacesSound start audit client) : SpacesReady client :=
  ⟨sound.conserves.ready, sound.spaces⟩

theorem owned (sound : SpacesSound start audit client) {address : U64}
    (member : address ∈ audit.owned)
    : client.machine.Outstanding address :=
  (sound.conserves.held none (Finset.mem_toList.mpr member)).1

theorem outstanding (sound : SpacesSound start audit client) {index : ι} {table : U64}
    (member : table ∈ (client.spaces index).tables)
    : client.machine.Outstanding table :=
  (sound.conserves.held (some index) member).1

/-- Two spaces share no table. -/
theorem apart (sound : SpacesSound start audit client) {index other : ι} {table : U64}
    (left : table ∈ (client.spaces index).tables) (right : table ∈ (client.spaces other).tables)
    : index = other :=
  Option.some.inj (sound.conserves.divided.apart (some index) (some other) table left right)

/-- No table belongs to the clients. -/
theorem unowned (sound : SpacesSound start audit client) {index : ι} {table : U64}
    (member : table ∈ (client.spaces index).tables)
    : table ∉ audit.owned := by
  intro owned
  have same := sound.conserves.divided.apart (some index) none table member
    (Finset.mem_toList.mpr owned)
  cases same

/-- What takes frames and writes at most the tables of one space leaves the others formed. -/
theorem kept (sound : SpacesSound start audit client) {machine : Machine} {taken written : List U64}
    (takes : client.machine.Takes machine taken written) {other : ι}
    (elsewhere : ∀ table ∈ written, table ∉ (client.spaces other).tables)
    (aligned : ∀ table ∈ written, FrameAddress table)
    : client.spaces other = .zero
      ∨ ∃ paths, machine.SpaceFormed (client.spaces other) paths := by
  rcases sound.spaces other with unused | ⟨paths, formed⟩
  · exact Or.inl unused
  · refine Or.inr ⟨paths, (takes.spaceFormed sound.conserves.ready formed ?_ aligned).1⟩
    exact fun table member new => elsewhere table new member

theorem frameAddress (sound : SpacesSound start audit client) {index : ι} {table : U64}
    (member : table ∈ (client.spaces index).tables)
    : FrameAddress table :=
  sound.conserves.ready.frameAddress (sound.outstanding member)

/-- Returning frames that are no tables of a space leaves it formed. -/
theorem keptReturns (sound : SpacesSound start audit client) {machine : Machine}
    {returned : List U64} (returns : client.machine.Returns machine returned)
    (aligned : ∀ address ∈ returned, address.toNat % pageSize = 0) {other : ι}
    (elsewhere : ∀ table ∈ (client.spaces other).tables, table ∉ returned)
    : client.spaces other = .zero
      ∨ ∃ paths, machine.SpaceFormed (client.spaces other) paths := by
  rcases sound.spaces other with unused | ⟨paths, formed⟩
  · exact Or.inl unused
  · refine Or.inr ⟨paths, formed.congr ?_ ?_⟩
    · intro table member
      exact (returns.outstanding_iff aligned table).mpr
        ⟨sound.outstanding member, elsewhere table member⟩
    · intro table member slot inside
      rw [returns.entry sound.conserves.ready (sound.outstanding member) inside]
      exact .refl _

/-- Changes outside the tables and the states. -/
theorem congr (sound : SpacesSound start audit client) {machine : Machine} (ready : machine.Ready)
    (frames : machine.frames = client.machine.frames)
    (states
      : ∀ frame < client.machine.frames,
          machine.stateOf frame = client.machine.stateOf frame)
    (entries
      : ∀ index, ∀ table ∈ (client.spaces index).tables, ∀ slot < 512,
          machine.entry table slot = client.machine.entry table slot)
    : SpacesSound start audit { client with machine := machine } := by
  refine ⟨sound.conserves.congr ready frames states fun _ => rfl, ?_, sound.counted⟩
  intro index
  rcases sound.spaces index with unused | ⟨paths, formed⟩
  · exact Or.inl unused
  · refine Or.inr ⟨paths, formed.congr ?_ ?_⟩
    · intro table member
      obtain ⟨aligned, inside, allocated⟩ := formed.outstanding table member
      exact ⟨aligned, frames.symm ▸ inside, (states _ inside).trans allocated⟩
    · intro table member slot inside
      rw [entries index table member slot inside]
      exact .refl _

/-- Changes of the processor's registers and cache. -/
theorem registers (sound : SpacesSound start audit client) (cr3 : U64) (tlb : List Translation)
    : SpacesSound start audit
        { client with machine := { client.machine with cr3 := cr3, tlb := tlb } } := by
  obtain ⟨⟨ready, frames, divided, states⟩, spaces, counted⟩ := sound
  refine ⟨⟨{ ready with }, frames, divided, states⟩, fun index => ?_, counted⟩
  rcases spaces index with unused | ⟨paths, formed⟩
  · exact Or.inl unused
  · exact Or.inr ⟨paths, { formed with }⟩

/-- The clients obtain a frame. -/
theorem alloc (sound : SpacesSound start audit client) {frame : Nat}
    (free : client.machine.IsFree frame)
    : SpacesSound start { audit with owned := insert (MiniLinux.frameAddress frame) audit.owned }
        { client with machine := client.machine.allocate frame } := by
  have takes := Machine.Takes.allocate sound.conserves.ready.toPagesWellFormed free
  have fresh : MiniLinux.frameAddress frame ∉ audit.owned := by
    intro member
    have free' := (takes.free _ (List.mem_singleton_self _)).2
    exact free'.not_allocated (sound.owned member).2
  refine ⟨?_, ?_, sound.counted⟩
  · refine sound.conserves.takes takes none ?_ ?_
    · intro other different
      cases other with
      | none => exact absurd rfl different
      | some other => rfl
    · exact (Finset.toList_insert fresh).trans
        (List.perm_append_singleton _ _).symm
  · exact fun index => sound.kept takes (by simp) (by simp)

/-- The clients free a frame that they own. -/
theorem free (sound : SpacesSound start audit client) {address : U64}
    (member : address ∈ audit.owned)
    : SpacesSound start { audit with owned := audit.owned.erase address }
        { client with machine := client.machine.release (frameOf address.toNat) } := by
  have returns := Machine.Returns.release sound.conserves.ready.toPagesWellFormed
    (sound.owned member)
  refine ⟨?_, ?_, sound.counted⟩
  · refine sound.conserves.returns returns none ?_ ?_
    · intro other different
      cases other with
      | none => exact absurd rfl different
      | some other => rfl
    · have split := Finset.toList_insert (Finset.notMem_erase address audit.owned)
      rw [Finset.insert_erase member] at split
      exact split.trans (List.perm_append_singleton _ _).symm
  · intro index
    apply sound.keptReturns returns
    · intro other single
      exact List.mem_singleton.mp single ▸ (sound.owned member).1
    · intro table theirs mine
      exact sound.unowned theirs (List.mem_singleton.mp mine ▸ member)

/-- A store outside tables and states. -/
theorem store (sound : SpacesSound start audit client) {address : Nat} (byte : Byte)
    (usable : ¬client.machine.IsMetadata (frameOf address))
    (outside : ∀ index, ¬InFrames (client.spaces index).tables address)
    : SpacesSound start audit
        { client with machine :=
          { client.machine with memory := client.machine.memory.store address byte } } := by
  have ready := sound.conserves.ready
  have metadata : ∀ other, client.machine.IsMetadata (frameOf other)
      → client.machine.memory.store address byte other = client.machine.memory other := by
    intro other inside
    apply Memory.store_of_ne
    intro same
    exact usable (same ▸ inside)
  have wellFormed := ready.toPagesWellFormed.congr metadata
  apply sound.congr (ready.of_record wellFormed rfl) rfl
  · exact fun frame inside => ready.toPagesWellFormed.stateOf_congr metadata inside
  · intro index table member slot inside
    apply (sound.frameAddress member).entry_congr inside
    intro other place
    apply Memory.store_of_ne
    intro same
    exact outside index ⟨table, member, same ▸ place.symm⟩

variable [DecidableEq ι]

/-- A space takes frames for its tables. -/
theorem grow (sound : SpacesSound start audit client) {index : ι} {machine : Machine}
    {taken : List U64} {space : AddressSpace}
    (takes : client.machine.Takes machine taken (client.spaces index).tables)
    (tables : space.tables = (client.spaces index).tables ++ taken)
    (formed : ∃ paths, machine.SpaceFormed space paths)
    : SpacesSound start
        { audit with
          tables :=
            Function.update audit.tables index
              (audit.tables index ∪ (client.machine.freeFrames \ machine.freeFrames)) }
        ⟨machine, Function.update client.spaces index space⟩ := by
  refine ⟨?_, ?_, ?_⟩
  · refine sound.conserves.takes takes (some index) ?_ ?_
    · intro other different
      cases other with
      | none => rfl
      | some other =>
          have apart : other ≠ index := fun same => different (congrArg some same)
          exact congrArg AddressSpace.tables (Function.update_of_ne apart _ _)
    · have mine : audit.holdings (Function.update client.spaces index space) (some index)
          = (client.spaces index).tables ++ taken := by
        rw [Audit.holdings, Function.update_self, tables]
      exact mine ▸ .refl _
  · intro other
    rcases eq_or_ne other index with same | different
    · subst same
      dsimp only
      rw [Function.update_self]
      exact Or.inr formed
    · dsimp only
      rw [Function.update_of_ne different]
      refine sound.kept takes ?_ fun table member => sound.frameAddress member
      exact fun table mine theirs => different (sound.apart theirs mine)
  · intro other
    rcases eq_or_ne other index with same | different
    · subst same
      dsimp only
      rw [Function.update_self, Function.update_self, tables, takes.freeFrames, sound.counted]
      simp [frameNumbers]
    · dsimp only
      rw [Function.update_of_ne different, Function.update_of_ne different]
      exact sound.counted other

/-- A destroyed space returns its tables. -/
theorem shrink (sound : SpacesSound start audit client) {index : ι} {machine : Machine}
    (returns : client.machine.Returns machine (client.spaces index).tables)
    : SpacesSound start { audit with tables := Function.update audit.tables index ∅ }
        ⟨machine, Function.update client.spaces index .zero⟩ := by
  have aligned : ∀ table ∈ (client.spaces index).tables, table.toNat % pageSize = 0 :=
    fun table member => (sound.outstanding member).1
  refine ⟨?_, ?_, ?_⟩
  · refine sound.conserves.returns returns (some index) ?_ ?_
    · intro other different
      cases other with
      | none => rfl
      | some other =>
          have apart : other ≠ index := fun same => different (congrArg some same)
          exact congrArg AddressSpace.tables (Function.update_of_ne apart _ _)
    · refine List.Perm.of_eq ?_
      change _ = (Function.update client.spaces index .zero index).tables ++ _
      rw [Function.update_self]
      rfl
  · intro other
    rcases eq_or_ne other index with same | different
    · subst same
      dsimp only
      rw [Function.update_self]
      exact Or.inl rfl
    · dsimp only
      rw [Function.update_of_ne different]
      exact sound.keptReturns returns aligned fun table theirs mine =>
        different (sound.apart theirs mine)
  · intro other
    rcases eq_or_ne other index with same | different
    · subst same
      dsimp only
      rw [Function.update_self, Function.update_self]
      rfl
    · dsimp only
      rw [Function.update_of_ne different, Function.update_of_ne different]
      exact sound.counted other

/-- A request that changes nothing leaves the audit alone. -/
theorem advance_refused (audit : Audit ι) (request : SpacesRequest ι) (machine : Machine)
    : audit.advance request (.verdict false) machine machine = audit := by
  have grown (index : ι)
      : { audit with
          tables :=
            Function.update audit.tables index
              (audit.tables index ∪ (machine.freeFrames \ machine.freeFrames)) } = audit := by
    simp
  cases request with
  | create space =>
      cases space with
      | none => rfl
      | some index => exact grown index
  | map space address physical flags =>
      cases space with
      | none => rfl
      | some index => exact grown index
  | destroy space => cases space <;> rfl
  | unmap | switch | alloc | free | store | cache => rfl

/-- Every step keeps the agreement. -/
theorem step (sound : SpacesSound start audit client) {request : SpacesRequest ι}
    {reply : SpacesReply} {client' : SpacesClient ι}
    (permits : SpacesPermits audit client request)
    (stepped : SpacesStep client request reply client')
    : SpacesSound start (audit.advance request reply client.machine client'.machine) client' := by
  cases stepped with
  | refused => exact (advance_refused audit request client.machine).symm ▸ sound
  | allocRefused => exact sound
  | created index unused takes formed =>
      refine sound.grow (takes.mono _ (by simp)) ?_ ⟨_, formed⟩
      rw [unused]
      rfl
  | mapped index live takes root tables formed kept => exact sound.grow takes tables formed
  | unmapped index live takes formed mapping =>
      have grown := sound.grow takes (List.append_nil _).symm formed
      rw [Function.update_eq_self, takes.freeFrames] at grown
      have same : frameNumbers [] = ∅ := rfl
      rw [same, Finset.union_empty, Function.update_eq_self] at grown
      exact grown.registers _ _
  | switched space => exact sound.registers _ _
  | destroyed index live inactive returns => exact sound.shrink returns
  | allocated output free => exact sound.alloc free
  | freed outstanding => exact sound.free permits
  | stored address byte => exact sound.store byte permits.1 permits.2
  | cached address => exact sound.registers _ _

end SpacesSound

/-- Every run keeps the agreement. Witness: induction on the run. -/
theorem SpacesReached.sound [DecidableEq ι] (ready : start.Ready) (reached : SpacesReached start audit client)
    : SpacesSound start audit client := by
  induction reached with
  | start =>
      refine ⟨⟨ready, rfl, ?_, fun _ _ => Or.inl rfl⟩, fun _ => Or.inl rfl, fun _ => rfl⟩
      have nothing : ∀ address, ¬(start.Outstanding address ∧ start.IsFree (frameOf address.toNat)) :=
        fun address both => both.2.not_allocated both.1.2
      refine (Partitioned.empty nothing).congr (fun _ => Iff.rfl) ?_
      intro owner
      cases owner with
      | none => exact Finset.toList_empty
      | some index => rfl
  | step request reached permits served ih =>
      obtain ⟨_, _, served', stepped⟩ := ih.ready.serve (fun _ => ih.owned) request permits
      cases served'.symm.trans served
      exact ih.step permits stepped

/-- What destroying a space that is not refused leaves behind. -/
structure Destroys (audit : Audit ι) (client : SpacesClient ι) (index : ι) (machine : Machine)
    : Prop where
  joined : machine.freeFrames = client.machine.freeFrames ∪ audit.tables index
  apart : Disjoint client.machine.freeFrames (audit.tables index)
  states
    : ∀ frame < client.machine.frames,
        frame ∉ audit.tables index → machine.stateOf frame = client.machine.stateOf frame
  counted
    : machine.pages.freeCount.toNat
      = client.machine.pages.freeCount.toNat + (audit.tables index).card
  owned
    : ∀ address ∈ audit.owned,
        frameOf address.toNat ∉ audit.tables index ∧ machine.Outstanding address
  others
    : ∀ other, other ≠ index → ∀ table ∈ (client.spaces other).tables, machine.Outstanding table

/-- The destroyed tables are exactly the frames that left the free ones for the space. -/
theorem SpacesSound.destroys (sound : SpacesSound start audit client) {index : ι}
    {machine : Machine} (returns : client.machine.Returns machine (client.spaces index).tables)
    : Destroys audit client index machine := by
  have aligned : ∀ table ∈ (client.spaces index).tables, table.toNat % pageSize = 0 :=
    fun table member => (sound.outstanding member).1
  have named {address : U64} (outstanding : client.machine.Outstanding address)
      (member : frameOf address.toNat ∈ audit.tables index)
      : address ∈ (client.spaces index).tables := by
    rw [sound.counted, mem_frameNumbers] at member
    obtain ⟨table, mine, same⟩ := member
    rw [← frameAddress_frameOf outstanding.1, ← same, frameAddress_frameOf (aligned table mine)]
    exact mine
  have disjoint : Disjoint client.machine.freeFrames (audit.tables index) := by
    rw [Finset.disjoint_left, sound.counted]
    intro frame free member
    obtain ⟨table, mine, same⟩ := (mem_frameNumbers _ _).mp member
    exact ((client.machine.mem_freeFrames _).mp free).not_allocated (same ▸ (sound.outstanding mine).2)
  have joined : machine.freeFrames = client.machine.freeFrames ∪ audit.tables index := by
    rw [returns.freeFrames, sound.counted]
  refine ⟨joined, disjoint, ?_, ?_, ?_, ?_⟩
  · intro frame inside outside
    apply returns.states frame inside
    intro table mine same
    rw [sound.counted, mem_frameNumbers] at outside
    exact outside ⟨table, mine, same⟩
  · rw [returns.wellFormed.counted, joined, Finset.card_union_of_disjoint disjoint,
      sound.conserves.ready.counted]
  · intro address member
    have outstanding := sound.owned member
    have unlisted : address ∉ (client.spaces index).tables := fun mine =>
      sound.unowned mine member
    exact ⟨fun inside => unlisted (named outstanding inside),
      (returns.outstanding_iff aligned address).mpr ⟨outstanding, unlisted⟩⟩
  · intro other different table theirs
    exact (returns.outstanding_iff aligned table).mpr
      ⟨sound.outstanding theirs, fun mine => different (sound.apart theirs mine)⟩

/-- In every run over any number of spaces, every permitted request is served. `vm_destroy`
refuses exactly a null pointer, a space without root and the active space; otherwise it frees
exactly the frames that were allocated for the space, and the record can be created again at
once. A `vm_create` that fails changes nothing. With all spaces destroyed and all frames of
the clients freed, the allocator is as it was.
-/
theorem address_spaces_conserve_frames [DecidableEq ι] (ready : start.Ready)
    (reached : SpacesReached start audit client)
    : (∀ request,
        SpacesPermits audit client request
        → ∃ reply client', spacesRequest request client = .ok (reply, client'))
      ∧ (∀ space client',
          spacesRequest (.create space) client = .ok (.verdict false, client') → client' = client)
      ∧ (∀ space,
          client.KeepsSpace space
          → spacesRequest (.destroy space) client = .ok (.verdict false, client))
      ∧ (∀ index,
          ¬client.KeepsSpace (some index)
          → ∃ machine client',
              spacesRequest (.destroy (some index)) client = .ok (.verdict true, client')
              ∧ client' = ⟨machine, Function.update client.spaces index .zero⟩
              ∧ Destroys audit client index machine
              ∧ ∃ again, spacesRequest (.create (some index)) client' = .ok (.verdict true, again))
      ∧ ((∀ index, client.spaces index = .zero)
        → audit.owned = ∅
        → (∀ frame < start.frames, client.machine.stateOf frame = start.stateOf frame)
          ∧ client.machine.pages.freeCount = start.pages.freeCount) := by
  have sound := reached.sound ready
  refine ⟨?_, ?_, fun space refused => SpacesReady.destroy_refused refused, ?_, ?_⟩
  · intro request permits
    obtain ⟨reply, client', served, _⟩ := sound.ready.serve (fun _ => sound.owned) request permits
    exact ⟨reply, client', served⟩
  · intro space client' failed
    obtain ⟨reply, _, served, stepped⟩ := sound.ready.create space
    cases served.symm.trans failed
    cases stepped
    rfl
  · intro index accepted
    obtain ⟨machine, served, returns⟩ := sound.ready.destroy_ok accepted
    have destroys := sound.destroys returns
    refine ⟨machine, _, served, rfl, destroys, ?_⟩
    have zero : (⟨machine, Function.update client.spaces index .zero⟩ : SpacesClient ι).spaces index
        = .zero := Function.update_self ..
    obtain ⟨live, _⟩ := not_or.mp accepted
    obtain ⟨paths, formed⟩ := sound.ready.formed live
    -- the freed root alone makes a frame available
    have available : machine.pages.freeCount ≠ 0 := by
      intro exhausted
      have count := destroys.counted
      have root : frameOf (client.spaces index).root.toNat ∈ audit.tables index := by
        rw [sound.counted, mem_frameNumbers]
        exact ⟨_, formed.rootOwned, rfl⟩
      have positive := Finset.card_pos.mpr ⟨_, root⟩
      rw [exhausted] at count
      change 0 = _ at count
      omega
    obtain ⟨root, machine', created, _⟩ :=
      vmCreate_ok (returns.ready sound.conserves.ready) available
    rw [← zero] at created
    exact ⟨_, withSpace_ok vmCreate created⟩
  · intro destroyed freed
    apply sound.conserves.restored ready.toPagesWellFormed
    intro holder
    cases holder with
    | none => rw [Audit.holdings, freed, Finset.toList_empty]
    | some index => rw [Audit.holdings, destroyed index, AddressSpace.zero]

end Invariant

/-- Two spaces, of which the second is created and then destroyed. -/
theorem address_spaces_conserve_frames_on_sample
    : ∃ (start : Machine) (audit : Audit (Fin 2)) (client : SpacesClient (Fin 2)),
        start.Ready
        ∧ SpacesReached start audit client
        ∧ ∃ reply client',
            spacesRequest (.destroy (some 1)) client = .ok (reply, client') := by
  obtain ⟨start, success⟩ := sample_initialises
  have ready := (pageInit_initialised ⟨rfl, rfl, rfl⟩ (by decide) success).ready (by decide)
  have start' : SpacesReached start ⟨∅, fun _ => ∅⟩ ⟨start, fun _ : Fin 2 => .zero⟩ := .start
  obtain ⟨serves, _⟩ := address_spaces_conserve_frames ready start'
  obtain ⟨reply, client, created⟩ := serves (.create (some 1)) trivial
  have reached := start'.step (.create (some 1)) trivial created
  obtain ⟨serves', _⟩ := address_spaces_conserve_frames ready reached
  obtain ⟨reply', client', destroyed⟩ := serves' (.destroy (some 1)) trivial
  exact ⟨start, _, client, ready, reached, reply', client', destroyed⟩

/-- A fresh space with four free frames can map a page, since a page needs three more tables. -/
theorem Machine.SpaceFormed.vmMap_fresh {machine : Machine} {root address physical : U64}
    {flags : U32} (ready : machine.Ready) (formed : machine.SpaceFormed ⟨root, [root]⟩ {[]})
    (admits : machine.MapAdmits ⟨root, [root]⟩ address physical flags)
    (room : 4 ≤ machine.pages.freeCount.toNat)
    : ∃ space machine' paths,
        vmMap (some ⟨root, [root]⟩) address physical flags machine
          = .ok ((true, some space), machine')
        ∧ machine.Takes machine' (space.tables.tail) [root]
        ∧ space.root = root
        ∧ machine'.SpaceFormed space paths
        ∧ machine'.mapping root (address.toNat / pageSize) = some (physical, flags) := by
  obtain ⟨ok, space, machine', paths, taken, result, takes, same, tables, formed', _, added, done,
    refused⟩ := formed.vmMap_spec ready admits
  have few : taken.length ≤ 3 := by
    have prefixes : paths ⊆ (pagePath (address.toNat / pageSize)).inits.toFinset := by
      intro path member
      rw [List.mem_toFinset, List.mem_inits]
      rcases added path member with empty | within
      · rw [Finset.mem_singleton.mp empty]
        exact List.nil_prefix
      · exact within
    have count := formed'.counted
    have card := (Finset.card_le_card prefixes).trans (List.toFinset_card_le _)
    rw [List.length_inits, pagePath_length] at card
    rw [tables, List.length_append, List.length_singleton] at count
    omega
  have counted := takes.counted
  cases ok with
  | true =>
      refine ⟨space, machine', paths, result, ?_, same, formed', ?_⟩
      · rw [tables]
        exact takes
      · rw [(done rfl).2, Function.update_self]
  | false =>
      rcases (refused rfl).2.2 with full | empty
      · rw [tables, List.length_append, List.length_singleton, vmTableLimit] at full
        omega
      · rw [empty] at counted
        change 0 + _ = _ at counted
        omega

theorem Machine.available {machine : Machine} (positive : 0 < machine.pages.freeCount.toNat)
    : machine.pages.freeCount ≠ 0 := by
  intro exhausted
  rw [exhausted] at positive
  exact absurd positive (by decide)

/-- Two free frames let a space be created and a frame be allocated for a page of it. -/
theorem Machine.Ready.space {start : Machine} (ready : start.Ready)
    (enough : 2 ≤ start.pages.freeCount.toNat)
    : ∃ (audit : Audit (Fin 2)) (client : SpacesClient (Fin 2)) (root frame : U64),
        SpacesReached start audit client
        ∧ client.spaces = Function.update (fun _ => .zero) 0 ⟨root, [root]⟩
        ∧ client.machine.SpaceFormed ⟨root, [root]⟩ {[]}
        ∧ client.machine.mapping root = (fun _ => none)
        ∧ client.machine.Outstanding frame
        ∧ client.machine.pages.freeCount.toNat + 2 = start.pages.freeCount.toNat := by
  obtain ⟨root, made, created, takes, formed, empty, _⟩ :=
    vmCreate_ok ready (Machine.available (by omega))
  have reached₁ := (@SpacesReached.start (Fin 2) _ start).step (.create (some 0)) trivial
    (withSpace_ok vmCreate created)
  have ready₁ := takes.ready ready
  have count₁ := takes.counted
  rw [List.length_singleton] at count₁
  obtain ⟨frame, ⟨_, _, _, free, _⟩, allocated⟩ :=
    ready₁.pageAlloc_ok 0 (Machine.available (by omega))
  have reached₂ := reached₁.step (.alloc (some 0)) trivial (bind_ok (onSpaces_ok allocated) _)
  have takes₂ := Machine.Takes.allocate ready₁.toPagesWellFormed free
  have count₂ := takes₂.counted
  rw [List.length_singleton] at count₂
  obtain ⟨formed₂, same⟩ := takes₂.spaceFormed ready₁ formed (by simp) (by simp)
  have outstanding := (takes₂.outstanding_iff _).mpr (Or.inl (List.mem_singleton_self _))
  refine ⟨_, _, root, _, reached₂, rfl, formed₂, same.trans empty, outstanding, ?_⟩
  change (made.allocate frame).pages.freeCount.toNat + 2 = _
  omega

/-- In the sample a space is created and a frame is allocated for a page of it. -/
theorem sample_space
    : ∃ (start : Machine) (audit : Audit (Fin 2)) (client : SpacesClient (Fin 2)) (root frame : U64),
        sampleMachine.Initialised start sampleEntries 0xffff800000000000
        ∧ SpacesReached start audit client
        ∧ client.spaces = Function.update (fun _ => .zero) 0 ⟨root, [root]⟩
        ∧ client.machine.SpaceFormed ⟨root, [root]⟩ {[]}
        ∧ client.machine.mapping root = (fun _ => none)
        ∧ client.machine.Outstanding frame
        ∧ client.machine.pages.freeCount.toNat = 60 := by
  obtain ⟨start, success⟩ := sample_initialises
  have initialised := pageInit_initialised ⟨rfl, rfl, rfl⟩ (by decide) success
  have count := sample_free initialised
  obtain ⟨audit, client, root, frame, reached, spaces, formed, empty, outstanding, left⟩ :=
    (initialised.ready (by decide)).space (by omega)
  exact ⟨start, audit, client, root, frame, initialised, reached, spaces, formed, empty, outstanding,
    by omega⟩

end MiniLinux
