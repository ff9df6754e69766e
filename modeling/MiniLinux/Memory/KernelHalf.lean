import MiniLinux.Memory.SpacesRuns

/-! The address spaces share the kernel half and nothing else. Every root holds the entries that
the bootloader's root holds there, without the user bit, and work on one space is invisible in
the others.
-/

namespace MiniLinux

open Foundation Foundation.Halting

section KernelHalf

variable {ι : Type} {start : Machine} {audit : Audit ι} {client : SpacesClient ι}

/-- The space that a request works on. -/
def SpacesRequest.space : SpacesRequest ι → Option ι
  | .create space | .map space _ _ _ | .unmap space _ | .destroy space => space
  | _ => none

/-- A request leaves every other space its tables and their entries. -/
theorem SpacesStep.beside [DecidableEq ι] (sound : SpacesSound start audit client)
    {request : SpacesRequest ι} {reply : SpacesReply} {client' : SpacesClient ι}
    (permits : SpacesPermits audit client request)
    (stepped : SpacesStep client request reply client') {other : ι}
    (elsewhere : request.space ≠ some other)
    : client'.spaces other = client.spaces other
      ∧ ∀ table ∈ (client.spaces other).tables, ∀ slot < 512,
          client'.machine.entry table slot = client.machine.entry table slot := by
  have ready := sound.conserves.ready
  have kept {machine : Machine} {taken written : List U64}
      (takes : client.machine.Takes machine taken written)
      (theirs : ∀ table ∈ written, ∃ index, index ≠ other ∧ table ∈ (client.spaces index).tables)
      : ∀ table ∈ (client.spaces other).tables, ∀ slot < 512,
          machine.entry table slot = client.machine.entry table slot := by
    intro table mine slot inside
    refine takes.entry ready (sound.outstanding mine) (fun new => ?_) (fun table new => ?_) inside
    · obtain ⟨index, different, there⟩ := theirs table new
      exact different (sound.apart there mine)
    · obtain ⟨index, _, there⟩ := theirs table new
      exact sound.frameAddress there
  have apart {changed : ι} (named : some changed ≠ some other) : changed ≠ other :=
    fun same => named (congrArg some same)
  cases stepped with
  | refused => exact ⟨rfl, fun _ _ _ _ => rfl⟩
  | allocRefused => exact ⟨rfl, fun _ _ _ _ => rfl⟩
  | created changed unused takes formed upper =>
      exact ⟨Function.update_of_ne (Ne.symm (apart elsewhere)) .., kept takes (by simp)⟩
  | mapped changed live takes root tables formed kept' upper limited =>
      exact ⟨Function.update_of_ne (Ne.symm (apart elsewhere)) ..,
        kept takes fun table there => ⟨changed, apart elsewhere, there⟩⟩
  | unmapped changed live takes formed mapping upper =>
      have entries := kept takes fun table there => ⟨changed, apart elsewhere, there⟩
      exact ⟨rfl, fun table mine slot inside => entries table mine slot inside⟩
  | switched => exact ⟨rfl, fun _ _ _ _ => rfl⟩
  | destroyed changed live inactive returns =>
      exact ⟨Function.update_of_ne (Ne.symm (apart elsewhere)) .., fun table mine slot inside =>
        returns.entry ready (sound.outstanding mine) inside⟩
  | allocated output free =>
      exact ⟨rfl, kept (Machine.Takes.allocate ready.toPagesWellFormed free) (by simp)⟩
  | freed outstanding =>
      exact ⟨rfl, fun table mine slot inside =>
        (Machine.Returns.release ready.toPagesWellFormed outstanding).entry ready
          (sound.outstanding mine) inside⟩
  | stored address byte =>
      refine ⟨rfl, fun table mine slot inside => ?_⟩
      apply (sound.frameAddress mine).entry_congr inside
      intro place same
      apply Memory.store_of_ne
      intro here
      exact permits.2 other ⟨table, mine, here ▸ same.symm⟩
  | cached => exact ⟨rfl, fun _ _ _ _ => rfl⟩

/-- A request leaves every lookup in another space as it was. -/
theorem SpacesStep.lookups [DecidableEq ι] (sound : SpacesSound start audit client)
    {request : SpacesRequest ι} {reply : SpacesReply} {client' : SpacesClient ι}
    (permits : SpacesPermits audit client request)
    (stepped : SpacesStep client request reply client') {other : ι}
    (live : (client.spaces other).root ≠ 0) (elsewhere : request.space ≠ some other)
    (address physical : U64) (flags : U32)
    : client'.machine.vmLookup (some (client'.spaces other)) address physical flags
      = client.machine.vmLookup (some (client.spaces other)) address physical flags := by
  obtain ⟨same, entries⟩ := stepped.beside sound permits elsewhere
  have sound' := sound.step permits stepped
  obtain ⟨paths, formed⟩ := sound.ready.formed live
  obtain ⟨paths', formed'⟩ := sound'.ready.formed (same.symm ▸ live)
  have mapping := formed.mapping_congr fun table mine slot inside => by
    rw [entries table mine slot inside]
    exact SameEntry.refl _
  rw [formed'.vmLookup_eq sound'.ready.ready, formed.vmLookup_eq sound.ready.ready, same, mapping]

/-- Clients do not store to the root that the bootloader left. -/
def SparesBoot (client : SpacesClient ι) : SpacesRequest ι → Prop
  | .store address _ => frameOf address ≠ frameOf client.machine.bootRoot.toNat
  | _ => True

/-- The states of a run in which no client stores to the bootloader's root. -/
inductive SharingReached [DecidableEq ι] (start : Machine) : Audit ι → SpacesClient ι → Prop
  | start : SharingReached start ⟨∅, fun _ => ∅⟩ ⟨start, fun _ => .zero⟩
  | step {audit : Audit ι} {client client' : SpacesClient ι} (request : SpacesRequest ι)
      {reply : SpacesReply} (reached : SharingReached start audit client)
      (permits : SpacesPermits audit client request) (spares : SparesBoot client request)
      (served : spacesRequest request client = .ok (reply, client'))
      : SharingReached start (audit.advance request reply client.machine client'.machine) client'

theorem SharingReached.spaces [DecidableEq ι] (reached : SharingReached start audit client)
    : SpacesReached start audit client := by
  induction reached with
  | start => exact .start
  | step request _ permits _ served ih => exact ih.step request permits served

/-- The bootloader's root is as it was, and every root agrees with it in the kernel half. -/
structure SharesKernelHalf (start : Machine) (client : SpacesClient ι) : Prop where
  boot : client.machine.BootTables
  bootRoot : client.machine.bootRoot = start.bootRoot
  bootEntries
    : ∀ slot < 512,
        client.machine.entry client.machine.bootRoot slot = start.entry start.bootRoot slot
  upper
    : ∀ index,
        (client.spaces index).root ≠ 0
        → ∀ slot,
            256 ≤ slot
            → slot < 512
            → client.machine.entry (client.spaces index).root slot
              = start.entry start.bootRoot slot &&& ~~~pteUser

namespace SharesKernelHalf

/-- Work after which the bootloader's root is the same and each live root is an old one that
kept its kernel half, or a copy.
-/
theorem transfer (shares : SharesKernelHalf start client) {client' : SpacesClient ι}
    (boot
      : client'.machine.BootTables
        ∧ ∀ slot < 512,
            client'.machine.entry client'.machine.bootRoot slot
            = client.machine.entry client.machine.bootRoot slot)
    (bootRoot : client'.machine.bootRoot = client.machine.bootRoot)
    (upper
      : ∀ index,
          (client'.spaces index).root ≠ 0
          → ((client.spaces index).root ≠ 0
              ∧ ∀ slot,
                  256 ≤ slot
                  → slot < 512
                  → client'.machine.entry (client'.spaces index).root slot
                    = client.machine.entry (client.spaces index).root slot)
            ∨ ∀ slot,
                256 ≤ slot
                → slot < 512
                → client'.machine.entry (client'.spaces index).root slot
                  = client.machine.entry client.machine.bootRoot slot &&& ~~~pteUser)
    : SharesKernelHalf start client' := by
  refine ⟨boot.1, bootRoot.trans shares.bootRoot, ?_, ?_⟩
  · intro slot inside
    rw [boot.2 slot inside, shares.bootEntries slot inside]
  · intro index live slot high inside
    rcases upper index live with ⟨live', kept⟩ | copied
    · rw [kept slot high inside, shares.upper index live' slot high inside]
    · rw [copied slot high inside, shares.bootEntries slot inside]

variable [DecidableEq ι]

/-- Every request keeps the kernel half shared. -/
theorem step (shares : SharesKernelHalf start client) (sound : SpacesSound start audit client)
    {request : SpacesRequest ι} {reply : SpacesReply} {client' : SpacesClient ι}
    (permits : SpacesPermits audit client request) (spares : SparesBoot client request)
    (stepped : SpacesStep client request reply client')
    : SharesKernelHalf start client' := by
  have ready := sound.conserves.ready
  have owned {index : ι} (live : (client.spaces index).root ≠ 0)
      : (client.spaces index).root ∈ (client.spaces index).tables := by
    obtain ⟨_, formed⟩ := sound.ready.formed live
    exact formed.rootOwned
  have held {index : ι} : ∀ table ∈ (client.spaces index).tables,
      client.machine.IsAllocated (frameOf table.toNat) :=
    fun table mine => (sound.outstanding mine).2
  -- the spaces that the request does not name
  have beside {index : ι} (elsewhere : request.space ≠ some index)
      (live : (client'.spaces index).root ≠ 0)
      : (client.spaces index).root ≠ 0
        ∧ ∀ slot,
            256 ≤ slot
            → slot < 512
            → client'.machine.entry (client'.spaces index).root slot
              = client.machine.entry (client.spaces index).root slot := by
    obtain ⟨same, entries⟩ := stepped.beside sound permits elsewhere
    rw [same] at live ⊢
    exact ⟨live, fun slot _ inside => entries _ (owned live) slot inside⟩
  have apart {changed index : ι} (different : index ≠ changed) : some changed ≠ some index :=
    fun same => different (Option.some.inj same).symm
  cases stepped with
  | refused => exact shares
  | allocRefused => exact shares
  | created changed unused takes formed upper =>
      refine shares.transfer (takes.bootTables shares.boot (by simp)) takes.record.bootRoot ?_
      intro index live
      rcases eq_or_ne index changed with here | different
      · subst here
        dsimp only
        rw [Function.update_self]
        exact Or.inr (upper shares.boot)
      · exact Or.inl (beside (apart different) live)
  | mapped changed liveSpace takes root tables formed kept upper limited =>
      refine shares.transfer (takes.bootTables shares.boot held) takes.record.bootRoot ?_
      intro index live
      rcases eq_or_ne index changed with here | different
      · subst here
        dsimp only
        rw [Function.update_self, root]
        exact Or.inl ⟨liveSpace, root ▸ upper⟩
      · exact Or.inl (beside (apart different) live)
  | unmapped changed liveSpace takes formed mapping upper =>
      obtain ⟨boot, entries⟩ := takes.bootTables shares.boot held
      refine shares.transfer ⟨{ boot with }, entries⟩ takes.record.bootRoot ?_
      intro index live
      rcases eq_or_ne index changed with here | different
      · subst here
        exact Or.inl ⟨live, fun slot _ inside => upper slot inside⟩
      · exact Or.inl (beside (apart different) live)
  | switched space =>
      exact shares.transfer ⟨{ shares.boot with }, fun _ _ => rfl⟩ rfl
        fun index live => Or.inl (beside nofun live)
  | destroyed changed liveSpace inactive returns =>
      refine shares.transfer (returns.bootTables shares.boot held) returns.record.bootRoot ?_
      intro index live
      rcases eq_or_ne index changed with here | different
      · subst here
        dsimp only at live
        rw [Function.update_self] at live
        exact absurd rfl live
      · exact Or.inl (beside (apart different) live)
  | allocated output free =>
      have takes := Machine.Takes.allocate ready.toPagesWellFormed free
      exact shares.transfer (takes.bootTables shares.boot (by simp)) takes.record.bootRoot
        fun index live => Or.inl (beside nofun live)
  | freed outstanding =>
      have returns := Machine.Returns.release ready.toPagesWellFormed outstanding
      refine shares.transfer (returns.bootTables shares.boot ?_) returns.record.bootRoot
        fun index live => Or.inl (beside nofun live)
      intro other single
      exact List.mem_singleton.mp single ▸ outstanding.2
  | stored address byte =>
      have metadata : ∀ other, client.machine.IsMetadata (frameOf other)
          → client.machine.memory.store address byte other = client.machine.memory other := by
        intro other inside
        apply Memory.store_of_ne
        intro same
        exact permits.1 (same ▸ inside)
      have states {frame : Nat} (inside : frame < client.machine.frames) :=
        ready.toPagesWellFormed.stateOf_congr metadata inside
      refine shares.transfer ⟨⟨shares.boot.frame, ?_, ?_, shares.boot.apart⟩, ?_⟩ rfl
        fun index live => Or.inl (beside nofun live)
      · exact fun free => shares.boot.unfree ⟨free.1, (states free.1).symm.trans free.2⟩
      · exact fun taken => shares.boot.unallocated ⟨taken.1, (states taken.1).symm.trans taken.2⟩
      · intro slot inside
        refine shares.boot.entry_congr inside fun other place => ?_
        apply Memory.store_of_ne
        intro same
        exact spares (same ▸ place)
  | cached address =>
      exact shares.transfer ⟨{ shares.boot with }, fun _ _ => rfl⟩ rfl
        fun index live => Or.inl (beside nofun live)

end SharesKernelHalf

/-- Every run keeps the kernel half shared. Witness: induction on the run. -/
theorem SharingReached.shares [DecidableEq ι] (ready : start.Ready) (boot : start.BootTables)
    (reached : SharingReached start audit client)
    : SharesKernelHalf start client := by
  induction reached with
  | start => exact ⟨boot, rfl, fun _ _ => rfl, fun _ live => absurd rfl live⟩
  | step request reached permits spares served ih =>
      have sound := reached.spaces.sound ready
      obtain ⟨_, _, served', stepped⟩ := sound.ready.serve (fun _ => sound.owned) request permits
      cases served'.symm.trans served
      exact ih.step sound permits spares stepped

/-- A root without user bits in the kernel half keeps user code out of it. -/
theorem upper_half_denied {machine : Machine} {root : U64}
    (supervisor : ∀ slot, 256 ≤ slot → slot < 512 → machine.entry root slot &&& pteUser = 0)
    {address : U64} (high : 2 ^ 47 ≤ address.toNat) (writing : Bool)
    : machine.cpuAccess root true writing address = none := by
  unfold Machine.cpuAccess
  refine if_neg ?_
  rintro ⟨canonical, _, permits⟩
  have upper : 2 ^ 64 - 2 ^ 47 ≤ address.toNat := canonical.resolve_left (not_lt.mpr high)
  have bound := address.isLt
  have slot := tableIndex_eq address 39
  have first : machine.entry root (tableIndex address 39) ∈ machine.cpuEntries root address := by
    unfold Machine.cpuEntries walkShifts Machine.cpuWalk
    dsimp only
    split <;> exact List.mem_cons_self
  refine (permits _ first).2.1 rfl (supervisor _ ?_ ?_)
  · rw [slot]
    omega
  · rw [slot]
    exact Nat.mod_lt _ (by decide)

/-- In every run in which no client stores to the bootloader's root, no request changes a lookup in
a space that it does not name; and the kernel half of every live root holds the entries that the
bootloader's root has, without the user bit, so that user code reaches nothing there.
-/
theorem spaces_share_the_kernel_half [DecidableEq ι] (ready : start.Ready) (boot : start.BootTables)
    (reached : SharingReached start audit client)
    : (∀ request reply client' other,
        SpacesPermits audit client request
        → spacesRequest request client = .ok (reply, client')
        → (client.spaces other).root ≠ 0
        → request.space ≠ some other
        → client'.spaces other = client.spaces other
          ∧ ∀ address physical flags,
              client'.machine.vmLookup (some (client'.spaces other)) address physical flags
              = client.machine.vmLookup (some (client.spaces other)) address physical flags)
      ∧ (∀ slot < 512,
          client.machine.entry client.machine.bootRoot slot = start.entry start.bootRoot slot)
      ∧ ∀ index,
          (client.spaces index).root ≠ 0
          → (∀ slot,
              256 ≤ slot
              → slot < 512
              → client.machine.entry (client.spaces index).root slot
                = client.machine.entry client.machine.bootRoot slot &&& ~~~pteUser)
            ∧ ∀ address writing,
                2 ^ 47 ≤ address.toNat
                → client.machine.cpuAccess (client.spaces index).root true writing address = none := by
  have sound := reached.spaces.sound ready
  have shares := reached.shares ready boot
  refine ⟨?_, shares.bootEntries, fun index live => ⟨fun slot high inside => ?_, ?_⟩⟩
  · intro request reply client' other permits served live elsewhere
    obtain ⟨_, _, served', stepped⟩ := sound.ready.serve (fun _ => sound.owned) request permits
    cases served'.symm.trans served
    exact ⟨(stepped.beside sound permits elsewhere).1,
      stepped.lookups sound permits live elsewhere⟩
  · rw [shares.upper index live slot high inside, shares.bootEntries slot inside]
  · intro address writing high
    obtain ⟨_, formed⟩ := sound.ready.formed live
    exact upper_half_denied formed.supervisor high writing

end KernelHalf

/-- Before `page_init` the bootloader's root is the first frame, whose last entry has the user bit. -/
def rootedMachine : Machine := sampleMachine.withEntry 0 511 7

/-- The first frame is never managed, so `page_init` leaves it alone. -/
theorem rooted_initialises
    : ∃ start : Machine,
        start.Ready
        ∧ start.BootTables
        ∧ start.entry start.bootRoot 511 = 7
        ∧ start.pages.freeCount.toNat = 62 := by
  have fresh : rootedMachine.Fresh := ⟨rfl, rfl, rfl⟩
  obtain ⟨start, _, initialised, count⟩ :=
    @flat_initialises rootedMachine fresh 64 (by decide) (by decide) (by decide)
  have ready := initialised.ready (by decide)
  have root : start.bootRoot = 0 := by
    rw [initialised.record]
    rfl
  have frame : FrameAddress 0 := ⟨rfl, by decide⟩
  have zero : frameOf (0 : U64).toNat = 0 := rfl
  have apart : ¬start.IsMetadata 0 := fun metadata =>
    absurd metadata.1 (Nat.not_le.mpr ready.toPagesWellFormed.metadataFrame_pos)
  have boot : start.BootTables := by
    refine ⟨?_, ?_, initialised.classifies.unallocated _, ?_⟩
    · rw [root]
      exact frame
    · rw [root, zero]
      exact fun free => ((initialised.free 0).mp free).2.1 rfl
    · rw [root, zero]
      exact apart
  refine ⟨start, ready, boot, ?_, count⟩
  calc start.entry start.bootRoot 511
      = rootedMachine.entry 0 511 := by
        rw [root]
        refine frame.entry_congr (by decide) fun byte here => initialised.memory byte ?_
        rw [here]
        exact apart
    _ = 7 := by
        refine (frame.entry_withEntry sampleMachine frame (by decide) (by decide) 7).trans ?_
        exact if_pos ⟨rfl, rfl⟩

/-- Three free frames let two spaces be created and a frame be allocated for a page. -/
theorem Machine.Ready.two_spaces {start : Machine} (ready : start.Ready)
    (enough : 3 ≤ start.pages.freeCount.toNat)
    : ∃ (audit : Audit (Fin 2)) (client : SpacesClient (Fin 2)) (root frame : U64),
        SharingReached start audit client
        ∧ client.machine.Ready
        ∧ client.spaces 0 = ⟨root, [root]⟩
        ∧ client.machine.SpaceFormed ⟨root, [root]⟩ {[]}
        ∧ client.machine.mapping root = (fun _ => none)
        ∧ (∀ index, (client.spaces index).root ≠ 0)
        ∧ client.machine.Outstanding frame
        ∧ client.machine.pages.freeCount.toNat + 3 = start.pages.freeCount.toNat := by
  -- the second space, then the first
  obtain ⟨root₁, made₁, created₁, takes₁, formed₁, _⟩ :=
    vmCreate_ok ready (Machine.available (by omega))
  have ready₁ := takes₁.ready ready
  have count₁ := takes₁.counted
  rw [List.length_singleton] at count₁
  have reached₁ := (@SharingReached.start (Fin 2) _ start).step (.create (some 1)) trivial trivial
    (withSpace_ok vmCreate created₁)
  obtain ⟨root₂, made₂, created₂, takes₂, formed₂, empty, _⟩ :=
    vmCreate_ok ready₁ (Machine.available (by omega))
  have ready₂ := takes₂.ready ready₁
  have count₂ := takes₂.counted
  rw [List.length_singleton] at count₂
  let one : Fin 2 → AddressSpace := Function.update (fun _ => .zero) 1 ⟨root₁, [root₁]⟩
  have unused : one 0 = .zero := Function.update_of_ne (by decide) ..
  rw [← unused] at created₂
  have reached₂ := reached₁.step (.create (some 0)) trivial trivial (withSpace_ok vmCreate created₂)
  -- a frame for the page
  obtain ⟨frame, ⟨_, _, _, free, _⟩, allocated⟩ :=
    ready₂.pageAlloc_ok 0 (Machine.available (by omega))
  have reached₃ := reached₂.step (.alloc (some 0)) trivial trivial
    (bind_ok (onSpaces_ok allocated) _)
  have takes₃ := Machine.Takes.allocate ready₂.toPagesWellFormed free
  have count₃ := takes₃.counted
  rw [List.length_singleton] at count₃
  obtain ⟨formed₃, same⟩ := takes₃.spaceFormed ready₂ formed₂ (by simp) (by simp)
  have outstanding := (takes₃.outstanding_iff _).mpr (Or.inl (List.mem_singleton_self _))
  let both : Fin 2 → AddressSpace := Function.update one 0 ⟨root₂, [root₂]⟩
  have first : both 0 = ⟨root₂, [root₂]⟩ := Function.update_self ..
  have second : both 1 = ⟨root₁, [root₁]⟩ :=
    (Function.update_of_ne (by decide) ..).trans (Function.update_self ..)
  have live : ∀ index, (both index).root ≠ 0 := by
    rw [Fin.forall_fin_two, first, second]
    exact ⟨formed₂.root_ne_zero ready₂, formed₁.root_ne_zero ready₁⟩
  refine ⟨_, _, root₂, _, reached₃, takes₃.ready ready₂, first, formed₃, same.trans empty, live,
    outstanding, ?_⟩
  change (made₂.allocate frame).pages.freeCount.toNat + 3 = _
  omega

/-- In the sample two spaces are created, and a page is mapped in one of them. -/
theorem spaces_share_the_kernel_half_on_sample
    : ∃ (start : Machine) (audit audit' : Audit (Fin 2)) (client client' : SpacesClient (Fin 2))
        (frame : U64),
        SharingReached start audit client
        ∧ spacesRequest (.map (some 0) 0x400000 frame 6) client = .ok (.verdict true, client')
        ∧ SharingReached start audit' client'
        ∧ client'.spaces 1 = client.spaces 1
        ∧ (∀ address physical flags,
            client'.machine.vmLookup (some (client'.spaces 1)) address physical flags
            = client.machine.vmLookup (some (client.spaces 1)) address physical flags)
        ∧ client'.machine.entry client'.machine.bootRoot 511 = 7
        ∧ ∀ index,
            (client'.spaces index).root ≠ 0
            ∧ client'.machine.entry (client'.spaces index).root 511 = 3 := by
  obtain ⟨start, ready, boot, last, count⟩ := rooted_initialises
  obtain ⟨audit, client, root, frame, reached, ready', first, formed, empty, live, outstanding, left⟩ :=
    ready.two_spaces (by omega)
  have admits : client.machine.MapAdmits ⟨root, [root]⟩ 0x400000 frame 6 :=
    ⟨by decide, by decide, by decide, outstanding, by decide, congrFun empty _⟩
  obtain ⟨space, mapped, _, result, _, same, _⟩ := formed.vmMap_fresh ready' admits (by omega)
  rw [← first] at result
  have served : spacesRequest (.map (some 0) 0x400000 frame 6) client
      = .ok (.verdict true, ⟨mapped, Function.update client.spaces 0 space⟩) :=
    withSpace_ok (fun space => vmMap space 0x400000 frame 6) result
  have reached' := reached.step (.map (some 0) 0x400000 frame 6) trivial trivial served
  obtain ⟨elsewhere, _, _⟩ := spaces_share_the_kernel_half ready boot reached
  obtain ⟨kept, lookups⟩ :=
    elsewhere (.map (some 0) 0x400000 frame 6) _ _ 1 trivial served (live 1)
      (by simp [SpacesRequest.space])
  obtain ⟨_, bootEntries, upper⟩ := spaces_share_the_kernel_half ready boot reached'
  have bootLast := (bootEntries 511 (by decide)).trans last
  have live' : ∀ index, (Function.update client.spaces 0 space index).root ≠ 0 := by
    have other : Function.update client.spaces 0 space 1 = client.spaces 1 := kept
    have mine := live 0
    rw [first] at mine
    rw [Fin.forall_fin_two, other, Function.update_self, same]
    exact ⟨mine, live 1⟩
  refine ⟨start, audit, _, client, _, frame, reached, served, reached', kept, lookups, bootLast,
    fun index => ⟨live' index, ((upper index (live' index)).1 511 (by decide) (by decide)).trans ?_⟩⟩
  rw [bootLast]
  decide

end MiniLinux
