import MiniLinux.Memory.PageRuns
import MiniLinux.Memory.VmCalls

/-! An address space over whole runs, as a finite map.
A client that uses one space and the allocator sees only its requests and the replies.
From these it keeps a map of the lower pages and the set of frames it owns; the replies are
always those of the map.
-/

namespace MiniLinux

open Foundation Foundation.Halting

/-- The machine and the space that the client works with. -/
structure VmClient where
  machine : Machine
  space : AddressSpace

/-- What the client may do: the operations on its space with the values of its variables,
the allocator's calls, and a store to physical memory.
-/
inductive VmRequest where
  | map (address physical : U64) (flags : U32)
  | unmap (address : U64)
  | lookup (address physical : U64) (flags : U32)
  | alloc (output : Option U64)
  | free (address : U64)
  | store (address : Nat) (byte : Byte)
  deriving DecidableEq

inductive VmReply where
  | map (ok : Bool)
  | unmap (ok : Bool)
  | lookup (ok : Bool) (physical : U64) (flags : U32)
  | alloc (ok : Bool) (output : Option U64)
  | free (ok : Bool)
  | store
  deriving DecidableEq

/-- Runs a machine program for the client. -/
def onClientMachine {α : Type} (program : MachineM α) : Halting Halt VmClient α :=
  onComponent VmClient.machine (fun client machine => { client with machine := machine }) program

/-- Serves one request. -/
def vmRequest : VmRequest → Halting Halt VmClient VmReply
  | .map address physical flags => do
      let client ← get
      let (ok, space) ← onClientMachine (vmMap (some client.space) address physical flags)
      modify fun client => { client with space := space.getD client.space }
      pure (.map ok)
  | .unmap address => do
      let client ← get
      let ok ← onClientMachine (vmUnmap (some client.space) address)
      pure (.unmap ok)
  | .lookup address physical flags => do
      let client ← get
      let (ok, physical, flags) := client.machine.vmLookup (some client.space) address physical flags
      pure (.lookup ok physical flags)
  | .alloc output => do
      let (ok, output) ← onClientMachine (pageAlloc output)
      pure (.alloc ok output)
  | .free address => do
      let ok ← onClientMachine (pageFree address)
      pure (.free ok)
  | .store address byte => do
      onClientMachine (modify fun machine =>
        { machine with memory := machine.memory.store address byte })
      pure .store

/-- What the client knows: the map of its space and the frames it owns. -/
structure VmLedger where
  entries : Nat → Option (U64 × U32)
  owned : Finset U64

/-- What a reply tells the client. -/
def VmLedger.advance (ledger : VmLedger) : VmRequest → VmReply → VmLedger
  | .map address physical flags, .map true =>
      { ledger with
        entries :=
          Function.update ledger.entries (address.toNat / pageSize) (some (physical, flags)) }
  | .unmap address, .unmap true =>
      { ledger with entries := Function.update ledger.entries (address.toNat / pageSize) none }
  | .alloc _, .alloc true (some address) =>
      { ledger with owned := insert address ledger.owned }
  | .free address, .free true => { ledger with owned := ledger.owned.erase address }
  | _, _ => ledger

/-- The client frees only frames it owns, and writes neither tables nor state bytes. -/
def VmPermits (ledger : VmLedger) (client : VmClient) : VmRequest → Prop
  | .free address => address ∈ ledger.owned
  | .store address _ =>
      ¬client.machine.IsMetadata (frameOf address) ∧ ¬InFrames client.space.tables address
  | _ => True

/-- What the map says of an address. -/
def VmLedger.find (ledger : VmLedger) (address : U64) : Option (U64 × U32) :=
  if address.toNat < 2 ^ 47 then ledger.entries (address.toNat / pageSize) else none

/-- What `vm_lookup` must reply to a client with the given variables. -/
def VmLedger.lookup (ledger : VmLedger) (address physical : U64) (flags : U32)
    : Bool × U64 × U32 :=
  lookupReply (ledger.find address) address physical flags

/-- The arguments for which the map can grow. -/
def VmLedger.Admits (ledger : VmLedger) (machine : Machine) (address physical : U64) (flags : U32)
    : Prop :=
  ledger.find address = none
  ∧ address ≠ 0
  ∧ address.toNat % pageSize = 0
  ∧ address.toNat < 2 ^ 47
  ∧ physical.toNat % pageSize = 0
  ∧ machine.IsAllocated (frameOf physical.toNat)
  ∧ flags &&& ~~~(vmWrite ||| vmUser ||| vmExec) = 0

/-- The replies that agree with the map. -/
def VmRight (ledger : VmLedger) (client : VmClient) : VmRequest → VmReply → Prop
  | .map address physical flags, .map ok =>
      ok = true → ledger.Admits client.machine address physical flags
  | .unmap address, .unmap ok =>
      ok = true ↔ address.toNat % pageSize = 0 ∧ ledger.find address ≠ none
  | .lookup address physical flags, .lookup ok physical' flags' =>
      (ok, physical', flags') = ledger.lookup address physical flags
  | .alloc _, .alloc _ _ => True
  | .free _, .free ok => ok = true
  | .store _ _, .store => True
  | _, _ => False

/-- The tables agree with the map, and the owned frames are no tables. -/
structure VmAgrees (ledger : VmLedger) (client : VmClient) : Prop where
  ready : client.machine.Ready
  formed : ∃ paths, client.machine.SpaceFormed client.space paths
  entries : client.machine.mapping client.space.root = ledger.entries
  owned
    : ∀ address ∈ ledger.owned,
        client.machine.Outstanding address ∧ address ∉ client.space.tables

theorem onClientMachine_ok {α : Type} {program : MachineM α} {client : VmClient} {value : α}
    {machine : Machine} (returns : program client.machine = .ok (value, machine))
    : onClientMachine program client = .ok (value, { client with machine := machine }) :=
  onComponent_ok returns

namespace VmAgrees

variable {ledger : VmLedger} {client : VmClient}

theorem find_eq (agrees : VmAgrees ledger client) (address : U64)
    : ledger.find address = ledger.entries (address.toNat / pageSize) := by
  unfold VmLedger.find
  split
  · rfl
  · next beyond =>
      rw [← agrees.entries, Machine.mapping, if_neg]
      simp only [lowerPages, pageSize]
      omega

theorem lookup_eq (agrees : VmAgrees ledger client) (address physical : U64) (flags : U32)
    : client.machine.vmLookup (some client.space) address physical flags
      = ledger.lookup address physical flags := by
  obtain ⟨paths, formed⟩ := agrees.formed
  rw [formed.vmLookup_eq agrees.ready, VmLedger.lookup, agrees.find_eq, agrees.entries]

/-- A change that keeps the owned tables and the client's frames keeps the agreement. -/
theorem congr (agrees : VmAgrees ledger client) {machine : Machine} (ready : machine.Ready)
    (outstanding
      : ∀ address,
          client.machine.Outstanding address
          → address ∈ client.space.tables ∨ address ∈ ledger.owned
          → machine.Outstanding address)
    (same
      : ∀ table ∈ client.space.tables, ∀ index < 512,
          machine.entry table index = client.machine.entry table index)
    : VmAgrees ledger { client with machine := machine } := by
  obtain ⟨paths, formed⟩ := agrees.formed
  have entries : ∀ table ∈ client.space.tables, ∀ index < 512,
      SameEntry (machine.entry table index) (client.machine.entry table index) := by
    intro table member index inside
    rw [same table member index inside]
    exact .refl _
  refine ⟨ready, ⟨paths, formed.congr ?_ entries⟩, ?_, ?_⟩
  · intro table member
    exact outstanding table (formed.outstanding table member) (Or.inl member)
  · exact (formed.mapping_congr entries).trans agrees.entries
  · intro address member
    obtain ⟨held, apart⟩ := agrees.owned address member
    exact ⟨outstanding address held (Or.inr member), apart⟩

/-- The cached translations are no part of the agreement. -/
theorem withTlb {machine : Machine} (agrees : VmAgrees ledger { client with machine := machine })
    (tlb : List Translation)
    : VmAgrees ledger { client with machine := machine.withTlb tlb } := by
  obtain ⟨ready, ⟨paths, formed⟩, entries, owned⟩ := agrees
  exact ⟨{ ready with }, ⟨paths, { formed with }⟩, entries, owned⟩

theorem map (agrees : VmAgrees ledger client) (address physical : U64) (flags : U32)
    : ∃ reply client',
        vmRequest (.map address physical flags) client = .ok (reply, client')
        ∧ VmRight ledger client (.map address physical flags) reply
        ∧ VmAgrees (ledger.advance (.map address physical flags) reply) client' := by
  obtain ⟨paths, formed⟩ := agrees.formed
  have ready := agrees.ready
  by_cases admits : client.machine.MapAdmits client.space address physical flags
  · obtain ⟨ok, space', machine', paths', taken, result, takes, root, tables, formed', _, _, added,
      refused⟩ := formed.vmMap_spec ready admits
    have served : vmRequest (.map address physical flags) client
        = .ok (.map ok, ⟨machine', space'⟩) := by
      rw [vmRequest, bind_get_apply, bind_ok (onClientMachine_ok result)]
      rfl
    have owned : ∀ other ∈ ledger.owned,
        machine'.Outstanding other ∧ other ∉ space'.tables := by
      intro other member
      obtain ⟨held, apart⟩ := agrees.owned other member
      refine ⟨takes.outstanding held, ?_⟩
      rw [tables]
      intro new
      rcases List.mem_append.mp new with new | new
      · exact apart new
      · exact (takes.free other new).2.not_allocated held.2
    refine ⟨_, _, served, ?_, ?_⟩
    · intro _
      refine ⟨?_, admits.nonzero, admits.aligned, ?_, admits.outstanding.1, admits.outstanding.2,
        admits.known⟩
      · rw [agrees.find_eq, ← agrees.entries]
        exact admits.unmapped
      · have page := (below_iff address).mp admits.low
        simp only [lowerPages, pageSize] at page
        omega
    · cases ok with
      | true =>
          refine ⟨takes.ready ready, ⟨paths', formed'⟩, ?_, owned⟩
          change machine'.mapping space'.root = Function.update ledger.entries _ _
          rw [root, (added rfl).2, agrees.entries]
      | false =>
          refine ⟨takes.ready ready, ⟨paths', formed'⟩, ?_, owned⟩
          change machine'.mapping space'.root = ledger.entries
          rw [root, (refused rfl).2.1, agrees.entries]
  · refine ⟨.map false, client, ?_, ?_, agrees⟩
    · rw [vmRequest, bind_get_apply, bind_ok (onClientMachine_ok (formed.vmMap_refused ready admits))]
      rfl
    · intro impossible
      cases impossible

theorem unmap (agrees : VmAgrees ledger client) (address : U64)
    : ∃ reply client',
        vmRequest (.unmap address) client = .ok (reply, client')
        ∧ VmRight ledger client (.unmap address) reply
        ∧ VmAgrees (ledger.advance (.unmap address) reply) client' := by
  obtain ⟨paths, formed⟩ := agrees.formed
  have ready := agrees.ready
  have found : ledger.find address
      = client.machine.mapping client.space.root (address.toNat / pageSize) := by
    rw [agrees.find_eq, agrees.entries]
  by_cases mapped : address.toNat % pageSize = 0
      ∧ client.machine.mapping client.space.root (address.toNat / pageSize) ≠ none
  · obtain ⟨machine', tlb, result, _, takes, formed', update, _⟩ :=
      formed.vmUnmap_spec ready mapped.1 mapped.2
    refine ⟨.unmap true, { client with machine := machine'.withTlb tlb }, ?_, ?_, ?_⟩
    · rw [vmRequest, bind_get_apply, bind_ok (onClientMachine_ok result)]
      rfl
    · rw [← found] at mapped
      exact iff_of_true rfl mapped
    · have owned : ∀ other ∈ ledger.owned,
          machine'.Outstanding other ∧ other ∉ client.space.tables := by
        intro other member
        obtain ⟨held, apart⟩ := agrees.owned other member
        exact ⟨takes.outstanding held, apart⟩
      have kept : VmAgrees (ledger.advance (.unmap address) (.unmap true))
          { client with machine := machine' } := by
        refine ⟨takes.ready ready, ⟨paths, formed'⟩, ?_, owned⟩
        change machine'.mapping client.space.root = Function.update ledger.entries _ _
        rw [update, agrees.entries]
      exact kept.withTlb tlb
  · refine ⟨.unmap false, client, ?_, ?_, agrees⟩
    · rw [vmRequest, bind_get_apply, bind_ok (onClientMachine_ok (formed.vmUnmap_refused ready mapped))]
      rfl
    · rw [← found] at mapped
      exact iff_of_false Bool.false_ne_true mapped

theorem alloc (agrees : VmAgrees ledger client) (output : Option U64)
    : ∃ reply client',
        vmRequest (.alloc output) client = .ok (reply, client')
        ∧ VmRight ledger client (.alloc output) reply
        ∧ VmAgrees (ledger.advance (.alloc output) reply) client' := by
  have ready := agrees.ready
  by_cases refused : output = none ∨ client.machine.pages.freeCount = 0
  · refine ⟨.alloc false output, client, ?_, trivial, agrees⟩
    rw [vmRequest, bind_ok (onClientMachine_ok (pageAlloc_refused client.machine output refused))]
    rfl
  · obtain ⟨given, available⟩ := not_or.mp refused
    obtain ⟨variable', rfl⟩ := Option.ne_none_iff_exists'.mp given
    obtain ⟨frame, ⟨_, _, _, free, _⟩, taken⟩ := ready.pageAlloc_ok variable' available
    have takes := Machine.Takes.allocate ready.toPagesWellFormed free
    obtain ⟨paths, formed⟩ := agrees.formed
    have kept := agrees.congr (takes.ready ready) (fun _ held _ => takes.outstanding held)
      fun table member index inside =>
        takes.entry ready (formed.outstanding table member) List.not_mem_nil (by simp) inside
    refine ⟨.alloc true (some (frameAddress frame)), _, ?_, trivial,
      ⟨kept.ready, kept.formed, kept.entries, ?_⟩⟩
    · rw [vmRequest, bind_ok (onClientMachine_ok taken)]
      rfl
    · intro address member
      rcases Finset.mem_insert.mp member with new | old
      · subst new
        refine ⟨(takes.outstanding_iff _).mpr (Or.inl (List.mem_singleton_self _)), ?_⟩
        intro table
        have allocated := (formed.outstanding _ table).2
        rw [ready.frameOf_frameAddress free.1] at allocated
        exact free.not_allocated allocated
      · exact kept.owned address old

theorem free (agrees : VmAgrees ledger client) {address : U64} (mine : address ∈ ledger.owned)
    : ∃ reply client',
        vmRequest (.free address) client = .ok (reply, client')
        ∧ VmRight ledger client (.free address) reply
        ∧ VmAgrees (ledger.advance (.free address) reply) client' := by
  have ready := agrees.ready
  obtain ⟨outstanding, apart⟩ := agrees.owned address mine
  obtain ⟨paths, formed⟩ := agrees.formed
  have returns := Machine.Returns.release ready.toPagesWellFormed outstanding
  have single : ∀ other ∈ [address], other.toNat % pageSize = 0 := by
    intro other member
    rw [List.mem_singleton.mp member]
    exact outstanding.1
  have others {other : U64} (held : client.machine.Outstanding other) (different : other ≠ address)
      : (client.machine.release (frameOf address.toNat)).Outstanding other :=
    (returns.outstanding_iff single other).mpr
      ⟨held, fun member => different (List.mem_singleton.mp member)⟩
  -- the tables stay outstanding because the client's frame is none of them
  have remaining : VmAgrees { ledger with owned := ledger.owned.erase address } client :=
    ⟨ready, ⟨paths, formed⟩, agrees.entries,
      fun other member => agrees.owned other (Finset.mem_of_mem_erase member)⟩
  have kept := remaining.congr (returns.ready ready)
    (by
      intro other held either
      apply others held
      intro same
      subst same
      rcases either with table | owned
      · exact apart table
      · exact Finset.notMem_erase _ _ owned)
    fun table member index inside =>
      returns.entry ready (formed.outstanding table member) inside
  refine ⟨.free true, _, ?_, rfl, kept⟩
  rw [vmRequest, bind_ok (onClientMachine_ok (ready.pageFree_ok outstanding))]
  rfl

theorem store (agrees : VmAgrees ledger client) {address : Nat} (byte : Byte)
    (usable : ¬client.machine.IsMetadata (frameOf address))
    (outside : ¬InFrames client.space.tables address)
    : ∃ reply client',
        vmRequest (.store address byte) client = .ok (reply, client')
        ∧ VmRight ledger client (.store address byte) reply
        ∧ VmAgrees (ledger.advance (.store address byte) reply) client' := by
  have ready := agrees.ready
  obtain ⟨paths, formed⟩ := agrees.formed
  have metadata : ∀ other, client.machine.IsMetadata (frameOf other)
      → client.machine.memory.store address byte other = client.machine.memory other := by
    intro other inside
    apply Memory.store_of_ne
    intro same
    exact usable (same ▸ inside)
  let machine : Machine :=
    { client.machine with memory := client.machine.memory.store address byte }
  have wellFormed : machine.PagesWellFormed := ready.toPagesWellFormed.congr metadata
  have kept : VmAgrees ledger { client with machine := machine } := by
    refine agrees.congr (ready.of_record wellFormed rfl) ?_ ?_
    · intro other held _
      refine ⟨held.1, held.2.1, ?_⟩
      exact (ready.toPagesWellFormed.stateOf_congr metadata held.2.1).trans held.2.2
    · intro table member index inside
      apply (formed.frameAddress ready member).entry_congr inside
      intro other place
      apply Memory.store_of_ne
      intro same
      exact outside ⟨table, member, same ▸ place.symm⟩
  refine ⟨.store, _, ?_, trivial, kept⟩
  rw [vmRequest, bind_ok (onClientMachine_ok (modify_apply _ _))]
  rfl

/-- Every permitted request is answered as the map says, and keeps the agreement. -/
theorem request (agrees : VmAgrees ledger client) (request : VmRequest)
    (permits : VmPermits ledger client request)
    : ∃ reply client',
        vmRequest request client = .ok (reply, client')
        ∧ VmRight ledger client request reply
        ∧ VmAgrees (ledger.advance request reply) client' := by
  cases request with
  | map address physical flags => exact agrees.map address physical flags
  | unmap address => exact agrees.unmap address
  | lookup address physical flags =>
      have found := agrees.lookup_eq address physical flags
      refine ⟨_, client, rfl, ?_, agrees⟩
      exact found
  | alloc output => exact agrees.alloc output
  | free address => exact agrees.free permits
  | store address byte => exact agrees.store byte permits.1 permits.2

end VmAgrees

/-- Every reply to a client of a fresh space, in every permitted run, is that of a finite
map: it maps nothing at first, grows by exactly the successful maps and shrinks by exactly
the successful unmaps. After the run every lookup reads the map.
-/
theorem vm_refines_finite_map {before machine : Machine} (ready : before.Ready)
    {initial space : AddressSpace}
    (created : vmCreate (some initial) before = .ok ((true, some space), machine))
    (held : Finset U64) (holds : ∀ address ∈ held, before.Outstanding address)
    (requests : List VmRequest)
    (permitted
      : Permitted vmRequest VmLedger.advance VmPermits ⟨fun _ => none, held⟩ ⟨machine, space⟩
          requests)
    : ∃ replies client ledger,
        serve vmRequest requests ⟨machine, space⟩ = .ok (replies, client)
        ∧ Answers vmRequest VmLedger.advance VmRight ⟨fun _ => none, held⟩ ⟨machine, space⟩
          requests replies
        ∧ ledger = settle VmLedger.advance ⟨fun _ => none, held⟩ requests replies
        ∧ (∀ page, ¬page < lowerPages → ledger.entries page = none)
        ∧ ∀ address physical flags,
            client.machine.vmLookup (some client.space) address physical flags
            = ledger.lookup address physical flags := by
  have unused : initial = .zero := by
    by_cases used : initial.root ≠ 0 ∨ initial.tables.length ≠ 0
    · rw [vmCreate_refused before used] at created
      cases created
    · obtain ⟨root, tables⟩ := not_or.mp used
      cases initial
      simp only [not_not, List.length_eq_zero_iff] at root tables
      rw [AddressSpace.zero, root, tables]
  subst unused
  have available : before.pages.freeCount ≠ 0 := by
    intro exhausted
    rw [vmCreate_exhausted exhausted] at created
    cases created
  obtain ⟨root, machine', result, takes, formed, empty, _⟩ := vmCreate_ok ready available
  rw [created] at result
  cases result
  have agrees : VmAgrees ⟨fun _ => none, held⟩ ⟨machine, ⟨root, [root]⟩⟩ := by
    refine ⟨takes.ready ready, ⟨_, formed⟩, empty, ?_⟩
    intro address member
    refine ⟨takes.outstanding (holds address member), ?_⟩
    intro new
    exact (takes.free address new).2.not_allocated (holds address member).2
  obtain ⟨replies, client, served, answers, agrees'⟩ :=
    serve_answers
      (fun ledger client request (agrees : VmAgrees ledger client) permits =>
        agrees.request request permits)
      requests agrees permitted
  refine ⟨replies, client, _, served, answers, rfl, ?_, agrees'.lookup_eq⟩
  intro page beyond
  rw [← agrees'.entries, Machine.mapping, if_neg beyond]

/-- The allocator is ready after `page_init` under Limine's direct-map offset. -/
theorem Machine.Initialised.ready {before after : Machine} {entries : List (Option MemmapEntry)}
    {hhdmOffset : U64} (initialised : before.Initialised after entries hhdmOffset)
    (higherHalf : 0xffff800000000000 ≤ hhdmOffset.toNat)
    : after.Ready :=
  { initialised.wellFormed with higherHalf := by rw [initialised.offset]; exact higherHalf }

theorem vm_refines_finite_map_on_sample
    : ∃ before machine space replies client,
        before.Ready
        ∧ vmCreate (some .zero) before = .ok ((true, some space), machine)
        ∧ serve vmRequest
            [.alloc (some 0), .map 0x400000 0x2000 6, .lookup 0x400123 0 0, .unmap 0x400000]
            ⟨machine, space⟩
          = .ok (replies, client)
        ∧ client.machine.vmLookup (some client.space) 0x800000000000 7 1 = (false, 7, 1) := by
  obtain ⟨before, success⟩ := sample_initialises
  have initialised := pageInit_initialised ⟨rfl, rfl, rfl⟩ (by decide) success
  have ready := initialised.ready (by decide)
  have available : before.pages.freeCount ≠ 0 := by
    intro none
    have many := sample_free initialised
    rw [none] at many
    cases many
  obtain ⟨root, machine, created, _⟩ := vmCreate_ok ready available
  obtain ⟨replies, client, ledger, served, _, _, _, lookups⟩ :=
    vm_refines_finite_map ready created ∅ (by simp)
      [.alloc (some 0), .map 0x400000 0x2000 6, .lookup 0x400123 0 0, .unmap 0x400000]
      ⟨trivial, fun _ _ _ => ⟨trivial, fun _ _ _ => ⟨trivial, fun _ _ _ =>
        ⟨trivial, fun _ _ _ => trivial⟩⟩⟩⟩
  exact ⟨before, machine, _, replies, client, ready, created, served, lookups _ _ _⟩

end MiniLinux
