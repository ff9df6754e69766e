import MiniLinux.Foundation.Partition
import MiniLinux.Memory.UserMapping
import MiniLinux.Memory.VmCalls

/-! Any number of address spaces over one allocator.
Clients create, change, activate and destroy spaces in any order, allocate and free frames,
and store to memory that is no table; the processor caches translations at any time. An
audit notes from outside which frames the clients hold and which frames left the free ones
for each space.
-/

namespace MiniLinux

open Foundation Foundation.Halting

/-- The machine with the spaces of all clients. -/
structure SpacesClient (ι : Type) where
  machine : Machine
  spaces : ι → AddressSpace

/-- A request names a space, or none for a null pointer. `switch` activates a space, or the
root that the bootloader left; `cache` is the processor's.
-/
inductive SpacesRequest (ι : Type) where
  | create (space : Option ι)
  | map (space : Option ι) (address physical : U64) (flags : U32)
  | unmap (space : Option ι) (address : U64)
  | switch (space : Option ι)
  | destroy (space : Option ι)
  | alloc (output : Option U64)
  | free (address : U64)
  | store (address : Nat) (byte : Byte)
  | cache (address : U64)

inductive SpacesReply where
  | verdict (ok : Bool)
  | alloc (ok : Bool) (output : Option U64)
  | done

-----------------------------------------------------------------------------------------
-- The processor's cache
-----------------------------------------------------------------------------------------

/-- The tables that the processor reads from `table` downwards. -/
def Machine.cpuTables (machine : Machine) (address : U64) : List Nat → U64 → List U64
  | [], _ => []
  | shift :: rest, table =>
      let entry := machine.entry table (tableIndex address shift)
      if entry &&& ptePresent = 0 ∨ entry &&& pteLarge ≠ 0 then [table]
      else table :: machine.cpuTables address rest (entry &&& pteAddress)

local instance U64.lawfulBEq : LawfulBEq U64 := inferInstance

/-- The translation of a lower page that the active tables yield, if they yield one. -/
def Machine.translation (machine : Machine) (address : U64) : Option Translation :=
  let entries := machine.cpuEntries machine.currentRoot address
  if address.toNat < 2 ^ 47 ∧ 2 ≤ entries.length ∧ ∀ entry ∈ entries, entry &&& ptePresent ≠ 0
  then
    some
      ⟨address.toNat / pageSize,
        BitVec.ofNat 64
          (physicalByte entries (BitVec.ofNat 64 (address.toNat / pageSize * pageSize))),
        flagsThrough (vmWrite ||| vmUser ||| vmExec) entries,
        machine.cpuTables address walkShifts machine.currentRoot⟩
  else none

/-- The processor keeps a translation. -/
def Machine.cached (machine : Machine) (address : U64) : Machine :=
  { machine with tlb := (machine.translation address).toList ++ machine.tlb }

-----------------------------------------------------------------------------------------
-- Serving requests
-----------------------------------------------------------------------------------------

section Requests

variable {ι : Type}

/-- Runs a machine program. -/
def onSpaces {α : Type} (program : MachineM α) : Halting Halt (SpacesClient ι) α :=
  onComponent SpacesClient.machine (fun client machine => { client with machine := machine })
    program

variable [DecidableEq ι]

/-- Runs a program that changes a space. -/
def withSpace (space : Option ι)
    (program : Option AddressSpace → MachineM (Bool × Option AddressSpace))
    : Halting Halt (SpacesClient ι) SpacesReply := do
  let client ← get
  let (ok, changed) ← onSpaces (program (space.map client.spaces))
  match space, changed with
  | some index, some value => do
      modify fun client => { client with spaces := Function.update client.spaces index value }
      pure (.verdict ok)
  | _, _ => pure (.verdict ok)

/-- Serves one request. -/
def spacesRequest : SpacesRequest ι → Halting Halt (SpacesClient ι) SpacesReply
  | .create space => withSpace space vmCreate
  | .map space address physical flags => withSpace space fun space => vmMap space address physical flags
  | .unmap space address => do
      let client ← get
      let ok ← onSpaces (vmUnmap (space.map client.spaces) address)
      pure (.verdict ok)
  | .switch space => do
      let client ← get
      onSpaces (vmSwitch ((space.map fun index => (client.spaces index).root).getD
        client.machine.bootRoot))
      pure .done
  | .destroy space => withSpace space vmDestroy
  | .alloc output => do
      let (ok, output) ← onSpaces (pageAlloc output)
      pure (.alloc ok output)
  | .free address => do
      let ok ← onSpaces (pageFree address)
      pure (.verdict ok)
  | .store address byte => do
      onSpaces (modify fun machine =>
        { machine with memory := machine.memory.store address byte })
      pure .done
  | .cache address => do
      onSpaces (modify fun machine => machine.cached address)
      pure .done

end Requests

-----------------------------------------------------------------------------------------
-- Runs and what is known of them
-----------------------------------------------------------------------------------------

/-- The frames that clients obtained from `page_alloc` and have not freed since, and the
frames that were allocated for each space since it was created.
-/
structure Audit (ι : Type) where
  owned : Finset U64
  tables : ι → Finset Nat

section Runs

variable {ι : Type} [DecidableEq ι]

/-- What a request between two machines adds to the audit. -/
def Audit.advance (audit : Audit ι) (request : SpacesRequest ι) (reply : SpacesReply)
    (before after : Machine)
    : Audit ι :=
  match request, reply with
  | .create (some index), _ | .map (some index) _ _ _, _ =>
      { audit with
        tables :=
          Function.update audit.tables index
            (audit.tables index ∪ (before.freeFrames \ after.freeFrames)) }
  | .destroy (some index), .verdict true =>
      { audit with tables := Function.update audit.tables index ∅ }
  | .alloc _, .alloc true (some address) => { audit with owned := insert address audit.owned }
  | .free address, .verdict true => { audit with owned := audit.owned.erase address }
  | _, _ => audit

/-- Clients free only what they own, and store neither to tables nor to state bytes. -/
def SpacesPermits (audit : Audit ι) (client : SpacesClient ι) : SpacesRequest ι → Prop
  | .free address => address ∈ audit.owned
  | .store address _ =>
      ¬client.machine.IsMetadata (frameOf address)
      ∧ ∀ index, ¬InFrames (client.spaces index).tables address
  | _ => True

/-- The states of a run that starts without spaces. -/
inductive SpacesReached (start : Machine) : Audit ι → SpacesClient ι → Prop
  | start : SpacesReached start ⟨∅, fun _ => ∅⟩ ⟨start, fun _ => .zero⟩
  | step {audit : Audit ι} {client client' : SpacesClient ι} (request : SpacesRequest ι)
      {reply : SpacesReply} (reached : SpacesReached start audit client)
      (permits : SpacesPermits audit client request)
      (served : spacesRequest request client = .ok (reply, client'))
      : SpacesReached start (audit.advance request reply client.machine client'.machine) client'

end Runs

-----------------------------------------------------------------------------------------
-- What one request does
-----------------------------------------------------------------------------------------

section Steps

variable {ι : Type}

/-- What the operations need of a state: every space is unused or formed. -/
structure SpacesReady (client : SpacesClient ι) : Prop where
  ready : client.machine.Ready
  spaces
    : ∀ index,
        client.spaces index = .zero
        ∨ ∃ paths, client.machine.SpaceFormed (client.spaces index) paths

/-- The arguments that `vm_destroy` refuses. -/
def SpacesClient.KeepsSpace (client : SpacesClient ι) : Option ι → Prop
  | none => True
  | some index =>
      (client.spaces index).root = 0 ∨ (client.spaces index).root = client.machine.currentRoot

theorem onSpaces_ok {α : Type} {program : MachineM α} {client : SpacesClient ι} {value : α}
    {machine : Machine} (returns : program client.machine = .ok (value, machine))
    : onSpaces program client = .ok (value, { client with machine := machine }) :=
  onComponent_ok returns

namespace SpacesReady

variable {client : SpacesClient ι}

/-- A space with a root is formed. -/
theorem formed (ready : SpacesReady client) {index : ι} (live : (client.spaces index).root ≠ 0)
    : ∃ paths, client.machine.SpaceFormed (client.spaces index) paths := by
  rcases ready.spaces index with unused | formed
  · rw [unused] at live
    exact absurd rfl live
  · exact formed

/-- A space without a root is unused. -/
theorem unused (ready : SpacesReady client) {index : ι} (dead : (client.spaces index).root = 0)
    : client.spaces index = .zero := by
  rcases ready.spaces index with unused | ⟨paths, formed⟩
  · exact unused
  · exact absurd dead (formed.root_ne_zero ready.ready)

end SpacesReady

variable [DecidableEq ι]

/-- What a request does when it is served. -/
inductive SpacesStep (client : SpacesClient ι)
    : SpacesRequest ι → SpacesReply → SpacesClient ι → Prop
  | refused (request : SpacesRequest ι) : SpacesStep client request (.verdict false) client
  | allocRefused (output : Option U64)
      : SpacesStep client (.alloc output) (.alloc false output) client
  | created (index : ι) {root : U64} {machine : Machine} (unused : client.spaces index = .zero)
      (takes : client.machine.Takes machine [root] [])
      (formed : machine.SpaceFormed ⟨root, [root]⟩ {[]})
      (upper
        : client.machine.BootTables → ∀ slot,
            256 ≤ slot
            → slot < 512
            → machine.entry root slot
              = client.machine.entry client.machine.bootRoot slot &&& ~~~pteUser)
      : SpacesStep client (.create (some index)) (.verdict true)
          ⟨machine, Function.update client.spaces index ⟨root, [root]⟩⟩
  | mapped (index : ι) {address physical : U64} {flags : U32} {ok : Bool} {space : AddressSpace}
      {machine : Machine} {taken : List U64}
      (live : (client.spaces index).root ≠ 0)
      (takes : client.machine.Takes machine taken (client.spaces index).tables)
      (root : space.root = (client.spaces index).root)
      (tables : space.tables = (client.spaces index).tables ++ taken)
      (formed : ∃ paths, machine.SpaceFormed space paths)
      (kept
        : ∀ page entry,
            client.machine.mapping space.root page = some entry
            → machine.mapping space.root page = some entry)
      (upper
        : ∀ slot,
            256 ≤ slot
            → slot < 512 → machine.entry space.root slot = client.machine.entry space.root slot)
      (limited
        : (client.spaces index).tables.length ≤ vmTableLimit → space.tables.length ≤ vmTableLimit)
      : SpacesStep client (.map (some index) address physical flags) (.verdict ok)
          ⟨machine, Function.update client.spaces index space⟩
  | unmapped (index : ι) {address : U64} {machine : Machine}
      (live : (client.spaces index).root ≠ 0)
      (takes : client.machine.Takes machine [] (client.spaces index).tables)
      (formed : ∃ paths, machine.SpaceFormed (client.spaces index) paths)
      (mapping
        : machine.mapping (client.spaces index).root
          = Function.update (client.machine.mapping (client.spaces index).root)
            (address.toNat / pageSize) none)
      (upper
        : ∀ slot < 512,
            machine.entry (client.spaces index).root slot
            = client.machine.entry (client.spaces index).root slot)
      : SpacesStep client (.unmap (some index) address) (.verdict true)
          ⟨machine.withTlb
              (if (client.spaces index).root = client.machine.currentRoot then
                client.machine.tlb.filter fun translation =>
                  translation.page ≠ address.toNat / pageSize
              else client.machine.tlb),
            client.spaces⟩
  | switched (space : Option ι)
      : SpacesStep client (.switch space) .done
          { client with machine :=
            { client.machine with
              cr3 := (space.map fun index => (client.spaces index).root).getD
                client.machine.bootRoot
              tlb := [] } }
  | destroyed (index : ι) {machine : Machine} (live : (client.spaces index).root ≠ 0)
      (inactive : (client.spaces index).root ≠ client.machine.currentRoot)
      (returns : client.machine.Returns machine (client.spaces index).tables)
      : SpacesStep client (.destroy (some index)) (.verdict true)
          ⟨machine, Function.update client.spaces index .zero⟩
  | allocated (output : U64) {frame : Nat} (free : client.machine.IsFree frame)
      : SpacesStep client (.alloc (some output)) (.alloc true (some (frameAddress frame)))
          { client with machine := client.machine.allocate frame }
  | freed {address : U64} (outstanding : client.machine.Outstanding address)
      : SpacesStep client (.free address) (.verdict true)
          { client with machine := client.machine.release (frameOf address.toNat) }
  | stored (address : Nat) (byte : Byte)
      : SpacesStep client (.store address byte) .done
          { client with machine :=
            { client.machine with memory := client.machine.memory.store address byte } }
  | cached (address : U64)
      : SpacesStep client (.cache address) .done
          { client with machine := client.machine.cached address }

theorem withSpace_ok {index : ι}
    (program : Option AddressSpace → MachineM (Bool × Option AddressSpace))
    {client : SpacesClient ι} {ok : Bool} {space : AddressSpace} {machine : Machine}
    (returns : program (some (client.spaces index)) client.machine = .ok ((ok, some space), machine))
    : withSpace (some index) program client
      = .ok (.verdict ok, ⟨machine, Function.update client.spaces index space⟩) := by
  rw [withSpace, bind_get_apply]
  exact (bind_ok (onSpaces_ok returns) _).trans rfl

/-- A program that leaves the space alone. -/
theorem withSpace_same {index : ι}
    (program : Option AddressSpace → MachineM (Bool × Option AddressSpace))
    {client : SpacesClient ι} {ok : Bool}
    (returns
      : program (some (client.spaces index)) client.machine
        = .ok ((ok, some (client.spaces index)), client.machine))
    : withSpace (some index) program client = .ok (.verdict ok, client) := by
  rw [withSpace_ok program returns, Function.update_eq_self]

namespace SpacesReady

variable {client : SpacesClient ι}

/-- A request that is served and does what it should. -/
def Served (client : SpacesClient ι) (request : SpacesRequest ι) : Prop :=
  ∃ reply client',
    spacesRequest request client = .ok (reply, client') ∧ SpacesStep client request reply client'

theorem create (ready : SpacesReady client) (space : Option ι)
    : Served client (.create space) := by
  cases space with
  | none => exact ⟨_, _, rfl, .refused _⟩
  | some index =>
      rcases eq_or_ne (client.spaces index).root 0 with dead | live
      · have unused := ready.unused dead
        rcases eq_or_ne client.machine.pages.freeCount 0 with exhausted | available
        · have refused := vmCreate_exhausted exhausted
          rw [← unused] at refused
          exact ⟨_, _, withSpace_same vmCreate refused, .refused _⟩
        · obtain ⟨root, machine, created, takes, formed, _, upper⟩ :=
            vmCreate_ok ready.ready available
          rw [← unused] at created
          exact ⟨_, _, withSpace_ok vmCreate created, .created index unused takes formed upper⟩
      · exact ⟨_, _, withSpace_same vmCreate (vmCreate_refused _ (Or.inl live)), .refused _⟩

theorem map (ready : SpacesReady client) (space : Option ι) (address physical : U64) (flags : U32)
    : Served client (.map space address physical flags) := by
  let program := fun space => vmMap space address physical flags
  cases space with
  | none => exact ⟨_, _, rfl, .refused _⟩
  | some index =>
      rcases eq_or_ne (client.spaces index).root 0 with dead | live
      · have refused : vmMap (some (client.spaces index)) address physical flags client.machine
            = .ok ((false, some (client.spaces index)), client.machine) := by
          unfold vmMap
          dsimp only
          rw [if_pos (show mapRefuses _ _ _ from Or.inl dead), pure_apply]
        exact ⟨_, _, withSpace_same program refused, .refused _⟩
      · obtain ⟨paths, formed⟩ := ready.formed live
        by_cases admits : client.machine.MapAdmits (client.spaces index) address physical flags
        · obtain ⟨ok, space', machine, paths', taken, result, takes, root, tables, formed', _, _,
            added, refused, limited, upper⟩ := formed.vmMap_outcome ready.ready admits
          refine ⟨_, _, withSpace_ok program result,
            .mapped index live takes root tables ⟨_, formed'⟩ ?_ (root ▸ upper) limited⟩
          intro page entry found
          rw [root] at found ⊢
          cases ok with
          | false => rw [(refused rfl).2.1.mapping, found]
          | true =>
              rw [(added rfl).2, Function.update_of_ne, found]
              intro same
              rw [same, admits.unmapped] at found
              cases found
        · exact ⟨_, _, withSpace_same program (formed.vmMap_refused ready.ready admits), .refused _⟩

theorem unmap (ready : SpacesReady client) (space : Option ι) (address : U64)
    : Served client (.unmap space address) := by
  have serve {ok : Bool} {machine : Machine}
      (result
        : vmUnmap (space.map client.spaces) address client.machine = .ok (ok, machine))
      : spacesRequest (.unmap space address) client
        = .ok (.verdict ok, { client with machine := machine }) := by
    rw [spacesRequest, bind_get_apply, bind_ok (onSpaces_ok result)]
    rfl
  cases space with
  | none =>
      have refused : vmUnmap none address client.machine = .ok (false, client.machine) := by
        rw [vmUnmap, bind_get_apply]
        dsimp only
        split <;> rfl
      exact ⟨_, _, serve refused, .refused _⟩
  | some index =>
      rcases eq_or_ne (client.spaces index).root 0 with dead | live
      · have refused : vmUnmap (some (client.spaces index)) address client.machine
            = .ok (false, client.machine) := by
          rw [vmUnmap, bind_get_apply]
          have none : client.machine.leafEntry (some (client.spaces index)) address 0 = none :=
            if_pos (Or.inl dead)
          simp only [none]
          split <;> rfl
        exact ⟨_, _, serve refused, .refused _⟩
      · obtain ⟨paths, formed⟩ := ready.formed live
        by_cases mapped : address.toNat % pageSize = 0
            ∧ client.machine.mapping (client.spaces index).root (address.toNat / pageSize) ≠ none
        · obtain ⟨machine, tlb, result, rfl, takes, formed', mapping, upper⟩ :=
            formed.vmUnmap_spec ready.ready mapped.1 mapped.2
          exact ⟨_, _, serve result, .unmapped index live takes ⟨_, formed'⟩ mapping upper⟩
        · exact ⟨_, _, serve (formed.vmUnmap_refused ready.ready mapped), .refused _⟩

/-- `vm_destroy` where it does not refuse. -/
theorem destroy_ok (ready : SpacesReady client) {index : ι}
    (accepted : ¬client.KeepsSpace (some index))
    : ∃ machine,
        spacesRequest (.destroy (some index)) client
          = .ok (.verdict true, ⟨machine, Function.update client.spaces index .zero⟩)
        ∧ client.machine.Returns machine (client.spaces index).tables := by
  obtain ⟨live, inactive⟩ := not_or.mp accepted
  obtain ⟨paths, formed⟩ := ready.formed live
  obtain ⟨machine, result, returns⟩ :=
    vmDestroy_spec ready.ready.toPagesWellFormed live inactive formed.distinct formed.outstanding
  exact ⟨machine, withSpace_ok vmDestroy result, returns.perm (List.reverse_perm _)⟩

theorem destroy_refused {space : Option ι} (refused : client.KeepsSpace space)
    : spacesRequest (.destroy space) client = .ok (.verdict false, client) := by
  cases space with
  | none => rfl
  | some index => exact withSpace_same vmDestroy (vmDestroy_refused refused)

theorem destroy (ready : SpacesReady client) (space : Option ι)
    : Served client (.destroy space) := by
  by_cases refused : client.KeepsSpace space
  · exact ⟨_, _, destroy_refused refused, .refused _⟩
  · cases space with
    | none => exact absurd trivial refused
    | some index =>
        obtain ⟨machine, served, returns⟩ := ready.destroy_ok refused
        obtain ⟨live, inactive⟩ := not_or.mp refused
        exact ⟨_, _, served, .destroyed index live inactive returns⟩

theorem alloc (ready : SpacesReady client) (output : Option U64)
    : Served client (.alloc output) := by
  cases output with
  | none =>
      have refused := pageAlloc_refused client.machine none (Or.inl rfl)
      exact ⟨_, _, bind_ok (onSpaces_ok refused) _, .allocRefused none⟩
  | some output =>
      rcases eq_or_ne client.machine.pages.freeCount 0 with exhausted | available
      · have refused := pageAlloc_refused client.machine (some output) (Or.inr exhausted)
        exact ⟨_, _, bind_ok (onSpaces_ok refused) _, .allocRefused (some output)⟩
      · obtain ⟨frame, ⟨_, _, _, free, _⟩, taken⟩ := ready.ready.pageAlloc_ok output available
        exact ⟨_, _, bind_ok (onSpaces_ok taken) _, .allocated output free⟩

/-- Every permitted request is served. -/
theorem serve (ready : SpacesReady client) {audit : Audit ι}
    (owned : ∀ address ∈ audit.owned, client.machine.Outstanding address)
    (request : SpacesRequest ι) (permits : SpacesPermits audit client request)
    : Served client request := by
  cases request with
  | create space => exact ready.create space
  | map space address physical flags => exact ready.map space address physical flags
  | unmap space address => exact ready.unmap space address
  | switch space => exact ⟨_, _, rfl, .switched space⟩
  | destroy space => exact ready.destroy space
  | alloc output => exact ready.alloc output
  | free address =>
      have outstanding := owned address permits
      exact ⟨_, _, bind_ok (onSpaces_ok (ready.ready.pageFree_ok outstanding)) _,
        .freed outstanding⟩
  | store address byte => exact ⟨_, _, rfl, .stored address byte⟩
  | cache address => exact ⟨_, _, rfl, .cached address⟩

end SpacesReady

end Steps

end MiniLinux
