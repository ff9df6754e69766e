import MiniLinux.Memory.Machine

/-! The page allocator of `kernel/memory/page.c`.
The state bytes live in physical memory, behind the pointer `states`, as they do in the
source; reading or writing one outside the table halts.
-/

namespace MiniLinux

open Foundation Foundation.Halting

/-- The physical byte that holds the state of a frame. -/
def Machine.stateAddress (machine : Machine) (frame : Nat) : Nat :=
  directMap machine.pages.hhdmOffset (machine.pages.states + BitVec.ofNat 64 frame)

/-- `pages.states[frame]` -/
def stateAt (frame : Nat) : MachineM Byte := fun machine =>
  if frame < machine.pages.frameCount.toNat then
    .ok (machine.memory (machine.stateAddress frame), machine)
  else .error .outOfBounds

/-- `pages.states[frame] = state` -/
def setState (frame : Nat) (state : PageState) : MachineM Unit := fun machine =>
  if frame < machine.pages.frameCount.toNat then
    .ok ((), { machine with memory := machine.memory.store (machine.stateAddress frame) state.byte })
  else .error .outOfBounds

/-- Changes the allocator's record. -/
def modifyPages (update : Pages → Pages) : MachineM Unit :=
  modify fun machine => { machine with pages := update machine.pages }

-----------------------------------------------------------------------------------------
-- page_init
-----------------------------------------------------------------------------------------

/-- `LIMINE_MEMMAP_USABLE` -/
def limineMemmapUsable : U64 := 0

/-- `struct limine_memmap_entry` -/
structure MemmapEntry where
  base : U64
  length : U64
  type : U64
  deriving DecidableEq, Repr

/-- `struct limine_memmap_response`; `none` stands for a null pointer. -/
structure MemmapResponse where
  entries : Option (List (Option MemmapEntry))
  deriving DecidableEq, Repr

/-- The first pass of `page_init`: the highest usable end, or `none` when the map is
refused.
-/
def highestUsable : List (Option MemmapEntry) → U64 → Option U64
  | [], highest => some highest
  | none :: _, _ => none
  | some entry :: rest, highest =>
      if entry.type ≠ limineMemmapUsable then highestUsable rest highest
      else if entry.base.toNat % pageSize ≠ 0 ∨ entry.length.toNat % pageSize ≠ 0
          ∨ entry.length > -1 - entry.base then
        none
      else
        let limit := entry.base + entry.length
        highestUsable rest (if limit > highest then limit else highest)

/-- The second pass of `page_init`: where the state bytes go, zero when nowhere. The first
pass has refused null entries.
-/
def metadataPlace (metadataBytes : U64) : List (Option MemmapEntry) → U64
  | [] => 0
  | none :: rest => metadataPlace metadataBytes rest
  | some entry :: rest =>
      if entry.type ≠ limineMemmapUsable then metadataPlace metadataBytes rest
      else
        let base := if entry.base = 0 then BitVec.ofNat 64 pageSize else entry.base
        let limit := entry.base + entry.length
        if base ≤ limit ∧ metadataBytes ≤ limit - base then base
        else metadataPlace metadataBytes rest

/-- `for (frame = first; frame < first + count; frame++) states[frame] = PAGE_UNMANAGED` -/
def clearStates (first : Nat) : Nat → MachineM Unit
  | 0 => pure ()
  | count + 1 => do
      setState first .unmanaged
      clearStates (first + 1) count

/-- The body of the third pass: frame 0 and the metadata stay unmanaged. -/
def freePage (metadataBase metadataEnd address : U64) : MachineM Unit :=
  if address = 0 ∨ (address ≥ metadataBase ∧ address < metadataEnd) then pure ()
  else do
    setState (frameOf address.toNat) .free
    modifyPages fun pages => { pages with freeCount := pages.freeCount + 1 }

/-- The inner loop of the third pass. The bound on the rounds is the number of pages of the
entry, so it never cuts the loop short.
-/
def freeEntry (metadataBase metadataEnd limit : U64) : Nat → U64 → MachineM Unit
  | 0, _ => pure ()
  | rounds + 1, address =>
      if address < limit then do
        freePage metadataBase metadataEnd address
        freeEntry metadataBase metadataEnd limit rounds (address + BitVec.ofNat 64 pageSize)
      else pure ()

/-- The third pass of `page_init`. -/
def freeUsable (metadataBase metadataEnd : U64) : List (Option MemmapEntry) → MachineM Unit
  | [] => pure ()
  | none :: rest => freeUsable metadataBase metadataEnd rest
  | some entry :: rest =>
      if entry.type ≠ limineMemmapUsable then freeUsable metadataBase metadataEnd rest
      else do
        freeEntry metadataBase metadataEnd (entry.base + entry.length)
          (entry.length.toNat / pageSize) entry.base
        freeUsable metadataBase metadataEnd rest

/-- What `page_init` has computed before it writes anything. -/
structure InitPlan where
  frameCount : U64
  metadataPages : U64
  metadataBase : U64
  deriving DecidableEq, Repr

/-- `metadata_bytes` -/
def InitPlan.metadataBytes (plan : InitPlan) : U64 :=
  plan.metadataPages * BitVec.ofNat 64 pageSize

/-- The first two passes of `page_init`; `none` when it returns false. -/
def initPlan (entries : List (Option MemmapEntry)) (hhdmOffset : U64) : Option InitPlan :=
  match highestUsable entries 0 with
  | none => none
  | some highest =>
      if highest = 0 ∨ highest - 1 > -1 - hhdmOffset then none
      else
        let frameCount := highest / BitVec.ofNat 64 pageSize
        let metadataPages :=
          (frameCount + BitVec.ofNat 64 pageSize - 1) / BitVec.ofNat 64 pageSize
        let metadataBase :=
          metadataPlace (metadataPages * BitVec.ofNat 64 pageSize) entries
        if metadataBase = 0 then none else some ⟨frameCount, metadataPages, metadataBase⟩

/-- `page_init` over a map that is not null. -/
def pageInitEntries (entries : List (Option MemmapEntry)) (hhdmOffset : U64) : MachineM Bool :=
  match initPlan entries hhdmOffset with
  | none => pure false
  | some plan => do
      modifyPages fun pages =>
        { pages with
          states := hhdmOffset + plan.metadataBase
          frameCount := plan.frameCount
          metadataBase := plan.metadataBase
          metadataPages := plan.metadataPages
          hhdmOffset := hhdmOffset }
      clearStates 0 plan.frameCount.toNat
      freeUsable plan.metadataBase (plan.metadataBase + plan.metadataBytes) entries
      pure true

/-- `page_init`; `none` is a null response. -/
def pageInit (map : Option MemmapResponse) (hhdmOffset : U64) : MachineM Bool := do
  let machine ← get
  if machine.pages.states ≠ 0 then pure false
  else
    match map with
    | none => pure false
    | some response =>
        match response.entries with
        | none => pure false
        | some entries => pageInitEntries entries hhdmOffset

-----------------------------------------------------------------------------------------
-- page_alloc, page_free, page_data, page_get_info
-----------------------------------------------------------------------------------------

/-- The frame after `frame`, wrapping at `frameCount`. -/
def nextCyclic (frameCount frame : U64) : U64 :=
  if frame + 1 = frameCount then 0 else frame + 1

/-- The scan of `page_alloc`: at most `rounds` frames from `frame`, wrapping. The caller's
variable is returned as the second component.
-/
def allocScan (address : Option U64) : Nat → U64 → MachineM (Bool × Option U64)
  | 0, _ => pure (false, address)
  | rounds + 1, frame => do
      let state ← stateAt frame.toNat
      if state = PageState.free.byte then do
        setState frame.toNat .allocated
        modifyPages fun pages =>
          { pages with
            freeCount := pages.freeCount - 1
            nextFrame := nextCyclic pages.frameCount frame }
        pure (true, some (frame * BitVec.ofNat 64 pageSize))
      else do
        let machine ← get
        allocScan address rounds (nextCyclic machine.pages.frameCount frame)

/-- `page_alloc`; `address` is the caller's variable, `none` a null pointer. -/
def pageAlloc (address : Option U64) : MachineM (Bool × Option U64) := do
  let machine ← get
  if address = none ∨ machine.pages.states = 0 ∨ machine.pages.freeCount = 0 then
    pure (false, address)
  else allocScan address machine.pages.frameCount.toNat machine.pages.nextFrame

/-- The test that `page_free` and `page_data` share: `address` is an allocated page. -/
def pageAllocated (address : U64) : MachineM Bool := do
  let machine ← get
  if machine.pages.states = 0 ∨ address.toNat % pageSize ≠ 0
      ∨ frameOf address.toNat ≥ machine.pages.frameCount.toNat then
    pure false
  else do
    let state ← stateAt (frameOf address.toNat)
    pure (state = PageState.allocated.byte)

/-- `page_free` -/
def pageFree (address : U64) : MachineM Bool := do
  let allocated ← pageAllocated address
  if allocated then do
    setState (frameOf address.toNat) .free
    modifyPages fun pages => { pages with freeCount := pages.freeCount + 1 }
    pure true
  else pure false

/-- `page_data`; `none` is a null pointer. -/
def pageData (address : U64) : MachineM (Option U64) := do
  let allocated ← pageAllocated address
  let machine ← get
  if allocated then pure (some (machine.pages.hhdmOffset + address)) else pure none

/-- `struct page_info` -/
structure PageInfo where
  frameCount : U64
  freeCount : U64
  metadataBase : U64
  metadataPages : U64
  deriving DecidableEq, Repr

/-- `page_get_info` -/
def Machine.pageInfo (machine : Machine) : PageInfo :=
  ⟨machine.pages.frameCount, machine.pages.freeCount, machine.pages.metadataBase,
    machine.pages.metadataPages⟩

end MiniLinux
