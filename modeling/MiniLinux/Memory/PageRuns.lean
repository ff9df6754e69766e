import MiniLinux.Foundation.Sessions
import MiniLinux.Memory.PageInit

/-! The allocator over whole runs.
An observer who sees only calls and replies keeps the set of outstanding addresses. After
every run that set is exactly the set of allocated frames, and it decides the next reply.
-/

namespace MiniLinux

open Foundation Foundation.Halting

/-- A call of the allocator's clients; `none` is a null output pointer. -/
inductive PageCall where
  | alloc (output : Option U64)
  | free (address : U64)
  | data (address : U64)
  deriving DecidableEq, Repr

/-- What a call returns: the caller's variable after `page_alloc`, the verdict of
`page_free`, or the pointer of `page_data`.
-/
inductive PageReply where
  | alloc (ok : Bool) (output : Option U64)
  | free (ok : Bool)
  | data (pointer : Option U64)
  deriving DecidableEq, Repr

/-- One call. -/
def pageCall : PageCall → MachineM PageReply
  | .alloc output => do
      let result ← pageAlloc output
      pure (.alloc result.1 result.2)
  | .free address => do
      let ok ← pageFree address
      pure (.free ok)
  | .data address => do
      let pointer ← pageData address
      pure (.data pointer)

/-- The observer's set of addresses handed out and not since freed. -/
def outstandingAfter (live : Finset U64) : PageCall → PageReply → Finset U64
  | .alloc _, .alloc true (some address) => insert address live
  | .free address, .free true => live.erase address
  | _, _ => live

/-- The observer's set agrees with the allocator, which started as `start`. -/
structure Accounted (start : Machine) (live : Finset U64) (machine : Machine) : Prop where
  wellFormed : machine.PagesWellFormed
  outstanding : ∀ address, machine.Outstanding address ↔ address ∈ live
  balance : machine.pages.freeCount.toNat + live.card = start.freeFrames.card
  managed : ∀ frame, machine.IsFree frame ∨ machine.IsAllocated frame ↔ start.IsFree frame
  unmanaged : ∀ frame < start.frames, ¬start.IsFree frame
    → machine.stateOf frame = start.stateOf frame
  record : machine = { start with
      memory := machine.memory
      pages := { start.pages with
        freeCount := machine.pages.freeCount
        nextFrame := machine.pages.nextFrame } }

namespace Accounted

variable {start machine : Machine} {live : Finset U64}

theorem frames (accounted : Accounted start live machine) : machine.frames = start.frames := by
  rw [accounted.record]
  rfl

theorem start_self (wellFormed : start.PagesWellFormed)
    (unallocated : ∀ frame, ¬start.IsAllocated frame)
    : Accounted start ∅ start := by
  refine ⟨wellFormed, ?_, ?_, ?_, fun _ _ _ => rfl, rfl⟩
  · intro address
    simp only [Finset.notMem_empty, iff_false]
    exact fun outstanding => unallocated _ outstanding.2
  · rw [Finset.card_empty, Nat.add_zero, wellFormed.counted]
  · intro frame
    exact or_iff_left (unallocated frame)

/-- Taking a free frame adds its address to the observer's set. -/
theorem allocate (accounted : Accounted start live machine) {frame : Nat}
    (free : machine.IsFree frame)
    : frameAddress frame ∉ live
      ∧ Accounted start (insert (frameAddress frame) live) (machine.allocate frame) := by
  have wellFormed := accounted.wellFormed
  have inside := free.1
  have fresh : frameAddress frame ∉ live := by
    intro member
    have allocated := ((accounted.outstanding _).mpr member).2
    rw [wellFormed.frameOf_frameAddress inside] at allocated
    exact free.not_allocated allocated
  have available : machine.pages.freeCount.toNat ≠ 0 := by
    intro zero
    exact wellFormed.freeCount_ne_zero.mpr ⟨frame, free⟩ (BitVec.eq_of_toNat_eq zero)
  refine ⟨fresh, wellFormed.allocate free, ?_, ?_, ?_, ?_, ?_⟩
  · intro address
    rw [Machine.Outstanding, wellFormed.isAllocated_allocate inside, Finset.mem_insert,
      ← accounted.outstanding address, Machine.Outstanding]
    constructor
    · rintro ⟨aligned, rfl | allocated⟩
      · exact Or.inl (frameAddress_frameOf aligned).symm
      · exact Or.inr ⟨aligned, allocated⟩
    · rintro (rfl | ⟨aligned, allocated⟩)
      · exact ⟨wellFormed.frameAddress_aligned inside,
          Or.inl (wellFormed.frameOf_frameAddress inside)⟩
      · exact ⟨aligned, Or.inr allocated⟩
  · have balance := accounted.balance
    have taken : (machine.allocate frame).pages.freeCount.toNat
        = machine.pages.freeCount.toNat - 1 := toNat_sub_one available
    rw [Finset.card_insert_of_notMem fresh, taken]
    omega
  · intro other
    rw [wellFormed.isFree_allocate inside, wellFormed.isAllocated_allocate inside,
      ← accounted.managed other]
    constructor
    · rintro (⟨_, kept⟩ | rfl | kept)
      · exact Or.inl kept
      · exact Or.inl free
      · exact Or.inr kept
    · rintro (kept | kept)
      · by_cases same : other = frame
        · exact Or.inr (Or.inl same)
        · exact Or.inl ⟨same, kept⟩
      · exact Or.inr (Or.inr kept)
  · intro other inside' out
    have different : other ≠ frame := by
      rintro rfl
      exact out ((accounted.managed other).mp (Or.inl free))
    rw [wellFormed.stateOf_allocate inside (by rw [accounted.frames]; exact inside'),
      if_neg different]
    exact accounted.unmanaged other inside' out
  · rw [Machine.allocate, Machine.withState, accounted.record]

/-- Returning an outstanding address removes it from the observer's set. -/
theorem release (accounted : Accounted start live machine) {address : U64}
    (outstanding : machine.Outstanding address)
    : Accounted start (live.erase address) (machine.release (frameOf address.toNat)) := by
  have wellFormed := accounted.wellFormed
  have allocated := outstanding.2
  have inside := allocated.1
  have member := (accounted.outstanding address).mp outstanding
  have released := wellFormed.release allocated
  refine ⟨released, ?_, ?_, ?_, ?_, ?_⟩
  · intro other
    rw [Machine.Outstanding, wellFormed.isAllocated_release inside, Finset.mem_erase,
      ← accounted.outstanding other, Machine.Outstanding]
    constructor
    · rintro ⟨aligned, different, kept⟩
      exact ⟨fun same => different (same ▸ rfl), aligned, kept⟩
    · rintro ⟨different, aligned, kept⟩
      refine ⟨aligned, fun same => different ?_, kept⟩
      rw [← frameAddress_frameOf aligned, same, frameAddress_frameOf outstanding.1]
  · have balance := accounted.balance
    have returned : (machine.release (frameOf address.toNat)).pages.freeCount.toNat
        = machine.pages.freeCount.toNat + 1 := by
      have bound := machine.pages.frameCount.isLt
      have few : start.freeFrames.card ≤ start.frames := by
        rw [← Finset.card_range start.frames]
        exact Finset.card_le_card (Finset.filter_subset _ _)
      have some : 0 < live.card := Finset.card_pos.mpr ⟨address, member⟩
      have same : machine.frames = start.frames := accounted.frames
      rw [Machine.frames] at same
      exact toNat_add_one (by omega)
    have some : 0 < live.card := Finset.card_pos.mpr ⟨address, member⟩
    rw [Finset.card_erase_of_mem member, returned]
    omega
  · intro other
    rw [wellFormed.isFree_release inside, wellFormed.isAllocated_release inside,
      ← accounted.managed other]
    constructor
    · rintro ((rfl | kept) | ⟨_, kept⟩)
      · exact Or.inr allocated
      · exact Or.inl kept
      · exact Or.inr kept
    · rintro (kept | kept)
      · exact Or.inl (Or.inr kept)
      · by_cases same : other = frameOf address.toNat
        · exact Or.inl (Or.inl same)
        · exact Or.inr ⟨same, kept⟩
  · intro other inside' out
    have different : other ≠ frameOf address.toNat := by
      rintro rfl
      exact out ((accounted.managed _).mp (Or.inr allocated))
    rw [wellFormed.stateOf_release inside (by rw [accounted.frames]; exact inside'),
      if_neg different]
    exact accounted.unmanaged other inside' out
  · rw [Machine.release, Machine.withState, accounted.record]

/-- Every call is answered and keeps the observer's set in agreement. -/
theorem call (accounted : Accounted start live machine) (request : PageCall)
    : ∃ reply machine',
        pageCall request machine = .ok (reply, machine')
        ∧ Accounted start (outstandingAfter live request reply) machine' := by
  have wellFormed := accounted.wellFormed
  cases request with
  | alloc output =>
      by_cases refused : output = none ∨ machine.pages.freeCount = 0
      · refine ⟨.alloc false output, machine, ?_, accounted⟩
        rw [pageCall, bind_ok (pageAlloc_refused machine output refused)]
        rfl
      · obtain ⟨given, available⟩ := not_or.mp refused
        obtain ⟨variable', rfl⟩ := Option.ne_none_iff_exists'.mp given
        obtain ⟨frame, ⟨_, _, _, free, _⟩, taken⟩ :=
          wellFormed.pageAlloc_ok variable' available
        refine ⟨.alloc true (some (frameAddress frame)), machine.allocate frame, ?_,
          (accounted.allocate free).2⟩
        rw [pageCall, bind_ok taken]
        rfl
  | free address =>
      by_cases outstanding : machine.Outstanding address
      · refine ⟨.free true, machine.release (frameOf address.toNat), ?_,
          accounted.release outstanding⟩
        rw [pageCall, bind_ok (wellFormed.pageFree_ok outstanding)]
        rfl
      · refine ⟨.free false, machine, ?_, accounted⟩
        rw [pageCall, bind_ok (wellFormed.pageFree_refused outstanding)]
        rfl
  | data address =>
      let pointer :=
        if machine.Outstanding address then some (machine.pages.hhdmOffset + address) else none
      refine ⟨.data pointer, machine, ?_, accounted⟩
      rw [pageCall, bind_ok (wellFormed.pageData_eq address)]
      rfl

end Accounted

/-- What the observer's set says about the next reply of an allocator that was initialised
as `start` from `entries`. Refused calls leave the machine and the caller's variable alone.
-/
structure NextReplies (entries : List (Option MemmapEntry)) (start : Machine)
    (live : Finset U64) (machine : Machine)
    : Prop where
  allocated
    : live.card < start.freeFrames.card
      → ∀ output, ∃ address machine',
          pageCall (.alloc (some output)) machine
            = .ok (.alloc true (some address), machine')
          ∧ address.toNat % pageSize = 0
          ∧ address ≠ 0
          ∧ UsableFrame entries (frameOf address.toNat)
          ∧ ¬start.IsMetadata (frameOf address.toNat)
          ∧ address ∉ live
  exhausted
    : ¬live.card < start.freeFrames.card
      → ∀ output,
          pageCall (.alloc (some output)) machine = .ok (.alloc false (some output), machine)
  noVariable : pageCall (.alloc none) machine = .ok (.alloc false none, machine)
  freed
    : ∀ address ∈ live, ∃ machine', pageCall (.free address) machine = .ok (.free true, machine')
  notFreed
    : ∀ address, address ∉ live → pageCall (.free address) machine = .ok (.free false, machine)
  data
    : ∀ address ∈ live,
        start.pages.hhdmOffset + address ≠ 0
        ∧ pageCall (.data address) machine
          = .ok (.data (some (start.pages.hhdmOffset + address)), machine)
  noData
    : ∀ address, address ∉ live → pageCall (.data address) machine = .ok (.data none, machine)

/-- Agreement decides every reply. -/
theorem Accounted.nextReplies {before start machine : Machine} {live : Finset U64}
    {entries : List (Option MemmapEntry)} {hhdmOffset : U64}
    (initialised : before.Initialised start entries hhdmOffset)
    (accounted : Accounted start live machine)
    : NextReplies entries start live machine := by
  have wellFormed := accounted.wellFormed
  have balance := accounted.balance
  have offset : machine.pages.hhdmOffset = start.pages.hhdmOffset := by rw [accounted.record]
  have exhaustedIff : machine.pages.freeCount = 0 ↔ ¬live.card < start.freeFrames.card := by
    constructor
    · intro zero
      rw [zero] at balance
      change 0 + live.card = _ at balance
      omega
    · exact fun full => BitVec.eq_of_toNat_eq (by change _ = 0; omega)
  refine ⟨?_, ?_, ?_, ?_, ?_, ?_, ?_⟩
  · intro room output
    have available : machine.pages.freeCount ≠ 0 := fun zero => exhaustedIff.mp zero room
    obtain ⟨frame, ⟨_, _, _, free, _⟩, taken⟩ := wellFormed.pageAlloc_ok output available
    obtain ⟨usable, nonzero, notMetadata⟩ :=
      (initialised.free frame).mp ((accounted.managed frame).mp (Or.inl free))
    have place := wellFormed.frameOf_frameAddress free.1
    refine ⟨frameAddress frame, machine.allocate frame, ?_,
      wellFormed.frameAddress_aligned free.1, ?_, ?_, ?_, (accounted.allocate free).1⟩
    · rw [pageCall, bind_ok taken]
      rfl
    · intro zero
      rw [zero] at place
      exact nonzero place.symm
    · rw [place]
      exact usable
    · rw [place]
      exact notMetadata
  · intro full output
    rw [pageCall, bind_ok (pageAlloc_refused machine _ (Or.inr (exhaustedIff.mpr full)))]
    rfl
  · rw [pageCall, bind_ok (pageAlloc_refused machine none (Or.inl rfl))]
    rfl
  · intro address member
    have outstanding := (accounted.outstanding address).mpr member
    refine ⟨machine.release (frameOf address.toNat), ?_⟩
    rw [pageCall, bind_ok (wellFormed.pageFree_ok outstanding)]
    rfl
  · intro address absent
    have refused := mt (accounted.outstanding address).mp absent
    rw [pageCall, bind_ok (wellFormed.pageFree_refused refused)]
    rfl
  · intro address member
    have outstanding := (accounted.outstanding address).mpr member
    refine ⟨?_, ?_⟩
    · -- the pointer does not wrap, and frame 0 is never outstanding
      intro null
      have sum : (start.pages.hhdmOffset + address).toNat = 0 := congrArg BitVec.toNat null
      have mapped := wellFormed.mapped
      have inside := outstanding.2.1
      have nonzero := wellFormed.ne_zero_of_allocated outstanding.2
      rw [offset] at mapped
      rw [BitVec.toNat_add] at sum
      simp only [frameOf, pageSize] at *
      omega
    · rw [pageCall, bind_ok (wellFormed.pageData_eq address), if_pos outstanding, offset]
      rfl
  · intro address absent
    have refused := mt (accounted.outstanding address).mp absent
    rw [pageCall, bind_ok (wellFormed.pageData_eq address), if_neg refused]
    rfl

/-- After any run of calls from a successful `page_init`, the outstanding addresses are
exactly the allocated frames, the free count is what they leave of the initial one, frames
left out at initialisation have kept their state, and the next reply is decided. No call
reads or writes a state byte outside the table, since that would halt.
-/
theorem allocator_accounts_for_every_run {before start : Machine} (fresh : before.Fresh)
    {entries : List (Option MemmapEntry)} (disjoint : UsableDisjoint entries)
    {hhdmOffset : U64}
    (success : pageInit (some ⟨some entries⟩) hhdmOffset before = .ok (true, start))
    (calls : List PageCall)
    : start.pages.freeCount.toNat = start.freeFrames.card
      ∧ ∃ replies machine live,
          serve pageCall calls start = .ok (replies, machine)
          ∧ live = settle outstandingAfter ∅ calls replies
          ∧ (∀ address, machine.Outstanding address ↔ address ∈ live)
          ∧ live.card ≤ start.freeFrames.card
          ∧ machine.pages.freeCount.toNat = start.freeFrames.card - live.card
          ∧ machine.pages.freeCount.toNat = machine.freeFrames.card
          ∧ (∀ address ∈ live, start.IsFree (frameOf address.toNat))
          ∧ (∀ frame < start.frames, ¬start.IsFree frame
              → machine.stateOf frame = PageState.unmanaged.byte)
          ∧ NextReplies entries start live machine := by
  have initialised := pageInit_initialised fresh disjoint success
  have unallocated : ∀ frame, ¬start.IsAllocated frame := by
    intro frame allocated
    by_cases free : start.IsFree frame
    · exact free.not_allocated allocated
    · have state := initialised.unmanaged frame allocated.1 free
      rw [allocated.2] at state
      exact absurd (PageState.byte_injective state) (by decide)
  obtain ⟨replies, machine, served, accounted⟩ :=
    serve_invariant
      (fun live machine request (accounted : Accounted start live machine) =>
        accounted.call request)
      calls (Accounted.start_self initialised.wellFormed unallocated)
  have balance := accounted.balance
  refine ⟨initialised.wellFormed.counted, replies, machine, _, served, rfl,
    accounted.outstanding, by omega, by omega, accounted.wellFormed.counted, ?_, ?_,
    accounted.nextReplies initialised⟩
  · intro address member
    exact (accounted.managed _).mp (Or.inr ((accounted.outstanding address).mpr member).2)
  · intro frame inside out
    rw [accounted.unmanaged frame inside out]
    exact initialised.unmanaged frame inside out

/-- A machine before `page_init`, with empty memory. -/
def sampleMachine : Machine := ⟨fun _ => 0, Pages.zero, 0, 0, 0, []⟩

/-- One usable entry of 64 pages, and a reserved one that overlaps it. -/
def sampleEntries : List (Option MemmapEntry) :=
  [some ⟨0x8000, 0x1000, 1⟩, some ⟨0, 0x40000, 0⟩]

/-- The sample map is accepted at Limine's lowest direct-map offset. -/
theorem sample_initialises
    : ∃ start,
        pageInit (some ⟨some sampleEntries⟩) 0xffff800000000000 sampleMachine
          = .ok (true, start) := by
  have fresh : sampleMachine.Fresh := ⟨rfl, rfl, rfl⟩
  have planned : initPlan sampleEntries 0xffff800000000000 = some ⟨64, 1, 0x1000⟩ := by decide
  obtain ⟨start, result, _⟩ := pageInitEntries_ok fresh (by decide) planned
  exact ⟨start, (pageInit_fresh fresh _ _).trans result⟩

/-- In the sample every frame but the first and the one of metadata is free. -/
theorem sample_free {start : Machine}
    (initialised : sampleMachine.Initialised start sampleEntries 0xffff800000000000)
    : start.pages.freeCount.toNat = 62 := by
  obtain ⟨plan, planned, count, base, pages⟩ := initialised.planned
  have same : initPlan sampleEntries 0xffff800000000000 = some ⟨64, 1, 0x1000⟩ := by decide
  rw [same] at planned
  cases planned
  have free : start.freeFrames = Finset.Ico 2 64 := by
    ext frame
    have usable : UsableFrame sampleEntries frame ↔ frame < 64 := by
      have entries : usableEntries sampleEntries = [⟨0, 0x40000, 0⟩] := by decide
      simp only [UsableFrame, entries, List.mem_singleton, exists_eq_left]
      change 0 ≤ frame * 4096 ∧ frame * 4096 < 0 + 0x40000 ↔ frame < 64
      omega
    rw [start.mem_freeFrames, initialised.free, usable, Machine.IsMetadata, Machine.metadataFrame,
      base, pages, Finset.mem_Ico]
    change frame < 64 ∧ frame ≠ 0 ∧ ¬(1 ≤ frame ∧ frame < 1 + 1) ↔ _
    omega
  rw [initialised.wellFormed.counted, free]
  rfl

/-- One usable entry from 0, as long as the pages. -/
def flatEntries (pages : Nat) : List (Option MemmapEntry) :=
  [some ⟨0, BitVec.ofNat 64 (pages * pageSize), 0⟩]

/-- In flat memory all is free but frame 0 and the one of metadata. -/
theorem flat_initialises {machine : Machine} (fresh : machine.Fresh) {pages : Nat} (many : 2 ≤ pages)
    (few : pages < 2 ^ 20)
    (planned
      : initPlan (flatEntries pages) 0xffff800000000000
        = some ⟨BitVec.ofNat 64 pages, 1, 0x1000⟩)
    : ∃ start,
        pageInit (some ⟨some (flatEntries pages)⟩) 0xffff800000000000 machine = .ok (true, start)
        ∧ machine.Initialised start (flatEntries pages) 0xffff800000000000
        ∧ start.pages.freeCount.toNat = pages - 2 := by
  let entry : MemmapEntry := ⟨0, BitVec.ofNat 64 (pages * pageSize), 0⟩
  have disjoint : UsableDisjoint (flatEntries pages) := List.pairwise_singleton ..
  obtain ⟨start, result, _⟩ := pageInitEntries_ok fresh disjoint planned
  have paged : pageInit (some ⟨some (flatEntries pages)⟩) 0xffff800000000000 machine
      = .ok (true, start) :=
    (pageInit_fresh fresh _ _).trans result
  have initialised : machine.Initialised start (flatEntries pages) 0xffff800000000000 :=
    pageInit_initialised fresh disjoint paged
  refine ⟨start, paged, initialised, ?_⟩
  obtain ⟨plan, planned', count, base, metadata⟩ := initialised.planned
  cases planned.symm.trans planned'
  have free : start.freeFrames = Finset.Ico 2 pages := by
    ext frame
    have usable : UsableFrame (flatEntries pages) frame ↔ frame < pages := by
      have limit : entry.limit = pages * 4096 := by
        change 0 + (BitVec.ofNat 64 (pages * 4096)).toNat = _
        rw [BitVec.toNat_ofNat]
        omega
      have alone : usableEntries (flatEntries pages) = [entry] := rfl
      simp only [UsableFrame, alone, List.mem_singleton, exists_eq_left, MemmapEntry.Covers, limit]
      change 0 ≤ frame * 4096 ∧ frame * 4096 < pages * 4096 ↔ frame < pages
      omega
    rw [start.mem_freeFrames, initialised.free, usable, Machine.IsMetadata, Machine.metadataFrame,
      base, metadata, Finset.mem_Ico]
    have first : frameOf (0x1000 : U64).toNat = 1 := rfl
    have one : (1 : U64).toNat = 1 := rfl
    rw [first, one]
    omega
  rw [initialised.wellFormed.counted, free, Nat.card_Ico]

theorem allocator_accounts_for_sample_run
    : ∃ start replies machine,
        pageInit (some ⟨some sampleEntries⟩) 0xffff800000000000 sampleMachine = .ok (true, start)
        ∧ serve pageCall [.alloc (some 7), .free 0x1000, .alloc none, .data 0x2000] start
          = .ok (replies, machine)
        ∧ machine.pages.freeCount.toNat = machine.freeFrames.card := by
  obtain ⟨start, success⟩ := sample_initialises
  obtain ⟨_, replies, machine, _, served, _, _, _, _, counted, _⟩ :=
    allocator_accounts_for_every_run ⟨rfl, rfl, rfl⟩ (by decide) success
      [.alloc (some 7), .free 0x1000, .alloc none, .data 0x2000]
  exact ⟨start, replies, machine, success, served, counted⟩

-----------------------------------------------------------------------------------------
-- What page_init decides
-----------------------------------------------------------------------------------------

/-- A call that succeeds classifies every frame, and is the last one that does: `page_init` refuses
whatever was called in between. A call that fails changes nothing.
-/
theorem page_init_classifies_frames {machine : Machine} (fresh : machine.Fresh)
    (map : Option MemmapResponse) (hhdmOffset : U64)
    (disjoint : ∀ entries, map = some ⟨some entries⟩ → UsableDisjoint entries)
    : ∃ ok start,
        pageInit map hhdmOffset machine = .ok (ok, start)
        ∧ (ok = false → start = machine)
        ∧ (ok = true →
            (∃ entries, map = some ⟨some entries⟩ ∧ start.Classifies entries hhdmOffset)
            ∧ ∀ calls, ∃ replies later,
                serve pageCall calls start = .ok (replies, later)
                ∧ ∀ map' hhdmOffset', pageInit map' hhdmOffset' later = .ok (false, later)) := by
  rcases pageInit_spec fresh map hhdmOffset disjoint with
    refused | ⟨entries, start, rfl, accepted, initialised⟩
  · refine ⟨false, machine, refused, fun _ => rfl, ?_⟩
    intro impossible
    cases impossible
  · have classifies := initialised.classifies
    refine ⟨true, start, accepted, ?_, fun _ => ⟨⟨entries, rfl, classifies⟩, fun calls => ?_⟩⟩
    · intro impossible
      cases impossible
    obtain ⟨replies, later, served, accounted⟩ :=
      serve_invariant
        (fun live machine request (accounted : Accounted start live machine) =>
          accounted.call request)
        calls (Accounted.start_self initialised.wellFormed classifies.unallocated)
    exact ⟨replies, later, served, pageInit_again accounted.wellFormed.ready⟩

theorem page_init_classifies_sample_frames
    : ∃ start,
        pageInit (some ⟨some sampleEntries⟩) 0xffff800000000000 sampleMachine = .ok (true, start)
        ∧ start.Classifies sampleEntries 0xffff800000000000 := by
  obtain ⟨ok, start, result, _, success⟩ :=
    @page_init_classifies_frames sampleMachine ⟨rfl, rfl, rfl⟩ (some ⟨some sampleEntries⟩)
      0xffff800000000000 (fun entries known => by cases known; decide)
  obtain ⟨start', result'⟩ := sample_initialises
  cases result.symm.trans result'
  obtain ⟨⟨entries, known, classifies⟩, _⟩ := success rfl
  cases known
  exact ⟨start, result, classifies⟩

end MiniLinux
