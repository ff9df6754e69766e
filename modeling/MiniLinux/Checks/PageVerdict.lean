import MiniLinux.Checks.PageTest

/-! The verdict of the page allocator's self-test.
The test passes on every machine that `page_init` accepted, if there are two free pages and a page
of the bootloader to try; it gives back what it took.
-/

namespace MiniLinux

open Foundation Foundation.Halting

-----------------------------------------------------------------------------------------
-- The memory map
-----------------------------------------------------------------------------------------

/-- An entry of the bootloader that holds a page. -/
def MemmapEntry.Reclaimable (entry : MemmapEntry) : Prop :=
  entry.type = limineMemmapBootloaderReclaimable ∧ entry.length ≥ BitVec.ofNat 64 pageSize

/-- What the test relies on: the map that `page_init` accepted, and the frames that it freed. -/
structure Surveyed (entries : List (Option MemmapEntry)) (start : Machine) : Prop where
  wellFormed : start.PagesWellFormed
  whole : none ∉ entries
  fitting : ∀ entry ∈ usableEntries entries, entry.Fits (start.frames * pageSize)
  small : start.frames * pageSize < 2 ^ 64
  free
    : ∀ frame,
        start.IsFree frame ↔ UsableFrame entries frame ∧ frame ≠ 0 ∧ ¬start.IsMetadata frame
  unallocated : ∀ frame, ¬start.IsAllocated frame
  lowest : start.pages.nextFrame = 0

theorem highestUsable_whole {entries : List (Option MemmapEntry)} {highest limit : U64}
    (accepted : highestUsable entries highest = some limit)
    : none ∉ entries := by
  induction entries generalizing highest with
  | nil => simp
  | cons entry rest ih =>
      cases entry with
      | none => cases accepted
      | some entry =>
          simp only [List.mem_cons, reduceCtorEq, false_or]
          rw [highestUsable] at accepted
          split at accepted
          · exact ih accepted
          · split at accepted
            · cases accepted
            · exact ih accepted

theorem initPlan_whole {entries : List (Option MemmapEntry)} {hhdmOffset : U64} {plan : InitPlan}
    (planned : initPlan entries hhdmOffset = some plan)
    : none ∉ entries := by
  unfold initPlan at planned
  split at planned
  · cases planned
  · next accepted => exact highestUsable_whole accepted

theorem Machine.Initialised.surveyed {before start : Machine}
    {entries : List (Option MemmapEntry)} {hhdmOffset : U64}
    (initialised : before.Initialised start entries hhdmOffset)
    (lowest : start.pages.nextFrame = 0)
    : Surveyed entries start := by
  obtain ⟨plan, planned, count, _, _⟩ := initialised.planned
  have sound := initPlan_sound planned
  have frames : start.frames = plan.frameCount.toNat := congrArg BitVec.toNat count
  exact ⟨initialised.wellFormed, initPlan_whole planned, frames ▸ sound.fitting,
    frames ▸ sound.small, initialised.free, initialised.classifies.unallocated, lowest⟩

/-- `usable_page` finds the entry of a usable frame. Witness: induction on the entries. -/
theorem usablePage_passes {entries : List (Option MemmapEntry)} {highest : Nat} {address : U64}
    {machine : Machine} (whole : none ∉ entries)
    (fitting : ∀ entry ∈ usableEntries entries, entry.Fits highest) (small : highest < 2 ^ 64)
    (aligned : address.toNat % pageSize = 0)
    (usable : UsableFrame entries (frameOf address.toNat))
    : Passes (usablePage entries address)
        (fun found after => found = true ∧ after = machine) machine := by
  induction entries with
  | nil =>
      obtain ⟨_, member, _⟩ := usable
      cases member
  | cons entry rest ih =>
      cases entry with
      | none => exact absurd List.mem_cons_self whole
      | some entry =>
          rw [usablePage]
          split
          · exact .pure ⟨rfl, rfl⟩
          · next outside =>
              have whole' : none ∉ rest := fun member => whole (List.mem_cons_of_mem _ member)
              by_cases type : entry.type = limineMemmapUsable
              · rw [usableEntries_cons_usable rest type] at fitting
                refine ih whole' (fun other member => fitting other (List.mem_cons_of_mem _ member)) ?_
                obtain ⟨found, member, covers⟩ := usable
                rw [usableEntries_cons_usable rest type] at member
                rcases List.mem_cons.mp member with same | later
                · subst same
                  refine absurd ⟨type, ?_, ?_⟩ outside
                  · have low := covers.1
                    rw [ge_iff_le, BitVec.le_def]
                    simp only [frameOf, pageSize] at low aligned
                    omega
                  · have below := (fitting found List.mem_cons_self).below
                    have high := covers.2
                    simp only [MemmapEntry.limit] at below high
                    rw [BitVec.lt_def, BitVec.toNat_add, Nat.mod_eq_of_lt (by omega)]
                    simp only [frameOf, pageSize] at high aligned
                    omega
                · exact ⟨found, later, covers⟩
              · rw [usableEntries_cons_other rest type] at fitting
                obtain ⟨found, member, covers⟩ := usable
                rw [usableEntries_cons_other rest type] at member
                exact ih whole' fitting ⟨found, member, covers⟩

theorem reportMap_prints {entries : List (Option MemmapEntry)} (whole : none ∉ entries)
    : Prints (reportMap entries) := by
  induction entries with
  | nil => exact .pure
  | cons entry rest ih =>
      cases entry with
      | none => exact absurd List.mem_cons_self whole
      | some entry =>
          refine .bind ?_ (ih fun member => whole (List.mem_cons_of_mem _ member))
          exact .bind (.serialWrite _) (.bind (.serialWriteHex _) (.bind (.serialWrite _)
            (.bind (.serialWriteHex _) (.bind (.serialWrite _) (.bind (.serialWriteNumber _)
              (.serialWrite _))))))

theorem reportRecord_prints (hhdmOffset : U64) (info : PageInfo)
    : Prints (reportRecord hhdmOffset info) :=
  .bind (.serialWrite _) (.bind (.serialWriteHex _) (.bind (.serialWrite _)
    (.bind (.serialWriteNumber _) (.bind (.serialWrite _) (.bind (.serialWriteNumber _)
      (.bind (.serialWrite _) (.bind (.serialWriteHex _) (.bind (.serialWrite _)
        (.bind (.serialWriteNumber _) (.serialWrite _))))))))))

-----------------------------------------------------------------------------------------
-- Calls of the allocator
-----------------------------------------------------------------------------------------

section Calls

variable {machine : Machine}

theorem takePage_passes (wellFormed : machine.PagesWellFormed) (address : U64)
    (available : machine.pages.freeCount ≠ 0)
    : ∃ frame,
        machine.FirstFree machine.pages.nextFrame.toNat frame
        ∧ Passes (takePage address)
            (fun taken after => taken = (true, frameAddress frame) ∧ after = machine.allocate frame)
            machine := by
  obtain ⟨frame, first, taken⟩ := wellFormed.pageAlloc_ok address available
  exact ⟨frame, first, .onMachine taken (.pure ⟨rfl, rfl⟩)⟩

theorem takePage_refused (address : U64) (empty : machine.pages.freeCount = 0)
    : Passes (takePage address)
        (fun taken after => taken = (false, address) ∧ after = machine) machine :=
  .onMachine (pageAlloc_refused machine (some address) (Or.inr empty)) (.pure ⟨rfl, rfl⟩)

theorem rejectFree_passes (wellFormed : machine.PagesWellFormed) {address : U64}
    (refused : ¬machine.Outstanding address) (reason : String)
    : Passes (rejectFree address reason) (fun _ after => after = machine) machine :=
  .freeCount (.onMachine (wellFormed.pageFree_refused refused) (.require rfl (.freeCount
    (.require rfl (.prints (.serialWrite _) (.prints (.serialWrite _) (.prints (.serialWrite _)
      (.prints (.serialWriteHex _) (Prints.serialWrite _).passes))))))))

end Calls

-----------------------------------------------------------------------------------------
-- Ascending allocations
-----------------------------------------------------------------------------------------

/-- All frames below a bound are taken, and the search goes on from there. -/
structure Machine.Ascending (machine : Machine) (bound : Nat) : Prop where
  above : ∀ frame, machine.IsFree frame → bound ≤ frame
  cursor : machine.pages.nextFrame.toNat = bound % machine.frames

theorem Machine.Ascending.next {machine : Machine} {bound frame : Nat}
    (ascending : machine.Ascending bound) (wellFormed : machine.PagesWellFormed)
    (first : machine.FirstFree machine.pages.nextFrame.toNat frame)
    : bound ≤ frame ∧ (machine.allocate frame).Ascending (frame + 1) := by
  have free : machine.IsFree frame := first.firstFrom.holds
  rw [ascending.cursor] at first
  refine ⟨ascending.above frame free, ?_, ?_⟩
  · intro other free'
    obtain ⟨different, free'⟩ := (wellFormed.isFree_allocate free.1 other).mp free'
    have least := FirstFrom.least first.firstFrom
      (fun slot has => ⟨ascending.above slot has, has.1⟩) free'
    omega
  · exact congrArg SlotRing.cursor (wellFormed.ring_allocate free.1)

-----------------------------------------------------------------------------------------
-- The marks of the two pages
-----------------------------------------------------------------------------------------

/-- Two pages that lie apart below the end of the address space. -/
structure PagePair (first second : U64) : Prop where
  aligned : first.toNat % pageSize = 0
  aligned' : second.toNat % pageSize = 0
  below : first.toNat + pageSize ≤ 2 ^ 64
  below' : second.toNat + pageSize ≤ 2 ^ 64
  apart : first ≠ second

/-- The leading bytes of the two pages carry their marks. -/
def Marked (first second : U64) (count : Nat) (memory : Memory) : Prop :=
  ∀ i < count, memory (first.toNat + i) = 0x35 ∧ memory (second.toNat + i) = 0xca

/-- A byte of a page behind its direct-map pointer. -/
theorem directMap_page {physical : U64} {i : Nat} (below : physical.toNat + pageSize ≤ 2 ^ 64)
    (inside : i < pageSize) (offset : U64)
    : directMap offset (offset + physical + BitVec.ofNat 64 i) = physical.toNat + i := by
  rw [BitVec.add_assoc, directMap_add, BitVec.toNat_add, BitVec.toNat_ofNat]
  simp only [pageSize] at below inside
  omega

namespace PagePair

variable {first second : U64}

theorem ne (pair : PagePair first second) {i j : Nat} (inside : i < pageSize)
    (inside' : j < pageSize)
    : first.toNat + i ≠ second.toNat + j := by
  intro same
  apply pair.apart
  apply BitVec.eq_of_toNat_eq
  have aligned := pair.aligned
  have aligned' := pair.aligned'
  simp only [pageSize] at *
  omega

theorem frameOf_first (pair : PagePair first second) {i : Nat} (inside : i < pageSize)
    : frameOf (first.toNat + i) = frameOf first.toNat := by
  have aligned := pair.aligned
  simp only [frameOf, pageSize] at *
  omega

theorem frameOf_second (pair : PagePair first second) {i : Nat} (inside : i < pageSize)
    : frameOf (second.toNat + i) = frameOf second.toNat := by
  have aligned := pair.aligned'
  simp only [frameOf, pageSize] at *
  omega

/-- One round of the loop that fills the pages marks one more byte of each. -/
theorem mark (pair : PagePair first second) {i : Nat} (inside : i < pageSize) {memory : Memory}
    (marked : Marked first second i memory)
    : Marked first second (i + 1)
        ((memory.store (first.toNat + i) 0x35).store (second.toNat + i) 0xca) := by
  intro j bound
  have inside' : j < pageSize := by omega
  rcases Nat.lt_succ_iff_lt_or_eq.mp bound with before | same
  · obtain ⟨left, right⟩ := marked j before
    constructor
    · rw [Memory.store_of_ne _ _ (pair.ne inside' inside), Memory.store_of_ne _ _ (by omega), left]
    · rw [Memory.store_of_ne _ _ (by omega), Memory.store_of_ne _ _ (pair.ne inside inside').symm,
        right]
  · subst same
    refine ⟨?_, Memory.store_self ..⟩
    rw [Memory.store_of_ne _ _ (pair.ne inside inside), Memory.store_self]

end PagePair

section Marks

variable {first second : U64} {machine : Machine}

theorem storeDirect_page {physical : U64} {i : Nat} (below : physical.toNat + pageSize ≤ 2 ^ 64)
    (inside : i < pageSize) (byte : Byte)
    : storeDirect (machine.pages.hhdmOffset + physical + BitVec.ofNat 64 i) byte machine
      = .ok ((), { machine with memory := machine.memory.store (physical.toNat + i) byte }) := by
  rw [← directMap_page below inside machine.pages.hhdmOffset]
  rfl

/-- The loop marks both pages and writes nowhere else. Witness: induction on the rounds. -/
theorem fillPages_passes (pair : PagePair first second) (i count : Nat)
    (room : i + count ≤ pageSize) (marked : Marked first second i machine.memory)
    : Passes
        (fillPages (machine.pages.hhdmOffset + first) (machine.pages.hhdmOffset + second) i count)
        (fun _ after =>
          ∃ memory,
            after = { machine with memory := memory }
            ∧ Marked first second (i + count) memory
            ∧ ∀ byte,
                frameOf byte ≠ frameOf first.toNat
                → frameOf byte ≠ frameOf second.toNat
                → memory byte = machine.memory byte)
        machine := by
  induction count generalizing i machine with
  | zero => exact .pure ⟨machine.memory, rfl, marked, fun _ _ _ => rfl⟩
  | succ count ih =>
      have inside : i < pageSize := by omega
      rw [fillPages]
      refine .onMachine (storeDirect_page pair.below inside 0x35) ?_
      let middle : Machine :=
        { machine with memory := machine.memory.store (first.toNat + i) 0x35 }
      let later : Machine :=
        { machine with
          memory := (machine.memory.store (first.toNat + i) 0x35).store (second.toNat + i) 0xca }
      have stored : storeDirect (machine.pages.hhdmOffset + second + BitVec.ofNat 64 i) 0xca middle
          = .ok ((), later) :=
        @storeDirect_page middle second i pair.below' inside 0xca
      refine .onMachine stored ?_
      refine (@ih later (i + 1) (by omega) (pair.mark inside marked)).mono ?_
      intro _ after filled
      obtain ⟨memory, shape, marked', same⟩ := filled
      have rounds : i + 1 + count = i + (count + 1) := by omega
      refine ⟨memory, shape, rounds ▸ marked', ?_⟩
      intro byte left right
      refine (same byte left right).trans
        ((Memory.store_of_ne _ _ ?_).trans (Memory.store_of_ne _ _ ?_))
      · exact fun here => right (here ▸ pair.frameOf_second inside)
      · exact fun here => left (here ▸ pair.frameOf_first inside)

theorem readBack_passes (pair : PagePair first second) (message : String) (i count : Nat)
    (room : i + count ≤ pageSize) (marked : Marked first second (i + count) machine.memory)
    : Passes
        (readBack (machine.pages.hhdmOffset + first) (machine.pages.hhdmOffset + second) message i
          count)
        (fun _ after => after = machine) machine := by
  induction count generalizing i with
  | zero => exact .pure rfl
  | succ count ih =>
      have inside : i < pageSize := by omega
      obtain ⟨left, right⟩ := marked i (by omega)
      rw [readBack]
      refine .onMachine rfl (.onMachine rfl (.require ?_ ?_))
      · rw [directMap_page pair.below inside, directMap_page pair.below' inside]
        exact ⟨left, right⟩
      · have rounds : i + 1 + count = i + (count + 1) := by omega
        exact ih (i + 1) (by omega) (rounds ▸ marked)

/-- A state byte is written without touching a mark. -/
theorem Marked.withState (marked : Marked first second pageSize machine.memory)
    (wellFormed : machine.PagesWellFormed) (pair : PagePair first second)
    (outside : ¬machine.IsMetadata (frameOf first.toNat))
    (outside' : ¬machine.IsMetadata (frameOf second.toNat)) {frame : Nat}
    (inside : frame < machine.frames) (state : PageState)
    : Marked first second pageSize (machine.withState frame state).memory := by
  have metadata := wellFormed.stateAddress_metadata inside
  intro i bound
  obtain ⟨left, right⟩ := marked i bound
  refine ⟨(Memory.store_of_ne _ _ ?_).trans left, (Memory.store_of_ne _ _ ?_).trans right⟩
  · intro here
    rw [← here, pair.frameOf_first bound] at metadata
    exact outside metadata
  · intro here
    rw [← here, pair.frameOf_second bound] at metadata
    exact outside' metadata

end Marks

-----------------------------------------------------------------------------------------
-- The pages that the test holds
-----------------------------------------------------------------------------------------

/-- The test holds some pages, the two marked ones among them. -/
structure Held (start : Machine) (first second : U64) (live : Finset U64) (machine : Machine)
    : Prop where
  accounted : Accounted start live machine
  holds : first ∈ live
  holds' : second ∈ live
  apart : first ≠ second
  marked : Marked first second pageSize machine.memory

/-- Memory outside the metadata does not concern the allocator. -/
theorem Accounted.poke {start machine : Machine} {live : Finset U64}
    (accounted : Accounted start live machine) {memory : Memory}
    (same : ∀ byte, machine.IsMetadata (frameOf byte) → memory byte = machine.memory byte)
    : Accounted start live { machine with memory := memory } := by
  have wellFormed := accounted.wellFormed
  have state {frame : Nat} (inside : frame < machine.frames) :=
    wellFormed.stateOf_congr same inside
  have free (frame : Nat)
      : ({ machine with memory := memory } : Machine).IsFree frame ↔ machine.IsFree frame :=
    and_congr_right fun inside => by rw [state inside]
  have allocated (frame : Nat)
      : ({ machine with memory := memory } : Machine).IsAllocated frame
        ↔ machine.IsAllocated frame :=
    and_congr_right fun inside => by rw [state inside]
  refine ⟨wellFormed.congr same, ?_, accounted.balance, ?_, ?_, ?_⟩
  · exact fun address =>
      (and_congr_right fun _ => allocated _).trans (accounted.outstanding address)
  · exact fun frame => (or_congr (free frame) (allocated frame)).trans (accounted.managed frame)
  · intro frame inside out
    exact (state (accounted.frames.symm ▸ inside)).trans (accounted.unmanaged frame inside out)
  · rw [accounted.record]

/-- A page that is held lies outside the metadata and below the end of the address space. -/
theorem Accounted.page {entries : List (Option MemmapEntry)} {start machine : Machine}
    {live : Finset U64} (accounted : Accounted start live machine)
    (surveyed : Surveyed entries start) {address : U64} (member : address ∈ live)
    : address.toNat % pageSize = 0
      ∧ address.toNat + pageSize ≤ 2 ^ 64
      ∧ ¬machine.IsMetadata (frameOf address.toNat) := by
  obtain ⟨aligned, allocated⟩ := (accounted.outstanding address).mpr member
  refine ⟨aligned, ?_, accounted.wellFormed.not_metadata_of_allocated allocated⟩
  have inside := accounted.frames ▸ allocated.1
  have small := surveyed.small
  simp only [frameOf, pageSize] at *
  omega

/-- A page that is held was free at the start: usable, and neither frame 0 nor metadata. -/
theorem Accounted.usable {entries : List (Option MemmapEntry)} {start machine : Machine}
    {live : Finset U64} (accounted : Accounted start live machine)
    (surveyed : Surveyed entries start) {address : U64} (member : address ∈ live)
    : UsableFrame entries (frameOf address.toNat)
      ∧ frameOf address.toNat ≠ 0
      ∧ ¬start.IsMetadata (frameOf address.toNat) := by
  have allocated := ((accounted.outstanding address).mpr member).2
  exact (surveyed.free _).mp ((accounted.managed _).mp (Or.inr allocated))

/-- `usable_page` accepts a page that is held. -/
theorem Accounted.usablePage_passes {entries : List (Option MemmapEntry)}
    {start machine : Machine} {live : Finset U64} (accounted : Accounted start live machine)
    (surveyed : Surveyed entries start) {address : U64} (member : address ∈ live)
    : Passes (usablePage entries address)
        (fun found after => found = true ∧ after = machine) machine :=
  MiniLinux.usablePage_passes surveyed.whole surveyed.fitting surveyed.small
    (accounted.page surveyed member).1 (accounted.usable surveyed member).1

section Holding

variable {entries : List (Option MemmapEntry)} {start machine : Machine} {first second : U64}
  {live : Finset U64}

theorem Held.pair (held : Held start first second live machine)
    (surveyed : Surveyed entries start)
    : PagePair first second := by
  obtain ⟨aligned, below, _⟩ := held.accounted.page surveyed held.holds
  obtain ⟨aligned', below', _⟩ := held.accounted.page surveyed held.holds'
  exact ⟨aligned, aligned', below, below', held.apart⟩

/-- Taking one more page. -/
theorem Held.allocate (held : Held start first second live machine)
    (surveyed : Surveyed entries start) {frame : Nat} (free : machine.IsFree frame)
    : Held start first second (insert (frameAddress frame) live) (machine.allocate frame) :=
  ⟨(held.accounted.allocate free).2, Finset.mem_insert_of_mem held.holds,
    Finset.mem_insert_of_mem held.holds', held.apart,
    held.marked.withState held.accounted.wellFormed (held.pair surveyed)
      (held.accounted.page surveyed held.holds).2.2 (held.accounted.page surveyed held.holds').2.2
      free.1 _⟩

/-- The test takes the two lowest pages. -/
theorem takeTwo_passes (surveyed : Surveyed entries start)
    (enough : 2 ≤ start.pages.freeCount.toNat)
    : Passes (takeTwo entries start.pages.freeCount)
        (fun pages after =>
          pages.1 ≠ pages.2
          ∧ Accounted start {pages.1, pages.2} after
          ∧ after.Ascending (frameOf pages.2.toNat + 1))
        start := by
  have accounted := Accounted.start_self surveyed.wellFormed surveyed.unallocated
  have ascending : start.Ascending 0 := by
    refine ⟨fun _ _ => Nat.zero_le _, ?_⟩
    rw [surveyed.lowest, Nat.zero_mod]
    rfl
  have available : start.pages.freeCount ≠ 0 := by
    intro zero
    rw [zero] at enough
    exact absurd enough (by decide)
  obtain ⟨frame, found, taken⟩ := takePage_passes surveyed.wellFormed 0 available
  obtain ⟨_, accounted⟩ := accounted.allocate found.firstFrom.holds
  obtain ⟨_, ascending⟩ := ascending.next surveyed.wellFormed found
  have left : (start.allocate frame).pages.freeCount.toNat = start.pages.freeCount.toNat - 1 :=
    toNat_sub_one (by omega)
  have available' : (start.allocate frame).pages.freeCount ≠ 0 := by
    intro zero
    rw [zero] at left
    change 0 = _ at left
    omega
  have wellFormed := accounted.wellFormed
  obtain ⟨frame', found', taken'⟩ := takePage_passes wellFormed 0 available'
  obtain ⟨fresh, accounted⟩ := accounted.allocate found'.firstFrom.holds
  obtain ⟨_, ascending⟩ := ascending.next wellFormed found'
  have both : insert (frameAddress frame') (insert (frameAddress frame) ∅)
      = ({frameAddress frame, frameAddress frame'} : Finset U64) :=
    Finset.pair_comm _ _
  rw [both] at accounted
  have member : frameAddress frame ∈ ({frameAddress frame, frameAddress frame'} : Finset U64) :=
    Finset.mem_insert_self _ _
  have member' : frameAddress frame' ∈ ({frameAddress frame, frameAddress frame'} : Finset U64) :=
    Finset.mem_insert_of_mem (Finset.mem_singleton_self _)
  have apart : frameAddress frame ≠ frameAddress frame' :=
    fun same => fresh (Finset.mem_insert.mpr (Or.inl same.symm))
  have place := wellFormed.frameOf_frameAddress found'.firstFrom.lt
  refine taken.next (.require rfl (taken'.next (.require rfl (.require ?_ ?_))))
  · exact ⟨apart, (accounted.page surveyed member).1, (accounted.page surveyed member').1⟩
  refine (accounted.usablePage_passes surveyed member).next
    (.next (accounted.usablePage_passes surveyed member') (.require rfl (.freeCount (.require ?_
      (.pure ⟨apart, accounted, ?_⟩)))))
  · change start.pages.freeCount - 1 - 1 = start.pages.freeCount - 2
    rw [sub_sub]
    rfl
  · rw [place]
    exact ascending

/-- The marks are set and read back. -/
theorem markPages_passes (surveyed : Surveyed entries start)
    (accounted : Accounted start {first, second} machine) (apart : first ≠ second)
    {bound : Nat} (ascending : machine.Ascending bound)
    : Passes (markPages first second)
        (fun pointers after =>
          pointers = (start.pages.hhdmOffset + first, start.pages.hhdmOffset + second)
          ∧ Held start first second {first, second} after
          ∧ after.Ascending bound)
        machine := by
  have member : first ∈ ({first, second} : Finset U64) := Finset.mem_insert_self _ _
  have member' : second ∈ ({first, second} : Finset U64) :=
    Finset.mem_insert_of_mem (Finset.mem_singleton_self _)
  obtain ⟨aligned, below, outside⟩ := accounted.page surveyed member
  obtain ⟨aligned', below', outside'⟩ := accounted.page surveyed member'
  have pair : PagePair first second := ⟨aligned, aligned', below, below', apart⟩
  have offset : machine.pages.hhdmOffset = start.pages.hhdmOffset := by rw [accounted.record]
  have data {address : U64} (held : address ∈ ({first, second} : Finset U64))
      : pageData address machine = .ok (some (machine.pages.hhdmOffset + address), machine) := by
    rw [accounted.wellFormed.pageData_eq, if_pos ((accounted.outstanding address).mpr held)]
  refine .onMachine (data member) (.onMachine (data member') (.require ⟨nofun, nofun⟩ ?_))
  refine (fillPages_passes pair 0 pageSize (by omega) nofun).bind ?_
  intro _ after filled
  obtain ⟨memory, rfl, marked, same⟩ := filled
  rw [Nat.zero_add] at marked
  have untouched (byte : Nat) (metadata : machine.IsMetadata (frameOf byte))
      : memory byte = machine.memory byte :=
    same byte (fun here => outside (here ▸ metadata)) (fun here => outside' (here ▸ metadata))
  have kept := accounted.poke untouched
  have held : Held start first second {first, second} { machine with memory := memory } :=
    ⟨kept, member, member', apart, marked⟩
  have ascending' : ({ machine with memory := memory } : Machine).Ascending bound := by
    refine ⟨fun frame free => ascending.above frame ⟨free.1, ?_⟩, ascending.cursor⟩
    rw [← accounted.wellFormed.stateOf_congr untouched free.1]
    exact free.2
  have read := @readBack_passes first second { machine with memory := memory } pair
    "distinct page readback differs" 0 pageSize (by omega) (by rw [Nat.zero_add]; exact marked)
  refine read.bind ?_
  intro _ after same'
  subst same'
  refine .prints (.serialWrite _) (.prints (.serialWriteHex _) (.prints (.serialWrite _)
    (.prints (.serialWriteHex _) (.prints (.serialWrite _) (.pure ⟨?_, held, ascending'⟩)))))
  rw [offset]

/-- What the test does not hold is refused. -/
theorem Accounted.rejectFree (accounted : Accounted start live machine) {address : U64}
    (absent : address ∉ live) (reason : String)
    : Passes (rejectFree address reason) (fun _ after => after = machine) machine :=
  rejectFree_passes accounted.wellFormed (mt (accounted.outstanding address).mp absent) reason

/-- The first entry of the bootloader is tried, if there is one. -/
theorem rejectReclaimable_passes (accounted : Accounted start live machine)
    (whole : none ∉ entries)
    (absent
      : ∀ entry, some entry ∈ entries → entry.Reclaimable → entry.base ∉ live)
    : Passes (rejectReclaimable entries)
        (fun seen after =>
          (seen = true ↔ ∃ entry, some entry ∈ entries ∧ entry.Reclaimable) ∧ after = machine)
        machine := by
  induction entries with
  | nil => exact .pure ⟨by simp, rfl⟩
  | cons entry rest ih =>
      cases entry with
      | none => exact absurd List.mem_cons_self whole
      | some entry =>
          rw [rejectReclaimable]
          split
          · next reclaimable =>
              refine (accounted.rejectFree (absent entry List.mem_cons_self reclaimable) _).bind ?_
              intro _ _ same
              exact .pure ⟨iff_of_true rfl ⟨entry, List.mem_cons_self, reclaimable⟩, same⟩
          · next other =>
              refine (ih (fun member => whole (List.mem_cons_of_mem _ member))
                fun entry member => absent entry (List.mem_cons_of_mem _ member)).mono ?_
              intro seen after known
              refine ⟨known.1.trans ?_, known.2⟩
              constructor
              · intro found
                obtain ⟨entry', member, reclaimable⟩ := found
                exact ⟨entry', List.mem_cons_of_mem _ member, reclaimable⟩
              · intro found
                obtain ⟨entry', member, reclaimable⟩ := found
                rcases List.mem_cons.mp member with same | later
                · exact absurd (Option.some.inj same ▸ reclaimable) other
                · exact ⟨entry', later, reclaimable⟩

/-- The rejections pass if there is a page of the bootloader to try. -/
theorem rejections_decide (surveyed : Surveyed entries start)
    (held : Held start first second live machine)
    (count : machine.pages.freeCount = start.pages.freeCount - 2)
    (absent
      : ∀ entry, some entry ∈ entries → entry.Reclaimable → entry.base ∉ live)
    (map : MemmapResponse) (hhdmOffset : U64)
    : Decides (rejections map entries hhdmOffset start.pageInfo first)
        (∃ entry, some entry ∈ entries ∧ entry.Reclaimable) (fun _ after => after = machine)
        "no bootloader-reclaimable page to check" machine := by
  have accounted := held.accounted
  have wellFormed := surveyed.wellFormed
  have zero : (0 : U64) ∉ live := fun member => (accounted.usable surveyed member).2.1 rfl
  have metadata : start.pages.metadataBase ∉ live := by
    intro member
    refine (accounted.usable surveyed member).2.2 ⟨Nat.le_refl _, ?_⟩
    have inside := wellFormed.nextInside
    have covers := wellFormed.metadataHolds
    simp only [Machine.metadataFrame, pageSize] at *
    omega
  have unaligned : first + 1 ∉ live := by
    intro member
    obtain ⟨aligned, below, _⟩ := accounted.page surveyed held.holds
    have other := (accounted.page surveyed member).1
    rw [toNat_add_one (by simp only [pageSize] at below; omega)] at other
    simp only [pageSize] at aligned other
    omega
  have outside : start.pages.frameCount * BitVec.ofNat 64 pageSize ∉ live := by
    intro member
    have inside := ((accounted.outstanding _).mpr member).2.1
    have small := surveyed.small
    have product : (start.pages.frameCount * BitVec.ofNat 64 pageSize).toNat
        = start.frames * pageSize := by
      rw [BitVec.toNat_mul]
      exact Nat.mod_eq_of_lt small
    rw [product, frameOf, Nat.mul_div_cancel _ (by decide), accounted.frames] at inside
    exact absurd inside (Nat.lt_irrefl _)
  refine (accounted.rejectFree zero _).decides fun _ after same => ?_
  subst same
  refine (accounted.rejectFree metadata _).decides fun _ after same => ?_
  subst same
  refine (accounted.rejectFree unaligned _).decides fun _ after same => ?_
  subst same
  refine (accounted.rejectFree outside _).decides fun _ after same => ?_
  subst same
  refine (rejectReclaimable_passes accounted surveyed.whole absent).decides ?_
  intro seen after known
  obtain ⟨decided, rfl⟩ := known
  refine ⟨fun found => .require (decided.mpr found) ?_, fun missing => .require fun seen' =>
    missing (decided.mp seen')⟩
  refine .onMachine (pageInit_again accounted.wellFormed.ready _ _) (.require rfl (.freeCount
    (.required count)))

/-- A frame outside the metadata has its address there. -/
theorem Surveyed.frameAddress_outside (surveyed : Surveyed entries start) {frame : Nat}
    (inside : frame < start.frames) (outside : ¬start.IsMetadata frame)
    : frameAddress frame < start.pages.metadataBase
      ∨ frameAddress frame
        ≥ start.pages.metadataBase + start.pages.metadataPages * BitVec.ofNat 64 pageSize := by
  have number := surveyed.wellFormed.frameAddress_toNat inside
  have aligned := surveyed.wellFormed.metadataAligned
  have room := surveyed.wellFormed.metadataInside
  have small := surveyed.small
  have size : (BitVec.ofNat 64 pageSize).toNat = 4096 := rfl
  rw [BitVec.lt_def, ge_iff_le, BitVec.le_def, number, BitVec.toNat_add, BitVec.toNat_mul, size]
  simp only [Machine.IsMetadata, Machine.metadataFrame, frameOf, pageSize] at *
  omega

/-- The loop takes all pages that are left. Witness: induction on the rounds, whose bound leaves
one for the allocation that fails.
-/
theorem exhaust_passes (surveyed : Surveyed entries start) (rounds : Nat)
    (address last allocated : U64) (held : Held start first second live machine)
    (ascending : machine.Ascending (frameOf last.toNat + 1)) (aligned : last.toNat % pageSize = 0)
    (taken : allocated.toNat = live.card) (enough : start.freeFrames.card < live.card + rounds)
    : Passes (exhaust entries start.pageInfo rounds address last allocated)
        (fun total after =>
          total = start.pages.freeCount
          ∧ after.pages.freeCount = 0
          ∧ ∃ live', Held start first second live' after)
        machine := by
  have counted := surveyed.wellFormed.counted
  induction rounds generalizing machine live address last allocated with
  | zero =>
      have balance := held.accounted.balance
      omega
  | succ rounds ih =>
      have wellFormed := held.accounted.wellFormed
      have balance := held.accounted.balance
      rw [exhaust]
      by_cases empty : machine.pages.freeCount = 0
      · refine (takePage_refused address empty).next (.pure ⟨?_, empty, live, held⟩)
        apply BitVec.eq_of_toNat_eq
        rw [empty] at balance
        change 0 + live.card = _ at balance
        omega
      · obtain ⟨frame, found, passes⟩ := takePage_passes wellFormed address empty
        obtain ⟨above, ascending'⟩ := ascending.next wellFormed found
        have held' := held.allocate surveyed found.firstFrom.holds
        have fresh := (held.accounted.allocate found.firstFrom.holds).1
        have member := Finset.mem_insert_self (frameAddress frame) live
        have place := wellFormed.frameOf_frameAddress found.firstFrom.lt
        have number := wellFormed.frameAddress_toNat found.firstFrom.lt
        have positive : machine.pages.freeCount.toNat ≠ 0 :=
          fun zero => empty (BitVec.eq_of_toNat_eq zero)
        have card := Finset.card_insert_of_notMem fresh
        have bound := start.pages.freeCount.isLt
        have next : (allocated + 1).toNat = allocated.toNat + 1 := toNat_add_one (by omega)
        refine passes.next (.require ?_ ((held'.accounted.usablePage_passes surveyed member).next
          (.require rfl (.require ?_ (.require ?_ (ih _ _ _ held' ?_ ?_ ?_ ?_))))))
        · rw [gt_iff_lt, BitVec.lt_def, number]
          simp only [frameOf, pageSize] at above aligned ⊢
          omega
        · have outside := (held'.accounted.usable surveyed member).2.2
          rw [place] at outside
          have inside := found.firstFrom.lt
          rw [held.accounted.frames] at inside
          exact surveyed.frameAddress_outside inside outside
        · rw [BitVec.le_def, next]
          change _ ≤ start.pages.freeCount.toNat
          omega
        · rw [place]
          exact ascending'
        · exact wellFormed.frameAddress_aligned found.firstFrom.lt
        · omega
        · omega

theorem checkExhausted_passes (empty : machine.pages.freeCount = 0)
    : Passes (checkExhausted start.pageInfo start.pages.freeCount)
        (fun _ after => after = machine) machine :=
  .freeCount (.require ⟨rfl, empty⟩ ((takePage_refused (-1) empty).next (.required ⟨rfl, rfl⟩)))

/-- The first page is the only free one between its release and the next allocation. -/
theorem reusePage_passes (surveyed : Surveyed entries start)
    (held : Held start first second live machine) (empty : machine.pages.freeCount = 0)
    (allocated : U64)
    : Passes
        (reusePage first (start.pages.hhdmOffset + first) (start.pages.hhdmOffset + second)
          allocated)
        (fun _ after => Held start first second live after ∧ after.pages.freeCount = 0)
        machine := by
  have accounted := held.accounted
  have wellFormed := accounted.wellFormed
  have outstanding := (accounted.outstanding first).mpr held.holds
  have pair := held.pair surveyed
  let released := machine.release (frameOf first.toNat)
  have accounted' : Accounted start (live.erase first) released := accounted.release outstanding
  have wellFormed' := accounted'.wellFormed
  have one : released.pages.freeCount = 1 := by
    change machine.pages.freeCount + 1 = 1
    rw [empty]
    rfl
  have gone : ¬released.Outstanding first :=
    mt (accounted'.outstanding first).mp (Finset.notMem_erase _ _)
  have data : pageData first released = .ok (none, released) := by
    rw [wellFormed'.pageData_eq, if_neg gone]
  obtain ⟨frame, found, taken⟩ := takePage_passes wellFormed' 0 (by rw [one]; decide)
  have free := found.firstFrom.holds
  have only : frame = frameOf first.toNat := by
    refine ((wellFormed.isFree_release outstanding.2.1 frame).mp free).resolve_right ?_
    exact fun other => wellFormed.freeCount_ne_zero.mpr ⟨frame, other⟩ empty
  subst only
  rw [frameAddress_frameOf outstanding.1] at taken
  obtain ⟨_, again⟩ := accounted'.allocate free
  rw [frameAddress_frameOf outstanding.1, Finset.insert_erase held.holds] at again
  have outside := (accounted.page surveyed held.holds).2.2
  have outside' := (accounted.page surveyed held.holds').2.2
  have kept : Marked first second pageSize released.memory :=
    held.marked.withState wellFormed pair outside outside' outstanding.2.1 .free
  have marked : Marked first second pageSize (released.allocate (frameOf first.toNat)).memory :=
    kept.withState wellFormed' pair outside outside' free.1 .allocated
  have offset : (released.allocate (frameOf first.toNat)).pages.hhdmOffset = start.pages.hhdmOffset := by
    rw [again.record]
  have none : (released.allocate (frameOf first.toNat)).pages.freeCount = 0 := by
    change released.pages.freeCount - 1 = 0
    rw [one]
    rfl
  refine .onMachine (wellFormed.pageFree_ok outstanding) (.freeCount (.require ⟨rfl, one⟩ ?_))
  refine .onMachine data (.require rfl ?_)
  refine (accounted'.rejectFree (Finset.notMem_erase _ _) _).bind fun _ after same => ?_
  subst same
  refine taken.next (.freeCount (.require ⟨rfl, rfl, none⟩ ?_))
  have read := readBack_passes pair "page content changed during allocator operations" 0 pageSize
    (by omega) (by rw [Nat.zero_add]; exact marked)
  rw [offset] at read
  refine read.bind fun _ after same => ?_
  subst same
  exact .prints (.serialWrite _) (.prints (.serialWriteNumber _)
    ((Prints.serialWrite _).passes.mono fun _ _ same =>
      same ▸ ⟨⟨again, held.holds, held.holds', held.apart, marked⟩, none⟩))

/-- The loop over all frames returns exactly the pages that are held. Witness: induction on the
frames that are left.
-/
theorem returnFrames_passes (frame count : Nat) (returned : U64)
    (accounted : Accounted start live machine) (rest : frame + count = start.frames)
    (ahead : ∀ address ∈ live, frame ≤ frameOf address.toNat)
    (small : returned.toNat + live.card < 2 ^ 64)
    : Passes (returnFrames frame count returned)
        (fun total after =>
          total.toNat = returned.toNat + live.card ∧ Accounted start ∅ after)
        machine := by
  induction count generalizing frame returned live machine with
  | zero =>
      have none : live = ∅ := by
        refine Finset.eq_empty_of_forall_notMem fun address member => ?_
        have inside := ((accounted.outstanding address).mpr member).2.1
        have low := ahead address member
        rw [accounted.frames] at inside
        omega
      subst none
      exact .pure ⟨rfl, accounted⟩
  | succ count ih =>
      have wellFormed := accounted.wellFormed
      have inside : frame < machine.frames := by
        rw [accounted.frames]
        omega
      have place := wellFormed.frameOf_frameAddress inside
      have address : BitVec.ofNat 64 frame * BitVec.ofNat 64 pageSize = frameAddress frame :=
        (BitVec.ofNat_mul ..).symm
      have further (other : U64) (member : other ∈ live) (different : other ≠ frameAddress frame)
          : frame + 1 ≤ frameOf other.toNat := by
        refine Nat.lt_of_le_of_ne (ahead other member) fun same => different ?_
        have aligned := ((accounted.outstanding other).mpr member).1
        rw [← frameAddress_frameOf aligned, ← same]
      rw [returnFrames, address]
      by_cases member : frameAddress frame ∈ live
      · have outstanding := (accounted.outstanding _).mpr member
        have positive := Finset.card_pos.mpr ⟨_, member⟩
        have card := Finset.card_erase_of_mem member
        have next : (returned + 1).toNat = returned.toNat + 1 := toNat_add_one (by omega)
        refine .onMachine (wellFormed.pageFree_ok outstanding) ?_
        refine (ih (frame + 1) (returned + 1) (accounted.release outstanding) (by omega) ?_
          (by omega)).mono ?_
        · intro other kept
          exact further other (Finset.mem_of_mem_erase kept) (Finset.ne_of_mem_erase kept)
        · exact fun total after done => ⟨by omega, done.2⟩
      · have refused := mt (accounted.outstanding _).mp member
        refine .onMachine (wellFormed.pageFree_refused refused) ?_
        exact ih (frame + 1) returned accounted (by omega)
          (fun other kept => further other kept fun same => member (same ▸ kept)) small

/-- All pages go back, and one more is taken and returned. -/
theorem returnAll_passes (surveyed : Surveyed entries start)
    (held : Held start first second live machine) (empty : machine.pages.freeCount = 0)
    : Passes (returnAll start.pageInfo first) (fun _ after => Accounted start ∅ after)
        machine := by
  have counted := surveyed.wellFormed.counted
  have balance := held.accounted.balance
  have bound := start.pages.freeCount.isLt
  have positive : 0 < live.card := Finset.card_pos.mpr ⟨first, held.holds⟩
  have full {after : Machine} (accounted : Accounted start ∅ after)
      : after.pages.freeCount = start.pages.freeCount := by
    have balance := accounted.balance
    rw [Finset.card_empty] at balance
    exact BitVec.eq_of_toNat_eq (by omega)
  have nothing : machine.pages.freeCount.toNat = 0 := congrArg BitVec.toNat empty
  have start' : (0 : U64).toNat = 0 := rfl
  refine (returnFrames_passes 0 start.frames 0 held.accounted (Nat.zero_add _)
    (fun _ _ => Nat.zero_le _) (by omega)).bind ?_
  intro total after done
  obtain ⟨total', accounted⟩ := done
  have available : after.pages.freeCount ≠ 0 := by
    intro zero
    have none := congrArg BitVec.toNat ((full accounted).symm.trans zero)
    omega
  obtain ⟨frame, found, taken⟩ := takePage_passes accounted.wellFormed (-1) available
  obtain ⟨_, accounted'⟩ := accounted.allocate found.firstFrom.holds
  have outstanding := (accounted'.outstanding (frameAddress frame)).mpr (Finset.mem_insert_self _ _)
  have again := accounted'.release outstanding
  rw [Finset.erase_insert (Finset.notMem_empty _)] at again
  refine .freeCount (.require ⟨BitVec.eq_of_toNat_eq (by change _ = start.pages.freeCount.toNat; omega),
    full accounted⟩ ?_)
  refine (accounted.rejectFree (Finset.notMem_empty _) _).bind fun _ after' same => ?_
  subst same
  refine taken.next (.onMachine (accounted'.wellFormed.pageFree_ok outstanding) (.require rfl
    (.freeCount (.require (full again) (.prints (.serialWrite _) (.prints (.serialWriteNumber _)
      ((Prints.serialWrite _).passes.mono ?_)))))))
  exact fun _ _ same => same ▸ again

end Holding

-----------------------------------------------------------------------------------------
-- The verdict
-----------------------------------------------------------------------------------------

/-- No page of the bootloader begins in a usable entry, as Limine guarantees. -/
def BootloaderApart (entries : List (Option MemmapEntry)) : Prop :=
  ∀ entry, some entry ∈ entries → entry.Reclaimable → ¬UsableFrame entries (frameOf entry.base.toNat)

/-- `page_selftest` on every machine that `page_init` accepted: with fewer than two free pages, or
without a page of the bootloader to try, it stops with the panic that says so; otherwise it passes,
and all frames are as they were. Witness: the phases, each by what the test holds.
-/
theorem page_selftest_decides {before start : Machine} (fresh : before.Fresh)
    {entries : List (Option MemmapEntry)} {hhdmOffset : U64} (disjoint : UsableDisjoint entries)
    (apart : BootloaderApart entries)
    (success : pageInit (some ⟨some entries⟩) hhdmOffset before = .ok (true, start))
    : (start.freeFrames.card < 2
        → Fails (pageSelftest ⟨some entries⟩ hhdmOffset) "fewer than two free pages" start)
      ∧ (2 ≤ start.freeFrames.card
        → Decides (pageSelftest ⟨some entries⟩ hhdmOffset)
            (∃ entry, some entry ∈ entries ∧ entry.Reclaimable)
            (fun _ after => Accounted start ∅ after)
            "no bootloader-reclaimable page to check" start) := by
  have initialised := pageInit_initialised fresh disjoint success
  have surveyed := initialised.surveyed (pageInit_startsLow fresh disjoint success)
  have counted := surveyed.wellFormed.counted
  have two : (2 : U64).toNat = 2 := rfl
  constructor
  · intro few lab same
    subst same
    refine bind_require_error (fun enough => ?_) _ _
    have enough' : 2 ≤ lab.machine.pages.freeCount.toNat := enough
    omega
  · intro enough
    have asked : Passes pageGetInfo (fun info after => info = start.pageInfo ∧ after = start) start :=
      fun lab same => ⟨lab.machine.pageInfo, lab, rfl, same ▸ ⟨rfl, rfl⟩⟩
    refine asked.decides fun info after known => ?_
    obtain ⟨rfl, rfl⟩ := known
    rw [← counted] at enough
    refine (Passes.required enough).decides fun _ after same => ?_
    subst same
    refine (reportRecord_prints _ _).passes.decides fun _ after same => ?_
    subst same
    refine (reportMap_prints surveyed.whole).passes.decides fun _ after same => ?_
    subst same
    refine (takeTwo_passes surveyed enough).decides fun pages machine taken => ?_
    obtain ⟨first, second⟩ := pages
    obtain ⟨different, accounted, ascending⟩ := taken
    dsimp only at different accounted ascending
    refine (markPages_passes surveyed accounted different ascending).decides
      fun pointers machine marked => ?_
    obtain ⟨rfl, held, ascending⟩ := marked
    have card : ({first, second} : Finset U64).card = 2 := Finset.card_pair different
    have balance := held.accounted.balance
    have count : machine.pages.freeCount = after.pages.freeCount - 2 := by
      apply BitVec.eq_of_toNat_eq
      rw [BitVec.toNat_sub, two]
      omega
    have absent (entry : MemmapEntry) (member : some entry ∈ entries) (page : entry.Reclaimable)
        : entry.base ∉ ({first, second} : Finset U64) :=
      fun inside => apart entry member page (held.accounted.usable surveyed inside).1
    refine (rejections_decide surveyed held count absent _ _).bind fun _ _ machine' same => ?_
    subst same
    have page := held.accounted.page surveyed held.holds'
    refine (exhaust_passes surveyed after.pages.freeCount.toNat 0 second 2 held ascending page.1
      card.symm (by omega)).bind fun total machine taken => ?_
    obtain ⟨rfl, empty, live, held⟩ := taken
    refine (checkExhausted_passes empty).bind fun _ _ same => ?_
    subst same
    refine (reusePage_passes surveyed held empty _).bind fun _ machine reused => ?_
    exact returnAll_passes surveyed reused.1 reused.2

/-- A usable entry, and one of the bootloader behind it. -/
def bootEntries : List (Option MemmapEntry) :=
  [some ⟨0, 0x40000, 0⟩, some ⟨0x40000, 0x2000, 5⟩]

theorem page_selftest_decides_on_sample
    : ∃ start,
        pageInit (some ⟨some bootEntries⟩) 0xffff800000000000 sampleMachine = .ok (true, start)
        ∧ Passes (pageSelftest ⟨some bootEntries⟩ 0xffff800000000000)
            (fun _ after => Accounted start ∅ after) start := by
  have fresh : sampleMachine.Fresh := ⟨rfl, rfl, rfl⟩
  have planned : initPlan bootEntries 0xffff800000000000 = some ⟨64, 1, 0x1000⟩ := by decide
  obtain ⟨start, result, _, initialised⟩ := pageInitEntries_ok fresh (by decide) planned
  have success := (pageInit_fresh fresh bootEntries 0xffff800000000000).trans result
  have apart : BootloaderApart bootEntries := by
    intro entry member reclaimable usable
    simp only [bootEntries, List.mem_cons, Option.some.injEq, List.not_mem_nil, or_false] at member
    rcases member with rfl | rfl
    · exact absurd reclaimable.1 (by decide)
    · obtain ⟨other, member', covers⟩ := usable
      have only : usableEntries bootEntries = [⟨0, 0x40000, 0⟩] := by decide
      rw [only, List.mem_singleton] at member'
      subst member'
      exact absurd covers.2 (by decide)
  have free (frame : Nat) (low : 2 ≤ frame) (high : frame < 64) : frame ∈ start.freeFrames := by
    obtain ⟨plan, planned', _, base, pages⟩ := initialised.planned
    cases planned.symm.trans planned'
    rw [start.mem_freeFrames, initialised.free]
    refine ⟨⟨⟨0, 0x40000, 0⟩, by decide, ?_, ?_⟩, by omega, ?_⟩
    · exact Nat.zero_le _
    · change frame * 4096 < 0 + 0x40000
      omega
    · rw [Machine.IsMetadata, Machine.metadataFrame, base, pages]
      change ¬(1 ≤ frame ∧ frame < 1 + 1)
      omega
  have enough : 2 ≤ start.freeFrames.card := by
    have pair : ({2, 3} : Finset Nat) ⊆ start.freeFrames := by
      intro frame member
      rcases Finset.mem_insert.mp member with same | same
      · exact free frame (by omega) (by omega)
      · rw [Finset.mem_singleton] at same
        exact free frame (by omega) (by omega)
    exact Finset.card_le_card pair
  exact ⟨start, success, ((page_selftest_decides fresh (by decide) apart success).2 enough).passes
    ⟨⟨0x40000, 0x2000, 5⟩, by decide, rfl, by decide⟩⟩

/-- The kernel of the first level always ends in a panic, and in the one that it intends exactly if
`page_init` accepts the map, two pages are free and the bootloader has one.
-/
theorem kernelMainPages_stops {info : BootInfo} {cold : Lab} (fresh : cold.machine.Fresh)
    (guaranteed : info.Guaranteed)
    (apart : ∀ entries, info.memmap.entries = some entries → BootloaderApart entries)
    : ∃ message,
        kernelMainPages info cold = .error (.panic message)
        ∧ (message = "M1 reached its intentional stop"
          ↔ ∃ entries start,
              info.memmap.entries = some entries
              ∧ pageInit (some info.memmap) info.hhdmOffset cold.machine = .ok (true, start)
              ∧ 2 ≤ start.freeFrames.card
              ∧ ∃ entry, some entry ∈ entries ∧ entry.Reclaimable) := by
  obtain ⟨⟨found⟩, hhdmOffset, cr4⟩ := info
  let greeted : Lab := ((cold.printed (textBytes "MiniLinux M")).printed
    (textBytes (toString (1 : U64).toNat))).printed (textBytes ": entered kernel_main\n")
  have opened : kernelMainPages ⟨⟨found⟩, hhdmOffset, cr4⟩ cold
      = (do
          let ok ← onMachine (pageInit (some ⟨found⟩) hhdmOffset)
          if ok then do
            pageSelftest ⟨found⟩ hhdmOffset
            halt (.panic "M1 reached its intentional stop")
          else halt (.panic "physical page initialization failed") : LabM Unit) greeted :=
    rfl
  dsimp only at guaranteed apart ⊢
  have disjoint (entries : List (Option MemmapEntry))
      (known : some (MemmapResponse.mk found) = some ⟨some entries⟩)
      : UsableDisjoint entries := by
    cases known
    exact guaranteed.disjoint entries rfl
  rcases pageInit_spec fresh (some ⟨found⟩) hhdmOffset disjoint with refused | accepted
  · have called : onMachine (pageInit (some ⟨found⟩) hhdmOffset) greeted = .ok (false, greeted) :=
      @onMachine_ok _ _ greeted _ _ refused
    refine ⟨"physical page initialization failed", opened.trans (bind_ok called _),
      iff_of_false (by decide) ?_⟩
    intro impossible
    obtain ⟨_, _, _, accepted, _⟩ := impossible
    cases refused.symm.trans accepted
  · obtain ⟨entries, start, known, success, _⟩ := accepted
    cases known
    have called : onMachine (pageInit (some ⟨some entries⟩) hhdmOffset) greeted
        = .ok (true, { greeted with machine := start }) :=
      @onMachine_ok _ _ greeted _ _ success
    obtain ⟨few, enough⟩ :=
      page_selftest_decides fresh (disjoint entries rfl) (apart entries rfl) success
    have only (missing : ¬(2 ≤ start.freeFrames.card
          ∧ ∃ entry, some entry ∈ entries ∧ entry.Reclaimable))
        : ¬∃ entries' start',
            some entries = some entries'
            ∧ pageInit (some ⟨some entries⟩) hhdmOffset cold.machine = .ok (true, start')
            ∧ 2 ≤ start'.freeFrames.card
            ∧ ∃ entry, some entry ∈ entries' ∧ entry.Reclaimable := by
      intro found
      obtain ⟨entries', start', same, success', both⟩ := found
      cases same
      cases success.symm.trans success'
      exact missing both
    have stops {message : String}
        (fails : Fails (pageSelftest ⟨some entries⟩ hhdmOffset) message start)
        : kernelMainPages ⟨⟨some entries⟩, hhdmOffset, cr4⟩ cold = .error (.panic message) :=
      opened.trans ((bind_ok called _).trans
        (bind_error (fails { greeted with machine := start } rfl) _))
    by_cases two : 2 ≤ start.freeFrames.card
    · by_cases reclaimable : ∃ entry, some entry ∈ entries ∧ entry.Reclaimable
      · obtain ⟨_, lab', passed, _⟩ :=
          (enough two).passes reclaimable { greeted with machine := start } rfl
        refine ⟨"M1 reached its intentional stop",
          opened.trans ((bind_ok called _).trans ((bind_ok passed _).trans rfl)), iff_of_true rfl ?_⟩
        exact ⟨entries, start, rfl, success, two, reclaimable⟩
      · exact ⟨_, stops ((enough two).fails reclaimable),
          iff_of_false (by decide) (only fun both => reclaimable both.2)⟩
    · exact ⟨_, stops (few (not_le.mp two)), iff_of_false (by decide) (only fun both => two both.1)⟩

end MiniLinux
