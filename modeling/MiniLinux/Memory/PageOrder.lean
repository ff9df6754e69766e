import MiniLinux.Foundation.NextFit
import MiniLinux.Memory.PageRuns

/-! The order in which `page_alloc` hands out frames.
The free frames with `next_frame` are a ring that is handed out by next fit, whatever calls are
made and in whatever order.
-/

namespace MiniLinux

open Foundation Foundation.Halting

/-- The addresses handed out, in order. -/
def handedOut (replies : List PageReply) : List U64 :=
  replies.filterMap fun reply =>
    match reply with
    | .alloc true output => output
    | _ => none

/-- Where the search for the next frame starts: just after the one handed out last. -/
def searchStart (addresses : List U64) : Nat :=
  match addresses.getLast? with
  | some address => frameOf address.toNat + 1
  | none => 0

-----------------------------------------------------------------------------------------
-- The allocator as a ring
-----------------------------------------------------------------------------------------

def Machine.ring (machine : Machine) : SlotRing :=
  ⟨{frame | machine.IsFree frame}, machine.pages.nextFrame.toNat⟩

theorem Machine.FirstFree.firstFrom {machine : Machine} {start frame : Nat}
    (first : machine.FirstFree start frame)
    : FirstFrom machine.frames (· ∈ machine.ring.free) start frame :=
  first

theorem Machine.FirstFree.of_firstFrom {machine : Machine} {start frame : Nat}
    (first : FirstFrom machine.frames (· ∈ machine.ring.free) start frame)
    : machine.FirstFree start frame :=
  first

theorem Machine.PagesWellFormed.ring_allocate {machine : Machine}
    (wellFormed : machine.PagesWellFormed) {frame : Nat} (inside : frame < machine.frames)
    : (machine.allocate frame).ring
      = ⟨{other | other ≠ frame ∧ other ∈ machine.ring.free}, (frame + 1) % machine.frames⟩ := by
  have number : (BitVec.ofNat 64 frame).toNat = frame := by
    rw [BitVec.toNat_ofNat]
    exact Nat.mod_eq_of_lt (Nat.lt_trans inside machine.pages.frameCount.isLt)
  have free : {other | (machine.allocate frame).IsFree other}
      = {other | other ≠ frame ∧ other ∈ machine.ring.free} := by
    ext other
    exact wellFormed.isFree_allocate inside other
  have cursor : (nextCyclic machine.pages.frameCount (BitVec.ofNat 64 frame)).toNat
      = ((BitVec.ofNat 64 frame).toNat + 1) % machine.frames :=
    nextCyclic_toNat (number.symm ▸ inside)
  rw [number] at cursor
  exact congrArg₂ SlotRing.mk free cursor

theorem Machine.PagesWellFormed.ring_release {machine : Machine}
    (wellFormed : machine.PagesWellFormed) {frame : Nat} (inside : frame < machine.frames)
    : (machine.release frame).ring = ⟨insert frame machine.ring.free, machine.ring.cursor⟩ := by
  have free : {other | (machine.release frame).IsFree other} = insert frame machine.ring.free := by
    ext other
    exact wellFormed.isFree_release inside other
  exact congrArg (SlotRing.mk · _) free

/-- A successful `page_alloc` has taken the first free frame. -/
theorem Machine.PagesWellFormed.pageAlloc_taken {machine machine' : Machine}
    (wellFormed : machine.PagesWellFormed) {output address : Option U64}
    (taken : pageAlloc output machine = .ok ((true, address), machine'))
    : ∃ frame,
        machine.FirstFree machine.pages.nextFrame.toNat frame
        ∧ address = some (frameAddress frame)
        ∧ machine' = machine.allocate frame := by
  by_cases refused : output = none ∨ machine.pages.freeCount = 0
  · cases taken.symm.trans (pageAlloc_refused machine output refused)
  · obtain ⟨given, available⟩ := not_or.mp refused
    obtain ⟨variable', rfl⟩ := Option.ne_none_iff_exists'.mp given
    obtain ⟨frame, first, result⟩ := wellFormed.pageAlloc_ok variable' available
    cases taken.symm.trans result
    exact ⟨frame, first, rfl, rfl⟩

/-- What calls and replies tell about the frames that a run took and got back. -/
structure Explains (calls : List PageCall) (replies : List PageReply) (events : List SlotEvent)
    : Prop where
  handed : handedOut replies = (takenSlots events).map frameAddress
  given : ∀ frame, .give frame ∈ events → ∃ address, .free address ∈ calls

theorem Explains.cons {call : PageCall} {reply : PageReply} {event : SlotEvent}
    {calls : List PageCall} {replies : List PageReply} {events : List SlotEvent}
    (first : Explains [call] [reply] [event]) (rest : Explains calls replies events)
    : Explains (call :: calls) (reply :: replies) (event :: events) := by
  constructor
  · have joined := congrArg₂ (· ++ ·) first.handed rest.handed
    simp only [handedOut, takenSlots, ← List.map_append, ← List.filterMap_append,
      List.singleton_append] at joined ⊢
    exact joined
  · intro frame member
    rcases List.mem_cons.mp member with rfl | later
    · obtain ⟨address, same⟩ := first.given frame List.mem_cons_self
      exact ⟨address, List.mem_cons.mpr (Or.inl (List.mem_singleton.mp same))⟩
    · obtain ⟨address, among⟩ := rest.given frame later
      exact ⟨address, List.mem_cons_of_mem _ among⟩

namespace Accounted

variable {start machine : Machine} {live : Finset U64}

/-- Every call is a step of next fit. -/
theorem call_ring (accounted : Accounted start live machine) (call : PageCall)
    : ∃ reply machine' live' event,
        pageCall call machine = .ok (reply, machine')
        ∧ Accounted start live' machine'
        ∧ NextFitStep start.frames machine.ring event machine'.ring
        ∧ Explains [call] [reply] [event] := by
  have wellFormed := accounted.wellFormed
  rw [← accounted.frames]
  cases call with
  | alloc output =>
      by_cases refused : output = none ∨ machine.pages.freeCount = 0
      · refine ⟨.alloc false output, machine, live, .idle, ?_, accounted, .idle, rfl, by simp⟩
        rw [pageCall, bind_ok (pageAlloc_refused machine output refused)]
        rfl
      · obtain ⟨given, available⟩ := not_or.mp refused
        obtain ⟨variable', rfl⟩ := Option.ne_none_iff_exists'.mp given
        obtain ⟨frame, first, taken⟩ := wellFormed.pageAlloc_ok variable' available
        refine ⟨.alloc true (some (frameAddress frame)), machine.allocate frame, _, .take frame,
          ?_, (accounted.allocate first.firstFrom.holds).2, ?_, rfl, by simp⟩
        · rw [pageCall, bind_ok taken]
          rfl
        · rw [wellFormed.ring_allocate first.firstFrom.lt]
          exact .take first.firstFrom
  | free address =>
      by_cases outstanding : machine.Outstanding address
      · refine ⟨.free true, machine.release (frameOf address.toNat), _,
          .give (frameOf address.toNat), ?_, accounted.release outstanding, ?_, rfl,
          fun _ _ => ⟨address, List.mem_singleton_self _⟩⟩
        · rw [pageCall, bind_ok (wellFormed.pageFree_ok outstanding)]
          rfl
        · rw [wellFormed.ring_release outstanding.2.1]
          exact .give _
      · refine ⟨.free false, machine, live, .idle, ?_, accounted, .idle, rfl, by simp⟩
        rw [pageCall, bind_ok (wellFormed.pageFree_refused outstanding)]
        rfl
  | data address =>
      let pointer :=
        if machine.Outstanding address then some (machine.pages.hhdmOffset + address) else none
      refine ⟨.data pointer, machine, live, .idle, ?_, accounted, .idle, rfl, by simp⟩
      rw [pageCall, bind_ok (wellFormed.pageData_eq address)]
      rfl

/-- Every run of calls is a run of next fit. Witness: induction on the calls. -/
theorem serve_ring (accounted : Accounted start live machine) (calls : List PageCall)
    : ∃ replies machine' live' events,
        serve pageCall calls machine = .ok (replies, machine')
        ∧ Accounted start live' machine'
        ∧ NextFitRun start.frames machine.ring events machine'.ring
        ∧ Explains calls replies events := by
  induction calls generalizing machine live with
  | nil =>
      refine ⟨[], machine, live, [], rfl, accounted, .refl _, rfl, ?_⟩
      intro frame impossible
      cases impossible
  | cons call rest ih =>
      obtain ⟨reply, middle, live', event, handled, kept, step, explains⟩ :=
        accounted.call_ring call
      obtain ⟨replies, last, live'', events, served, done, run, later⟩ := ih kept
      refine ⟨reply :: replies, last, live'', event :: events, ?_, done, .step step run,
        explains.cons later⟩
      rw [serve_cons handled, bind_ok served]
      rfl

end Accounted

-----------------------------------------------------------------------------------------
-- The order of the addresses
-----------------------------------------------------------------------------------------

theorem Machine.PagesWellFormed.frameAddress_lt {machine : Machine}
    (wellFormed : machine.PagesWellFormed) {frame frame' : Nat} (order : frame < frame')
    (inside : frame' < machine.frames)
    : frameAddress frame < frameAddress frame' := by
  rw [BitVec.lt_def, wellFormed.frameAddress_toNat (Nat.lt_trans order inside),
    wellFormed.frameAddress_toNat inside]
  exact Nat.mul_lt_mul_of_pos_right order (by decide)

/-- The observer of the addresses knows where the search starts. -/
theorem searchStart_handedOut {slots : List Nat}
    (numbered : ∀ slot ∈ slots, frameOf (frameAddress slot).toNat = slot)
    : searchStart (slots.map frameAddress)
      = match slots.getLast? with
        | some slot => slot + 1
        | none => 0 := by
  rw [searchStart, List.getLast?_map]
  cases last : slots.getLast? with
  | none => rfl
  | some slot => simp only [Option.map_some, numbered slot (List.mem_of_getLast? last)]

namespace Accounted

variable {start machine : Machine} {live : Finset U64} {calls : List PageCall}
  {replies : List PageReply} {events : List SlotEvent}

/-- The next frame is the first free one behind the one handed out last. -/
theorem firstFree_next (accounted : Accounted start live machine)
    (low : start.pages.nextFrame = 0)
    (run : NextFitRun start.frames start.ring events machine.ring)
    (explains : Explains calls replies events) {output address : Option U64} {machine' : Machine}
    (taken : pageAlloc output machine = .ok ((true, address), machine'))
    : ∃ frame,
        address = some (frameAddress frame)
        ∧ machine.FirstFree (searchStart (handedOut replies)) frame := by
  obtain ⟨frame, first, rfl, rfl⟩ := accounted.wellFormed.pageAlloc_taken taken
  have numbered : ∀ slot ∈ takenSlots events, frameOf (frameAddress slot).toNat = slot := by
    intro slot member
    apply accounted.wellFormed.frameOf_frameAddress
    rw [accounted.frames]
    exact run.taken_lt slot member
  have cursor : machine.pages.nextFrame.toNat = _ := run.cursor_eq
  refine ⟨frame, rfl, ?_⟩
  rw [explains.handed, searchStart_handedOut numbered]
  rw [cursor] at first
  cases last : (takenSlots events).getLast? with
  | none =>
      have zero : start.ring.cursor = 0 := congrArg BitVec.toNat low
      rw [last] at first
      simp only [zero] at first
      exact first
  | some slot =>
      rw [last, ← accounted.frames] at first
      exact .of_firstFrom first.firstFrom.of_mod

/-- Between two allocations of a frame all frames are handed out that were free. -/
theorem handedOut_between (accounted : Accounted start live machine)
    {output output' : Option U64} {address : U64} {first last machine' : Machine}
    {between : List PageCall} {later : List PageReply}
    (taken : pageAlloc output machine = .ok ((true, some address), first))
    (served : serve pageCall between first = .ok (later, last))
    (again : pageAlloc output' last = .ok ((true, some address), machine'))
    {frame : Nat} (free : first.IsFree frame)
    : frameAddress frame ∈ handedOut later := by
  have wellFormed := accounted.wellFormed
  obtain ⟨slot, found, same, rfl⟩ := wellFormed.pageAlloc_taken taken
  have inside := found.firstFrom.lt
  have accountedFirst := (accounted.allocate found.firstFrom.holds).2
  obtain ⟨replies, last', live', events, served', accountedLast, run, explains⟩ :=
    accountedFirst.serve_ring between
  cases served.symm.trans served'
  obtain ⟨slot', found', same', rfl⟩ := accountedLast.wellFormed.pageAlloc_taken again
  have slots : slot' = slot := by
    have inside' : slot' < machine.frames := by
      rw [accounted.frames, ← accountedLast.frames]
      exact found'.firstFrom.lt
    cases same
    rw [← wellFormed.frameOf_frameAddress inside', ← wellFormed.frameOf_frameAddress inside,
      Option.some.inj same']
  have back := found'.firstFrom
  rw [accountedLast.frames, slots] at back
  obtain ⟨different, free'⟩ := (wellFormed.isFree_allocate inside frame).mp free
  have behind : (machine.allocate slot).ring.cursor = (slot + 1) % start.frames := by
    rw [wellFormed.ring_allocate inside, accounted.frames]
  rw [explains.handed]
  apply List.mem_map_of_mem
  exact run.revisit behind back free (accounted.frames ▸ free'.1) different

/-- Without a `page_free` the addresses ascend. -/
theorem handedOut_ascends (accounted : Accounted start live machine)
    (low : start.pages.nextFrame = 0)
    (run : NextFitRun start.frames start.ring events machine.ring)
    (explains : Explains calls replies events) (kept : ∀ address, .free address ∉ calls)
    : (handedOut replies).Pairwise (· < ·) := by
  have starts : start.ring.cursor = 0 % start.frames := by
    rw [Nat.zero_mod]
    exact congrArg BitVec.toNat low
  have ungiven : ∀ slot, SlotEvent.give slot ∉ events := by
    intro slot member
    obtain ⟨address, among⟩ := explains.given slot member
    exact kept address among
  obtain ⟨ascending, _⟩ := run.ascends (fun slot free => ⟨Nat.zero_le slot, free.1⟩) starts ungiven
  rw [explains.handed, List.pairwise_map]
  refine ascending.imp_of_mem ?_
  intro slot slot' member member' order
  apply accounted.wellFormed.frameAddress_lt order
  rw [accounted.frames]
  exact run.taken_lt slot' member'

end Accounted

/-- Frames are handed out by next fit, in every run of calls after a successful `page_init`: each
`page_alloc` that succeeds gives the first free frame from the one after its predecessor; from one
allocation of a frame to the next every other frame that was free is handed out; and without a
`page_free` the addresses ascend.
-/
theorem frames_are_handed_out_in_order {before start : Machine} (fresh : before.Fresh)
    {entries : List (Option MemmapEntry)} (disjoint : UsableDisjoint entries)
    {hhdmOffset : U64}
    (success : pageInit (some ⟨some entries⟩) hhdmOffset before = .ok (true, start))
    (calls : List PageCall)
    : ∃ replies machine,
        serve pageCall calls start = .ok (replies, machine)
        ∧ (∀ output address machine',
            pageAlloc output machine = .ok ((true, address), machine')
            → ∃ frame,
                address = some (frameAddress frame)
                ∧ machine.FirstFree (searchStart (handedOut replies)) frame)
        ∧ (∀ output output' address first between last later machine',
            pageAlloc output machine = .ok ((true, some address), first)
            → serve pageCall between first = .ok (later, last)
            → pageAlloc output' last = .ok ((true, some address), machine')
            → ∀ frame, first.IsFree frame → frameAddress frame ∈ handedOut later)
        ∧ ((∀ address, .free address ∉ calls) → (handedOut replies).Pairwise (· < ·)) := by
  have initialised := pageInit_initialised fresh disjoint success
  have low := pageInit_startsLow fresh disjoint success
  obtain ⟨replies, machine, live, events, served, accounted, run, explains⟩ :=
    (Accounted.start_self initialised.wellFormed initialised.classifies.unallocated).serve_ring
      calls
  refine ⟨replies, machine, served, ?_, ?_, accounted.handedOut_ascends low run explains⟩
  · intro output address machine' taken
    exact accounted.firstFree_next low run explains taken
  · intro output output' address first between last later machine' taken served' again frame free
    exact accounted.handedOut_between taken served' again free

/-- In the sample the frames behind the one of metadata are handed out in turn. -/
theorem frames_are_handed_out_in_order_in_sample
    : ∃ start replies machine,
        pageInit (some ⟨some sampleEntries⟩) 0xffff800000000000 sampleMachine = .ok (true, start)
        ∧ serve pageCall [.alloc (some 7), .data 0x2000, .alloc (some 0)] start
          = .ok (replies, machine)
        ∧ (handedOut replies).Pairwise (· < ·) := by
  obtain ⟨start, success⟩ := sample_initialises
  obtain ⟨replies, machine, served, _, _, ascending⟩ :=
    frames_are_handed_out_in_order ⟨rfl, rfl, rfl⟩ (by decide) success
      [.alloc (some 7), .data 0x2000, .alloc (some 0)]
  exact ⟨start, replies, machine, success, served, ascending (by simp)⟩

end MiniLinux
