import MiniLinux.Checks.PageVerdict
import MiniLinux.Checks.SpaceTest
import MiniLinux.Laboratory.Spawning

/-! The verdict of `vm_selftest`: it passes exactly when six frames are free, whatever the processor
caches, and then every frame is as before.
-/

namespace MiniLinux

open Foundation Foundation.Halting

/-- The pages of the test, with the frame that the alias shows. -/
def testMap (first shown : U64) : Nat → Option (U64 × U32) :=
  Function.update
    (Function.update (fun _ => none) (testAddress.toNat / pageSize) (some (first, vmWrite)))
    (testAlias.toNat / pageSize) (some (shown, vmWrite))

/-- Where the test stops when frames run short. -/
def shortage : Nat → String
  | 0 => "M2 root allocation failed"
  | 1 => "M2 first data page failed"
  | 2 => "M2 second data page failed"
  | _ => "M2 mapping failed"

/-- Since `start` exactly the frames of the space and the two data pages were taken. The paging
registers are left aside.
-/
structure Holds (start : Machine) (space : AddressSpace) (first second : U64) (machine : Machine)
    : Prop where
  takes : start.Takes (machine.withPaging start.cr3 start.tlb) (space.tables ++ [first, second]) []

namespace Holds

variable {start machine machine' : Machine} {space : AddressSpace} {first second : U64}

theorem ready (holds : Holds start space first second machine) (ready : start.Ready)
    : machine.Ready :=
  { holds.takes.ready ready with }

theorem outstanding (holds : Holds start space first second machine) {address : U64}
    (member : address ∈ space.tables ++ [first, second])
    : machine.Outstanding address :=
  ⟨(holds.takes.free address member).1, holds.takes.allocated address member⟩

theorem firstOut (holds : Holds start space first second machine) : machine.Outstanding first :=
  holds.outstanding (List.mem_append_right _ (by simp))

theorem secondOut (holds : Holds start space first second machine) : machine.Outstanding second :=
  holds.outstanding (List.mem_append_right _ (by simp))

theorem offset (holds : Holds start space first second machine)
    : machine.pages.hhdmOffset = start.pages.hhdmOffset :=
  holds.takes.record.hhdmOffset

/-- The data pages are no tables, and they differ. -/
theorem apart (holds : Holds start space first second machine)
    : first ∉ space.tables ∧ second ∉ space.tables ∧ first ≠ second := by
  have distinct := holds.takes.distinct
  simp only [List.nodup_append, List.nodup_cons, List.mem_cons, List.not_mem_nil, or_false] at distinct
  obtain ⟨_, ⟨different, _⟩, apart⟩ := distinct
  refine ⟨fun member => ?_, fun member => ?_, different⟩
  · exact apart first member first (Or.inl rfl) rfl
  · exact apart second member second (Or.inr rfl) rfl

theorem pair (holds : Holds start space first second machine) (ready : start.Ready)
    : PagePair first second := by
  have frame := (holds.ready ready).frameAddress holds.firstOut
  have frame' := (holds.ready ready).frameAddress holds.secondOut
  obtain ⟨aligned, below⟩ := frame
  obtain ⟨aligned', below'⟩ := frame'
  refine ⟨aligned, aligned', ?_, ?_, holds.apart.2.2⟩
  · simp only [pageSize]
    omega
  · simp only [pageSize]
    omega

/-- A step that takes no frame and writes only in those that are held. -/
theorem step (holds : Holds start space first second machine) {written : List U64}
    (takes : machine.Takes (machine'.withPaging machine.cr3 machine.tlb) [] written)
    (inside : ∀ address ∈ written, address ∈ space.tables ++ [first, second])
    : Holds start space first second machine' := by
  have both := holds.takes.trans (takes.withPaging start.cr3 start.tlb)
  rw [List.append_nil, List.nil_append] at both
  exact ⟨both.mono [] fun address member => List.mem_append_left _ (inside address member)⟩

/-- The space grows. -/
theorem grow (holds : Holds start space first second machine) {space' : AddressSpace}
    {taken : List U64} (takes : machine.Takes machine' taken space.tables)
    (tables : space'.tables = space.tables ++ taken)
    : Holds start space' first second machine' := by
  have both := holds.takes.trans (takes.withPaging start.cr3 start.tlb)
  rw [List.nil_append] at both
  have all := both.mono [] fun address member =>
    List.mem_append_left _ (List.mem_append_left _ (List.mem_append_left _ member))
  refine ⟨all.perm ?_⟩
  rw [tables, List.append_assoc, List.append_assoc]
  exact List.perm_append_comm.append_left _

/-- Only the paging registers changed. -/
theorem withPaging (holds : Holds start space first second machine) (cr3 : U64)
    (tlb : List Translation)
    : Holds start space first second (machine.withPaging cr3 tlb) :=
  ⟨holds.takes⟩

end Holds

-----------------------------------------------------------------------------------------
-- The space and its pages
-----------------------------------------------------------------------------------------

section Opening

variable {start machine : Machine}

/-- A call with `&space` whose outcome is known. -/
theorem spaceCall_passes {program : Option AddressSpace → MachineM (Bool × Option AddressSpace)}
    {space space' : AddressSpace} {ok : Bool} {after : Machine}
    (called : program (some space) machine = .ok ((ok, some space'), after))
    : Passes (spaceCall program space)
        (fun reply after' => reply = (ok, space') ∧ after' = after) machine :=
  .onMachine called (.pure ⟨rfl, rfl⟩)

/-- The start of the test takes the root and the two data pages. -/
theorem openSpace_passes (ready : start.Ready) (enough : 3 ≤ start.pages.freeCount.toNat)
    : Passes openSpace
        (fun opened after =>
          ∃ root,
            opened.1 = ⟨root, [root]⟩
            ∧ Holds start opened.1 opened.2.1 opened.2.2 after
            ∧ after.SpaceFormed opened.1 {[]}
            ∧ after.mapping root = fun _ => none)
        start := by
  have available (machine : Machine) (some' : machine.pages.freeCount.toNat ≠ 0)
      : machine.pages.freeCount ≠ 0 :=
    fun zero => some' (congrArg BitVec.toNat zero)
  obtain ⟨root, created, called, takes, formed, mapping, _⟩ :=
    vmCreate_ok ready (available start (by omega))
  have count := takes.counted
  rw [List.length_singleton] at count
  have ready₁ := takes.ready ready
  obtain ⟨frame, found, page⟩ := takePage_passes ready₁.toPagesWellFormed 0
    (available created (by omega))
  have takes₁ := Machine.Takes.allocate ready₁.toPagesWellFormed found.firstFrom.holds
  have count₁ := takes₁.counted
  rw [List.length_singleton] at count₁
  have ready₂ := takes₁.ready ready₁
  obtain ⟨frame', found', page'⟩ := takePage_passes ready₂.toPagesWellFormed 0
    (available _ (by omega))
  have takes₂ := Machine.Takes.allocate ready₂.toPagesWellFormed found'.firstFrom.holds
  obtain ⟨formed₁, mapping₁⟩ := takes₁.spaceFormed ready₁ formed (fun _ _ => List.not_mem_nil)
    nofun
  obtain ⟨formed₂, mapping₂⟩ := takes₂.spaceFormed ready₂ formed₁ (fun _ _ => List.not_mem_nil)
    nofun
  have taken := (takes.trans takes₁).trans takes₂
  refine (spaceCall_passes called).next (.require rfl ?_)
  refine page.next (.require rfl (page'.next (.require rfl (.pure ⟨root, rfl, ⟨?_⟩, formed₂, ?_⟩))))
  · exact (taken.withPaging start.cr3 start.tlb).mono [] nofun
  · exact mapping₂.trans (mapping₁.trans mapping)

/-- With fewer than three free frames the test does not get that far. -/
theorem openSpace_fails (ready : start.Ready) (few : start.pages.freeCount.toNat < 3)
    : Fails openSpace (shortage start.pages.freeCount.toNat) start := by
  have empty {machine : Machine} (none : machine.pages.freeCount.toNat = 0)
      : machine.pages.freeCount = 0 :=
    BitVec.eq_of_toNat_eq none
  have available {machine : Machine} (some' : machine.pages.freeCount.toNat ≠ 0)
      : machine.pages.freeCount ≠ 0 :=
    fun zero => some' (congrArg BitVec.toNat zero)
  by_cases none : start.pages.freeCount.toNat = 0
  · rw [none]
    exact .after (spaceCall_passes (vmCreate_exhausted (empty none))) (.require Bool.false_ne_true)
  · obtain ⟨root, created, called, takes, _⟩ := vmCreate_ok ready (available none)
    have count := takes.counted
    rw [List.length_singleton] at count
    have ready₁ := takes.ready ready
    refine .after (spaceCall_passes called) (.afterRequire rfl ?_)
    by_cases one : start.pages.freeCount.toNat = 1
    · rw [one]
      exact .after (takePage_refused 0 (empty (by omega))) (.require Bool.false_ne_true)
    · obtain ⟨frame, found, page⟩ := takePage_passes ready₁.toPagesWellFormed 0
        (available (by omega))
      have count' := (Machine.Takes.allocate ready₁.toPagesWellFormed found.firstFrom.holds).counted
      rw [List.length_singleton] at count'
      have two : start.pages.freeCount.toNat = 2 := by omega
      rw [two]
      refine .after page (.afterRequire rfl ?_)
      exact .after (takePage_refused 0 (empty (by omega))) (.require Bool.false_ne_true)

end Opening

-----------------------------------------------------------------------------------------
-- The maps
-----------------------------------------------------------------------------------------

theorem testMap_address (first shown : U64)
    : testMap first shown (testAddress.toNat / pageSize) = some (first, vmWrite) := by
  rw [testMap, Function.update_of_ne (by decide), Function.update_self]

theorem testMap_alias (first shown : U64)
    : testMap first shown (testAlias.toNat / pageSize) = some (shown, vmWrite) := by
  rw [testMap, Function.update_self]

/-- A space without lower tables misses all three for a page. -/
theorem missingLevels_empty {machine : Machine} {space : AddressSpace}
    (formed : machine.SpaceFormed space {[]}) (page : Nat)
    : machine.missingLevels space.root page = 3 := by
  have absent : [] ∉ lowerPaths page := fun member => (mem_lowerPaths.mp member).2 rfl
  rw [missingLevels_eq formed, Finset.sdiff_singleton_eq_erase, Finset.erase_eq_of_notMem absent,
    lowerPaths, Finset.card_image_of_injOn (levelPath_injective page)]
  rfl

/-- The test has its two pages, and the space that maps the first of them twice. -/
structure TwiceMapped (start : Machine) (space : AddressSpace) (paths : Finset (List Nat))
    (first second shown : U64) (machine : Machine)
    : Prop where
  holds : Holds start space first second machine
  formed : machine.SpaceFormed space paths
  there : pagePath (testAddress.toNat / pageSize) ∈ paths
  mapping : machine.mapping space.root = testMap first shown

section Mapping

variable {start machine : Machine} {space : AddressSpace} {root first second : U64}

theorem fresh_admits (holds : Holds start ⟨root, [root]⟩ first second machine)
    (empty : machine.mapping root = fun _ => none)
    : machine.MapAdmits ⟨root, [root]⟩ testAddress first vmWrite :=
  ⟨by decide, by decide, by decide, holds.firstOut, by decide, congrFun empty _⟩

/-- With three more frames the first page is mapped twice; the second map needs no table. -/
theorem mapTwice_passes (ready : start.Ready)
    (holds : Holds start ⟨root, [root]⟩ first second machine)
    (formed : machine.SpaceFormed ⟨root, [root]⟩ {[]})
    (empty : machine.mapping root = fun _ => none) (enough : 3 ≤ machine.pages.freeCount.toNat)
    : Passes (mapTwice ⟨root, [root]⟩ first)
        (fun space after =>
          space.root = root ∧ ∃ paths, TwiceMapped start space paths first second first after)
        machine := by
  have admits := fresh_admits holds empty
  have ready₀ := holds.ready ready
  have few : [root].length ≤ vmTableLimit := by
    rw [vmTableLimit, List.length_singleton]
    omega
  obtain ⟨ok, space, machine', paths, taken, called, takes, same, tables, formed', _, _, mapped, _⟩ :=
    formed.vmMap_spec ready₀ admits
  obtain ⟨ok', space', after, called', fits, _⟩ := formed.vmMap_exhaustion ready₀ few admits
  cases called'.symm.trans called
  have done : ok = true := by
    refine fits.mpr ?_
    rw [missingLevels_empty formed, Machine.tableRoom, vmTableLimit, List.length_singleton]
    omega
  subst done
  obtain ⟨there, mapping⟩ := mapped rfl
  rw [empty] at mapping
  have holds' := holds.grow takes tables
  have ready' := takes.ready ready₀
  have admits' : machine'.MapAdmits space testAlias first vmWrite := by
    refine ⟨by decide, by decide, by decide, holds'.firstOut, by decide, ?_⟩
    rw [same, mapping, Function.update_of_ne (by decide)]
  obtain ⟨machine'', again, takes', formed'', mapping'⟩ := formed'.vmMap_within ready' admits' there
  refine (spaceCall_passes called).next (.require rfl ?_)
  refine (spaceCall_passes again).next (.require rfl (.pure ⟨same, paths, ?_, formed'', there, ?_⟩))
  · exact holds'.grow takes' (List.append_nil _).symm
  · rw [mapping', same, mapping]
    rfl

/-- With fewer the first map fails. -/
theorem mapTwice_fails (ready : start.Ready)
    (holds : Holds start ⟨root, [root]⟩ first second machine)
    (formed : machine.SpaceFormed ⟨root, [root]⟩ {[]})
    (empty : machine.mapping root = fun _ => none) (few : machine.pages.freeCount.toNat < 3)
    : Fails (mapTwice ⟨root, [root]⟩ first) "M2 mapping failed" machine := by
  have small : [root].length ≤ vmTableLimit := by
    rw [vmTableLimit, List.length_singleton]
    omega
  obtain ⟨ok, space, after, called, fits, _⟩ :=
    formed.vmMap_exhaustion (holds.ready ready) small (fresh_admits holds empty)
  have failed : ok = false := by
    refine Bool.eq_false_of_not_eq_true fun done => ?_
    have room := fits.mp done
    rw [missingLevels_empty formed, Machine.tableRoom] at room
    omega
  subst failed
  exact .after (spaceCall_passes called) (.require Bool.false_ne_true)

end Mapping

section Refusing

variable {start machine : Machine} {space : AddressSpace} {paths : Finset (List Nat)}
  {first second : U64}

theorem refuseMap_passes (ready : machine.Ready) (formed : machine.SpaceFormed space paths)
    {address physical : U64} (refused : ¬machine.MapAdmits space address physical vmWrite)
    (message : String)
    : Passes (refuseMap space address physical message)
        (fun space' after => space' = space ∧ after = machine) machine :=
  (spaceCall_passes (formed.vmMap_refused ready refused)).next (.require rfl (.pure ⟨rfl, rfl⟩))

theorem lookUp_passes (space : AddressSpace) (address result : U64) (flags : U32)
    : Passes (lookUp space address result flags)
        (fun found after =>
          found = machine.vmLookup (some space) address result flags ∧ after = machine)
        machine :=
  fun lab same => ⟨_, lab, rfl, same ▸ ⟨rfl, rfl⟩⟩

/-- The four maps are refused, each for its own reason, and the page walk is right. -/
theorem refuseMaps_passes (ready : start.Ready)
    (mapped : TwiceMapped start space paths first second first machine)
    : Passes (refuseMaps space first second)
        (fun found after => found.1 = space ∧ after = machine) machine := by
  have ready₀ := mapped.holds.ready ready
  have refuse (address physical : U64)
      (refused : ¬machine.MapAdmits space address physical vmWrite) (message : String) :=
    refuseMap_passes ready₀ mapped.formed refused message
  refine (refuse testAddress second ?_ _).next ?_
  · intro admits
    have free := admits.unmapped
    rw [mapped.mapping, testMap_address] at free
    cases free
  refine (refuse (testAlias + 1) second ?_ _).next ?_
  · exact fun admits => absurd admits.aligned (by decide)
  refine (refuse 0x402000 (second + 1) ?_ _).next ?_
  · intro admits
    have aligned := mapped.holds.secondOut.1
    have aligned' := admits.outstanding.1
    have one : (1 : U64).toNat = 1 := rfl
    rw [BitVec.toNat_add, one] at aligned'
    simp only [pageSize] at aligned aligned'
    omega
  refine (refuse (1 <<< 47) second ?_ _).next ?_
  · exact fun admits => admits.low (by decide)
  refine (lookUp_passes space (testAddress + 17) 0 0).bind ?_
  intro found after known
  obtain ⟨rfl, rfl⟩ := known
  have page : (testAddress + 17).toNat / pageSize = testAddress.toNat / pageSize := by decide
  rw [mapped.formed.vmLookup_eq ready₀, page, mapped.mapping, testMap_address]
  exact .require ⟨rfl, rfl, rfl⟩ (.pure ⟨rfl, rfl⟩)

end Refusing

-----------------------------------------------------------------------------------------
-- Inside the space
-----------------------------------------------------------------------------------------

/-- The kernel runs in the space of the test. -/
structure Running (start : Machine) (space : AddressSpace) (paths : Finset (List Nat))
    (first second : U64) (pages : Nat → Option (U64 × U32)) (machine : Machine)
    : Prop where
  holds : Holds start space first second machine
  runs : machine.RunsIn space paths
  there : pagePath (testAddress.toNat / pageSize) ∈ paths
  mapping : machine.mapping space.root = pages

/-- The first `count` bytes of a page hold their own numbers. -/
def Counts (page : U64) (count : Nat) (memory : Memory) : Prop :=
  ∀ i < count, memory (page.toNat + i) = BitVec.ofNat 8 i

/-- The first `count` bytes of a page are filled. -/
def Filled (page : U64) (count : Nat) (memory : Memory) : Prop :=
  ∀ i < count, memory (page.toNat + i) = 0x5a

/-- A byte of a page by its address. -/
theorem page_byte {address : U64} (aligned : address.toNat % pageSize = 0) {i : Nat}
    (inside : i < pageSize)
    : (address + BitVec.ofNat 64 i).toNat / pageSize = address.toNat / pageSize
      ∧ (address + BitVec.ofNat 64 i).toNat % pageSize = i := by
  rw [BitVec.toNat_add, BitVec.toNat_ofNat]
  simp only [pageSize] at aligned inside ⊢
  omega

section Inside

variable {start machine : Machine} {space : AddressSpace} {paths : Finset (List Nat)}
  {first second shown : U64} {pages : Nat → Option (U64 × U32)} {processor : Processor}

theorem activeRoot_passes
    : Passes activeRoot (fun root after => root = machine.currentRoot ∧ after = machine) machine :=
  fun lab same => ⟨_, lab, rfl, same ▸ ⟨rfl, rfl⟩⟩

/-- The space becomes the active one, and `vm_destroy` refuses it. -/
theorem enterSpace_passes (ready : start.Ready)
    (mapped : TwiceMapped start space paths first second shown machine)
    : Passes (enterSpace space)
        (fun space' after =>
          space' = space
          ∧ after = machine.withPaging space.root []
          ∧ Running start space paths first second (testMap first shown) after)
        machine := by
  have runs := Machine.RunsIn.switch (mapped.holds.ready ready) mapped.formed
  have refused := vmDestroy_refused (Or.inr runs.root)
  have switched : vmSwitch space.root machine = .ok ((), machine.withPaging space.root []) := rfl
  refine .onMachine switched (activeRoot_passes.next ?_)
  rw [if_pos runs.root.symm]
  refine (spaceCall_passes refused).next (.require rfl (.pure ⟨rfl, rfl, ?_⟩))
  exact ⟨mapped.holds.withPaging _ _, runs, mapped.there, mapped.mapping⟩

theorem call_passes {α : Type} {program : MachineM α} {value : α} {after : Machine}
    (called : program machine = .ok (value, after))
    : Passes (onMachine program) (fun value' after' => value' = value ∧ after' = after) machine :=
  fun _ same => ⟨value, _, onMachine_ok (same ▸ called), rfl, rfl⟩

theorem reads_passes {program : MachineM Byte} {byte : Byte} {after : Machine}
    (called : program machine = .ok (byte, after))
    : Passes (reads program byte) (fun ok after' => ok = true ∧ after' = after) machine :=
  .onMachine called (.pure ⟨decide_eq_true rfl, rfl⟩)

theorem andAlso_passes {left right : LabM Bool} {middle : Machine} {post : Bool → Machine → Prop}
    (passes : Passes left (fun ok after => ok = true ∧ after = middle) machine)
    (later : Passes right post middle)
    : Passes (andAlso left right) post machine :=
  passes.next later

namespace Running

theorem withTlb (running : Running start space paths first second pages machine)
    {tlb : List Translation} (runs : (machine.withTlb tlb).RunsIn space paths)
    : Running start space paths first second pages (machine.withTlb tlb) :=
  ⟨⟨running.holds.takes⟩, runs, running.there, running.mapping⟩

/-- Another byte in one of the two pages. -/
theorem write (running : Running start space paths first second pages machine) {page : U64}
    (mine : page = first ∨ page = second) {i : Nat} (inside : i < pageSize) (byte : Byte)
    : Running start space paths first second pages
        { machine with memory := machine.memory.store (page.toNat + i) byte } := by
  have member : page ∈ space.tables ++ [first, second] := by
    rcases mine with same | same
    · exact List.mem_append_right _ (by simp [same])
    · exact List.mem_append_right _ (by simp [same])
  have apart : page ∉ space.tables := by
    obtain ⟨left, right, _⟩ := running.holds.apart
    rcases mine with same | same
    · exact same ▸ left
    · exact same ▸ right
  have outstanding := running.holds.outstanding member
  have aligned := outstanding.1
  have same (other : Nat) (elsewhere : frameOf other ≠ frameOf page.toNat)
      : machine.memory.store (page.toNat + i) byte other = machine.memory other := by
    apply Memory.store_of_ne
    intro here
    apply elsewhere
    rw [here]
    simp only [frameOf, pageSize] at aligned inside ⊢
    omega
  obtain ⟨takes, runs, mapping⟩ := running.runs.write outstanding apart same
  have holds : Holds start space first second
      { machine with memory := machine.memory.store (page.toNat + i) byte } := by
    apply running.holds.step (takes.withPaging machine.cr3 machine.tlb)
    exact fun address inside => List.mem_singleton.mp inside ▸ member
  exact ⟨holds, runs, running.there, mapping.trans running.mapping⟩

/-- The loop counts through the first page. Witness: induction on the rounds. -/
theorem fillAddress_passes (running : Running start space paths first second (testMap first shown) machine)
    (i count : Nat) (room : i + count ≤ pageSize) (counts : Counts first i machine.memory)
    : Passes (fillAddress processor i count)
        (fun _ after =>
          Running start space paths first second (testMap first shown) after
          ∧ Counts first (i + count) after.memory)
        machine := by
  induction count generalizing i machine with
  | zero => exact .pure ⟨running, counts⟩
  | succ count ih =>
      have inside : i < pageSize := by omega
      obtain ⟨page, offset⟩ := page_byte (by decide : testAddress.toNat % pageSize = 0) inside
      have mapped : machine.mapping space.root
          ((testAddress + BitVec.ofNat 64 i).toNat / pageSize) = some (first, vmWrite) := by
        rw [page, running.mapping, testMap_address]
      obtain ⟨tlb, stored, runs⟩ :=
        running.runs.store_spec processor mapped (by decide) (BitVec.ofNat 8 i)
      rw [offset] at stored
      rw [fillAddress]
      refine .onMachine stored ?_
      have rounds : i + 1 + count = i + (count + 1) := by omega
      rw [← rounds]
      refine ih ((running.withTlb runs).write (Or.inl rfl) inside _) (i + 1) (by omega) ?_
      intro j before
      change machine.memory.store _ _ _ = _
      by_cases last : j = i
      · subst last
        exact Memory.store_self ..
      · rw [Memory.store_of_ne _ _ (by omega)]
        exact counts j (by omega)

/-- The direct map has the same bytes. -/
theorem loadPage_page {page : U64} (outstanding : machine.Outstanding page) (ready : machine.Ready)
    {i : Nat} (inside : i < pageSize)
    : loadPage (some (machine.pages.hhdmOffset + page)) i machine
      = .ok (machine.memory (page.toNat + i), machine) := by
  have below := (ready.frameAddress outstanding).2
  rw [← directMap_page (by simp only [pageSize]; omega) inside machine.pages.hhdmOffset]
  rfl

/-- The alias and the direct map show the first page. Witness: induction on the rounds. -/
theorem readAlias_passes
    (running : Running start space paths first second (testMap first first) machine) (i count : Nat)
    (room : i + count ≤ pageSize) (counts : Counts first pageSize machine.memory)
    : Passes (readAlias processor (some (machine.pages.hhdmOffset + first)) i count)
        (fun _ after =>
          Running start space paths first second (testMap first first) after
          ∧ after.memory = machine.memory)
        machine := by
  induction count generalizing i machine with
  | zero => exact .pure ⟨running, rfl⟩
  | succ count ih =>
      have inside : i < pageSize := by omega
      obtain ⟨page, offset⟩ := page_byte (by decide : testAlias.toNat % pageSize = 0) inside
      have mapped : machine.mapping space.root
          ((testAlias + BitVec.ofNat 64 i).toNat / pageSize) = some (first, vmWrite) := by
        rw [page, running.mapping, testMap_alias]
      obtain ⟨tlb, loaded, runs⟩ := running.runs.load_spec processor mapped
      rw [offset, counts i inside] at loaded
      have running' := running.withTlb runs
      have direct := loadPage_page running'.holds.firstOut runs.ready inside
      rw [show (machine.withTlb tlb).memory (first.toNat + i) = BitVec.ofNat 8 i from
        counts i inside] at direct
      rw [readAlias]
      refine (andAlso_passes (reads_passes loaded) (reads_passes direct)).next (.require rfl ?_)
      exact ih running' (i + 1) (by omega) counts

/-- The replacement is filled, and the first page keeps its bytes. Witness: induction on the
rounds.
-/
theorem fillReplacement_passes (running : Running start space paths first second pages machine)
    (pair : PagePair first second) (i count : Nat) (room : i + count ≤ pageSize)
    (counts : Counts first pageSize machine.memory) (filled : Filled second i machine.memory)
    : Passes (fillReplacement (some (machine.pages.hhdmOffset + second)) i count)
        (fun _ after =>
          Running start space paths first second pages after
          ∧ Counts first pageSize after.memory
          ∧ Filled second (i + count) after.memory)
        machine := by
  induction count generalizing i machine with
  | zero => exact .pure ⟨running, counts, filled⟩
  | succ count ih =>
      have inside : i < pageSize := by omega
      have stored := @storeDirect_page machine second i pair.below' inside 0x5a
      rw [fillReplacement]
      refine .onMachine stored ?_
      have rounds : i + 1 + count = i + (count + 1) := by omega
      rw [← rounds]
      refine ih (running.write (Or.inr rfl) inside _) (i + 1) (by omega) ?_ ?_
      · intro j below
        exact (Memory.store_of_ne _ _ (pair.ne below inside)).trans (counts j below)
      · intro j before
        change machine.memory.store _ _ _ = _
        by_cases last : j = i
        · subst last
          exact Memory.store_self ..
        · rw [Memory.store_of_ne _ _ (by omega)]
          exact filled j (by omega)

/-- No stale byte is read through the moved alias. Witness: induction on the rounds. -/
theorem readRemapped_passes
    (running : Running start space paths first second (testMap first second) machine)
    (i count : Nat) (room : i + count ≤ pageSize) (counts : Counts first pageSize machine.memory)
    (filled : Filled second pageSize machine.memory)
    : Passes (readRemapped processor i count)
        (fun _ after => Running start space paths first second (testMap first second) after)
        machine := by
  induction count generalizing i machine with
  | zero => exact .pure running
  | succ count ih =>
      have inside : i < pageSize := by omega
      obtain ⟨page, offset⟩ := page_byte (by decide : testAlias.toNat % pageSize = 0) inside
      obtain ⟨page', offset'⟩ := page_byte (by decide : testAddress.toNat % pageSize = 0) inside
      have mapped : machine.mapping space.root
          ((testAlias + BitVec.ofNat 64 i).toNat / pageSize) = some (second, vmWrite) := by
        rw [page, running.mapping, testMap_alias]
      obtain ⟨tlb, loaded, runs⟩ := running.runs.load_spec processor mapped
      rw [offset, filled i inside] at loaded
      have running' := running.withTlb runs
      have mapped' : (machine.withTlb tlb).mapping space.root
          ((testAddress + BitVec.ofNat 64 i).toNat / pageSize) = some (first, vmWrite) := by
        rw [page', running'.mapping, testMap_address]
      obtain ⟨tlb', loaded', runs'⟩ := runs.load_spec processor mapped'
      rw [offset', show (machine.withTlb tlb).memory (first.toNat + i) = BitVec.ofNat 8 i from
        counts i inside] at loaded'
      rw [readRemapped]
      refine (andAlso_passes (reads_passes loaded) (reads_passes loaded')).next (.require rfl ?_)
      exact ih (running'.withTlb runs') (i + 1) (by omega) counts filled

/-- A step that writes only tables keeps the bytes of the data pages. -/
theorem page_kept (running : Running start space paths first second pages machine)
    {machine' : Machine} (takes : machine.Takes machine' [] space.tables) {page : U64}
    (outstanding : machine.Outstanding page) (apart : page ∉ space.tables) {i : Nat}
    (inside : i < pageSize)
    : machine'.memory (page.toNat + i) = machine.memory (page.toNat + i) := by
  have frame := running.runs.ready.frameAddress outstanding
  have place : frameOf (page.toNat + i) = frameOf page.toNat := by
    have aligned := outstanding.1
    simp only [frameOf, pageSize] at aligned inside ⊢
    omega
  apply takes.memory_of_allocated running.runs.ready.toPagesWellFormed
  · rw [place]
    exact outstanding.2
  · intro within
    obtain ⟨table, member, same⟩ := within
    have table' := running.runs.formed.frameAddress running.runs.ready member
    exact apart (table'.eq_of_frameOf frame (same.trans place) ▸ member)

/-- The alias moves to the second page, and no stale translation of it is used. -/
theorem moveAlias_passes (ready : start.Ready)
    (running : Running start space paths first second (testMap first first) machine)
    (counts : Counts first pageSize machine.memory) (result : U64) (flags : U32)
    : Passes (moveAlias processor space second result flags)
        (fun space' after =>
          space' = space ∧ Running start space paths first second (testMap first second) after)
        machine := by
  have pair := running.holds.pair ready
  obtain ⟨left, right, _⟩ := running.holds.apart
  have owned (table : U64) (member : table ∈ space.tables) : table ∈ space.tables ++ [first, second] :=
    List.mem_append_left _ member
  -- the alias is unmapped, and a second attempt fails
  have shown := testMap_alias first first
  rw [← running.mapping] at shown
  obtain ⟨unmapped, called, takes, runs, mapping⟩ :=
    running.runs.unmap (by decide : testAlias.toNat % pageSize = 0)
      (shown ▸ Option.some_ne_none _)
  have running₁ : Running start space paths first second
      (Function.update (testMap first first) (testAlias.toNat / pageSize) none) unmapped :=
    ⟨running.holds.step (takes.withPaging machine.cr3 machine.tlb) owned, runs, running.there,
      running.mapping ▸ mapping⟩
  have absent : unmapped.mapping space.root (testAlias.toNat / pageSize) = none := by
    rw [running₁.mapping, Function.update_self]
  have refused := runs.formed.vmUnmap_refused runs.ready fun mapped => mapped.2 absent
  refine .onMachine called (.require rfl ((lookUp_passes space testAlias result flags).bind ?_))
  intro found after known
  obtain ⟨rfl, rfl⟩ := known
  rw [runs.formed.vmLookup_eq runs.ready, absent]
  refine .onMachine refused (.require rfl ?_)
  -- the replacement is filled
  have data : pageData second after
      = .ok (some (after.pages.hhdmOffset + second), after) := by
    rw [runs.ready.pageData_eq, if_pos running₁.holds.secondOut]
  have counts₁ : Counts first pageSize after.memory :=
    fun i inside => (running.page_kept takes running.holds.firstOut left inside).trans (counts i inside)
  refine .onMachine data ?_
  refine (running₁.fillReplacement_passes pair 0 pageSize (by omega) counts₁ nofun).bind ?_
  intro _ filledMachine done
  obtain ⟨running₂, counts₂, filled⟩ := done
  rw [Nat.zero_add] at filled
  -- the alias shows the replacement
  have admits : filledMachine.MapAdmits space testAlias second vmWrite := by
    refine ⟨by decide, by decide, by decide, running₂.holds.secondOut, by decide, ?_⟩
    rw [running₂.mapping, Function.update_self]
  obtain ⟨remapped, again, takes', runs', mapping'⟩ := running₂.runs.map admits running₂.there
  have running₃ : Running start space paths first second (testMap first second) remapped := by
    refine ⟨running₂.holds.step (takes'.withPaging filledMachine.cr3 filledMachine.tlb) owned, runs',
      running₂.there, ?_⟩
    rw [mapping', running₂.mapping, testMap, testMap, Function.update_idem, Function.update_idem]
  refine (spaceCall_passes again).next (.require rfl ?_)
  refine (running₃.readRemapped_passes 0 pageSize (by omega) ?_ ?_).bind fun _ _ last =>
    .pure ⟨rfl, last⟩
  · exact fun i inside =>
      (running₂.page_kept takes' running₂.holds.firstOut left inside).trans (counts₂ i inside)
  · exact fun i inside =>
      (running₂.page_kept takes' running₂.holds.secondOut right inside).trans (filled i inside)

/-- With the boot root active again, everything goes back. -/
theorem returnSpace_passes
    (running : Running start space paths first second pages machine)
    (kept : ¬start.IsFree (frameOf start.currentRoot.toNat))
    : Passes (returnSpace space first second)
        (fun returned after =>
          returned = true
          ∧ start.Restored (after.withPaging start.cr3 start.tlb)
          ∧ after.cr3 = start.currentRoot
          ∧ after.tlb = [])
        (machine.withPaging start.currentRoot []) := by
  obtain ⟨left, right, different⟩ := running.holds.apart
  have rooted : (machine.withPaging start.currentRoot []).currentRoot = start.currentRoot := by
    change start.cr3 &&& pteAddress &&& pteAddress = start.cr3 &&& pteAddress
    rw [BitVec.and_assoc, BitVec.and_self]
  have inactive : space.root ≠ (machine.withPaging start.currentRoot []).currentRoot := by
    rw [rooted]
    intro same
    have member := List.mem_append_left [first, second] running.runs.formed.rootOwned
    exact kept (same ▸ (running.holds.takes.free space.root member).2)
  have ready := running.runs.ready.withPaging start.currentRoot []
  have formed := running.runs.formed.withPaging start.currentRoot []
  obtain ⟨destroyed, called, returns⟩ := vmDestroy_spec ready.toPagesWellFormed
    (running.runs.formed.root_ne_zero running.runs.ready) inactive formed.distinct formed.outstanding
  have aligned : ∀ table ∈ space.tables.reverse, table.toNat % pageSize = 0 :=
    fun table member => (formed.outstanding table (List.mem_reverse.mp member)).1
  have firstOut : destroyed.Outstanding first :=
    (returns.outstanding_iff aligned first).mpr
      ⟨running.holds.firstOut, fun member => left (List.mem_reverse.mp member)⟩
  have secondOut : destroyed.Outstanding second :=
    (returns.outstanding_iff aligned second).mpr
      ⟨running.holds.secondOut, fun member => right (List.mem_reverse.mp member)⟩
  have returns₁ := Machine.Returns.release returns.wellFormed firstOut
  have secondOut₁ : (destroyed.release (frameOf first.toNat)).Outstanding second := by
    refine (returns₁.outstanding_iff ?_ second).mpr ⟨secondOut, ?_⟩
    · exact fun address member => List.mem_singleton.mp member ▸ firstOut.1
    · exact fun member => different (List.mem_singleton.mp member).symm
  have returns₂ := Machine.Returns.release returns₁.wellFormed secondOut₁
  have all := (returns.trans returns₁).trans returns₂
  have restored := running.holds.takes.restored ((all.withPaging start.cr3 start.tlb).perm (by
    rw [List.append_assoc]
    exact (List.reverse_perm space.tables).append_right _))
  have gone : Passes (spaceCall vmDestroy space >>= fun reply => pure reply.1)
      (fun ok after => ok = true ∧ after = destroyed) (machine.withPaging start.currentRoot []) :=
    (spaceCall_passes called).next (.pure ⟨rfl, rfl⟩)
  have freed := call_passes (returns.wellFormed.pageFree_ok firstOut)
  have freed' := call_passes (returns₁.wellFormed.pageFree_ok secondOut₁)
  refine Passes.mono (andAlso_passes (andAlso_passes gone freed) freed') fun ok after known => ?_
  obtain ⟨rfl, rfl⟩ := known
  exact ⟨rfl, restored, all.record.cr3, all.tlb⟩

end Running

end Inside

-----------------------------------------------------------------------------------------
-- The verdict
-----------------------------------------------------------------------------------------

/-- The test has ended on the root that it began with, and no frame is different. -/
structure TestEnded (start after : Machine) : Prop where
  restored : start.Restored (after.withPaging start.cr3 start.tlb)
  root : after.cr3 = start.currentRoot
  cache : after.tlb = []

theorem reportSpace_prints (root first : U64) : Prints (reportSpace root first) :=
  .bind (.serialWrite _) (.bind (.serialWriteHex _) (.bind (.serialWrite _)
    (.bind (.serialWriteHex _) (.bind (.serialWrite _) (.bind (.serialWriteHex _)
      (.serialWrite _))))))

/-- `vm_selftest` on every machine whose root is the bootloader's, and with a processor that caches,
drops and uses translations as it likes: with six free frames it passes, and every frame is as it
was; with fewer it stops with the panic that says for what a frame was missing. Witness: the phases,
each by what the test holds.
-/
theorem vm_selftest_decides (processor : Processor) {start : Machine} (ready : start.Ready)
    (kept : ¬start.IsFree (frameOf start.currentRoot.toNat))
    : (6 ≤ start.freeFrames.card
        → Passes (vmSelftest processor) (fun _ after => TestEnded start after) start)
      ∧ (start.freeFrames.card < 6
        → Fails (vmSelftest processor) (shortage start.freeFrames.card) start) := by
  rw [← ready.counted]
  have count : Passes freeCount
      (fun before after => before = start.pages.freeCount ∧ after = start) start :=
    fun lab same => ⟨lab.machine.pages.freeCount, lab, rfl, same ▸ ⟨rfl, rfl⟩⟩
  have left {space : AddressSpace} {root first second : U64} {machine : Machine}
      (only : space = ⟨root, [root]⟩) (holds : Holds start space first second machine)
      : machine.pages.freeCount.toNat + 3 = start.pages.freeCount.toNat := by
    subst only
    exact holds.takes.counted
  constructor
  · intro enough
    refine count.next (activeRoot_passes.next ((openSpace_passes ready (by omega)).bind ?_))
    intro opened machine open'
    obtain ⟨space, first, second⟩ := opened
    obtain ⟨root, only, holds, formed, empty⟩ := open'
    dsimp only at only holds formed
    have room := left only holds
    subst only
    refine (mapTwice_passes ready holds formed empty (by omega)).bind ?_
    intro space machine₁ mapped'
    obtain ⟨_, paths, mapped⟩ := mapped'
    refine (refuseMaps_passes ready mapped).bind ?_
    intro found machine₂ refused
    obtain ⟨space', result, flags⟩ := found
    obtain ⟨same, rfl⟩ := refused
    dsimp only at same
    subst same
    refine (enterSpace_passes ready mapped).bind ?_
    intro space machine₃ entered
    obtain ⟨rfl, rfl, running⟩ := entered
    have data := (running.holds.ready ready).pageData_eq first
    rw [if_pos running.holds.firstOut] at data
    refine .onMachine data ?_
    refine (running.fillAddress_passes 0 pageSize (by omega) nofun).bind ?_
    intro _ machine₄ filled
    obtain ⟨running₁, counts⟩ := filled
    rw [Nat.zero_add] at counts
    rw [running.holds.offset, ← running₁.holds.offset]
    refine (running₁.readAlias_passes 0 pageSize (by omega) counts).bind ?_
    intro _ machine₅ shown
    obtain ⟨running₂, same⟩ := shown
    refine (running₂.moveAlias_passes ready (same ▸ counts) result flags).bind ?_
    intro space machine₆ moved
    obtain ⟨rfl, running₃⟩ := moved
    refine activeRoot_passes.next (.prints (reportSpace_prints _ _) ?_)
    have switched : vmSwitch start.currentRoot machine₆
        = .ok ((), machine₆.withPaging start.currentRoot []) :=
      rfl
    refine .onMachine switched ((running₃.returnSpace_passes kept).bind ?_)
    intro returned after done
    obtain ⟨rfl, restored, root', cache⟩ := done
    refine .require rfl (.freeCount (.require restored.counted ?_))
    exact (Prints.serialWrite _).passes.mono fun _ _ same => same ▸ ⟨restored, root', cache⟩
  · intro few
    refine .after count (.after activeRoot_passes ?_)
    by_cases opens : 3 ≤ start.pages.freeCount.toNat
    · refine (openSpace_passes ready opens).fails fun opened machine open' => ?_
      obtain ⟨space, first, second⟩ := opened
      obtain ⟨root, only, holds, formed, empty⟩ := open'
      dsimp only at only holds formed
      have room := left only holds
      subst only
      have late : shortage start.pages.freeCount.toNat = "M2 mapping failed" := by
        rw [← room]
        rfl
      rw [late]
      exact (mapTwice_fails ready holds formed empty (by omega)).bind
    · exact (openSpace_fails ready (by omega)).bind

/-- A processor that caches the alias before every access, drops nothing and uses what it cached
last.
-/
def eagerProcessor : Processor := ⟨fun _ _ => [testAlias], fun _ _ _ => true, fun _ _ => 0⟩

theorem vm_selftest_decides_on_sample
    : ∃ start,
        sampleMachine.Initialised start sampleEntries 0xffff800000000000
        ∧ Passes (vmSelftest eagerProcessor) (fun _ after => TestEnded start after) start := by
  have fresh : sampleMachine.Fresh := ⟨rfl, rfl, rfl⟩
  obtain ⟨start, success⟩ := sample_initialises
  have initialised := pageInit_initialised fresh (by decide) success
  have ready := initialised.ready (by decide)
  have root : start.currentRoot = 0 := by
    rw [initialised.record]
    exact BitVec.zero_and
  have kept : ¬start.IsFree (frameOf start.currentRoot.toNat) := by
    intro free
    rw [root] at free
    exact ((initialised.free _).mp free).2.1 rfl
  have enough : 6 ≤ start.freeFrames.card := by
    rw [← ready.counted, sample_free initialised]
    decide
  exact ⟨start, initialised, (vm_selftest_decides eagerProcessor ready kept).1 enough⟩

/-- The kernel of the second level always ends in a panic, and in the one that it intends exactly if
`page_init` accepts the map, paging has four levels and six pages are free.
-/
theorem kernelMainSpaces_stops (processor : Processor) {info : BootInfo} {cold : Lab}
    (fresh : cold.machine.Fresh) (guaranteed : info.Guaranteed)
    (apart
      : ∀ entries,
          info.memmap.entries = some entries
          → ¬UsableFrame entries (frameOf cold.machine.currentRoot.toNat))
    : ∃ message,
        kernelMainSpaces processor info cold = .error (.panic message)
        ∧ (message = "M2 reached its intentional stop"
          ↔ ∃ start,
              pageInit (some info.memmap) info.hhdmOffset cold.machine = .ok (true, start)
              ∧ info.cr4 &&& 0x1000 = 0
              ∧ 6 ≤ start.freeFrames.card) := by
  obtain ⟨⟨found⟩, hhdmOffset, cr4⟩ := info
  let greeted : Lab := ((cold.printed (textBytes "MiniLinux M")).printed
    (textBytes (toString (2 : U64).toNat))).printed (textBytes ": entered kernel_main\n")
  have opened : kernelMainSpaces processor ⟨⟨found⟩, hhdmOffset, cr4⟩ cold
      = (do
          let ok ← onMachine (pageInit (some ⟨found⟩) hhdmOffset)
          if ok then do
            onMachine (vmInit cr4 hhdmOffset)
            vmSelftest processor
            halt (.panic "M2 reached its intentional stop")
          else halt (.panic "physical page initialization failed") : LabM Unit) greeted :=
    rfl
  dsimp only at guaranteed apart ⊢
  have disjoint (entries : List (Option MemmapEntry))
      (known : some (MemmapResponse.mk found) = some ⟨some entries⟩)
      : UsableDisjoint entries := by
    cases known
    exact guaranteed.disjoint entries rfl
  rcases pageInit_spec fresh (some ⟨found⟩) hhdmOffset disjoint with refused | accepted
  · have called : onMachine (pageInit (some ⟨found⟩) hhdmOffset) greeted = .ok (false, greeted) :=
      @onMachine_ok _ _ greeted _ _ refused
    refine ⟨"physical page initialization failed", opened.trans (bind_ok called _),
      iff_of_false (by decide) ?_⟩
    intro impossible
    obtain ⟨_, accepted, _⟩ := impossible
    cases refused.symm.trans accepted
  · obtain ⟨entries, start, known, success, _⟩ := accepted
    cases known
    have called : onMachine (pageInit (some ⟨some entries⟩) hhdmOffset) greeted
        = .ok (true, { greeted with machine := start }) :=
      @onMachine_ok _ _ greeted _ _ success
    have initialised := pageInit_initialised fresh (disjoint entries rfl) success
    have only (missing : ¬(cr4 &&& 0x1000 = 0 ∧ 6 ≤ start.freeFrames.card))
        : ¬∃ start',
            pageInit (some ⟨some entries⟩) hhdmOffset cold.machine = .ok (true, start')
            ∧ cr4 &&& 0x1000 = 0
            ∧ 6 ≤ start'.freeFrames.card := by
      intro found
      obtain ⟨start', success', both⟩ := found
      cases success.symm.trans success'
      exact missing both
    by_cases five : cr4 &&& 0x1000 = 0
    · let paged : Machine := { start with directOffset := hhdmOffset, bootRoot := start.currentRoot }
      have set : vmInit cr4 hhdmOffset start = .ok ((), paged) := by
        rw [vmInit, if_neg (not_not.mpr five)]
        rfl
      have ready : paged.Ready := { initialised.ready guaranteed.higherHalf with }
      have kept : ¬paged.IsFree (frameOf paged.currentRoot.toNat) := by
        intro free
        have root : paged.currentRoot = cold.machine.currentRoot := by
          change start.cr3 &&& pteAddress = _
          rw [initialised.record]
          rfl
        rw [root] at free
        exact apart entries rfl ((initialised.free _).mp free).1
      obtain ⟨enough, few⟩ := vm_selftest_decides processor ready kept
      have set' : onMachine (vmInit cr4 hhdmOffset) { greeted with machine := start }
          = .ok ((), { greeted with machine := paged }) :=
        @onMachine_ok _ _ { greeted with machine := start } _ _ set
      have reached := opened.trans ((bind_ok called _).trans (bind_ok set' _))
      by_cases six : 6 ≤ start.freeFrames.card
      · obtain ⟨_, lab', passed, _⟩ := enough six { greeted with machine := paged } rfl
        exact ⟨"M2 reached its intentional stop", reached.trans ((bind_ok passed _).trans rfl),
          iff_of_true rfl ⟨start, success, five, six⟩⟩
      · have stopped := few (not_le.mp six) { greeted with machine := paged } rfl
        refine ⟨_, reached.trans (bind_error stopped _),
          iff_of_false ?_ (only fun both => six both.2)⟩
        unfold shortage
        split <;> decide
    · have refused : vmInit cr4 hhdmOffset start
          = .error (.panic "M2 requires four-level paging") := by
        rw [vmInit, if_pos five]
        rfl
      have refused' : onMachine (vmInit cr4 hhdmOffset) { greeted with machine := start }
          = .error (.panic "M2 requires four-level paging") :=
        onComponent_error refused
      exact ⟨_, opened.trans ((bind_ok called _).trans (bind_error refused' _)),
        iff_of_false (by decide) (only fun both => five both.1)⟩

end MiniLinux
