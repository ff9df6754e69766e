import MiniLinux.Foundation.LastWriter
import MiniLinux.Laboratory.RoundRobin
import MiniLinux.Observer.Snapshots

/-! What the guest shows at the end of a report, compared with the kernel that reported. -/

namespace MiniLinux

open Foundation Foundation.Halting GuestM

/-- What a page of user memory is for. -/
def pageName (address : U64) : Text :=
  if address < userData then "code".toList
  else if address < userStack then "data".toList
  else "stack".toList

/-- The mirror shows the kernel: its tasks with the running one marked, the pages that each task
maps and its data word, for the tasks that have an address space, and the counts of the allocator.
-/
structure Mirror.Agrees (lab : Lab) (mirror : Mirror) : Prop where
  processes
    : ∀ pid view,
        mirror.processes pid = some view
        ↔ ∃ index,
            (lab.tasks index).state ≠ .unused
            ∧ pid = lab.pid index
            ∧ view = { lab.processView index with current := decide (index = lab.current) }
  spaces
    : ∀ pid,
        mirror.maps pid ≠ none
        ↔ ∃ index, (lab.tasks index).root ≠ 0 ∧ pid = lab.pid index
  pages
    : ∀ index pages,
        (lab.tasks index).root ≠ 0
        → mirror.maps (lab.pid index) = some pages
        → ∀ va view,
            pages va = some view
            ↔ ∃ address physical flags,
                address.toNat % pageSize = 0
                ∧ lab.Maps index address physical flags
                ∧ va = (TraceField.hex address).written
                ∧ view = ⟨va, (TraceField.hex physical).written, flags.toNat, pageName address⟩
  words
    : ∀ pid view,
        mirror.data pid = some view
        ↔ ∃ index physical flags,
            pid = lab.pid index
            ∧ lab.Maps index userData physical flags
            ∧ view
              = ⟨(TraceField.hex userData).written, (TraceField.hex physical).written,
                  (TraceField.hex (lab.machine.memory.word physical.toNat)).written⟩
  frames : mirror.frames = lab.machine.pageInfo.frameCount.toNat
  free : mirror.free = lab.machine.pageInfo.freeCount.toNat

section Layout

variable {image : List Byte}

theorem hex_injective {value value' : U64}
    (same : (TraceField.hex value).written = (TraceField.hex value').written)
    : value = value' := by
  have read := pyHex_written value
  rw [same, pyHex_written value'] at read
  exact BitVec.eq_of_toNat_eq (Option.some.inj read).symm

theorem mappingAddress_injective (sized : Sized image) {k k' : Nat} (inside : k < userPages image)
    (inside' : k' < userPages image) (same : mappingAddress image k = mappingAddress image k')
    : k = k' := by
  have page := mappingAddress_page sized inside
  rw [same, mappingAddress_page sized inside'] at page
  have index := layoutIndex_layoutPage sized inside'
  rw [page, layoutIndex_layoutPage sized inside] at index
  exact Option.some.inj index

theorem pageName_mappingAddress (sized : Sized image) {k : Nat} (inside : k < userPages image)
    : pageName (mappingAddress image k) = (mappingKind image k).toList := by
  have place := mappingAddress_toNat sized inside
  have bound := sized.codePages_le
  have data : userData.toNat = 0x600000 := rfl
  have stack : userStack.toNat = 0x800000 := rfl
  have size : pageSize = 4096 := rfl
  unfold pageName mappingKind
  simp only [BitVec.lt_def, place, data, stack, size]
  unfold layoutPage
  unfold userPages at inside
  split_ifs <;> first | rfl | omega

end Layout

-----------------------------------------------------------------------------------------
-- What a report tells
-----------------------------------------------------------------------------------------

section Report

variable {image : List Byte} {lab : Lab} {index : TaskIndex} {mirror : Mirror}

/-- The tellings of a report. -/
inductive Lab.Told (image : List Byte) (lab : Lab) : Telling → Prop
  | nothing : Told image lab .nothing
  | process {index : TaskIndex} (used : (lab.tasks index).state ≠ .unused)
      : Told image lab (.process (lab.processView index))
  | map {index : TaskIndex} {k : Nat} (used : (lab.tasks index).state ≠ .unused)
      (inside : k < userPages image)
      : Told image lab (.map (lab.pid index) (lab.mapView image index k))
  | data {index : TaskIndex} (used : (lab.tasks index).state ≠ .unused)
      : Told image lab (.data (lab.pid index) (lab.dataView index))
  | memory
      : Told image lab
          (.memory lab.machine.pageInfo.frameCount.toNat lab.machine.pageInfo.freeCount.toNat)

theorem Lab.reportRecords_told (lab : Lab)
    : ∀ record ∈ lab.reportRecords image, Lab.Told image lab record.telling := by
  intro record member
  rcases List.mem_append.mp member with first | memory
  · rcases List.mem_cons.mp first with begins | slots
    · rw [begins]
      exact .nothing
    · obtain ⟨index, _, told⟩ := List.mem_flatMap.mp slots
      unfold Lab.slotRecords at told
      split at told
      · cases told
      · next used =>
          rcases List.mem_cons.mp told with process | mapping
          · rw [process, Lab.processRecord_telling, if_neg used]
            exact .process used
          · unfold Lab.mappingRecords at mapping
            split at mapping
            · cases mapping
            · rcases List.mem_append.mp mapping with page | data
              · obtain ⟨k, inside, rfl⟩ := List.mem_map.mp page
                rw [Lab.mapRecord_telling]
                exact .map used (List.mem_range.mp inside)
              · rw [List.mem_singleton.mp data, Lab.dataRecord_telling]
                exact .data used
  · rw [List.mem_singleton.mp memory]
    exact .memory

theorem Lab.mem_reportRecords (used : (lab.tasks index).state ≠ .unused) {record : TraceRecord}
    (member : record = lab.processRecord index ∨ record ∈ lab.mappingRecords image index)
    : record ∈ lab.reportRecords image := by
  have here : record ∈ lab.slotRecords image index := by
    rw [Lab.slotRecords, if_neg used]
    exact List.mem_cons.mpr member
  have slots := List.mem_flatMap.mpr ⟨index, List.mem_finRange index, here⟩
  exact List.mem_append_left _ (List.mem_cons_of_mem _ slots)

/-- What all tellings of a report write, if they write it, and one of them does. -/
theorem Lab.report_shows {γ : Type} {view : Mirror → γ} {value : γ}
    (agree
      : ∀ telling,
          Lab.Told image lab telling
          → ∀ mirror : Mirror,
              view (mirror.tell telling) = value ∨ view (mirror.tell telling) = view mirror)
    {telling : Telling} (told : ∃ record ∈ lab.reportRecords image, record.telling = telling)
    (writes : ∀ mirror : Mirror, view (mirror.tell telling) = value) (mirror : Mirror)
    : view (mirror.tellAll (lab.reportRecords image)) = value := by
  obtain ⟨record, member, rfl⟩ := told
  have all : Agree (fun mirror record => mirror.tell (TraceRecord.telling record)) view value
      (lab.reportRecords image) :=
    fun record member state => agree _ (lab.reportRecords_told record member) state
  exact all.foldl_written ⟨record, member, writes⟩ mirror

/-- An entry that only one telling can write. -/
theorem update_agree {α : Type} {entries : Int → Option α} {entry value : Option α} {pid other : Int}
    (same : pid = other → entry = value)
    : Function.update entries other entry pid = value
      ∨ Function.update entries other entry pid = entries pid := by
  rcases eq_or_ne pid other with here | different
  · subst here
    exact Or.inl ((Function.update_self ..).trans (same rfl))
  · exact Or.inr (Function.update_of_ne different ..)

theorem Lab.report_process (distinct : lab.Distinct) (used : (lab.tasks index).state ≠ .unused)
    (mirror : Mirror)
    : (mirror.tellAll (lab.reportRecords image)).processes (lab.pid index)
      = some (lab.processView index) := by
  refine @Lab.report_shows image lab _ (fun mirror => mirror.processes (lab.pid index)) _ ?_ _
    ⟨lab.processRecord index, Lab.mem_reportRecords used (Or.inl rfl), rfl⟩ ?_ mirror
  · intro telling told mirror
    cases told with
    | @process other used' =>
        refine update_agree fun same => ?_
        rw [distinct index other used used' same]
    | nothing | map | data | memory => exact Or.inr rfl
  · intro mirror
    rw [Lab.processRecord_telling, if_neg used]
    exact Function.update_self ..

theorem Lab.report_data (distinct : lab.Distinct) (used : (lab.tasks index).state ≠ .unused)
    (live : (lab.tasks index).root ≠ 0) (mirror : Mirror)
    : (mirror.tellAll (lab.reportRecords image)).data (lab.pid index)
      = some (lab.dataView index) := by
  have member : lab.dataRecord index ∈ lab.mappingRecords image index := by
    rw [Lab.mappingRecords, if_neg live]
    exact List.mem_append_right _ List.mem_cons_self
  refine @Lab.report_shows image lab _ (fun mirror => mirror.data (lab.pid index)) _ ?_ _
    ⟨_, Lab.mem_reportRecords used (Or.inr member), rfl⟩ ?_ mirror
  · intro telling told mirror
    cases told with
    | @data other used' =>
        refine update_agree fun same => ?_
        rw [distinct index other used used' same]
    | nothing | map | process | memory => exact Or.inr rfl
  · intro mirror
    rw [Lab.dataRecord_telling]
    exact Function.update_self ..

theorem Lab.report_memory (lab : Lab) (mirror : Mirror)
    : ((mirror.tellAll (lab.reportRecords image)).frames,
        (mirror.tellAll (lab.reportRecords image)).free)
      = ((lab.machine.pageInfo.frameCount.toNat : Int),
          (lab.machine.pageInfo.freeCount.toNat : Int)) := by
  refine @Lab.report_shows image lab _ (fun mirror => (mirror.frames, mirror.free)) _ ?_ _
    ⟨_, List.mem_append_right _ List.mem_cons_self, rfl⟩ (fun _ => rfl) mirror
  intro telling told mirror
  cases told with
  | memory => exact Or.inl rfl
  | nothing | map | process | data => exact Or.inr rfl

/-- The page that a mirror shows of a process at an address. -/
def Mirror.page (mirror : Mirror) (pid : Int) (va : Text) : Option MapView :=
  (mirror.maps pid).getD (fun _ => none) va

theorem Mirror.page_tell_map (mirror : Mirror) (pid other : Int) (va : Text) (view : MapView)
    : (mirror.tell (.map other view)).page pid va
      = if pid = other ∧ va = view.va then some view else mirror.page pid va := by
  change (Function.update mirror.maps other _ pid).getD (fun _ => none) va = _
  rcases eq_or_ne pid other with same | different
  · subst same
    rw [Function.update_self, Option.getD_some, Function.update_apply]
    simp only [true_and]
    rfl
  · rw [Function.update_of_ne different, if_neg fun both => different both.1]
    rfl

theorem Lab.report_page (distinct : lab.Distinct) (sized : Sized image)
    (used : (lab.tasks index).state ≠ .unused) (live : (lab.tasks index).root ≠ 0) {k : Nat}
    (inside : k < userPages image) (mirror : Mirror)
    : (mirror.tellAll (lab.reportRecords image)).page (lab.pid index)
        (TraceField.hex (mappingAddress image k)).written
      = some (lab.mapView image index k) := by
  have member : lab.mapRecord image index k ∈ lab.mappingRecords image index := by
    rw [Lab.mappingRecords, if_neg live]
    exact List.mem_append_left _ (List.mem_map.mpr ⟨k, List.mem_range.mpr inside, rfl⟩)
  refine @Lab.report_shows image lab _ (fun mirror => mirror.page (lab.pid index)
    (TraceField.hex (mappingAddress image k)).written) _ ?_ _
    ⟨_, Lab.mem_reportRecords used (Or.inr member), rfl⟩ ?_ mirror
  · intro telling told mirror
    cases told with
    | @map other k' used' inside' =>
        rw [Mirror.page_tell_map]
        split
        · next same =>
            have slot := distinct index other used used' same.1
            have page := mappingAddress_injective sized inside inside' (hex_injective same.2)
            subst slot page
            exact Or.inl rfl
        · exact Or.inr rfl
    | nothing | data | process | memory => exact Or.inr rfl
  · intro mirror
    rw [Lab.mapRecord_telling]
    exact (Mirror.page_tell_map ..).trans (if_pos ⟨rfl, rfl⟩)

end Report

-----------------------------------------------------------------------------------------
-- Agreement
-----------------------------------------------------------------------------------------

section Agreement

variable {image : List Byte} {lab : Lab} {index : TaskIndex} {mirror : Mirror}

/-- What a page of a formed task shows. -/
theorem TaskFormed.mapView_eq (formed : TaskFormed image lab.machine (lab.tasks index))
    (ready : lab.machine.Ready) (sized : Sized image) {k : Nat} (inside : k < userPages image)
    : ∃ physical flags,
        lab.Maps index (mappingAddress image k) physical flags
        ∧ lab.mapView image index k
          = ⟨(TraceField.hex (mappingAddress image k)).written,
              (TraceField.hex physical).written, flags.toNat,
              pageName (mappingAddress image k)⟩ := by
  obtain ⟨frame, _, found⟩ := formed.lookup ready sized inside
  refine ⟨frame, layoutFlags image k, ⟨_, formed.space, formed.space ▸ found⟩, ?_⟩
  simp only [Lab.mapView, found, pageName_mappingAddress sized inside]

/-- A page that a formed task maps is one of the layout. -/
theorem TaskFormed.mapped_page (formed : TaskFormed image lab.machine (lab.tasks index))
    (ready : lab.machine.Ready) (sized : Sized image) {address physical : U64} {flags : U32}
    (aligned : address.toNat % pageSize = 0) (maps : lab.Maps index address physical flags)
    : ∃ k < userPages image, address = mappingAddress image k := by
  obtain ⟨frame, _, mapped, _⟩ := (formed.maps_iff ready sized).mp maps
  obtain ⟨k, inside, page, _, _⟩ := (layoutMap_eq_some sized).mp mapped
  refine ⟨k, inside, BitVec.eq_of_toNat_eq ?_⟩
  rw [mappingAddress_toNat sized inside, page]
  have whole := Nat.div_add_mod' address.toNat pageSize
  rw [aligned, Nat.add_zero] at whole
  exact whole.symm

/-- The data word is where the data page is mapped. -/
theorem TaskFormed.maps_data (formed : TaskFormed image lab.machine (lab.tasks index))
    (ready : lab.machine.Ready) (sized : Sized image)
    : ∃ flags, lab.Maps index userData (lab.tasks index).dataPage flags := by
  have inside : codePages image < userPages image := by
    unfold userPages
    omega
  have place : layoutPage image (codePages image) = userData.toNat / pageSize := by
    rw [layoutPage, if_neg (Nat.lt_irrefl _), if_pos rfl]
    rfl
  refine ⟨layoutFlags image (codePages image), (formed.maps_iff ready sized).mpr ?_⟩
  refine ⟨(lab.tasks index).dataPage, formed.data_mem, ?_, ?_⟩
  · exact (layoutMap_eq_some sized).mpr ⟨_, inside, place, formed.data, rfl⟩
  · rw [show userData.toNat % pageSize = 0 from rfl]
    exact (BitVec.add_zero _).symm

theorem Lab.Maps.unique {address physical physical' : U64} {flags flags' : U32}
    (maps : lab.Maps index address physical flags) (maps' : lab.Maps index address physical' flags')
    : physical = physical' ∧ flags = flags' := by
  obtain ⟨space, found, result⟩ := maps
  obtain ⟨space', found', result'⟩ := maps'
  cases found.symm.trans found'
  cases result.symm.trans result'
  exact ⟨rfl, rfl⟩

/-- A report forgets no task. -/
theorem Mirror.Covers.report_known (covers : mirror.Covers lab.pids (layoutTexts image))
    (used : (lab.tasks index).state ≠ .unused)
    : (mirror.tellAll (lab.reportRecords image)).maps (lab.pid index) ≠ none := by
  have after := covers.tellKnown fun record member => (lab.reportRecords_about record member).2
  exact after.known _ (Lab.mem_pids used)

theorem Task.Live.used {task : Task} (live : task.Live) : task.state ≠ .unused := by
  intro unused
  rw [Task.Live, unused] at live
  simp at live

section Live

variable (kernel : InKernel image lab) (distinct : lab.Distinct)
include kernel

theorem InKernel.root_iff (index : TaskIndex)
    : (lab.tasks index).root ≠ 0 ↔ (lab.tasks index).Live := by
  refine ⟨kernel.toConsistent.live_of_root, fun live => ?_⟩
  have formed := kernel.partition.formed index live
  rw [formed.root]
  exact formed.tree.root_ne_zero kernel.partition.ready

/-- The running task is the ready one that the kernel serves. -/
theorem InKernel.processView_eq (index : TaskIndex)
    : lab.processView index
      = { lab.processView index with current := decide (index = lab.current) } := by
  have running : (index = lab.current ∧ (lab.tasks index).state = .ready) ↔ index = lab.current :=
    ⟨And.left, fun same => ⟨same, same ▸ kernel.ready⟩⟩
  unfold Lab.processView
  simp only [running]

include distinct

/-- Where no task has ended the report leaves nothing to know. -/
theorem InKernel.report_agrees (covers : mirror.Covers lab.pids (layoutTexts image))
    (nobody : ∀ index, (lab.tasks index).state ≠ .exited)
    : (mirror.tellAll (lab.reportRecords image)).Agrees lab := by
  have ready := kernel.partition.ready
  have sized := kernel.sized
  have after := covers.tellKnown fun record member => (lab.reportRecords_about record member).2
  have live {index : TaskIndex} (used : (lab.tasks index).state ≠ .unused)
      : (lab.tasks index).Live := by
    have alive := nobody index
    rw [Task.Live]
    cases state : (lab.tasks index).state <;> simp_all
  have memory := Prod.mk.inj (@Lab.report_memory image lab mirror)
  refine ⟨?_, ?_, ?_, ?_, memory.1, memory.2⟩
  · intro pid view
    constructor
    · intro found
      obtain ⟨index, used, rfl⟩ := after.within.processes pid (by rw [found]; simp)
      have told := @Lab.report_process image lab index distinct used mirror
      refine ⟨index, used, rfl, ?_⟩
      rw [← kernel.processView_eq]
      exact Option.some.inj (found.symm.trans told)
    · rintro ⟨index, used, rfl, rfl⟩
      rw [← kernel.processView_eq]
      exact Lab.report_process distinct used mirror
  · intro pid
    constructor
    · intro known
      obtain ⟨index, used, rfl⟩ := after.within.maps pid known
      exact ⟨index, (kernel.root_iff index).mpr (live used), rfl⟩
    · rintro ⟨index, root, rfl⟩
      exact after.known _ (Lab.mem_pids ((kernel.root_iff index).mp root).used)
  · intro index pages root found va view
    have alive := (kernel.root_iff index).mp root
    have formed := kernel.partition.formed index alive
    have page {k : Nat} (inside : k < userPages image)
        : pages (TraceField.hex (mappingAddress image k)).written
          = some (lab.mapView image index k) := by
      rw [← Lab.report_page distinct sized alive.used root inside mirror, Mirror.page, found]
      rfl
    constructor
    · intro shown
      obtain ⟨k, inside, rfl⟩ := after.within.addresses _ pages found va (by rw [shown]; simp)
      obtain ⟨physical, flags, maps, same⟩ := formed.mapView_eq ready sized inside
      refine ⟨_, physical, flags, mappingAddress_aligned sized inside, maps, rfl, ?_⟩
      rw [← same]
      exact Option.some.inj (shown.symm.trans (page inside))
    · rintro ⟨address, physical, flags, aligned, maps, rfl, rfl⟩
      obtain ⟨k, inside, rfl⟩ := formed.mapped_page ready sized aligned maps
      obtain ⟨physical', flags', maps', same⟩ := formed.mapView_eq ready sized inside
      obtain ⟨rfl, rfl⟩ := maps.unique maps'
      rw [page inside, same]
  · intro pid view
    constructor
    · intro found
      obtain ⟨index, used, rfl⟩ := after.within.data pid (by rw [found]; simp)
      have root := (kernel.root_iff index).mpr (live used)
      have told := @Lab.report_data image lab index distinct used root mirror
      obtain ⟨flags, maps⟩ := (kernel.partition.formed index (live used)).maps_data ready sized
      exact ⟨index, _, flags, rfl, maps, Option.some.inj (found.symm.trans told)⟩
    · rintro ⟨index, physical, flags, rfl, maps, rfl⟩
      have alive := kernel.toConsistent.live_of_maps maps
      obtain ⟨flags', maps'⟩ := (kernel.partition.formed index alive).maps_data ready sized
      obtain ⟨rfl, _⟩ := maps.unique maps'
      exact Lab.report_data distinct alive.used ((kernel.root_iff index).mpr alive) mirror

/-- A task that has ended has no address space, and the mirror still shows its pages. -/
theorem InKernel.report_differs (covers : mirror.Covers lab.pids (layoutTexts image))
    (exited : (lab.tasks index).state = .exited)
    : ¬(mirror.tellAll (lab.reportRecords image)).Agrees lab := by
  intro agrees
  have used : (lab.tasks index).state ≠ .unused := by
    rw [exited]
    exact fun impossible => by cases impossible
  obtain ⟨other, root, same⟩ := (agrees.spaces _).mp (covers.report_known used)
  have live := (kernel.root_iff other).mp root
  have here := distinct index other used live.used same
  subst here
  rw [Task.Live, exited] at live
  simp at live

/-- After a report the mirror agrees with the kernel just where no task has ended. -/
theorem InKernel.inspect_agrees_iff (covers : mirror.Covers lab.pids (layoutTexts image))
    : (mirror.tellAll (lab.inspectRecords image)).Agrees lab
      ↔ ∀ index, (lab.tasks index).state ≠ .exited := by
  rw [Lab.tellAll_inspect]
  refine ⟨fun agrees index exited => ?_, kernel.report_agrees distinct covers⟩
  exact kernel.report_differs distinct covers exited agrees

end Live

end Agreement

-----------------------------------------------------------------------------------------
-- Reachable states
-----------------------------------------------------------------------------------------

section Runs

variable {image : List Byte} {info : BootInfo} {spawns : Nat} {lab : Lab}

/-- The kernel that reported was in order, and the mirror knew its tasks before the report. -/
theorem Lab.Inspected.covered {records : List TraceRecord} {kernel : Lab}
    (inspected : Lab.Inspected image info (spawns, lab) records kernel)
    (guaranteed : info.Guaranteed) (bound : spawns < 2 ^ 32 - 1)
    : InKernel image kernel
      ∧ kernel.Distinct
      ∧ ∃ mirror : Mirror,
          mirror.Covers kernel.pids (layoutTexts image)
          ∧ Guest.fresh.mirror.tellAll records = mirror.tellAll (kernel.inspectRecords image) := by
  obtain ⟨before, after, error, cr2, scratch, reached, _, rfl, _, _, count, rfl, _, run⟩ := inspected
  have grown := run.spawns_le
  have small : before.1 < 2 ^ 32 - 1 := by
    dsimp only at grown
    omega
  have user := reached.reachable.user guaranteed
  have entry : before.2.SameNames (before.2.entered 128 error scratch) := .withTask Iff.rfl rfl
  have covers := reached.covers guaranteed small
  rw [← entry.pids] at covers
  exact ⟨user.entered 128 error scratch, entry.distinct (reached.distinct guaranteed small), _, covers,
    Mirror.tellAll_append ..⟩

/-- The guest that has heard the records agrees with the kernel that reported, or does not. -/
theorem Lab.Inspected.agrees_iff {records : List TraceRecord} {kernel : Lab}
    (inspected : Lab.Inspected image info (spawns, lab) records kernel)
    (guaranteed : info.Guaranteed) (bound : spawns < 2 ^ 32 - 1)
    : (Guest.fresh.mirror.tellAll records).Agrees kernel
      ↔ ∀ index, (kernel.tasks index).state ≠ .exited := by
  obtain ⟨inKernel, distinct, mirror, covers, same⟩ := inspected.covered guaranteed bound
  rw [same]
  exact inKernel.inspect_agrees_iff distinct covers

/-- Whenever the guest has handled the records up to the end of a report, that of an `inspect` of
the run, it shows the kernel's state at that `inspect` if and only if no task had ended without
being reaped. The pages of such a task are still shown.
-/
theorem snapshot_agrees_iff_no_task_has_ended
    (reached : ReachableAfter image info spawns lab) (guaranteed : info.Guaranteed)
    (bound : spawns < 2 ^ 32 - 1) {records : List TraceRecord} {tick : U64}
    (heard : records <+: lab.console.trace)
    (snapshot : records.getLast? = some ⟨"snapshot-end", tick, []⟩)
    : ∃ guest,
        (guestEvents (records.map TraceRecord.line)).run.run Guest.fresh = (.ok (), guest)
        ∧ (∃ kernel, Lab.Inspected image info (spawns, lab) records kernel)
        ∧ ∀ kernel,
            Lab.Inspected image info (spawns, lab) records kernel
            → (guest.mirror.Agrees kernel ↔ ∀ index, (kernel.tasks index).state ≠ .exited) := by
  have emitted : ∀ record ∈ records, record.Emitted :=
    fun record member => reached.reachable.trace_emitted record (heard.subset member)
  obtain ⟨guest, run, mirrored⟩ := guestEvents_mirror emitted Guest.fresh
  refine ⟨guest, run, ?_, fun kernel inspected => ?_⟩
  · obtain ⟨earlier, rfl⟩ := List.getLast?_eq_some_iff.mp snapshot
    exact reached.inspected guaranteed bound heard
  · rw [mirrored]
    exact inspected.agrees_iff guaranteed bound

end Runs

-----------------------------------------------------------------------------------------
-- A sample
-----------------------------------------------------------------------------------------

/-- A call of `inspect` returns, and has traced its report. -/
theorem ReachableAfter.inspects {image : List Byte} {info : BootInfo} {spawns : Nat} {lab : Lab}
    (reached : ReachableAfter image info spawns lab) (guaranteed : info.Guaranteed)
    (call : Syscall.ofNumber (lab.cpu.general .rax) = some .inspect) (error cr2 : U64)
    (scratch : Stack)
    : ∃ spawns' lab',
        ReachableAfter image info spawns' lab'
        ∧ spawns' ≤ spawns + 1
        ∧ labStep image (.interrupt 128 error cr2 scratch) lab = .ok ((), lab')
        ∧ Lab.Inspected image info (spawns', lab') lab'.console.trace
            (lab.entered 128 error scratch)
        ∧ lab'.console.trace.getLast? = some ⟨"snapshot-end", lab.ticks, []⟩ := by
  let entered : Lab := lab.entered 128 error scratch
  have user := reached.reachable.user guaranteed
  have kernel : InKernel image entered := user.entered 128 error scratch
  have number : entered.savedNumber = lab.cpu.general .rax :=
    lab.entered_savedField 128 error scratch (.general .rax)
  have request : entered.request 128 = .call := by
    refine (lab.entered_request 128 error cr2 scratch).trans ?_
    simp [Lab.action, call]
  have outcome := user.labStep_spec (.interrupt 128 error cr2 scratch)
  cases stepped : labStep image (.interrupt 128 error cr2 scratch) lab with
  | error reason =>
      have halted : KernelHalt 128 entered reason := outcome.error stepped
      cases halted with
      | exit terminates _ => cases terminates.symm.trans request
      | wait waits _ _ _ => cases waits.symm.trans request
      | unexpected unhandled => simp at unhandled
  | ok pair =>
      obtain ⟨_, _, done⟩ := outcome.ok stepped
      obtain ⟨_, lab'⟩ := pair
      cases done with
      | @interrupt _ _ _ _ middle ran =>
          obtain ⟨grew, _⟩ := KernelRun.inspects ran (number ▸ call)
          have traced : middle.left.console.trace
              = entered.console.trace ++ entered.inspectRecords image := grew
          refine ⟨_, _, reached.step _ stepped, ?_, rfl, ⟨(spawns, lab), (_, middle.left), error, cr2,
            scratch, reached, call, rfl, kernel.partition.inspect_reports kernel.sized, stepped, rfl,
            traced.symm, rfl, .refl⟩, ?_⟩
          · unfold Lab.numbersTo
            split <;> omega
          · refine (congrArg List.getLast? traced).trans ?_
            rw [Lab.inspectRecords_eq, ← List.append_assoc]
            exact List.getLast?_concat

/-- In the sample the shell and `init` wait while a program reports itself; and the shell reports
itself when the program has exited.
-/
theorem snapshot_agrees_in_sample
    : ∃ shell child before after,
        ChildRuns .hello shell child before.userTable
        ∧ labStep sampleImage (.interrupt 128 0 0 fun _ => 0) (before.calling 4 7) = .ok ((), after)
        ∧ after.current = shell
        ∧ ∀ lab,
            lab = before ∨ lab = after
            → ∃ spawns lab' guest kernel,
                ReachableAfter sampleImage sampleInfo 2 lab
                ∧ labStep sampleImage (.interrupt 128 0 0 fun _ => 0) (lab.calling 15 0)
                  = .ok ((), lab')
                ∧ Lab.Inspected sampleImage sampleInfo (spawns, lab') lab'.console.trace kernel
                ∧ (guestEvents (lab'.console.trace.map TraceRecord.line)).run.run Guest.fresh
                  = (.ok (), guest)
                ∧ guest.mirror.Agrees kernel := by
  obtain ⟨before, shell, child, reached, runs⟩ := sample_child
  obtain ⟨after, stepped, reached', table⟩ :=
    reached.child_exits sample_guaranteed runs (by decide) 7
  have calls : ChildRuns .hello shell child (before.calling 4 7).userTable :=
    runs.same rfl rfl (before.calling_role 4 7)
  obtain ⟨_, ended⟩ := calls.ended 7
  refine ⟨shell, child, before, after, runs, stepped, congrArg ProcessTable.current table, ?_⟩
  intro lab one
  have reached : ReachableAfter sampleImage sampleInfo 2 lab := by
    rcases one with rfl | rfl
    · exact reached
    · exact reached'
  have unended (index : TaskIndex) : (lab.tasks index).state ≠ .exited := by
    rw [← lab.userTable_state]
    rcases one with rfl | rfl
    · exact runs.unended index
    · rw [table]
      exact (ended index).2
  obtain ⟨spawns, lab', reached', few, stepped, inspected, snapshot⟩ :=
    (reached.calling 15 0).inspects sample_guaranteed rfl 0 0 fun _ => 0
  obtain ⟨guest, run, _, agrees⟩ :=
    snapshot_agrees_iff_no_task_has_ended reached' sample_guaranteed (by omega)
      (List.prefix_refl _) snapshot
  refine ⟨spawns, lab', guest, _, reached, stepped, inspected, run, (agrees _ inspected).mpr ?_⟩
  intro index exited
  have same := Lab.entered_same (lab.calling 15 0) 128 0 (fun _ => 0) index
  exact unended index (same.state.symm.trans exited)

/-- In the sample the timer has switched to a program, which has ended with an exception while nobody
waited for it.
-/
theorem sample_exited
    : ∃ lab child,
        ReachableAfter sampleImage sampleInfo 2 lab ∧ (lab.tasks child).state = .exited := by
  obtain ⟨lab, shell, child, reached, runs⟩ := sample_shell_runs
  have user := reached.reachable.user sample_guaranteed
  have current : lab.current = shell := runs.current
  -- The timer switches to the program.
  obtain ⟨lab₁, stepped₁, table₁⟩ :=
    user.switches runs.born.state (current ▸ runs.apart.2.2) (current ▸ runs.ready) 0 0 fun _ => 0
  have current₁ : lab₁.current = child := congrArg ProcessTable.current table₁
  have reached₁ : ReachableAfter sampleImage sampleInfo 2 lab₁ := by
    have numbers : lab.numbersTo lab₁ = 0 := if_pos (congrArg ProcessTable.nextPid table₁)
    have step := reached.step _ stepped₁
    rw [numbers] at step
    exact step
  have slots (index : TaskIndex) : lab₁.userTable.slots index = lab.userTable.slots index := by
    rw [table₁]
  -- The program ends, and nobody waits for it.
  have program : (lab₁.tasks lab₁.current).program = .hello := by
    rw [current₁, ← lab₁.userTable_program, slots]
    exact runs.born.program
  have successor :=
    reached₁.hasSuccessor sample_guaranteed (by decide) (by rw [program]; decide)
  obtain ⟨lab₂, stepped₂, contained⟩ :=
    ((reached₁.reachable.user sample_guaranteed).exception_contained_iff (by rw [program]; decide)
      (show UserException 6 by decide) 0 0 fun _ => 0).mpr ⟨by decide, successor⟩
  refine ⟨lab₂, lab₁.current, reached₁.ended sample_guaranteed rfl stepped₂, contained.kept ?_⟩
  rintro ⟨index, awaits⟩
  rw [← lab₁.userTable_awaits] at awaits
  have running : lab₁.userTable.running = lab.userTable.slots child := by
    rw [ProcessTable.running, show lab₁.userTable.current = child from current₁, slots]
  rw [running, slots] at awaits
  obtain ⟨_, waiting, named⟩ := awaits
  rcases eq_or_ne index 0 with rfl | notInit
  · cases (runs.initAwaits.symm.trans named).trans runs.born.id
  rcases eq_or_ne index shell with rfl | notShell
  · cases runs.shellReady.state.symm.trans waiting
  rcases eq_or_ne index child with rfl | notChild
  · cases runs.born.state.symm.trans waiting
  · cases (runs.others index notInit notShell notChild).symm.trans waiting

/-- The guest shows pages of a task that has none. -/
theorem snapshot_shows_pages_of_an_ended_task
    : ∃ spawns lab guest kernel index,
        ReachableAfter sampleImage sampleInfo spawns lab
        ∧ spawns < 2 ^ 32 - 1
        ∧ Lab.Inspected sampleImage sampleInfo (spawns, lab) lab.console.trace kernel
        ∧ (guestEvents (lab.console.trace.map TraceRecord.line)).run.run Guest.fresh
          = (.ok (), guest)
        ∧ (kernel.tasks index).state = .exited
        ∧ (kernel.tasks index).pages = []
        ∧ guest.mirror.maps (kernel.pid index) ≠ none
        ∧ ¬guest.mirror.Agrees kernel := by
  obtain ⟨lab, child, reached, exited⟩ := sample_exited
  obtain ⟨spawns, lab', reached', grown, _, inspected, snapshot⟩ :=
    (reached.calling 15 0).inspects sample_guaranteed rfl 0 0 fun _ => 0
  have bound : spawns < 2 ^ 32 - 1 := by omega
  obtain ⟨guest, run, mirrored⟩ :=
    guestEvents_mirror reached'.reachable.trace_emitted Guest.fresh
  have ended : (((lab.calling 15 0).entered 128 0 fun _ => 0).tasks child).state = .exited :=
    (Lab.entered_same (lab.calling 15 0) 128 0 (fun _ => 0) child).state.trans exited
  have used : (((lab.calling 15 0).entered 128 0 fun _ => 0).tasks child).state ≠ .unused :=
    fun unused => by cases ended.symm.trans unused
  obtain ⟨kernel, distinct, mirror, covers, same⟩ := inspected.covered sample_guaranteed bound
  have dead : ¬((lab.calling 15 0).entered 128 0 fun _ => 0).live child := by
    rw [Lab.live, Task.Live, ended]
    simp
  rw [Lab.tellAll_inspect] at same
  refine ⟨spawns, lab', guest, _, child, reached', bound, inspected, run, ended,
    (kernel.partition.empty child dead).2, ?_, ?_⟩
  · rw [mirrored, same]
    exact covers.report_known used
  · rw [mirrored, same]
    exact kernel.report_differs distinct covers ended

end MiniLinux
