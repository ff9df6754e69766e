import Mathlib.Data.List.GetD
import MiniLinux.Laboratory.Observation

/-! How `prepare` builds a task.
Whatever the allocation at which memory runs out, the slot records exactly the frames that
were taken so far. The pages and tables of the layout are counted, so running out means that
fewer frames were left than a whole task needs.
-/

namespace MiniLinux

open Foundation Foundation.Halting

/-- Between the states only the machine and one task differ. -/
def Lab.ChangesTask (lab lab' : Lab) (index : TaskIndex) : Prop :=
  ∃ machine task,
    lab' = { lab with machine := machine, tasks := Function.update lab.tasks index task }

/-- The task was given a space, pages and a data page. -/
def Task.BuiltFrom (task task' : Task) : Prop :=
  ∃ privateSpace pages dataPage,
    task' = { task with hasSpace := true, privateSpace, pages, dataPage }

/-- Since `start` the task in the slot took the frames that it records. -/
structure Building (index : TaskIndex) (start lab : Lab) : Prop where
  confined : start.ChangesTask lab index
  task : (start.tasks index).BuiltFrom (lab.tasks index)
  takes : start.machine.Takes lab.machine (lab.tasks index).owned []

/-- The first `k` pages of the layout are mapped. -/
structure Mapped (image : List Byte) (index : TaskIndex) (start : Lab) (k : Nat) (lab : Lab) : Prop
    extends Building index start lab where
  tree
    : ∃ paths ⊆ layoutPaths,
        lab.machine.SpaceFormed (lab.tasks index).privateSpace paths
        ∧ ∀ j < k, pagePath (layoutPage image j) ∈ paths
  mapping
    : lab.machine.mapping (lab.tasks index).privateSpace.root
      = layoutMap image (lab.tasks index).pages
  count : (lab.tasks index).pages.length = k

/-- Memory ran out before the task was complete. -/
structure Stuck (image : List Byte) (index : TaskIndex) (start lab : Lab) : Prop
    extends Building index start lab where
  exhausted : lab.machine.pages.freeCount = 0
  few : (lab.tasks index).owned.length < taskFrames image
  space
    : (lab.tasks index).privateSpace = .zero
      ∨ (lab.tasks index).privateSpace.root ∈ (lab.tasks index).privateSpace.tables

@[simp] theorem Lab.withTask_self (lab : Lab) (index : TaskIndex) (update : Task → Task)
    : (lab.withTask index update).tasks index = update (lab.tasks index) :=
  Function.update_self ..

theorem Lab.withTask_other (lab : Lab) {index other : TaskIndex} (different : other ≠ index)
    (update : Task → Task)
    : (lab.withTask index update).tasks other = lab.tasks other :=
  Function.update_of_ne different ..

@[simp] theorem Lab.withTask_machine (lab : Lab) (index : TaskIndex) (update : Task → Task)
    : (lab.withTask index update).machine = lab.machine :=
  rfl

namespace Lab.ChangesTask

variable {lab lab' lab'' : Lab} {index : TaskIndex}

theorem machine (lab : Lab) (index : TaskIndex) (machine : Machine)
    : lab.ChangesTask { lab with machine := machine } index :=
  ⟨machine, lab.tasks index, by rw [Function.update_eq_self]⟩

theorem refl (lab : Lab) (index : TaskIndex) : lab.ChangesTask lab index :=
  machine lab index lab.machine

theorem withTask (lab : Lab) (index : TaskIndex) (update : Task → Task)
    : lab.ChangesTask (lab.withTask index update) index :=
  ⟨_, _, rfl⟩

theorem trans (first : lab.ChangesTask lab' index) (second : lab'.ChangesTask lab'' index)
    : lab.ChangesTask lab'' index := by
  obtain ⟨machine, task, rfl⟩ := first
  obtain ⟨machine', task', rfl⟩ := second
  exact ⟨machine', task', by rw [Function.update_idem]⟩

theorem other (changes : lab.ChangesTask lab' index) {other : TaskIndex} (different : other ≠ index)
    : lab'.tasks other = lab.tasks other := by
  obtain ⟨machine, task, rfl⟩ := changes
  exact Function.update_of_ne different ..

end Lab.ChangesTask

/-- A program on the machine and the task's space. -/
theorem onSpace_ok {index : TaskIndex}
    {program : Option AddressSpace → MachineM (Bool × Option AddressSpace)} {lab : Lab}
    {ok : Bool} {space : AddressSpace} {machine : Machine}
    (returns : program (lab.tasks index).space lab.machine = .ok ((ok, some space), machine))
    : onSpace index program lab
      = .ok
          (ok,
            ({ lab with machine := machine } : Lab).withTask index fun task =>
              { task with privateSpace := space }) := by
  unfold onSpace
  rw [bind_get_apply, bind_ok (onMachine_ok returns)]
  rfl

@[simp] theorem writePage_apply (place : Nat) (bytes : List Byte) (lab : Lab)
    : writePage place bytes lab
      = .ok
          ((),
            { lab with machine := { lab.machine with
                memory := lab.machine.memory.storeBytes place bytes } }) :=
  rfl

-----------------------------------------------------------------------------------------
-- Contents of pages
-----------------------------------------------------------------------------------------

/-- A page holds bytes from its start, and zeros after them. -/
def Machine.Shows (machine : Machine) (page : U64) (bytes : List Byte) : Prop :=
  ∀ byte,
    frameOf byte = frameOf page.toNat → machine.memory byte = bytes.getD (byte % pageSize) 0

/-- What `prepare` writes to the `k`-th page: its part of the image to a code page. -/
def imagePage (image : List Byte) (k : Nat) : List Byte :=
  if k < codePages image then imageChunk image k else []

/-- The first `k` pages of a task hold the image, and zeros in the data and stack pages. -/
def Lab.Filled (image : List Byte) (lab : Lab) (index : TaskIndex) (k : Nat) : Prop :=
  ∀ j < k, ∀ page,
    (lab.tasks index).pages[j]? = some page → lab.machine.Shows page (imagePage image j)

/-- A page that is neither taken nor written keeps what it holds. -/
theorem Machine.Takes.shows {machine machine' : Machine} {taken written : List U64}
    (takes : machine.Takes machine' taken written) (wellFormed : machine.PagesWellFormed)
    {page : U64} (outstanding : machine.Outstanding page)
    (apart : ∀ address ∈ written, frameOf address.toNat ≠ frameOf page.toNat) {bytes : List Byte}
    (shows : machine.Shows page bytes)
    : machine'.Shows page bytes := by
  intro byte inside
  refine (takes.memory_of_allocated wellFormed (inside ▸ outstanding.2) ?_).trans (shows byte inside)
  rintro ⟨address, member, same⟩
  exact apart address member (same.trans inside)

/-- The bytes of a page, counted from its start. -/
theorem page_offset {page : U64} (aligned : page.toNat % pageSize = 0) {byte : Nat}
    (inside : frameOf byte = frameOf page.toNat)
    : page.toNat ≤ byte ∧ byte < page.toNat + pageSize ∧ byte - page.toNat = byte % pageSize := by
  simp only [frameOf, pageSize] at aligned inside ⊢
  omega

/-- Writing a page, where what is not written is clear. -/
theorem Machine.shows_write (machine : Machine) {page : U64} (aligned : page.toNat % pageSize = 0)
    {bytes : List Byte} (rest : bytes.length < pageSize → machine.Shows page [])
    : ({ machine with memory := machine.memory.storeBytes page.toNat bytes } : Machine).Shows page
        bytes := by
  intro byte inside
  obtain ⟨low, high, offset⟩ := page_offset aligned inside
  refine (Memory.storeBytes_apply machine.memory page.toNat bytes byte).trans ?_
  rw [← offset]
  by_cases written : byte < page.toNat + bytes.length
  · rw [if_pos ⟨low, written⟩]
  · have beyond : bytes.length ≤ byte - page.toNat := by omega
    rw [if_neg (fun both => written both.2), rest (by omega) byte inside,
      List.getD_eq_default bytes 0 beyond]
    rfl

/-- A page of zeros is clear. -/
theorem Machine.Shows.clear {machine : Machine} {page : U64}
    (shows : machine.Shows page (List.replicate pageSize 0))
    : machine.Shows page [] := by
  intro byte inside
  rw [shows byte inside, List.getD_replicate 0 (Nat.mod_lt byte (by decide))]
  rfl

/-- The frames of a task are counted by its tree and its pages. -/
theorem Task.owned_length {machine : Machine} {task : Task} {paths : Finset (List Nat)}
    (formed : machine.SpaceFormed task.privateSpace paths)
    : task.owned.length = paths.card + task.pages.length := by
  rw [Task.owned, List.length_append, formed.counted]

namespace Building

variable {index : TaskIndex} {start lab : Lab}

theorem hasSpace (building : Building index start lab) : (lab.tasks index).hasSpace = true := by
  obtain ⟨_, _, _, built⟩ := building.task
  rw [built]

theorem space (building : Building index start lab)
    : (lab.tasks index).space = some (lab.tasks index).privateSpace := by
  rw [Task.space, if_pos building.hasSpace]

theorem outstanding (building : Building index start lab) {address : U64}
    (member : address ∈ (lab.tasks index).owned)
    : lab.machine.Outstanding address :=
  (building.takes.outstanding_iff address).mpr (Or.inl member)

/-- Pages of a task are apart from its other frames. -/
theorem frame_apart (building : Building index start lab) (ready : lab.machine.Ready)
    {page other : U64} (member : page ∈ (lab.tasks index).owned)
    (member' : other ∈ (lab.tasks index).owned) (different : other ≠ page)
    : frameOf other.toNat ≠ frameOf page.toNat := by
  intro same
  have frame := ready.frameAddress (building.outstanding member')
  exact different (frame.eq_of_frameOf (ready.frameAddress (building.outstanding member)) same)

theorem page_not_table (building : Building index start lab) {page : U64}
    (member : page ∈ (lab.tasks index).pages)
    : page ∉ (lab.tasks index).privateSpace.tables := by
  intro table
  have distinct := List.nodup_append.mp building.takes.distinct
  exact distinct.2.2 page table page member rfl

end Building

namespace Mapped

variable {image : List Byte} {index : TaskIndex} {start lab : Lab} {k : Nat}

/-- Bytes written to a page of the task change neither its tree nor its map. -/
theorem writePage (mapped : Mapped image index start k lab) (ready : start.machine.Ready)
    {page : U64} (member : page ∈ (lab.tasks index).pages) {bytes : List Byte}
    (short : bytes.length ≤ pageSize)
    : Mapped image index start k
        { lab with machine := { lab.machine with
            memory := lab.machine.memory.storeBytes page.toNat bytes } } := by
  have ready' := mapped.takes.ready ready
  have outstanding := mapped.outstanding (List.mem_append_right _ member)
  have write := Machine.Takes.storeBytes ready' outstanding short
  obtain ⟨paths, inside, formed, reached⟩ := mapped.tree
  have apart : ∀ table ∈ (lab.tasks index).privateSpace.tables, table ∉ [page] := by
    intro table owned single
    exact mapped.page_not_table member (List.mem_singleton.mp single ▸ owned)
  have aligned : ∀ address ∈ [page], FrameAddress address := by
    intro address single
    rw [List.mem_singleton.mp single]
    exact ready'.frameAddress outstanding
  obtain ⟨formed', same⟩ := write.spaceFormed ready' formed apart aligned
  refine ⟨⟨mapped.confined.trans (.machine lab index _), mapped.task, ?_⟩,
    ⟨paths, inside, formed', reached⟩, same.trans mapped.mapping, mapped.count⟩
  have both := (mapped.takes.trans write).mono [] ?_
  · rw [List.append_nil] at both
    exact both
  · intro address single
    rw [List.append_nil, List.append_nil]
    rw [List.nil_append, List.mem_singleton] at single
    exact single ▸ List.mem_append_right _ member

/-- Nothing more can be taken, and a table or a page is still missing. -/
theorem stuck (mapped : Mapped image index start k lab)
    (inside : k < userPages image) (exhausted : lab.machine.pages.freeCount = 0)
    : Stuck image index start lab := by
  obtain ⟨paths, layout, formed, _⟩ := mapped.tree
  refine ⟨mapped.toBuilding, exhausted, ?_, Or.inr formed.rootOwned⟩
  have tables := Finset.card_le_card layout
  rw [Task.owned_length formed, mapped.count, taskFrames]
  omega

/-- Taking, recording and clearing the next page. -/
theorem takePage (mapped : Mapped image index start k lab) (ready : start.machine.Ready)
    (available : lab.machine.pages.freeCount ≠ 0) (output : U64)
    : ∃ page taken,
        pageAlloc (some output) lab.machine
          = .ok ((true, some page), lab.machine.allocate (frameOf page.toNat))
        ∧ lab.machine.Takes taken [page] []
        ∧ taken
          = { lab.machine.allocate (frameOf page.toNat) with
              memory := (lab.machine.allocate (frameOf page.toNat)).memory.storeBytes page.toNat
                (List.replicate pageSize 0) }
        ∧ (lab.machine.allocate (frameOf page.toNat)).Ready
        ∧ (lab.machine.allocate (frameOf page.toNat)).Outstanding page
        ∧ page ∉ (lab.tasks index).owned
        ∧ taken.Shows page [] := by
  have ready' := mapped.takes.ready ready
  obtain ⟨frame, found, allocated⟩ := ready'.pageAlloc_ok output available
  obtain ⟨_, _, _, free, _⟩ := found
  have place := ready'.frameOf_frameAddress free.1
  have takes := Machine.Takes.allocate ready'.toPagesWellFormed free
  have outstanding : (lab.machine.allocate frame).Outstanding (frameAddress frame) :=
    (takes.outstanding_iff _).mpr (Or.inl (List.mem_singleton_self _))
  have short : (List.replicate pageSize (0 : Byte)).length ≤ pageSize := by
    rw [List.length_replicate]
  have write := Machine.Takes.storeBytes (takes.ready ready') outstanding short
  refine ⟨frameAddress frame, _, ?_, (takes.trans write).mono [] (by simp), ?_, ?_⟩
  · rw [place]
    exact allocated
  · rw [place]
  · rw [place]
    refine ⟨takes.ready ready', outstanding, fun member => ?_, ?_⟩
    · have held := (mapped.outstanding member).2
      rw [place] at held
      exact free.not_allocated held
    · refine (Machine.shows_write (lab.machine.allocate frame) outstanding.1 fun few => ?_).clear
      rw [List.length_replicate] at few
      exact absurd few (Nat.lt_irrefl _)

/-- The next page is one that `vm_map` accepts. -/
theorem admits (mapped : Mapped image index start k lab) (sized : Sized image)
    (inside : k < userPages image) {machine : Machine}
    (same
      : machine.mapping (lab.tasks index).privateSpace.root
        = lab.machine.mapping (lab.tasks index).privateSpace.root)
    {page : U64} (outstanding : machine.Outstanding page)
    : machine.MapAdmits (lab.tasks index).privateSpace (mappingAddress image k) page
        (layoutFlags image k) := by
  have place := mappingAddress_toNat sized inside
  have bounds := layoutPage_bounds sized inside
  refine ⟨?_, ?_, mappingAddress_aligned sized inside, outstanding, layoutFlags_known image k, ?_⟩
  · intro zero
    have nothing : (0 : U64).toNat = 0 := rfl
    rw [zero, nothing] at place
    simp only [pageSize] at place
    omega
  · rw [below_iff, mappingAddress_page sized inside, lowerPages]
    omega
  · rw [same, mapped.mapping, mappingAddress_page sized inside, ← mapped.count]
    exact layoutMap_next sized _ (mapped.count ▸ inside)

/-- `map_owned` maps the next page of the layout, or leaves the task stuck.
Witness: the page is recorded before it is mapped, and the tables that `vm_map` added are
recorded even where it fails.
-/
theorem mapOwned_spec (mapped : Mapped image index start k lab) (sized : Sized image)
    (ready : start.machine.Ready) (inside : k < userPages image)
    (filled : lab.Filled image index k) (output : U64)
    : ∃ ok page lab',
        mapOwned index (mappingAddress image k) (layoutFlags image k) output lab
          = .ok ((ok, page), lab')
        ∧ (ok = true
          → Mapped image index start (k + 1) lab'
            ∧ (lab'.tasks index).pages = (lab.tasks index).pages ++ [page]
            ∧ (lab'.tasks index).dataPage = (lab.tasks index).dataPage
            ∧ lab'.Filled image index k
            ∧ lab'.machine.Shows page [])
        ∧ (ok = false → Stuck image index start lab') := by
  have room : (lab.tasks index).pages.length ≠ 19 := by
    have small := sized.codePages_le
    rw [mapped.count]
    simp only [userPages] at inside
    omega
  have opened : mapOwned index (mappingAddress image k) (layoutFlags image k) output lab
      = (do
          let taken ← onMachine (pageAlloc (some output))
          let pa := taken.2.getD output
          if taken.1 then do
            modifyTask index fun task => { task with pages := task.pages ++ [pa] }
            let place ← derefPage pa
            MiniLinux.writePage place (List.replicate pageSize 0)
            let mapped ← onSpace index fun space =>
              vmMap space (mappingAddress image k) pa (layoutFlags image k)
            pure (mapped, pa)
          else pure (false, pa) : LabM (Bool × U64)) lab := by
    rw [mapOwned, bind_get_apply, if_neg room]
  by_cases exhausted : lab.machine.pages.freeCount = 0
  · have refused := pageAlloc_refused lab.machine (some output) (Or.inr exhausted)
    refine ⟨false, output, lab, ?_, ?_, fun _ => mapped.stuck inside exhausted⟩
    · rw [opened, bind_ok (onMachine_ok refused)]
      rfl
    · intro impossible
      cases impossible
  · obtain ⟨page, taken, allocated, takes, shape, readyAllocated, outstandingAllocated, fresh,
      clear⟩ := mapped.takePage ready exhausted output
    have ready₀ := mapped.takes.ready ready
    have ready₁ := takes.ready ready₀
    have outstanding : taken.Outstanding page :=
      (takes.outstanding_iff page).mpr (Or.inl (List.mem_singleton_self _))
    obtain ⟨paths, layout, formed, reached⟩ := mapped.tree
    obtain ⟨formed₁, same⟩ := takes.spaceFormed ready₀ formed (by simp) (by simp)
    obtain ⟨ok, space, machine, paths', tables, result, takes', root, grown, formed', kept, added,
      success, failure⟩ :=
      formed₁.vmMap_spec ready₁ (mapped.admits sized inside same outstanding)
    let before : Lab :=
      ({ lab with machine := taken } : Lab).withTask index fun task =>
        { task with pages := task.pages ++ [page] }
    let lab' : Lab :=
      ({ before with machine := machine } : Lab).withTask index fun task =>
        { task with privateSpace := space }
    have task' : lab'.tasks index
        = { lab.tasks index with
            pages := (lab.tasks index).pages ++ [page], privateSpace := space } := by
      simp [lab', before, Lab.withTask]
    have served : mapOwned index (mappingAddress image k) (layoutFlags image k) output lab
        = .ok ((ok, page), lab') := by
      have called : vmMap (before.tasks index).space (mappingAddress image k) page
          (layoutFlags image k) before.machine = .ok ((ok, some space), machine) := by
        have active : (before.tasks index).space = some (lab.tasks index).privateSpace := by
          rw [← mapped.space]
          simp [before, Task.space]
        rw [active]
        exact result
      subst shape
      rw [opened, bind_ok (onMachine_ok allocated)]
      simp only [if_true, Option.getD_some]
      rw [bind_ok (modifyTask_apply ..),
        bind_ok (derefPage_ok _ readyAllocated outstandingAllocated), bind_ok (writePage_apply ..)]
      exact (bind_ok (onSpace_ok called) _).trans rfl
    have building : Building index start lab' := by
      have changes : lab.ChangesTask lab' index :=
        (Lab.ChangesTask.machine lab index taken).trans
          ((Lab.ChangesTask.withTask _ index _).trans
            ((Lab.ChangesTask.machine before index machine).trans (.withTask _ index _)))
      refine ⟨mapped.confined.trans changes, ?_, ?_⟩
      · obtain ⟨_, _, _, built⟩ := mapped.task
        rw [task', built]
        exact ⟨_, _, _, rfl⟩
      · have order : ((lab.tasks index).owned ++ [page] ++ tables).Perm
            (lab'.tasks index).owned := by
          rw [task', Task.owned, Task.owned, grown]
          simp only [List.append_assoc]
          refine List.Perm.append_left _ ?_
          rw [← List.append_assoc]
          exact List.perm_append_comm
        have whole := ((mapped.takes.trans takes).trans takes').mono [] ?_
        · exact whole.perm order
        · intro address member
          rw [List.nil_append, List.nil_append] at member
          simp only [Task.owned, List.mem_append]
          tauto
    have pages : (lab'.tasks index).pages.length = k + 1 := by
      rw [task', List.length_append, List.length_singleton, mapped.count]
    have layout' : paths' ⊆ layoutPaths := by
      intro path member
      rcases added path member with old | new
      · exact layout old
      · rw [mappingAddress_page sized inside] at new
        exact layoutPaths_of_prefix sized inside new
    have formed'' : lab'.machine.SpaceFormed (lab'.tasks index).privateSpace paths' := by
      rw [task']
      exact formed'
    rw [mappingAddress_page sized inside] at success failure
    refine ⟨ok, page, lab', served, ?_, ?_⟩
    · intro done
      obtain ⟨last, update⟩ := success done
      -- The new tables and the old ones are not pages, whose bytes `vm_map` therefore keeps.
      have shows {held : U64} (member : held ∈ (lab.tasks index).pages ++ [page])
          (outstanding' : taken.Outstanding held) {bytes : List Byte}
          (before : taken.Shows held bytes)
          : machine.Shows held bytes := by
        have held' : held ∈ (lab'.tasks index).pages := by
          rw [task']
          exact member
        refine takes'.shows ready₁.toPagesWellFormed outstanding' ?_ before
        intro table listed
        have listed' : table ∈ (lab'.tasks index).privateSpace.tables := by
          rw [task', grown]
          exact List.mem_append_left _ listed
        have ready₂ : lab'.machine.Ready := building.takes.ready ready
        refine building.frame_apart ready₂ (List.mem_append_right _ held')
          (List.mem_append_left _ listed') ?_
        rintro rfl
        exact building.page_not_table held' listed'
      refine ⟨⟨building, ⟨paths', layout', formed'', ?_⟩, ?_, pages⟩, ?_, ?_, ?_, ?_⟩
      · intro j below
        rcases Nat.lt_succ_iff_lt_or_eq.mp below with earlier | rfl
        · exact kept _ (reached j earlier)
        · exact last
      · rw [task']
        have appended := layoutMap_append sized (lab.tasks index).pages page
          (mapped.count ▸ inside)
        change machine.mapping space.root = _
        rw [root, update, same, mapped.mapping, appended, mapped.count]
      · rw [task']
      · rw [task']
      · intro j below held found
        rw [task'] at found
        change ((lab.tasks index).pages ++ [page])[j]? = some held at found
        rw [List.getElem?_append_left (mapped.count.symm ▸ below)] at found
        have member := List.mem_of_getElem? found
        have owned := mapped.outstanding (List.mem_append_right _ member)
        refine shows (List.mem_append_left _ member) (takes.outstanding owned) ?_
        exact takes.shows ready₀.toPagesWellFormed owned (by simp) (filled j below held found)
      · exact shows (List.mem_append_right _ (List.mem_singleton_self _)) outstanding clear
    · intro failed
      obtain ⟨missing, _, exhausted'⟩ := failure failed
      have layoutPath := layoutPaths_of_prefix sized inside (List.prefix_refl _)
      have fewer : paths'.card < layoutPaths.card :=
        Finset.card_lt_card (Finset.ssubset_iff_of_subset layout' |>.mpr ⟨_, layoutPath, missing⟩)
      refine ⟨building, ?_, ?_, Or.inr formed''.rootOwned⟩
      · -- the space never comes near its limit of tables
        rcases exhausted' with full | empty
        · rw [formed'.counted, vmTableLimit] at full
          rw [layoutPaths_card] at fewer
          omega
        · exact empty
      · rw [Task.owned_length formed'', pages, taskFrames]
        omega

/-- The next page is filled: with its part of the image, or with nothing. -/
theorem fillPage (mapped : Mapped image index start (k + 1) lab) (ready : start.machine.Ready)
    (filled : lab.Filled image index k) {before : List U64} {page : U64}
    (pages : (lab.tasks index).pages = before ++ [page]) (clear : lab.machine.Shows page [])
    : ({ lab with machine := { lab.machine with
          memory := lab.machine.memory.storeBytes page.toNat (imagePage image k) } } : Lab).Filled
        image index (k + 1) := by
  have member : page ∈ (lab.tasks index).pages := by
    rw [pages]
    exact List.mem_append_right _ (List.mem_singleton_self _)
  have ready' := mapped.takes.ready ready
  have outstanding := mapped.outstanding (List.mem_append_right _ member)
  have short : (imagePage image k).length ≤ pageSize := by
    unfold imagePage imageChunk
    split
    · rw [List.length_take]
      exact Nat.min_le_left _ _
    · exact Nat.zero_le _
  have write := Machine.Takes.storeBytes ready' outstanding short
  have last : before.length = k := by
    have count := mapped.count
    rw [pages, List.length_append, List.length_singleton] at count
    omega
  intro j below held found
  change (lab.tasks index).pages[j]? = some held at found
  rcases Nat.lt_succ_iff_lt_or_eq.mp below with earlier | rfl
  · have member' := List.mem_of_getElem? found
    have owned := mapped.outstanding (List.mem_append_right _ member')
    refine write.shows ready'.toPagesWellFormed owned ?_ (filled j earlier held found)
    intro address single
    rw [List.mem_singleton.mp single]
    refine mapped.frame_apart ready' (List.mem_append_right _ member')
      (List.mem_append_right _ member) ?_
    rintro rfl
    have distinct := (List.nodup_append.mp mapped.takes.distinct).2.1
    rw [pages] at found distinct
    rw [List.getElem?_append_left (last.symm ▸ earlier)] at found
    exact (List.nodup_append.mp distinct).2.2 page (List.mem_of_getElem? found) page
      (List.mem_singleton_self _) rfl
  · rw [pages, ← last, List.getElem?_concat_length] at found
    cases found
    exact lab.machine.shows_write outstanding.1 fun _ => clear

/-- The code pages are mapped and filled one after the other, by induction on those left. -/
theorem prepareCode_spec (mapped : Mapped image index start k lab) (sized : Sized image)
    (ready : start.machine.Ready) (filled : lab.Filled image index k) (count : Nat)
    (rest : k + count = codePages image)
    : ∃ ok lab',
        prepareCode image index k count lab = .ok (ok, lab')
        ∧ (ok = true
          → Mapped image index start (codePages image) lab'
            ∧ lab'.Filled image index (codePages image))
        ∧ (ok = false → Stuck image index start lab') := by
  induction count generalizing k lab with
  | zero =>
      obtain rfl : k = codePages image := rest
      refine ⟨true, lab, rfl, fun _ => ⟨mapped, filled⟩, ?_⟩
      intro impossible
      cases impossible
  | succ count ih =>
      have code : k < codePages image := by omega
      have address : mappingAddress image k = userCode + BitVec.ofNat 64 (k * pageSize) := by
        rw [mappingAddress, if_pos code]
      have flags : layoutFlags image k = vmUser ||| vmExec := by
        rw [layoutFlags, if_pos code]
      obtain ⟨ok, page, middle, owned, success, failure⟩ :=
        mapped.mapOwned_spec sized ready (by rw [userPages]; omega) filled 0
      rw [address, flags] at owned
      rw [prepareCode, bind_ok owned]
      cases ok with
      | false =>
          refine ⟨false, middle, rfl, ?_, fun _ => failure rfl⟩
          intro impossible
          cases impossible
      | true =>
          obtain ⟨next, pages, _, filled', clear⟩ := success rfl
          have member : page ∈ (middle.tasks index).pages := by
            rw [pages]
            exact List.mem_append_right _ (List.mem_singleton_self _)
          have short : (imageChunk image k).length ≤ pageSize := by
            rw [imageChunk, List.length_take]
            exact Nat.min_le_left _ _
          have chunk := next.fillPage ready filled' pages clear
          rw [imagePage, if_pos code] at chunk
          obtain ⟨ok, lab', result, done, failed⟩ :=
            ih (next.writePage ready member short) chunk (by omega)
          refine ⟨ok, lab', ?_, done, failed⟩
          simp only [if_true]
          rw [bind_ok (derefPage_ok _ (next.takes.ready ready)
            (next.outstanding (List.mem_append_right _ member))), bind_ok (writePage_apply ..)]
          exact result

/-- The data page does not matter while the task is built. -/
theorem setDataPage (mapped : Mapped image index start k lab) (page : U64)
    : Mapped image index start k
        (lab.withTask index fun task => { task with dataPage := page }) := by
  obtain ⟨⟨confined, ⟨_, _, _, built⟩, takes⟩, tree, mapping, count⟩ := mapped
  have task' : (lab.withTask index fun task => { task with dataPage := page }).tasks index
      = { lab.tasks index with dataPage := page } := Lab.withTask_self ..
  refine ⟨⟨confined.trans (.withTask lab index _), ?_, ?_⟩, ?_, ?_, ?_⟩
  · rw [task', built]
    exact ⟨_, _, _, rfl⟩
  · rw [task']
    exact takes
  · rw [task']
    exact tree
  · rw [task']
    exact mapping
  · rw [task']
    exact count

/-- All pages are there, so all tables of the layout are. -/
theorem complete (mapped : Mapped image index start (userPages image) lab) (sized : Sized image)
    (data : (lab.tasks index).pages[codePages image]? = some (lab.tasks index).dataPage)
    : TaskFormed image lab.machine (lab.tasks index) := by
  obtain ⟨paths, layout, formed, reached⟩ := mapped.tree
  have positive := sized.codePages_pos
  have code := reached 0 (by rw [userPages]; omega)
  have dataPath := reached (codePages image) (by rw [userPages]; omega)
  have stack := reached (codePages image + 1) (by rw [userPages]; omega)
  rw [pagePath_layoutPage sized (by rw [userPages]; omega), if_pos positive] at code
  rw [pagePath_layoutPage sized (by rw [userPages]; omega), if_neg (Nat.lt_irrefl _), if_pos rfl]
    at dataPath
  rw [pagePath_layoutPage sized (by rw [userPages]; omega), if_neg (by omega), if_neg (by omega)]
    at stack
  have all : layoutPaths ⊆ paths := by
    have top := formed.initial_mem [] [0, 0, 2] code
    have middle := formed.initial_mem [0] [0, 2] code
    have lower := formed.initial_mem [0, 0] [2] code
    intro path member
    simp only [layoutPaths, Finset.mem_insert, Finset.mem_singleton] at member
    rcases member with rfl | rfl | rfl | rfl | rfl | rfl
    · exact top
    · exact middle
    · exact lower
    · exact code
    · exact dataPath
    · exact stack
  obtain rfl : paths = layoutPaths := Finset.Subset.antisymm layout all
  exact ⟨mapped.hasSpace, formed, mapped.mapping, mapped.count, data⟩

end Mapped

theorem Lab.Filled.congr {image : List Byte} {index : TaskIndex} {lab lab' : Lab} {k : Nat}
    (filled : lab.Filled image index k) (pages : (lab'.tasks index).pages = (lab.tasks index).pages)
    (machine : lab'.machine = lab.machine)
    : lab'.Filled image index k := by
  intro j below page found
  rw [machine]
  exact filled j below page (pages ▸ found)

theorem Stuck.setDataPage {image : List Byte} {index : TaskIndex} {start lab : Lab}
    (stuck : Stuck image index start lab) (page : U64)
    : Stuck image index start
        (lab.withTask index fun task => { task with dataPage := page }) := by
  obtain ⟨⟨confined, ⟨_, _, _, built⟩, takes⟩, exhausted, few, space⟩ := stuck
  have task' : (lab.withTask index fun task => { task with dataPage := page }).tasks index
      = { lab.tasks index with dataPage := page } := Lab.withTask_self ..
  refine ⟨⟨confined.trans (.withTask lab index _), ?_, ?_⟩, exhausted, ?_, ?_⟩
  · rw [task', built]
    exact ⟨_, _, _, rfl⟩
  · rw [task']
    exact takes
  · rw [task']
    exact few
  · rw [task']
    exact space

/-- A writable page of the layout. -/
theorem Mapped.mapWritable_spec {image : List Byte} {index : TaskIndex} {start lab : Lab} {k : Nat}
    (mapped : Mapped image index start k lab) (sized : Sized image) (ready : start.machine.Ready)
    (writable : codePages image ≤ k) (inside : k < userPages image) {address : U64}
    (place : mappingAddress image k = address) (filled : lab.Filled image index k) (output : U64)
    : ∃ ok page lab',
        mapWritable index address output lab = .ok ((ok, page), lab')
        ∧ (ok = true
          → Mapped image index start (k + 1) lab'
            ∧ (lab'.tasks index).pages = (lab.tasks index).pages ++ [page]
            ∧ (lab'.tasks index).dataPage = (lab.tasks index).dataPage
            ∧ lab'.Filled image index (k + 1))
        ∧ (ok = false → Stuck image index start lab') := by
  have flags : layoutFlags image k = vmUser ||| vmWrite := by
    rw [layoutFlags, if_neg (not_lt.mpr writable)]
  rw [mapWritable, ← flags, ← place]
  obtain ⟨ok, page, lab', owned, success, failure⟩ :=
    mapped.mapOwned_spec sized ready inside filled output
  refine ⟨ok, page, lab', owned, fun done => ?_, failure⟩
  obtain ⟨next, pages, data, filled', clear⟩ := success done
  have empty := next.fillPage ready filled' pages clear
  rw [imagePage, if_neg (not_lt.mpr writable)] at empty
  exact ⟨next, pages, data, empty⟩

/-- The data page and the two stack pages complete the task. -/
theorem Mapped.prepareData_spec {image : List Byte} {index : TaskIndex} {start lab : Lab}
    (mapped : Mapped image index start (codePages image) lab) (sized : Sized image)
    (ready : start.machine.Ready) (filled : lab.Filled image index (codePages image))
    : ∃ ok lab',
        prepareData index lab = .ok (ok, lab')
        ∧ (ok = true
          → Mapped image index start (userPages image) lab'
            ∧ TaskFormed image lab'.machine (lab'.tasks index)
            ∧ lab'.Filled image index (userPages image))
        ∧ (ok = false → Stuck image index start lab') := by
  have dataPlace : mappingAddress image (codePages image) = userData := by
    rw [mappingAddress, if_neg (Nat.lt_irrefl _), if_pos rfl]
  have stackPlace (j : Nat)
      : mappingAddress image (codePages image + 1 + j)
        = userStack + BitVec.ofNat 64 (j * pageSize) := by
    rw [mappingAddress, if_neg (by omega), if_neg (by omega)]
    congr 3
    omega
  have lowPlace : mappingAddress image (codePages image + 1) = userStack := by
    rw [stackPlace 0, Nat.zero_mul]
    exact BitVec.add_zero _
  have highPlace : mappingAddress image (codePages image + 1 + 1)
      = userStack + BitVec.ofNat 64 pageSize := by
    rw [stackPlace 1, Nat.one_mul]
  have impossible {P : Prop} (wrong : false = true) : P := by cases wrong
  unfold prepareData
  rw [bind_get_apply]
  obtain ⟨ok, page, lab₁, result₁, success₁, failure₁⟩ :=
    mapped.mapWritable_spec sized ready (Nat.le_refl _) (by rw [userPages]; omega) dataPlace
      filled (lab.tasks index).dataPage
  rw [bind_ok result₁]
  dsimp only
  rw [bind_ok (modifyTask_apply ..)]
  cases ok with
  | false => exact ⟨false, _, rfl, impossible, fun _ => (failure₁ rfl).setDataPage page⟩
  | true =>
      obtain ⟨next₁, pages₁, _, filled₁⟩ := success₁ rfl
      have next₁ := next₁.setDataPage page
      have filled₁
          : (lab₁.withTask index fun task => { task with dataPage := page }).Filled image index
              (codePages image + 1) :=
        filled₁.congr (by rw [Lab.withTask_self]) rfl
      obtain ⟨ok, stack, lab₂, result₂, success₂, failure₂⟩ :=
        next₁.mapWritable_spec sized ready (Nat.le_succ _) (by rw [userPages]; omega) lowPlace
          filled₁ 0
      simp only [if_true]
      rw [bind_ok result₂]
      dsimp only
      cases ok with
      | false => exact ⟨false, _, rfl, impossible, fun _ => failure₂ rfl⟩
      | true =>
          obtain ⟨next₂, pages₂, data₂, filled₂⟩ := success₂ rfl
          obtain ⟨ok, last, lab₃, result₃, success₃, failure₃⟩ :=
            next₂.mapWritable_spec sized ready (by omega) (by rw [userPages]; omega) highPlace
              filled₂ stack
          simp only [if_true]
          rw [bind_ok result₃]
          refine ⟨ok, lab₃, rfl, fun done => ?_, failure₃⟩
          obtain ⟨next₃, pages₃, data₃, filled₃⟩ := success₃ done
          refine ⟨next₃, next₃.complete sized ?_, filled₃⟩
          rw [data₃, data₂, Lab.withTask_self, pages₃, pages₂, Lab.withTask_self, pages₁]
          simp only [List.append_assoc]
          rw [List.getElem?_append_right (Nat.le_of_eq mapped.count), mapped.count, Nat.sub_self]
          rfl

/-- What a prepared task has. -/
structure Prepared (image : List Byte) (index : TaskIndex) (start lab : Lab) : Prop where
  confined : start.ChangesTask lab index
  takes : start.machine.Takes lab.machine (lab.tasks index).owned []
  formed : TaskFormed image lab.machine (lab.tasks index)
  task
    : ∃ privateSpace pages dataPage,
        lab.tasks index
        = { start.tasks index with
            hasSpace := true, privateSpace, pages, dataPage,
            frame := some ⟨index, stackWords - frameWords⟩,
            stack := writeInitialFrame (start.tasks index).stack (stackWords - frameWords) }
  filled : lab.Filled image index (userPages image)

/-- `prepare` on a slot without frames either completes the task or leaves it stuck with what
it took.
-/
theorem prepare_spec {image : List Byte} {index : TaskIndex} {start : Lab} (sized : Sized image)
    (ready : start.machine.Ready) (noSpace : (start.tasks index).privateSpace = .zero)
    (noPages : (start.tasks index).pages = [])
    : ∃ ok lab',
        prepare image index start = .ok (ok, lab')
        ∧ (ok = true → Prepared image index start lab')
        ∧ (ok = false → Stuck image index start lab') := by
  have impossible {P : Prop} (wrong : false = true) : P := by cases wrong
  let opened : Lab := start.withTask index fun task => { task with hasSpace := true }
  have task : opened.tasks index = { start.tasks index with hasSpace := true } :=
    Lab.withTask_self ..
  have space : (opened.tasks index).space = some .zero := by
    rw [task, Task.space, if_pos rfl]
    exact congrArg some noSpace
  unfold prepare
  rw [bind_ok (modifyTask_apply ..)]
  by_cases exhausted : start.machine.pages.freeCount = 0
  · have created : vmCreate (opened.tasks index).space opened.machine
        = .ok ((false, some .zero), start.machine) := by
      rw [space]
      exact vmCreate_exhausted exhausted
    rw [bind_ok (onSpace_ok created)]
    refine ⟨false, _, rfl, impossible, fun _ => ⟨⟨?_, ?_, ?_⟩, exhausted, ?_, ?_⟩⟩
    · exact (Lab.ChangesTask.withTask start index _).trans
        ((Lab.ChangesTask.machine opened index start.machine).trans (.withTask _ index _))
    · rw [Lab.withTask_self, task]
      exact ⟨_, _, _, rfl⟩
    · rw [Lab.withTask_self, task, Task.owned, noPages]
      exact Machine.Takes.refl ready.toPagesWellFormed
    · rw [Lab.withTask_self, task, Task.owned, noPages, taskFrames]
      exact Nat.succ_pos _
    · rw [Lab.withTask_self]
      exact Or.inl rfl
  · obtain ⟨root, machine, result, takes, formed, empty, _⟩ := vmCreate_ok ready exhausted
    have created : vmCreate (opened.tasks index).space opened.machine
        = .ok ((true, some ⟨root, [root]⟩), machine) := by
      rw [space]
      exact result
    rw [bind_ok (onSpace_ok created)]
    simp only [if_true]
    have mapped : Mapped image index start 0
        (({ opened with machine := machine } : Lab).withTask index fun task =>
          { task with privateSpace := ⟨root, [root]⟩ }) := by
      refine ⟨⟨?_, ?_, ?_⟩, ⟨{[]}, ?_, ?_, ?_⟩, ?_, ?_⟩
      · exact (Lab.ChangesTask.withTask start index _).trans
          ((Lab.ChangesTask.machine opened index machine).trans (.withTask _ index _))
      · rw [Lab.withTask_self, task]
        exact ⟨_, _, _, rfl⟩
      · rw [Lab.withTask_self, task, Task.owned, noPages]
        exact takes
      · decide
      · rw [Lab.withTask_self]
        exact formed
      · intro j below
        exact absurd below (Nat.not_lt_zero j)
      · rw [Lab.withTask_self, task, noPages, layoutMap_nil]
        exact empty
      · rw [Lab.withTask_self, task, noPages]
        rfl
    obtain ⟨ok, lab₁, coded, success₁, failure₁⟩ :=
      mapped.prepareCode_spec sized ready (fun _ below => absurd below (Nat.not_lt_zero _))
        (codePages image) (Nat.zero_add _)
    rw [bind_ok coded]
    cases ok with
    | false => exact ⟨false, lab₁, rfl, impossible, fun _ => failure₁ rfl⟩
    | true =>
        obtain ⟨code, filled⟩ := success₁ rfl
        obtain ⟨ok, lab₂, data, success₂, failure₂⟩ := code.prepareData_spec sized ready filled
        simp only [if_true]
        rw [bind_ok data]
        cases ok with
        | false => exact ⟨false, lab₂, rfl, impossible, fun _ => failure₂ rfl⟩
        | true =>
            obtain ⟨whole, complete, filled'⟩ := success₂ rfl
            simp only [if_true]
            rw [bind_ok (modifyTask_apply ..)]
            refine ⟨true, _, rfl, fun _ => ⟨?_, ?_, ?_, ?_, ?_⟩, fun wrong => by cases wrong⟩
            · exact whole.confined.trans (.withTask lab₂ index _)
            · rw [Lab.withTask_self]
              exact whole.takes
            · rw [Lab.withTask_self]
              exact complete.congr ⟨rfl, rfl, rfl, rfl⟩
                (fun table owned => complete.tree.outstanding table owned)
                fun table _ slot _ => .refl _
            · obtain ⟨_, _, _, built⟩ := whole.task
              rw [Lab.withTask_self, built]
              exact ⟨_, _, _, rfl⟩
            · exact filled'.congr (by rw [Lab.withTask_self]) rfl

end MiniLinux
