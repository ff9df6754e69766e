import MiniLinux.Foundation.Partition
import MiniLinux.Laboratory.Layout
import MiniLinux.Memory.UserMapping
import MiniLinux.Memory.VmCalls

/-! Which task owns which frame.
The allocated frames are divided among the slots: each owner holds the tables of its space
and the pages that its map reaches. Kernel work that leaves the ownership fields of the tasks
and the table entries alone keeps the division.
-/

namespace MiniLinux

open Foundation

/-- The frames that a task records, tables first. -/
def Task.owned (task : Task) : List U64 := task.privateSpace.tables ++ task.pages

/-- The tasks agree on what they own. -/
structure Task.SameHoldings (task task' : Task) : Prop where
  hasSpace : task'.hasSpace = task.hasSpace
  privateSpace : task'.privateSpace = task.privateSpace
  pages : task'.pages = task.pages
  dataPage : task'.dataPage = task.dataPage

/-- A complete address space in the layout, with the recorded pages behind it. -/
structure TaskFormed (image : List Byte) (machine : Machine) (task : Task) : Prop where
  hasSpace : task.hasSpace = true
  tree : machine.SpaceFormed task.privateSpace layoutPaths
  mapping : machine.mapping task.privateSpace.root = layoutMap image task.pages
  count : task.pages.length = userPages image
  data : task.pages[codePages image]? = some task.dataPage

/-- The allocated frames are divided among the owners, and the other slots hold nothing. -/
structure Partition (image : List Byte) (owner : TaskIndex → Prop) (lab : Lab) : Prop where
  ready : lab.machine.Ready
  divided : Partitioned lab.machine.Outstanding fun index => (lab.tasks index).owned
  formed : ∀ index, owner index → TaskFormed image lab.machine (lab.tasks index)
  empty
    : ∀ index,
        ¬owner index
        → (lab.tasks index).privateSpace = .zero ∧ (lab.tasks index).pages = []

theorem Task.SameHoldings.refl (task : Task) : task.SameHoldings task := ⟨rfl, rfl, rfl, rfl⟩

theorem Task.SameHoldings.trans {task task' task'' : Task} (first : task.SameHoldings task')
    (second : task'.SameHoldings task'')
    : task.SameHoldings task'' :=
  ⟨second.hasSpace.trans first.hasSpace, second.privateSpace.trans first.privateSpace,
    second.pages.trans first.pages, second.dataPage.trans first.dataPage⟩

theorem Task.SameHoldings.owned {task task' : Task} (same : task.SameHoldings task')
    : task'.owned = task.owned := by
  rw [Task.owned, same.privateSpace, same.pages, Task.owned]

/-- Only the last-level entries and the tree decide what a task has. -/
theorem TaskFormed.congr {image : List Byte} {machine machine' : Machine} {task task' : Task}
    (formed : TaskFormed image machine task) (same : task.SameHoldings task')
    (outstanding : ∀ table ∈ task.privateSpace.tables, machine'.Outstanding table)
    (entries
      : ∀ table ∈ task.privateSpace.tables, ∀ index < 512,
          SameEntry (machine'.entry table index) (machine.entry table index))
    : TaskFormed image machine' task' := by
  constructor
  · rw [same.hasSpace]
    exact formed.hasSpace
  · rw [same.privateSpace]
    exact formed.tree.congr outstanding entries
  · rw [same.privateSpace, same.pages, formed.tree.mapping_congr entries]
    exact formed.mapping
  · rw [same.pages]
    exact formed.count
  · rw [same.pages, same.dataPage]
    exact formed.data

namespace TaskFormed

variable {image : List Byte} {machine : Machine} {task : Task}

theorem space (formed : TaskFormed image machine task) : task.space = some task.privateSpace := by
  rw [Task.space, if_pos formed.hasSpace]

theorem root (formed : TaskFormed image machine task) : task.root = task.privateSpace.root := by
  rw [Task.root, formed.space]
  rfl

/-- The pages of the layout are all there. -/
theorem lookup (formed : TaskFormed image machine task) (ready : machine.Ready)
    (sized : Sized image) {k : Nat} (inside : k < userPages image)
    : ∃ frame ∈ task.pages,
        machine.vmLookup task.space (mappingAddress image k) 0 0
        = (true, frame, layoutFlags image k) := by
  have bound : k < task.pages.length := by
    rw [formed.count]
    exact inside
  refine ⟨task.pages[k], List.getElem_mem bound, ?_⟩
  rw [formed.space, formed.tree.vmLookup_eq ready, mappingAddress_page sized inside,
    formed.mapping, layoutMap, layoutIndex_layoutPage sized inside, Option.bind_some,
    List.getElem?_eq_getElem bound]
  simp only [Option.map_some, lookupReply, mappingAddress_aligned sized inside,
    BitVec.add_zero]

theorem data_mem (formed : TaskFormed image machine task) : task.dataPage ∈ task.pages :=
  List.mem_of_getElem? formed.data

end TaskFormed

namespace Partition

variable {image : List Byte} {owner : TaskIndex → Prop} {lab lab' : Lab}

theorem owned_outstanding (partition : Partition image owner lab) {index : TaskIndex}
    {address : U64} (member : address ∈ (lab.tasks index).owned)
    : lab.machine.Outstanding address :=
  (partition.divided.accounted address).mpr ⟨index, member⟩

theorem page_outstanding (partition : Partition image owner lab) {index : TaskIndex} {page : U64}
    (member : page ∈ (lab.tasks index).pages)
    : lab.machine.Outstanding page :=
  partition.owned_outstanding (List.mem_append_right _ member)

theorem table_outstanding (partition : Partition image owner lab) {index : TaskIndex} {table : U64}
    (member : table ∈ (lab.tasks index).privateSpace.tables)
    : lab.machine.Outstanding table :=
  partition.owned_outstanding (List.mem_append_left _ member)

/-- No page of any task is a table of any task. -/
theorem page_not_table (partition : Partition image owner lab) {index other : TaskIndex}
    {frame : U64} (page : frame ∈ (lab.tasks index).pages)
    : frame ∉ (lab.tasks other).privateSpace.tables := by
  intro table
  have same := partition.divided.apart index other frame (List.mem_append_right _ page)
    (List.mem_append_left _ table)
  subst same
  have distinct := List.nodup_append.mp (partition.divided.distinct index)
  exact distinct.2.2 frame table frame page rfl

/-- Work that keeps what the owners have, the allocated frames and the table entries. -/
theorem rework (partition : Partition image owner lab)
    (same : ∀ index, owner index → (lab.tasks index).SameHoldings (lab'.tasks index))
    (empty
      : ∀ index,
          ¬owner index → (lab'.tasks index).privateSpace = .zero ∧ (lab'.tasks index).pages = [])
    (ready : lab'.machine.Ready)
    (outstanding : ∀ address, lab'.machine.Outstanding address ↔ lab.machine.Outstanding address)
    (entries
      : ∀ index, ∀ table ∈ (lab.tasks index).privateSpace.tables, ∀ slot < 512,
          SameEntry (lab'.machine.entry table slot) (lab.machine.entry table slot))
    : Partition image owner lab' := by
  refine ⟨ready, partition.divided.congr outstanding ?_, ?_, empty⟩
  · intro index
    by_cases owns : owner index
    · exact (same index owns).owned
    · obtain ⟨space, pages⟩ := partition.empty index owns
      obtain ⟨space', pages'⟩ := empty index owns
      rw [Task.owned, Task.owned, space, pages, space', pages']
  · intro index owns
    refine (partition.formed index owns).congr (same index owns) ?_ (entries index)
    intro table member
    exact (outstanding table).mpr (partition.table_outstanding member)

/-- Work that keeps what the tasks own, the allocated frames and the table entries. -/
theorem congr (partition : Partition image owner lab)
    (same : ∀ index, (lab.tasks index).SameHoldings (lab'.tasks index))
    (ready : lab'.machine.Ready)
    (outstanding : ∀ address, lab'.machine.Outstanding address ↔ lab.machine.Outstanding address)
    (entries
      : ∀ index, ∀ table ∈ (lab.tasks index).privateSpace.tables, ∀ slot < 512,
          SameEntry (lab'.machine.entry table slot) (lab.machine.entry table slot))
    : Partition image owner lab' := by
  refine partition.rework (fun index _ => same index) ?_ ready outstanding entries
  intro index idle
  rw [(same index).privateSpace, (same index).pages]
  exact partition.empty index idle

/-- Work that only changes other fields of the tasks. -/
theorem tasks (partition : Partition image owner lab) (machine : lab'.machine = lab.machine)
    (same : ∀ index, (lab.tasks index).SameHoldings (lab'.tasks index))
    : Partition image owner lab' := by
  refine partition.congr same ?_ ?_ ?_
  · rw [machine]
    exact partition.ready
  · intro address
    rw [machine]
  · intro index table _ slot _
    rw [machine]
    exact .refl _

/-- Stores into pages of tasks change no table and no state byte. -/
theorem write (partition : Partition image owner lab) {written : List U64} {memory : Memory}
    (machine : lab'.machine = { lab.machine with memory := memory })
    (tasks : lab'.tasks = lab.tasks)
    (pages : ∀ page ∈ written, ∃ index, page ∈ (lab.tasks index).pages)
    (outside : ∀ byte, ¬InFrames written byte → memory byte = lab.machine.memory byte)
    : Partition image owner lab' := by
  have ready := partition.ready
  have outstanding : ∀ page ∈ written, lab.machine.Outstanding page := by
    intro page member
    obtain ⟨index, member⟩ := pages page member
    exact partition.page_outstanding member
  have takes : lab.machine.Takes lab'.machine [] written := by
    rw [machine]
    exact .write ready.toPagesWellFormed (fun page member => (outstanding page member).2) outside
  refine partition.congr (fun index => ?_) (takes.ready ready) ?_ ?_
  · rw [tasks]
    exact .refl _
  · intro address
    rw [takes.outstanding_iff]
    simp
  · intro index table member slot inside
    rw [takes.entry ready (partition.table_outstanding member) ?_ ?_ inside]
    · exact .refl _
    · intro both
      obtain ⟨other, page⟩ := pages table both
      exact partition.page_not_table page member
    · exact fun page member => ready.frameAddress (outstanding page member)

/-- A slot without frames becomes an owner by what it took. -/
theorem grant (partition : Partition image owner lab) {index : TaskIndex} (idle : ¬owner index)
    (takes : lab.machine.Takes lab'.machine (lab'.tasks index).owned [])
    (others : ∀ other, other ≠ index → (lab.tasks other).SameHoldings (lab'.tasks other))
    (formed : TaskFormed image lab'.machine (lab'.tasks index))
    : Partition image (fun other => other = index ∨ owner other) lab' := by
  have ready := partition.ready
  have nothing : (lab.tasks index).owned = [] := by
    obtain ⟨space, pages⟩ := partition.empty index idle
    rw [Task.owned, space, pages]
    rfl
  refine ⟨takes.ready ready, ?_, ?_, ?_⟩
  · apply partition.divided.grant nothing (fun other different => (others other different).owned)
      takes.distinct
    · intro address member outstanding
      exact (takes.free address member).2.not_allocated outstanding.2
    · exact takes.outstanding_iff
  · intro other owns
    by_cases same : other = index
    · exact same ▸ formed
    · have owns := owns.resolve_left same
      refine (partition.formed other owns).congr (others other same) ?_ ?_
      · intro table member
        exact takes.outstanding (partition.table_outstanding member)
      · intro table member slot inside
        rw [takes.entry ready (partition.table_outstanding member) List.not_mem_nil (by simp)
          inside]
        exact .refl _
  · intro other free
    obtain ⟨different, free⟩ := not_or.mp free
    rw [(others other different).privateSpace, (others other different).pages]
    exact partition.empty other free

/-- An owner gives everything back. -/
theorem revoke (partition : Partition image owner lab) {index : TaskIndex}
    (returns : lab.machine.Returns lab'.machine (lab.tasks index).owned)
    (others : ∀ other, other ≠ index → (lab.tasks other).SameHoldings (lab'.tasks other))
    (nothing : (lab'.tasks index).privateSpace = .zero ∧ (lab'.tasks index).pages = [])
    : Partition image (fun other => other ≠ index ∧ owner other) lab' := by
  have ready := partition.ready
  have aligned : ∀ address ∈ (lab.tasks index).owned, address.toNat % pageSize = 0 :=
    fun address member => (partition.owned_outstanding member).1
  have remaining := returns.outstanding_iff aligned
  have idle : (lab'.tasks index).owned = [] := by
    rw [Task.owned, nothing.1, nothing.2]
    rfl
  refine ⟨returns.ready ready, ?_, ?_, ?_⟩
  · exact partition.divided.revoke idle (fun other different => (others other different).owned)
      remaining
  · intro other owns
    obtain ⟨different, owns⟩ := owns
    refine (partition.formed other owns).congr (others other different) ?_ ?_
    · intro table member
      refine (remaining table).mpr ⟨partition.table_outstanding member, fun mine => different ?_⟩
      exact partition.divided.apart other index table (List.mem_append_left _ member) mine
    · intro table member slot inside
      rw [returns.entry ready (partition.table_outstanding member) inside]
      exact .refl _
  · intro other free
    by_cases same : other = index
    · exact same ▸ nothing
    · rw [(others other same).privateSpace, (others other same).pages]
      exact partition.empty other fun owns => free ⟨same, owns⟩

end Partition

end MiniLinux
