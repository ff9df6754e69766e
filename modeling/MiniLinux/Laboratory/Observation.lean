import MiniLinux.Laboratory.Ownership

/-! The kernel's reports only add records to the trace.
The reports read page tables and the data page of every task, so that they neither panic nor
fault rests on the ownership of these frames.
-/

namespace MiniLinux

open Foundation Foundation.Halting

/-- The state with more records in the trace. -/
def Lab.traced (lab : Lab) (records : List TraceRecord) : Lab :=
  { lab with console := { lab.console with trace := lab.console.trace ++ records } }

/-- The program returns and only adds the records to the trace. -/
def Reports (program : LabM Unit) (records : List TraceRecord) (lab : Lab) : Prop :=
  program lab = .ok ((), lab.traced records)

@[simp] theorem Lab.traced_nil (lab : Lab) : lab.traced [] = lab := by
  simp [Lab.traced]

@[simp] theorem Lab.traced_traced (lab : Lab) (records more : List TraceRecord)
    : (lab.traced records).traced more = lab.traced (records ++ more) := by
  simp [Lab.traced]

theorem Reports.refl (lab : Lab) : Reports (pure ()) [] lab := by
  rw [Reports, Lab.traced_nil]
  rfl

theorem Reports.bind {first : LabM Unit} {next : Unit → LabM Unit} {lab : Lab}
    {records more : List TraceRecord} (reports : Reports first records lab)
    (later : Reports (next ()) more (lab.traced records))
    : Reports (first >>= next) (records ++ more) lab := by
  rw [Reports, bind_ok reports, ← Lab.traced_traced]
  exact later

theorem onMachine_ok {α : Type} {program : MachineM α} {lab : Lab} {value : α} {machine : Machine}
    (returns : program lab.machine = .ok (value, machine))
    : onMachine program lab = .ok (value, { lab with machine := machine }) :=
  onComponent_ok returns

@[simp] theorem modifyTask_apply (index : TaskIndex) (update : Task → Task) (lab : Lab)
    : modifyTask index update lab = .ok ((), lab.withTask index update) :=
  rfl

-----------------------------------------------------------------------------------------
-- The records
-----------------------------------------------------------------------------------------

namespace Lab

/-- The record of `process_event`. -/
def processRecord (lab : Lab) (index : TaskIndex) : TraceRecord :=
  let task := lab.tasks index
  ⟨"process", lab.ticks,
    [.number (wide task.id), .number (wide task.parent), .number task.program.number,
      .number task.state.number, .hex task.root, .number (wide task.slices),
      .number (if index = lab.current ∧ task.state = .ready then 1 else 0)]⟩

/-- The record of `memory_event`. -/
def memoryRecord (lab : Lab) : TraceRecord :=
  ⟨"memory", lab.ticks,
    [.number lab.machine.pageInfo.frameCount, .number lab.machine.pageInfo.freeCount]⟩

/-- The record of one page of a task. -/
def mapRecord (image : List Byte) (lab : Lab) (index : TaskIndex) (k : Nat) : TraceRecord :=
  let task := lab.tasks index
  let found := lab.machine.vmLookup task.space (mappingAddress image k) 0 0
  ⟨"map", lab.ticks,
    [.number (wide task.id), .hex (mappingAddress image k), .hex found.2.1,
      .number (wide found.2.2), .text (mappingKind image k)]⟩

/-- The record of the data word of a task. -/
def dataRecord (lab : Lab) (index : TaskIndex) : TraceRecord :=
  let task := lab.tasks index
  ⟨"data", lab.ticks,
    [.number (wide task.id), .hex userData, .hex task.dataPage,
      .hex (lab.machine.memory.word task.dataPage.toNat)]⟩

/-- The records of `mappings_event`. -/
def mappingRecords (image : List Byte) (lab : Lab) (index : TaskIndex) : List TraceRecord :=
  if (lab.tasks index).root = 0 then []
  else
    (List.range (userPages image)).map (lab.mapRecord image index) ++ [lab.dataRecord index]

/-- What `inspect` reports of a slot. -/
def slotRecords (image : List Byte) (lab : Lab) (index : TaskIndex) : List TraceRecord :=
  if (lab.tasks index).state = .unused then []
  else lab.processRecord index :: lab.mappingRecords image index

/-- The records of `inspect`. -/
def inspectRecords (image : List Byte) (lab : Lab) : List TraceRecord :=
  ⟨"snapshot", lab.ticks, []⟩ :: (List.finRange 8).flatMap (lab.slotRecords image)
    ++ [lab.memoryRecord, ⟨"snapshot-end", lab.ticks, []⟩]

end Lab

theorem event_reports (kind : String) (fields : List TraceField) (lab : Lab)
    : Reports (event kind fields) [⟨kind, lab.ticks, fields⟩] lab :=
  rfl

theorem processEvent_reports (index : TaskIndex) (lab : Lab)
    : Reports (processEvent index) [lab.processRecord index] lab :=
  rfl

theorem memoryEvent_reports (lab : Lab) : Reports memoryEvent [lab.memoryRecord] lab := rfl

/-- `page_data` of an allocated frame is a pointer to it. -/
theorem derefPage_ok (lab : Lab) (ready : lab.machine.Ready) {physical : U64}
    (outstanding : lab.machine.Outstanding physical)
    : derefPage physical lab = .ok (physical.toNat, lab) := by
  have data := ready.pageData_eq physical
  rw [if_pos outstanding] at data
  rw [derefPage, bind_ok (onMachine_ok data)]
  simp only [bind_get_apply, directMap_add, pure_apply]

/-- Every page that can be looked up is reported, by induction on the pages left. -/
theorem mapEvents_reports {image : List Byte} {index : TaskIndex} {lab : Lab} (i count : Nat)
    (found
      : ∀ k,
          i ≤ k
          → k < i + count
          → (lab.machine.vmLookup (lab.tasks index).space (mappingAddress image k) 0 0).1 = true)
    : Reports (mapEvents image index i count)
        ((List.range' i count).map (lab.mapRecord image index)) lab := by
  induction count generalizing i lab with
  | zero => exact .refl lab
  | succ count ih =>
      have here := found i (Nat.le_refl _) (by omega)
      have report : Reports
          (event "map" (lab.mapRecord image index i).fields >>= fun _ =>
            mapEvents image index (i + 1) count)
          ([lab.mapRecord image index i]
            ++ (List.range' (i + 1) count).map (lab.mapRecord image index)) lab :=
        (event_reports "map" _ lab).bind
          (ih (i + 1) fun k low high => found k (by omega) (by omega))
      unfold mapEvents
      rw [Reports, bind_get_apply, List.range'_succ]
      simp only [here, if_true]
      exact report

theorem Partition.traced {image : List Byte} {owner : TaskIndex → Prop} {lab : Lab}
    (partition : Partition image owner lab) (records : List TraceRecord)
    : Partition image owner (lab.traced records) :=
  partition.tasks rfl fun _ => .refl _

/-- The pages of a formed task are all reported. -/
theorem TaskFormed.mappingsEvent_reports {image : List Byte} (lab : Lab) {index : TaskIndex}
    (formed : TaskFormed image lab.machine (lab.tasks index)) (sized : Sized image)
    (ready : lab.machine.Ready) (outstanding : lab.machine.Outstanding (lab.tasks index).dataPage)
    : Reports (mappingsEvent image index) (lab.mappingRecords image index) lab := by
  have live : (lab.tasks index).root ≠ 0 := by
    rw [formed.root]
    exact formed.tree.root_ne_zero ready
  have maps : Reports (mapEvents image index 0 (userPages image))
      ((List.range (userPages image)).map (lab.mapRecord image index)) lab := by
    rw [List.range_eq_range']
    apply mapEvents_reports
    intro k _ inside
    obtain ⟨frame, _, found⟩ := formed.lookup ready sized (k := k) (by omega)
    rw [found]
  have data : derefPage (lab.tasks index).dataPage
        (lab.traced ((List.range (userPages image)).map (lab.mapRecord image index)))
      = .ok ((lab.tasks index).dataPage.toNat, _) :=
    derefPage_ok (lab.traced _) ready outstanding
  unfold mappingsEvent Lab.mappingRecords
  rw [Reports, bind_get_apply]
  simp only [if_neg live]
  rw [userPages] at maps data ⊢
  rw [bind_ok maps, bind_ok data, ← Lab.traced_traced]
  exact event_reports _ _ _

/-- Under the division of frames every slot can be reported. -/
theorem Partition.mappingsEvent_reports {image : List Byte} {owner : TaskIndex → Prop} {lab : Lab}
    (partition : Partition image owner lab) (sized : Sized image) (index : TaskIndex)
    : Reports (mappingsEvent image index) (lab.mappingRecords image index) lab := by
  by_cases owns : owner index
  · have formed := partition.formed index owns
    exact formed.mappingsEvent_reports lab sized partition.ready
      (partition.page_outstanding formed.data_mem)
  · have idle : (lab.tasks index).root = 0 := by
      rw [Task.root, Task.space, (partition.empty index owns).1]
      split <;> rfl
    unfold mappingsEvent Lab.mappingRecords
    rw [Reports, bind_get_apply]
    simp only [if_pos idle]
    exact Reports.refl lab

theorem Partition.inspectTasks_reports {image : List Byte} {owner : TaskIndex → Prop} {lab : Lab}
    (partition : Partition image owner lab) (sized : Sized image) (slots : List TaskIndex)
    : Reports (inspectTasks image slots) (slots.flatMap (lab.slotRecords image)) lab := by
  induction slots generalizing lab with
  | nil => exact .refl lab
  | cons index rest ih =>
      have reported : Reports
          (processEvent index >>= fun _ => mappingsEvent image index >>= fun _ =>
            inspectTasks image rest)
          ([lab.processRecord index] ++ (lab.mappingRecords image index
            ++ rest.flatMap (lab.slotRecords image))) lab :=
        (processEvent_reports index lab).bind
          (((partition.traced _).mappingsEvent_reports sized index).bind
            (ih ((partition.traced _).traced _)))
      unfold inspectTasks
      rw [Reports, bind_get_apply, List.flatMap_cons, Lab.slotRecords]
      by_cases unused : (lab.tasks index).state = .unused
      · simp only [if_pos unused]
        exact ih partition
      · simp only [if_neg unused]
        exact reported

/-- `inspect` changes nothing but the trace. -/
theorem Partition.inspect_reports {image : List Byte} {owner : TaskIndex → Prop} {lab : Lab}
    (partition : Partition image owner lab) (sized : Sized image)
    : Reports (inspect image) (lab.inspectRecords image) lab := by
  have reported : Reports (inspect image)
      ([⟨"snapshot", lab.ticks, []⟩] ++ ((List.finRange 8).flatMap (lab.slotRecords image)
        ++ ([lab.memoryRecord] ++ [⟨"snapshot-end", lab.ticks, []⟩]))) lab :=
    (event_reports _ _ lab).bind
      (((partition.traced _).inspectTasks_reports sized _).bind
        ((memoryEvent_reports _).bind (event_reports _ _ _)))
  exact reported

end MiniLinux
