import MiniLinux.Laboratory.ExitStatus
import MiniLinux.Observer.Mirror

/-! The guest's mirror along a run of the kernel, and what it shows at an `inspect`. -/

namespace MiniLinux

open Foundation Foundation.Halting

/-- The mirror knows the pages of each of some processes, and has no entry of another. -/
structure Mirror.Covers (pids : Set Int) (addresses : Set Text) (mirror : Mirror) : Prop where
  within : mirror.Within pids addresses
  known : ∀ pid ∈ pids, mirror.maps pid ≠ none

section Covers

variable {mirror : Mirror} {pids pids' : Set Int} {addresses : Set Text}
  {records : List TraceRecord}

theorem Telling.About.ne_gone {telling : Telling} (about : telling.About pids addresses) (pid : Int)
    : telling ≠ .gone pid := by
  rintro rfl
  exact about

/-- Records about known processes, and about new ones whose pages are told. -/
theorem Mirror.Covers.tellAll (covers : mirror.Covers pids addresses) (more : pids ⊆ pids')
    (about : ∀ record ∈ records, record.telling.About pids' addresses)
    (new
      : ∀ pid ∈ pids',
          pid ∈ pids ∨ ∃ record ∈ records, ∃ view, record.telling = .map pid view)
    : (mirror.tellAll records).Covers pids' addresses := by
  refine ⟨(covers.within.mono more).tellAll about, ?_⟩
  intro pid member
  refine tellAll_maps (fun record member => (about record member).ne_gone pid) ?_
  exact (new pid member).imp_left (covers.known pid)

/-- Records about known processes only. -/
theorem Mirror.Covers.tellKnown (covers : mirror.Covers pids addresses)
    (about : ∀ record ∈ records, record.telling.About pids addresses)
    : (mirror.tellAll records).Covers pids addresses :=
  covers.tellAll subset_rfl about fun _ member => Or.inl member

theorem Mirror.Covers.gone (covers : mirror.Covers pids addresses) (pid : Int)
    : (mirror.tell (.gone pid)).Covers {other | other ∈ pids ∧ other ≠ pid} addresses := by
  refine ⟨covers.within.gone pid, ?_⟩
  rintro other ⟨member, different⟩
  exact tell_maps (covers.known other member) fun same => different (by cases same; rfl)

end Covers

-----------------------------------------------------------------------------------------
-- What the kernel's records tell
-----------------------------------------------------------------------------------------

namespace Lab

/-- The number of the task in a slot, as the host reads it. -/
def pid (lab : Lab) (index : TaskIndex) : Int := (lab.tasks index).id.toNat

/-- The numbers of the tasks. -/
def pids (lab : Lab) : Set Int :=
  {pid | ∃ index, (lab.tasks index).state ≠ .unused ∧ pid = lab.pid index}

/-- What the host should show of a task. -/
def processView (lab : Lab) (index : TaskIndex) : ProcessView where
  pid := lab.pid index
  parent := (lab.tasks index).parent.toNat
  program := (lab.tasks index).program.name
  state := (lab.tasks index).state.name
  root := (TraceField.hex (lab.tasks index).root).written
  slices := (lab.tasks index).slices.toNat
  current := decide (index = lab.current ∧ (lab.tasks index).state = .ready)

/-- What `mappings_event` reports of a page. -/
def mapView (image : List Byte) (lab : Lab) (index : TaskIndex) (k : Nat) : MapView :=
  let found := lab.machine.vmLookup (lab.tasks index).space (mappingAddress image k) 0 0
  { va := (TraceField.hex (mappingAddress image k)).written
    pa := (TraceField.hex found.2.1).written
    flags := found.2.2.toNat
    name := (mappingKind image k).toList }

/-- What `mappings_event` reports of the data word. -/
def dataView (lab : Lab) (index : TaskIndex) : DataView where
  va := (TraceField.hex userData).written
  pa := (TraceField.hex (lab.tasks index).dataPage).written
  marker := (TraceField.hex (lab.machine.memory.word (lab.tasks index).dataPage.toNat)).written

end Lab

/-- A record before the end of a report, with entries of some processes and addresses only. -/
def TraceRecord.About (pids : Set Int) (addresses : Set Text) (record : TraceRecord) : Prop :=
  record.kind ≠ "snapshot-end" ∧ record.telling.About pids addresses

/-- The addresses of the layout, as the host reads them. -/
def layoutTexts (image : List Byte) : Set Text :=
  {va | ∃ k < userPages image, va = (TraceField.hex (mappingAddress image k)).written}

section Tellings

variable {image : List Byte} {lab lab' : Lab} {index : TaskIndex}

theorem wide_toNat (value : U32) : (wide value).toNat = value.toNat := by
  have bound := value.isLt
  rw [wide, BitVec.toNat_setWidth]
  exact Nat.mod_eq_of_lt (by omega)

theorem Lab.processRecord_telling (lab : Lab) (index : TaskIndex)
    : (lab.processRecord index).telling
      = if (lab.tasks index).state = .unused then .gone (lab.pid index)
        else .process (lab.processView index) := by
  have unused : (lab.tasks index).state.number = 0 ↔ (lab.tasks index).state = .unused := by
    cases (lab.tasks index).state <;> decide
  have marked (condition : Prop) [Decidable condition]
      : decide ((if condition then (1 : U64) else 0) = 1) = decide condition := by
    by_cases holds : condition <;> simp [holds]
  simp only [Lab.processRecord, TraceRecord.telling, wide_toNat, unused, marked]
  rfl

theorem Lab.mapRecord_telling (lab : Lab) (index : TaskIndex) (k : Nat)
    : (lab.mapRecord image index k).telling = .map (lab.pid index) (lab.mapView image index k) := by
  simp only [Lab.mapRecord, TraceRecord.telling, wide_toNat]
  rfl

theorem Lab.dataRecord_telling (lab : Lab) (index : TaskIndex)
    : (lab.dataRecord index).telling = .data (lab.pid index) (lab.dataView index) := by
  simp only [Lab.dataRecord, TraceRecord.telling, wide_toNat]
  rfl

/-- Reports of a used slot, a known page, the data word or the counters. -/
theorem Lab.processRecord_about (used : (lab.tasks index).state ≠ .unused) {pids : Set Int}
    (member : lab.pid index ∈ pids) (addresses : Set Text)
    : (lab.processRecord index).About pids addresses := by
  refine ⟨show "process" ≠ "snapshot-end" by decide, ?_⟩
  rw [Lab.processRecord_telling, if_neg used]
  exact member

theorem Lab.mappingRecords_about {pids : Set Int} (member : lab.pid index ∈ pids)
    : ∀ record ∈ lab.mappingRecords image index, record.About pids (layoutTexts image) := by
  intro record found
  unfold Lab.mappingRecords at found
  split at found
  · cases found
  · rcases List.mem_append.mp found with page | data
    · obtain ⟨k, inside, rfl⟩ := List.mem_map.mp page
      refine ⟨show "map" ≠ "snapshot-end" by decide, ?_⟩
      rw [Lab.mapRecord_telling]
      exact ⟨member, k, List.mem_range.mp inside, rfl⟩
    · rw [List.mem_singleton.mp data]
      refine ⟨show "data" ≠ "snapshot-end" by decide, ?_⟩
      rw [Lab.dataRecord_telling]
      exact member

theorem Lab.mem_pids (used : (lab.tasks index).state ≠ .unused) : lab.pid index ∈ lab.pids :=
  ⟨index, used, rfl⟩

/-- The same slots are in use, under the same numbers. -/
def Lab.SameNames (lab lab' : Lab) : Prop :=
  ∀ index,
    ((lab'.tasks index).state ≠ .unused ↔ (lab.tasks index).state ≠ .unused)
    ∧ ((lab.tasks index).state ≠ .unused → lab'.pid index = lab.pid index)

/-- No two tasks have one number. -/
def Lab.Distinct (lab : Lab) : Prop :=
  ∀ index other,
    (lab.tasks index).state ≠ .unused
    → (lab.tasks other).state ≠ .unused
    → lab.pid index = lab.pid other
    → index = other

theorem Lab.SameNames.pids (same : lab.SameNames lab') : lab'.pids = lab.pids := by
  ext pid
  constructor
  · rintro ⟨index, used, rfl⟩
    have before := (same index).1.mp used
    exact ⟨index, before, (same index).2 before⟩
  · rintro ⟨index, used, rfl⟩
    exact ⟨index, (same index).1.mpr used, ((same index).2 used).symm⟩

theorem Lab.SameNames.trans {middle : Lab} (first : lab.SameNames middle)
    (second : middle.SameNames lab')
    : lab.SameNames lab' := by
  intro index
  refine ⟨(second index).1.trans (first index).1, fun used => ?_⟩
  rw [(second index).2 ((first index).1.mpr used), (first index).2 used]

theorem Lab.SameNames.distinct (same : lab.SameNames lab') (distinct : lab.Distinct)
    : lab'.Distinct := by
  intro index other used used' named
  have before := (same index).1.mp used
  have before' := (same other).1.mp used'
  rw [(same index).2 before, (same other).2 before'] at named
  exact distinct index other before before' named

/-- The slots keep their states, as far as they are in use, and their numbers. -/
theorem Lab.SameNames.of_slots
    (slots
      : ∀ index,
          ((lab'.tasks index).state ≠ .unused ↔ (lab.tasks index).state ≠ .unused)
          ∧ (lab'.tasks index).id = (lab.tasks index).id)
    : lab.SameNames lab' :=
  fun index => ⟨(slots index).1, fun _ =>
    congrArg (fun id : U32 => (id.toNat : Int)) (slots index).2⟩

theorem Lab.SameNames.of_table (slots : lab'.table.slots = lab.table.slots)
    : lab.SameNames lab' := by
  refine .of_slots fun index => ?_
  have slot : (lab'.tasks index).process = (lab.tasks index).process := congrFun slots index
  have state : (lab'.tasks index).state = (lab.tasks index).state := congrArg Process.state slot
  exact ⟨by rw [state], congrArg Process.id slot⟩

theorem Lab.SameNames.withTask {update : Task → Task} {index : TaskIndex}
    (used : (update (lab.tasks index)).state ≠ .unused ↔ (lab.tasks index).state ≠ .unused)
    (named : (update (lab.tasks index)).id = (lab.tasks index).id)
    : lab.SameNames (lab.withTask index update) :=
  .of_slots (Lab.withTask_forall
    (fun _ task task' => (task'.state ≠ .unused ↔ task.state ≠ .unused) ∧ task'.id = task.id)
    update ⟨used, named⟩ fun _ _ => ⟨Iff.rfl, rfl⟩)

end Tellings

/-- The records of `inspect` without the last. -/
def Lab.reportRecords (image : List Byte) (lab : Lab) : List TraceRecord :=
  ⟨"snapshot", lab.ticks, []⟩ :: (List.finRange 8).flatMap (lab.slotRecords image)
    ++ [lab.memoryRecord]

-----------------------------------------------------------------------------------------
-- One run of the kernel
-----------------------------------------------------------------------------------------

/-- What was traced on the way keeps the mirror to the tasks. -/
def Lab.Tells (image : List Byte) (lab lab' : Lab) : Prop :=
  ∃ records,
    lab'.console.trace = lab.console.trace ++ records
    ∧ (∀ record ∈ records, record.kind ≠ "snapshot-end")
    ∧ ∀ mirror : Mirror,
        mirror.Covers lab.pids (layoutTexts image)
        → (mirror.tellAll records).Covers lab'.pids (layoutTexts image)

section Tells

variable {image : List Byte} {lab middle lab' : Lab}

theorem Lab.Tells.trans (first : lab.Tells image middle) (second : middle.Tells image lab')
    : lab.Tells image lab' := by
  obtain ⟨records, grew, inner, covers⟩ := first
  obtain ⟨more, grew', inner', covers'⟩ := second
  refine ⟨records ++ more, by rw [grew', grew, List.append_assoc], ?_, fun mirror covered => ?_⟩
  · intro record member
    rcases List.mem_append.mp member with member | member
    · exact inner record member
    · exact inner' record member
  · rw [Mirror.tellAll_append]
    exact covers' _ (covers mirror covered)

/-- Records about the tasks, which stay the same. -/
theorem Lab.SameNames.tells {records : List TraceRecord} (same : lab.SameNames lab')
    (grew : lab'.console.trace = lab.console.trace ++ records)
    (about : ∀ record ∈ records, record.About lab.pids (layoutTexts image))
    : lab.Tells image lab' := by
  refine ⟨records, grew, fun record member => (about record member).1, fun mirror covers => ?_⟩
  rw [same.pids]
  exact covers.tellKnown fun record member => (about record member).2

/-- Nothing was traced. -/
theorem Lab.SameNames.tells_nothing (same : lab.SameNames lab')
    (grew : lab'.console.trace = lab.console.trace)
    : lab.Tells image lab' :=
  same.tells (grew.trans (List.append_nil _).symm) fun _ impossible => by cases impossible

/-- One task is told as gone. -/
theorem Lab.tells_gone {index : TaskIndex} {more : List TraceRecord} (distinct : lab.Distinct)
    (used : (lab.tasks index).state ≠ .unused)
    (others : ∀ other, other ≠ index → lab'.tasks other = lab.tasks other)
    (gone : (lab'.tasks index).state = .unused)
    (named : lab'.pid index = lab.pid index)
    (grew : lab'.console.trace = lab.console.trace ++ lab'.processRecord index :: more)
    (about : ∀ record ∈ more, record.About lab'.pids (layoutTexts image))
    : lab.Tells image lab' := by
  have told : (lab'.processRecord index).telling = .gone (lab.pid index) := by
    rw [Lab.processRecord_telling, if_pos gone, named]
  have left : lab'.pids = {pid | pid ∈ lab.pids ∧ pid ≠ lab.pid index} := by
    ext pid
    constructor
    · rintro ⟨slot, used', rfl⟩
      have different : slot ≠ index := fun same => used' (same ▸ gone)
      have same : lab'.pid slot = lab.pid slot := by rw [Lab.pid, others slot different, Lab.pid]
      rw [others slot different] at used'
      exact same ▸ ⟨⟨slot, used', rfl⟩, fun named => different (distinct slot index used' used named)⟩
    · rintro ⟨⟨slot, used', rfl⟩, different⟩
      have apart : slot ≠ index := fun same => different (same ▸ rfl)
      exact ⟨slot, others slot apart ▸ used', by rw [Lab.pid, Lab.pid, others slot apart]⟩
  refine ⟨_, grew, ?_, fun mirror covers => ?_⟩
  · intro record member
    rcases List.mem_cons.mp member with here | later
    · rw [here]
      exact show "process" ≠ "snapshot-end" by decide
    · exact (about record later).1
  have step : mirror.tellAll (lab'.processRecord index :: more)
      = (mirror.tell (.gone (lab.pid index))).tellAll more := by
    rw [← told]
    rfl
  rw [step]
  refine Mirror.Covers.tellKnown ?_ fun record member => (about record member).2
  rw [left]
  exact covers.gone _

theorem Lab.tick_tells (lab : Lab) (next : TaskIndex) : lab.Tells image (lab.afterTick next) := by
  have same : lab.SameNames (lab.afterTick next) :=
    Lab.SameNames.of_table (funext (Lab.ticked_forall
      (fun _ task task' => task'.process = task.process) rfl fun _ _ => rfl))
  refine same.tells rfl ?_
  intro record member
  unfold Lab.tickRecords at member
  split at member
  · cases member
  · rw [List.mem_singleton.mp member]
    exact ⟨show "schedule" ≠ "snapshot-end" by decide, trivial⟩

theorem Lab.finished_names (lab : Lab) (id : U32) (number : U64) (arguments : Arguments)
    (value : U64)
    : lab.SameNames (lab.finished id number arguments value) :=
  @Lab.SameNames.withTask lab (fun task => task.replied value) lab.current Iff.rfl rfl

theorem Lab.finished_tells (lab : Lab) (id : U32) (number : U64) (arguments : Arguments)
    (value : U64)
    : lab.Tells image (lab.finished id number arguments value) := by
  refine (lab.finished_names id number arguments value).tells rfl ?_
  intro record member
  unfold Lab.callRecords at member
  split at member
  · cases member
  · rw [List.mem_singleton.mp member]
    exact ⟨show "syscall" ≠ "snapshot-end" by decide, trivial⟩

/-- The end of a task, and whom it wakes. -/
theorem InKernel.departing_names (kernel : InKernel image lab) (status : U64)
    : lab.SameNames (lab.departing status) := by
  have running : lab.taskCurrent.state = .ready := kernel.ready
  exact .of_slots (@Lab.departing_forall lab status
    (fun _ task task' => (task'.state ≠ .unused ↔ task.state ≠ .unused) ∧ task'.id = task.id)
    ⟨by simp [Task.ended, running], rfl⟩
    (fun index _ waiting => ⟨by simp [Task.woken, waiting], rfl⟩) fun _ _ => ⟨Iff.rfl, rfl⟩)

theorem InKernel.departing_tells (kernel : InKernel image lab) (status : U64)
    : lab.Tells image (lab.departing status) := by
  have same := kernel.departing_names status
  refine same.tells (List.append_assoc ..) ?_
  intro record member
  rcases List.mem_append.mp member with exits | woken
  · rw [List.mem_singleton.mp exits]
    exact ⟨show "exit" ≠ "snapshot-end" by decide, trivial⟩
  · obtain ⟨index, filtered, rfl⟩ := List.mem_map.mp woken
    have awaits := of_decide_eq_true (List.mem_filter.mp filtered).2
    have here : (lab.departing status).tasks index
        = ((lab.exiting status).tasks index).woken status :=
      if_pos ⟨List.mem_finRange index, awaits⟩
    have used : ((lab.departing status).tasks index).state ≠ .unused := by
      rw [here]
      exact fun impossible => by cases impossible
    have known : (lab.departing status).pid index ∈ lab.pids := by
      rw [← same.pids]
      exact Lab.mem_pids used
    exact Lab.processRecord_about used known _

/-- The task that ended is told last, as ended or as gone. -/
theorem Departed.tells {status : U64} (departed : Departed lab status lab')
    (kernel : InKernel image lab) (distinct : lab.Distinct)
    : lab.Tells image lab' := by
  obtain ⟨_, next, machine, rfl, _, _, _⟩ := departed
  refine (kernel.departing_tells status).trans ?_
  have names := kernel.departing_names status
  have here := lab.departed_here status next machine
  have used : ((lab.departing status).tasks lab.current).state ≠ .unused :=
    (names lab.current).1.mpr fun unused => by cases unused.symm.trans kernel.ready
  have named : (lab.departed status next machine).pid lab.current
      = (lab.departing status).pid lab.current := by
    rw [(names lab.current).2 ((names lab.current).1.mp used), Lab.pid, here]
    rfl
  by_cases awaited : lab.table.Awaited
  · refine Lab.tells_gone (names.distinct distinct) used
      (fun _ different => lab.departed_other status next machine different) ?_ named rfl ?_
    · rw [here]
      exact if_pos awaited
    · intro record member
      rw [List.mem_singleton.mp member]
      exact ⟨show "memory" ≠ "snapshot-end" by decide, trivial⟩
  · have still : ((lab.departed status next machine).tasks lab.current).state ≠ .unused := by
      rw [here]
      change (if _ then _ else _) ≠ _
      rw [if_neg awaited]
      exact fun impossible => by cases impossible
    have same : (lab.departing status).SameNames (lab.departed status next machine) := by
      intro index
      rcases eq_or_ne index lab.current with current | different
      · subst current
        exact ⟨iff_of_true still used, fun _ => named⟩
      · have kept := lab.departed_other status next machine different
        rw [Lab.pid, Lab.pid, kept]
        exact ⟨Iff.rfl, fun _ => rfl⟩
    refine same.tells rfl ?_
    intro record member
    rcases List.mem_pair.mp member with process | memory
    · rw [process]
      exact Lab.processRecord_about still (same.pids ▸ Lab.mem_pids still) _
    · rw [memory]
      exact ⟨show "memory" ≠ "snapshot-end" by decide, trivial⟩

/-- Waiting is told, and a collected child as gone. -/
theorem Waited.tells {pid : U64} (waited : Waited lab pid lab') (kernel : InKernel image lab)
    (distinct : lab.Distinct)
    : lab.Tells image lab' := by
  have asked {middle : Lab} (same : (lab.asked pid).SameNames middle)
      (grew : middle.console.trace = (lab.asked pid).console.trace)
      : lab.SameNames middle ∧ lab.Tells image middle := by
    have names : lab.SameNames middle := same
    refine ⟨names, names.tells grew ?_⟩
    intro record member
    rw [List.mem_singleton.mp member]
    exact ⟨show "wait" ≠ "snapshot-end" by decide, trivial⟩
  cases waited with
  | refused none => exact (asked (.withTask Iff.rfl rfl) rfl).2
  | @collected index found exited =>
      let answered : Lab := (lab.asked pid).withTask lab.current fun task =>
        task.replied (lab.tasks index).status
      obtain ⟨names, tells⟩ := @asked answered (.withTask Iff.rfl rfl) rfl
      have different : index ≠ lab.current := by
        rintro rfl
        cases exited.symm.trans kernel.ready
      have before : answered.tasks index = lab.tasks index :=
        Lab.withTask_other (lab.asked pid) different _
      have collected : ((lab.collectedFrom pid index).announced index).tasks
          = (answered.withTask index fun task => { task with state := .unused }).tasks := rfl
      refine tells.trans ?_
      refine @Lab.tells_gone _ answered _ index [] (names.distinct distinct) ?_ ?_ ?_ ?_ rfl ?_
      · rw [before, exited]
        exact fun impossible => by cases impossible
      · exact fun other apart => (congrFun collected other).trans (Lab.withTask_other answered apart _)
      · exact congrArg Task.state ((congrFun collected index).trans (Lab.withTask_self answered ..))
      · rw [Lab.pid, congrFun collected index, Lab.withTask_self]
        rfl
      · exact fun _ impossible => by cases impossible
  | @blocked index next found living ready =>
      have waits (task : Task) : ({ task with
          frame := some (savedAt lab.current), state := .waiting,
          waitingFor := pid.setWidth 32 } : Task).state ≠ .unused :=
        fun impossible => by cases impossible
      have current : ((lab.asked pid).tasks lab.current).state ≠ .unused :=
        fun unused => by cases unused.symm.trans kernel.ready
      obtain ⟨_, tells⟩ := @asked (lab.waitingFor pid)
        (.withTask (iff_of_true (waits _) current) rfl) rfl
      have still : ((lab.waitingFor pid).tasks lab.current).state ≠ .unused := by
        rw [Lab.waitingFor, Lab.withTask_self]
        exact waits _
      refine tells.trans ?_
      have same : (lab.waitingFor pid).SameNames
          (((lab.waitingFor pid).announced lab.current).selected next) :=
        fun _ => ⟨Iff.rfl, fun _ => rfl⟩
      refine same.tells rfl ?_
      intro record member
      rw [List.mem_singleton.mp member]
      exact Lab.processRecord_about still (Lab.mem_pids still) _

/-- A spawn that failed leaves the tasks as they were, and traces nothing. -/
theorem SpawnFailed.tells {index : TaskIndex} (failed : SpawnFailed image index lab lab')
    (free : (lab.tasks index).state = .unused)
    : lab.Tells image lab' := by
  obtain ⟨machine, shape⟩ := failed.confined
  have same : lab.SameNames lab' := by
    intro slot
    rcases eq_or_ne slot index with here | different
    · have cleared : lab'.tasks slot = Task.zero := by
        rw [shape, here]
        exact Function.update_self ..
      rw [cleared, here, free]
      exact ⟨iff_of_false (fun used => used rfl) fun used => used rfl, fun used => absurd rfl used⟩
    · have kept : lab'.tasks slot = lab.tasks slot := by
        rw [shape]
        exact Function.update_of_ne different ..
      rw [Lab.pid, Lab.pid, kept]
      exact ⟨Iff.rfl, fun _ => rfl⟩
  exact same.tells_nothing (by rw [shape])

/-- A new task is told with all its pages. -/
theorem Spawned.tells {program : Program} {parent : U32} {index : TaskIndex}
    (spawned : Spawned image program parent index lab lab') (ready : lab.machine.Ready)
    (free : (lab.tasks index).state = .unused)
    : lab.Tells image lab' := by
  obtain ⟨machine, task, shape⟩ := spawned.confined
  obtain ⟨_, _, _, here⟩ := spawned.task
  have other {slot : TaskIndex} (different : slot ≠ index) : lab'.tasks slot = lab.tasks slot := by
    rw [shape]
    exact Function.update_of_ne different ..
  have used : (lab'.tasks index).state ≠ .unused := by
    rw [here]
    exact fun impossible => by cases impossible
  have live : (lab'.tasks index).root ≠ 0 := by
    rw [spawned.formed.root]
    exact spawned.formed.tree.root_ne_zero (spawned.takes.ready ready)
  have mappings : lab'.mappingRecords image index
      = (List.range (userPages image)).map (lab'.mapRecord image index) ++ [lab'.dataRecord index] :=
    if_neg live
  have grew : lab'.console.trace = lab.console.trace ++ lab'.spawnRecords image index :=
    congrArg (fun lab : Lab => lab.console.trace) shape
  have about : ∀ record ∈ lab'.spawnRecords image index,
      record.About lab'.pids (layoutTexts image) := by
    intro record member
    have known : lab'.pid index ∈ lab'.pids := Lab.mem_pids used
    rcases List.mem_append.mp member with first | memory
    · rcases List.mem_append.mp first with announced | mapping
      · rcases List.mem_pair.mp announced with spawn | process
        · rw [spawn]
          exact ⟨show "spawn" ≠ "snapshot-end" by decide, trivial⟩
        · rw [process]
          exact Lab.processRecord_about used known _
      · exact Lab.mappingRecords_about known record mapping
    · rw [List.mem_singleton.mp memory]
      exact ⟨show "memory" ≠ "snapshot-end" by decide, trivial⟩
  refine ⟨_, grew, fun record member => (about record member).1, fun mirror covers =>
    covers.tellAll ?_ (fun record member => (about record member).2) ?_⟩
  · rintro pid ⟨slot, used', rfl⟩
    have different : slot ≠ index := fun same => used' (same ▸ free)
    exact ⟨slot, (other different).symm ▸ used', by rw [Lab.pid, Lab.pid, other different]⟩
  · rintro pid ⟨slot, used', rfl⟩
    rcases eq_or_ne slot index with same | different
    · subst same
      right
      refine ⟨lab'.mapRecord image slot 0, ?_, lab'.mapView image slot 0, lab'.mapRecord_telling slot 0⟩
      have some : 0 < userPages image := Nat.succ_pos _
      have mapped : lab'.mapRecord image slot 0 ∈ lab'.mappingRecords image slot := by
        rw [mappings]
        exact List.mem_append_left _ (List.mem_map.mpr ⟨0, List.mem_range.mpr some, rfl⟩)
      exact List.mem_append_left _ (List.mem_append_right _ mapped)
    · left
      exact ⟨slot, other different ▸ used', by rw [Lab.pid, Lab.pid, other different]⟩

theorem SpawnCall.tells {number value : U64} (called : SpawnCall image lab number value lab')
    (kernel : InKernel image lab)
    : lab.Tells image lab' := by
  cases called with
  | forbidden | full => exact Lab.SameNames.tells_nothing (fun _ => ⟨Iff.rfl, fun _ => rfl⟩) rfl
  | failed permitted free failed => exact failed.tells (Lab.freeTask_unused free)
  | spawned permitted free spawned =>
      exact spawned.tells kernel.partition.ready (Lab.freeTask_unused free)

/-- What `inspect` traces before it ends is about the tasks. -/
theorem Lab.reportRecords_about (lab : Lab)
    : ∀ record ∈ lab.reportRecords image, record.About lab.pids (layoutTexts image) := by
  intro record member
  rcases List.mem_append.mp member with first | memory
  · rcases List.mem_cons.mp first with begins | slots
    · rw [begins]
      exact ⟨show "snapshot" ≠ "snapshot-end" by decide, trivial⟩
    · obtain ⟨index, _, told⟩ := List.mem_flatMap.mp slots
      unfold Lab.slotRecords at told
      split at told
      · cases told
      · next used =>
          have known : lab.pid index ∈ lab.pids := Lab.mem_pids used
          rcases List.mem_cons.mp told with process | mapping
          · rw [process]
            exact Lab.processRecord_about used known _
          · exact Lab.mappingRecords_about known record mapping
  · rw [List.mem_singleton.mp memory]
    exact ⟨show "memory" ≠ "snapshot-end" by decide, trivial⟩

theorem Lab.inspectRecords_eq (lab : Lab)
    : lab.inspectRecords image = lab.reportRecords image ++ [⟨"snapshot-end", lab.ticks, []⟩] := by
  rw [Lab.reportRecords, List.append_assoc]
  rfl

/-- The end of a report tells nothing. -/
theorem Lab.tellAll_inspect (lab : Lab) (mirror : Mirror)
    : mirror.tellAll (lab.inspectRecords image) = mirror.tellAll (lab.reportRecords image) := by
  rw [Lab.inspectRecords_eq, Mirror.tellAll_append]
  rfl

theorem Called.names {arguments : Arguments} {call : Option Syscall} {value : U64}
    (called : Called image lab arguments call value lab')
    : lab.SameNames lab' := by
  refine .of_slots fun index => ?_
  have slot := congrArg (fun table : ProcessTable => table.slots index) called.table
  have process : (lab'.tasks index).process.state = (lab.tasks index).process.state
      ∧ (lab'.tasks index).process.id = (lab.tasks index).process.id := by
    rcases eq_or_ne index lab.current with same | different
    · subst same
      have updated := slot.trans (Function.update_self ..)
      have state := congrArg Process.state updated
      have named := congrArg Process.id updated
      exact ⟨state, named⟩
    · have kept := slot.trans (Function.update_of_ne different ..)
      exact ⟨congrArg Process.state kept, congrArg Process.id kept⟩
  have state : (lab'.tasks index).state = (lab.tasks index).state := process.1
  exact ⟨by rw [state], process.2⟩

/-- An `inspect` was traced, and no more. -/
def Lab.Inspects (image : List Byte) (lab lab' : Lab) : Prop :=
  lab'.console.trace = lab.console.trace ++ lab.inspectRecords image ∧ lab.SameNames lab'

/-- A call but `inspect` tells nothing. -/
theorem Called.tells {arguments : Arguments} {call : Option Syscall} {value : U64}
    (called : Called image lab arguments call value lab') (other : call ≠ some .inspect)
    : lab.Tells image lab' := by
  have same := called.names
  cases called with
  | inspect => exact absurd rfl other
  | _ => exact same.tells_nothing rfl

/-- A call of `inspect` traces its report and no record of itself. -/
theorem Called.inspects {value : U64}
    (called
      : Called image lab lab.savedArguments (Syscall.ofNumber lab.savedNumber) value lab')
    (call : Syscall.ofNumber lab.savedNumber = some .inspect)
    : lab.Inspects image
        (lab'.finished lab.taskCurrent.id lab.savedNumber lab.savedArguments value) := by
  have names := called.names.trans
    (lab'.finished_names lab.taskCurrent.id lab.savedNumber lab.savedArguments value)
  rw [call] at called
  cases called with
  | refused buffer _ => cases buffer
  | inspect =>
      have untold : untraced (Syscall.ofNumber lab.savedNumber) lab.savedArguments 0 :=
        Or.inr (Or.inl call)
      refine ⟨?_, names⟩
      change _ ++ Lab.callRecords .. = _
      rw [Lab.callRecords, if_pos untold]
      exact List.append_nil _

theorem KernelRun.inspects (ran : KernelRun image 128 lab lab')
    (call : Syscall.ofNumber lab.savedNumber = some .inspect)
    : lab.Inspects image lab' := by
  cases ran with
  | tick timer => exact absurd timer (by decide)
  | fault exception departed => simp at exception
  | exit _ called departed => cases called.symm.trans call
  | wait _ called waited => cases called.symm.trans call
  | spawn _ called spawned => cases called.symm.trans call
  | call _ immediate called => exact called.inspects call

/-- A run of the kernel keeps the mirror to the tasks, unless it reports. -/
theorem KernelRun.tells {vector : Nat} (ran : KernelRun image vector lab lab')
    (kernel : InKernel image lab) (distinct : lab.Distinct)
    : lab.Tells image lab'
      ∨ vector = 128 ∧ Syscall.ofNumber lab.savedNumber = some .inspect
        ∧ lab.Inspects image lab' := by
  cases ran with
  | @tick next timer => exact Or.inl (lab.tick_tells next)
  | @fault address _ exception departed =>
      have same : lab.SameNames (lab.faulted address) := fun _ => ⟨Iff.rfl, fun _ => rfl⟩
      have first : lab.Tells image (lab.faulted address) := by
        refine same.tells rfl ?_
        intro record member
        rw [List.mem_singleton.mp member]
        exact ⟨show "fault" ≠ "snapshot-end" by decide, trivial⟩
      exact Or.inl (first.trans (departed.tells (kernel.console _) (same.distinct distinct)))
  | exit number called departed => exact Or.inl (departed.tells kernel distinct)
  | wait number called waited => exact Or.inl (waited.tells kernel distinct)
  | spawn number called spawned =>
      exact Or.inl ((spawned.tells kernel).trans (Lab.finished_tells ..))
  | @call value served number immediate called =>
      by_cases inspects : Syscall.ofNumber lab.savedNumber = some .inspect
      · exact Or.inr ⟨number, inspects, called.inspects inspects⟩
      · exact Or.inl ((called.tells inspects).trans (Lab.finished_tells ..))

/-- An event keeps the mirror to the tasks, unless it is a call of `inspect`. -/
theorem Stepped.tells {event : LabEvent} (stepped : Stepped image lab event lab')
    (user : InUser image lab) (distinct : lab.Distinct)
    : lab.Tells image lab'
      ∨ ∃ error cr2 scratch,
          event = .interrupt 128 error cr2 scratch
          ∧ Syscall.ofNumber (lab.cpu.general .rax) = some .inspect
          ∧ (lab.entered 128 error scratch).Inspects image lab' := by
  cases stepped with
  | run | store | mark | receive =>
      exact Or.inl (Lab.SameNames.tells_nothing (fun _ => ⟨Iff.rfl, fun _ => rfl⟩) rfl)
  | @interrupt vector error cr2 scratch middle ran =>
      have entry : lab.SameNames (lab.entered vector error scratch) := .withTask Iff.rfl rfl
      have first : lab.Tells image (lab.entered vector error scratch) := entry.tells_nothing rfl
      have number : (lab.entered vector error scratch).savedNumber = lab.cpu.general .rax :=
        lab.entered_savedField vector error scratch (.general .rax)
      rcases ran.tells (user.entered vector error scratch) (entry.distinct distinct) with
        tells | ⟨call, inspects, reported⟩
      · exact Or.inl (first.trans tells)
      · have vector' : vector = 128 := Fin.ext call
        subst vector'
        exact Or.inr ⟨error, cr2, scratch, rfl, number ▸ inspects, reported⟩

end Tells

-----------------------------------------------------------------------------------------
-- Runs
-----------------------------------------------------------------------------------------

/-- On the way to a state a program has called `inspect`, which ran in the kernel's state `kernel`
and with which the trace came to the records.
-/
def Lab.Inspected (image : List Byte) (info : BootInfo) (last : Nat × Lab)
    (records : List TraceRecord) (kernel : Lab)
    : Prop :=
  ∃ (before after : Nat × Lab) (error cr2 : U64) (scratch : Stack),
    ReachableAfter image info before.1 before.2
    ∧ Syscall.ofNumber (before.2.cpu.general .rax) = some .inspect
    ∧ kernel = before.2.entered 128 error scratch
    ∧ inspect image kernel = .ok ((), kernel.traced (kernel.inspectRecords image))
    ∧ labStep image (.interrupt 128 error cr2 scratch) before.2 = .ok ((), after.2)
    ∧ after.1 = before.1 + before.2.numbersTo after.2
    ∧ kernel.console.trace ++ kernel.inspectRecords image = records
    ∧ after.2.console.trace = records
    ∧ Lab.Run image after last

section Runs

variable {image : List Byte} {info : BootInfo} {lab : Lab} {spawns : Nat}

theorem ReachableAfter.distinct (reached : ReachableAfter image info spawns lab)
    (guaranteed : info.Guaranteed) (bound : spawns < 2 ^ 32 - 1)
    : lab.Distinct := by
  have sound := reached.sound guaranteed bound
  intro index other used used' named
  have same : (lab.userTable.slots index).id = (lab.userTable.slots other).id := by
    obtain ⟨_, slot⟩ := lab.userTable_slot index
    obtain ⟨_, slot'⟩ := lab.userTable_slot other
    rw [slot, slot']
    exact BitVec.eq_of_toNat_eq (Int.ofNat_inj.mp named)
  refine sound.distinct index other ?_ ?_ same
  · exact fun unused => used ((lab.userTable_state index).symm.trans unused)
  · exact fun unused => used' ((lab.userTable_state other).symm.trans unused)

/-- Booting tells of `init`. -/
theorem kernelMain_tells {cold : Lab} (booted : kernelMain image info cold = .ok ((), lab))
    (start : cold.Cold) (guaranteed : info.Guaranteed)
    : cold.Tells image lab := by
  obtain ⟨machine, _, bare, started⟩ := kernelMain_bare booted start guaranteed
  obtain ⟨_, _, spawned, built, rfl⟩ := taskStart_booted started bare
  let booting : Lab := (cold.opened info machine).traced
    [⟨"boot", (cold.opened info machine).ticks,
      [.text "LAB", .text "x86_64", .text "100", .text "8"]⟩]
  have same : cold.SameNames booting := fun _ => ⟨Iff.rfl, fun _ => rfl⟩
  have first : cold.Tells image booting := by
    refine same.tells rfl ?_
    intro record member
    rw [List.mem_singleton.mp member]
    exact ⟨show "boot" ≠ "snapshot-end" by decide, trivial⟩
  have free : (booting.tasks 0).state = .unused := by
    rw [show booting.tasks = fun _ => Task.zero from bare.tasks]
    rfl
  have second : booting.Tells image spawned := built.tells bare.ready free
  have left : spawned.SameNames (spawned.selected 0).left := fun _ => ⟨Iff.rfl, fun _ => rfl⟩
  exact (first.trans second).trans (left.tells_nothing rfl)

/-- The guest of a run of any length knows the tasks. Witness: induction on the run. -/
theorem ReachableAfter.covers (reached : ReachableAfter image info spawns lab)
    (guaranteed : info.Guaranteed) (bound : spawns < 2 ^ 32 - 1)
    : (Guest.fresh.mirror.tellAll lab.console.trace).Covers lab.pids (layoutTexts image) := by
  induction reached with
  | @boot cold lab booted start =>
      obtain ⟨records, grew, _, covers⟩ := kernelMain_tells booted start guaranteed
      rw [start.console, List.nil_append] at grew
      rw [grew]
      refine covers _ ⟨⟨?_, ?_, ?_, ?_⟩, ?_⟩
      · exact fun _ found => absurd rfl found
      · exact fun _ found => absurd rfl found
      · exact fun _ found => absurd rfl found
      · exact fun _ _ found => by cases found
      · rintro pid ⟨index, used, _⟩
        rw [start.tasks] at used
        exact absurd rfl used
  | @step spawns lab lab' event reached stepped ih =>
      have small : spawns < 2 ^ 32 - 1 := by omega
      have user := reached.reachable.user guaranteed
      obtain ⟨_, _, done⟩ := (user.labStep_spec event).ok stepped
      have before := ih small
      rcases done.tells user (reached.distinct guaranteed small) with
        ⟨records, grew, _, covers⟩ | ⟨error, cr2, scratch, _, _, grew, same⟩
      · rw [grew, Mirror.tellAll_append]
        exact covers _ before
      · have entry : lab.SameNames (lab.entered 128 error scratch) := .withTask Iff.rfl rfl
        rw [grew, Mirror.tellAll_append, Lab.tellAll_inspect, same.pids]
        rw [← entry.pids] at before
        exact before.tellKnown fun record member => (Lab.reportRecords_about _ record member).2

/-- An end of a report that comes with new records is among them. -/
theorem snapshot_new {old records heard : List TraceRecord} {tick : U64}
    (part : heard ++ [⟨"snapshot-end", tick, []⟩] <+: old ++ records)
    (new : ¬heard ++ [⟨"snapshot-end", tick, []⟩] <+: old)
    : ∃ more,
        heard = old ++ more ∧ more ++ [⟨"snapshot-end", tick, []⟩] <+: records := by
  have longer : old <+: heard ++ [⟨"snapshot-end", tick, []⟩] :=
    (List.prefix_or_prefix_of_prefix part (List.prefix_append _ _)).resolve_left new
  rcases List.prefix_concat_iff.mp longer with whole | ⟨more, rfl⟩
  · rw [whole] at new
    exact absurd (List.prefix_refl _) new
  · rw [List.append_assoc, List.prefix_append_right_inj] at part
    exact ⟨more, rfl, part⟩

theorem Lab.Inspected.step {event : LabEvent} {lab' kernel : Lab} {records : List TraceRecord}
    (inspected : Lab.Inspected image info (spawns, lab) records kernel)
    (stepped : labStep image event lab = .ok ((), lab'))
    : Lab.Inspected image info (spawns + lab.numbersTo lab', lab') records kernel := by
  obtain ⟨before, after, error, cr2, scratch, reached, call, entry, reports, inspects, count, traced,
    heard, run⟩ := inspected
  exact ⟨before, after, error, cr2, scratch, reached, call, entry, reports, inspects, count, traced,
    heard, run.tail ⟨event, stepped, rfl⟩⟩

/-- Every end of a report in the trace is of an `inspect` of the run. Witness: induction on the
run; the records of a step end a report only where it called `inspect`.
-/
theorem ReachableAfter.inspected (reached : ReachableAfter image info spawns lab)
    (guaranteed : info.Guaranteed) (bound : spawns < 2 ^ 32 - 1) {records : List TraceRecord}
    {tick : U64} (heard : records ++ [⟨"snapshot-end", tick, []⟩] <+: lab.console.trace)
    : ∃ kernel,
        Lab.Inspected image info (spawns, lab) (records ++ [⟨"snapshot-end", tick, []⟩]) kernel := by
  induction reached generalizing records with
  | @boot cold lab booted start =>
      obtain ⟨booting, grew, inner, _⟩ := kernelMain_tells booted start guaranteed
      rw [start.console, List.nil_append] at grew
      rw [grew] at heard
      have member : ⟨"snapshot-end", tick, []⟩ ∈ booting := heard.subset (by simp)
      exact absurd rfl (inner _ member)
  | @step spawns lab lab' event reached stepped ih =>
      have small : spawns < 2 ^ 32 - 1 := by omega
      by_cases old : records ++ [⟨"snapshot-end", tick, []⟩] <+: lab.console.trace
      · obtain ⟨kernel, inspected⟩ := ih small old
        exact ⟨kernel, inspected.step stepped⟩
      · have user := reached.reachable.user guaranteed
        obtain ⟨_, _, done⟩ := (user.labStep_spec event).ok stepped
        rcases done.tells user (reached.distinct guaranteed small) with
          ⟨new, grew, inner, _⟩ | ⟨error, cr2, scratch, rfl, call, grew, _⟩
        · rw [grew] at heard
          obtain ⟨more, _, part⟩ := snapshot_new heard old
          have member : ⟨"snapshot-end", tick, []⟩ ∈ new := part.subset (by simp)
          exact absurd rfl (inner _ member)
        · have kernel := user.entered 128 error scratch
          have reports := kernel.partition.inspect_reports kernel.sized
          rw [grew] at heard
          obtain ⟨more, rfl, part⟩ := snapshot_new heard old
          rw [Lab.inspectRecords_eq] at part
          rcases List.prefix_concat_iff.mp part with whole | short
          · have traced : lab.console.trace ++ (lab.entered 128 error scratch).inspectRecords image
                = lab.console.trace ++ more ++ [⟨"snapshot-end", tick, []⟩] := by
              rw [List.append_assoc, Lab.inspectRecords_eq, whole]
            exact ⟨lab.entered 128 error scratch, (spawns, lab), (_, lab'), error, cr2, scratch,
              reached, call, rfl, reports, stepped, rfl, traced, grew.trans traced, .refl⟩
          · have member := short.subset (List.mem_append_right more List.mem_cons_self)
            exact absurd rfl (Lab.reportRecords_about _ _ member).1

end Runs

end MiniLinux
