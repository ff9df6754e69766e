import MiniLinux.Laboratory.Contexts

/-! What a new task finds in its memory.
Frames are handed out with the bytes of whoever had them before; `prepare` clears every page
before it maps it, and nobody but the task itself can write to it afterwards.
-/

namespace MiniLinux

open Foundation Foundation.Halting

/-- What a new task reads at an address: the image from the start of the code, zeros in the rest of
the code pages and in the data and stack pages, and nothing elsewhere.
-/
def initialView (image : List Byte) (address : U64) : Option Byte :=
  let place := address.toNat
  if userCode.toNat ≤ place ∧ place < userCode.toNat + codePages image * pageSize then
    some (image.getD (place - userCode.toNat) 0)
  else if userData.toNat ≤ place ∧ place < userData.toNat + pageSize then some 0
  else if userStack.toNat ≤ place ∧ place < userStack.toNat + 2 * pageSize then some 0
  else none

section View

variable {image : List Byte} {address : U64}

/-- The view of a page of the layout. -/
theorem initialView_page (sized : Sized image) {k : Nat} (inside : k < userPages image)
    (page : layoutPage image k = address.toNat / pageSize)
    : initialView image address
      = some ((imagePage image k).getD (address.toNat % pageSize) 0) := by
  have bound := sized.codePages_le
  have code : userCode.toNat = 0x400000 := rfl
  have data : userData.toNat = 0x600000 := rfl
  have stack : userStack.toNat = 0x800000 := rfl
  have size : pageSize = 4096 := rfl
  simp only [initialView, code, data, stack, size]
  simp only [layoutPage, size] at page
  simp only [userPages] at inside
  by_cases low : k < codePages image
  · rw [if_pos low] at page
    rw [if_pos (by omega), imagePage, if_pos low]
    have index : address.toNat - 0x400000 = k * 4096 + address.toNat % 4096 := by omega
    have within : address.toNat % 4096 < 4096 := Nat.mod_lt _ (by decide)
    simp only [imageChunk, size, List.getD_eq_getElem?_getD, List.getElem?_take,
      List.getElem?_drop, if_pos within, index]
  · rw [if_neg low] at page
    rw [imagePage, if_neg low]
    split at page
    · rw [if_neg (by omega), if_pos (by omega)]
      rfl
    · rw [if_neg (by omega), if_neg (by omega), if_pos (by omega)]
      rfl

/-- Outside the layout there is nothing to read. -/
theorem initialView_none (sized : Sized image)
    (outside : layoutIndex image (address.toNat / pageSize) = none)
    : initialView image address = none := by
  have bound := sized.codePages_le
  have code : userCode.toNat = 0x400000 := rfl
  have data : userData.toNat = 0x600000 := rfl
  have stack : userStack.toNat = 0x800000 := rfl
  have size : pageSize = 4096 := rfl
  unfold layoutIndex at outside
  split_ifs at outside with first second third
  simp only [size] at first second third
  simp only [initialView, code, data, stack, size]
  rw [if_neg (by omega), if_neg (by omega), if_neg (by omega)]

end View

section Reads

variable {image : List Byte} {lab lab' : Lab} {index : TaskIndex}

/-- A task whose pages are as `prepare` left them reads the initial view. -/
theorem InUser.reads_filled (user : InUser image lab) (live : lab.live index)
    (filled : lab.Filled image index (userPages image))
    : lab.reads index = initialView image := by
  funext address
  have formed := user.partition.formed index live
  rw [user.partition.reads_eq user.sized live]
  cases found : layoutIndex image (address.toNat / pageSize) with
  | none =>
      rw [initialView_none user.sized found, layoutMap, found]
      rfl
  | some k =>
      obtain ⟨inside, page⟩ := (layoutIndex_eq_some user.sized).mp found
      have held : k < (lab.tasks index).pages.length := by
        rw [formed.count]
        exact inside
      have shows := filled k inside _ (List.getElem?_eq_getElem held)
      rw [initialView_page user.sized inside page, layoutMap, found, Option.bind_some,
        List.getElem?_eq_getElem held]
      refine congrArg some ((shows _ (pageByte_frame _ _)).trans ?_)
      rw [pageByte, Nat.mul_add_mod_self_right, Nat.mod_mod]

/-- Whoever asks for a spawn has called it. -/
theorem Lab.action_spawn {event : LabEvent} {number : U64} (spawns : lab.action event = .spawn number)
    : ∃ error cr2 scratch,
        event = .interrupt 128 error cr2 scratch
        ∧ Syscall.ofNumber (lab.cpu.general .rax) = some .spawn := by
  cases event with
  | interrupt vector error cr2 scratch =>
      rw [Lab.action] at spawns
      split at spawns
      · next call =>
          obtain rfl : vector = 128 := Fin.ext call
          refine ⟨error, cr2, scratch, rfl, ?_⟩
          cases named : Syscall.ofNumber (lab.cpu.general .rax) with
          | none =>
              rw [named] at spawns
              cases spawns
          | some found =>
              rw [named] at spawns
              cases found <;> first | rfl | cases spawns
      · split at spawns <;> cases spawns
  | _ => cases spawns

/-- A slot that a step fills holds the image and zeros. -/
theorem InUser.filled (user : InUser image lab) {event : LabEvent}
    (stepped : labStep image event lab = .ok ((), lab'))
    (free : (lab.tasks index).state = .unused) (born : (lab'.tasks index).state ≠ .unused)
    : lab'.Filled image index (userPages image) := by
  have different : lab.current ≠ index := by
    rintro rfl
    cases user.ready.symm.trans free
  have before := (lab.userTable_state index).trans free
  have after : (lab'.userTable.slots index).state ≠ .unused := by
    rw [lab'.userTable_state]
    exact born
  have spawns : ∃ number, lab.action event = .spawn number := by
    have slot := user.slot stepped different
    generalize lab'.userTable.slots index = process at slot after
    cases slot with
    | kept => exact absurd before after
    | filled spawns => exact ⟨_, spawns⟩
    | collected _ _ exited => cases before.symm.trans exited
    | woken _ awaits => cases before.symm.trans awaits.2.1
  obtain ⟨number, spawns⟩ := spawns
  obtain ⟨error, cr2, scratch, rfl, call⟩ := Lab.action_spawn spawns
  obtain ⟨value, served, called, returned⟩ := user.spawn_step call error cr2 scratch
  cases stepped.symm.trans returned
  let entered : Lab := lab.entered 128 error scratch
  have kernel : InKernel image entered := user.entered 128 error scratch
  have unused (slot : TaskIndex) (same : served.tasks slot = entered.tasks slot)
      : (served.tasks slot).state = (lab.tasks slot).state := by
    rw [same]
    exact (lab.entered_same 128 error scratch slot).state
  have answered : ((served.finished lab.taskCurrent.id (lab.cpu.general .rax) lab.arguments
      value).left.tasks index).state = (served.tasks index).state :=
    (served.finished_same _ _ _ value index).state
  rw [answered] at born
  cases called with
  | forbidden | full => exact absurd ((unused index rfl).trans free) born
  | @failed _ slot _ _ free' failed =>
      obtain ⟨machine, shape⟩ := failed.confined
      rcases eq_or_ne index slot with rfl | apart
      · have cleared : served.tasks index = Task.zero := by
          rw [shape]
          exact Function.update_self ..
        rw [cleared] at born
        exact absurd rfl born
      · refine absurd ((unused index ?_).trans free) born
        rw [shape]
        exact Function.update_of_ne apart ..
  | @spawned _ slot _ _ free' spawned =>
      obtain ⟨machine, task, shape⟩ := spawned.confined
      obtain rfl : index = slot := by
        by_contra apart
        refine absurd ((unused index ?_).trans free) born
        rw [shape]
        exact Function.update_of_ne apart ..
      exact spawned.filled.congr (served.finished_same _ _ _ _ index).pages rfl

/-- The memory of a ready task that is away stays as it is. -/
theorem InUser.away_reads {later : Lab} (user : InUser image lab)
    (away : Lab.Away image index lab later)
    (ready : (lab.userTable.slots index).state = .ready)
    : later.reads index = lab.reads index := by
  induction away with
  | refl => rfl
  | @tail middle last before beside ih =>
      have user₁ := user.away before
      have user₂ := user.away (before.tail beside)
      have live {after : Lab} (away : Lab.Away image index lab after) : after.live index := by
        refine Or.inl ?_
        rw [← after.userTable_state, user.away_ready away ready]
        exact ready
      obtain ⟨different, event, stepped⟩ := beside
      obtain ⟨_, _, done⟩ := (user₁.labStep_spec event).ok stepped
      have same := (done.effect user₁).beside user₁ user₂ (live before)
        (live (before.tail ⟨different, event, stepped⟩)) (Ne.symm different)
      exact same.2.trans ih

/-- The first task starts with the initial view. -/
theorem kernelMain_reads {info : BootInfo} {cold : Lab} (start : cold.Cold)
    (guaranteed : info.Guaranteed) (booted : kernelMain image info cold = .ok ((), lab))
    : lab.reads 0 = initialView image := by
  obtain ⟨_, _, bare, started⟩ := kernelMain_bare booted start guaranteed
  obtain ⟨user, table, spawned, built, rfl⟩ := taskStart_booted started bare
  refine user.reads_filled ?_ ?_
  · refine Or.inl ?_
    rw [← Lab.userTable_state, table]
    rfl
  · have pages : ((spawned.selected 0).left.tasks 0).pages = (spawned.tasks 0).pages := rfl
    intro k inside page found
    have shows := built.filled k inside page (pages ▸ found)
    intro byte here
    have memory : (spawned.selected 0).left.machine.memory = spawned.machine.memory :=
      spawned.machine.rooted_memory _
    rw [memory]
    exact shows byte here

end Reads

/-- No residue: whoever had the frames before, until a new task runs for the first time it would read
the image and zeros, and find the first frame in its registers. Both depend on the image alone, so
that they are the same in any two runs.
-/
theorem new_tasks_find_no_residue {image : List Byte} {info : BootInfo} {lab : Lab}
    (reached : Reachable image info lab) (guaranteed : info.Guaranteed)
    : (∀ cold,
        cold.Cold
        → kernelMain image info cold = .ok ((), lab)
        → lab.reads 0 = initialView image ∧ lab.cpu = initialContext)
      ∧ ∀ event index lab' later,
          labStep image event lab = .ok ((), lab')
          → (lab.tasks index).state = .unused
          → (lab'.tasks index).state ≠ .unused
          → Lab.Away image index lab' later
          → later.reads index = initialView image
            ∧ (later.userTable.slots index).context = initialContext := by
  have user := reached.user guaranteed
  constructor
  · intro cold start booted
    obtain ⟨_, _, bare, started⟩ := kernelMain_bare booted start guaranteed
    have table := (taskStart_booted started bare).2.1
    refine ⟨kernelMain_reads start guaranteed booted, ?_⟩
    rw [lab.cpu_eq, table, show lab.current = 0 from congrArg ProcessTable.current table]
    rfl
  · intro event index lab' later stepped free born away
    have user' := (user.step stepped).1
    obtain ⟨ready, context⟩ := user.new_task_ready stepped free born
    have live : lab'.live index := by
      refine Or.inl ?_
      rw [← lab'.userTable_state]
      exact ready
    constructor
    · rw [user'.away_reads away ready]
      exact user'.reads_filled live (user.filled stepped free born)
    · rw [user'.away_ready away ready]
      exact context

theorem new_tasks_find_no_residue_in_sample
    : ∃ lab lab' index,
        Reachable sampleImage sampleInfo lab
        ∧ labStep sampleImage (.interrupt 128 0 0 fun _ => 0) lab = .ok ((), lab')
        ∧ lab'.reads index = initialView sampleImage
        ∧ (lab'.userTable.slots index).context = initialContext := by
  obtain ⟨lab, lab', index, reached, stepped, _, _, free, _, ready, _⟩ := sample_spawns
  have born : (lab'.tasks index).state ≠ .unused := by
    rw [ready]
    decide
  obtain ⟨view, context⟩ := (new_tasks_find_no_residue reached.reachable sample_guaranteed).2 _ _ _ _
    stepped free born .refl
  exact ⟨lab, lab', index, reached.reachable, stepped, view, context⟩

end MiniLinux
