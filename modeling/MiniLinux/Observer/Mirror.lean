import MiniLinux.Observer.TraceStream

/-! What a reader of the guest finds in its dictionaries, and what each record changes of it. -/

namespace MiniLinux

open Foundation GuestM

/-- The entries of `processes`, `maps` and `data` by process number, and the counts of frames. -/
@[ext] structure Mirror where
  processes : Int → Option ProcessView
  maps : Int → Option (Text → Option MapView)
  data : Int → Option DataView
  frames : Int
  free : Int

def Guest.mirror (guest : Guest) : Mirror where
  processes := guest.processes.find
  maps pid := (guest.maps.find pid).map Dictionary.find
  data := guest.data.find
  frames := guest.frames
  free := guest.free

/-- `guest.maps.setdefault(pid, {})`, seen from outside -/
theorem Guest.mirror_maps_getD (guest : Guest) (pid : Int)
    : ((guest.maps.find pid).getD .empty).find = (guest.mirror.maps pid).getD fun _ => none := by
  change _ = ((guest.maps.find pid).map Dictionary.find).getD _
  cases guest.maps.find pid <;> rfl

/-- What a record can tell. -/
inductive Telling where
  | process (view : ProcessView)
  | gone (pid : Int)
  | map (pid : Int) (view : MapView)
  | data (pid : Int) (view : DataView)
  | memory (frames free : Int)
  | current (pid : Int)
  | nothing

/-- What the mirror makes of it. -/
def Mirror.tell (mirror : Mirror) : Telling → Mirror
  | .process view =>
      { mirror with processes := Function.update mirror.processes view.pid (some view) }
  | .gone pid =>
      { mirror with
        processes := Function.update mirror.processes pid none
        maps := Function.update mirror.maps pid none
        data := Function.update mirror.data pid none }
  | .map pid view =>
      { mirror with
        maps := Function.update mirror.maps pid
          (some (Function.update ((mirror.maps pid).getD fun _ => none) view.va (some view))) }
  | .data pid view => { mirror with data := Function.update mirror.data pid (some view) }
  | .memory frames free => { mirror with frames, free }
  | .current pid =>
      { mirror with
        processes := fun key =>
          (mirror.processes key).map fun process =>
            { process with current := decide (process.pid = pid) } }
  | .nothing => mirror

/-- What a record tells. -/
def TraceRecord.telling (record : TraceRecord) : Telling :=
  match record.kind, record.fields with
  | "process",
    [.number id, .number parent, .number program, .number state, .hex root, .number slices,
      .number current] =>
      if state = 0 then .gone id.toNat
      else .process
        { pid := id.toNat, parent := parent.toNat
          program := programNames.getD program.toNat []
          state := stateNames.getD state.toNat []
          root := (TraceField.hex root).written, slices := slices.toNat
          current := decide (current = 1) }
  | "map", [.number id, .hex va, .hex pa, .number flags, .text name] =>
      .map id.toNat
        { va := (TraceField.hex va).written, pa := (TraceField.hex pa).written
          flags := flags.toNat, name := name.toList }
  | "data", [.number id, .hex va, .hex pa, .hex marker] =>
      .data id.toNat
        { va := (TraceField.hex va).written, pa := (TraceField.hex pa).written
          marker := (TraceField.hex marker).written }
  | "memory", [.number frames, .number free] => .memory frames.toNat free.toNat
  | "schedule", [_, .number id, _, _] => .current id.toNat
  | "syscall", .number id :: _ => .current id.toNat
  | _, _ => .nothing

-----------------------------------------------------------------------------------------
-- The guest keeps the mirror
-----------------------------------------------------------------------------------------

/-- Marking the running process, also where there is none. -/
theorem observeCurrent_mirror {fields : List Text} {index : Nat} {value : U64}
    (field : pyItem fields index = pure (TraceField.number value).written) (guest : Guest)
    : (after (observeCurrent fields index) guest).mirror = guest.mirror.tell (.current value.toNat) := by
  have opened : after (observeCurrent fields index) guest
      = after (if guest.processes.entries = [] then pure ()
          else do
            let pid ← pyToInt (← pyItem fields index)
            modify fun guest =>
              { guest with
                processes := guest.processes.mapValues fun process =>
                  { process with current := decide (process.pid = pid) } }) guest := rfl
  rw [opened]
  split
  · next empty =>
      have none (key : Int) : guest.processes.find key = none := by
        rw [Dictionary.find, empty]
        rfl
      refine Mirror.ext ?_ rfl rfl rfl rfl
      funext key
      change guest.processes.find key = (guest.processes.find key).map _
      rw [none]
      rfl
  · rw [field, pure_bind, pyToInt_number, pure_bind]
    refine Mirror.ext ?_ rfl rfl rfl rfl
    funext key
    exact Dictionary.find_mapValues guest.processes _ key

/-- The record of the kernel is taken up. -/
theorem observeRecord_mirror {record : TraceRecord} (emitted : record.Emitted) (guest : Guest)
    : (after (observeRecord record.kind.toList (record.fields.map TraceField.written)) guest).mirror
      = guest.mirror.tell record.telling := by
  cases emitted with
  | boot | snapshot | snapshotEnd | spawn | exit | wait | fault =>
      dsimp only
      rw [observeRecord_silent (by decide)]
      simp only [TraceRecord.telling]
      rfl
  | process tick id parent program state root slices current =>
      dsimp only
      change (after (observeProcess _) guest).mirror = _
      simp only [observeProcess, pyInts, List.map_cons, List.map_nil, List.take_succ_cons,
        List.take_zero, List.mapM_cons, List.mapM_nil, pyToInt_number, pure_bind,
        List.length_cons, List.length_nil, if_true, pyItem_zero, pyItem_succ, pyIndex_program,
        pyIndex_state, TraceRecord.telling]
      have unused : ((state.number.toNat : Nat) : Int) = 0 ↔ state.number = 0 := by
        cases state <;> decide
      have marked : decide ((TraceField.number (if current = true then 1 else 0)).written
          = "1".toList) = decide ((if current = true then (1 : U64) else 0) = 1) := by
        cases current <;> decide
      rw [marked]
      by_cases gone : state.number = 0
      · rw [if_pos (unused.mpr gone), if_pos gone]
        refine Mirror.ext ?_ ?_ ?_ rfl rfl
        · exact guest.processes.find_erase_update _
        · refine (congrArg (Option.map Dictionary.find ∘ ·)
            (guest.maps.find_erase_update _)).trans ?_
          exact Function.comp_update _ _ _ _
        · exact guest.data.find_erase_update _
      · rw [if_neg (mt unused.mp gone), if_neg gone]
        exact Mirror.ext (guest.processes.find_set_update _ _) rfl rfl rfl rfl
  | map tick id va pa flags name known =>
      dsimp only
      change (after (observeMap _) guest).mirror = _
      simp only [observeMap, List.map_cons, List.map_nil, pyItem_zero, pyItem_succ, pure_bind,
        pyToInt_number, TraceRecord.telling]
      refine Mirror.ext rfl ?_ rfl rfl rfl
      refine (congrArg (Option.map Dictionary.find ∘ ·)
        (guest.maps.find_set_update _ _)).trans ?_
      refine (Function.comp_update _ _ _ _).trans ?_
      refine congrArg (Function.update _ _) ?_
      rw [Option.map_some, Dictionary.find_set_update, guest.mirror_maps_getD]
      rfl
  | data tick id va pa marker =>
      dsimp only
      change (after (observeData _) guest).mirror = _
      simp only [observeData, List.map_cons, List.map_nil, pyItem_zero, pyItem_succ, pure_bind,
        pyToInt_number, TraceRecord.telling]
      exact Mirror.ext rfl rfl (guest.data.find_set_update _ _) rfl rfl
  | memory tick frames free =>
      dsimp only
      change (after (observeMemory _) guest).mirror = _
      simp only [observeMemory, pyInts, List.map_cons, List.map_nil, List.take_succ_cons,
        List.take_zero, List.mapM_cons, List.mapM_nil, pyToInt_number, pure_bind,
        List.length_cons, List.length_nil, if_true, TraceRecord.telling]
      rfl
  | schedule tick old new root level =>
      simp only [TraceRecord.telling]
      exact observeCurrent_mirror rfl guest
  | syscall tick id number rdi rsi rdx level result signed =>
      simp only [TraceRecord.telling]
      exact observeCurrent_mirror rfl guest

/-- Handling a record changes what the record tells, and nothing else. -/
theorem TraceRecord.Emitted.mirror {record : TraceRecord} (emitted : record.Emitted) (guest : Guest)
    : (after (guestEvent record.line) guest).mirror = guest.mirror.tell record.telling := by
  let fields : List Text := record.fields.map TraceField.written
  let counted : Guest :=
    { guest with
      ticks := max guest.ticks (record.tick.toNat : Int), sequence := guest.sequence + 1 }
  obtain ⟨keep, returned⟩ := (emitted_total emitted).1 counted
  have kept : Keeps id (interestingRecord record.kind.toList fields) :=
    keeps_interestingRecord _ _
  have opened : after (guestEvent record.line) guest
      = after (interestingRecord record.kind.toList fields >>= fun interesting => do
          if interesting then
            modify fun state =>
              state.keep ⟨counted.sequence, record.kind.toList, record.tick.toNat, fields⟩
          else pure ()
          observeRecord record.kind.toList fields) counted := by
    rw [emitted.plain.guestEvent_line]
    rfl
  have run : (interestingRecord record.kind.toList fields).run.run counted
      = (.ok keep, counted) :=
    Prod.ext returned (kept counted)
  rw [opened, after_bind, run]
  cases keep with
  | false => exact observeRecord_mirror emitted counted
  | true => exact observeRecord_mirror emitted (counted.keep _)

/-- What the mirror makes of records, one after the other. -/
def Mirror.tellAll (mirror : Mirror) (records : List TraceRecord) : Mirror :=
  records.foldl (fun mirror record => mirror.tell record.telling) mirror

@[simp] theorem Mirror.tellAll_append (mirror : Mirror) (records more : List TraceRecord)
    : mirror.tellAll (records ++ more) = (mirror.tellAll records).tellAll more :=
  List.foldl_append ..

/-- The guest reads the records without an exception. -/
theorem guestEvents_mirror {records : List TraceRecord}
    (emitted : ∀ record ∈ records, record.Emitted) (guest : Guest)
    : ∃ later,
        (guestEvents (records.map TraceRecord.line)).run.run guest = (.ok (), later)
        ∧ later.mirror = guest.mirror.tellAll records := by
  induction records generalizing guest with
  | nil => exact ⟨guest, rfl, rfl⟩
  | cons record rest ih =>
      have here := emitted record List.mem_cons_self
      obtain ⟨interesting, observed⟩ := emitted_total here
      have run := (handleRecord_total interesting observed record.tick.toNat).run guest
      rw [← here.plain.guestEvent_line] at run
      obtain ⟨later, runs, mirrored⟩ :=
        ih (fun other member => emitted other (List.mem_cons_of_mem _ member))
          (after (guestEvent record.line) guest)
      refine ⟨later, ?_, ?_⟩
      · rw [List.map_cons, guestEvents, ExceptT.run_bind, StateT.run_bind, run]
        exact runs
      · rw [mirrored, here.mirror]
        rfl

-----------------------------------------------------------------------------------------
-- Whose entries there are
-----------------------------------------------------------------------------------------

/-- The telling adds entries of some processes and addresses only. -/
def Telling.About (pids : Set Int) (addresses : Set Text) : Telling → Prop
  | .process view => view.pid ∈ pids
  | .map pid view => pid ∈ pids ∧ view.va ∈ addresses
  | .data pid _ => pid ∈ pids
  | .gone _ => False
  | .memory .. | .current _ | .nothing => True

/-- There are entries of some processes and addresses only. -/
structure Mirror.Within (pids : Set Int) (addresses : Set Text) (mirror : Mirror) : Prop where
  processes : ∀ pid, mirror.processes pid ≠ none → pid ∈ pids
  maps : ∀ pid, mirror.maps pid ≠ none → pid ∈ pids
  data : ∀ pid, mirror.data pid ≠ none → pid ∈ pids
  addresses : ∀ pid pages, mirror.maps pid = some pages → ∀ va, pages va ≠ none → va ∈ addresses

namespace Mirror

variable {mirror : Mirror} {pids pids' : Set Int} {addresses : Set Text} {pid : Int}

/-- Adding an entry of a process to those of some processes. -/
theorem update_within {α : Type} {entries : Int → Option α} {entry : Option α}
    (within : ∀ pid, entries pid ≠ none → pid ∈ pids) (added : pid ∈ pids) (other : Int)
    (found : Function.update entries pid entry other ≠ none)
    : other ∈ pids := by
  rcases eq_or_ne other pid with same | different
  · exact same ▸ added
  · rw [Function.update_of_ne different] at found
    exact within other found

theorem Within.mono (within : mirror.Within pids addresses) (more : pids ⊆ pids')
    : mirror.Within pids' addresses :=
  ⟨fun _ found => more (within.processes _ found), fun _ found => more (within.maps _ found),
    fun _ found => more (within.data _ found), within.addresses⟩

/-- What is popped is gone. -/
theorem Within.gone (within : mirror.Within pids addresses) (pid : Int)
    : (mirror.tell (.gone pid)).Within {other | other ∈ pids ∧ other ≠ pid} addresses := by
  have popped {α : Type} {entries : Int → Option α}
      (within : ∀ pid, entries pid ≠ none → pid ∈ pids) (other : Int)
      (found : Function.update entries pid none other ≠ none)
      : other ∈ {other | other ∈ pids ∧ other ≠ pid} := by
    rcases eq_or_ne other pid with same | different
    · subst same
      exact absurd (Function.update_self ..) found
    · rw [Function.update_of_ne different] at found
      exact ⟨within other found, different⟩
  refine ⟨popped within.processes, popped within.maps, popped within.data, ?_⟩
  intro other pages found
  refine within.addresses other pages ?_
  rcases eq_or_ne other pid with same | different
  · subst same
    exact absurd (found.symm.trans (Function.update_self ..)) (by simp)
  · exact (Function.update_of_ne different ..).symm.trans found

/-- A telling about the processes, one case for each kind. -/
theorem Within.tell {telling : Telling} (within : mirror.Within pids addresses)
    (about : telling.About pids addresses)
    : (mirror.tell telling).Within pids addresses := by
  cases telling with
  | process view =>
      exact ⟨update_within within.processes about, within.maps, within.data, within.addresses⟩
  | gone pid => exact about.elim
  | map pid view =>
      refine ⟨within.processes, update_within within.maps about.1, within.data, ?_⟩
      intro other pages found va
      rcases eq_or_ne other pid with same | different
      · subst same
        cases found.symm.trans (Function.update_self ..)
        rcases eq_or_ne va view.va with here | apart
        · exact fun _ => here ▸ about.2
        · rw [Function.update_of_ne apart]
          cases before : mirror.maps other with
          | none => exact fun impossible => absurd rfl impossible
          | some pages => exact within.addresses other pages before va
      · exact within.addresses other pages ((Function.update_of_ne different ..).symm.trans found) va
  | data pid view =>
      exact ⟨within.processes, within.maps, update_within within.data about, within.addresses⟩
  | memory | nothing => exact ⟨within.processes, within.maps, within.data, within.addresses⟩
  | current pid =>
      refine ⟨?_, within.maps, within.data, within.addresses⟩
      intro other found
      exact within.processes other fun none => found (congrArg (Option.map _) none)

/-- Pages stay known until their process is gone. -/
theorem tell_maps {telling : Telling} (known : mirror.maps pid ≠ none)
    (stays : telling ≠ .gone pid)
    : (mirror.tell telling).maps pid ≠ none := by
  cases telling with
  | gone other =>
      have different : pid ≠ other := fun same => stays (same ▸ rfl)
      exact fun none => known ((Function.update_of_ne different ..).symm.trans none)
  | map other view =>
      change Function.update mirror.maps other _ pid ≠ none
      rcases eq_or_ne pid other with same | different
      · subst same
        rw [Function.update_self]
        simp
      · rwa [Function.update_of_ne different]
  | process | data | memory | current | nothing => exact known

theorem Within.tellAll {records : List TraceRecord} (within : mirror.Within pids addresses)
    (about : ∀ record ∈ records, record.telling.About pids addresses)
    : (mirror.tellAll records).Within pids addresses := by
  induction records generalizing mirror with
  | nil => exact within
  | cons record rest ih =>
      exact ih (within.tell (about record List.mem_cons_self))
        fun other member => about other (List.mem_cons_of_mem _ member)

/-- Pages are known after the first of them was told. -/
theorem tellAll_maps {records : List TraceRecord}
    (stays : ∀ record ∈ records, record.telling ≠ .gone pid)
    (known
      : mirror.maps pid ≠ none ∨ ∃ record ∈ records, ∃ view, record.telling = .map pid view)
    : (mirror.tellAll records).maps pid ≠ none := by
  induction records generalizing mirror with
  | nil =>
      rcases known with known | ⟨_, impossible, _⟩
      · exact known
      · cases impossible
  | cons record rest ih =>
      refine ih (fun other member => stays other (List.mem_cons_of_mem _ member)) ?_
      rcases known with known | ⟨other, member, view, told⟩
      · exact Or.inl (tell_maps known (stays record List.mem_cons_self))
      · rcases List.mem_cons.mp member with here | later
        · subst here
          left
          change (mirror.tell other.telling).maps pid ≠ none
          rw [told]
          change Function.update mirror.maps pid _ pid ≠ none
          rw [Function.update_self]
          simp
        · exact Or.inr ⟨other, later, view, told⟩

end Mirror

end MiniLinux
