import MiniLinux.Laboratory.Tracing
import MiniLinux.Observer.EventLog
import MiniLinux.Observer.TraceText

/-! The host reads back every trace record that the kernel writes, however the bytes of COM2
are cut into chunks.
-/

namespace MiniLinux

open Foundation

theorem TraceRecord.Emitted.kind_mem {record : TraceRecord} (emitted : record.Emitted)
    : record.kind ∈ ["boot", "process", "memory", "map", "data", "snapshot", "snapshot-end",
        "spawn", "schedule", "exit", "wait", "fault", "syscall"] := by
  cases emitted <;> simp

theorem TraceRecord.Emitted.plain {record : TraceRecord} (emitted : record.Emitted)
    : record.Plain := by
  have kinds : ∀ kind ∈ ["boot", "process", "memory", "map", "data", "snapshot", "snapshot-end",
      "spawn", "schedule", "exit", "wait", "fault", "syscall"],
      PlainText kind.toList := by
    decide
  refine ⟨kinds _ emitted.kind_mem, ?_⟩
  intro text member
  cases emitted with
  | map _ _ _ _ _ name known =>
      have names : ∀ name ∈ ["code", "data", "stack"],
          PlainText name.toList := by
        decide
      have same : text = name := by simpa using member
      exact same ▸ names name known
  | boot =>
      have fields : ∀ text ∈ ["LAB", "x86_64", "100", "8"],
          PlainText text.toList := by
        decide
      exact fields text (by simpa using member)
  | syscall _ _ _ _ _ _ _ result signed =>
      have same : .text text = result := by simpa using member
      exact absurd same.symm (signed text)
  | process | memory | data | snapshot | snapshotEnd | spawn | schedule | exit | wait | fault =>
      simp at member

/-- The name of a program in the host's table. -/
def Program.name (program : Program) : Text := programNames.getD program.number.toNat []

/-- The name of a state in the host's table. -/
def ProcessState.name (state : ProcessState) : Text := stateNames.getD state.number.toNat []

namespace GuestM

variable {α β : Type}

/-- A method that never raises. -/
def Total (program : GuestM α) : Prop := ∀ guest, ∃ value, (program.run.run guest).1 = .ok value

theorem total_pure (value : α) : Total (pure value : GuestM α) := fun _ => ⟨value, rfl⟩

theorem total_modify (update : Guest → Guest) : Total (modify update : GuestM Unit) :=
  fun _ => ⟨(), rfl⟩

/-- What a method that never raises does. -/
theorem Total.run {program : GuestM Unit} (total : Total program) (guest : Guest)
    : program.run.run guest = (.ok (), after program guest) := by
  obtain ⟨value, returned⟩ := total guest
  exact Prod.ext returned rfl

theorem Total.bind {program : GuestM α} {next : α → GuestM β} (first : Total program)
    (second : ∀ value, Total (next value))
    : Total (program >>= next) := by
  intro guest
  obtain ⟨value, returned⟩ := first guest
  rcases run : program.run.run guest with ⟨result, guest'⟩
  rw [run] at returned
  cases returned
  obtain ⟨value', returned'⟩ := second value guest'
  refine ⟨value', ?_⟩
  rw [ExceptT.run_bind, StateT.run_bind, run]
  exact returned'

theorem total_ite {condition : Prop} [Decidable condition] {yes no : GuestM α} (first : Total yes)
    (second : Total no)
    : Total (if condition then yes else no) := by
  split
  · exact first
  · exact second

@[simp] theorem pyToInt_number (value : U64)
    : pyToInt (TraceField.number value).written = pure (value.toNat : Int) := by
  rw [pyToInt, TraceField.written, pyInt_toDigits]

@[simp] theorem pyIndex_program (program : Program)
    : pyIndex programNames (program.number.toNat : Int) = pure program.name := by
  cases program <;> rfl

@[simp] theorem pyIndex_state (state : ProcessState)
    : pyIndex stateNames (state.number.toNat : Int) = pure state.name := by
  cases state <;> rfl

@[simp] theorem pyItem_zero (item : α) (rest : List α) : pyItem (item :: rest) 0 = pure item := rfl

@[simp] theorem pyItem_succ (item : α) (rest : List α) (index : Nat)
    : pyItem (item :: rest) (index + 1) = pyItem rest index :=
  rfl

/-- The numbered process is the running one. -/
theorem observeCurrent_total {fields : List Text} {index : Nat} {value : U64}
    (field : pyItem fields index = pure (TraceField.number value).written)
    : Total (observeCurrent fields index) := by
  refine Total.bind (fun _ => ⟨_, rfl⟩) fun guest => ?_
  apply total_ite (total_pure _)
  rw [field, pure_bind, pyToInt_number, pure_bind]
  exact total_modify _

/-- The kinds of records that tell nothing of the kernel's state. -/
theorem observeRecord_silent {kind : Text}
    (silent
      : kind ∉ ["process", "map", "data", "memory", "schedule", "syscall"].map String.toList)
    (fields : List Text)
    : observeRecord kind fields = pure () := by
  simp only [List.map_cons, List.map_nil, List.mem_cons, List.not_mem_nil, or_false,
    not_or] at silent
  obtain ⟨process, map, data, memory, schedule, syscall⟩ := silent
  unfold observeRecord
  rw [if_neg process, if_neg map, if_neg data, if_neg memory, if_neg schedule, if_neg syscall]

/-- No record that the kernel emits makes the host raise. -/
theorem emitted_total {record : TraceRecord} (emitted : record.Emitted)
    : Total (interestingRecord record.kind.toList (record.fields.map TraceField.written))
      ∧ Total (observeRecord record.kind.toList (record.fields.map TraceField.written)) := by
  have plain {kind : Text} {fields : List Text} (memory : kind ≠ "memory".toList)
      (data : kind ≠ "data".toList)
      : Total (interestingRecord kind fields) := by
    refine Total.bind (fun _ => ⟨_, rfl⟩) fun guest => ?_
    rw [if_neg memory, if_neg data]
    exact total_pure _
  have unobserved {kind : Text} {fields : List Text}
      (silent
        : kind ∉ ["process", "map", "data", "memory", "schedule", "syscall"].map String.toList)
      : Total (observeRecord kind fields) := by
    rw [observeRecord_silent silent]
    exact total_pure _
  cases emitted with
  | boot | snapshot | snapshotEnd | spawn | exit | wait | fault =>
      dsimp only
      exact ⟨plain (by decide) (by decide), unobserved (by decide)⟩
  | process tick id parent program state root slices current =>
      dsimp only
      refine ⟨plain (by decide) (by decide), ?_⟩
      change Total (observeProcess _)
      simp only [observeProcess, pyInts, List.map_cons, List.map_nil, List.take_succ_cons,
        List.take_zero, List.mapM_cons, List.mapM_nil, pyToInt_number, pure_bind,
        List.length_cons, List.length_nil, if_true, pyItem_zero, pyItem_succ, pyIndex_program,
        pyIndex_state]
      exact total_ite (total_modify _) (total_modify _)
  | map tick id va pa flags name known =>
      dsimp only
      refine ⟨plain (by decide) (by decide), ?_⟩
      change Total (observeMap _)
      simp only [observeMap, List.map_cons, List.map_nil, pyItem_zero, pyItem_succ, pure_bind,
        pyToInt_number]
      exact total_modify _
  | data tick id va pa marker =>
      dsimp only
      constructor
      · refine Total.bind (fun _ => ⟨_, rfl⟩) fun guest => ?_
        rw [if_neg (by decide), if_pos (by decide)]
        simp only [List.map_cons, List.map_nil, pyItem_zero, pyItem_succ, pure_bind,
          pyToInt_number]
        split
        · exact total_pure _
        · exact total_ite (total_pure _) (total_pure _)
      · change Total (observeData _)
        simp only [observeData, List.map_cons, List.map_nil, pyItem_zero, pyItem_succ, pure_bind,
          pyToInt_number]
        exact total_modify _
  | memory tick frames free =>
      dsimp only
      constructor
      · refine Total.bind (fun _ => ⟨_, rfl⟩) fun guest => ?_
        rw [if_pos (by decide)]
        simp only [List.map_cons, List.map_nil, pyItem_zero, pyItem_succ, pure_bind,
          pyToInt_number]
        exact total_pure _
      · change Total (observeMemory _)
        simp only [observeMemory, pyInts, List.map_cons, List.map_nil, List.take_succ_cons,
          List.take_zero, List.mapM_cons, List.mapM_nil, pyToInt_number, pure_bind,
          List.length_cons, List.length_nil, if_true]
        exact total_modify _
  | schedule tick old new root level =>
      dsimp only
      exact ⟨plain (by decide) (by decide), observeCurrent_total rfl⟩
  | syscall tick id number rdi rsi rdx level result signed =>
      dsimp only
      exact ⟨plain (by decide) (by decide), observeCurrent_total rfl⟩

end GuestM

open GuestM

namespace TraceRecord

/-- The event that the host makes of a record. -/
def event (record : TraceRecord) (id : Nat) : GuestEvent :=
  ⟨id, record.kind.toList, record.tick.toNat, record.fields.map TraceField.written⟩

/-- The events of several records, numbered after `sequence`. -/
def events (sequence : Nat) : List TraceRecord → List GuestEvent
  | [] => []
  | record :: rest => record.event (sequence + 1) :: events (sequence + 1) rest

/-- The events are numbered one after another. -/
theorem events_ids (sequence : Nat) (records : List TraceRecord)
    : (events sequence records).map GuestEvent.id
      = List.range' (sequence + 1) records.length := by
  induction records generalizing sequence with
  | nil => rfl
  | cons record rest ih =>
      rw [events, List.map_cons, ih, List.length_cons, List.range'_succ]
      rfl

/-- An event says what its record says. -/
structure Says (record : TraceRecord) (event : GuestEvent) : Prop where
  kind : event.kind = record.kind.toList
  tick : event.tick = record.tick.toNat
  fields : List.Forall₂ TraceField.ReadsAs record.fields event.fields

/-- There is one event for each record, in order. -/
theorem events_say (sequence : Nat) (records : List TraceRecord)
    : List.Forall₂ Says records (events sequence records) := by
  induction records generalizing sequence with
  | nil => exact .nil
  | cons record rest ih =>
      refine .cons ⟨rfl, rfl, ?_⟩ (ih _)
      rw [event, List.forall₂_map_right_iff]
      exact List.forall₂_same.mpr fun field _ => field.readsAs_written

/-- The line of a record is handled with the values of its fields. -/
theorem Plain.guestEvent_line {record : TraceRecord} (plain : record.Plain)
    : guestEvent record.line
      = handleRecord record.kind.toList record.tick.toNat
          (record.fields.map TraceField.written) := by
  unfold guestEvent
  rw [plain.lineParts_eq]
  simp only [TraceRecord.parts, ne_eq, not_true_eq_false, if_false]
  have tick : pyToInt (Nat.toDigits 10 record.tick.toNat) = pure (record.tick.toNat : Int) :=
    pyToInt_number record.tick
  rw [tick, pure_bind]

end TraceRecord

theorem handleRecord_total {kind : Text} {fields : List Text}
    (interesting : Total (interestingRecord kind fields)) (observed : Total (observeRecord kind fields))
    (tick : Int)
    : Total (handleRecord kind tick fields) := by
  refine (total_modify _).bind fun _ => Total.bind (fun _ => ⟨_, rfl⟩) fun guest => ?_
  refine interesting.bind fun keep => ?_
  cases keep with
  | false => exact observed
  | true => exact (total_modify _).bind fun _ => observed

/-- A kind that is always kept appends its event. -/
theorem handleRecord_kept {kind : Text} (kept : kind ∈ interestingKinds) (guest : Guest) (tick : Int)
    (fields : List Text)
    : (after (handleRecord kind tick fields) guest).log
      = ⟨keepLast eventLimit (guest.events ++ [⟨guest.sequence + 1, kind, tick, fields⟩]),
          guest.sequence + 1⟩ := by
  have apart : kind ≠ "memory".toList ∧ kind ≠ "data".toList := by
    constructor
    all_goals
      intro same
      rw [same] at kept
      exact absurd kept (by decide)
  let counted : Guest :=
    { guest with ticks := max guest.ticks tick, sequence := guest.sequence + 1 }
  have interesting : (interestingRecord kind fields).run.run counted = (.ok true, counted) := by
    have reduced : interestingRecord kind fields
        = (get : GuestM Guest) >>= fun _ => pure true := by
      unfold interestingRecord
      simp only [if_neg apart.1, if_neg apart.2, kept, decide_true]
    rw [reduced]
    rfl
  have opened : after (handleRecord kind tick fields) guest
      = after (interestingRecord kind fields >>= fun interesting => do
          if interesting then
            modify fun state => state.keep ⟨counted.sequence, kind, tick, fields⟩
          else pure ()
          observeRecord kind fields) counted := rfl
  rw [opened, after_bind, interesting]
  exact keepsLog_observeRecord kind fields (counted.keep ⟨counted.sequence, kind, tick, fields⟩)

/-- What records leave in the guest: it has counted them all, and has kept some of their
events, among them all of the kinds that are always kept.
-/
structure Guest.Heard (guest later : Guest) (records : List TraceRecord) : Prop where
  logged : later.Logged
  sequence : later.sequence = guest.sequence + records.length
  kept
    : ∃ kept,
        kept.Sublist (TraceRecord.events guest.sequence records)
        ∧ (∀ event ∈ TraceRecord.events guest.sequence records,
            event.kind ∈ interestingKinds → event ∈ kept)
        ∧ later.events = keepLast eventLimit (guest.events ++ kept)

theorem TraceRecord.Emitted.heard {record : TraceRecord} (emitted : record.Emitted) {guest : Guest}
    (logged : guest.Logged)
    : (guestEvent record.line).run.run guest = (.ok (), after (guestEvent record.line) guest)
      ∧ guest.Heard (after (guestEvent record.line) guest) [record] := by
  have line := emitted.plain.guestEvent_line
  have logged' := (logged.guestEvent record.line).1
  obtain ⟨interesting, observed⟩ := emitted_total emitted
  rw [line] at logged' ⊢
  refine ⟨(handleRecord_total interesting observed _).run guest, ?_⟩
  by_cases always : record.kind.toList ∈ interestingKinds
  · obtain ⟨events, sequence⟩ := BoundedLog.mk.inj (handleRecord_kept always guest _ _)
    exact ⟨logged', sequence, [record.event (guest.sequence + 1)], .refl _,
      fun _ member _ => member, events⟩
  · have never : ∀ event ∈ TraceRecord.events guest.sequence [record],
        event.kind ∉ interestingKinds := by
      intro event member
      rw [List.mem_singleton.mp member]
      exact always
    rcases handleRecord_log guest record.kind.toList record.tick.toNat
        (record.fields.map TraceField.written) with counted | kept
    · obtain ⟨events, sequence⟩ := BoundedLog.mk.inj counted
      refine ⟨logged', sequence, [], List.nil_sublist _,
        fun event member kind => absurd kind (never event member), ?_⟩
      rw [List.append_nil, keepLast_of_short logged.short]
      exact events
    · obtain ⟨events, sequence⟩ := BoundedLog.mk.inj kept
      exact ⟨logged', sequence, [record.event (guest.sequence + 1)], .refl _,
        fun _ member _ => member, events⟩

theorem Guest.Heard.refl {guest : Guest} (logged : guest.Logged) : guest.Heard guest [] where
  logged := logged
  sequence := rfl
  kept := ⟨[], .refl _, fun _ member _ => member, by
    rw [List.append_nil, keepLast_of_short logged.short]⟩

theorem TraceRecord.events_append (sequence : Nat) (records more : List TraceRecord)
    : events sequence (records ++ more)
      = events sequence records ++ events (sequence + records.length) more := by
  induction records generalizing sequence with
  | nil => rfl
  | cons record rest ih =>
      rw [List.cons_append, events, ih, events, List.cons_append, List.length_cons]
      congr 3
      omega

theorem Guest.Heard.trans {guest middle later : Guest} {records more : List TraceRecord}
    (first : guest.Heard middle records) (second : middle.Heard later more)
    : guest.Heard later (records ++ more) := by
  obtain ⟨kept, part, always, events⟩ := first.kept
  obtain ⟨kept', part', always', events'⟩ := second.kept
  have numbers := TraceRecord.events_append guest.sequence records more
  rw [← first.sequence] at numbers
  refine ⟨second.logged, ?_, kept ++ kept', ?_, ?_, ?_⟩
  · rw [second.sequence, first.sequence, List.length_append, Nat.add_assoc]
  · rw [numbers]
    exact part.append part'
  · rw [numbers]
    intro event member kind
    rcases List.mem_append.mp member with member | member
    · exact List.mem_append_left _ (always event member kind)
    · exact List.mem_append_right _ (always' event member kind)
  · rw [events', events, keepLast_append_left, List.append_assoc]

/-- All records are heard. Witness: induction on the records. -/
theorem guestEvents_heard {records : List TraceRecord}
    (emitted : ∀ record ∈ records, record.Emitted) {guest : Guest} (logged : guest.Logged)
    : ∃ later,
        (guestEvents (records.map TraceRecord.line)).run.run guest = (.ok (), later)
        ∧ guest.Heard later records := by
  induction records generalizing guest with
  | nil => exact ⟨guest, rfl, .refl logged⟩
  | cons record rest ih =>
      obtain ⟨run, heard⟩ := (emitted record List.mem_cons_self).heard logged
      obtain ⟨later, runs, heards⟩ :=
        ih (fun other member => emitted other (List.mem_cons_of_mem _ member)) heard.logged
      refine ⟨later, ?_, heard.trans heards⟩
      rw [List.map_cons, guestEvents, ExceptT.run_bind, StateT.run_bind, run]
      exact runs

/-- The joined parts are no longer than the parts with one tab each. -/
theorem intercalate_length_le {bound : Nat} {parts : List Text}
    (short : ∀ part ∈ parts, part.length ≤ bound)
    : (['\t'].intercalate parts).length ≤ parts.length * (bound + 1) := by
  induction parts with
  | nil => simp [List.intercalate]
  | cons first rest ih =>
      have here := short first List.mem_cons_self
      have later := ih fun part member => short part (List.mem_cons_of_mem _ member)
      cases rest with
      | nil =>
          simp only [List.intercalate_singleton, List.length_cons, List.length_nil]
          omega
      | cons second rest =>
          rw [List.intercalate_cons_cons]
          simp only [List.length_append, List.length_cons, List.length_nil] at later ⊢
          rw [Nat.succ_mul]
          omega

/-- A record has few parts, and none is longer than a number with its sign. -/
theorem TraceRecord.Emitted.short {record : TraceRecord} (emitted : record.Emitted)
    : record.line.length < 4096 := by
  have number : ∀ value : U64, (Nat.toDigits 10 value.toNat).length ≤ 20 := fun value =>
    Nat.toDigits_length _ _ _ (by decide) (lt_trans value.isLt (by decide))
  have texts : ∀ text, .text text ∈ record.fields → text.toList.length ≤ 21 := by
    intro text member
    cases emitted with
    | boot =>
        have fields : ∀ text ∈ ["LAB", "x86_64", "100", "8"], text.toList.length ≤ 21 := by
          decide
        exact fields text (by simpa using member)
    | map _ _ _ _ _ name known =>
        have names : ∀ name ∈ ["code", "data", "stack"], name.toList.length ≤ 21 := by
          decide
        have same : text = name := by simpa using member
        exact same ▸ names name known
    | syscall _ _ _ _ _ _ _ result signed =>
        have same : .text text = result := by simpa using member
        exact absurd same.symm (signed text)
    | process | memory | data | snapshot | snapshotEnd | spawn | schedule | exit | wait | fault =>
        simp at member
  have kinds : ∀ kind ∈ ["boot", "process", "memory", "map", "data", "snapshot", "snapshot-end",
      "spawn", "schedule", "exit", "wait", "fault", "syscall"], kind.toList.length ≤ 21 := by
    decide
  have parts : ∀ part ∈ record.parts, part.length ≤ 21 := by
    intro part member
    simp only [TraceRecord.parts, List.mem_cons, List.mem_map] at member
    rcases member with mark | kind | tick | ⟨field, member, written⟩
    · exact mark ▸ (by decide)
    · exact kind ▸ kinds _ emitted.kind_mem
    · exact tick ▸ Nat.le_succ_of_le (number _)
    · subst written
      cases field with
      | number value => exact Nat.le_succ_of_le (number value)
      | hex value => simp [TraceField.written]
      | negative value => exact Nat.succ_le_succ (number value)
      | text text => exact texts text member
  have count : record.parts.length ≤ 10 := by
    cases emitted <;> simp [TraceRecord.parts]
  have length := intercalate_length_le parts
  unfold TraceRecord.line
  omega

/-- What has arrived of a stream of lines is read without an exception, and the rest is
shorter than a line. Witness: induction on the chunks; every cut leaves a first part of the
remaining lines.
-/
theorem readTraceChunks_spec {records : List TraceRecord}
    (emitted : ∀ record ∈ records, record.Emitted) {pending : Text} {chunks : List (List Byte)}
    (arrived
      : pending ++ decodeAscii chunks.flatten
        <+: joinLines '\n' (records.map TraceRecord.line))
    (unended : '\n' ∉ pending) {guest : Guest} (logged : guest.Logged)
    : ∃ heard rest later,
        heard <+: records
        ∧ pending ++ decodeAscii chunks.flatten
          = joinLines '\n' (heard.map TraceRecord.line) ++ rest
        ∧ '\n' ∉ rest
        ∧ rest.length < 4096
        ∧ (readTraceChunks pending chunks).run.run guest = (.ok rest, later)
        ∧ guest.Heard later heard := by
  have whole {records : List TraceRecord} (emitted : ∀ record ∈ records, record.Emitted)
      : ∀ line ∈ records.map TraceRecord.line, '\n' ∉ line := by
    intro line member
    obtain ⟨record, known, same⟩ := List.mem_map.mp member
    exact same ▸ (emitted record known).plain.line '\n' (by decide) (by decide)
  have few {records : List TraceRecord} (emitted : ∀ record ∈ records, record.Emitted) {rest : Text}
      (begins : rest = [] ∨ ∃ line ∈ records.map TraceRecord.line, rest <+: line)
      : rest.length < 4096 := by
    rcases begins with empty | ⟨line, member, begins⟩
    · subst empty
      decide
    · obtain ⟨record, known, same⟩ := List.mem_map.mp member
      have bound := (emitted record known).short
      rw [same] at bound
      exact Nat.lt_of_le_of_lt begins.length_le bound
  induction chunks generalizing pending records guest with
  | nil =>
      rw [List.flatten_nil, show decodeAscii [] = [] from rfl, List.append_nil] at arrived ⊢
      have begins := (splitLines_begins (whole emitted) arrived).2
      rw [splitLines_open unended] at begins
      exact ⟨[], pending, guest, List.nil_prefix, rfl, unended, few emitted begins, rfl,
        .refl logged⟩
  | cons chunk chunks ih =>
      have stream : pending ++ decodeAscii (chunk :: chunks).flatten
          = (pending ++ decodeAscii chunk) ++ decodeAscii chunks.flatten := by
        rw [List.flatten_cons, decodeAscii_append, List.append_assoc]
      obtain ⟨same, _, unended'⟩ :=
        @splitLines_spec _ _ '\n' (pending ++ decodeAscii chunk)
      have first : pending ++ decodeAscii chunk
          <+: joinLines '\n' (records.map TraceRecord.line) :=
        (List.prefix_append _ _).trans (stream ▸ arrived)
      obtain ⟨⟨more, lines⟩, begins⟩ := splitLines_begins (whole emitted) first
      have bound := few emitted begins
      obtain ⟨done, todo, rfl, done_eq, todo_eq⟩ := List.map_eq_append_iff.mp lines.symm
      have emitted_done : ∀ record ∈ done, record.Emitted := fun record member =>
        emitted record (List.mem_append_left _ member)
      have emitted_todo : ∀ record ∈ todo, record.Emitted := fun record member =>
        emitted record (List.mem_append_right _ member)
      obtain ⟨middle, run, heard⟩ := guestEvents_heard emitted_done logged
      rw [done_eq] at run
      have read : (readTrace pending chunk).run.run guest
          = (.ok (splitLines '\n' (pending ++ decodeAscii chunk)).2, middle) := by
        rw [readTrace, ExceptT.run_bind, StateT.run_bind, run, if_neg (by omega)]
        rfl
      rw [← done_eq] at same
      generalize (splitLines '\n' (pending ++ decodeAscii chunk)).2 = rest at *
      rw [stream, same, List.append_assoc] at arrived ⊢
      rw [List.map_append, joinLines_append, List.prefix_append_right_inj] at arrived
      obtain ⟨heard', rest', later, part, same', unended'', bound', runs, heards⟩ :=
        ih emitted_todo arrived unended' heard.logged
      refine ⟨done ++ heard', rest', later, ?_, ?_, unended'', bound', ?_, heard.trans heards⟩
      · exact (List.prefix_append_right_inj done).mpr part
      · rw [same', List.map_append, joinLines_append, List.append_assoc]
      · rw [readTraceChunks, ExceptT.run_bind, StateT.run_bind, read]
        exact runs

/-- The stream is the lines of its records. -/
theorem decode_traceStream {records : List TraceRecord}
    (emitted : ∀ record ∈ records, record.Emitted)
    : decodeAscii (traceStream records) = joinLines '\n' (records.map TraceRecord.line) := by
  induction records with
  | nil => rfl
  | cons record rest ih =>
      have later := ih fun other member => emitted other (List.mem_cons_of_mem _ member)
      have first := (emitted record List.mem_cons_self).plain.decode_bytes
      rw [traceStream] at later
      rw [traceStream, List.flatMap_cons, decodeAscii_append, first, later, List.map_cons]
      rfl

/-- A stream that was read whole leaves nothing: each record was a line. -/
theorem heard_all {records heard : List TraceRecord} {rest : Text}
    (emitted : ∀ record ∈ records, record.Emitted) (part : heard <+: records)
    (unended : '\n' ∉ rest)
    (same
      : joinLines '\n' (records.map TraceRecord.line)
        = joinLines '\n' (heard.map TraceRecord.line) ++ rest)
    : heard = records ∧ rest = [] := by
  obtain ⟨more, whole⟩ := part
  subst whole
  rw [List.map_append, joinLines_append, List.append_cancel_left_eq] at same
  cases more with
  | nil => exact ⟨(List.append_nil heard).symm, same.symm⟩
  | cons record more =>
      refine absurd ?_ unended
      rw [← same, List.map_cons]
      simp [joinLines]

/-- Every record that a run of the kernel writes to COM2 reaches the host, however the bytes are
cut into chunks. At any moment, with any of the stream arrived, nothing was raised, fewer than
4096 characters wait, and each record that arrived whole was handled once, in order, with its
kind, its tick and the values of its fields, under consecutive numbers. The guest keeps the
events of the kinds that are always kept.
-/
theorem trace_round_trip
    : (∀ {image : List Byte} {info : BootInfo} {lab : Lab},
        Reachable image info lab → ∀ record ∈ lab.console.trace, record.Emitted)
      ∧ ∀ {records : List TraceRecord} {chunks : List (List Byte)} {guest : Guest},
          (∀ record ∈ records, record.Emitted)
          → chunks.flatten <+: traceStream records
          → guest.Logged
          → ∃ heard pending later,
              (readTraceChunks [] chunks).run.run guest = (.ok pending, later)
              ∧ pending.length < 4096
              ∧ heard <+: records
              ∧ decodeAscii chunks.flatten = decodeAscii (traceStream heard) ++ pending
              ∧ (chunks.flatten = traceStream records → heard = records ∧ pending = [])
              ∧ (∀ record ∈ heard,
                  guestEvent record.line
                  = handleRecord record.kind.toList record.tick.toNat
                      (record.fields.map TraceField.written))
              ∧ guest.Heard later heard
              ∧ List.Forall₂ TraceRecord.Says heard (TraceRecord.events guest.sequence heard)
              ∧ (TraceRecord.events guest.sequence heard).map GuestEvent.id
                = List.range' (guest.sequence + 1) heard.length := by
  refine ⟨fun reached => reached.trace_emitted, ?_⟩
  intro records chunks guest emitted arrived logged
  have stream := decode_traceStream emitted
  have begins : [] ++ decodeAscii chunks.flatten
      <+: joinLines '\n' (records.map TraceRecord.line) := by
    rw [List.nil_append, ← stream]
    exact arrived.map _
  obtain ⟨heard, pending, later, part, same, unended, bound, run, heards⟩ :=
    readTraceChunks_spec emitted begins List.not_mem_nil logged
  have emitted' : ∀ record ∈ heard, record.Emitted := fun record member =>
    emitted record (part.subset member)
  rw [List.nil_append] at same
  refine ⟨heard, pending, later, run, bound, part, ?_, ?_, ?_, heards,
    TraceRecord.events_say _ _, TraceRecord.events_ids _ _⟩
  · rw [same, decode_traceStream emitted']
  · intro whole
    rw [whole, stream] at same
    exact heard_all emitted part unended same
  · exact fun record member => (emitted' record member).plain.guestEvent_line

/-- A `snapshot` record is numbered and not kept, so the list of events has not one for each
record.
-/
theorem snapshot_records_no_event
    : TraceRecord.Emitted ⟨"snapshot", 0, []⟩
      ∧ ∃ later,
          (readTraceChunks [] [traceStream [⟨"snapshot", 0, []⟩]]).run.run Guest.fresh
            = (.ok [], later)
          ∧ later.sequence = 1
          ∧ later.events = [] := by
  refine ⟨.snapshot 0, _, rfl, rfl, rfl⟩

def spawnAndExit : List TraceRecord :=
  [⟨"spawn", 12, [.number 3, .number 1, .number 4]⟩, ⟨"exit", 12, [.number 3, .number 9]⟩]

/-- The two records in three chunks, cut inside a number and inside a name. -/
def spawnAndExitChunks : List (List Byte) :=
  [textBytes "ML\tspawn\t1", textBytes "2\t3\t1\t4\nML\tex", textBytes "it\t12\t3\t9\n"]

theorem trace_round_trip_on_sample
    : ∃ later,
        (readTraceChunks [] spawnAndExitChunks).run.run Guest.fresh = (.ok [], later)
        ∧ later.sequence = 2
        ∧ later.Logged := by
  have emitted : ∀ record ∈ spawnAndExit, record.Emitted := by
    intro record member
    rcases List.mem_pair.mp member with spawn | exit
    · exact spawn ▸ .spawn 12 3 1 4
    · exact exit ▸ .exit 12 3 9
  have whole : spawnAndExitChunks.flatten = traceStream spawnAndExit := by decide
  have arrived : spawnAndExitChunks.flatten <+: traceStream spawnAndExit := by rw [whole]
  obtain ⟨heard, pending, later, run, _, _, _, all, _, heards, _⟩ :=
    trace_round_trip.2 emitted arrived Guest.Logged.fresh
  obtain ⟨same, empty⟩ := all whole
  subst same empty
  exact ⟨later, run, heards.sequence, heards.logged⟩

end MiniLinux
