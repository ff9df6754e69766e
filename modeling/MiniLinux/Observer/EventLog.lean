import MiniLinux.Observer.Guest

/-! The events of the guest as a bounded log.
Every record, kept or not and even one that makes the reader raise, leaves a log that
extends the one before it.
-/

namespace MiniLinux

open Foundation

/-- The kept events with the count of all records. -/
def Guest.log (guest : Guest) : BoundedLog GuestEvent := ⟨guest.events, guest.sequence⟩

/-- The later guest has only seen more records. -/
def Guest.Follows (guest later : Guest) : Prop :=
  guest.log.Extends eventLimit GuestEvent.id later.log

/-- The console is no part of the log. -/
theorem Guest.readConsole_log (guest : Guest) (chunk : List Byte)
    : (guest.readConsole chunk).log = guest.log := by
  unfold readConsole
  dsimp only
  split <;> exact congrArg₂ BoundedLog.mk rfl rfl

theorem Guest.readerEnds_log (guest : Guest) (caught : Text)
    : (guest.readerEnds caught).log = guest.log := by
  unfold readerEnds
  dsimp only
  split_ifs <;> exact congrArg₂ BoundedLog.mk rfl rfl

/-- The guest's log is one that records can produce. -/
structure Guest.Logged (guest : Guest) : Prop where
  short : guest.events.length ≤ eventLimit
  numbered : ∀ event ∈ guest.events, 0 < event.id ∧ event.id ≤ guest.sequence
  ordered : guest.events.Pairwise fun event later => event.id < later.id

theorem Guest.Logged.fresh : Guest.fresh.Logged where
  short := Nat.zero_le _
  numbered _ member := absurd member List.not_mem_nil
  ordered := .nil

theorem Guest.Logged.follows_self {guest : Guest} (logged : guest.Logged) : guest.Follows guest :=
  .refl logged.short fun event member => (logged.numbered event member).2

/-- Any log extends the empty one. -/
theorem Guest.Logged.extends_empty {guest : Guest} (logged : guest.Logged)
    : BoundedLog.empty.Extends eventLimit GuestEvent.id guest.log where
  old _ member := absurd member List.not_mem_nil
  grew := ⟨guest.events, (keepLast_of_short logged.short).symm, logged.numbered⟩
  count := Nat.zero_le _

theorem Guest.Logged.congr {guest guest' : Guest} (logged : guest.Logged)
    (same : guest'.log = guest.log)
    : guest'.Logged := by
  obtain ⟨events, sequence⟩ := BoundedLog.mk.inj same
  exact ⟨events ▸ logged.short, events ▸ sequence ▸ logged.numbered, events ▸ logged.ordered⟩

namespace GuestM

variable {α β γ : Type} {view : Guest → γ}

/-- The guest that a method leaves, whether it returns or raises. -/
def after (program : GuestM α) (guest : Guest) : Guest := (program.run.run guest).2

/-- A method that leaves a view of the guest alone. -/
def Keeps (view : Guest → γ) (program : GuestM α) : Prop :=
  ∀ guest, view (after program guest) = view guest

/-- A method that leaves the log alone. -/
def KeepsLog (program : GuestM α) : Prop := ∀ guest, (after program guest).log = guest.log

/-- A view that does not show what records tell of the kernel's state. -/
def Unobserved (view : Guest → γ) : Prop :=
  ∀ guest processes maps data frames free,
    view { guest with processes, maps, data, frames, free } = view guest

theorem keeps_pure (value : α) : Keeps view (pure value : GuestM α) := fun _ => rfl

theorem keeps_throw (error : PyError) : Keeps view (throw error : GuestM α) := fun _ => rfl

theorem keeps_get : Keeps view (get : GuestM Guest) := fun _ => rfl

theorem keeps_modify {update : Guest → Guest} (same : ∀ guest, view (update guest) = view guest)
    : Keeps view (modify update : GuestM Unit) :=
  same

/-- A method that raises leaves the guest of its first part, any other that of its second. -/
theorem after_bind (program : GuestM α) (next : α → GuestM β) (guest : Guest)
    : after (program >>= next) guest
      = match program.run.run guest with
        | (.ok value, guest') => after (next value) guest'
        | (.error _, guest') => guest' := by
  unfold after
  rw [ExceptT.run_bind, StateT.run_bind]
  obtain ⟨result, guest'⟩ := program.run.run guest
  cases result <;> rfl

theorem Keeps.bind {program : GuestM α} {next : α → GuestM β} (first : Keeps view program)
    (second : ∀ value, Keeps view (next value))
    : Keeps view (program >>= next) := by
  intro guest
  have kept := first guest
  rw [after_bind]
  unfold after at kept
  rcases run : program.run.run guest with ⟨result, guest'⟩
  rw [run] at kept
  cases result with
  | ok value => exact (second value guest').trans kept
  | error _ => exact kept

theorem keeps_pyItem (items : List α) (index : Nat) : Keeps view (pyItem items index) := by
  unfold pyItem
  split
  · exact keeps_pure _
  · exact keeps_throw _

theorem keeps_pyIndex (items : List α) (index : Int) : Keeps view (pyIndex items index) := by
  unfold pyIndex
  split
  · exact keeps_pyItem _ _
  · split
    · exact keeps_pyItem _ _
    · exact keeps_throw _

theorem keeps_pyToInt (text : Text) : Keeps view (pyToInt text) := by
  unfold pyToInt
  split
  · exact keeps_pure _
  · exact keeps_throw _

theorem keeps_mapM {action : α → GuestM β} (each : ∀ item, Keeps view (action item))
    (items : List α)
    : Keeps view (items.mapM action) := by
  induction items with
  | nil => exact keeps_pure _
  | cons item rest ih =>
      rw [List.mapM_cons]
      exact (each item).bind fun _ => ih.bind fun _ => keeps_pure _

theorem keeps_pyInts (count : Nat) (fields : List Text) : Keeps view (pyInts count fields) := by
  refine (keeps_mapM keeps_pyToInt _).bind fun values => ?_
  split
  · exact keeps_pure _
  · exact keeps_throw _

/-- Reading an integer field. -/
theorem keeps_field (fields : List Text) (index : Nat) {next : Int → GuestM β}
    (rest : ∀ value, Keeps view (next value))
    : Keeps view (pyItem fields index >>= fun text => pyToInt text >>= next) :=
  (keeps_pyItem _ _).bind fun _ => (keeps_pyToInt _).bind rest

theorem keeps_observeProcess (blind : Unobserved view) (fields : List Text)
    : Keeps view (observeProcess fields) := by
  refine (keeps_pyInts _ _).bind fun values => ?_
  split
  · split
    · exact keeps_modify fun guest => blind guest _ _ _ _ _
    · refine (keeps_pyIndex _ _).bind fun _ => (keeps_pyIndex _ _).bind fun _ => ?_
      refine (keeps_pyItem _ _).bind fun _ => keeps_field _ _ fun _ => ?_
      exact (keeps_pyItem _ _).bind fun _ => keeps_modify fun guest => blind guest _ _ _ _ _
  · exact keeps_throw _

theorem keeps_observeMap (blind : Unobserved view) (fields : List Text)
    : Keeps view (observeMap fields) := by
  refine keeps_field _ _ fun _ => (keeps_pyItem _ _).bind fun _ => ?_
  refine (keeps_pyItem _ _).bind fun _ => keeps_field _ _ fun _ => ?_
  exact (keeps_pyItem _ _).bind fun _ => keeps_modify fun guest => blind guest _ _ _ _ _

theorem keeps_observeData (blind : Unobserved view) (fields : List Text)
    : Keeps view (observeData fields) := by
  refine keeps_field _ _ fun _ => (keeps_pyItem _ _).bind fun _ => ?_
  refine (keeps_pyItem _ _).bind fun _ => (keeps_pyItem _ _).bind fun _ => ?_
  exact keeps_modify fun guest => blind guest _ _ _ _ _

theorem keeps_observeMemory (blind : Unobserved view) (fields : List Text)
    : Keeps view (observeMemory fields) := by
  refine (keeps_pyInts _ _).bind fun values => ?_
  split
  · exact keeps_modify fun guest => blind guest _ _ _ _ _
  · exact keeps_throw _

theorem keeps_observeCurrent (blind : Unobserved view) (fields : List Text) (index : Nat)
    : Keeps view (observeCurrent fields index) := by
  refine keeps_get.bind fun guest => ?_
  split
  · exact keeps_pure _
  · exact keeps_field _ _ fun _ => keeps_modify fun guest => blind guest _ _ _ _ _

theorem keeps_observeRecord (blind : Unobserved view) (kind : Text) (fields : List Text)
    : Keeps view (observeRecord kind fields) := by
  unfold observeRecord
  split_ifs
  · exact keeps_observeProcess blind fields
  · exact keeps_observeMap blind fields
  · exact keeps_observeData blind fields
  · exact keeps_observeMemory blind fields
  · exact keeps_observeCurrent blind fields 1
  · exact keeps_observeCurrent blind fields 0
  · exact keeps_pure _

theorem keeps_interestingRecord (kind : Text) (fields : List Text)
    : Keeps view (interestingRecord kind fields) := by
  refine keeps_get.bind fun guest => ?_
  split_ifs
  · exact keeps_field _ _ fun _ => keeps_pure _
  · refine keeps_field _ _ fun _ => ?_
    split
    · exact keeps_pure _
    · refine (keeps_pyItem _ _).bind fun _ => ?_
      split_ifs
      · exact keeps_pure _
      · exact (keeps_pyItem _ _).bind fun _ => keeps_pure _
  · exact keeps_pure _

/-- The log does not show the kernel's state. -/
theorem unobserved_log : Unobserved Guest.log := fun _ _ _ _ _ _ => rfl

theorem keepsLog_observeRecord (kind : Text) (fields : List Text)
    : KeepsLog (observeRecord kind fields) :=
  keeps_observeRecord unobserved_log kind fields

theorem keepsLog_interestingRecord (kind : Text) (fields : List Text)
    : KeepsLog (interestingRecord kind fields) :=
  keeps_interestingRecord kind fields

end GuestM

open GuestM

/-- Appending a numbered event extends the log. -/
theorem Guest.Logged.keep {guest later : Guest} (logged : guest.Logged) {event : GuestEvent}
    (numbered : event.id = guest.sequence + 1)
    (same : later.log = ⟨keepLast eventLimit (guest.events ++ [event]), guest.sequence + 1⟩)
    : later.Logged ∧ guest.Follows later := by
  obtain ⟨entries, count⟩ := BoundedLog.mk.inj same
  have old {other : GuestEvent} (member : other ∈ later.events)
      : other ∈ guest.events ∨ other = event := by
    rw [entries] at member
    simpa using mem_of_mem_keepLast member
  refine ⟨⟨?_, ?_, ?_⟩, ?_, ⟨[event], entries, ?_⟩, ?_⟩
  · rw [entries, keepLast_length]
    exact Nat.min_le_right _ _
  · intro other member
    rcases old member with member | same
    · have bounds := logged.numbered other member
      omega
    · subst same
      omega
  · rw [entries]
    refine List.Pairwise.sublist (List.drop_sublist _ _) ?_
    refine List.pairwise_append.mpr ⟨logged.ordered, List.pairwise_singleton _ _, ?_⟩
    intro first member second last
    rw [List.mem_singleton.mp last, numbered]
    exact Nat.lt_succ_of_le (logged.numbered first member).2
  · exact fun other member => (logged.numbered other member).2
  · intro other member
    rw [List.mem_singleton.mp member, numbered]
    change guest.sequence < guest.sequence + 1 ∧ guest.sequence + 1 ≤ later.sequence
    omega
  · change guest.sequence ≤ later.sequence
    omega

/-- Counting a record that is not kept extends the log. -/
theorem Guest.Logged.count {guest counted : Guest} (logged : guest.Logged)
    (same : counted.log = ⟨guest.events, guest.sequence + 1⟩)
    : counted.Logged ∧ guest.Follows counted := by
  obtain ⟨events, sequence⟩ := BoundedLog.mk.inj same
  refine ⟨⟨events ▸ logged.short, ?_, events ▸ logged.ordered⟩, ?_, ⟨[], ?_, by simp⟩, ?_⟩
  · rw [events]
    intro event member
    have bounds := logged.numbered event member
    omega
  · exact fun event member => (logged.numbered event member).2
  · rw [List.append_nil]
    exact events.trans (keepLast_of_short logged.short).symm
  · change guest.sequence ≤ counted.sequence
    omega

theorem Guest.Follows.congr {guest later later' : Guest} (follows : guest.Follows later)
    (same : later'.log = later.log)
    : guest.Follows later' := by
  unfold Guest.Follows
  rw [same]
  exact follows

/-- Every record is counted, and its event is appended or not. -/
theorem handleRecord_log (guest : Guest) (kind : Text) (tick : Int) (fields : List Text)
    : (after (handleRecord kind tick fields) guest).log = ⟨guest.events, guest.sequence + 1⟩
      ∨ (after (handleRecord kind tick fields) guest).log
        = ⟨keepLast eventLimit (guest.events ++ [⟨guest.sequence + 1, kind, tick, fields⟩]),
            guest.sequence + 1⟩ := by
  let counted : Guest :=
    { guest with ticks := max guest.ticks tick, sequence := guest.sequence + 1 }
  have opened : after (handleRecord kind tick fields) guest
      = after (interestingRecord kind fields >>= fun interesting => do
          if interesting then
            modify fun state => state.keep ⟨counted.sequence, kind, tick, fields⟩
          else pure ()
          observeRecord kind fields) counted := rfl
  have kept := keepsLog_interestingRecord kind fields counted
  rw [opened, after_bind]
  unfold after at kept
  rcases run : (interestingRecord kind fields).run.run counted with ⟨result, guest'⟩
  rw [run] at kept
  have same : guest'.log = ⟨guest.events, guest.sequence + 1⟩ := kept
  cases result with
  | error _ => exact Or.inl same
  | ok interesting =>
      cases interesting with
      | false => exact Or.inl ((keepsLog_observeRecord kind fields guest').trans same)
      | true =>
          let event : GuestEvent := ⟨counted.sequence, kind, tick, fields⟩
          have observed := keepsLog_observeRecord kind fields (guest'.keep event)
          obtain ⟨events, sequence⟩ := BoundedLog.mk.inj same
          refine Or.inr (observed.trans (congrArg₂ BoundedLog.mk ?_ sequence))
          rw [← events]
          rfl

theorem Guest.Logged.handleRecord {guest : Guest} (logged : guest.Logged) (kind : Text)
    (tick : Int) (fields : List Text)
    : (after (handleRecord kind tick fields) guest).Logged
      ∧ guest.Follows (after (handleRecord kind tick fields) guest) := by
  rcases handleRecord_log guest kind tick fields with counted | kept
  · exact logged.count counted
  · exact logged.keep rfl kept

/-- Whatever line arrives, the log extends the one before it. -/
theorem Guest.Logged.guestEvent {guest : Guest} (logged : guest.Logged) (line : Text)
    : (after (guestEvent line) guest).Logged
      ∧ guest.Follows (after (guestEvent line) guest) := by
  have ignored : guest.Logged ∧ guest.Follows guest := ⟨logged, logged.follows_self⟩
  unfold MiniLinux.guestEvent
  split
  · next mark kind tick fields parts =>
      split_ifs
      · exact ignored
      · rw [after_bind, pyToInt]
        cases pyInt tick with
        | none => exact ignored
        | some tick => exact logged.handleRecord kind tick fields
  · exact ignored

end MiniLinux
