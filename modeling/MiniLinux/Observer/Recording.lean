import MiniLinux.Observer.Polling

/-! The recorder of `tools/record-demo.py`: snapshots of a running guest become the frames of
a clip. Every frame but the first holds only the events since the frame before it.
-/

namespace MiniLinux

open Foundation

/-- What can happen to a guest between two snapshots of it. -/
inductive Guest.Moves : Guest → Guest → Prop
  | record (guest : Guest) (line : Text) : Moves guest (GuestM.after (guestEvent line) guest)
  | console (guest : Guest) (chunk : List Byte) : Moves guest (guest.readConsole chunk)
  | readerEnds (guest : Guest) (caught : Text) : Moves guest (guest.readerEnds caught)
  | status (guest : Guest) (status : Text) : Moves guest { guest with status := status }

/-- The guests that any history of one guest leads to. -/
abbrev Guest.Becomes : Guest → Guest → Prop := Relation.ReflTransGen Guest.Moves

/-- A frame of a clip; `time` is its `at` in milliseconds. -/
structure ClipFrame where
  time : Int
  state : Snapshot

/-- An entry of `clips`. -/
structure Clip where
  command : Text
  frames : List ClipFrame

/-- A guest when the recorder looks at it: the rounded time since the command was sent, and
whether the recorder has waited too long.
-/
structure Sample where
  time : Int
  late : Bool
  guest : Guest

/-- `snapshot(after)` of the recorder -/
def Guest.delta (guest : Guest) (after : Nat) : Snapshot :=
  { guest.snapshot with events := guest.snapshot.events.filter fun event => event.id > after }

/-- `"mini$ " in state["console"][before:]` -/
def Snapshot.prompted (state : Snapshot) (before : Nat) : Bool :=
  decide ("mini$ ".toList <:+: state.console.drop before)

/-- The loop of `record` for one command; `none` is the error it raises, or no end of it. -/
def recordLoop (before : Nat) : Nat → List Sample → Option (List ClipFrame)
  | _, [] => none
  | cursor, sample :: rest =>
      let state := sample.guest.delta cursor
      let frame : ClipFrame := ⟨sample.time, state⟩
      if state.prompted before then some [frame]
      else if state.status ≠ "running".toList ∨ sample.late then none
      else (recordLoop before state.sequence rest).map fun frames => frame :: frames

/-- The clip of one command: `first` is the guest of the first frame, `before` the length of
the console when the command is sent.
-/
def recordCommand (command : Text) (first : Guest) (before : Nat) (samples : List Sample)
    : Option Clip :=
  let state := first.delta 0
  (recordLoop before state.sequence samples).map fun frames =>
    ⟨command, ⟨0, state⟩ :: frames⟩

/-- The clip of the boot, a single frame. -/
def recordBoot (first : Guest) : Clip := ⟨"boot".toList, [⟨0, first.delta 0⟩]⟩

/-- `guests` are a guest at the moments of the frames of a clip that the recorder made. -/
inductive Clip.Recorded : Clip → List Guest → Prop
  | boot {guest : Guest} (history : Guest.fresh.Becomes guest)
      : Recorded (recordBoot guest) [guest]
  | command {command : Text} {first : Guest} {before : Nat} {samples : List Sample} {clip : Clip}
      (history : Guest.fresh.Becomes first)
      (later : (first :: samples.map Sample.guest).IsChain Guest.Becomes)
      (made : recordCommand command first before samples = some clip)
      : Recorded clip ((first :: samples.map Sample.guest).take clip.frames.length)

/-- Frames that hold the deltas of guests, from a position on. -/
inductive Deltas : Nat → List ClipFrame → List Guest → Prop
  | nil (cursor : Nat) : Deltas cursor [] []
  | cons {cursor : Nat} {guest : Guest} (time : Int) {frames : List ClipFrame} {guests : List Guest}
      (rest : Deltas guest.sequence frames guests)
      : Deltas cursor (⟨time, guest.delta cursor⟩ :: frames) (guest :: guests)

theorem Guest.Moves.follows {guest later : Guest} (moves : guest.Moves later)
    (logged : guest.Logged)
    : later.Logged ∧ guest.Follows later := by
  have quiet {other : Guest} (same : other.log = guest.log)
      : other.Logged ∧ guest.Follows other :=
    ⟨logged.congr same, logged.follows_self.congr same⟩
  cases moves with
  | record line => exact logged.guestEvent line
  | console chunk => exact quiet (Guest.readConsole_log _ _)
  | readerEnds caught => exact quiet (Guest.readerEnds_log _ _)
  | status status => exact quiet rfl

/-- Witness: induction on the history. -/
theorem Guest.Becomes.follows {guest later : Guest} (becomes : guest.Becomes later)
    (logged : guest.Logged)
    : later.Logged ∧ guest.Follows later := by
  induction becomes with
  | refl => exact ⟨logged, logged.follows_self⟩
  | tail _ moves ih =>
      obtain ⟨logged', follows⟩ := moves.follows ih.1
      exact ⟨logged', ih.2.trans follows⟩

/-- The loop makes one frame for each sample that it looks at. -/
theorem recordLoop_deltas {before cursor : Nat} {samples : List Sample} {frames : List ClipFrame}
    (made : recordLoop before cursor samples = some frames)
    : Deltas cursor frames ((samples.map Sample.guest).take frames.length) := by
  induction samples generalizing cursor frames with
  | nil => cases made
  | cons sample rest ih =>
      rw [recordLoop] at made
      split_ifs at made
      · cases made
        exact .cons _ (.nil _)
      · obtain ⟨later, made', same⟩ := Option.map_eq_some_iff.mp made
        subst same
        exact .cons _ (ih made')

namespace Clip.Recorded

variable {clip : Clip} {guests : List Guest}

theorem deltas (recorded : clip.Recorded guests) : Deltas 0 clip.frames guests := by
  cases recorded with
  | boot history => exact .cons _ (.nil _)
  | command history later made =>
      obtain ⟨frames, looped, same⟩ := Option.map_eq_some_iff.mp made
      subst same
      exact .cons _ (recordLoop_deltas looped)

/-- The guests of a clip are one guest that moves on. -/
theorem chain (recorded : clip.Recorded guests)
    : (∀ guest ∈ guests, guest.Logged) ∧ guests.IsChain Guest.Follows := by
  have grow {first : Guest} {rest : List Guest} (logged : first.Logged)
      (later : (first :: rest).IsChain Guest.Becomes)
      : (∀ guest ∈ first :: rest, guest.Logged) ∧ (first :: rest).IsChain Guest.Follows := by
    induction rest generalizing first with
    | nil => exact ⟨by simpa using logged, .singleton _⟩
    | cons second rest ih =>
        obtain ⟨here, later⟩ := List.isChain_cons_cons.mp later
        obtain ⟨logged', follows⟩ := Guest.Becomes.follows here logged
        obtain ⟨all, chain⟩ := ih logged' later
        refine ⟨?_, chain.cons_cons follows⟩
        intro guest member
        rcases List.mem_cons.mp member with same | member
        · exact same ▸ logged
        · exact all guest member
  cases recorded with
  | boot history =>
      exact grow (Guest.Becomes.follows history .fresh).1 (.singleton _)
  | command history later made =>
      obtain ⟨all, chain⟩ := grow (Guest.Becomes.follows history .fresh).1 later
      refine ⟨fun guest member => all guest (List.mem_of_mem_take member), chain.take _⟩

/-- The first frame is recorded at time zero. -/
theorem first_time (recorded : clip.Recorded guests)
    : ∃ state rest, clip.frames = ⟨0, state⟩ :: rest := by
  cases recorded with
  | boot history => exact ⟨_, _, rfl⟩
  | command history later made =>
      obtain ⟨frames, _, same⟩ := Option.map_eq_some_iff.mp made
      subst same
      exact ⟨_, _, rfl⟩

end Clip.Recorded

/-- The events of the frames up to `frame`, as the player puts them together. -/
def retainedEvents (frames : List ClipFrame) (frame : Nat) : List GuestEvent :=
  keepLast eventLimit ((frames.take (frame + 1)).flatMap fun frame => frame.state.events)

/-- Frames and guests are as many. -/
theorem Deltas.length_eq {cursor : Nat} {frames : List ClipFrame} {guests : List Guest}
    (deltas : Deltas cursor frames guests)
    : frames.length = guests.length := by
  induction deltas with
  | nil => rfl
  | cons _ _ ih => rw [List.length_cons, List.length_cons, ih]

/-- Frame `k` holds the state of guest `k`. -/
theorem Deltas.frame {cursor : Nat} {frames : List ClipFrame} {guests : List Guest}
    (deltas : Deltas cursor frames guests) {k : Nat} {guest : Guest} (here : guests[k]? = some guest)
    : ∃ time after, frames[k]? = some ⟨time, guest.delta after⟩ := by
  induction deltas generalizing k with
  | nil => cases here
  | cons time _ ih =>
      cases k with
      | zero =>
          cases here
          exact ⟨time, _, rfl⟩
      | succ k => exact ih here

/-- The deltas put together, after what was put together before, are the events of the guest
of the last one. Witness: induction on the frames.
-/
theorem Deltas.retained {cursor : Nat} {frames : List ClipFrame} {guests : List Guest}
    (deltas : Deltas cursor frames guests) (chain : guests.IsChain Guest.Follows)
    {before : List GuestEvent} {seen : List GuestEvent}
    (first
      : ∀ guest ∈ guests.head?,
          BoundedLog.Extends eventLimit GuestEvent.id ⟨seen, cursor⟩ guest.log)
    (same : keepLast eventLimit before = seen) {k : Nat} {guest : Guest}
    (here : guests[k]? = some guest)
    : keepLast eventLimit
        (before ++ (frames.take (k + 1)).flatMap fun frame => frame.state.events)
      = guest.events := by
  induction deltas generalizing before seen k with
  | nil => cases here
  | @cons cursor next time frames guests rest ih =>
      have caught := (first next rfl).catchUp
      have now : keepLast eventLimit (before ++ (next.delta cursor).events) = next.events := by
        rw [← keepLast_append_left, same]
        exact caught
      rw [List.take_succ_cons, List.flatMap_cons, ← List.append_assoc]
      cases k with
      | zero =>
          cases here
          simpa using now
      | succ k =>
          refine ih chain.tail ?_ now here
          intro later member
          cases guests with
          | nil => cases member
          | cons later' guests =>
              cases member
              exact (List.isChain_cons_cons.mp chain).1

instance : IsTrans Guest Guest.Follows := ⟨fun _ _ _ first second => first.trans second⟩

namespace Clip.Recorded

variable {clip : Clip} {guests : List Guest}

/-- The player puts together the events that the guest had. -/
theorem retained (recorded : clip.Recorded guests) {k : Nat} {guest : Guest}
    (here : guests[k]? = some guest)
    : retainedEvents clip.frames k = guest.events := by
  obtain ⟨logged, chain⟩ := recorded.chain
  have retained :=
    @Deltas.retained 0 clip.frames guests recorded.deltas chain [] []
      (fun first member => (logged first (List.mem_of_mem_head? member)).extends_empty) keepLast_nil k guest
      here
  rw [List.nil_append] at retained
  exact retained

/-- Later frames are of a guest that has only moved on. -/
theorem follows (recorded : clip.Recorded guests) {j k : Nat} (order : j ≤ k) {guest later : Guest}
    (here : guests[j]? = some guest) (there : guests[k]? = some later)
    : guest.Follows later := by
  obtain ⟨logged, chain⟩ := recorded.chain
  rcases Nat.lt_or_eq_of_le order with before | same
  · obtain ⟨inside, rfl⟩ := List.getElem?_eq_some_iff.mp here
    obtain ⟨inside', rfl⟩ := List.getElem?_eq_some_iff.mp there
    exact List.pairwise_iff_getElem.mp chain.pairwise j k inside inside' before
  · subst same
    cases here.symm.trans there
    exact (logged guest (List.mem_of_getElem? here)).follows_self

end Clip.Recorded

end MiniLinux
