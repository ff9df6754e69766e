import MiniLinux.Foundation.EditedText
import MiniLinux.Observer.Recording

/-! The console that the host retains. `_read` edits it character by character and forgets all
but its last characters after every chunk. The page marks a position in it and shows what came
later; `Guest.command` cuts it at an index.
-/

namespace MiniLinux

open Foundation GuestM

-----------------------------------------------------------------------------------------
-- The text of COM1
-----------------------------------------------------------------------------------------

/-- What a character of COM1 does to the text. -/
def consoleEdit (character : Char) : Edit Char :=
  if character = '\x08' then .erase else if character ≠ '\r' then .append character else .ignore

/-- What a stream of COM1 does to the text. -/
def consoleEdits (stream : List Byte) : List (Edit Char) := (decodeAscii stream).map consoleEdit

/-- The text of a stream: without carriage returns, each backspace deletes the last character. -/
def consoleText (stream : List Byte) : Text := edited [] (consoleEdits stream)

@[simp] theorem consoleEdits_nil : consoleEdits [] = [] := rfl

@[simp] theorem consoleEdits_append (stream more : List Byte)
    : consoleEdits (stream ++ more) = consoleEdits stream ++ consoleEdits more := by
  simp [consoleEdits, decodeAscii]

@[simp] theorem consoleText_append (stream more : List Byte)
    : consoleText (stream ++ more) = edited (consoleText stream) (consoleEdits more) := by
  simp [consoleText]

theorem consoleEdit_apply (console : Text) (character : Char)
    : (consoleEdit character).apply console = consoleCharacter console character := by
  unfold consoleEdit consoleCharacter
  split_ifs <;> rfl

theorem edited_consoleEdits (console : Text) (stream : List Byte)
    : edited console (consoleEdits stream) = (decodeAscii stream).foldl consoleCharacter console := by
  simp only [edited, consoleEdits, List.foldl_map, consoleEdit_apply]

/-- What the guest retains of the text. -/
def Guest.window (guest : Guest) : Window Char := ⟨guest.consoleBase, guest.console⟩

theorem Guest.readConsole_window (guest : Guest) (chunk : List Byte)
    : (guest.readConsole chunk).window = guest.window.read consoleLimit (consoleEdits chunk) := by
  unfold Guest.readConsole
  simp only [Window.read, Guest.window, edited_consoleEdits]
  split <;> rfl

/-- Records do not touch the console. -/
theorem keepsWindow_guestEvent (line : Text) : Keeps Guest.window (guestEvent line) := by
  have handled (kind : Text) (tick : Int) (fields : List Text)
      : Keeps Guest.window (handleRecord kind tick fields) := by
    unfold handleRecord
    refine Keeps.bind (keeps_modify ?_) fun _ => keeps_get.bind fun _ => ?_
    · exact fun _ => rfl
    refine (keeps_interestingRecord kind fields).bind fun interesting => ?_
    have observed := keeps_observeRecord (fun _ _ _ _ _ _ => rfl : Unobserved Guest.window) kind fields
    cases interesting with
    | false => exact observed
    | true =>
        refine Keeps.bind (keeps_modify ?_) fun _ => observed
        exact fun _ => rfl
  unfold guestEvent
  split
  · split_ifs
    · exact keeps_pure _
    · exact (keeps_pyToInt _).bind fun _ => handled _ _ _
  · exact keeps_pure _

/-- A guest before and after its console reader has handled some chunks, whatever else has
happened to it in between.
-/
inductive Guest.Hears (guest : Guest) : List (List Byte) → Guest → Prop
  | start : Hears guest [] guest
  | console {chunks : List (List Byte)} {later : Guest} (hears : Hears guest chunks later)
      (chunk : List Byte)
      : Hears guest (chunks ++ [chunk]) (later.readConsole chunk)
  | record {chunks : List (List Byte)} {later : Guest} (hears : Hears guest chunks later)
      (line : Text)
      : Hears guest chunks (after (guestEvent line) later)
  | readerEnds {chunks : List (List Byte)} {later : Guest} (hears : Hears guest chunks later)
      (caught : Text)
      : Hears guest chunks (later.readerEnds caught)
  | status {chunks : List (List Byte)} {later : Guest} (hears : Hears guest chunks later)
      (status : Text)
      : Hears guest chunks { later with status := status }

theorem Guest.readerEnds_window (guest : Guest) (caught : Text)
    : (guest.readerEnds caught).window = guest.window := by
  unfold Guest.readerEnds
  dsimp only
  split_ifs <;> exact congrArg₂ Window.mk rfl rfl

namespace Guest.Hears

variable {guest later : Guest} {chunks : List (List Byte)}

/-- The chunks can always be read one after another. -/
theorem reads (guest : Guest) (chunks : List (List Byte))
    : guest.Hears chunks (chunks.foldl Guest.readConsole guest) := by
  induction chunks using List.reverseRecOn with
  | nil => exact .start
  | append_singleton chunks chunk ih =>
      rw [List.foldl_append, List.foldl_cons, List.foldl_nil]
      exact ih.console chunk

theorem trans {more : List (List Byte)} {last : Guest} (first : guest.Hears chunks later)
    (second : later.Hears more last)
    : guest.Hears (chunks ++ more) last := by
  induction second with
  | start => rwa [List.append_nil]
  | console _ chunk ih =>
      rw [← List.append_assoc]
      exact ih.console chunk
  | record _ line ih => exact ih.record line
  | readerEnds _ caught ih => exact ih.readerEnds caught
  | status _ status ih => exact ih.status status

/-- A property of the window that every chunk keeps. -/
theorem window_induction (holds : List (List Byte) → Window Char → Prop)
    (start : holds [] guest.window)
    (step
      : ∀ chunks chunk window,
          holds chunks window
          → holds (chunks ++ [chunk]) (window.read consoleLimit (consoleEdits chunk)))
    (hears : guest.Hears chunks later)
    : holds chunks later.window := by
  induction hears with
  | start => exact start
  | console _ chunk ih =>
      rw [Guest.readConsole_window]
      exact step _ chunk _ ih
  | record _ line ih =>
      rw [keepsWindow_guestEvent]
      exact ih
  | readerEnds _ caught ih =>
      rw [Guest.readerEnds_window]
      exact ih
  | status _ _ ih => exact ih

/-- The console never holds more than the limit between two chunks. -/
theorem short (hears : Guest.fresh.Hears chunks guest) : guest.console.length ≤ consoleLimit := by
  refine window_induction (fun _ window => window.kept.length ≤ consoleLimit) ?_ ?_ hears
  · exact Nat.zero_le _
  · intro _ chunk window _
    simp [Window.read, keepLast_length]

/-- The window follows the text of the stream. Witness: induction on the chunks. -/
theorem follows (hears : Guest.fresh.Hears chunks guest)
    (steady : ShrinksWithin consoleLimit (consoleEdits chunks.flatten))
    : guest.window.Follows consoleLimit (consoleEdits chunks.flatten) := by
  revert steady
  refine window_induction
    (fun chunks window => ShrinksWithin consoleLimit (consoleEdits chunks.flatten)
      → window.Follows consoleLimit (consoleEdits chunks.flatten)) ?_ ?_ hears
  · exact fun _ => Window.follows_start
  · intro chunks chunk window ih steady
    simp only [List.flatten_append, List.flatten_singleton, consoleEdits_append] at steady ⊢
    exact (ih (steady.of_prefix (List.prefix_append _ _))).read steady

/-- The console ends with the text of the last part of a stream, if that part does not reach
back behind its start. Witness: induction on the chunks.
-/
theorem tail {before part : List Byte} (hears : guest.Hears chunks later)
    (split : chunks.flatten = before ++ part)
    (grounded : Grounded consoleLimit [] (consoleEdits part))
    : ∃ front, later.console = front ++ consoleText part := by
  revert before part
  refine window_induction
    (fun chunks window => ∀ {before part : List Byte},
      chunks.flatten = before ++ part
      → Grounded consoleLimit [] (consoleEdits part)
      → ∃ front, window.kept = front ++ consoleText part) ?_ ?_ hears
  · intro before part split _
    obtain ⟨_, rfl⟩ := List.append_eq_nil_iff.mp split.symm
    exact ⟨guest.console, by simp [Guest.window, consoleText]⟩
  · intro chunks chunk window ih before part split grounded
    rw [List.flatten_append, List.flatten_singleton] at split
    rcases List.append_eq_append_iff.mp split with ⟨older, rfl, rfl⟩ | ⟨shown, here, rfl⟩
    · let middle : Window Char := ⟨window.base, edited window.kept (consoleEdits older)⟩
      have kept : (window.read consoleLimit (consoleEdits (older ++ part))).kept
          = (middle.read consoleLimit (consoleEdits part)).kept := by
        simp [Window.read, middle]
      rw [kept]
      exact Window.read_behind ⟨middle.kept, (List.append_nil _).symm⟩ grounded
    · rw [consoleEdits_append, Grounded.append_iff] at grounded
      rw [consoleText_append]
      exact Window.read_behind (ih here grounded.1) grounded.2

end Guest.Hears

-----------------------------------------------------------------------------------------
-- The page
-----------------------------------------------------------------------------------------

/-- The handler of `clear-console`. -/
def Page.clearConsole (page : Page) : Page :=
  { page with consoleStart := (page.state.map fun state =>
      state.consoleBase + state.console.length).getD 0 }

/-- What `render` shows in the terminal. -/
def Page.terminal (page : Page) : Text :=
  (page.state.map fun state =>
    state.console.drop (page.consoleStart - state.consoleBase)).getD []

/-- Answers of the same guest leave the mark. -/
theorem Page.receive_consoleStart {page : Page} {reply : Reply} (same : reply.epoch = page.epoch)
    : (page.receive reply).consoleStart = page.consoleStart
      ∧ (page.receive reply).state = some reply
      ∧ (page.receive reply).epoch = page.epoch := by
  unfold Page.receive
  simp [same, Page.take]

/-- Polls of the same guest: the mark stays, and the state is the last answer. -/
theorem Page.receives_consoleStart {page : Page} {polls : List Reply}
    (same : ∀ reply ∈ polls, reply.epoch = page.epoch)
    : (polls.foldl Page.receive page).consoleStart = page.consoleStart
      ∧ (polls.foldl Page.receive page).epoch = page.epoch := by
  induction polls generalizing page with
  | nil => exact ⟨rfl, rfl⟩
  | cons reply polls ih =>
      obtain ⟨start, _, epoch⟩ := Page.receive_consoleStart (same reply List.mem_cons_self)
      obtain ⟨starts, epochs⟩ := @ih (page.receive reply) fun other member =>
        (same other (List.mem_cons_of_mem _ member)).trans epoch.symm
      exact ⟨starts.trans start, epochs.trans epoch⟩

/-- A reply shows the console of a guest. -/
structure Reply.Shows (reply : Reply) (guest : Guest) : Prop where
  console : reply.console = guest.console
  consoleBase : reply.consoleBase = guest.consoleBase

theorem Server.reply_shows (server : Server) (position : Nat)
    : (server.reply position).Shows server.guest :=
  ⟨rfl, rfl⟩

/-- In every stream whose text never shrinks by the limit or more below its longest length, after
every chunk the console is an end of the text of at most the limit, and its base counts what is
before it. Once the page has marked a position, as long as the text stays above that position,
the terminal shows what is retained of the later characters, and no other.
-/
theorem console_is_retained {chunks more : List (List Byte)} {marked guest : Guest}
    (hears : Guest.fresh.Hears chunks marked) (later : marked.Hears more guest)
    (steady : ShrinksWithin consoleLimit (consoleEdits (chunks ++ more).flatten))
    : guest.console <:+ consoleText (chunks ++ more).flatten
      ∧ guest.console.length ≤ consoleLimit
      ∧ guest.consoleBase + guest.console.length = (consoleText (chunks ++ more).flatten).length
      ∧ ∀ (page : Page) (reply : Reply) (polls : List Reply) (last : Reply),
          page.state = some reply
          → reply.Shows marked
          → (∀ poll ∈ polls ++ [last], poll.epoch = page.epoch)
          → last.Shows guest
          → StaysAbove (consoleText chunks.flatten).length (consoleText chunks.flatten)
              (consoleEdits more.flatten)
          → ∃ newer,
              consoleText (chunks ++ more).flatten = consoleText chunks.flatten ++ newer
              ∧ ((polls ++ [last]).foldl Page.receive page.clearConsole).terminal
                = newer.drop (guest.consoleBase - (consoleText chunks.flatten).length) := by
  have follows := (hears.trans later).follows steady
  have retains := follows.retains
  refine ⟨retains.suffix, follows.short, retains.length, ?_⟩
  intro page reply polls last state shows same shows' above
  have before := (hears.follows (steady.of_prefix ?_)).retains.length
  · have front := edited_take above
    rw [← consoleText_append, ← List.flatten_append, List.take_length] at front
    obtain ⟨newer, whole⟩ : consoleText chunks.flatten <+: consoleText (chunks ++ more).flatten :=
      front ▸ List.take_prefix _ _
    refine ⟨newer, whole.symm, ?_⟩
    have start : page.clearConsole.consoleStart = (consoleText chunks.flatten).length := by
      simp only [Page.clearConsole, state, Option.map_some, Option.getD_some, shows.console,
        shows.consoleBase]
      exact before
    obtain ⟨starts, epochs⟩ := @Page.receives_consoleStart page.clearConsole polls
      fun poll member => same poll (List.mem_append_left [last] member)
    obtain ⟨kept, now, _⟩ := Page.receive_consoleStart
      ((same last (List.mem_append_right polls List.mem_cons_self)).trans epochs.symm)
    rw [List.foldl_append, List.foldl_cons, List.foldl_nil]
    simp only [Page.terminal, now, Option.map_some, Option.getD_some, kept, starts, start,
      shows'.console, shows'.consoleBase]
    have rest : guest.console = (consoleText (chunks ++ more).flatten).drop guest.consoleBase :=
      retains.rest
    rw [rest, ← whole, drop_past]
  · rw [List.flatten_append, consoleEdits_append]
    exact List.prefix_append _ _

/-- The text `ab` is marked, then `c` is typed, deleted and replaced by `d`. -/
theorem console_is_retained_on_sample
    : ∃ marked guest,
        Guest.fresh.Hears [[97, 98]] marked
        ∧ marked.Hears [[99, 8, 100]] guest
        ∧ guest.console <:+ ['a', 'b', 'd']
        ∧ ∀ (page : Page) (server server' : Server),
            server.guest = marked
            → server'.guest = guest
            → server'.epoch = page.epoch
            → page.state = some (server.reply 0)
            → (page.clearConsole.receive (server'.reply 0)).terminal <:+ ['d'] := by
  have hears := Guest.Hears.reads Guest.fresh [[97, 98]]
  have later := Guest.Hears.reads ([[97, 98]].foldl Guest.readConsole Guest.fresh) [[99, 8, 100]]
  have few : (consoleEdits ([[97, 98]] ++ [[99, 8, 100]]).flatten).length < consoleLimit := by
    unfold consoleLimit
    decide
  obtain ⟨suffix, _, _, shown⟩ := console_is_retained hears later (.of_few few)
  refine ⟨_, _, hears, later, suffix, ?_⟩
  intro page server server' first second same state
  have above : StaysAbove (consoleText [[97, 98]].flatten).length (consoleText [[97, 98]].flatten)
      (consoleEdits [[99, 8, 100]].flatten) := by
    have each : ∀ part ∈ (consoleEdits [[99, 8, 100]].flatten).inits,
        (consoleText [[97, 98]].flatten).length
          ≤ (edited (consoleText [[97, 98]].flatten) part).length := by
      decide
    exact fun part inside => each part ((List.mem_inits _ _).mpr inside)
  obtain ⟨newer, whole, terminal⟩ := shown page _ [] (server'.reply 0) state
    (first ▸ server.reply_shows 0) (by simpa [Server.reply] using same)
    (second ▸ server'.reply_shows 0) above
  have last : newer = ['d'] := List.append_cancel_left whole.symm
  rw [← last]
  exact terminal ▸ List.drop_suffix _ _

end MiniLinux
