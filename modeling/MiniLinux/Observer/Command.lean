import MiniLinux.Observer.Console

/-! `Guest.command`: the host types a command and takes what the console then shows from the
index where it ended. The index is not moved when the console forgets its beginning.
-/

namespace MiniLinux

open Foundation

/-- The prompt that the wait looks for. -/
def promptText : Text := "mini$ ".toList

/-- `"mini$ " in self.console[before:]` -/
def Guest.prompted (guest : Guest) (before : Nat) : Bool :=
  decide (promptText <:+: guest.console.drop before)

/-- Whether `wait_for` gives up on a guest. -/
def Guest.failed (guest : Guest) : Prop :=
  guest.status = "faulted".toList ∨ guest.status = "disconnected".toList

instance (guest : Guest) : Decidable guest.failed := inferInstanceAs (Decidable (_ ∨ _))

/-- `wait_for`; it looks at these guests one after another until its deadline, and `false` is
an error that it raises.
-/
def waitFor (predicate : Guest → Bool) : List Guest → Bool
  | [] => false
  | guest :: later =>
      if predicate guest then true else if guest.failed then false else waitFor predicate later

/-- `Guest.command`: `sent` is the guest when it takes its position, `polled` are those that the
wait looks at, `last` is the one whose console is cut; `none` is an error that it raises.
-/
def Guest.command (sent : Guest) (polled : List Guest) (last : Guest) : Option Text :=
  let before := sent.console.length
  if sent.status ≠ "running".toList then none
  else if waitFor (fun guest => guest.prompted before) polled then
    some (last.console.drop before)
  else none

/-- The characters of a stream with the carriage returns removed. -/
def plainText (stream : List Byte) : Text :=
  (decodeAscii stream).filter fun character => character ≠ '\r'

@[simp] theorem plainText_append (stream more : List Byte)
    : plainText (stream ++ more) = plainText stream ++ plainText more := by
  simp [plainText, decodeAscii]

/-- Only the byte 8 is read as a backspace. -/
theorem decoded_ne_backspace
    : ∀ byte : Byte,
        byte ≠ 8
        → (if byte.toNat < 128 then Char.ofNat byte.toNat else '\uFFFD') ≠ '\x08' := by
  decide

/-- A stream without backspaces appends its characters. -/
theorem edited_plain (text : Text) {stream : List Byte} (straight : (8 : Byte) ∉ stream)
    : edited text (consoleEdits stream) = text ++ plainText stream := by
  induction stream generalizing text with
  | nil => simp [plainText, decodeAscii]
  | cons byte stream ih =>
      obtain ⟨here, later⟩ := List.ne_and_not_mem_of_not_mem_cons straight
      have first := decoded_ne_backspace byte (Ne.symm here)
      simp only [consoleEdits, plainText, decodeAscii, List.map_cons, edited_cons] at ih ⊢
      rw [ih _ later, consoleEdit, if_neg first, List.filter_cons]
      split_ifs with kept dropped
      all_goals simp_all [Edit.apply]

/-- The guest answers a command with the response: once the prompt has arrived the wait
succeeds, and when all has arrived the result is the text of the response.
-/
def Guest.Answers (sent : Guest) (response : List (List Byte)) : Prop :=
  (∀ first rest heard,
    first ++ rest = response
    → promptText <:+: decodeAscii first.flatten
    → sent.Hears first heard
    → heard.prompted sent.console.length)
  ∧ ∀ polled last,
      (∀ guest ∈ polled, ¬guest.failed)
      → sent.Hears response last
      → sent.command (polled ++ [last]) last = some (plainText response.flatten)

/-- What the console holds after chunks without backspaces. Witness: induction on the chunks. -/
theorem Guest.Hears.plain {sent later : Guest} {chunks : List (List Byte)}
    (hears : sent.Hears chunks later) (short : sent.console.length ≤ consoleLimit)
    (straight : (8 : Byte) ∉ chunks.flatten)
    : later.console = keepLast consoleLimit (sent.console ++ plainText chunks.flatten) := by
  revert straight
  refine window_induction (fun chunks window => (8 : Byte) ∉ chunks.flatten
    → window.kept = keepLast consoleLimit (sent.console ++ plainText chunks.flatten)) ?_ ?_ hears
  · intro _
    simp only [List.flatten_nil, plainText, decodeAscii, List.map_nil, List.filter_nil,
      List.append_nil]
    exact (keepLast_of_short short).symm
  · intro chunks chunk window ih straight
    simp only [List.flatten_append, List.flatten_singleton, List.mem_append, not_or] at straight ⊢
    simp only [Window.read]
    rw [edited_plain _ straight.2, ih straight.1, keepLast_append_left, plainText_append,
      List.append_assoc]

/-- What the cut console shows of a response that fits, and how long the console is at most. -/
theorem Guest.Hears.cut {sent later : Guest} {chunks : List (List Byte)}
    (hears : sent.Hears chunks later) (short : sent.console.length ≤ consoleLimit)
    (straight : (8 : Byte) ∉ chunks.flatten)
    : (sent.console.length + (plainText chunks.flatten).length ≤ consoleLimit
        → later.console.drop sent.console.length = plainText chunks.flatten)
      ∧ later.console.length ≤ consoleLimit := by
  rw [hears.plain short straight]
  constructor
  · intro fits
    rw [keepLast_of_short (by simpa using fits), List.drop_left]
  · rw [keepLast_length]
    exact Nat.min_le_right _ _

/-- The prompt survives the removal of carriage returns. -/
theorem prompt_in_plainText {stream : List Byte} (arrived : promptText <:+: decodeAscii stream)
    : promptText <:+: plainText stream := by
  have kept : promptText.filter (fun character => character ≠ '\r') = promptText := by decide
  exact kept ▸ arrived.filter _

theorem waitFor_append {predicate : Guest → Bool} {polled : List Guest} {last : Guest}
    (patient : ∀ guest ∈ polled, ¬guest.failed) (holds : predicate last)
    : waitFor predicate (polled ++ [last]) = true := by
  induction polled with
  | nil => simp [waitFor, holds]
  | cons guest polled ih =>
      have here := patient guest List.mem_cons_self
      have rest := ih fun other member => patient other (List.mem_cons_of_mem _ member)
      simp [waitFor, here, rest]

/-- A command that returns has cut the console at its position. -/
theorem Guest.command_eq_some {sent last : Guest} {polled : List Guest} {output : Text}
    (returned : sent.command polled last = some output)
    : last.console.drop sent.console.length = output := by
  unfold Guest.command at returned
  dsimp only at returned
  split_ifs at returned
  exact Option.some.inj returned

/-- A guest that answers has room for the response. -/
theorem Guest.Answers.fits {sent : Guest} {response : List (List Byte)}
    (answers : sent.Answers response) (short : sent.console.length ≤ consoleLimit)
    (straight : (8 : Byte) ∉ response.flatten)
    : sent.console.length + (plainText response.flatten).length ≤ consoleLimit := by
  have reads := Guest.Hears.reads sent response
  have shown := congrArg List.length (Guest.command_eq_some (answers.2 [] _ (by simp) reads))
  have bound := (reads.cut short straight).2
  rw [List.length_drop] at shown
  omega

/-- A guest with room for the response answers with it. -/
theorem Guest.answers_of_fits {sent : Guest} {response : List (List Byte)}
    (running : sent.status = "running".toList) (short : sent.console.length ≤ consoleLimit)
    (straight : (8 : Byte) ∉ response.flatten)
    (prompt : promptText <:+: decodeAscii response.flatten)
    (fits : sent.console.length + (plainText response.flatten).length ≤ consoleLimit)
    : sent.Answers response := by
  have awaited {first rest : List (List Byte)} {heard : Guest} (part : first ++ rest = response)
      (arrived : promptText <:+: decodeAscii first.flatten) (hears : sent.Hears first heard)
      : heard.prompted sent.console.length := by
    subst part
    simp only [List.flatten_append, List.mem_append, not_or, plainText_append,
      List.length_append] at straight fits
    have shown := (hears.cut short straight.1).1 (by omega)
    simpa [Guest.prompted, shown] using prompt_in_plainText arrived
  refine ⟨fun first rest heard => awaited, fun polled last patient later => ?_⟩
  have holds := awaited (List.append_nil response) prompt later
  have waited := @waitFor_append (fun guest => guest.prompted sent.console.length) _ _
    patient holds
  have shown := (later.cut short straight).1 fits
  simp [Guest.command, running, waited, shown]

/-- For every console that a guest can have accumulated and every response without backspaces in
which the prompt arrives, cut into chunks in any way: the guest answers with the response if and
only if the console and the text of the response together fit what the console retains.
-/
theorem command_answers_when_retained {history response : List (List Byte)} {sent : Guest}
    (hears : Guest.fresh.Hears history sent) (running : sent.status = "running".toList)
    (straight : (8 : Byte) ∉ response.flatten)
    (prompt : promptText <:+: decodeAscii response.flatten)
    : sent.Answers response
      ↔ sent.console.length + (plainText response.flatten).length ≤ consoleLimit :=
  ⟨fun answers => answers.fits hears.short straight,
    fun fits => Guest.answers_of_fits running hears.short straight prompt fits⟩

/-- A session of nothing but the prompt and the Enter key, up to the next prompt. -/
def enterHistory (count : Nat) : List (List Byte) :=
  List.replicate count [109, 105, 110, 105, 36, 32, 13, 10] ++ [[109, 105, 110, 105, 36, 32]]

/-- The guest after that session. -/
def enterGuest (count : Nat) : Guest :=
  { (enterHistory count).foldl Guest.readConsole Guest.fresh with status := "running".toList }

/-- What one more Enter writes. -/
def enterResponse : List (List Byte) := [[13, 10, 109, 105, 110, 105, 36, 32]]

theorem enterGuest_hears (count : Nat) : Guest.fresh.Hears (enterHistory count) (enterGuest count) :=
  (Guest.Hears.reads Guest.fresh (enterHistory count)).status _

theorem enterHistory_straight (count : Nat) : (8 : Byte) ∉ (enterHistory count).flatten := by
  simp [enterHistory]

/-- Every Enter adds a line of seven characters, until the console is full. -/
theorem enterGuest_length (count : Nat)
    : (enterGuest count).console.length = min (7 * count + 6) consoleLimit := by
  have lines : (plainText (enterHistory count).flatten).length = 7 * count + 6 := by
    induction count with
    | zero => rfl
    | succ count ih =>
        have line : (plainText [109, 105, 110, 105, 36, 32, 13, 10]).length = 7 := by decide
        have split : (enterHistory (count + 1)).flatten
            = [109, 105, 110, 105, 36, 32, 13, 10] ++ (enterHistory count).flatten := by
          simp [enterHistory, List.replicate_succ]
        rw [split, plainText_append, List.length_append, ih, line]
        omega
  rw [(enterGuest_hears count).plain (Nat.zero_le _) (enterHistory_straight count), keepLast_length,
    List.length_append, lines]
  exact congrArg (min · consoleLimit) (Nat.zero_add _)

theorem enterResponse_prompts : promptText <:+: decodeAscii enterResponse.flatten := by decide

/-- After ten thousand Enter keys the answer to one more is never seen. -/
theorem command_loses_output
    : Guest.fresh.Hears (enterHistory 10000) (enterGuest 10000)
      ∧ (enterGuest 10000).status = "running".toList
      ∧ (8 : Byte) ∉ enterResponse.flatten
      ∧ enterResponse.flatten.length < consoleLimit
      ∧ promptText <:+: decodeAscii enterResponse.flatten
      ∧ ¬(enterGuest 10000).Answers enterResponse := by
  have length := enterGuest_length 10000
  have text : (plainText enterResponse.flatten).length = 7 := by decide
  refine ⟨enterGuest_hears _, rfl, by decide, by unfold consoleLimit; decide,
    enterResponse_prompts, ?_⟩
  intro answers
  have fits := answers.fits (enterGuest_hears _).short (by decide)
  rw [length, text] at fits
  unfold consoleLimit at fits
  omega

/-- The first Enter of a session is answered. -/
theorem command_answers_first_enter : (enterGuest 1).Answers enterResponse := by
  refine (command_answers_when_retained (enterGuest_hears 1) rfl (by decide)
    enterResponse_prompts).mpr ?_
  have text : (plainText enterResponse.flatten).length = 7 := by decide
  rw [enterGuest_length, text]
  unfold consoleLimit
  decide

end MiniLinux
