import MiniLinux.Observer.Console
import MiniLinux.Observer.Command
import MiniLinux.User.Commands

/-! The prompt of `user/laboratory.c`. The shell edits its line and echoes what it does; the host
edits its console by what the shell sends. Both always hold the same text.
-/

namespace MiniLinux.User

open Foundation Interaction

-----------------------------------------------------------------------------------------
-- The program
-----------------------------------------------------------------------------------------

namespace Buffer

variable {size : Nat}

/-- The string from an index on; at most so many characters are read. -/
def stringFrom (buffer : Buffer size) (index : Nat) : Nat → UserCode (List Byte)
  | 0 => .stuck
  | limit + 1 => do
      let c ← buffer.load index
      if c = 0 then pure []
      else do
        let rest ← buffer.stringFrom (index + 1) limit
        pure (c :: rest)

/-- The string that the buffer holds. -/
def string (buffer : Buffer size) : UserCode (List Byte) := buffer.stringFrom 0 size

end Buffer

/-- The variables of `shell` while it polls. -/
structure Prompt where
  line : Buffer 96
  used : Nat
  overflow : Bool
  last : U64

/-- `c >= 32 && c <= 126`, where `char` is signed -/
def printable (c : Byte) : Bool := decide (32 ≤ c.toInt ∧ c.toInt ≤ 126)

/-- `print("mini$ ")` and the start of a line -/
def shellPrompt (line : Buffer 96) : UserCode Prompt := do
  print "mini$ "
  pure ⟨line, 0, false, 0⟩

/-- What the inner loop of `shell` does with a key. -/
def shellKey (prompt : Prompt) (c : Byte) : UserCode (Prompt ⊕ Prompt) :=
  if c = 13 ∨ c = 10 then do
    character 10
    pure (.inr prompt)
  else if c = 8 ∨ c = 127 then
    if prompt.used ≠ 0 ∧ prompt.overflow = false then do
      print "\x08 \x08"
      pure (.inl { prompt with used := prompt.used - 1 })
    else pure (.inl prompt)
  else if printable c then
    if prompt.used + 1 < 96 ∧ prompt.overflow = false then do
      let line ← prompt.line.store prompt.used c
      character c
      pure (.inl { prompt with line, used := prompt.used + 1 })
    else pure (.inl { prompt with overflow := true })
  else pure (.inl prompt)

/-- One round of the inner loop of `shell`. -/
def shellPoll (prompt : Prompt) : UserCode (Prompt ⊕ Prompt) := do
  let reply ← request .input
  if reply.result ≠ 1 then do
    let now ← call ticksCall
    if now - prompt.last ≥ 50 then do
      let _ ← call inspectCall
      pure (.inl { prompt with last := now })
    else pure (.inl prompt)
  else shellKey prompt (reply.stored.headD 0)

/-- What `shell` does with the line; it returns the buffer as it leaves it. -/
def shellEnter (rounds : Nat) (prompt : Prompt) : UserCode (Buffer 96) := do
  let line ← prompt.line.store prompt.used 0
  let line ←
    if prompt.overflow then do
      print "shell: line too long (95 characters maximum)\n"
      pure line
    else do
      let text ← line.string
      let left ← command rounds text
      pure (line.receive left)
  let _ ← call inspectCall
  pure line

/-- What remains of the round for a line that holds a text. -/
def runLine (rounds : Nat) (text : List Byte) (line : Buffer 96) : UserCode (Buffer 96) := do
  let left ← command rounds text
  let _ ← call inspectCall
  pure (line.receive left)

/-- What remains of the round for a line that was too long. -/
def refuseLine (line : Buffer 96) : UserCode (Buffer 96) := do
  print "shell: line too long (95 characters maximum)\n"
  let _ ← call inspectCall
  pure line

/-- One round of the outer loop of `shell`. -/
def shellRound (rounds : Nat) (line : Buffer 96) : UserCode (Buffer 96 ⊕ PUnit) := do
  let prompt ← shellPrompt line
  let prompt ← iterate shellPoll rounds prompt
  let line ← shellEnter rounds prompt
  pure (.inl line)

/-- The part of a round up to Enter. -/
def shellTypes (rounds : Nat) (line : Buffer 96) : UserCode Prompt := do
  let prompt ← shellPrompt line
  iterate shellPoll rounds prompt

/-- The part of a round from Enter to the end of the command. -/
def shellObeys (rounds : Nat) (prompt : Prompt) : UserCode (Buffer 96) := do
  let line ← prompt.line.store prompt.used 0
  if prompt.overflow then do
    print "shell: line too long (95 characters maximum)\n"
    pure line
  else do
    let text ← line.string
    let left ← command rounds text
    pure (line.receive left)

theorem shellEnter_obeys (rounds : Nat) (prompt : Prompt)
    : shellEnter rounds prompt
      = shellObeys rounds prompt >>= fun line => call inspectCall >>= fun _ => pure line := by
  unfold shellEnter shellObeys
  rw [bind_bind]
  refine congrArg (prompt.line.store prompt.used 0 >>= ·) (funext fun line => ?_)
  dsimp only
  split
  · rw [bind_bind]
  · rw [bind_bind]
    refine congrArg (line.string >>= ·) (funext fun text => ?_)
    rw [bind_bind]

/-- After the two parts a round makes one more call. -/
theorem shellRound_parts (rounds : Nat) (line : Buffer 96)
    : shellRound rounds line
      = shellTypes rounds line >>= fun prompt =>
          shellObeys rounds prompt >>= fun line => call inspectCall >>= fun _ => pure (.inl line) := by
  unfold shellRound shellTypes
  rw [bind_bind]
  refine congrArg (shellPrompt line >>= ·) (funext fun prompt => ?_)
  refine congrArg (iterate shellPoll rounds prompt >>= ·) (funext fun prompt => ?_)
  rw [shellEnter_obeys, bind_bind]
  rfl

/-- `shell` -/
def shell (rounds : Nat) : UserCode PUnit := do
  print "MiniLinux / x86_64 teaching kernel\n"
  print "Type 'help' for commands.\n\n"
  iterate (shellRound rounds) rounds Buffer.fresh

-----------------------------------------------------------------------------------------
-- What is typed and what is shown
-----------------------------------------------------------------------------------------

/-- The bytes that the calls send to COM1. -/
def com1 (exchanges : List (Request × Reply)) : List Byte :=
  exchanges.flatMap fun exchange =>
    match exchange.1 with
    | .write bytes => serialBytes bytes
    | _ => []

/-- The keys that `SYS_INPUT` delivered. -/
def keys (exchanges : List (Request × Reply)) : List Byte :=
  exchanges.flatMap fun exchange =>
    if exchange.1 = .input ∧ exchange.2.result = 1 then [exchange.2.stored.headD 0] else []

/-- What a key does to a line that has no bound. -/
def keyEdit (c : Byte) : Edit Byte :=
  if c = 8 ∨ c = 127 then .erase else if printable c then .append c else .ignore

/-- The line that the keys would type if it had no bound. -/
def typed (keys : List Byte) : List Byte := edited [] (keys.map keyEdit)

@[simp] theorem com1_append (first second : List (Request × Reply))
    : com1 (first ++ second) = com1 first ++ com1 second :=
  List.flatMap_append

@[simp] theorem keys_append (first second : List (Request × Reply))
    : keys (first ++ second) = keys first ++ keys second :=
  List.flatMap_append

theorem keys_cons (request : Request) (reply : Reply) (rest : List (Request × Reply))
    : keys ((request, reply) :: rest)
      = (if request = .input ∧ reply.result = 1 then [reply.stored.headD 0] else []) ++ keys rest :=
  rfl

theorem serialBytes_single {c : Byte} (other : c ≠ 10) : serialBytes [c] = [c] := by
  simp only [serialBytes, List.flatMap_cons, if_neg other, List.flatMap_nil, List.append_nil]

@[simp] theorem typed_append (first : List Byte) (c : Byte)
    : typed (first ++ [c]) = (keyEdit c).apply (typed first) := by
  simp [typed]

/-- What one round of the loop can do: the keys it took, what it sent and how it goes on. -/
inductive Polled (prompt : Prompt) : List Byte → List Byte → Prompt ⊕ Prompt → Prop
  | idle (last : U64) : Polled prompt [] [] (.inl { prompt with last })
  | enter {c : Byte} (key : c = 13 ∨ c = 10) : Polled prompt [c] [13, 10] (.inr prompt)
  | erased {c : Byte} (key : c = 8 ∨ c = 127) (some : prompt.used ≠ 0)
      (fits : prompt.overflow = false)
      : Polled prompt [c] [8, 32, 8] (.inl { prompt with used := prompt.used - 1 })
  | kept {c : Byte} (key : c = 8 ∨ c = 127) (refused : ¬(prompt.used ≠ 0 ∧ prompt.overflow = false))
      : Polled prompt [c] [] (.inl prompt)
  | typed {c : Byte} {line : Buffer 96} (key : printable c = true) (erases : ¬(c = 8 ∨ c = 127))
      (room : prompt.used + 1 < 96) (fits : prompt.overflow = false)
      (stored : prompt.line.store prompt.used c = .done line)
      : Polled prompt [c] [c] (.inl { prompt with line, used := prompt.used + 1 })
  | overflowed {c : Byte} (key : printable c = true) (erases : ¬(c = 8 ∨ c = 127))
      (full : ¬(prompt.used + 1 < 96 ∧ prompt.overflow = false))
      : Polled prompt [c] [] (.inl { prompt with overflow := true })
  | ignored {c : Byte} (key : printable c = false) (erases : ¬(c = 8 ∨ c = 127))
      : Polled prompt [c] [] (.inl prompt)

theorem Polled.entered {prompt entered : Prompt} {taken sent : List Byte}
    (polled : Polled prompt taken sent (.inr entered))
    : entered = prompt := by
  cases polled
  rfl

theorem Polled.key {prompt entered : Prompt} {taken sent : List Byte}
    (polled : Polled prompt taken sent (.inr entered))
    : ∃ c, taken = [c] := by
  cases polled with
  | @enter c => exact ⟨c, rfl⟩

theorem printable_ne_newline : ∀ c : Byte, printable c = true → c ≠ 10 := by
  decide

theorem shellKey_runs {prompt : Prompt} {c : Byte} {exchanges : List (Request × Reply)}
    {outcome : Prompt ⊕ Prompt} (run : (shellKey prompt c).Runs exchanges outcome)
    : keys exchanges = [] ∧ Polled prompt [c] (com1 exchanges) outcome := by
  have backspace : print "\x08 \x08" = .ask (.write [8, 32, 8]) fun _ => .done ⟨⟩ :=
    print_short (by decide) (by decide)
  unfold shellKey at run
  by_cases enter : c = 13 ∨ c = 10
  · simp only [enter, if_true, character_eq, ask_bind, done_bind, pure_eq, runs_ask, runs_done] at run
    obtain ⟨_, _, rfl, rfl, rfl⟩ := run
    exact ⟨rfl, .enter enter⟩
  simp only [enter, if_false] at run
  by_cases erases : c = 8 ∨ c = 127
  · simp only [erases, if_true] at run
    split_ifs at run with erasing
    · simp only [backspace, ask_bind, done_bind, pure_eq, runs_ask, runs_done] at run
      obtain ⟨_, _, rfl, rfl, rfl⟩ := run
      exact ⟨rfl, .erased erases erasing.1 erasing.2⟩
    · obtain ⟨rfl, rfl⟩ := runs_done.mp run
      exact ⟨rfl, .kept erases erasing⟩
  simp only [erases, if_false] at run
  cases prints : printable c with
  | false =>
      simp only [prints, Bool.false_eq_true, if_false, pure_eq, runs_done] at run
      obtain ⟨rfl, rfl⟩ := run
      exact ⟨rfl, .ignored prints erases⟩
  | true =>
      simp only [prints, if_true] at run
      split_ifs at run with room
      · have stored : prompt.line.store prompt.used c
            = .done (Function.update prompt.line ⟨prompt.used, by omega⟩ (some c)) :=
          dif_pos _
        simp only [stored, character_eq, ask_bind, done_bind, pure_eq, runs_ask, runs_done] at run
        obtain ⟨_, _, rfl, rfl, rfl⟩ := run
        have echo (reply : Reply) : com1 [(.write [c], reply)] = [c] :=
          (List.append_nil _).trans (serialBytes_single (printable_ne_newline c prints))
        refine ⟨rfl, ?_⟩
        rw [echo]
        exact .typed prints erases room.1 room.2 stored
      · obtain ⟨rfl, rfl⟩ := runs_done.mp run
        exact ⟨rfl, .overflowed prints erases room⟩

theorem shellPoll_runs {prompt : Prompt} {exchanges : List (Request × Reply)}
    {outcome : Prompt ⊕ Prompt} (run : (shellPoll prompt).Runs exchanges outcome)
    : Polled prompt (keys exchanges) (com1 exchanges) outcome := by
  unfold shellPoll at run
  rw [request_bind, runs_ask] at run
  obtain ⟨reply, rest, rfl, run⟩ := run
  by_cases some : reply.result = 1
  · simp only [some, ne_eq, not_true_eq_false, if_false] at run
    obtain ⟨none, polled⟩ := shellKey_runs run
    rw [keys_cons, if_pos ⟨rfl, some⟩, none]
    exact polled
  · simp only [some, ne_eq, not_false_eq_true, if_true, call, request_bind, ask_bind, pure_eq,
      done_bind, runs_ask] at run
    obtain ⟨ticks, rest, rfl, run⟩ := run
    rw [keys_cons, if_neg fun both => some both.2]
    split_ifs at run with due
    · simp only [runs_ask, runs_done] at run
      obtain ⟨_, _, rfl, rfl, rfl⟩ := run
      exact .idle ticks.result
    · obtain ⟨rfl, rfl⟩ := runs_done.mp run
      exact .idle prompt.last

-----------------------------------------------------------------------------------------
-- The line on both sides
-----------------------------------------------------------------------------------------

/-- `line[0..used)` is this text. -/
structure Prompt.Types (prompt : Prompt) (text : List Byte) : Prop where
  holds : prompt.line.Holds text
  used : prompt.used = text.length
  short : text.length ≤ 95
  plain : ∀ c ∈ text, printable c = true

/-- After these keys and this output the line holds the text and the console shows it. The line
is what the keys type unless that ever was longer than the line can be.
-/
structure Prompt.Shows (prompt : Prompt) (keys output text : List Byte) : Prop where
  types : prompt.Types text
  shown : consoleText output = decodeAscii text
  grounded : Grounded 95 [] (consoleEdits output)
  fitted : prompt.overflow = false → typed keys = text ∧ ∀ first, first <+: keys → (typed first).length ≤ 95
  exceeded : prompt.overflow = true → ∃ first, first <+: keys ∧ 95 < (typed first).length

/-- A printable character is shown as itself. -/
theorem consoleEdits_printable {c : Byte} (key : printable c = true)
    : ∃ character, decodeAscii [c] = [character] ∧ consoleEdits [c] = [.append character] := by
  have plain : ∀ c : Byte,
      printable c = true
      → (if c.toNat < 128 then Char.ofNat c.toNat else '\uFFFD') ≠ '\x08'
        ∧ (if c.toNat < 128 then Char.ofNat c.toNat else '\uFFFD') ≠ '\r' := by
    decide
  obtain ⟨erases, returns⟩ := plain c key
  refine ⟨_, rfl, ?_⟩
  simp only [consoleEdits, decodeAscii, List.map_cons, List.map_nil, consoleEdit, if_neg erases,
    ne_eq, returns, not_false_eq_true, if_true]

/-- Backspace, space, backspace. -/
theorem consoleEdits_backspace : consoleEdits [8, 32, 8] = [.erase, .append ' ', .erase] := rfl

theorem Buffer.Holds.of_prefix {size : Nat} {buffer : Buffer size} {text part : List Byte}
    (holds : buffer.Holds text) (front : part <+: text)
    : buffer.Holds part := by
  obtain ⟨rest, rfl⟩ := front
  refine ⟨(List.length_append ▸ Nat.le_add_right _ _).trans holds.1, fun index inside => ?_⟩
  have longer : index.val < (part ++ rest).length := by
    rw [List.length_append]
    omega
  rw [holds.2 index longer, List.getElem?_append_left inside]

namespace Prompt.Shows

variable {prompt prompt' : Prompt} {ks output text : List Byte}

/-- A new line. -/
theorem start (line : Buffer 96) : Prompt.Shows ⟨line, 0, false, 0⟩ [] [] [] where
  types := ⟨Buffer.holds_nil line, rfl, by simp, by simp⟩
  shown := rfl
  grounded := by simp [Grounded]
  fitted _ := ⟨rfl, by simp [typed]⟩
  exceeded := by simp

/-- What the keys typed, with one more key. -/
theorem fitted_snoc {c : Byte} {text' : List Byte}
    (fitted : typed ks = text ∧ ∀ first, first <+: ks → (typed first).length ≤ 95)
    (next : (keyEdit c).apply text = text') (short : text'.length ≤ 95)
    : typed (ks ++ [c]) = text'
      ∧ ∀ first, first <+: ks ++ [c] → (typed first).length ≤ 95 := by
  have last : typed (ks ++ [c]) = text' := by
    rw [typed_append, fitted.1, next]
  refine ⟨last, fun first part => ?_⟩
  rcases List.prefix_concat_iff.mp part with rfl | inside
  · rwa [last]
  · exact fitted.2 first inside

theorem exceeded_snoc {more : List Byte} (exceeded : ∃ first, first <+: ks ∧ 95 < (typed first).length)
    : ∃ first, first <+: ks ++ more ∧ 95 < (typed first).length := by
  obtain ⟨first, part, long⟩ := exceeded
  exact ⟨first, part.trans (List.prefix_append ks more), long⟩

/-- One round of the loop that goes on. -/
theorem polled {taken sent : List Byte} (shows : prompt.Shows ks output text)
    (polled : Polled prompt taken sent (.inl prompt'))
    : ∃ text', prompt'.Shows (ks ++ taken) (output ++ sent) text' := by
  obtain ⟨⟨holds, used, short, plain⟩, shown, grounded, fitted, exceeded⟩ := shows
  have length : (decodeAscii text).length = text.length := List.length_map _
  cases polled with
  | idle last =>
      rw [List.append_nil, List.append_nil]
      exact ⟨text, ⟨holds, used, short, plain⟩, shown, grounded, fitted, exceeded⟩
  | @erased c key some fits =>
      have edit : keyEdit c = .erase := if_pos key
      have nonempty : decodeAscii text ≠ [] := by
        rw [← List.length_pos_iff, length]
        omega
      refine ⟨text.dropLast, ⟨holds.of_prefix (List.dropLast_prefix text), ?_, ?_, ?_⟩, ?_, ?_, ?_, ?_⟩
      · rw [List.length_dropLast, used]
      · rw [List.length_dropLast]
        omega
      · exact fun c member => plain c (List.dropLast_subset text member)
      · rw [consoleText_append, shown, consoleEdits_backspace]
        simp [Edit.apply, decodeAscii, List.map_dropLast]
      · rw [consoleEdits_append, Grounded.append_iff]
        refine ⟨grounded, ?_⟩
        change Grounded 95 (consoleText output) _
        rw [shown, consoleEdits_backspace]
        simp [Grounded, Edit.apply, nonempty, length]
        omega
      · intro _
        exact fitted_snoc (fitted fits) (edit ▸ rfl) (by rw [List.length_dropLast]; omega)
      · exact fun full => absurd (full.symm.trans fits) (by decide)
  | @kept c key refused =>
      have edit : keyEdit c = .erase := if_pos key
      rw [List.append_nil]
      refine ⟨text, ⟨holds, used, short, plain⟩, shown, grounded, ?_, fun full => exceeded_snoc (exceeded full)⟩
      intro fits
      have none : text = [] := by
        rw [← List.length_eq_zero_iff, ← used]
        by_contra some
        exact refused ⟨some, fits⟩
      exact fitted_snoc (fitted fits) (by simp [edit, none, Edit.apply]) short
  | @typed c line key erases room fits stored =>
      have edit : keyEdit c = .append c := (if_neg erases).trans (if_pos key)
      obtain ⟨line', stored', holds'⟩ := holds.store (show text.length < 96 by omega) c
      rw [← used, stored] at stored'
      cases stored'
      obtain ⟨character, decoded, appended⟩ := consoleEdits_printable key
      have more : decodeAscii (text ++ [c]) = decodeAscii text ++ [character] := by
        rw [← decoded]
        exact List.map_append
      refine ⟨text ++ [c], ⟨holds', ?_, ?_, ?_⟩, ?_, ?_, ?_, ?_⟩
      · simp [used]
      · rw [List.length_append, List.length_singleton]
        omega
      · intro other member
        rcases List.mem_append.mp member with old | new
        · exact plain other old
        · exact List.mem_singleton.mp new ▸ key
      · rw [consoleText_append, shown, appended, more]
        rfl
      · rw [consoleEdits_append, Grounded.append_iff]
        refine ⟨grounded, ?_⟩
        change Grounded 95 (consoleText output) _
        rw [shown, appended]
        simp [Grounded, Edit.apply, length]
        omega
      · intro _
        exact fitted_snoc (fitted fits) (edit ▸ rfl) (by rw [List.length_append, List.length_singleton]; omega)
      · exact fun full => absurd (full.symm.trans fits) (by decide)
  | @overflowed c key erases full =>
      have edit : keyEdit c = .append c := (if_neg erases).trans (if_pos key)
      rw [List.append_nil]
      refine ⟨text, ⟨holds, used, short, plain⟩, shown, grounded, by simp, fun _ => ?_⟩
      cases before : prompt.overflow with
      | true => exact exceeded_snoc (exceeded before)
      | false =>
          have filled : ¬prompt.used + 1 < 96 := fun room => full ⟨room, before⟩
          refine ⟨ks ++ [c], List.prefix_rfl, ?_⟩
          rw [typed_append, (fitted before).1, edit]
          simp only [Edit.apply, List.length_append, List.length_singleton]
          omega
  | @ignored c key erases =>
      have edit : keyEdit c = .ignore := (if_neg erases).trans (if_neg (by simp [key]))
      rw [List.append_nil]
      refine ⟨text, ⟨holds, used, short, plain⟩, shown, grounded, ?_, fun full => exceeded_snoc (exceeded full)⟩
      intro fits
      exact fitted_snoc (fitted fits) (edit ▸ rfl) short

/-- Any number of rounds. Witness: induction on the rounds. -/
theorem repeats {exchanges : List (Request × Reply)} (shows : prompt.Shows ks output text)
    (rounds : Repeats shellPoll prompt exchanges prompt')
    : ∃ text', prompt'.Shows (ks ++ keys exchanges) (output ++ com1 exchanges) text' := by
  induction rounds with
  | refl => exact ⟨text, by simpa [keys, com1] using shows⟩
  | tail _ last ih =>
      obtain ⟨middle, here⟩ := ih
      obtain ⟨text', next⟩ := here.polled (shellPoll_runs last)
      exact ⟨text', by simpa using next⟩

/-- The loop takes any key but Enter. -/
theorem takes (shows : prompt.Shows ks output text) {c : Byte} (goes : ¬(c = 13 ∨ c = 10))
    : ∃ exchanges prompt',
        (shellPoll prompt).Runs exchanges (.inl prompt') ∧ keys exchanges = [c] := by
  have taken (rest : List (Request × Reply)) (outcome : Prompt ⊕ Prompt)
      (run : (shellKey prompt c).Runs rest outcome)
      : (shellPoll prompt).Runs ((.input, ⟨1, [c]⟩) :: rest) outcome
        ∧ keys ((.input, ⟨1, [c]⟩) :: rest) = [c] := by
    refine ⟨.ask run, ?_⟩
    rw [keys_cons, if_pos ⟨rfl, rfl⟩, (shellKey_runs run).1]
    rfl
  have goesOn : ∃ rest prompt', (shellKey prompt c).Runs rest (.inl prompt') := by
    have backspace : print "\x08 \x08" = .ask (.write [8, 32, 8]) fun _ => .done ⟨⟩ :=
      print_short (by decide) (by decide)
    obtain ⟨line, stored, _⟩ :=
      shows.types.holds.store (Nat.lt_of_le_of_lt shows.types.short (by decide)) c
    rw [← shows.types.used] at stored
    unfold shellKey
    simp only [goes, if_false, backspace, stored, character_eq, ask_bind, done_bind, pure_eq]
    split_ifs
    · exact ⟨_, _, runs_ask.mpr ⟨⟨3, []⟩, [], rfl, .done _⟩⟩
    · exact ⟨_, _, .done _⟩
    · exact ⟨_, _, runs_ask.mpr ⟨⟨1, []⟩, [], rfl, .done _⟩⟩
    · exact ⟨_, _, .done _⟩
    · exact ⟨_, _, .done _⟩
  obtain ⟨rest, prompt', run⟩ := goesOn
  exact ⟨_, prompt', taken rest _ run⟩

/-- Any keys without Enter can be typed. Witness: induction on the keys. -/
theorem takesAll (shows : prompt.Shows ks output text) {more : List Byte}
    (goes : ∀ c ∈ more, ¬(c = 13 ∨ c = 10))
    : ∃ exchanges prompt', Repeats shellPoll prompt exchanges prompt' ∧ keys exchanges = more := by
  induction more using List.reverseRecOn with
  | nil => exact ⟨[], prompt, .refl prompt, rfl⟩
  | append_singleton more c ih =>
      obtain ⟨exchanges, middle, rounds, taken⟩ :=
        ih fun other member => goes other (List.mem_append_left [c] member)
      obtain ⟨_, here⟩ := shows.repeats rounds
      obtain ⟨next, prompt', run, key⟩ := here.takes (goes c (by simp))
      exact ⟨exchanges ++ next, prompt', rounds.tail run, by simp [taken, key]⟩

end Prompt.Shows

-----------------------------------------------------------------------------------------
-- Enter
-----------------------------------------------------------------------------------------

theorem Buffer.Holds.stringFrom {size : Nat} {buffer : Buffer size} {front rest : List Byte}
    {limit : Nat} (holds : buffer.Holds (front ++ rest ++ [0])) (some : 0 ∉ rest)
    (enough : rest.length < limit)
    : buffer.stringFrom front.length limit = .done rest := by
  induction rest generalizing front limit with
  | nil =>
      obtain ⟨limit, rfl⟩ := Nat.exists_eq_succ_of_ne_zero (Nat.ne_of_gt enough)
      have here := holds.load (show front.length < (front ++ [] ++ [0]).length by simp)
      simp [Buffer.stringFrom, here]
  | cons c rest ih =>
      simp only [List.length_cons] at enough
      obtain ⟨limit, rfl⟩ := Nat.exists_eq_succ_of_ne_zero (show limit ≠ 0 by omega)
      have here := holds.load (show front.length < (front ++ c :: rest ++ [0]).length by simp)
      obtain ⟨other, later⟩ := List.ne_and_not_mem_of_not_mem_cons some
      have next := @ih (front ++ [c]) limit (by simpa using holds) later (by omega)
      simp only [List.length_append, List.length_singleton] at next
      simp only [Buffer.stringFrom, here, done_bind, next]
      simpa using Ne.symm other

/-- What happens after Enter: the command is exactly the text of the line, or the line was too
long and no command runs.
-/
theorem shellEnter_eq {prompt : Prompt} {text : List Byte} (types : prompt.Types text)
    : ∃ line : Buffer 96, ∀ rounds,
        shellEnter rounds prompt
          = if prompt.overflow then refuseLine line else runLine rounds text line := by
  have fits := types.short
  obtain ⟨line, stored, holds⟩ := types.holds.store (show text.length < 96 by omega) 0
  rw [← types.used] at stored
  have some : 0 ∉ text := fun member => absurd (types.plain 0 member) (by decide)
  have string : line.string = .done text :=
    @Buffer.Holds.stringFrom _ _ [] text 96 (by simpa using holds) some (by omega)
  refine ⟨line, fun rounds => ?_⟩
  unfold shellEnter refuseLine runLine
  cases prompt.overflow <;>
    simp only [stored, string, done_bind, pure_eq, Bool.false_eq_true, if_false, if_true]

/-- The prompt, as it is printed. -/
theorem shellPrompt_runs {line : Buffer 96} {prompt : Prompt} {opening : List (Request × Reply)}
    (opened : (shellPrompt line).Runs opening prompt)
    : prompt = ⟨line, 0, false, 0⟩ ∧ com1 opening = textBytes "mini$ " := by
  have message : print "mini$ " = .ask (.write (textBytes "mini$ ")) fun _ => .done ⟨⟩ :=
    print_short (by decide) (by decide)
  simp only [shellPrompt, message, ask_bind, done_bind, pure_eq, runs_ask, runs_done] at opened
  obtain ⟨_, _, rfl, rfl, rfl⟩ := opened
  exact ⟨rfl, rfl⟩

/-- The console behind the prompt, when all of some part of the echo has arrived. -/
theorem prompt_shown {output part : List Byte} (grounded : Grounded 95 [] (consoleEdits output))
    (front : part <+: output) {start guest : Guest} {chunks : List (List Byte)} {before : List Byte}
    (hears : start.Hears chunks guest)
    (heard : chunks.flatten = before ++ (textBytes "mini$ " ++ part))
    : ∃ front, guest.console = front ++ promptText ++ consoleText part := by
  have prompt : consoleEdits (textBytes "mini$ ") = promptText.map Edit.append := rfl
  have room : promptText.length + 95 ≤ consoleLimit := by
    unfold consoleLimit
    decide
  have appended : edited [] (consoleEdits (textBytes "mini$ ")) = promptText ++ [] := by
    rw [prompt, edited_appends]
    simp
  have echo : Grounded 95 [] (consoleEdits part) := by
    obtain ⟨rest, rfl⟩ := front
    exact grounded.of_prefix (by simp)
  have inside : Grounded consoleLimit [] (consoleEdits (textBytes "mini$ " ++ part)) := by
    rw [consoleEdits_append, Grounded.append_iff, appended, prompt]
    exact ⟨.appends _ (by simpa using Nat.le_of_add_right_le room), (echo.behind promptText).mono room⟩
  obtain ⟨front, shown⟩ := hears.tail heard inside
  refine ⟨front, ?_⟩
  rw [shown, consoleText_append, List.append_assoc, consoleText, appended, echo.edited_append]
  rfl

/-- Whatever keys arrive after a prompt: while the shell polls, the console of a host that has
read everything ends with the prompt and the text of the line, which is what the keys type if
that always fitted. The prompt is there at every moment in between. At Enter exactly this text
is run, or the line was too long once, the shell says so and runs nothing.
-/
theorem prompt_line_is_what_runs {line : Buffer 96} {prompt later : Prompt}
    {opening exchanges : List (Request × Reply)} (opened : (shellPrompt line).Runs opening prompt)
    (rounds : Repeats shellPoll prompt exchanges later)
    : ∃ text,
        later.Types text
        ∧ (∀ start guest chunks before,
          Guest.Hears start chunks guest
          → chunks.flatten = before ++ com1 (opening ++ exchanges)
          → ∃ front, guest.console = front ++ promptText ++ decodeAscii text)
        ∧ (∀ part start guest chunks before,
          part <+: com1 exchanges
          → Guest.Hears start chunks guest
          → chunks.flatten = before ++ (com1 opening ++ part)
          → ∃ front rest, guest.console = front ++ promptText ++ rest)
        ∧ (later.overflow = true
          ↔ ∃ first, first <+: keys exchanges ∧ 95 < (typed first).length)
        ∧ (later.overflow = false → typed (keys exchanges) = text)
        ∧ ∀ last entered,
            (shellPoll later).Runs last (.inr entered)
            → ∃ line : Buffer 96, ∀ rounds,
                shellEnter rounds entered
                  = if later.overflow then refuseLine line else runLine rounds text line := by
  obtain ⟨rfl, prompted⟩ := shellPrompt_runs opened
  obtain ⟨text, shows⟩ := (Prompt.Shows.start line).repeats rounds
  rw [List.nil_append, List.nil_append] at shows
  refine ⟨text, shows.types, ?_, ?_, ⟨shows.exceeded, ?_⟩, fun fits => (shows.fitted fits).1, ?_⟩
  · intro start guest chunks before hears heard
    rw [com1_append, prompted] at heard
    rw [← shows.shown]
    exact prompt_shown shows.grounded List.prefix_rfl hears heard
  · intro part start guest chunks before inside hears heard
    rw [prompted] at heard
    obtain ⟨front, shown⟩ := prompt_shown shows.grounded inside hears heard
    exact ⟨front, _, shown⟩
  · rintro ⟨first, inside, long⟩
    by_contra fits
    have short := (shows.fitted (Bool.eq_false_of_not_eq_true fits)).2 first inside
    omega
  · intro last entered run
    rw [(shellPoll_runs run).entered]
    exact shellEnter_eq shows.types

/-- After `l` and a backspace the prompt is what the console ends with. -/
theorem prompt_line_of_erased_key
    : ∃ opening exchanges prompt later text,
        (shellPrompt Buffer.fresh).Runs opening prompt
        ∧ Repeats shellPoll prompt exchanges later
        ∧ keys exchanges = [108, 8]
        ∧ later.Types text
        ∧ ∀ guest,
            Guest.fresh.Hears [com1 (opening ++ exchanges)] guest
            → ∃ front, guest.console = front ++ promptText ++ decodeAscii text := by
  have message : print "mini$ " = .ask (.write (textBytes "mini$ ")) fun _ => .done ⟨⟩ :=
    print_short (by decide) (by decide)
  have opened : (shellPrompt Buffer.fresh).Runs [(.write (textBytes "mini$ "), ⟨6, []⟩)]
      ⟨Buffer.fresh, 0, false, 0⟩ := by
    simp only [shellPrompt, message]
    exact .ask (.done _)
  obtain ⟨exchanges, later, rounds, taken⟩ :=
    @Prompt.Shows.takesAll _ _ _ _ (.start Buffer.fresh) [108, 8] (by decide)
  obtain ⟨text, types, shown, _⟩ := prompt_line_is_what_runs opened rounds
  refine ⟨_, exchanges, _, later, text, opened, rounds, taken, types, fun guest hears => ?_⟩
  exact shown _ guest _ [] hears (by simp)

end MiniLinux.User
