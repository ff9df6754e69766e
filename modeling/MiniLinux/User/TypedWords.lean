import MiniLinux.Foundation.Words
import MiniLinux.User.Shell

/-! From a line in the page to the words that the shell looks at. The bridge lets tabs through
and `command` treats them as blanks, but the input loop in between drops them.
-/

namespace MiniLinux.User

open Foundation Interaction

-----------------------------------------------------------------------------------------
-- The words of a line
-----------------------------------------------------------------------------------------

/-- A line with zeros for its blanks. -/
def blanked (line : List Byte) : List Byte := line.map fun c => if blank c then 0 else c

/-- Where the words of the rest of a line start, inside a word or not. -/
def startsOf (position : Nat) (inside : Bool) : List Byte → List Nat
  | [] => []
  | c :: rest =>
      if blank c then startsOf (position + 1) false rest
      else if !inside then position :: startsOf (position + 1) true rest
      else startsOf (position + 1) true rest

/-- The loop of `command` finds the starts, unless there are more than four. Witness: induction
on the rest of the line.
-/
theorem tokenize_eq (passed : List Byte) (words : List Nat) (inside : Bool) (rest : List Byte)
    (few : words.length ≤ 4)
    : (words.length + (startsOf passed.length inside rest).length ≤ 4
        → tokenize passed words inside rest
          = (passed ++ blanked rest, some (words ++ startsOf passed.length inside rest)))
      ∧ (4 < words.length + (startsOf passed.length inside rest).length
        → (tokenize passed words inside rest).2 = none) := by
  induction rest generalizing passed words inside with
  | nil =>
      constructor
      · intro _
        simp [tokenize, startsOf, blanked]
      · intro many
        simp only [startsOf, List.length_nil] at many
        omega
  | cons c rest ih =>
      cases separates : blank c with
      | true =>
          have next := ih (passed ++ [0]) words false few
          simpa [tokenize, startsOf, separates, blanked] using next
      | false =>
          cases inside with
          | true =>
              have next := ih (passed ++ [c]) words true few
              simpa [tokenize, startsOf, separates, blanked] using next
          | false =>
              by_cases last : words.length = 4
              · simp [tokenize, startsOf, separates, last]
              · have next := ih (passed ++ [c]) (words ++ [passed.length]) true (by simp; omega)
                simpa [tokenize, startsOf, separates, blanked, last, Nat.add_assoc, Nat.add_comm 1]
                  using next

/-- The string at the start of a blanked line. -/
theorem takeWhile_blanked {line : List Byte} (some : 0 ∉ line)
    : (blanked line).takeWhile (fun c => c ≠ 0) = firstWord blank line := by
  induction line with
  | nil => rfl
  | cons c line ih =>
      obtain ⟨other, rest⟩ := List.ne_and_not_mem_of_not_mem_cons some
      have next := ih rest
      cases separates : blank c with
      | true => simp [blanked, firstWord_separator separates, separates]
      | false =>
          have here : decide (c ≠ 0) = true := decide_eq_true (Ne.symm other)
          have kept : blanked (c :: line) = c :: blanked line := by
            simp only [blanked, List.map_cons, separates, Bool.false_eq_true, if_false]
          rw [firstWord_inside separates, ← next, kept, List.takeWhile_cons]
          exact if_pos here

/-- The strings at the starts are the words. Witness: induction on the rest of the line. -/
theorem startsOf_words (passed : List Byte) {rest : List Byte} (some : 0 ∉ rest)
    : (startsOf passed.length false rest).map (wordAt (passed ++ blanked rest)) = wordsBy blank rest
      ∧ (startsOf passed.length true rest).map (wordAt (passed ++ blanked rest))
        = laterWords blank rest := by
  induction rest generalizing passed with
  | nil => exact ⟨rfl, rfl⟩
  | cons c rest ih =>
      have later := (List.ne_and_not_mem_of_not_mem_cons some).2
      obtain ⟨outside, inside⟩ := ih (passed ++ [if blank c then 0 else c]) later
      simp only [List.length_append, List.length_singleton, List.append_assoc,
        List.singleton_append] at outside inside
      have line : blanked (c :: rest) = (if blank c then 0 else c) :: blanked rest := rfl
      rw [line]
      cases separates : blank c with
      | true =>
          simp only [separates, if_true] at outside
          simp only [startsOf, separates, if_true, wordsBy_separator separates,
            laterWords_separator separates]
          exact ⟨outside, outside⟩
      | false =>
          simp only [separates, Bool.false_eq_true, if_false] at inside
          have word : wordAt (passed ++ c :: blanked rest) passed.length
              = c :: firstWord blank rest := by
            have first := takeWhile_blanked some
            simp only [line, separates, Bool.false_eq_true, if_false, firstWord_inside separates]
              at first
            rw [wordAt, List.drop_left]
            exact first
          simp only [startsOf, separates, Bool.false_eq_true, if_false, Bool.not_false, Bool.not_true,
            if_true, List.map_cons, word, inside, wordsBy_inside separates,
            laterWords_inside separates, and_self]

/-- What `command` should look at: the words between blanks, unless there are more than four. -/
def blankSeparated (line : List Byte) : Option (List (List Byte)) :=
  let words := wordsBy blank line
  if 4 < words.length then none else some words

/-- `command` looks at the words of its line. -/
theorem wordsOf_eq {line : List Byte} (some : 0 ∉ line) : wordsOf line = blankSeparated line := by
  obtain ⟨words, _⟩ := startsOf_words [] some
  obtain ⟨fits, many⟩ := tokenize_eq [] [] false line (Nat.zero_le _)
  have count : (startsOf 0 false line).length = (wordsBy blank line).length := by
    rw [← words, List.length_map]
    rfl
  unfold wordsOf blankSeparated
  simp only [List.length_nil, Nat.zero_add, List.nil_append, count] at fits many words ⊢
  split_ifs with more
  · simp [many more]
  · simp [fits (Nat.le_of_not_lt more), words]

-----------------------------------------------------------------------------------------
-- The way of a line to the shell
-----------------------------------------------------------------------------------------

/-- `text.encode("ascii")` -/
def encodeAscii (text : Text) : List Byte := text.map fun c => BitVec.ofNat 8 c.toNat

/-- The characters that `/api/input` refuses. -/
def refusedInput (c : Char) : Bool :=
  decide (c.toNat > 126 ∨ (c.toNat < 32 ∧ c ∉ ['\r', '\n', '\x08', '\t']))

/-- `/api/input`: the bytes that the guest gets, or `none` for a refused text -/
def apiInput (text : Text) : Option (List Byte) :=
  if text = [] ∨ text.length > 256 ∨ text.any refusedInput = true then none
  else some (encodeAscii text)

/-- `/^[\x20-\x7e\t]*$/`, for one character -/
def pageCharacter (c : Char) : Bool := decide ((32 ≤ c.toNat ∧ c.toNat ≤ 126) ∨ c = '\t')

/-- What `command` of the page sends for the value of its field; `none` is an error. -/
def pageInput (value : Text) : Option Text :=
  if value.all pageCharacter = true then some (value ++ ['\r']) else none

/-- A line of printable characters and tabs that fits. -/
structure Typable (value : Text) : Prop where
  plain : ∀ c ∈ value, (32 ≤ c.toNat ∧ c.toNat ≤ 126) ∨ c = '\t'
  short : value.length ≤ 95

theorem all_pageCharacter {value : Text}
    : value.all pageCharacter = true
      ↔ ∀ c ∈ value, (32 ≤ c.toNat ∧ c.toNat ≤ 126) ∨ c = '\t' := by
  simp [pageCharacter]

instance (value : Text) : Decidable (Typable value) :=
  decidable_of_iff (value.all pageCharacter = true ∧ value.length ≤ 95)
    ⟨fun both => ⟨all_pageCharacter.mp both.1, both.2⟩,
      fun typable => ⟨all_pageCharacter.mpr typable.plain, typable.short⟩⟩

section Typing

variable {value : Text}

/-- The page and the bridge let such a line through. -/
theorem Typable.accepted (typable : Typable value)
    : (pageInput value).bind apiInput = some (encodeAscii value ++ [13]) := by
  have fine : ¬(value ++ ['\r'] = [] ∨ (value ++ ['\r']).length > 256
      ∨ (value ++ ['\r']).any refusedInput = true) := by
    have short := typable.short
    rintro (none | long | bad)
    · simp at none
    · rw [List.length_append, List.length_singleton] at long
      omega
    · obtain ⟨c, member, refused⟩ := List.any_eq_true.mp bad
      rcases List.mem_append.mp member with old | new
      · rcases typable.plain c old with ⟨low, high⟩ | rfl
        · have unprintable := of_decide_eq_true refused
          omega
        · simp [refusedInput] at refused
      · rw [List.mem_singleton.mp new] at refused
        simp [refusedInput] at refused
  rw [pageInput, if_pos (all_pageCharacter.mpr typable.plain), Option.bind_some, apiInput, if_neg fine]
  simp [encodeAscii]

/-- The bytes of such a line. -/
theorem Typable.bytes (typable : Typable value)
    : ∀ c ∈ encodeAscii value, c = 9 ∨ printable c = true := by
  have each : ∀ n : Nat, n < 127 → 32 ≤ n → printable (BitVec.ofNat 8 n) = true := by
    decide
  intro c member
  obtain ⟨character, inside, rfl⟩ := List.mem_map.mp member
  rcases typable.plain character inside with ⟨low, high⟩ | rfl
  · exact Or.inr (each _ (by omega) low)
  · exact Or.inl rfl

/-- A printable key is appended to the line, a tab is ignored. -/
theorem typed_plain {keys : List Byte} (plain : ∀ c ∈ keys, c = 9 ∨ printable c = true)
    : typed keys = keys.filter fun c => !decide (c = 9) := by
  have edit : ∀ c : Byte,
      printable c = true → c ≠ 9 ∧ ¬(c = 8 ∨ c = 127) := by
    decide
  induction keys using List.reverseRecOn with
  | nil => rfl
  | append_singleton keys c ih =>
      have before := ih fun other member => plain other (List.mem_append_left [c] member)
      rw [typed_append, before, List.filter_append]
      rcases plain c (by simp) with rfl | key
      · simp [keyEdit, printable, Edit.apply]
      · obtain ⟨other, kept⟩ := edit c key
        have edit' : keyEdit c = .append c := (if_neg kept).trans (if_pos key)
        rw [edit', List.filter_cons_of_pos (by simpa using other)]
        rfl

/-- The tab that the input loop drops. -/
def tab (c : Byte) : Bool := decide (c = 9)

/-- The words of a line and those of the line without its tabs are the same for `command` unless
two words are kept apart by tabs alone and few enough are left.
-/
theorem blankSeparated_untabbed (line : List Byte)
    : blankSeparated (line.filter fun c => !tab c) = blankSeparated line
      ↔ ¬Joined blank tab line ∨ 4 < (wordsBy blank (line.filter fun c => !tab c)).length := by
  have part : ∀ c, tab c = true → blank c = true := by
    intro c is
    simp only [tab, decide_eq_true_eq] at is
    simp [blank, is]
  obtain ⟨fewer, joins, apart⟩ := wordsBy_filter part line
  unfold blankSeparated
  constructor
  · intro same
    by_contra neither
    obtain ⟨joined, few⟩ := not_or.mp neither
    have less := joins (not_not.mp joined)
    simp only [few, if_false] at same
    split_ifs at same
    rw [Option.some.inj same] at less
    exact Nat.lt_irrefl _ less
  · rintro (separate | many)
    · rw [apart separate]
    · simp only [many, many.trans_le fewer, if_true]

/-- What the shell runs for a line of the page: the line without its tabs. -/
theorem page_line_runs (typable : Typable value) {line : Buffer 96} {prompt later entered : Prompt}
    {opening exchanges last : List (Request × Reply)}
    (opened : (shellPrompt line).Runs opening prompt)
    (rounds : Repeats shellPoll prompt exchanges later)
    (enters : (shellPoll later).Runs last (.inr entered))
    (delivered : (pageInput value).bind apiInput = some (keys (exchanges ++ last)))
    : ∃ buffer : Buffer 96, ∀ rounds,
        shellEnter rounds entered
          = runLine rounds ((encodeAscii value).filter fun c => !tab c) buffer := by
  obtain ⟨rfl, _⟩ := shellPrompt_runs opened
  obtain ⟨text, shows⟩ := (Prompt.Shows.start line).repeats rounds
  have ended := shellPoll_runs enters
  rw [ended.entered]
  obtain ⟨c, key⟩ := ended.key
  have typedKeys : keys exchanges = encodeAscii value := by
    rw [typable.accepted, keys_append, key] at delivered
    exact (List.append_inj_left' (Option.some.inj delivered) rfl).symm
  rw [List.nil_append, typedKeys] at shows
  have fits : later.overflow = false := by
    by_contra full
    obtain ⟨first, inside, long⟩ := shows.exceeded (Bool.eq_true_of_not_eq_false full)
    rw [typed_plain fun c member => typable.bytes c (inside.subset member)] at long
    have bound := long.trans_le ((List.length_filter_le _ first).trans inside.length_le)
    rw [encodeAscii, List.length_map] at bound
    exact absurd typable.short (Nat.not_le.mpr bound)
  have content : text = (encodeAscii value).filter fun c => !tab c := by
    rw [← (shows.fitted fits).1]
    exact typed_plain typable.bytes
  obtain ⟨buffer, runs⟩ := shellEnter_eq shows.types
  refine ⟨buffer, fun rounds => ?_⟩
  rw [runs, fits, content]
  rfl

/-- A line of printable characters and tabs that is sent from the page: the shell looks at its
blank-separated words if and only if no two of them are kept apart by tabs alone, or there are
too many words even without the tabs.
-/
theorem page_words_are_blank_separated_iff (typable : Typable value) {line : Buffer 96}
    {prompt later entered : Prompt} {opening exchanges last : List (Request × Reply)}
    (opened : (shellPrompt line).Runs opening prompt)
    (rounds : Repeats shellPoll prompt exchanges later)
    (enters : (shellPoll later).Runs last (.inr entered))
    (delivered : (pageInput value).bind apiInput = some (keys (exchanges ++ last)))
    : ∃ buffer : Buffer 96,
        (∀ rounds,
          shellEnter rounds entered
            = runLine rounds ((encodeAscii value).filter fun c => !tab c) buffer)
        ∧ (wordsOf ((encodeAscii value).filter fun c => !tab c) = blankSeparated (encodeAscii value)
          ↔ ¬Joined blank tab (encodeAscii value)
            ∨ 4 < (wordsBy blank ((encodeAscii value).filter fun c => !tab c)).length) := by
  obtain ⟨buffer, runs⟩ := page_line_runs typable opened rounds enters delivered
  refine ⟨buffer, runs, ?_⟩
  have plain : 0 ∉ (encodeAscii value).filter fun c => !tab c := by
    intro member
    have bad := typable.bytes 0 (List.mem_filter.mp member).1
    revert bad
    decide
  rw [wordsOf_eq plain]
  exact blankSeparated_untabbed _

/-- The page can send any such line, and the shell takes it up to Enter. -/
theorem Typable.arrives (typable : Typable value)
    : ∃ opening exchanges last prompt later,
        (shellPrompt Buffer.fresh).Runs opening prompt
        ∧ Repeats shellPoll prompt exchanges later
        ∧ (shellPoll later).Runs last (.inr later)
        ∧ (pageInput value).bind apiInput = some (keys (exchanges ++ last)) := by
  have message : print "mini$ " = .ask (.write (textBytes "mini$ ")) fun _ => .done ⟨⟩ :=
    print_short (by decide) (by decide)
  have opened : (shellPrompt Buffer.fresh).Runs [(.write (textBytes "mini$ "), ⟨6, []⟩)]
      ⟨Buffer.fresh, 0, false, 0⟩ := by
    simp only [shellPrompt, message]
    exact .ask (.done _)
  have goes : ∀ c ∈ encodeAscii value, ¬(c = 13 ∨ c = 10) := by
    have plain : ∀ c : Byte, c = 9 ∨ printable c = true → ¬(c = 13 ∨ c = 10) := by decide
    exact fun c member => plain c (typable.bytes c member)
  obtain ⟨exchanges, later, rounds, taken⟩ := (Prompt.Shows.start Buffer.fresh).takesAll goes
  let last : List (Request × Reply) := [(.input, ⟨1, [13]⟩), (.write [10], ⟨1, []⟩)]
  have enter : (shellKey later 13).Runs [(.write [10], ⟨1, []⟩)] (.inr later) := by
    simp only [shellKey, true_or, if_true, character_eq]
    exact .ask (.done _)
  refine ⟨_, exchanges, last, _, later, opened, rounds, .ask enter, ?_⟩
  rw [typable.accepted, keys_append, taken]
  rfl

end Typing

/-- A word and its argument between which only a tab stands. -/
def tabbedLine : Text := "cat\thello.txt".toList

theorem tabbedLine_typable : Typable tabbedLine := by decide

/-- The shell gets one word from a line of two. -/
theorem page_words_joined_by_tab
    : ∃ opening exchanges last prompt later buffer,
        (shellPrompt Buffer.fresh).Runs opening prompt
        ∧ Repeats shellPoll prompt exchanges later
        ∧ (shellPoll later).Runs last (.inr later)
        ∧ (pageInput tabbedLine).bind apiInput = some (keys (exchanges ++ last))
        ∧ (∀ rounds, shellEnter rounds later = runLine rounds (textBytes "cathello.txt") buffer)
        ∧ wordsOf (textBytes "cathello.txt") = some [textBytes "cathello.txt"]
        ∧ wordsBy blank (encodeAscii tabbedLine) = [textBytes "cat", textBytes "hello.txt"] := by
  obtain ⟨opening, exchanges, last, prompt, later, opened, rounds, enters, delivered⟩ :=
    tabbedLine_typable.arrives
  obtain ⟨buffer, runs⟩ := page_line_runs tabbedLine_typable opened rounds enters delivered
  exact ⟨opening, exchanges, last, prompt, later, buffer, opened, rounds, enters, delivered, runs,
    by decide, by decide⟩

/-- The same line with a space. -/
theorem page_words_kept_by_space
    : ∃ (buffer : Buffer 96) (later : Prompt),
        (∀ rounds, shellEnter rounds later = runLine rounds (textBytes "cat hello.txt") buffer)
        ∧ wordsOf (textBytes "cat hello.txt") = some [textBytes "cat", textBytes "hello.txt"] := by
  have typable : Typable "cat hello.txt".toList := by decide
  obtain ⟨_, _, _, _, later, opened, rounds, enters, delivered⟩ := typable.arrives
  obtain ⟨buffer, runs, words⟩ :=
    page_words_are_blank_separated_iff typable opened rounds enters delivered
  have line : (encodeAscii "cat hello.txt".toList).filter (fun c => !tab c)
      = textBytes "cat hello.txt" := by
    decide
  rw [line] at runs words
  refine ⟨buffer, later, runs, (words.mpr (Or.inl ?_)).trans (by decide)⟩
  rintro ⟨front, c, rest, same, _, gap, _, _, rfl, some, all, _⟩
  obtain ⟨first, member⟩ := List.exists_mem_of_ne_nil gap some
  have inside : first ∈ encodeAscii "cat hello.txt".toList := by
    rw [same]
    simp [member]
  have none : ∀ c ∈ encodeAscii "cat hello.txt".toList, tab c = false := by decide
  exact absurd (all first member) (by simp [none first inside])

end MiniLinux.User
