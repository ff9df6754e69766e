import MiniLinux.Foundation.BoundedLog

/-! Texts that are edited at their end, and windows that retain only the end of such a text.
A window works on what it retained. While the text never shrinks back to the part that was
forgotten, the window and the text agree.
-/

namespace Foundation

variable {α : Type*} {base limit : Nat} {kept whole : List α}

/-- What happens at the end of a text. -/
inductive Edit (α : Type*) where
  | append (item : α)
  | erase
  | ignore

/-- The text after an edit; erasing an empty text does nothing. -/
def Edit.apply (text : List α) : Edit α → List α
  | .append item => text ++ [item]
  | .erase => text.dropLast
  | .ignore => text

/-- The text after several edits. -/
def edited (text : List α) (edits : List (Edit α)) : List α := edits.foldl Edit.apply text

@[simp] theorem edited_nil (text : List α) : edited text [] = text := rfl

@[simp] theorem edited_cons (text : List α) (edit : Edit α) (edits : List (Edit α))
    : edited text (edit :: edits) = edited (edit.apply text) edits :=
  rfl

@[simp] theorem edited_append (text : List α) (edits more : List (Edit α))
    : edited text (edits ++ more) = edited (edited text edits) more :=
  List.foldl_append

/-- Appended items only. -/
@[simp] theorem edited_appends (text items : List α)
    : edited text (items.map Edit.append) = text ++ items := by
  induction items generalizing text with
  | nil => simp
  | cons item items ih => simp [ih, Edit.apply]

/-- The edits never shorten the text to less than `base` items. -/
def StaysAbove (base : Nat) (text : List α) (edits : List (Edit α)) : Prop :=
  ∀ first, first <+: edits → base ≤ (edited text first).length

namespace StaysAbove

variable {edit : Edit α} {edits more : List (Edit α)}

theorem start (above : StaysAbove base whole edits) : base ≤ whole.length :=
  above [] List.nil_prefix

theorem finish (above : StaysAbove base whole edits) : base ≤ (edited whole edits).length :=
  above edits List.prefix_rfl

theorem tail (above : StaysAbove base whole (edit :: edits))
    : StaysAbove base (edit.apply whole) edits := by
  intro first part
  exact above (edit :: first) ((List.prefix_cons_inj edit).mpr part)

theorem of_append (above : StaysAbove base whole (edits ++ more))
    : StaysAbove base whole edits ∧ StaysAbove base (edited whole edits) more := by
  constructor
  · intro first part
    exact above first (part.trans (List.prefix_append edits more))
  · intro first part
    have bound := above (edits ++ first) ((List.prefix_append_right_inj edits).mpr part)
    rwa [edited_append] at bound

theorem append (above : StaysAbove base whole edits)
    (later : StaysAbove base (edited whole edits) more)
    : StaysAbove base whole (edits ++ more) := by
  intro first part
  rcases List.prefix_or_prefix_of_prefix part (List.prefix_append edits more)
    with inside | ⟨rest, rfl⟩
  · exact above first inside
  · rw [edited_append]
    exact later rest ((List.prefix_append_right_inj edits).mp part)

end StaysAbove

/-- The front of a text survives edits that stay above it. Witness: induction on the edits. -/
theorem edited_take {edits : List (Edit α)} (above : StaysAbove base whole edits)
    : (edited whole edits).take base = whole.take base := by
  induction edits generalizing whole with
  | nil => simp
  | cons edit edits ih =>
      have inside := above.tail.start
      rw [edited_cons, ih above.tail]
      cases edit with
      | append item =>
          exact List.take_append_of_le_length above.start
      | erase =>
          simp only [Edit.apply, List.dropLast_eq_take, List.length_take, List.take_take] at *
          congr 1
          omega
      | ignore => rfl

/-- The edits never erase from an empty text and keep it within `room` items. -/
def Grounded (room : Nat) (text : List α) : List (Edit α) → Prop
  | [] => text.length ≤ room
  | edit :: edits =>
      text.length ≤ room ∧ (edit = .erase → text ≠ []) ∧ Grounded room (edit.apply text) edits

namespace Grounded

variable {room : Nat} {text : List α} {edit : Edit α} {edits more : List (Edit α)}

theorem start (grounded : Grounded room text edits) : text.length ≤ room := by
  cases edits with
  | nil => exact grounded
  | cons edit edits => exact grounded.1

theorem mono {room' : Nat} (grounded : Grounded room text edits) (more : room ≤ room')
    : Grounded room' text edits := by
  induction edits generalizing text with
  | nil => exact Nat.le_trans grounded more
  | cons edit edits ih => exact ⟨grounded.1.trans more, grounded.2.1, ih grounded.2.2⟩

theorem append_iff
    : Grounded room text (edits ++ more)
      ↔ Grounded room text edits ∧ Grounded room (edited text edits) more := by
  induction edits generalizing text with
  | nil => exact ⟨fun grounded => ⟨grounded.start, grounded⟩, fun both => both.2⟩
  | cons edit edits ih => simp only [List.cons_append, Grounded, ih, edited_cons, and_assoc]

theorem of_prefix (grounded : Grounded room text edits) (part : more <+: edits)
    : Grounded room text more := by
  obtain ⟨rest, rfl⟩ := part
  exact (append_iff.mp grounded).1

/-- What stands before the text is not touched. Witness: induction on the edits. -/
theorem edited_append (grounded : Grounded room text edits) (front : List α)
    : edited (front ++ text) edits = front ++ edited text edits := by
  induction edits generalizing text with
  | nil => rfl
  | cons edit edits ih =>
      obtain ⟨_, some, rest⟩ := grounded
      have here : edit.apply (front ++ text) = front ++ edit.apply text := by
        cases edit with
        | append item => exact List.append_assoc front text [item]
        | erase => exact List.dropLast_append_of_ne_nil (some rfl)
        | ignore => rfl
      rw [edited_cons, here, ih rest, edited_cons]

/-- The same edits behind some front. Witness: induction on the edits. -/
theorem behind (grounded : Grounded room text edits) (front : List α)
    : Grounded (front.length + room) (front ++ text) edits := by
  induction edits generalizing text with
  | nil => simpa [Grounded] using grounded
  | cons edit edits ih =>
      obtain ⟨fits, some, rest⟩ := grounded
      have first : Grounded room text [edit] := ⟨fits, some, rest.start⟩
      refine ⟨by simpa using fits, ?_, ?_⟩
      · intro erases
        simp [some erases]
      · have here := first.edited_append front
        simp only [edited_cons, edited_nil] at here
        rw [here]
        exact ih rest

/-- Appending items within the room. -/
theorem appends (items : List α) (fits : text.length + items.length ≤ room)
    : Grounded room text (items.map Edit.append) := by
  induction items generalizing text with
  | nil => simpa [Grounded] using fits
  | cons item items ih =>
      simp only [List.length_cons] at fits
      refine ⟨by omega, by simp, ih ?_⟩
      simp only [Edit.apply, List.length_append, List.length_cons, List.length_nil]
      omega

end Grounded

/-- A window keeps the end of what it reads. -/
theorem keepLast_behind (front : List α) {text : List α} (short : text.length ≤ limit)
    : ∃ front', keepLast limit (front ++ text) = front' ++ text := by
  refine ⟨front.drop (front.length + text.length - limit), ?_⟩
  rw [keepLast, List.length_append, List.drop_append_of_le_length]
  omega

/-- Past the old items, only new ones remain. -/
theorem drop_past (old newer : List α) (base : Nat)
    : ((old ++ newer).drop base).drop (old.length - base) = newer.drop (base - old.length) := by
  rw [List.drop_drop, List.drop_append, List.drop_eq_nil_of_le (by omega), List.nil_append]
  congr 1
  omega

/-- `kept` is `whole` without its first `base` items. -/
structure Retains (base : Nat) (kept whole : List α) : Prop where
  inside : base ≤ whole.length
  rest : kept = whole.drop base

namespace Retains

theorem all (whole : List α) : Retains 0 whole whole := ⟨Nat.zero_le _, List.drop_zero.symm⟩

theorem suffix (retains : Retains base kept whole) : kept <:+ whole :=
  retains.rest ▸ List.drop_suffix base whole

theorem length (retains : Retains base kept whole) : base + kept.length = whole.length := by
  have inside := retains.inside
  rw [retains.rest, List.length_drop]
  omega

/-- Forgetting more of the front. -/
theorem keepLast (retains : Retains base kept whole)
    : Retains (base + (kept.length - limit)) (keepLast limit kept) whole := by
  have length := retains.length
  refine ⟨by omega, ?_⟩
  rw [Foundation.keepLast, retains.rest, List.drop_drop]

/-- An edit that stays above the forgotten part acts alike on both. -/
theorem apply (retains : Retains base kept whole) (edit : Edit α)
    (inside : base ≤ (edit.apply whole).length)
    : Retains base (edit.apply kept) (edit.apply whole) := by
  refine ⟨inside, ?_⟩
  rw [retains.rest]
  cases edit with
  | append item => exact (List.drop_append_of_le_length retains.inside).symm
  | erase =>
      simp only [Edit.apply, List.length_dropLast] at inside
      simp only [Edit.apply, List.dropLast_eq_take, List.drop_take, List.length_drop]
      congr 1
      omega
  | ignore => rfl

/-- Edits that stay above the forgotten part. Witness: induction on the edits. -/
theorem edits {edits : List (Edit α)} (retains : Retains base kept whole)
    (above : StaysAbove base whole edits)
    : Retains base (edited kept edits) (edited whole edits) := by
  induction edits generalizing kept whole with
  | nil => exact retains
  | cons edit edits ih => exact ih (retains.apply edit above.tail.start) above.tail

end Retains

/-- What is retained of a text, and how many items before it were forgotten. -/
structure Window (α : Type*) where
  base : Nat
  kept : List α

/-- A window takes several edits at once and then forgets all but the last `limit` items. -/
def Window.read (limit : Nat) (window : Window α) (edits : List (Edit α)) : Window α :=
  let text := edited window.kept edits
  ⟨window.base + (text.length - limit), keepLast limit text⟩

/-- The text never shrinks by `limit` or more items below its longest length so far. -/
def ShrinksWithin (limit : Nat) (edits : List (Edit α)) : Prop :=
  ∀ first more,
    first ++ more <+: edits
    → (edited [] first).length < (edited [] (first ++ more)).length + limit

/-- Few edits cannot shrink a text by much. -/
theorem ShrinksWithin.of_few {edits : List (Edit α)} (few : edits.length < limit)
    : ShrinksWithin limit edits := by
  have bound (text : List α) (edits : List (Edit α))
      : (edited text edits).length ≤ text.length + edits.length := by
    induction edits generalizing text with
    | nil => simp
    | cons edit edits ih =>
        have one : (edit.apply text).length ≤ text.length + 1 := by
          cases edit <;> simp [Edit.apply]
          omega
        have rest := ih (edit.apply text)
        simp only [edited_cons, List.length_cons]
        omega
  intro first more inside
  have part := inside.length_le
  have here := bound [] first
  simp only [List.length_append, List.length_nil] at part here
  omega

theorem ShrinksWithin.of_prefix {edits more : List (Edit α)} (steady : ShrinksWithin limit edits)
    (part : more <+: edits)
    : ShrinksWithin limit more :=
  fun first later inside => steady first later (inside.trans part)

/-- A window that saw a text in pieces: what it forgot is no more than the longest length of
the text allows.
-/
structure Window.Follows (limit : Nat) (window : Window α) (edits : List (Edit α)) : Prop where
  retains : Retains window.base window.kept (edited [] edits)
  short : window.kept.length ≤ limit
  forgot : window.base = 0 ∨ ∃ first, first <+: edits ∧ window.base + limit ≤ (edited [] first).length

namespace Window

variable {window : Window α} {edits more : List (Edit α)}

theorem follows_start : Follows limit (⟨0, []⟩ : Window α) [] :=
  ⟨.all [], Nat.zero_le _, Or.inl rfl⟩

/-- The text stays above what a window forgot. -/
theorem Follows.above (follows : window.Follows limit edits)
    (steady : ShrinksWithin limit (edits ++ more))
    : StaysAbove window.base (edited [] edits) more := by
  intro first part
  have inside : edits ++ first <+: edits ++ more := (List.prefix_append_right_inj edits).mpr part
  rcases follows.forgot with none | ⟨longest, ⟨rest, same⟩, bound⟩
  · exact none ▸ Nat.zero_le _
  · have shrunk := steady longest (rest ++ first) (by rwa [← List.append_assoc, same])
    rw [← List.append_assoc, same, edited_append] at shrunk
    omega

/-- The next piece. -/
theorem Follows.read (follows : window.Follows limit edits)
    (steady : ShrinksWithin limit (edits ++ more))
    : (window.read limit more).Follows limit (edits ++ more) := by
  have retains := follows.retains.edits (follows.above steady)
  rw [← edited_append] at retains
  refine ⟨retains.keepLast, ?_, ?_⟩
  · simp [Window.read, keepLast_length]
  · have length := retains.length
    rcases Nat.le_total (edited window.kept more).length limit with fits | long
    · have same : (window.read limit more).base = window.base := by
        simp [Window.read, Nat.sub_eq_zero_of_le fits]
      rw [same]
      rcases follows.forgot with none | ⟨longest, part, bound⟩
      · exact Or.inl none
      · exact Or.inr ⟨longest, part.trans (List.prefix_append edits more), bound⟩
    · refine Or.inr ⟨edits ++ more, List.prefix_rfl, ?_⟩
      simp only [Window.read]
      omega

/-- A window that ends with a text reads edits of that text. -/
theorem read_behind {text : List α} {edits : List (Edit α)}
    (behind : ∃ front, window.kept = front ++ text) (grounded : Grounded limit text edits)
    : ∃ front, (window.read limit edits).kept = front ++ edited text edits := by
  obtain ⟨front, kept⟩ := behind
  have short : (edited text edits).length ≤ limit := by
    have both := grounded
    rw [← List.append_nil edits, Grounded.append_iff] at both
    exact both.2
  simp only [Window.read]
  rw [kept, grounded.edited_append]
  exact keepLast_behind front short

end Window

end Foundation
