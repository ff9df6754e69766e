import Mathlib.Data.List.Infix
import Mathlib.Tactic

/-! Words: the maximal runs of items that do not separate. Where some of the separators are
removed beforehand, the words stay the same unless two of them were kept apart by nothing else.
-/

namespace Foundation

variable {α : Type*} {separates removed : α → Bool}

/-- The maximal runs of items that do not separate, in their order. -/
def wordsBy (separates : α → Bool) (items : List α) : List (List α) :=
  (items.splitOnP separates).filter fun word => !word.isEmpty

/-- The items up to the first separator. -/
def firstWord (separates : α → Bool) (items : List α) : List α :=
  items.takeWhile fun item => !separates item

/-- The words after the first separator. -/
def laterWords (separates : α → Bool) (items : List α) : List (List α) :=
  (items.splitOnP separates).tail.filter fun word => !word.isEmpty

section Pieces

variable {item : α} {items : List α}

@[simp] theorem wordsBy_nil : wordsBy separates ([] : List α) = [] := rfl

@[simp] theorem firstWord_nil : firstWord separates ([] : List α) = [] := rfl

@[simp] theorem laterWords_nil : laterWords separates ([] : List α) = [] := rfl

/-- The first piece of a split list. -/
theorem splitOnP_eq_cons (separates : α → Bool) (items : List α)
    : items.splitOnP separates
      = firstWord separates items :: (items.splitOnP separates).tail := by
  induction items with
  | nil => rfl
  | cons item items ih =>
      rw [List.splitOnP_cons_eq_if_modifyHead, firstWord, List.takeWhile_cons]
      cases here : separates item with
      | true => simp
      | false =>
          simp only [Bool.false_eq_true, if_false, Bool.not_false, if_true, List.tail_modifyHead]
          nth_rewrite 1 [ih]
          rfl

theorem wordsBy_eq
    : wordsBy separates items
      = if firstWord separates items = [] then laterWords separates items
        else firstWord separates items :: laterWords separates items := by
  unfold wordsBy laterWords
  rw [splitOnP_eq_cons separates items, List.filter_cons]
  cases first : firstWord separates items <;> simp

theorem wordsBy_separator (here : separates item = true)
    : wordsBy separates (item :: items) = wordsBy separates items := by
  simp [wordsBy, List.splitOnP_cons_eq_if_modifyHead, here]

theorem laterWords_separator (here : separates item = true)
    : laterWords separates (item :: items) = wordsBy separates items := by
  simp [laterWords, wordsBy, List.splitOnP_cons_eq_if_modifyHead, here]

theorem firstWord_separator (here : separates item = true)
    : firstWord separates (item :: items) = [] := by
  simp [firstWord, here]

theorem firstWord_inside (here : separates item = false)
    : firstWord separates (item :: items) = item :: firstWord separates items := by
  simp [firstWord, here]

theorem laterWords_inside (here : separates item = false)
    : laterWords separates (item :: items) = laterWords separates items := by
  simp [laterWords, List.splitOnP_cons_eq_if_modifyHead, here]

theorem wordsBy_inside (here : separates item = false)
    : wordsBy separates (item :: items)
      = (item :: firstWord separates items) :: laterWords separates items := by
  simp [wordsBy_eq, firstWord_inside here, laterWords_inside here]

end Pieces

-----------------------------------------------------------------------------------------
-- Removing separators
-----------------------------------------------------------------------------------------

/-- Removed separators and then a word. -/
def Leads (separates removed : α → Bool) (items : List α) : Prop :=
  ∃ gap item rest,
    items = gap ++ item :: rest
    ∧ gap ≠ []
    ∧ (∀ other ∈ gap, removed other = true)
    ∧ separates item = false

/-- Somewhere two words are kept apart by removed separators alone. -/
def Joined (separates removed : α → Bool) (items : List α) : Prop :=
  ∃ front item rest,
    items = front ++ item :: rest ∧ separates item = false ∧ Leads separates removed rest

section Removal

variable {item : α} {items : List α}

theorem leads_nil : ¬Leads separates removed ([] : List α) := by
  rintro ⟨gap, item, rest, same, _⟩
  simp at same

theorem firstWord_ne_nil
    : firstWord separates items ≠ []
      ↔ ∃ item rest, items = item :: rest ∧ separates item = false := by
  cases items with
  | nil => simp
  | cons item items => cases here : separates item <;> simp [firstWord, here]

theorem leads_cons
    : Leads separates removed (item :: items)
      ↔ removed item = true ∧ (firstWord separates items ≠ [] ∨ Leads separates removed items) := by
  rw [firstWord_ne_nil]
  constructor
  · rintro ⟨gap, word, rest, same, some, all, inside⟩
    cases gap with
    | nil => exact absurd rfl some
    | cons first gap =>
        obtain ⟨rfl, rfl⟩ := List.cons.inj same
        refine ⟨all item List.mem_cons_self, ?_⟩
        cases gap with
        | nil => exact Or.inl ⟨word, rest, rfl, inside⟩
        | cons second gap =>
            exact Or.inr ⟨second :: gap, word, rest, rfl, by simp,
              fun other member => all other (List.mem_cons_of_mem _ member), inside⟩
  · rintro ⟨here, ⟨word, rest, rfl, inside⟩ | ⟨gap, word, rest, rfl, some, all, inside⟩⟩
    · exact ⟨[item], word, rest, rfl, by simp, by simpa using here, inside⟩
    · exact ⟨item :: gap, word, rest, rfl, by simp, by simpa [here] using all, inside⟩

theorem joined_nil : ¬Joined separates removed ([] : List α) := by
  rintro ⟨front, item, rest, same, _⟩
  simp at same

theorem joined_cons
    : Joined separates removed (item :: items)
      ↔ (separates item = false ∧ Leads separates removed items)
        ∨ Joined separates removed items := by
  constructor
  · rintro ⟨front, word, rest, same, inside, leads⟩
    cases front with
    | nil =>
        obtain ⟨rfl, rfl⟩ := List.cons.inj same
        exact Or.inl ⟨inside, leads⟩
    | cons first front =>
        obtain ⟨rfl, rfl⟩ := List.cons.inj same
        exact Or.inr ⟨front, word, rest, rfl, inside, leads⟩
  · rintro (⟨inside, leads⟩ | ⟨front, word, rest, rfl, inside, leads⟩)
    · exact ⟨[], item, items, rfl, inside, leads⟩
    · exact ⟨item :: front, word, rest, rfl, inside, leads⟩

/-- When the remaining items start with a word. -/
theorem firstWord_filter (part : ∀ item, removed item = true → separates item = true)
    : firstWord separates (items.filter fun item => !removed item) ≠ []
      ↔ firstWord separates items ≠ [] ∨ Leads separates removed items := by
  induction items with
  | nil => simp [leads_nil]
  | cons item items ih =>
      cases gone : removed item with
      | true => simp [gone, ih, leads_cons, firstWord_separator (part item gone)]
      | false =>
          cases here : separates item with
          | true => simp [gone, leads_cons, firstWord_separator here]
          | false => simp [gone, firstWord_inside here]

/-- What removing separators does to the words: there are no more than before, fewer if two were
joined, and else they are the same. Witness: induction on the items.
-/
theorem wordsBy_filter (part : ∀ item, removed item = true → separates item = true)
    (items : List α)
    : (wordsBy separates (items.filter fun item => !removed item)).length
        ≤ (wordsBy separates items).length
      ∧ (Joined separates removed items
        → (wordsBy separates (items.filter fun item => !removed item)).length
          < (wordsBy separates items).length)
      ∧ (¬Joined separates removed items
        → wordsBy separates (items.filter fun item => !removed item) = wordsBy separates items) := by
  induction items with
  | nil => simp [joined_nil]
  | cons item items ih =>
      rw [joined_cons]
      cases here : separates item with
      | true =>
          simp only [wordsBy_separator here, Bool.true_eq_false, false_and, false_or]
          cases gone : removed item with
          | true => simpa [gone] using ih
          | false => simpa [gone, wordsBy_separator here] using ih
      | false =>
          have kept : removed item = false := by
            cases gone : removed item with
            | true => exact absurd (part item gone) (by simp [here])
            | false => rfl
          have starts := @firstWord_filter α separates removed items part
          simp only [List.filter_cons, kept, Bool.not_false, if_true, wordsBy_inside here,
            List.length_cons, true_and]
          rw [wordsBy_eq, @wordsBy_eq α separates items] at ih
          by_cases word : firstWord separates items = []
          · by_cases leads : Leads separates removed items
            · have joins := starts.mpr (Or.inr leads)
              simp only [joins, word, if_true, if_false, List.length_cons] at ih
              refine ⟨by omega, fun _ => by omega, fun apart => absurd (Or.inl leads) apart⟩
            · have apart : firstWord separates (items.filter fun item => !removed item) = [] := by
                by_contra some
                rcases starts.mp some with first | second
                · exact first word
                · exact leads second
              simp only [apart, word, if_true] at ih
              simp only [leads, false_or, apart, word, List.cons.injEq, true_and]
              exact ⟨by omega, fun joined => Nat.succ_lt_succ (ih.2.1 joined), ih.2.2⟩
          · have begins := starts.mpr (Or.inl word)
            have unled : ¬Leads separates removed items := by
              rintro ⟨gap, other, rest, rfl, some, all, _⟩
              cases gap with
              | nil => exact some rfl
              | cons first gap =>
                  exact word (firstWord_separator (part first (all first List.mem_cons_self)))
            simp only [begins, word, if_false, List.length_cons, List.cons.injEq] at ih
            simp only [unled, false_or, List.cons.injEq, true_and]
            exact ih

end Removal

end Foundation
