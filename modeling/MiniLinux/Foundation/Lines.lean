import Mathlib.Tactic

/-! Streams of lines that arrive in pieces.
A stream is cut into its complete lines and the rest; cutting in pieces, with the rest put
before the next piece, finds the same lines.
-/

namespace Foundation

variable {α : Type*} [DecidableEq α] {separator : α}

/-- The complete lines of a stream, without their ends, and the rest. -/
def splitLines (separator : α) : List α → List (List α) × List α
  | [] => ([], [])
  | item :: rest =>
      let split := splitLines separator rest
      if item = separator then ([] :: split.1, split.2)
      else
        match split.1 with
        | [] => ([], item :: split.2)
        | line :: lines => ((item :: line) :: lines, split.2)

/-- The stream of some lines. -/
def joinLines (separator : α) (lines : List (List α)) : List α :=
  lines.flatMap fun line => line ++ [separator]

omit [DecidableEq α] in
theorem joinLines_append (lines lines' : List (List α))
    : joinLines separator (lines ++ lines')
      = joinLines separator lines ++ joinLines separator lines' :=
  List.flatMap_append

/-- A stream without separators is all rest. -/
theorem splitLines_open {rest : List α} (unended : separator ∉ rest)
    : splitLines separator rest = ([], rest) := by
  induction rest with
  | nil => rfl
  | cons item rest ih =>
      obtain ⟨here, later⟩ := List.ne_and_not_mem_of_not_mem_cons unended
      rw [splitLines, ih later]
      exact if_neg (Ne.symm here)

/-- A line at the front of a stream. -/
theorem splitLines_line {line : List α} (whole : separator ∉ line) (rest : List α)
    : splitLines separator (line ++ separator :: rest)
      = (line :: (splitLines separator rest).1, (splitLines separator rest).2) := by
  induction line with
  | nil =>
      rw [List.nil_append, splitLines]
      exact if_pos rfl
  | cons item line ih =>
      obtain ⟨here, later⟩ := List.ne_and_not_mem_of_not_mem_cons whole
      rw [List.cons_append, splitLines, ih later]
      exact if_neg (Ne.symm here)

/-- Lines at the front of a stream. Witness: induction on the lines. -/
theorem splitLines_append {lines : List (List α)} (whole : ∀ line ∈ lines, separator ∉ line)
    (rest : List α)
    : splitLines separator (joinLines separator lines ++ rest)
      = (lines ++ (splitLines separator rest).1, (splitLines separator rest).2) := by
  induction lines with
  | nil => rfl
  | cons line lines ih =>
      have shape : joinLines separator (line :: lines) ++ rest
          = line ++ separator :: (joinLines separator lines ++ rest) := by
        simp [joinLines]
      rw [shape, splitLines_line (whole line List.mem_cons_self),
        ih fun other member => whole other (List.mem_cons_of_mem _ member)]
      rfl

/-- Cutting a stream loses nothing and cuts at every separator. -/
theorem splitLines_spec (stream : List α)
    : stream = joinLines separator (splitLines separator stream).1
          ++ (splitLines separator stream).2
      ∧ (∀ line ∈ (splitLines separator stream).1, separator ∉ line)
      ∧ separator ∉ (splitLines separator stream).2 := by
  induction stream with
  | nil => simp [splitLines, joinLines]
  | cons item rest ih =>
      obtain ⟨same, whole, unended⟩ := ih
      rw [splitLines]
      by_cases ends : item = separator
      · rw [if_pos ends]
        refine ⟨?_, ?_, unended⟩
        · conv_lhs => rw [same, ends]
          simp [joinLines]
        · intro line member
          rcases List.mem_cons.mp member with empty | member
          · exact empty ▸ List.not_mem_nil
          · exact whole line member
      · rw [if_neg ends]
        cases lines : (splitLines separator rest).1 with
        | nil =>
            rw [lines] at same
            refine ⟨?_, by simp, List.not_mem_cons_of_ne_of_not_mem (Ne.symm ends) unended⟩
            conv_lhs => rw [same]
            rfl
        | cons line more =>
            rw [lines] at same whole
            refine ⟨?_, ?_, unended⟩
            · conv_lhs => rw [same]
              simp [joinLines]
            · intro other member
              rcases List.mem_cons.mp member with first | member
              · subst first
                exact List.not_mem_cons_of_ne_of_not_mem (Ne.symm ends) (whole line List.mem_cons_self)
              · exact whole other (List.mem_cons_of_mem _ member)

/-- Cutting a longer stream continues with the rest of the shorter one. -/
theorem splitLines_continue (stream more : List α)
    : splitLines separator (stream ++ more)
      = ((splitLines separator stream).1
          ++ (splitLines separator ((splitLines separator stream).2 ++ more)).1,
        (splitLines separator ((splitLines separator stream).2 ++ more)).2) := by
  obtain ⟨same, whole, _⟩ := @splitLines_spec α _ separator stream
  conv_lhs => rw [same, List.append_assoc]
  exact splitLines_append whole _

/-- What has arrived of a stream of lines is a first part of the lines, and a rest that is
empty or begins the next line.
-/
theorem splitLines_begins {stream : List α} {lines : List (List α)}
    (whole : ∀ line ∈ lines, separator ∉ line) (arrived : stream <+: joinLines separator lines)
    : (splitLines separator stream).1 <+: lines
      ∧ ((splitLines separator stream).2 = []
        ∨ ∃ line ∈ lines, (splitLines separator stream).2 <+: line) := by
  obtain ⟨more, all⟩ := arrived
  have split := @splitLines_continue α _ separator stream more
  have every := splitLines_append whole []
  rw [List.append_nil] at every
  rw [all, every] at split
  simp only [splitLines, List.append_nil, Prod.mk.injEq] at split
  obtain ⟨lines_eq, rest_eq⟩ := split
  refine ⟨⟨_, lines_eq.symm⟩, ?_⟩
  obtain ⟨_, _, unended⟩ := @splitLines_spec α _ separator stream
  generalize (splitLines separator stream).2 = pending at *
  obtain ⟨same, _, _⟩ := @splitLines_spec α _ separator (pending ++ more)
  rw [← rest_eq, List.append_nil] at same
  cases found : (splitLines separator (pending ++ more)).1 with
  | nil =>
      rw [found] at same
      exact Or.inl (List.append_eq_nil_iff.mp same).1
  | cons line rest =>
      refine Or.inr ⟨line, ?_, ?_⟩
      · rw [lines_eq, found]
        exact List.mem_append_right _ List.mem_cons_self
      · rw [found] at same
        have shape : pending ++ more = line ++ ([separator] ++ joinLines separator rest) := by
          rw [same]
          simp [joinLines]
        rcases List.append_eq_append_iff.mp shape with ⟨middle, left, _⟩ | ⟨middle, left, right⟩
        · exact ⟨middle, left.symm⟩
        · cases middle with
          | nil => exact ⟨[], by rw [left]; simp⟩
          | cons item middle =>
              simp only [List.cons_append, List.nil_append, List.cons.injEq] at right
              exact absurd (left ▸ right.1 ▸ List.mem_append_right _ List.mem_cons_self) unended

end Foundation
