import Mathlib.Logic.Basic

/-! Folds of writes.
What is seen of the result is what the writers of the list wrote, when they all write the same.
-/

namespace Foundation

section Fold

variable {σ α γ : Type*} {step : σ → α → σ} {view : σ → γ} {value : γ} {items : List α}

/-- The items write nothing else than a value. -/
def Agree (step : σ → α → σ) (view : σ → γ) (value : γ) (items : List α) : Prop :=
  ∀ item ∈ items, ∀ state, view (step state item) = value ∨ view (step state item) = view state

theorem Agree.tail {item : α} {rest : List α} (agree : Agree step view value (item :: rest))
    : Agree step view value rest :=
  fun other member => agree other (List.mem_cons_of_mem _ member)

theorem Agree.foldl_kept (agree : Agree step view value items) {start : σ}
    (before : view start = value)
    : view (items.foldl step start) = value := by
  induction items generalizing start with
  | nil => exact before
  | cons item rest ih =>
      refine ih agree.tail ?_
      rcases agree item List.mem_cons_self start with written | same
      · exact written
      · exact same.trans before

/-- One of the items has written the value. -/
theorem Agree.foldl_written (agree : Agree step view value items)
    (writer : ∃ item ∈ items, ∀ state, view (step state item) = value) (start : σ)
    : view (items.foldl step start) = value := by
  obtain ⟨writer, member, writes⟩ := writer
  induction items generalizing start with
  | nil => cases member
  | cons item rest ih =>
      rcases List.mem_cons.mp member with here | later
      · subst here
        exact agree.tail.foldl_kept (writes start)
      · exact ih agree.tail _ later

end Fold

end Foundation
