import Mathlib.Data.Fin.Basic
import Mathlib.Data.List.FinRange
import Mathlib.Algebra.Group.Fin.Basic
import Mathlib.Tactic.Abel

/-! Searching a ring of slots, from the one after a start and around to the start itself. -/

namespace Foundation

variable {n : Nat}

/-- The slots in the order of the search. -/
def cyclicOrder (start : Fin (n + 1)) : List (Fin (n + 1)) :=
  (List.finRange (n + 1)).map fun step => start + (step + 1)

/-- Nothing that is met before the slot that was found has the property. -/
theorem find?_cyclicOrder {start found : Fin (n + 1)} {property : Fin (n + 1) → Bool}
    (hit : (cyclicOrder start).find? property = some found)
    : ∃ step : Fin (n + 1),
        found = start + (step + 1)
        ∧ property found = true
        ∧ ∀ earlier < step, property (start + (earlier + 1)) = false := by
  rw [cyclicOrder, List.find?_map, Option.map_eq_some_iff] at hit
  obtain ⟨step, first, same⟩ := hit
  obtain ⟨holds, index, inside, here, before⟩ := List.find?_eq_some_iff_getElem.mp first
  have position : index = step.val := by
    rw [List.getElem_finRange] at here
    exact congrArg Fin.val here
  refine ⟨step, same.symm, same ▸ holds, ?_⟩
  intro earlier below
  have fails := before earlier.val (position ▸ below)
  simpa using fails

/-- A slot with the property is found, or a slot is found that lies before it: the distance to it
gets smaller.
-/
theorem distance_of_find? {start found slot : Fin (n + 1)} {property : Fin (n + 1) → Bool}
    (hit : (cyclicOrder start).find? property = some found) (holds : property slot = true)
    (different : slot ≠ start)
    : found = slot ∨ (slot - found).val < (slot - start).val := by
  obtain ⟨step, rfl, _, before⟩ := find?_cyclicOrder hit
  have place : slot = start + ((slot - start - 1) + 1) := by
    rw [sub_add_cancel, add_sub_cancel]
  rcases lt_trichotomy step (slot - start - 1) with below | same | above
  · right
    have away : slot - (start + (step + 1)) = (slot - start - 1) - step := by
      abel
    have next : slot - start = (slot - start - 1) + 1 := by rw [sub_add_cancel]
    have distance : (slot - start).val = (slot - start - 1).val + 1 := by
      have nonzero : slot - start ≠ 0 := sub_ne_zero.mpr different
      have last : slot - start - 1 ≠ Fin.last n := by
        intro last
        rw [last, Fin.last_add_one] at next
        exact nonzero next
      conv_lhs => rw [next]
      exact Fin.val_add_one_of_lt (Fin.lt_last_iff_ne_last.mpr last)
    rw [away, Fin.sub_val_of_le below.le, distance]
    omega
  · left
    rw [same]
    exact place.symm
  · have fails := before _ above
    rw [← place, holds] at fails
    cases fails

end Foundation
