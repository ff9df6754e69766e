import Mathlib.Tactic

/-! Logs that keep only their last entries, and readers that fetch what is new.
Entries carry increasing numbers. A reader that holds the whole log of an earlier moment
catches up by the entries numbered above that moment.
-/

namespace Foundation

variable {α : Type*} {limit : Nat} {number : α → Nat}

/-- The last `limit` entries. -/
def keepLast (limit : Nat) (entries : List α) : List α := entries.drop (entries.length - limit)

@[simp] theorem keepLast_nil : keepLast limit ([] : List α) = [] := List.drop_nil

theorem keepLast_length (entries : List α)
    : (keepLast limit entries).length = min entries.length limit := by
  rw [keepLast, List.length_drop]
  omega

theorem keepLast_of_short {entries : List α} (short : entries.length ≤ limit)
    : keepLast limit entries = entries := by
  rw [keepLast, Nat.sub_eq_zero_of_le short, List.drop_zero]

@[simp] theorem keepLast_keepLast (entries : List α)
    : keepLast limit (keepLast limit entries) = keepLast limit entries := by
  apply keepLast_of_short
  rw [keepLast_length]
  omega

theorem mem_of_mem_keepLast {entries : List α} {entry : α} (member : entry ∈ keepLast limit entries)
    : entry ∈ entries :=
  List.mem_of_mem_drop member

/-- Dropping old entries first is of no account when more are appended. -/
theorem keepLast_append_left (entries more : List α)
    : keepLast limit (keepLast limit entries ++ more) = keepLast limit (entries ++ more) := by
  unfold keepLast
  simp only [List.length_append, List.length_drop, List.drop_append]
  congr 1
  · rw [List.drop_drop]
    congr 1
    omega
  · congr 1
    omega

/-- Only the last entries of the appended part matter. -/
theorem keepLast_append_right (entries more : List α)
    : keepLast limit (entries ++ keepLast limit more) = keepLast limit (entries ++ more) := by
  by_cases short : more.length ≤ limit
  · rw [keepLast_of_short short]
  · have long : limit ≤ (keepLast limit more).length := by
      rw [keepLast_length]
      omega
    have whole (part : List α) (enough : limit ≤ part.length)
        : keepLast limit (entries ++ part) = keepLast limit part := by
      unfold keepLast
      rw [List.drop_append, List.drop_eq_nil_of_le, List.nil_append, List.length_append]
      · congr 1
        omega
      · rw [List.length_append]
        omega
    rw [whole _ long, whole more (by omega), keepLast_keepLast]

/-- A filter that drops nothing from the appended part commutes with forgetting. -/
theorem filter_keepLast (keep : α → Bool) {entries more : List α}
    (old : ∀ entry ∈ entries, keep entry = false) (new : ∀ entry ∈ more, keep entry = true)
    : (keepLast limit (entries ++ more)).filter keep = keepLast limit more := by
  unfold keepLast
  rw [List.drop_append, List.filter_append, List.length_append]
  have none : ((entries.drop (entries.length + more.length - limit)).filter keep) = [] := by
    rw [List.filter_eq_nil_iff]
    intro entry member
    rw [old entry (List.mem_of_mem_drop member)]
    exact Bool.false_ne_true
  have all : ∀ count, (more.drop count).filter keep = more.drop count := by
    intro count
    rw [List.filter_eq_self]
    exact fun entry member => new entry (List.mem_of_mem_drop member)
  rw [none, all, List.nil_append]
  congr 1
  omega

/-- A bounded log with the count of all entries ever made, kept or not. -/
structure BoundedLog (α : Type*) where
  entries : List α
  count : Nat

/-- The log before any entry. -/
def BoundedLog.empty : BoundedLog α := ⟨[], 0⟩

/-- `later` is `log` after more entries, numbered above the count so far. -/
structure BoundedLog.Extends (limit : Nat) (number : α → Nat) (log later : BoundedLog α) : Prop where
  old : ∀ entry ∈ log.entries, number entry ≤ log.count
  grew
    : ∃ more,
        later.entries = keepLast limit (log.entries ++ more)
        ∧ ∀ entry ∈ more, log.count < number entry ∧ number entry ≤ later.count
  count : log.count ≤ later.count

namespace BoundedLog

variable {log middle later : BoundedLog α}

/-- The entries numbered above a position. -/
def after (number : α → Nat) (log : BoundedLog α) (position : Nat) : List α :=
  log.entries.filter fun entry => number entry > position

namespace Extends

theorem refl (short : log.entries.length ≤ limit)
    (old : ∀ entry ∈ log.entries, number entry ≤ log.count)
    : Extends limit number log log where
  old := old
  grew := ⟨[], by rw [List.append_nil, keepLast_of_short short], by simp⟩
  count := Nat.le_refl _

theorem trans (first : Extends limit number log middle) (second : Extends limit number middle later)
    : Extends limit number log later := by
  obtain ⟨more, entries, above⟩ := first.grew
  obtain ⟨more', entries', above'⟩ := second.grew
  have count := first.count
  have count' := second.count
  refine ⟨first.old, ⟨more ++ more', ?_, ?_⟩, by omega⟩
  · rw [entries', entries, keepLast_append_left, List.append_assoc]
  · intro entry member
    rcases List.mem_append.mp member with member | member
    · have bounds := above entry member
      omega
    · have bounds := above' entry member
      omega

/-- The numbers of a later log are within its count. -/
theorem within (growth : Extends limit number log later)
    : ∀ entry ∈ later.entries, number entry ≤ later.count := by
  obtain ⟨more, entries, above⟩ := growth.grew
  intro entry member
  rw [entries] at member
  rcases List.mem_append.mp (mem_of_mem_keepLast member) with member | member
  · exact Nat.le_trans (growth.old entry member) growth.count
  · exact (above entry member).2

theorem short (growth : Extends limit number log later) : later.entries.length ≤ limit := by
  obtain ⟨more, entries, _⟩ := growth.grew
  rw [entries, keepLast_length]
  omega

/-- What is new since the earlier log. -/
theorem after_eq (growth : Extends limit number log later)
    : ∃ more,
        later.entries = keepLast limit (log.entries ++ more)
        ∧ later.after number log.count = keepLast limit more := by
  obtain ⟨more, entries, above⟩ := growth.grew
  refine ⟨more, entries, ?_⟩
  rw [after, entries]
  apply filter_keepLast
  · intro entry member
    simpa using growth.old entry member
  · intro entry member
    simpa using (above entry member).1

/-- A reader of the earlier log that appends what is new holds the later log. -/
theorem catchUp (growth : Extends limit number log later)
    : keepLast limit (log.entries ++ later.after number log.count) = later.entries := by
  obtain ⟨more, entries, new⟩ := growth.after_eq
  rw [new, keepLast_append_right, entries]

end Extends

end BoundedLog

end Foundation
