import Mathlib.Tactic

/-! Dictionaries in the order of insertion.
A key occurs at most once; setting a key that is there changes its value in place.
-/

namespace Foundation

/-- Pairs of distinct keys and values, in the order in which the keys were first set. -/
structure Dictionary (κ ν : Type*) where
  entries : List (κ × ν)
  distinct : (entries.map Prod.fst).Nodup

namespace Dictionary

variable {κ ν : Type*}

/-- The dictionary without keys. -/
def empty : Dictionary κ ν := ⟨[], List.nodup_nil⟩

def keys (dictionary : Dictionary κ ν) : List κ := dictionary.entries.map Prod.fst

def values (dictionary : Dictionary κ ν) : List ν := dictionary.entries.map Prod.snd

/-- Changes every value. -/
def mapValues (update : ν → ν) (dictionary : Dictionary κ ν) : Dictionary κ ν where
  entries := dictionary.entries.map fun entry => (entry.1, update entry.2)
  distinct := by
    rw [List.map_map]
    exact dictionary.distinct

variable [DecidableEq κ]

/-- The value that the pairs give a key. -/
def lookup (key : κ) : List (κ × ν) → Option ν
  | [] => none
  | entry :: rest => if entry.1 = key then some entry.2 else lookup key rest

/-- The value of a key. -/
def find (dictionary : Dictionary κ ν) (key : κ) : Option ν := lookup key dictionary.entries

/-- The pairs with the value of a key replaced, or added at the end. -/
def put (key : κ) (value : ν) : List (κ × ν) → List (κ × ν)
  | [] => [(key, value)]
  | entry :: rest => if entry.1 = key then (key, value) :: rest else entry :: put key value rest

theorem mem_put_keys {key : κ} {value : ν} {entries : List (κ × ν)} {other : κ}
    : other ∈ (put key value entries).map Prod.fst
      ↔ other = key ∨ other ∈ entries.map Prod.fst := by
  induction entries with
  | nil => simp [put]
  | cons entry rest ih =>
      unfold put
      split
      · next same => simp [same]
      · simp only [List.map_cons, List.mem_cons, ih]
        tauto

theorem put_distinct {key : κ} {value : ν} {entries : List (κ × ν)}
    (distinct : (entries.map Prod.fst).Nodup)
    : ((put key value entries).map Prod.fst).Nodup := by
  induction entries with
  | nil => simp [put]
  | cons entry rest ih =>
      obtain ⟨fresh, distinct'⟩ := List.nodup_cons.mp distinct
      unfold put
      split
      · next same =>
          rw [same] at fresh
          exact List.nodup_cons.mpr ⟨fresh, distinct'⟩
      · next different =>
          refine List.nodup_cons.mpr ⟨?_, ih distinct'⟩
          intro member
          rcases mem_put_keys.mp member with same | member
          · exact different same
          · exact fresh member

/-- `dictionary[key] = value` -/
def set (dictionary : Dictionary κ ν) (key : κ) (value : ν) : Dictionary κ ν where
  entries := put key value dictionary.entries
  distinct := put_distinct dictionary.distinct

/-- `dictionary.pop(key, None)` -/
def erase (dictionary : Dictionary κ ν) (key : κ) : Dictionary κ ν where
  entries := dictionary.entries.filter fun entry => entry.1 ≠ key
  distinct := (List.Sublist.map Prod.fst List.filter_sublist).nodup dictionary.distinct

variable {dictionary : Dictionary κ ν} {key other : κ} {value : ν}

@[simp] theorem find_empty (key : κ) : (empty : Dictionary κ ν).find key = none := rfl

theorem find_set (dictionary : Dictionary κ ν) (key other : κ) (value : ν)
    : (dictionary.set key value).find other
      = if other = key then some value else dictionary.find other := by
  obtain ⟨entries, distinct⟩ := dictionary
  change lookup other (put key value entries) = if other = key then _ else lookup other entries
  clear distinct
  induction entries with
  | nil => simp [put, lookup, eq_comm]
  | cons entry rest ih =>
      by_cases here : entry.1 = key
      · rw [put, if_pos here, lookup, lookup, here]
        by_cases same : key = other
        · simp [same]
        · simp [same, Ne.symm same]
      · rw [put, if_neg here, lookup, ih, lookup]
        by_cases same : entry.1 = other
        · have different : other ≠ key := same ▸ here
          simp [same, different]
        · simp [same]

theorem find_erase (dictionary : Dictionary κ ν) (key other : κ)
    : (dictionary.erase key).find other = if other = key then none else dictionary.find other := by
  obtain ⟨entries, distinct⟩ := dictionary
  change lookup other (entries.filter _) = if other = key then none else lookup other entries
  clear distinct
  induction entries with
  | nil => simp [lookup]
  | cons entry rest ih =>
      by_cases here : entry.1 = key
      · rw [List.filter_cons_of_neg (by simp [here]), ih, lookup]
        by_cases same : other = key
        · rw [if_pos same, if_pos same]
        · rw [if_neg same, if_neg same, if_neg (fun both => same (both.symm.trans here))]
      · rw [List.filter_cons_of_pos (by simp [here]), lookup, ih, lookup]
        by_cases same : entry.1 = other
        · have different : other ≠ key := same ▸ here
          simp [same, different]
        · simp [same]

/-- Setting a key updates the function of the keys. -/
theorem find_set_update (dictionary : Dictionary κ ν) (key : κ) (value : ν)
    : (dictionary.set key value).find = Function.update dictionary.find key (some value) := by
  funext other
  rw [find_set, Function.update_apply]

theorem find_erase_update (dictionary : Dictionary κ ν) (key : κ)
    : (dictionary.erase key).find = Function.update dictionary.find key none := by
  funext other
  rw [find_erase, Function.update_apply]

theorem find_mapValues (dictionary : Dictionary κ ν) (update : ν → ν) (key : κ)
    : (dictionary.mapValues update).find key = (dictionary.find key).map update := by
  obtain ⟨entries, distinct⟩ := dictionary
  change lookup key (entries.map _) = (lookup key entries).map update
  clear distinct
  induction entries with
  | nil => rfl
  | cons entry rest ih =>
      rw [List.map_cons, lookup, lookup, ih]
      split <;> rfl

end Dictionary

end Foundation
