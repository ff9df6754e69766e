import Mathlib.Data.Set.Insert
import Mathlib.Data.List.Basic

/-! Handing out the slots of a ring by next fit.
The search for a free slot starts behind the last slot that was taken and goes around. How far
up and around a slot lies from there orders the slots of one round.
-/

namespace Foundation

-----------------------------------------------------------------------------------------
-- Distances around a ring
-----------------------------------------------------------------------------------------

/-- How many steps lead from `base` to `slot`, going up and around. -/
def ringDistance (size base slot : Nat) : Nat :=
  if base ≤ slot then slot - base else slot + size - base

/-- `slot` is the first one with the property in cyclic order from `start`. -/
def FirstFrom (size : Nat) (property : Nat → Prop) (start slot : Nat) : Prop :=
  ∃ step < size,
    slot = (start + step) % size
    ∧ property slot
    ∧ ∀ earlier < step, ¬property ((start + earlier) % size)

section Ring

variable {size base slot : Nat}

theorem ringDistance_lt (inside : base < size) (inside' : slot < size)
    : ringDistance size base slot < size := by
  simp only [ringDistance]
  split <;> omega

theorem ringDistance_of_le (above : base ≤ slot) : ringDistance size base slot = slot - base :=
  if_pos above

/-- Going the distance from the base leads to the slot. -/
theorem add_ringDistance (inside : base < size) (inside' : slot < size)
    : (base + ringDistance size base slot) % size = slot := by
  by_cases above : base ≤ slot
  · rw [ringDistance_of_le above, Nat.add_sub_cancel' above, Nat.mod_eq_of_lt inside']
  · have around : base + (slot + size - base) = slot + size := by omega
    rw [ringDistance, if_neg above, around, Nat.add_mod_right, Nat.mod_eq_of_lt inside']

/-- Within a round the distance is the number of steps. -/
theorem ringDistance_add {step : Nat} (inside : base < size) (short : step < size)
    : ringDistance size base ((base + step) % size) = step := by
  by_cases straight : base + step < size
  · rw [Nat.mod_eq_of_lt straight, ringDistance_of_le (Nat.le_add_right _ _)]
    omega
  · have wrapped : (base + step) % size = base + step - size := by
      rw [Nat.mod_eq_sub_mod (not_lt.mp straight), Nat.mod_eq_of_lt (by omega)]
    rw [wrapped, ringDistance, if_neg (by omega)]
    omega

/-- The slot before the base is the farthest one. -/
theorem ringDistance_before (inside : slot < size)
    : ringDistance size ((slot + 1) % size) slot = size - 1 := by
  by_cases wraps : slot + 1 = size
  · rw [wraps, Nat.mod_self, ringDistance_of_le (Nat.zero_le _)]
    omega
  · rw [Nat.mod_eq_of_lt (by omega), ringDistance, if_neg (by omega)]
    omega

/-- One more step, unless it completes the round. -/
theorem ringDistance_succ (inside : base < size) (here : slot < size)
    (room : ringDistance size base slot + 1 < size)
    : ringDistance size base ((slot + 1) % size) = ringDistance size base slot + 1 := by
  have arrived := add_ringDistance inside here
  have next : (slot + 1) % size = (base + (ringDistance size base slot + 1)) % size := by
    conv_lhs => rw [← arrived]
    rw [Nat.mod_add_mod, Nat.add_assoc]
  rw [next, ringDistance_add inside room]

theorem ringDistance_ne {slot' : Nat} (inside : base < size) (here : slot < size)
    (there : slot' < size) (different : slot ≠ slot')
    : ringDistance size base slot ≠ ringDistance size base slot' := by
  intro same
  apply different
  rw [← add_ringDistance inside here, same, add_ringDistance inside there]

end Ring

namespace FirstFrom

variable {size start slot other : Nat} {property : Nat → Prop}

theorem lt (first : FirstFrom size property start slot) : slot < size := by
  obtain ⟨step, short, rfl, _⟩ := first
  exact Nat.mod_lt _ (by omega)

theorem holds (first : FirstFrom size property start slot) : property slot := by
  obtain ⟨_, _, _, holds, _⟩ := first
  exact holds

/-- The start of the search counts around the ring. -/
theorem of_mod (first : FirstFrom size property (start % size) slot)
    : FirstFrom size property start slot := by
  simpa only [FirstFrom, Nat.mod_add_mod] using first

/-- No slot with the property is nearer to the start. -/
theorem nearest (first : FirstFrom size property start slot) (inside : start < size)
    (inside' : other < size) (has : property other)
    : ringDistance size start slot ≤ ringDistance size start other := by
  obtain ⟨step, short, rfl, _, none⟩ := first
  rw [ringDistance_add inside short]
  by_contra nearer
  have absent := none (ringDistance size start other) (not_le.mp nearer)
  rw [add_ringDistance inside inside'] at absent
  exact absent has

/-- The same seen from another base, as long as the search starts before the other slot: then the
slot that is found lies between the two.
-/
theorem between {base : Nat} (first : FirstFrom size property start slot)
    (inside : start < size) (inside' : other < size) (has : property other) (based : base < size)
    (before : ringDistance size base start ≤ ringDistance size base other)
    : ringDistance size base start ≤ ringDistance size base slot
      ∧ ringDistance size base slot ≤ ringDistance size base other := by
  have near := first.nearest inside inside' has
  have bound := first.lt
  simp only [ringDistance] at *
  split_ifs at * <;> omega

/-- A search from a bound below which nothing has the property finds the least slot. -/
theorem least {bound : Nat} (first : FirstFrom size property (bound % size) slot)
    (above : ∀ other, property other → bound ≤ other ∧ other < size) (has : property other)
    : slot ≤ other := by
  obtain ⟨low, inside⟩ := above slot first.holds
  obtain ⟨low', inside'⟩ := above other has
  have straight : bound % size = bound := Nat.mod_eq_of_lt (by omega)
  have near := first.nearest (by omega) inside' has
  rw [straight, ringDistance_of_le low, ringDistance_of_le low'] at near
  omega

end FirstFrom

-----------------------------------------------------------------------------------------
-- Runs of an allocator
-----------------------------------------------------------------------------------------

/-- The free slots, and where the next search starts. -/
structure SlotRing where
  free : Set Nat
  cursor : Nat

/-- What happens to a slot, or to none. -/
inductive SlotEvent where
  | take (slot : Nat)
  | give (slot : Nat)
  | idle
  deriving DecidableEq, Repr

/-- One step of next fit. -/
inductive NextFitStep (size : Nat) (ring : SlotRing) : SlotEvent → SlotRing → Prop where
  | take {slot : Nat} (first : FirstFrom size (· ∈ ring.free) ring.cursor slot)
    : NextFitStep size ring (.take slot)
        ⟨{other | other ≠ slot ∧ other ∈ ring.free}, (slot + 1) % size⟩
  | give (slot : Nat) : NextFitStep size ring (.give slot) ⟨insert slot ring.free, ring.cursor⟩
  | idle : NextFitStep size ring .idle ring

/-- A run with its events. -/
inductive NextFitRun (size : Nat) : SlotRing → List SlotEvent → SlotRing → Prop where
  | refl (ring : SlotRing) : NextFitRun size ring [] ring
  | step {ring middle ring' : SlotRing} {event : SlotEvent} {events : List SlotEvent}
    (first : NextFitStep size ring event middle) (rest : NextFitRun size middle events ring')
    : NextFitRun size ring (event :: events) ring'

/-- The slots taken, in order. -/
def takenSlots (events : List SlotEvent) : List Nat :=
  events.filterMap fun event =>
    match event with
    | .take slot => some slot
    | _ => none

@[simp] theorem takenSlots_nil : takenSlots [] = [] := rfl

@[simp] theorem takenSlots_take (slot : Nat) (events : List SlotEvent)
    : takenSlots (.take slot :: events) = slot :: takenSlots events :=
  rfl

@[simp] theorem takenSlots_give (slot : Nat) (events : List SlotEvent)
    : takenSlots (.give slot :: events) = takenSlots events :=
  rfl

@[simp] theorem takenSlots_idle (events : List SlotEvent)
    : takenSlots (.idle :: events) = takenSlots events :=
  rfl

namespace NextFitRun

variable {size : Nat} {ring ring' : SlotRing} {events : List SlotEvent}

/-- The search starts behind the last slot taken. Witness: induction on the run. -/
theorem cursor_eq (run : NextFitRun size ring events ring')
    : ring'.cursor
      = match (takenSlots events).getLast? with
        | some slot => (slot + 1) % size
        | none => ring.cursor := by
  induction run with
  | refl ring => rfl
  | @step ring middle ring' event events first rest ih =>
      cases first with
      | @take slot first =>
          rw [ih, takenSlots_take]
          cases found : (takenSlots events).getLast? with
          | none =>
              rw [List.getLast?_eq_none_iff.mp found]
              rfl
          | some last =>
              rw [List.getLast?_cons, found]
              rfl
      | give slot =>
          rw [ih, takenSlots_give]
      | idle =>
          rw [ih, takenSlots_idle]

theorem cursor_lt (run : NextFitRun size ring events ring') (inside : ring.cursor < size)
    : ring'.cursor < size := by
  rw [run.cursor_eq]
  split
  · exact Nat.mod_lt _ (by omega)
  · exact inside

theorem taken_lt (run : NextFitRun size ring events ring')
    : ∀ slot ∈ takenSlots events, slot < size := by
  induction run with
  | refl ring => simp
  | @step ring middle ring' event events first rest ih =>
      cases first with
      | @take found first =>
          rintro slot (_ | ⟨_, later⟩)
          · exact first.lt
          · exact ih slot later
      | give slot => exact ih
      | idle => exact ih

/-- Until it is taken a free slot stays free, and the search does not pass it. Witness:
induction on the run; what a search finds lies at most as far from the base as the slot.
-/
theorem waits (run : NextFitRun size ring events ring') {base slot : Nat} (based : base < size)
    (inside : ring.cursor < size) (inside' : slot < size) (free : slot ∈ ring.free)
    (ahead : ringDistance size base ring.cursor ≤ ringDistance size base slot)
    (untaken : slot ∉ takenSlots events)
    : slot ∈ ring'.free
      ∧ ringDistance size base ring'.cursor ≤ ringDistance size base slot := by
  induction run with
  | refl ring => exact ⟨free, ahead⟩
  | @step ring middle ring' event events first rest ih =>
      cases first with
      | @take other first =>
          rw [takenSlots_take, List.mem_cons, not_or] at untaken
          obtain ⟨different, untaken⟩ := untaken
          have near := (first.between inside inside' free based ahead).2
          have apart := ringDistance_ne based first.lt inside' (Ne.symm different)
          have within := ringDistance_lt based inside'
          have next := ringDistance_succ based first.lt (by omega)
          refine ih (Nat.mod_lt _ (by omega)) ⟨different, free⟩ ?_ untaken
          rw [next]
          omega
      | give other =>
          exact ih inside (Set.mem_insert_of_mem _ free) ahead untaken
      | idle => exact ih inside free ahead untaken

/-- Before a slot is found again, every slot that was free when the search had passed it has been
taken. Witness: from the slot behind it the slot itself is the farthest one.
-/
theorem revisit (run : NextFitRun size ring events ring') {slot other : Nat}
    (behind : ring.cursor = (slot + 1) % size)
    (again : FirstFrom size (· ∈ ring'.free) ring'.cursor slot)
    (free : other ∈ ring.free) (inside : other < size) (different : other ≠ slot)
    : other ∈ takenSlots events := by
  by_contra untaken
  have positive : 0 < size := by omega
  have based : (slot + 1) % size < size := Nat.mod_lt _ positive
  have started : ring.cursor < size := behind ▸ based
  have here : ringDistance size ((slot + 1) % size) ring.cursor = 0 := by
    rw [behind, ringDistance_of_le le_rfl, Nat.sub_self]
  obtain ⟨waiting, ahead⟩ :=
    run.waits based started inside free (here ▸ Nat.zero_le _) untaken
  have near := (again.between (run.cursor_lt started) inside waiting based ahead).2
  have apart := ringDistance_ne based again.lt inside (Ne.symm different)
  have within := ringDistance_lt based inside
  rw [ringDistance_before again.lt] at near apart
  omega

/-- While no slot is given back the taken ones ascend. Witness: induction on the run; the search
starts at a lower bound of the free slots, so it finds the lowest one.
-/
theorem ascends (run : NextFitRun size ring events ring') {bound : Nat}
    (above : ∀ slot ∈ ring.free, bound ≤ slot ∧ slot < size) (starts : ring.cursor = bound % size)
    (kept : ∀ slot, SlotEvent.give slot ∉ events)
    : (takenSlots events).Pairwise (· < ·) ∧ ∀ slot ∈ takenSlots events, bound ≤ slot := by
  induction run generalizing bound with
  | refl ring => exact ⟨List.Pairwise.nil, by simp⟩
  | @step ring middle ring' event events first rest ih =>
      have kept' : ∀ slot, SlotEvent.give slot ∉ events :=
        fun slot member => kept slot (List.mem_cons_of_mem _ member)
      cases first with
      | @take found first =>
          obtain ⟨low, high⟩ := above found first.holds
          have starts' : ring.cursor = bound := by
            rw [starts, Nat.mod_eq_of_lt (by omega)]
          have lowest : ∀ slot ∈ ring.free, found ≤ slot := by
            intro slot free
            obtain ⟨low', high'⟩ := above slot free
            have near := first.nearest (by omega) high' free
            rw [starts', ringDistance_of_le low, ringDistance_of_le low'] at near
            omega
          obtain ⟨sorted, later⟩ := @ih (found + 1)
            (fun slot free => ⟨Nat.lt_of_le_of_ne (lowest slot free.2) (Ne.symm free.1),
              (above slot free.2).2⟩) rfl kept'
          rw [takenSlots_take, List.pairwise_cons]
          refine ⟨⟨later, sorted⟩, ?_⟩
          intro slot member
          rcases List.mem_cons.mp member with rfl | member
          · exact low
          · have := later slot member
            omega
      | give slot => exact (kept slot List.mem_cons_self).elim
      | idle => exact ih above starts kept'

end NextFitRun

end Foundation
