import Mathlib.Tactic

/-! Programs over a state that either return or halt with a reason.
The rules reduce a program at a given state to the outcomes of its parts. A part whose
outcome is known is replaced by its continuation; `Outcome` states one condition on
returning and one on halting.
-/

namespace Foundation

universe u

/-- A program over states `σ` that returns a value or halts with a reason. -/
abbrev Halting (ε σ : Type u) := StateT σ (Except ε)

namespace Halting

variable {ε σ α β : Type u}

/-- Stops the program for good. -/
def halt (reason : ε) : Halting ε σ α :=
  fun _ => .error reason

-----------------------------------------------------------------------------------------
-- Evaluation at a state
-----------------------------------------------------------------------------------------

@[simp] theorem pure_apply (value : α) (state : σ)
    : (pure value : Halting ε σ α) state = .ok (value, state) :=
  rfl

@[simp] theorem get_apply (state : σ)
    : (get : Halting ε σ σ) state = .ok (state, state) :=
  rfl

@[simp] theorem set_apply (state state' : σ)
    : (set state' : Halting ε σ PUnit) state = .ok (⟨⟩, state') :=
  rfl

@[simp] theorem modify_apply (update : σ → σ) (state : σ)
    : (modify update : Halting ε σ PUnit) state = .ok (⟨⟩, update state) :=
  rfl

@[simp] theorem halt_apply (reason : ε) (state : σ)
    : (halt reason : Halting ε σ α) state = .error reason :=
  rfl

theorem bind_apply (program : Halting ε σ α) (next : α → Halting ε σ β) (state : σ)
    : (program >>= next) state
      = match program state with
        | .ok (value, state') => next value state'
        | .error reason => .error reason := by
  change Except.bind (program state) _ = _
  cases program state <;> rfl

/-- A part that returns hands its value and state to the rest. -/
theorem bind_ok {program : Halting ε σ α} {state state' : σ} {value : α}
    (returns : program state = .ok (value, state')) (next : α → Halting ε σ β)
    : (program >>= next) state = next value state' := by
  rw [bind_apply, returns]

/-- A part that halts halts the whole. -/
theorem bind_error {program : Halting ε σ α} {state : σ} {reason : ε}
    (halts : program state = .error reason) (next : α → Halting ε σ β)
    : (program >>= next) state = .error reason := by
  rw [bind_apply, halts]

/-- A returning sequence passes through a returning first part. -/
theorem bind_eq_ok {program : Halting ε σ α} {next : α → Halting ε σ β} {state : σ}
    {result : β × σ}
    : (program >>= next) state = .ok result
      ↔ ∃ value state', program state = .ok (value, state') ∧ next value state' = .ok result := by
  rw [bind_apply]
  cases program state with
  | error reason => simp
  | ok pair =>
      constructor
      · exact fun returned => ⟨pair.1, pair.2, rfl, returned⟩
      · rintro ⟨value, state', same, returned⟩
        cases same
        exact returned

@[simp] theorem bind_get_apply (next : σ → Halting ε σ β) (state : σ)
    : ((get : Halting ε σ σ) >>= next) state = next state state :=
  rfl

@[simp] theorem bind_set_apply (state' : σ) (next : PUnit → Halting ε σ β) (state : σ)
    : ((set state' : Halting ε σ PUnit) >>= next) state = next ⟨⟩ state' :=
  rfl

@[simp] theorem bind_modify_apply (update : σ → σ) (next : PUnit → Halting ε σ β) (state : σ)
    : ((modify update : Halting ε σ PUnit) >>= next) state = next ⟨⟩ (update state) :=
  rfl

@[simp] theorem bind_halt_apply (reason : ε) (next : α → Halting ε σ β) (state : σ)
    : ((halt reason : Halting ε σ α) >>= next) state = .error reason :=
  rfl

@[simp] theorem branch_apply (condition : Prop) [Decidable condition]
    (yes no : Halting ε σ α) (state : σ)
    : (if condition then yes else no) state = if condition then yes state else no state := by
  split <;> rfl

-----------------------------------------------------------------------------------------
-- Outcomes
-----------------------------------------------------------------------------------------

/-- The program either returns with `post` or halts with an admitted reason. -/
def Outcome (program : Halting ε σ α) (post : α → σ → Prop) (admitted : ε → Prop)
    (state : σ)
    : Prop :=
  match program state with
  | .ok (value, state') => post value state'
  | .error reason => admitted reason

theorem Outcome.of_ok {program : Halting ε σ α} {post : α → σ → Prop} {admitted : ε → Prop}
    {state state' : σ} {value : α} (returns : program state = .ok (value, state'))
    (holds : post value state')
    : Outcome program post admitted state := by
  rw [Outcome, returns]
  exact holds

theorem Outcome.of_error {program : Halting ε σ α} {post : α → σ → Prop}
    {admitted : ε → Prop} {state : σ} {reason : ε}
    (halts : program state = .error reason) (holds : admitted reason)
    : Outcome program post admitted state := by
  rw [Outcome, halts]
  exact holds

/-- What a returning program established. -/
theorem Outcome.ok {program : Halting ε σ α} {post : α → σ → Prop} {admitted : ε → Prop}
    {state state' : σ} {value : α} (outcome : Outcome program post admitted state)
    (returns : program state = .ok (value, state'))
    : post value state' := by
  rwa [Outcome, returns] at outcome

/-- What a halting program reports. -/
theorem Outcome.error {program : Halting ε σ α} {post : α → σ → Prop}
    {admitted : ε → Prop} {state : σ} {reason : ε}
    (outcome : Outcome program post admitted state)
    (halts : program state = .error reason)
    : admitted reason := by
  rwa [Outcome, halts] at outcome

/-- A program that goes on as another one, at another state. -/
theorem Outcome.of_eq {program program' : Halting ε σ α} {post : α → σ → Prop}
    {admitted : ε → Prop} {state state' : σ} (same : program state = program' state')
    (outcome : Outcome program' post admitted state')
    : Outcome program post admitted state := by
  unfold Outcome at outcome ⊢
  rwa [same]

theorem Outcome.mono {program : Halting ε σ α} {post post' : α → σ → Prop}
    {admitted admitted' : ε → Prop} {state : σ}
    (outcome : Outcome program post admitted state)
    (returned : ∀ value state', post value state' → post' value state')
    (halted : ∀ reason, admitted reason → admitted' reason)
    : Outcome program post' admitted' state := by
  cases result : program state with
  | error reason => exact .of_error result (halted reason (outcome.error result))
  | ok pair => exact .of_ok result (returned pair.1 pair.2 (outcome.ok result))

/-- Sequencing composes outcomes through the intermediate state. -/
theorem Outcome.bind {program : Halting ε σ α} {next : α → Halting ε σ β}
    {middle : α → σ → Prop} {post : β → σ → Prop} {admitted : ε → Prop} {state : σ}
    (first : Outcome program middle admitted state)
    (rest : ∀ value state', middle value state' → Outcome (next value) post admitted state')
    : Outcome (program >>= next) post admitted state := by
  cases result : program state with
  | error reason => exact .of_error (bind_error result next) (first.error result)
  | ok pair =>
      have outcome := rest pair.1 pair.2 (first.ok result)
      unfold Outcome at outcome ⊢
      rwa [bind_ok result next]

-----------------------------------------------------------------------------------------
-- Relations between the states before and after
-----------------------------------------------------------------------------------------

/-- Wherever the program returns, the relation holds between the states. -/
def Respects (relation : σ → σ → Prop) (program : Halting ε σ α) : Prop :=
  ∀ ⦃state value state'⦄, program state = .ok (value, state') → relation state state'

namespace Respects

variable {relation : σ → σ → Prop}

theorem of_modify {update : σ → σ} (holds : ∀ state, relation state (update state))
    : Respects relation (modify update : Halting ε σ PUnit) := by
  intro state value state' returned
  cases returned
  exact holds state

theorem of_halt (reason : ε) : Respects relation (halt reason : Halting ε σ α) := by
  intro state value state' returned
  cases returned

theorem of_pure [Std.Refl relation] (value : α)
    : Respects relation (pure value : Halting ε σ α) := by
  intro state value state' returned
  cases returned
  exact refl_of relation state

theorem of_get [Std.Refl relation] : Respects relation (get : Halting ε σ σ) := by
  intro state value state' returned
  cases returned
  exact refl_of relation state

theorem bind [IsTrans σ relation] {program : Halting ε σ α}
    {next : α → Halting ε σ β} (first : Respects relation program)
    (rest : ∀ value, Respects relation (next value))
    : Respects relation (program >>= next) := by
  intro state value state' returned
  obtain ⟨middle, between, here, later⟩ := bind_eq_ok.mp returned
  exact trans_of relation (first here) (rest middle later)

end Respects

-----------------------------------------------------------------------------------------
-- Programs on a component of the state
-----------------------------------------------------------------------------------------

/-- Runs a program on the component of the state that `view` reads and `update` writes. -/
def onComponent {τ : Type u} (view : τ → σ) (update : τ → σ → τ) (program : Halting ε σ α)
    : Halting ε τ α :=
  fun state =>
    match program (view state) with
    | .ok (value, component) => .ok (value, update state component)
    | .error reason => .error reason

theorem onComponent_ok {τ : Type u} {view : τ → σ} {update : τ → σ → τ}
    {program : Halting ε σ α} {state : τ} {value : α} {component : σ}
    (returns : program (view state) = .ok (value, component))
    : onComponent view update program state = .ok (value, update state component) := by
  rw [onComponent, returns]

theorem onComponent_error {τ : Type u} {view : τ → σ} {update : τ → σ → τ}
    {program : Halting ε σ α} {state : τ} {reason : ε}
    (halts : program (view state) = .error reason)
    : onComponent view update program state = .error reason := by
  rw [onComponent, halts]

end Halting

end Foundation
