import Mathlib.Tactic

/-! Programs that ask a server questions and go on with its replies.
A program is its tree of questions. `Runs` lists the exchanges of one way through the tree,
`Ensures` says what holds at the end of every way that a server can take.
-/

namespace Foundation

universe u

/-- A program that asks questions `Q`, takes replies `R` and ends with a value. -/
inductive Interaction (Q R α : Type u) where
  | done (value : α)
  | ask (question : Q) (resume : R → Interaction Q R α)
  /-- A step that has no meaning. -/
  | stuck
  /-- A loop used up the number of rounds that it was given. -/
  | spent

namespace Interaction

variable {Q R σ ω α β : Type u}

def bind (program : Interaction Q R α) (next : α → Interaction Q R β) : Interaction Q R β :=
  match program with
  | .done value => next value
  | .ask question resume => .ask question fun reply => (resume reply).bind next
  | .stuck => .stuck
  | .spent => .spent

instance : Monad (Interaction Q R) where
  pure := .done
  bind := bind

/-- Asks one question. -/
def request (question : Q) : Interaction Q R R := .ask question .done

/-- Repeats a step until it gives a result, for at most so many rounds. -/
def iterate (step : σ → Interaction Q R (σ ⊕ α)) : Nat → σ → Interaction Q R α
  | 0, _ => .spent
  | rounds + 1, state => do
      match ← step state with
      | .inl state' => iterate step rounds state'
      | .inr value => pure value

@[simp] theorem pure_eq (value : α) : (pure value : Interaction Q R α) = .done value := rfl

@[simp] theorem done_bind (value : α) (next : α → Interaction Q R β)
    : (Interaction.done value : Interaction Q R α) >>= next = next value :=
  rfl

@[simp] theorem ask_bind (question : Q) (resume : R → Interaction Q R α)
    (next : α → Interaction Q R β)
    : Interaction.ask question resume >>= next
      = .ask question fun reply => resume reply >>= next :=
  rfl

@[simp] theorem request_bind (question : Q) (next : R → Interaction Q R β)
    : (request question : Interaction Q R R) >>= next = .ask question next :=
  rfl

@[simp] theorem stuck_bind (next : α → Interaction Q R β)
    : (Interaction.stuck : Interaction Q R α) >>= next = .stuck :=
  rfl

@[simp] theorem spent_bind (next : α → Interaction Q R β)
    : (Interaction.spent : Interaction Q R α) >>= next = .spent :=
  rfl

/-- A sequence of three programs has no brackets. -/
theorem bind_bind {γ : Type u} (program : Interaction Q R α) (next : α → Interaction Q R β)
    (last : β → Interaction Q R γ)
    : program >>= next >>= last = program >>= fun value => next value >>= last := by
  induction program with
  | done value => rfl
  | ask question resume ih => exact congrArg (Interaction.ask question) (funext ih)
  | stuck => rfl
  | spent => rfl

-----------------------------------------------------------------------------------------
-- Runs
-----------------------------------------------------------------------------------------

/-- A run to the end, with any replies. -/
inductive Runs : Interaction Q R α → List (Q × R) → α → Prop
  | done (value : α) : Runs (.done value) [] value
  | ask {question : Q} {resume : R → Interaction Q R α} {reply : R} {exchanges : List (Q × R)}
      {value : α} (rest : Runs (resume reply) exchanges value)
      : Runs (.ask question resume) ((question, reply) :: exchanges) value

section Runs

variable {exchanges : List (Q × R)} {value : α}

@[simp] theorem runs_done {result : α}
    : Runs (.done result : Interaction Q R α) exchanges value
      ↔ exchanges = [] ∧ value = result := by
  constructor
  · intro run
    cases run
    exact ⟨rfl, rfl⟩
  · rintro ⟨rfl, rfl⟩
    exact .done _

@[simp] theorem runs_ask {question : Q} {resume : R → Interaction Q R α}
    : Runs (.ask question resume) exchanges value
      ↔ ∃ reply rest, exchanges = (question, reply) :: rest ∧ Runs (resume reply) rest value := by
  constructor
  · intro run
    cases run with
    | ask rest => exact ⟨_, _, rfl, rest⟩
  · rintro ⟨reply, rest, rfl, run⟩
    exact .ask run

@[simp] theorem not_runs_stuck : ¬Runs (.stuck : Interaction Q R α) exchanges value := by
  intro run
  cases run

@[simp] theorem not_runs_spent : ¬Runs (.spent : Interaction Q R α) exchanges value := by
  intro run
  cases run

/-- A run of a sequence is a run of its first part and one of the rest. -/
theorem runs_bind {program : Interaction Q R α} {next : α → Interaction Q R β} {result : β}
    : Runs (program >>= next) exchanges result
      ↔ ∃ first value second,
          exchanges = first ++ second
          ∧ Runs program first value
          ∧ Runs (next value) second result := by
  constructor
  · intro run
    induction program generalizing exchanges with
    | done value => exact ⟨[], value, exchanges, rfl, .done value, run⟩
    | ask question resume ih =>
        obtain ⟨reply, rest, rfl, later⟩ := runs_ask.mp run
        obtain ⟨first, value, second, rfl, here, later⟩ := ih reply later
        exact ⟨_ :: first, value, second, rfl, .ask here, later⟩
    | stuck => exact absurd run not_runs_stuck
    | spent => exact absurd run not_runs_spent
  · rintro ⟨first, value, second, rfl, here, later⟩
    induction here with
    | done => exact later
    | ask _ ih => exact .ask (ih later)

end Runs

-----------------------------------------------------------------------------------------
-- Parts of runs
-----------------------------------------------------------------------------------------

/-- A run up to some exchange, with what the program still does. -/
inductive Reaches : Interaction Q R α → List (Q × R) → Interaction Q R α → Prop
  | refl (program : Interaction Q R α) : Reaches program [] program
  | ask {question : Q} {resume : R → Interaction Q R α} {reply : R} {exchanges : List (Q × R)}
      {rest : Interaction Q R α} (later : Reaches (resume reply) exchanges rest)
      : Reaches (.ask question resume) ((question, reply) :: exchanges) rest

section Reaches

variable {program rest : Interaction Q R α} {exchanges : List (Q × R)}

@[simp] theorem reaches_done {result : α}
    : Reaches (.done result) exchanges rest ↔ exchanges = [] ∧ rest = .done result := by
  constructor
  · intro reached
    cases reached
    exact ⟨rfl, rfl⟩
  · rintro ⟨rfl, rfl⟩
    exact .refl _

@[simp] theorem reaches_ask {question : Q} {resume : R → Interaction Q R α}
    : Reaches (.ask question resume) exchanges rest
      ↔ (exchanges = [] ∧ rest = .ask question resume)
        ∨ ∃ reply more, exchanges = (question, reply) :: more ∧ Reaches (resume reply) more rest := by
  constructor
  · intro reached
    cases reached with
    | refl => exact Or.inl ⟨rfl, rfl⟩
    | ask later => exact Or.inr ⟨_, _, rfl, later⟩
  · rintro (⟨rfl, rfl⟩ | ⟨reply, more, rfl, later⟩)
    · exact .refl _
    · exact .ask later

@[simp] theorem reaches_nil : Reaches program [] rest ↔ rest = program := by
  constructor
  · intro reached
    generalize none : ([] : List (Q × R)) = exchanges at reached
    cases reached with
    | refl => rfl
    | ask => cases none
  · rintro rfl
    exact .refl _

/-- The next question is answered. -/
theorem Reaches.answered {question : Q} {resume : R → Interaction Q R α}
    (reached : Reaches program exchanges (.ask question resume)) (reply : R)
    : Reaches program (exchanges ++ [(question, reply)]) (resume reply) := by
  generalize same : Interaction.ask question resume = last at reached
  induction reached with
  | refl program =>
      subst same
      exact .ask (.refl _)
  | ask later ih => exact .ask (ih same)

theorem Reaches.trans {middle : Interaction Q R α} {more : List (Q × R)}
    (first : Reaches program exchanges middle) (second : Reaches middle more rest)
    : Reaches program (exchanges ++ more) rest := by
  induction first with
  | refl => exact second
  | ask _ ih => exact .ask (ih second)

/-- What is reached by two stretches is reached by the second from where the first ends. -/
theorem Reaches.split {more : List (Q × R)} (reached : Reaches program (exchanges ++ more) rest)
    : ∃ middle, Reaches program exchanges middle ∧ Reaches middle more rest := by
  induction exchanges generalizing program with
  | nil => exact ⟨program, .refl program, reached⟩
  | cons exchange exchanges ih =>
      cases reached with
      | ask later =>
          obtain ⟨middle, first, second⟩ := ih later
          exact ⟨middle, .ask first, second⟩

theorem Reaches.bind (reached : Reaches program exchanges rest) (next : α → Interaction Q R β)
    : Reaches (program >>= next) exchanges (rest >>= next) := by
  induction reached with
  | refl => exact .refl _
  | ask _ ih => exact .ask ih

/-- A run into a sequence ends in its first part, or has left it behind. -/
theorem reaches_bind {next : α → Interaction Q R β} {last : Interaction Q R β}
    (reached : Reaches (program >>= next) exchanges last)
    : (∃ rest, Reaches program exchanges rest ∧ last = rest >>= next)
      ∨ ∃ first value second,
          exchanges = first ++ second
          ∧ Runs program first value
          ∧ Reaches (next value) second last := by
  induction program generalizing exchanges with
  | done value => exact Or.inr ⟨[], value, exchanges, rfl, .done value, reached⟩
  | ask question resume ih =>
      rcases reaches_ask.mp reached with ⟨rfl, rfl⟩ | ⟨reply, more, rfl, later⟩
      · exact Or.inl ⟨_, .refl _, rfl⟩
      · rcases ih reply later with ⟨rest, here, rfl⟩ | ⟨first, value, second, rfl, run, here⟩
        · exact Or.inl ⟨rest, .ask here, rfl⟩
        · exact Or.inr ⟨_ :: first, value, second, rfl, .ask run, here⟩
  | stuck =>
      cases reached
      exact Or.inl ⟨.stuck, .refl _, rfl⟩
  | spent =>
      cases reached
      exact Or.inl ⟨.spent, .refl _, rfl⟩

theorem Runs.reaches {value : α} (run : Runs program exchanges value)
    : Reaches program exchanges (.done value) := by
  induction run with
  | done => exact .refl _
  | ask _ ih => exact .ask ih

theorem Reaches.runs {value : α} (reached : Reaches program exchanges (.done value))
    : Runs program exchanges value := by
  generalize same : Interaction.done value = last at reached
  induction reached with
  | refl =>
      subst same
      exact .done value
  | ask _ ih => exact .ask (ih same)

end Reaches

/-- The program asks the questions of a script, whatever the replies that the script allows are,
and then goes on with the rest.
-/
inductive Plays : Interaction Q R α → List (Q × (R → Prop)) → Interaction Q R α → Prop
  | refl (program : Interaction Q R α) : Plays program [] program
  | ask {question : Q} {resume : R → Interaction Q R α} {allowed : R → Prop}
      {script : List (Q × (R → Prop))} {rest : Interaction Q R α}
      (later : ∀ reply, allowed reply → Plays (resume reply) script rest)
      : Plays (.ask question resume) ((question, allowed) :: script) rest

/-- The exchange has the question of the script and a reply that it allows. -/
def Answers (line : Q × (R → Prop)) (exchange : Q × R) : Prop :=
  exchange.1 = line.1 ∧ line.2 exchange.2

section Plays

variable {program rest : Interaction Q R α} {script : List (Q × (R → Prop))}

theorem Plays.trans {middle : Interaction Q R α} {more : List (Q × (R → Prop))}
    (first : Plays program script middle) (second : Plays middle more rest)
    : Plays program (script ++ more) rest := by
  induction first with
  | refl => exact second
  | ask _ ih => exact .ask fun reply allows => ih reply allows second

theorem Plays.bind (plays : Plays program script rest) (next : α → Interaction Q R β)
    : Plays (program >>= next) script (rest >>= next) := by
  induction plays with
  | refl => exact .refl _
  | ask _ ih => exact .ask ih

/-- A round that ends in a state goes over into the rounds that are left. -/
theorem Plays.iterate {step : σ → Interaction Q R (σ ⊕ α)} {state state' : σ}
    (plays : Plays (step state) script (.done (.inl state'))) (rounds : Nat)
    : Plays (Interaction.iterate step (rounds + 1) state) script
        (Interaction.iterate step rounds state') :=
  plays.bind _

/-- A round that asks makes the loop ask. -/
theorem Plays.iterate_asks {step : σ → Interaction Q R (σ ⊕ α)} {state : σ} {question : Q}
    {resume : R → Interaction Q R (σ ⊕ α)} (plays : Plays (step state) script (.ask question resume))
    (rounds : Nat)
    : ∃ resume', Plays (Interaction.iterate step (rounds + 1) state) script (.ask question resume') :=
  ⟨_, plays.bind _⟩

/-- Exchanges that answer the script lead to where the script ends. -/
theorem Plays.reaches (plays : Plays program script rest) {exchanges : List (Q × R)}
    (answered : List.Forall₂ Answers script exchanges)
    : Reaches program exchanges rest := by
  induction plays generalizing exchanges with
  | refl =>
      cases answered
      exact .refl _
  | ask _ ih =>
      cases answered with
      | cons first others =>
          obtain ⟨rfl, allows⟩ := first
          exact .ask (ih _ allows others)

theorem Plays.runs {value : α} (plays : Plays program script (.done value))
    {exchanges : List (Q × R)} (answered : List.Forall₂ Answers script exchanges)
    : Runs program exchanges value :=
  (plays.reaches answered).runs

end Plays

/-- All questions that the program can ask are of a kind. -/
def AsksOnly (kind : Q → Prop) : Interaction Q R α → Prop
  | .ask question resume => kind question ∧ ∀ reply, AsksOnly kind (resume reply)
  | _ => True

section AsksOnly

variable {kind : Q → Prop} {program : Interaction Q R α}

@[simp] theorem asksOnly_done {value : α} : AsksOnly kind (.done value : Interaction Q R α) :=
  trivial

@[simp] theorem asksOnly_stuck : AsksOnly kind (.stuck : Interaction Q R α) := trivial

@[simp] theorem asksOnly_ask {question : Q} {resume : R → Interaction Q R α}
    : AsksOnly kind (.ask question resume)
      ↔ kind question ∧ ∀ reply, AsksOnly kind (resume reply) :=
  Iff.rfl

theorem AsksOnly.mono {kind' : Q → Prop} (asks : AsksOnly kind program)
    (implies : ∀ question, kind question → kind' question)
    : AsksOnly kind' program := by
  induction program with
  | ask question resume ih => exact ⟨implies _ asks.1, fun reply => ih reply (asks.2 reply)⟩
  | done | stuck | spent => trivial

theorem AsksOnly.bind {next : α → Interaction Q R β} (asks : AsksOnly kind program)
    (later : ∀ value, AsksOnly kind (next value))
    : AsksOnly kind (program >>= next) := by
  induction program with
  | done value => exact later value
  | ask question resume ih => exact ⟨asks.1, fun reply => ih reply (asks.2 reply)⟩
  | stuck => trivial
  | spent => trivial

theorem AsksOnly.iterate {step : σ → Interaction Q R (σ ⊕ α)}
    (round : ∀ state, AsksOnly kind (step state)) (rounds : Nat) (state : σ)
    : AsksOnly kind (Interaction.iterate step rounds state) := by
  induction rounds generalizing state with
  | zero => trivial
  | succ rounds ih =>
      refine (round state).bind fun outcome => ?_
      cases outcome with
      | inl state' => exact ih state'
      | inr value => trivial

theorem AsksOnly.reaches (asks : AsksOnly kind program) {exchanges : List (Q × R)}
    {rest : Interaction Q R α} (reached : Reaches program exchanges rest)
    : ∀ exchange ∈ exchanges, kind exchange.1 := by
  induction reached with
  | refl => simp
  | ask _ ih =>
      obtain ⟨here, later⟩ := asks
      intro exchange member
      rcases List.mem_cons.mp member with rfl | member
      · exact here
      · exact ih (later _) exchange member

theorem AsksOnly.runs (asks : AsksOnly kind program) {exchanges : List (Q × R)} {value : α}
    (run : Runs program exchanges value)
    : ∀ exchange ∈ exchanges, kind exchange.1 :=
  asks.reaches run.reaches

end AsksOnly

/-- On its way the program asks at most so many questions of a kind. -/
def AsksAtMost (kind : Q → Bool) (count : Nat) (program : Interaction Q R α) : Prop :=
  ∀ exchanges rest, Reaches program exchanges rest → exchanges.countP (kind ·.1) ≤ count

section AsksAtMost

variable {kind : Q → Bool} {count : Nat} {program : Interaction Q R α}

theorem asksAtMost_done (value : α) : AsksAtMost kind count (.done value : Interaction Q R α) := by
  intro exchanges rest reached
  obtain ⟨rfl, _⟩ := reaches_done.mp reached
  exact Nat.zero_le count

/-- A question of another kind does not count. -/
theorem AsksAtMost.ask {question : Q} {resume : R → Interaction Q R α} (other : kind question = false)
    (later : ∀ reply, AsksAtMost kind count (resume reply))
    : AsksAtMost kind count (.ask question resume) := by
  intro exchanges rest reached
  rcases reaches_ask.mp reached with ⟨rfl, _⟩ | ⟨reply, more, rfl, below⟩
  · exact Nat.zero_le count
  · simpa [other] using later reply more rest below

theorem AsksAtMost.ask_counted {question : Q} {resume : R → Interaction Q R α}
    (later : ∀ reply, AsksAtMost kind count (resume reply))
    : AsksAtMost kind (count + 1) (.ask question resume) := by
  intro exchanges rest reached
  rcases reaches_ask.mp reached with ⟨rfl, _⟩ | ⟨reply, more, rfl, below⟩
  · exact Nat.zero_le _
  · have := later reply more rest below
    rw [List.countP_cons]
    split_ifs <;> omega

/-- The questions of a sequence add up. -/
theorem AsksAtMost.bind {next : α → Interaction Q R β} {more : Nat}
    (here : AsksAtMost kind count program) (later : ∀ value, AsksAtMost kind more (next value))
    : AsksAtMost kind (count + more) (program >>= next) := by
  intro exchanges rest reached
  rcases reaches_bind reached with ⟨middle, reached, _⟩ | ⟨first, value, second, rfl, run, reached⟩
  · have := here exchanges middle reached
    omega
  · have := here first _ run.reaches
    have := later value second rest reached
    rw [List.countP_append]
    omega

theorem AsksOnly.atMost (asks : AsksOnly (kind · = false) program) : AsksAtMost kind 0 program := by
  induction program with
  | done value => exact asksAtMost_done value
  | ask question resume ih => exact .ask asks.1 fun reply => ih reply (asks.2 reply)
  | stuck | spent =>
      intro exchanges rest reached
      cases reached
      simp

end AsksAtMost

/-- Rounds of a step that all go on. -/
inductive Repeats (step : σ → Interaction Q R (σ ⊕ α)) : σ → List (Q × R) → σ → Prop
  | refl (state : σ) : Repeats step state [] state
  | tail {state state' state'' : σ} {exchanges more : List (Q × R)}
      (first : Repeats step state exchanges state')
      (last : (step state').Runs more (.inl state''))
      : Repeats step state (exchanges ++ more) state''

namespace Repeats

variable {step : σ → Interaction Q R (σ ⊕ α)} {state state' state'' : σ}
  {exchanges more : List (Q × R)}

theorem trans (first : Repeats step state exchanges state')
    (second : Repeats step state' more state'')
    : Repeats step state (exchanges ++ more) state'' := by
  induction second with
  | refl => simpa using first
  | tail _ last ih =>
      rw [← List.append_assoc]
      exact ih.tail last

/-- Rounds of one kind of questions. -/
theorem asks {kind : Q → Prop} (round : ∀ state, AsksOnly kind (step state))
    (rounds : Repeats step state exchanges state')
    : ∀ exchange ∈ exchanges, kind exchange.1 := by
  induction rounds with
  | refl => simp
  | tail _ last ih =>
      intro exchange member
      rcases List.mem_append.mp member with old | new
      · exact ih exchange old
      · exact (round _).runs last exchange new

end Repeats

-----------------------------------------------------------------------------------------
-- Servers
-----------------------------------------------------------------------------------------

/-- How a server with states `ω` can reply. -/
abbrev Server (Q R ω : Type u) := Q → ω → R → ω → Prop

/-- The program never gets stuck, every question is answered, and it ends with `post`, whatever
the server replies.
-/
def Ensures (server : Server Q R ω) (program : Interaction Q R α) (state : ω)
    (post : α → ω → Prop)
    : Prop :=
  match program with
  | .done value => post value state
  | .ask question resume =>
      (∃ reply state', server question state reply state')
      ∧ ∀ reply state',
          server question state reply state'
          → Ensures server (resume reply) state' post
  | .stuck => False
  | .spent => False

section Ensures

variable {server : Server Q R ω} {program : Interaction Q R α} {state : ω} {post : α → ω → Prop}

@[simp] theorem ensures_done {value : α}
    : Ensures server (.done value) state post ↔ post value state :=
  Iff.rfl

/-- The rule of consequence. -/
theorem Ensures.mono {post' : α → ω → Prop} (ensures : Ensures server program state post)
    (implies : ∀ value state, post value state → post' value state)
    : Ensures server program state post' := by
  induction program generalizing state with
  | done value => exact implies value state ensures
  | ask question resume ih =>
      exact ⟨ensures.1, fun reply state' served => ih reply (ensures.2 reply state' served)⟩
  | stuck => exact ensures
  | spent => exact ensures

/-- The rule of sequence. -/
theorem Ensures.bind {next : α → Interaction Q R β} {post' : β → ω → Prop}
    (ensures : Ensures server program state post)
    (later : ∀ value state, post value state → Ensures server (next value) state post')
    : Ensures server (program >>= next) state post' := by
  induction program generalizing state with
  | done value => exact later value state ensures
  | ask question resume ih =>
      exact ⟨ensures.1, fun reply state' served => ih reply (ensures.2 reply state' served)⟩
  | stuck => exact ensures.elim
  | spent => exact ensures.elim

/-- A question with a determined reply. -/
theorem Ensures.request {question : Q} {next : R → Interaction Q R α} {reply : R} {state' : ω}
    (served : server question state reply state')
    (only : ∀ reply' state'', server question state reply' state'' → reply' = reply ∧ state'' = state')
    (later : Ensures server (next reply) state' post)
    : Ensures server (Interaction.request question >>= next) state post := by
  refine ⟨⟨reply, state', served⟩, fun reply' state'' other => ?_⟩
  obtain ⟨rfl, rfl⟩ := only reply' state'' other
  exact later

/-- The rule of loops: a round that goes on keeps the invariant and lowers the variant, and
there are more rounds than the variant at the start.
-/
theorem Ensures.iterate {step : σ → Interaction Q R (σ ⊕ α)} {invariant : σ → ω → Prop}
    {variant : σ → ω → Nat} {rounds : Nat} {start : σ}
    (round : ∀ here state,
      invariant here state
      → Ensures server (step here) state fun outcome state' =>
          match outcome with
          | .inl here' => invariant here' state' ∧ variant here' state' < variant here state
          | .inr value => post value state')
    (holds : invariant start state) (enough : variant start state < rounds)
    : Ensures server (Interaction.iterate step rounds start) state post := by
  induction rounds generalizing start state with
  | zero => exact absurd enough (Nat.not_lt_zero _)
  | succ rounds ih =>
      refine (round start state holds).bind fun outcome state' outcomeHolds => ?_
      cases outcome with
      | inl here' => exact ih outcomeHolds.1 (by have := outcomeHolds.2; omega)
      | inr value => exact outcomeHolds

end Ensures

end Interaction

end Foundation
