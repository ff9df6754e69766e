import MiniLinux.Foundation.Halting

/-! Sequences of requests to a program that replies or halts.
A ledger is what an observer of requests and replies can compute; the session rule carries
an invariant between ledger and state over any sequence of requests.
-/

namespace Foundation

universe u

variable {ε σ ρ τ : Type u} {κ : Type*}

/-- Serves the requests in order and collects the replies. -/
def serve (handle : ρ → Halting ε σ τ) : List ρ → Halting ε σ (List τ)
  | [] => pure []
  | request :: rest => do
      let reply ← handle request
      let replies ← serve handle rest
      pure (reply :: replies)

/-- The ledger after a session, from each request with its reply. -/
def settle (advance : κ → ρ → τ → κ) (ledger : κ) : List ρ → List τ → κ
  | request :: requests, reply :: replies =>
      settle advance (advance ledger request reply) requests replies
  | _, _ => ledger

theorem serve_cons {handle : ρ → Halting ε σ τ} {request : ρ} {rest : List ρ} {state state' : σ}
    {reply : τ} (handled : handle request state = .ok (reply, state'))
    : serve handle (request :: rest) state
      = (do
          let replies ← serve handle rest
          pure (reply :: replies) : Halting ε σ (List τ)) state' :=
  Halting.bind_ok handled _

/-- If every request keeps the invariant and is answered, so is every session.
Witness: induction on the requests.
-/
theorem serve_invariant {handle : ρ → Halting ε σ τ} {advance : κ → ρ → τ → κ}
    {invariant : κ → σ → Prop}
    (step
      : ∀ ledger state request,
          invariant ledger state
          → ∃ reply state',
              handle request state = .ok (reply, state')
              ∧ invariant (advance ledger request reply) state')
    (requests : List ρ) {ledger : κ} {state : σ} (holds : invariant ledger state)
    : ∃ replies state',
        serve handle requests state = .ok (replies, state')
        ∧ invariant (settle advance ledger requests replies) state' := by
  induction requests generalizing ledger state with
  | nil => exact ⟨[], state, rfl, holds⟩
  | cons request rest ih =>
      obtain ⟨reply, middle, handled, kept⟩ := step ledger state request holds
      obtain ⟨replies, state', served, last⟩ := ih kept
      refine ⟨reply :: replies, state', ?_, last⟩
      rw [serve_cons handled, Halting.bind_ok served]
      rfl

/-- Every request is one that its client may make when it is made. -/
def Permitted (handle : ρ → Halting ε σ τ) (advance : κ → ρ → τ → κ) (permits : κ → σ → ρ → Prop)
    : κ → σ → List ρ → Prop
  | _, _, [] => True
  | ledger, state, request :: rest =>
      permits ledger state request
      ∧ ∀ reply state',
          handle request state = .ok (reply, state')
          → Permitted handle advance permits (advance ledger request reply) state' rest

/-- Every reply is right when it is given. -/
def Answers (handle : ρ → Halting ε σ τ) (advance : κ → ρ → τ → κ)
    (right : κ → σ → ρ → τ → Prop)
    : κ → σ → List ρ → List τ → Prop
  | _, _, [], [] => True
  | ledger, state, request :: requests, reply :: replies =>
      right ledger state request reply
      ∧ ∃ state',
          handle request state = .ok (reply, state')
          ∧ Answers handle advance right (advance ledger request reply) state' requests replies
  | _, _, _, _ => False

/-- If every permitted request keeps the invariant and is answered rightly, so is every
permitted session. Witness: induction on the requests.
-/
theorem serve_answers {handle : ρ → Halting ε σ τ} {advance : κ → ρ → τ → κ}
    {permits : κ → σ → ρ → Prop} {right : κ → σ → ρ → τ → Prop} {invariant : κ → σ → Prop}
    (step
      : ∀ ledger state request,
          invariant ledger state
          → permits ledger state request
          → ∃ reply state',
              handle request state = .ok (reply, state')
              ∧ right ledger state request reply
              ∧ invariant (advance ledger request reply) state')
    (requests : List ρ) {ledger : κ} {state : σ} (holds : invariant ledger state)
    (permitted : Permitted handle advance permits ledger state requests)
    : ∃ replies state',
        serve handle requests state = .ok (replies, state')
        ∧ Answers handle advance right ledger state requests replies
        ∧ invariant (settle advance ledger requests replies) state' := by
  induction requests generalizing ledger state with
  | nil => exact ⟨[], state, rfl, trivial, holds⟩
  | cons request rest ih =>
      obtain ⟨allowed, later⟩ := permitted
      obtain ⟨reply, middle, handled, good, kept⟩ := step ledger state request holds allowed
      obtain ⟨replies, state', served, answers, last⟩ := ih kept (later reply middle handled)
      refine ⟨reply :: replies, state', ?_, ⟨good, middle, handled, answers⟩, last⟩
      rw [serve_cons handled, Halting.bind_ok served]
      rfl

end Foundation
