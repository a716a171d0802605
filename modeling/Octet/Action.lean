import Octet.Error

/-!
# Actions

Computations on a state that may be refused. A refused action keeps what it did to the state up
to that point: nothing is rolled back.

## Main definitions

* `Action`: a computation on a state that ends with a result or an `Error`.
* `Action.on`: an action on a part of a larger state.
* `Action.onSnd`, `Action.replace`: actions on a record together with the channel it comes from.
* `Action.attempt`: an action whose error is handed over as a result.
-/

namespace Octet

/-- A computation on a state `σ` that gives an `α` or is refused. -/
abbrev Action (σ α : Type) := EStateM Error σ α

namespace Action

variable {ρ σ τ α : Type}

/-- Runs an action on the part of a state that `part` looks up and `store` puts back. -/
def on (part : σ → τ) (store : τ → σ → σ) (act : Action τ α) : Action σ α := fun s =>
  match act (part s) with
  | .ok x t => .ok x (store t s)
  | .error e t => .error e (store t s)

/-- Runs an action on the second part of a pair. -/
def onSnd : Action τ α → Action (ρ × τ) α := on Prod.snd fun t s => (s.1, t)

/-- Replaces a record by what an action makes of it. If the action is refused, the record stays
as it was. -/
def replace (act : ρ → Action τ ρ) : Action (ρ × τ) Unit := fun s =>
  match act s.1 s.2 with
  | .ok record t => .ok () (record, t)
  | .error e t => .error e (s.1, t)

/-- Runs an action to its end and gives its outcome, whether result or error. -/
def attempt (act : Action σ α) : Action σ (Except Error α) := fun s =>
  match act s with
  | .ok x t => .ok (.ok x) t
  | .error e t => .ok (.error e) t

/-- Ends with an outcome that is already known. -/
def conclude : Except Error α → Action σ α
  | .ok x => pure x
  | .error e => throw e

end Action

end Octet
