import Octet.Proofs.Bytes
import Octet.Proofs.Frame

/-!
# Actions that may break

A number has 64 bits, a slice lies inside its bytes, a difference is not below zero. An operation
that is asked for anything else breaks, which is no error that anyone could handle. An action
written with such operations is *safe* where it does what an action without them does.

## Main definitions

* `Halt`, `Checked`: actions that may be refused or break.
* `Checked.ofAction`: an action that has nothing to break.
* `Checked.slice`, `Checked.copy`, `Checked.sum`, `Checked.difference`, `Checked.store`: the
  operations.
* `Client.runChecked`: a client served by calls that may break.

## Main statements

* `Client.runChecked_eq`: where no call breaks, no client does.
-/

namespace Octet

/-- Why a checked action ends without a result. -/
inductive Halt
  | refused (e : Error)
  /-- An operation was asked for something that there is not. -/
  | broken
  deriving DecidableEq, Repr

/-- An action that may be refused or break. -/
abbrev Checked (σ α : Type) := EStateM Halt σ α

namespace Checked

variable {σ τ α β : Type}

/-- An action that cannot break. -/
def ofAction (act : Action σ α) : Checked σ α := fun s =>
  match act s with
  | .ok x t => .ok x t
  | .error e t => .error (.refused e) t

/-- Runs a checked action on a part of a state. -/
def on (part : σ → τ) (put : τ → σ → σ) (act : Checked τ α) : Checked σ α := fun s =>
  match act (part s) with
  | .ok x t => .ok x (put t s)
  | .error e t => .error e (put t s)

/-- Breaks unless a condition holds. -/
def demand (condition : Prop) [Decidable condition] : Checked σ Unit :=
  if condition then pure () else throw .broken

/-! ## Operations -/

/-- The bytes from one offset to another. -/
def slice (data : Bytes) (start stop : Nat) : Checked σ Bytes := do
  demand (start ≤ stop ∧ stop ≤ data.length)
  return (data.drop start).take (stop - start)

/-- Bytes with those from one offset to another replaced by as many others. -/
def copy (data : Bytes) (start stop : Nat) (source : Bytes) : Checked σ Bytes := do
  demand (start ≤ stop ∧ stop ≤ data.length)
  demand (source.length = stop - start)
  return data.overlay start source

def sum (m n : Nat) : Checked σ Nat := do
  demand (m + n < UInt64.size)
  return m + n

def product (m n : Nat) : Checked σ Nat := do
  demand (m * n < UInt64.size)
  return m * n

def difference (m n : Nat) : Checked σ Nat := do
  demand (n ≤ m)
  return m - n

/-- An array with one place filled anew. -/
def store {n : Nat} (values : Vector α n) (index : Nat) (value : α) : Checked σ (Vector α n) :=
  if h : index < n then return values.set index value else throw .broken

/-! ## Laws -/

@[simp] theorem ofAction_bind (act : Action σ α) (next : α → Action σ β) :
    ofAction (act >>= next) = ofAction act >>= fun x => ofAction (next x) := by
  funext s
  simp only [ofAction, bind, EStateM.bind]
  cases act s <;> rfl

@[simp] theorem ofAction_on (part : σ → τ) (put : τ → σ → σ) (act : Action τ α) :
    ofAction (Action.on part put act) = on part put (ofAction act) := by
  funext s
  simp only [ofAction, on, Action.on]
  cases act (part s) <;> rfl

@[simp] theorem demand_eq {condition : Prop} [Decidable condition] (h : condition) :
    (demand condition : Checked σ Unit) = pure () :=
  if_pos h

@[simp] theorem slice_eq {data : Bytes} {start stop : Nat} (hstart : start ≤ stop)
    (hstop : stop ≤ data.length) :
    (slice data start stop : Checked σ Bytes) = pure ((data.drop start).take (stop - start)) := by
  rw [slice, demand_eq ⟨hstart, hstop⟩, pure_bind]

@[simp] theorem copy_eq {data source : Bytes} {start stop : Nat} (hstart : start ≤ stop)
    (hstop : stop ≤ data.length) (hsource : source.length = stop - start) :
    (copy data start stop source : Checked σ Bytes) = pure (data.overlay start source) := by
  rw [copy, demand_eq ⟨hstart, hstop⟩, pure_bind, demand_eq hsource, pure_bind]

@[simp] theorem sum_eq {m n : Nat} (h : m + n < UInt64.size) :
    (sum m n : Checked σ Nat) = pure (m + n) := by
  rw [sum, demand_eq h, pure_bind]

@[simp] theorem product_eq {m n : Nat} (h : m * n < UInt64.size) :
    (product m n : Checked σ Nat) = pure (m * n) := by
  rw [product, demand_eq h, pure_bind]

@[simp] theorem difference_eq {m n : Nat} (h : n ≤ m) :
    (difference m n : Checked σ Nat) = pure (m - n) := by
  rw [difference, demand_eq h, pure_bind]

@[simp] theorem store_eq {n index : Nat} (h : index < n) (values : Vector α n) (value : α) :
    (store values index value : Checked σ (Vector α n)) =
      pure (values.setIfInBounds index value) := by
  have hset : values.set index value = values.setIfInBounds index value := by
    ext i hi
    grind
  rw [store, dif_pos h, hset]

end Checked

/-! ## Clients -/

namespace Client

variable {κ ρ ε σ τ α : Type}

/-- Serves a client with calls that may break. -/
def runChecked (perform : κ → Checked τ ρ) : Client κ ρ τ α → Checked τ α
  | done result => pure result
  | call c next => do
    let outcome ← perform c
    (next outcome (← get)).runChecked perform

/-- Where no call breaks, no client does. What is seen of a state is enough to serve it. -/
theorem runChecked_eq {perform : κ → Checked τ ρ} {step : κ → σ → Answer ρ ε σ} {view : σ → τ}
    (fits : σ → Prop) (hfits : ∀ call s, fits s → fits (step call s).state)
    (hperform : ∀ call s, fits s →
      perform call (view s) = .ok (step call s).outcome (view (step call s).state))
    (client : Client κ ρ τ α) {s : σ} (h : fits s) :
    client.runChecked perform (view s) =
      .ok ((client.through view).run step s).outcome
        (view ((client.through view).run step s).state) := by
  induction client generalizing s with
  | done result => rfl
  | call c next ih =>
    simp only [runChecked, bind, EStateM.bind, hperform c s h, through, run]
    exact ih _ _ (hfits c s h)

end Client

end Octet
