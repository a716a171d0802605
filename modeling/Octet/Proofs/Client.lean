/-!
# Clients

Something with calls is given by its step: what a call brings in a state. A client makes one call
after another. It sees the outcome of every call and the state that it leaves, and chooses the next
one accordingly.

## Main definitions

* `Answer`: what a call, or a client, brings.
* `Client`: the clients, `Client.run` one of them served until it is done.
* `Client.blind`: a client that goes by the outcomes alone.

## Main statements

* `Client.run_invariant`: what every call preserves holds whenever a client stops.
* `Client.seen_run_blind`: a simulation, call by call, is one of every client that goes by the
  outcomes alone.
-/

namespace Octet

/-- The outcome of a call, the events that it adds to a record, and the state afterwards. -/
structure Answer (ρ ε σ : Type) where
  outcome : ρ
  events : List ε
  state : σ

namespace Answer

variable {ρ ε σ τ : Type}

/-- All that can be seen of an answer without the state. -/
def seen (answer : Answer ρ ε σ) : ρ × List ε := (answer.outcome, answer.events)

/-- An answer with only what a function keeps of the state. -/
def mapState (f : σ → τ) (answer : Answer ρ ε σ) : Answer ρ ε τ :=
  ⟨answer.outcome, answer.events, f answer.state⟩

theorem mapState_eq {answer : Answer ρ ε σ} {f : σ → τ} {expected : Answer ρ ε τ}
    (hseen : answer.seen = expected.seen) (hstate : f answer.state = expected.state) :
    answer.mapState f = expected := by
  obtain ⟨houtcome, hevents⟩ := Prod.mk.inj hseen
  rw [mapState, houtcome, hevents, hstate]

end Answer

/-- A client that makes calls of type `κ` and ends with an `α`. -/
inductive Client (κ ρ σ α : Type)
  | done (result : α)
  | call (call : κ) (next : ρ → σ → Client κ ρ σ α)

namespace Client

variable {κ ρ ε σ α : Type}

/-- Serves a client. The events of its calls are recorded in order. -/
def run (step : κ → σ → Answer ρ ε σ) : Client κ ρ σ α → σ → Answer α ε σ
  | done result, s => ⟨result, [], s⟩
  | call c next, s =>
    let answer := step c s
    let rest := (next answer.outcome answer.state).run step answer.state
    ⟨rest.outcome, answer.events ++ rest.events, rest.state⟩

/-- The invariant may speak of the events on record so far. -/
theorem run_invariant (client : Client κ ρ σ α) (step : κ → σ → Answer ρ ε σ)
    (invariant : List ε → σ → Prop)
    (preserved : ∀ call seen s, invariant seen s →
      invariant (seen ++ (step call s).events) (step call s).state)
    (seen : List ε) {s : σ} (h : invariant seen s) :
    invariant (seen ++ (client.run step s).events) (client.run step s).state := by
  induction client generalizing seen s with
  | done result => simpa [run] using h
  | call c next ih =>
    have hstep := preserved c seen s h
    simpa [run] using ih (step c s).outcome (step c s).state _ hstep

/-! ## Clients that go by the outcomes alone -/

/-- A client that sees no states may be served by anything that has its calls. -/
def blind : Client κ ρ Unit α → Client κ ρ σ α
  | done result => done result
  | call c next => call c fun outcome _ => (next outcome ()).blind

variable {τ : Type} {step : κ → σ → Answer ρ ε σ} {step' : κ → τ → Answer ρ ε τ}

/-- States that do not fit any more never will again. -/
theorem fits_of_run {fits : σ → Prop} (hfits : ∀ call s, fits (step call s).state → fits s)
    (client : Client κ ρ σ α) {s : σ} (h : fits (client.run step s).state) : fits s := by
  induction client generalizing s with
  | done result => exact h
  | call c next ih => exact hfits c s (ih _ _ h)

/-- States are alike that every call answers the same way and takes to alike states, as long as what
it leads to fits. No client then tells them apart before something does not fit. -/
theorem seen_run_blind (alike : σ → τ → Prop) (fits : σ → Prop)
    (hfits : ∀ call s, fits (step call s).state → fits s)
    (hstep : ∀ call s t, alike s t → fits (step call s).state →
      (step' call t).seen = (step call s).seen ∧ alike (step call s).state (step' call t).state)
    (client : Client κ ρ Unit α) {s : σ} {t : τ} (h : alike s t)
    (hlast : fits (client.blind.run step s).state) :
    (client.blind.run step' t).seen = (client.blind.run step s).seen ∧
      alike (client.blind.run step s).state (client.blind.run step' t).state := by
  induction client generalizing s t with
  | done result => exact ⟨rfl, h⟩
  | call c next ih =>
    -- What fits in the end has fitted after the first call, which both answer the same way: the
    -- client goes on as one and the same.
    obtain ⟨hseen, hnext⟩ := hstep c s t h (fits_of_run hfits _ hlast)
    obtain ⟨houtcome, hevents⟩ := Prod.mk.inj hseen
    obtain ⟨hrest, hend⟩ := ih (step c s).outcome () hnext hlast
    obtain ⟨hresult, hrecord⟩ := Prod.mk.inj hrest
    simp only [blind, run, Answer.seen, houtcome, hevents]
    exact ⟨by rw [hresult, hrecord], hend⟩

end Client

end Octet
