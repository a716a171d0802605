/-!
# Chains of calls

Calls are made one after another on a state that may fail. From then on nothing that is called has
any effect.

## Main definitions

* `Chain`: the calls and the states, `Chain.after` the state that a row of calls leaves.
* `Chain.heard`: the calls of a row that came while nothing had failed.

## Main statements

* `Chain.after_of_failed`: a failed state is left as it is.
* `Chain.record_after`: a record to which every call adds its own is that of the calls heard.
-/

namespace Octet

/-- What calls of type `κ` make of states, some of which have failed for good. -/
structure Chain (κ σ : Type) where
  next : κ → σ → σ
  failed : σ → Bool
  next_of_failed : ∀ {call s}, failed s = true → next call s = s

namespace Chain

variable {κ ε σ : Type} (chain : Chain κ σ) {s : σ}

/-- The state after one call after another. -/
def after (calls : List κ) (s : σ) : σ := calls.foldl (fun s call => chain.next call s) s

/-- The calls of a row up to the one that fails, and that one. -/
def heard : List κ → σ → List κ
  | [], _ => []
  | call :: rest, s => if chain.failed s then [] else call :: heard rest (chain.next call s)

@[simp] theorem after_of_failed (h : chain.failed s = true) (calls : List κ) :
    chain.after calls s = s := by
  induction calls with
  | nil => rfl
  | cons call rest ih => rwa [after, List.foldl_cons, chain.next_of_failed h]

theorem record_after (record : σ → List ε) (entries : κ → List ε)
    (hnext : ∀ call s, chain.failed s = false →
      record (chain.next call s) = record s ++ entries call)
    (calls : List κ) (s : σ) :
    record (chain.after calls s) = record s ++ (chain.heard calls s).flatMap entries := by
  induction calls generalizing s with
  | nil => exact (List.append_nil _).symm
  | cons call rest ih =>
    cases h : chain.failed s with
    | true => rw [chain.after_of_failed h, heard, if_pos h, List.flatMap_nil, List.append_nil]
    | false =>
      -- The call is heard, whether it fails or not.
      have hrest := ih (chain.next call s)
      rw [hnext call s h, List.append_assoc] at hrest
      rw [heard, h]
      exact hrest

end Chain

end Octet
