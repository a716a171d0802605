import Octet.Action

/-!
# How actions end

A predicate on the state after an action and its result, with one more for the states in which the
action may be refused. For each way to build an action a law says how it ends in terms of how its
parts end, so that a claim about a block reduces to claims about its steps.

## Main definitions

* `Action.Ends`: the two predicates hold of the result and of the refusal.

## Main statements

* `Action.ends_bind`: a sequence ends as its second part does where the first part leaves off.
* `Action.Ends.mono`: the predicates may be weakened.
-/

namespace Octet

namespace Action

variable {ρ σ τ α β : Type}

/-- From `s` the action gives a result and a state with `post`, or is refused in a state with
`fail`. -/
def Ends (act : Action σ α) (s : σ) (post : α → σ → Prop) (fail : Error → σ → Prop) : Prop :=
  match act s with
  | .ok x t => post x t
  | .error e t => fail e t

/-- How an action ends, and the state that it leaves. -/
def outcome (act : Action σ α) (s : σ) : Except Error α × σ :=
  match act s with
  | .ok x t => (.ok x, t)
  | .error e t => (.error e, t)

variable {act : Action σ α} {s : σ} {post : α → σ → Prop} {fail : Error → σ → Prop}

theorem Ends.mono {post' : α → σ → Prop} {fail' : Error → σ → Prop}
    (h : act.Ends s post fail) (hpost : ∀ x t, post x t → post' x t)
    (hfail : ∀ e t, fail e t → fail' e t) : act.Ends s post' fail' := by
  unfold Ends at *
  cases hact : act s with
  | ok x t =>
    simp only [hact] at h
    exact hpost x t h
  | error e t =>
    simp only [hact] at h
    exact hfail e t h

theorem Ends.imp {post' : α → σ → Prop} (h : act.Ends s post fail)
    (hpost : ∀ x t, post x t → post' x t) : act.Ends s post' fail :=
  h.mono hpost fun _ _ h => h

theorem Ends.of_ok {x : α} {t : σ} (h : act.Ends s post fail) (hact : act s = .ok x t) :
    post x t := by
  simpa only [Ends, hact] using h

theorem Ends.of_error {e : Error} {t : σ} (h : act.Ends s post fail) (hact : act s = .error e t) :
    fail e t := by
  simpa only [Ends, hact] using h

/-- An action that cannot be refused has a result. -/
theorem Ends.exists_ok (h : act.Ends s post fail) (hfail : ∀ e t, ¬ fail e t) :
    ∃ x t, act s = .ok x t ∧ post x t := by
  cases hact : act s with
  | ok x t => exact ⟨x, t, rfl, h.of_ok hact⟩
  | error e t => exact absurd (h.of_error hact) (hfail e t)

/-- An action without a result that can be refused for one reason only, and then leaves all as it
was, is. -/
theorem Ends.eq_error {e : Error}
    (h : act.Ends s (fun _ _ => False) (fun found t => found = e ∧ t = s)) :
    act s = .error e s := by
  cases hact : act s with
  | ok x t => exact (h.of_ok hact).elim
  | error found t =>
    obtain ⟨rfl, rfl⟩ := h.of_error hact
    rfl

theorem ends_of_ok {x : α} {t : σ} (hact : act s = .ok x t) (h : post x t) :
    act.Ends s post fail := by
  simpa only [Ends, hact] using h

theorem ends_of_error {e : Error} {t : σ} (hact : act s = .error e t) (h : fail e t) :
    act.Ends s post fail := by
  simpa only [Ends, hact] using h

theorem outcome_of_error {e : Error} {t : σ} (hact : act s = .error e t) :
    act.outcome s = (.error e, t) := by
  rw [outcome, hact]

theorem replace_of_error {act : ρ → Action τ ρ} {record : ρ} {t next : τ} {e : Error}
    (hact : act record t = .error e next) : replace act (record, t) = .error e (record, next) := by
  simp only [replace, hact]

/-! ## Sequences and single steps -/

@[simp] theorem ends_bind {f : α → Action σ β} {post : β → σ → Prop} :
    (act >>= f).Ends s post fail ↔ act.Ends s (fun x t => (f x).Ends t post fail) fail := by
  simp only [Ends, bind, EStateM.bind]
  cases act s <;> rfl

/-- A sequence ends as its second part does, from wherever the first part may leave off. -/
theorem Ends.bind {f : α → Action σ β} {mid : α → σ → Prop} {fail' : Error → σ → Prop}
    {post : β → σ → Prop} (h : act.Ends s mid fail')
    (hpost : ∀ x t, mid x t → (f x).Ends t post fail) (hfail : ∀ e t, fail' e t → fail e t) :
    (act >>= f).Ends s post fail :=
  ends_bind.mpr (h.mono hpost hfail)

@[simp] theorem ends_map {f : α → β} {post : β → σ → Prop} :
    (f <$> act).Ends s post fail ↔ act.Ends s (fun x t => post (f x) t) fail := by
  simp only [Ends, Functor.map, EStateM.map]
  cases act s <;> rfl

@[simp] theorem ends_pure {x : α} : (pure x : Action σ α).Ends s post fail ↔ post x s := Iff.rfl

@[simp] theorem ends_get {post : σ → σ → Prop} :
    (get : Action σ σ).Ends s post fail ↔ post s s := Iff.rfl

@[simp] theorem ends_modify {f : σ → σ} {post : PUnit → σ → Prop} :
    (modify f : Action σ PUnit).Ends s post fail ↔ post ⟨⟩ (f s) := Iff.rfl

@[simp] theorem ends_modifyGet {f : σ → α × σ} :
    (modifyGet f : Action σ α).Ends s post fail ↔ post (f s).1 (f s).2 := Iff.rfl

@[simp] theorem ends_conclude {outcome : Except Error α} :
    (conclude outcome : Action σ α).Ends s post fail ↔
      match outcome with
      | .ok x => post x s
      | .error e => fail e s := by
  cases outcome <;> rfl

/-! ## Actions on parts of a state -/

@[simp] theorem ends_on {part : σ → τ} {store : τ → σ → σ} {act : Action τ α} :
    (on part store act).Ends s post fail ↔
      act.Ends (part s) (fun x t => post x (store t s)) (fun e t => fail e (store t s)) := by
  simp only [Ends, on]
  cases act (part s) <;> rfl

@[simp] theorem ends_onSnd {act : Action τ α} {s : ρ × τ} {post : α → ρ × τ → Prop}
    {fail : Error → ρ × τ → Prop} :
    act.onSnd.Ends s post fail ↔
      act.Ends s.2 (fun x t => post x (s.1, t)) (fun e t => fail e (s.1, t)) :=
  ends_on

/-- Whatever an action has done to the channel, a record that is not replaced stays. -/
@[simp] theorem ends_replace {act : ρ → Action τ ρ} {s : ρ × τ} {post : Unit → ρ × τ → Prop}
    {fail : Error → ρ × τ → Prop} :
    (replace act).Ends s post fail ↔
      (act s.1).Ends s.2 (fun record t => post () (record, t)) (fun e t => fail e (s.1, t)) := by
  simp only [Ends, replace]
  cases act s.1 s.2 <;> rfl

@[simp] theorem ends_attempt {post : Except Error α → σ → Prop} :
    act.attempt.Ends s post fail ↔
      act.Ends s (fun x t => post (.ok x) t) (fun e t => post (.error e) t) := by
  simp only [Ends, attempt]
  cases act s <;> rfl

end Action

end Octet
