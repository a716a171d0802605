import Octet.Proofs.Action
import Octet.Proofs.Client
import Octet.Sink.Basic

/-!
# Calls on sinks

The operations of a sink as data, so that clients can choose among them and their outcomes can be
recorded.

## Main definitions

* `Sink.Call`: the calls, `Sink.step` what one of them brings.
* `Sink.Leads`: a record of calls leads from one state to another.
* `Sink.Traced`: a sink that keeps a record of its calls.

## Main statements

* `Sink.leads_run`: the record of a client leads to the state that it stops in.
* `Sink.Leads.trace_eq`: it is what such a sink has on record.
-/

namespace Octet

namespace Sink

/-- A call that may change a sink. -/
inductive Call
  | write (data : Bytes)
  | overwrite (offset : Nat) (data : Bytes)
  | flush
  deriving DecidableEq, Repr

/-- A call and its outcome. -/
abbrev Event := Call × Except Error Nat

variable {σ α : Type} [Sink σ]

/-- Makes a call. A flush counts no bytes. -/
def perform : Call → Action σ Nat
  | .write data => Sink.write data
  | .overwrite offset data => Sink.overwrite offset data
  | .flush => do
    Sink.flush
    return 0

/-- Makes a call and records it. -/
def step (call : Call) (s : σ) : Answer (Except Error Nat) Event σ :=
  match perform call s with
  | .ok count t => ⟨.ok count, [(call, .ok count)], t⟩
  | .error e t => ⟨.error e, [(call, .error e)], t⟩

@[simp] theorem events_step (call : Call) (s : σ) :
    (step call s).events = [(call, (step call s).outcome)] := by
  unfold step
  cases perform call s <;> rfl

/-- What holds however a call ends holds of what it brings. -/
theorem step_of_ends {call : Call} {s : σ} (post : Except Error Nat → σ → Prop)
    (h : (perform call).Ends s (fun count t => post (.ok count) t)
      fun e t => post (.error e) t) :
    post (step call s).outcome (step call s).state := by
  unfold step
  cases hact : perform call s with
  | ok count t => exact h.of_ok hact
  | error e t => exact h.of_error hact

/-- The calls of a record, made one after another from `s`, have the outcomes recorded there and
lead to `t`. -/
inductive Leads : σ → List Event → σ → Prop
  | nil (s : σ) : Leads s [] s
  | cons (call : Call) {s t : σ} {rest : List Event} (h : Leads (step call s).state rest t) :
    Leads s ((call, (step call s).outcome) :: rest) t

theorem leads_step (call : Call) (s : σ) : Leads s (step call s).events (step call s).state := by
  rw [events_step]
  exact .cons call (.nil _)

theorem Leads.trans {s t u : σ} {first second : List Event} (h : Leads s first t)
    (h' : Leads t second u) : Leads s (first ++ second) u := by
  induction h with
  | nil s => exact h'
  | cons call _ ih => exact .cons call (ih h')

theorem leads_run (client : Client Call (Except Error Nat) σ α) (s : σ) :
    Leads s (client.run step s).events (client.run step s).state :=
  client.run_invariant step (Leads s) (fun call _ t h => h.trans (leads_step call t)) [] (.nil s)

/-! ## Sinks that keep a record -/

/-- A sink, and the calls that have reached it with their outcomes. -/
structure Traced (σ : Type) where
  inner : σ
  trace : List Event := []

/-- Makes a call on the sink inside and puts it on record. -/
def Traced.record (call : Call) : Action (Traced σ) Nat := fun s =>
  match perform call s.inner with
  | .ok count inner => .ok count ⟨inner, s.trace ++ [(call, .ok count)]⟩
  | .error e inner => .error e ⟨inner, s.trace ++ [(call, .error e)]⟩

instance : Sink (Traced σ) where
  write data := Traced.record (.write data)
  overwrite offset data := Traced.record (.overwrite offset data)
  position s := Sink.position s.inner
  flush s :=
    match Traced.record .flush s with
    | .ok _ t => .ok () t
    | .error e t => .error e t

theorem perform_flush (s : σ) :
    perform .flush s =
      match (Sink.flush : Action σ Unit) s with
      | .ok _ t => .ok 0 t
      | .error e t => .error e t := by
  change EStateM.bind Sink.flush (fun _ => EStateM.pure 0) s = _
  unfold EStateM.bind
  cases (Sink.flush : Action σ Unit) s <;> rfl

theorem perform_traced (call : Call) (s : Traced σ) : perform call s = Traced.record call s := by
  cases call with
  | write data | overwrite offset data => rfl
  | flush =>
    -- A flush on record counts no bytes, as any other.
    have hflush : (Sink.flush : Action (Traced σ) Unit) s =
        match Traced.record .flush s with
        | .ok _ t => .ok () t
        | .error e t => .error e t := rfl
    rw [perform_flush, hflush, Traced.record, perform_flush]
    cases (Sink.flush : Action σ Unit) s.inner <;> rfl

/-- A call adds to the record what it is recorded with. -/
@[simp] theorem trace_step (call : Call) (s : Traced σ) :
    (step call s).state.trace = s.trace ++ (step call s).events := by
  rw [step, perform_traced, Traced.record]
  cases perform call s.inner <;> rfl

theorem Leads.trace_eq {s t : Traced σ} {events : List Event} (h : Leads s events t) :
    t.trace = s.trace ++ events := by
  induction h with
  | nil s => exact (List.append_nil _).symm
  | cons call _ ih => rw [ih, trace_step, events_step, List.append_assoc, List.singleton_append]

end Sink

end Octet
