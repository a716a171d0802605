import Octet.Proofs.Source.Call
import Octet.Proofs.Writer.Call

/-!
# Unnoticed changes

A change of a state goes unnoticed by a call that has the same outcome with it and without it, and
that keeps it. A client that makes only such calls, and sees of the states only what the change
leaves as it is, does not notice it either.

## Main definitions

* `Action.Ignores`: an action does not notice a change of its state.
* `Client.through`: a client that sees of a state what a function shows of it.
* `Client.inOrder`: the client that makes calls in a given order.

## Main statements

* `Client.run_through`: no such client notices what its calls do not.
* `Client.run_filter`: of two kinds of calls that do not notice each other, either kind may be left
  out.
* `Writer.step_mapSink`: a writer notices nothing that its sink does not.
-/

namespace Octet

/-! ## Actions -/

namespace Action

variable {σ α β : Type} {f : σ → σ}

/-- The action does the same after a change of the state as before it, and keeps the change. -/
def Ignores (f : σ → σ) (act : Action σ α) : Prop := ∀ s, act (f s) =
  match act s with
  | .ok x t => .ok x (f t)
  | .error e t => .error e (f t)

theorem ignores_pure (x : α) : Ignores f (pure x : Action σ α) := fun _ => rfl

theorem Ignores.bind {act : Action σ α} {next : α → Action σ β} (h : Ignores f act)
    (hnext : ∀ x, Ignores f (next x)) : Ignores f (act >>= next) := by
  intro s
  simp only [Bind.bind, EStateM.bind, h s]
  cases act s with
  | ok x t => exact hnext x t
  | error e t => rfl

end Action

/-! ## Clients -/

namespace Client

variable {κ ρ ε ν σ υ α : Type}

/-- A client that sees of every state what `view` shows of it. -/
def through (view : σ → υ) : Client κ ρ υ α → Client κ ρ σ α
  | done result => done result
  | call c next => call c fun outcome s => (next outcome (view s)).through view

/-- Makes a call and notes its outcome, with what can be seen of the state after it. -/
def watch (step : κ → σ → Answer ρ ε σ) (note : ρ → σ → ν) (call : κ) (s : σ) : Answer ρ ν σ :=
  let answer := step call s
  ⟨answer.outcome, [note answer.outcome answer.state], answer.state⟩

/-- Makes calls in a given order, whatever they bring. -/
def inOrder : List κ → Client κ ρ σ Unit
  | [] => done ()
  | c :: rest => call c fun _ _ => inOrder rest

section

variable {step : κ → σ → Answer ρ ε σ}

theorem watch_mapState (f : σ → σ) {note : ρ → σ → ν}
    (hnote : ∀ outcome s, note outcome (f s) = note outcome s)
    (hstep : ∀ call s, step call (f s) = (step call s).mapState f) (call : κ) (s : σ) :
    watch step note call (f s) = (watch step note call s).mapState f := by
  simp only [watch, hstep, Answer.mapState, hnote]

theorem run_through (f : σ → σ) {view : σ → υ} (hview : ∀ s, view (f s) = view s)
    (hstep : ∀ call s, step call (f s) = (step call s).mapState f) (client : Client κ ρ υ α)
    (s : σ) :
    (client.through view).run step (f s) = ((client.through view).run step s).mapState f := by
  induction client generalizing s with
  | done result => rfl
  | call c next ih => simp only [through, run, hstep, Answer.mapState, hview, ih]

/-- Nor is there a trace of the change in what is noted of the run. -/
theorem events_watch (f : σ → σ) {note : ρ → σ → ν} {view : σ → υ}
    (hnote : ∀ outcome s, note outcome (f s) = note outcome s) (hview : ∀ s, view (f s) = view s)
    (hstep : ∀ call s, step call (f s) = (step call s).mapState f) (client : Client κ ρ υ α)
    (s : σ) :
    ((client.through view).run (watch step note) (f s)).events =
      ((client.through view).run (watch step note) s).events := by
  rw [run_through f hview (watch_mapState f hnote hstep)]
  rfl

end

/-- Some calls do not notice a change of the state, and the change hides all that the other calls do
to it. Then these may be left out: the calls that remain have the outcomes that they had. -/
theorem run_filter {step : κ → σ → Answer ρ (κ × ρ) σ} {f : σ → σ} (kept : κ → Bool)
    (hevents : ∀ call s, (step call s).events = [(call, (step call s).outcome)])
    (hkept : ∀ call s, kept call = true → step call (f s) = (step call s).mapState f)
    (hleft : ∀ call s, kept call = false → f (step call s).state = f s)
    (client : Client κ ρ σ α) (s : σ) :
    let whole := client.run step s
    (inOrder ((whole.events.map Prod.fst).filter kept)).run step (f s) =
      ⟨(), whole.events.filter fun event => kept event.1, f whole.state⟩ := by
  induction client generalizing s with
  | done result => rfl
  | call c next ih =>
    have hrest := ih (step c s).outcome (step c s).state (step c s).state
    simp only [run, hevents, List.singleton_append, List.map_cons, List.filter_cons] at hrest ⊢
    cases hc : kept c with
    | true =>
      simp only [if_true, inOrder, run, hevents, hkept c s hc, Answer.mapState]
      rw [hrest]
      rfl
    | false =>
      rw [hleft c s hc] at hrest
      exact hrest

end Client

/-! ## Sinks and writers -/

variable {σ : Type}

/-- No operation of the sink notices the change. -/
structure Sink.Ignores [Sink σ] (f : σ → σ) : Prop where
  position : ∀ s, Sink.position (f s) = Sink.position s
  write : ∀ data, Action.Ignores f (Sink.write data)
  overwrite : ∀ offset data, Action.Ignores f (Sink.overwrite offset data)
  flush : Action.Ignores f (Sink.flush : Action σ Unit)

variable [Sink σ] {f : σ → σ}

theorem Sink.Ignores.perform (h : Ignores f) (call : Call) : Action.Ignores f (perform call) := by
  cases call with
  | write data => exact h.write data
  | overwrite offset data => exact h.overwrite offset data
  | flush => exact h.flush.bind fun _ => Action.ignores_pure 0

theorem Sink.Ignores.step (h : Ignores f) (call : Call) (s : σ) :
    Sink.step call (f s) = (Sink.step call s).mapState f := by
  simp only [Sink.step, h.perform call s]
  cases Sink.perform call s <;> rfl

namespace Writer

/-- Changes the sink of a writer. -/
def mapSink (f : σ → σ) (w : Writer σ) : Writer σ := { w with sink := f w.sink }

theorem append_mapSink (h : Sink.Ignores f) (data : Bytes) (w : Writer σ) :
    (w.mapSink f).append data = (w.append data).mapSink f := by
  obtain ⟨sink, failed⟩ := w
  cases failed with
  | true => rfl
  | false =>
    simp only [append, mapSink, h.write data sink]
    cases Sink.write data sink <;> rfl

theorem commit_ignores (h : Sink.Ignores f) {t : Scalar} (slot : Slot t) (value : t.Value) :
    Action.Ignores (mapSink f) (commit slot value) := by
  rintro ⟨sink, failed⟩
  cases failed with
  | true => rfl
  | false =>
    simp only [commit, mapSink, h.overwrite slot.offset (t.encode value) sink]
    cases Sink.overwrite slot.offset (t.encode value) sink with
    | ok count next => by_cases hcount : count = t.width <;> simp [hcount]
    | error e next => rfl

theorem commitFrom_ignores (h : Sink.Ignores f) (t : Scalar) (offset : Nat)
    (values : List t.Value) : Action.Ignores (mapSink f) (commitFrom t offset values) := by
  induction values generalizing offset with
  | nil => exact Action.ignores_pure ()
  | cons value rest ih => exact (commit_ignores h ⟨offset⟩ value).bind fun _ => ih _

theorem flush_ignores (h : Sink.Ignores f) : Action.Ignores (mapSink f) (flush (σ := σ)) := by
  rintro ⟨sink, failed⟩
  cases failed with
  | true => rfl
  | false =>
    simp only [flush, mapSink, h.flush sink]
    cases (Sink.flush : Action σ Unit) sink <;> rfl

theorem act_ignores (h : Sink.Ignores f) (call : Call) :
    Action.Ignores (mapSink f) (call.act (σ := σ)) := by
  have happend (data : Bytes) :
      Action.Ignores (mapSink f) (modify (append data) : Action (Writer σ) Unit) :=
    fun w => congrArg (EStateM.Result.ok PUnit.unit) (append_mapSink h data w)
  cases call with
  | append data | write t value | writeList t values | reserve t | reserveArray t n =>
    exact happend _
  | commit slot value => exact commit_ignores h slot value
  | commitArray slots values => exact commitFrom_ignores h _ _ _
  | flush => exact flush_ignores h

theorem reach_mapSink (h : Sink.Ignores f) (call : Sink.Call) (w : Writer σ) :
    (w.mapSink f).reach call = w.reach call := by
  simp only [reach, mapSink, h.step, Answer.mapState]

theorem reachFrom_mapSink (h : Sink.Ignores f) (t : Scalar) (offset : Nat) (values : List t.Value)
    (w : Writer σ) : reachFrom t offset values (w.mapSink f) = reachFrom t offset values w := by
  induction values generalizing offset w with
  | nil => rfl
  | cons value rest ih =>
    simp only [reachFrom, reach_mapSink h, commit_ignores h ⟨offset⟩ value w]
    cases commit (t := t) ⟨offset⟩ value w with
    | ok _ next => exact congrArg _ (ih _ next)
    | error e next => rfl

theorem reached_mapSink (h : Sink.Ignores f) (call : Call) (w : Writer σ) :
    call.reached (w.mapSink f) = call.reached w := by
  cases call with
  | commitArray slots values => exact reachFrom_mapSink h _ _ _ w
  | _ => exact reach_mapSink h _ w

theorem step_mapSink (h : Sink.Ignores f) (call : Call) (w : Writer σ) :
    step call (w.mapSink f) = (step call w).mapState (mapSink f) := by
  simp only [step, act_ignores h call w, reached_mapSink h]
  cases call.act w <;> rfl

end Writer

end Octet
