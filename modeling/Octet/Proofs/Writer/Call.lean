import Octet.Proofs.Sink.Call
import Octet.Writer

/-!
# Calls on writers

The calls of a writer as data, with the calls of the sink that they come to. A writer whose chain
has failed makes none, and a row of corrections stops at the first that is refused.

## Main definitions

* `Writer.Call`: the calls, `Writer.step` what one of them brings.
* `Writer.Call.reached`: the calls of the sink that a call of the writer makes, with their outcomes.
* `Writer.Linked`: relations of writers to those that calls of the sink make of them.

## Main statements

* `Writer.Linked.step`: such a relation holds of every call.
* `Writer.leads_run`: the calls of the sink that a client of a writer comes to lead to the sink that
  it leaves.
-/

namespace Octet

namespace Writer

/-- A call that may change a writer. Slots may come from anywhere. -/
inductive Call
  | append (data : Bytes)
  | write (t : Scalar) (value : t.Value)
  | writeList (t : Scalar) (values : List t.Value)
  | reserve (t : Scalar)
  | reserveArray (t : Scalar) (n : Nat)
  | commit {t : Scalar} (slot : Slot t) (value : t.Value)
  | commitArray {t : Scalar} {n : Nat} (slots : SlotArray t n) (values : Vector t.Value n)
  | flush

variable {σ α : Type} [Sink σ]

/-- The call of the sink that a writer makes, unless its chain has failed. -/
def reach (call : Sink.Call) (w : Writer σ) : List Sink.Event :=
  if w.failed then [] else (Sink.step call w.sink).events

/-- The corrections that a row of commits comes to. -/
def reachFrom (t : Scalar) (offset : Nat) : List t.Value → Writer σ → List Sink.Event
  | [], _ => []
  | value :: rest, w =>
    reach (.overwrite offset (t.encode value)) w ++
      match commit (t := t) ⟨offset⟩ value w with
      | .ok _ next => reachFrom t (offset + t.width) rest next
      | .error _ _ => []

namespace Call

/-- Makes a call. -/
def act : Call → Action (Writer σ) Unit
  | .append data => modify (Writer.append data)
  | .write t value => modify (Writer.write t value)
  | .writeList t values => modify (Writer.writeList t values)
  | .reserve t => modify fun w => (w.reserve t).2
  | .reserveArray t n => modify fun w => (w.reserveArray t n).2
  | .commit slot value => Writer.commit slot value
  | .commitArray slots values => Writer.commitArray slots values
  | .flush => Writer.flush

/-- The calls of the sink that a call comes to. -/
def reached : Call → Writer σ → List Sink.Event
  | .append data => reach (.write data)
  | .write t value => reach (.write (t.encode value))
  | .writeList t values => reach (.write (t.encodeList values))
  | .reserve t => reach (.write (t.encode t.zero))
  | .reserveArray t n => reach (.write (t.encodeList (List.replicate n t.zero)))
  | .commit (t := t) slot value => reach (.overwrite slot.offset (t.encode value))
  | .commitArray (t := t) slots values => reachFrom t slots.offset values.toList
  | .flush => reach .flush

end Call

/-- Makes a call and records what the sink was asked. -/
def step (call : Call) (w : Writer σ) : Answer (Except Error Unit) Sink.Event (Writer σ) :=
  match call.act w with
  | .ok _ next => ⟨.ok (), call.reached w, next⟩
  | .error e next => ⟨.error e, call.reached w, next⟩

/-! ## From calls of the sink to calls of the writer -/

/-- A relation between a writer, calls of its sink, and the writer after them. It carries on over
further calls, and holds of whatever makes one call of the sink. -/
structure Linked (linked : Writer σ → List Sink.Event → Writer σ → Prop) : Prop where
  nil : ∀ w, linked w [] w
  trans : ∀ {u v w first second}, linked u first v → linked v second w →
    linked u (first ++ second) w
  append : ∀ data w, linked w (w.reach (.write data)) (w.append data)
  commit : ∀ {t : Scalar} (slot : Slot t) (value : t.Value) w, (commit slot value).Ends w
    (fun _ next => linked w (w.reach (.overwrite slot.offset (t.encode value))) next)
    (fun _ next => linked w (w.reach (.overwrite slot.offset (t.encode value))) next)
  flush : ∀ w, (flush (σ := σ)).Ends w (fun _ next => linked w (w.reach .flush) next)
    (fun _ next => linked w (w.reach .flush) next)

variable {linked : Writer σ → List Sink.Event → Writer σ → Prop}

theorem Linked.commitFrom (h : Linked linked) (t : Scalar) (offset : Nat) (values : List t.Value)
    (w : Writer σ) :
    (Writer.commitFrom t offset values).Ends w
      (fun _ next => linked w (reachFrom t offset values w) next)
      (fun _ next => linked w (reachFrom t offset values w) next) := by
  induction values generalizing offset w with
  | nil => exact Action.ends_pure.mpr (h.nil w)
  | cons value rest ih =>
    have hcommit := h.commit (t := t) ⟨offset⟩ value w
    rw [Writer.commitFrom, Action.ends_bind, reachFrom]
    cases hact : Writer.commit (t := t) ⟨offset⟩ value w with
    | ok _ next =>
      have hfirst := hcommit.of_ok hact
      apply Action.ends_of_ok hact
      apply (ih (offset + t.width) next).mono
      · exact fun _ _ hrest => h.trans hfirst hrest
      · exact fun _ _ hrest => h.trans hfirst hrest
    | error e next =>
      -- The row stops here, out of range or failed, and its record with it.
      apply Action.ends_of_error hact
      rw [List.append_nil]
      exact hcommit.of_error hact

theorem Linked.act (h : Linked linked) (call : Call) (w : Writer σ) :
    call.act.Ends w (fun _ next => linked w (call.reached w) next)
      (fun _ next => linked w (call.reached w) next) := by
  cases call with
  | append data => exact h.append data w
  | write t value => exact h.append _ w
  | writeList t values => exact h.append _ w
  | reserve t => exact h.append _ w
  | reserveArray t n => exact h.append _ w
  | commit slot value => exact h.commit slot value w
  | commitArray slots values => exact h.commitFrom _ _ _ w
  | flush => exact h.flush w

theorem Linked.step (h : Linked linked) (call : Call) (w : Writer σ) :
    linked w (step call w).events (step call w).state := by
  have hact := h.act call w
  unfold Writer.step
  cases heq : call.act w with
  | ok _ next => exact hact.of_ok heq
  | error e next => exact hact.of_error heq

/-! ## Where the calls of the sink lead -/

variable {w : Writer σ}

theorem leads_reach_of_failed (hw : w.failed = true) (call : Sink.Call) :
    Sink.Leads w.sink (w.reach call) w.sink := by
  rw [reach, if_pos hw]
  exact .nil _

theorem leads_reach (hw : w.failed = false) (call : Sink.Call) :
    Sink.Leads w.sink (w.reach call) (Sink.step call w.sink).state := by
  rw [reach, hw]
  exact Sink.leads_step call w.sink

theorem leads_append (data : Bytes) (w : Writer σ) :
    Sink.Leads w.sink (w.reach (.write data)) (w.append data).sink := by
  unfold append
  cases hw : w.failed with
  | true => exact leads_reach_of_failed hw _
  | false =>
    have hlead := leads_reach hw (.write data)
    unfold Sink.step Sink.perform at hlead
    cases hact : Sink.write data w.sink <;> simpa [hact] using hlead

theorem leads_commit {t : Scalar} (slot : Slot t) (value : t.Value) (w : Writer σ) :
    (commit slot value).Ends w
      (fun _ next =>
        Sink.Leads w.sink (w.reach (.overwrite slot.offset (t.encode value))) next.sink)
      (fun _ next =>
        Sink.Leads w.sink (w.reach (.overwrite slot.offset (t.encode value))) next.sink) := by
  unfold Action.Ends commit
  cases hw : w.failed with
  | true => exact leads_reach_of_failed hw _
  | false =>
    have hlead := leads_reach hw (.overwrite slot.offset (t.encode value))
    unfold Sink.step Sink.perform at hlead
    cases hact : Sink.overwrite slot.offset (t.encode value) w.sink with
    | ok count sink => by_cases hcount : count = t.width <;> simpa [hact, hcount] using hlead
    | error e sink => simpa [hact] using hlead

theorem leads_flush (w : Writer σ) :
    (flush (σ := σ)).Ends w (fun _ next => Sink.Leads w.sink (w.reach .flush) next.sink)
      (fun _ next => Sink.Leads w.sink (w.reach .flush) next.sink) := by
  unfold Action.Ends flush
  cases hw : w.failed with
  | true => exact leads_reach_of_failed hw _
  | false =>
    have hlead := leads_reach hw .flush
    simp only [Sink.step, Sink.perform, bind, EStateM.bind] at hlead
    cases hact : (Sink.flush : Action σ Unit) w.sink <;> simp only [hact] at hlead <;> exact hlead

theorem leads_linked :
    Linked fun (w : Writer σ) events next => Sink.Leads w.sink events next.sink where
  nil w := .nil w.sink
  trans := Sink.Leads.trans
  append := leads_append
  commit := leads_commit
  flush := leads_flush

theorem leads_step (call : Call) (w : Writer σ) :
    Sink.Leads w.sink (step call w).events (step call w).state.sink :=
  leads_linked.step call w

theorem leads_run (client : Client Call (Except Error Unit) (Writer σ) α) (w : Writer σ) :
    Sink.Leads w.sink (client.run step w).events (client.run step w).state.sink :=
  client.run_invariant step (fun seen next => Sink.Leads w.sink seen next.sink)
    (fun call _ next h => h.trans (leads_step call next)) [] (.nil _)

end Writer

end Octet
