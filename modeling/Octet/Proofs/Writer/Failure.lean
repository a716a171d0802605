import Mathlib.Data.List.Basic
import Octet.Proofs.Chain
import Octet.Proofs.Connection.Session
import Octet.Proofs.Sink.Contract

/-!
# The chain of a writer

A writer fails at the first call of its sink that goes wrong, and by nothing else. Up to there every
write is one call of the sink; from there on none is.

## Main definitions

* `Sink.spoils`: the outcomes by which a writer fails.
* `Sink.writes`: the data of the writes on a record.
* `Writer.chain`: the chain of a writer.

## Main statements

* `Writer.failed_step`: a call fails a writer just if it comes to such an outcome.
* `Writer.step_of_failed`: what is called on a failed writer.
* `Writer.silent_once_failed`: both, at every moment of a chain.
-/

namespace Octet

/-! ## Outcomes -/

namespace Sink

/-- The bytes that a call is to append. -/
def Call.data? : Call → Option Bytes
  | .write data => some data
  | .overwrite .. | .flush => none

/-- Whether the outcome of a call fails the writer that made it. Any count but that of the data, be
it larger, is taken for a short one; of the errors, only that a correction was out of range does not
count. -/
def spoils : Event → Bool
  | (.write data, .ok count) | (.overwrite _ data, .ok count) => count != data.length
  | (.overwrite .., .error e) => !e.isPatchOutOfRange
  | (.write _, .error _) | (.flush, .error _) => true
  | (.flush, .ok _) => false

/-- The data of the writes on a record, one by one. -/
def writes (events : List Event) : List Bytes := events.filterMap fun event => event.1.data?

@[simp] theorem writes_append (first second : List Event) :
    writes (first ++ second) = writes first ++ writes second :=
  List.filterMap_append

end Sink

namespace Writer

namespace Call

/-- The bytes that a call is to append. -/
def data? : Call → Option Bytes
  | .append data => some data
  | .write t value => some (t.encode value)
  | .writeList t values => some (t.encodeList values)
  | .reserve t => some (t.encode t.zero)
  | .reserveArray t n => some (t.encodeList (List.replicate n t.zero))
  | .commit .. | .commitArray .. | .flush => none

/-- Whether a failed writer refuses a call, rather than pass over it. -/
def isRefused : Call → Bool
  | .commit .. | .flush => true
  | .commitArray (n := n) .. => n != 0
  | _ => false

end Call

variable {σ : Type} [Sink σ] {w : Writer σ}

/-! ## On a failed writer -/

@[simp] theorem commit_of_failed (hw : w.failed = true) {t : Scalar} (slot : Slot t)
    (value : t.Value) :
    commit slot value w = .error .writerFailed w := by
  simp only [commit, hw, if_true]

@[simp] theorem commitFrom_of_failed (hw : w.failed = true) (t : Scalar) (offset : Nat)
    (values : List t.Value) :
    commitFrom t offset values w =
      if values.length != 0 then .error .writerFailed w else .ok () w := by
  cases values with
  | nil => rfl
  | cons value rest =>
    simp only [commitFrom, bind, EStateM.bind, commit_of_failed hw]
    rfl

@[simp] theorem reachFrom_of_failed (hw : w.failed = true) (t : Scalar) (offset : Nat)
    (values : List t.Value) : reachFrom t offset values w = [] := by
  cases values with
  | nil => rfl
  | cons value rest =>
    simp [reachFrom, reach, hw]

/-- Nothing that is called on a failed writer reaches the sink. -/
@[simp] theorem step_of_failed (hw : w.failed = true) (call : Call) :
    step call w = ⟨if call.isRefused then .error .writerFailed else .ok (), [], w⟩ := by
  have hreach (call : Sink.Call) : w.reach call = [] := if_pos hw
  cases call with
  | append data | write t value | writeList t values | reserve t | reserveArray t n =>
    simp only [step, Call.act, Call.reached, hreach]
    exact congrArg _ (append_of_failed hw)
  | commit slot value =>
    simp only [step, Call.act, commit_of_failed hw, Call.reached, hreach]
    rfl
  | @commitArray t n slots values =>
    have hcommit := commitFrom_of_failed hw t slots.offset values.toList
    rw [Vector.length_toList] at hcommit
    simp only [step, Call.act, commitArray, hcommit, Call.reached, reachFrom_of_failed hw,
      Call.isRefused]
    by_cases hn : (n != 0) = true
    · simp only [hn, if_true]
    · simp only [hn]
      rfl
  | flush =>
    have hflush : flush w = .error .writerFailed w := if_pos hw
    simp only [step, Call.act, hflush, Call.reached, hreach]
    rfl

/-! ## How a writer fails -/

theorem failed_append (data : Bytes) (w : Writer σ) :
    (w.append data).failed = (w.failed || (w.reach (.write data)).any Sink.spoils) := by
  cases hw : w.failed with
  | true => rw [append_of_failed hw, hw, Bool.true_or]
  | false =>
    simp only [append, reach, Sink.step, Sink.perform, hw]
    cases Sink.write data w.sink <;> simp [Sink.spoils]

theorem failed_commit {t : Scalar} (slot : Slot t) (value : t.Value) (w : Writer σ) :
    (commit slot value).Ends w
      (fun _ next => next.failed =
        (w.failed || (w.reach (.overwrite slot.offset (t.encode value))).any Sink.spoils))
      (fun _ next => next.failed =
        (w.failed || (w.reach (.overwrite slot.offset (t.encode value))).any Sink.spoils)) := by
  cases hw : w.failed with
  | true => simp only [Action.Ends, commit_of_failed hw, hw, Bool.true_or]
  | false =>
    simp only [Action.Ends, commit, reach, Sink.step, Sink.perform, hw]
    cases Sink.overwrite slot.offset (t.encode value) w.sink with
    | ok count sink => by_cases hcount : count = t.width <;> simp [hcount, Sink.spoils]
    | error e sink => simp [Sink.spoils]

theorem failed_flush (w : Writer σ) :
    (flush (σ := σ)).Ends w
      (fun _ next => next.failed = (w.failed || (w.reach .flush).any Sink.spoils))
      (fun _ next => next.failed = (w.failed || (w.reach .flush).any Sink.spoils)) := by
  cases hw : w.failed with
  | true => simp only [Action.Ends, flush, hw, if_true, Bool.true_or]
  | false =>
    simp only [Action.Ends, flush, reach, Sink.step, Sink.perform, bind, EStateM.bind, hw]
    cases (Sink.flush : Action σ Unit) w.sink <;> simp [Sink.spoils, pure, EStateM.pure]

theorem failed_linked : Linked fun (w : Writer σ) events next =>
    next.failed = (w.failed || events.any Sink.spoils) where
  nil w := (Bool.or_false _).symm
  trans hfirst hsecond := by grind
  append := failed_append
  commit := failed_commit
  flush := failed_flush

/-- A writer fails at a call just if it had failed before, or one of the calls of the sink that it
comes to has an outcome by which writers fail. -/
theorem failed_step (call : Call) (w : Writer σ) :
    (step call w).state.failed = (w.failed || (step call w).events.any Sink.spoils) :=
  failed_linked.step call w

/-! ## What the sink is asked -/

theorem writes_reach (call : Sink.Call) (w : Writer σ) :
    Sink.writes (w.reach call) = if w.failed then [] else call.data?.toList := by
  rw [reach, Sink.events_step]
  cases w.failed with
  | true => rfl
  | false => cases call <;> rfl

@[simp] theorem writes_reachFrom (t : Scalar) (offset : Nat) (values : List t.Value)
    (w : Writer σ) :
    Sink.writes (reachFrom t offset values w) = [] := by
  induction values generalizing offset w with
  | nil => rfl
  | cons value rest ih =>
    rw [reachFrom, Sink.writes_append, List.append_eq_nil_iff, writes_reach]
    constructor
    · exact ite_self _
    · cases commit (t := t) ⟨offset⟩ value w with
      | ok _ next => exact ih _ next
      | error e next => rfl

/-- An unbroken chain makes one write of a call that appends, and none of any other. -/
theorem writes_step (hw : w.failed = false) (call : Call) :
    Sink.writes (step call w).events = call.data?.toList := by
  have hreach (call : Sink.Call) : Sink.writes (w.reach call) = call.data?.toList := by
    rw [writes_reach, hw]
    rfl
  have hevents : (step call w).events = call.reached w := by
    unfold step
    cases call.act w <;> rfl
  rw [hevents]
  cases call with
  | commitArray slots values => exact writes_reachFrom _ _ _ w
  | _ => exact hreach _

/-! ## Chains -/

/-- The chain of a writer, call by call. -/
def chain : Chain Call (Writer σ) where
  next call w := (step call w).state
  failed := failed
  next_of_failed hw := by rw [step_of_failed hw]

/-- At every moment of a chain on a sink that keeps a record of its calls, the record has one write
for each call heard that appends, of what it appends. While nothing has failed, a call fails the
writer just if it adds an outcome to the record by which writers fail. Once something has, a call
adds nothing and is refused if it is a flush or a correction, and the outcome of the chain says
where the sink is. -/
theorem silent_once_failed (sink : σ) (calls : List Call) (call : Call) :
    let start : Writer (Sink.Traced σ) := { sink := { inner := sink } }
    let w := chain.after calls start
    let answer := step call w
    Sink.writes w.sink.trace = (chain.heard calls start).filterMap Call.data? ∧
      (w.failed = false → ∃ asked, answer.state.sink.trace = w.sink.trace ++ asked ∧
        (answer.state.isOk = false ↔ ∃ event ∈ asked, Sink.spoils event)) ∧
      (w.failed = true → answer.state = w ∧
        answer.outcome = (if call.isRefused then .error .writerFailed else .ok ()) ∧
        finish w = .error (.writeChain w.position) w) := by
  intro start w answer
  have htrace (call : Call) (w : Writer (Sink.Traced σ)) :
      (step call w).state.sink.trace = w.sink.trace ++ (step call w).events :=
    (leads_step call w).trace_eq
  refine ⟨?_, fun hw => ⟨answer.events, htrace call w, ?_⟩, fun hw => ?_⟩
  · rw [List.filterMap_eq_flatMap_toList]
    apply chain.record_after (fun w : Writer (Sink.Traced σ) => Sink.writes w.sink.trace)
    intro call w hw
    simp [chain, htrace, writes_step hw]
  · rw [← List.any_eq_true, Writer.isOk, Bool.not_eq_false', failed_step, hw, Bool.false_or]
  · rw [show answer = _ from step_of_failed hw call]
    exact ⟨rfl, rfl, if_pos hw⟩

/-- A correction out of range does no harm. A write past the limit of a message does, and what comes
after it is not heard. -/
theorem silent_once_failed_past_limit :
    let message : Outgoing Connection.Scripted := ⟨{ transport := ⟨[]⟩, limit := 3 }, []⟩
    let start : Writer (Sink.Traced (Outgoing Connection.Scripted)) :=
      { sink := { inner := message } }
    let calls : List Call :=
      [.write .u16 513, .commit (t := .u16) ⟨1⟩ 7, .writeList .u8 [3, 4], .append [5]]
    let w := chain.after calls start
    Sink.writes w.sink.trace = [[1, 2], [3, 4]] ∧
      (step (.commit (t := .u16) ⟨0⟩ 7) w).outcome = .error .writerFailed ∧
      finish w = .error (.writeChain 2) w := by
  intro message start calls w
  obtain ⟨hwrites, -, hfailed⟩ := silent_once_failed message calls (.commit (t := .u16) ⟨0⟩ 7)
  obtain ⟨-, houtcome, hfinish⟩ := hfailed rfl
  exact ⟨hwrites, houtcome, hfinish⟩

end Writer

end Octet
