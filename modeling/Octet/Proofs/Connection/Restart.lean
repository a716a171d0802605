import Mathlib.Algebra.GroupWithZero.Nat
import Octet.Proofs.Writer.Failure

/-!
# Slots of a message that is gone

A flush starts the positions of a message over. A slot is a bare offset, so that one from before the
flush is as good as any other: it is out of range until so much has been written again, and then it
is a place in the next message.

## Main definitions

* `Sink.appended`: the bytes that a call has appended.

## Main statements

* `Outgoing.length_staged_le`: no more is staged than what was and what has been written since.
* `Outgoing.commit_after_flush`: what a commit does after a flush, wherever its slot comes from.
* `Outgoing.commit_into_next_message`: a slot of one message can change the next.
-/

namespace Octet

/-- The bytes that a call has appended. -/
def Sink.appended : Event → Nat
  | (.write data, .ok _) => data.length
  | _ => 0

namespace Outgoing

variable {τ : Type} [Transport τ] {t : Scalar}

/-- A commit on a message goes by what is staged, and leaves the connection alone. -/
theorem commit_eq (slot : Slot t) (value : t.Value) (message : Outgoing τ) :
    Writer.commit slot value ⟨message, false⟩ =
      if slot.offset + t.width ≤ message.staged.length then
        let corrected := message.staged.overlay slot.offset (t.encode value)
        .ok () ⟨{ message with staged := corrected }, false⟩
      else
        .error (.patchOutOfRange slot.offset t.width message.staged.length) ⟨message, false⟩ := by
  have hwidth := t.length_encode value
  unfold Writer.commit
  by_cases hle : slot.offset + t.width ≤ message.staged.length
  · simp [overwrite_eq, hwidth, hle]
  · simp [overwrite_eq, hwidth, hle, Error.isPatchOutOfRange]

variable {message next later : Outgoing (Recorded τ)} {trace : List Sink.Event}

theorem length_staged_step (call : Sink.Call) (message : Outgoing (Recorded τ)) :
    (Sink.step call message).state.staged.length ≤
      message.staged.length + Sink.appended (call, (Sink.step call message).outcome) := by
  apply Sink.step_of_ends fun outcome (next : Outgoing (Recorded τ)) =>
    next.staged.length ≤ message.staged.length + Sink.appended (call, outcome)
  cases call with
  | write data =>
    apply (message.write_ends data).mono
    · rintro _ _ ⟨-, -, rfl⟩
      exact Nat.le_of_eq List.length_append
    · rintro _ _ ⟨-, -, rfl⟩
      omega
  | overwrite offset data =>
    apply (message.overwrite_ends offset data).mono
    · rintro _ _ ⟨-, hle, rfl⟩
      grind
    · rintro _ _ ⟨-, -, rfl⟩
      omega
  | flush =>
    rw [Sink.perform]
    apply message.flush_ends.bind
    · rintro _ next ⟨hnext, -⟩
      simp [hnext]
    · rintro _ next ⟨-, hnext, -⟩
      grind

theorem length_staged_le (h : Sink.Leads message trace later) :
    later.staged.length ≤ message.staged.length + (trace.map Sink.appended).sum := by
  induction h with
  | nil message => exact Nat.le_refl _
  | @cons call message _ _ _ ih =>
    have hstep := length_staged_step call message
    grind

/-- After a flush that went through, and whatever was called on the message since, a commit goes by
the bytes written since, as corrected, wherever its slot comes from. As long as these do not reach
the end of the slot it is refused and changes nothing; from then on it corrects them. -/
theorem commit_after_flush (hflush : Sink.flush message = .ok () next)
    (hsince : Sink.Leads next trace later) (slot : Slot t) (value : t.Value) :
    let since := (Ledger.ofEvents trace).staged
    later.staged = since ∧ since.length ≤ (trace.map Sink.appended).sum ∧
      Writer.commit slot value ⟨later, true⟩ = .error .writerFailed ⟨later, true⟩ ∧
      Writer.commit slot value ⟨later, false⟩ =
        if slot.offset + t.width ≤ since.length then
          .ok () ⟨{ later with staged := since.overlay slot.offset (t.encode value) }, false⟩
        else
          .error (.patchOutOfRange slot.offset t.width since.length) ⟨later, false⟩ := by
  have hnext : next.staged = [] := (message.flush_ends.of_ok hflush).1
  have hstaged : later.staged = (Ledger.ofEvents trace).staged :=
    ((Ledger.keeps_of_staged hnext).leads hsince).staged
  have hlength := length_staged_le hsince
  rw [hnext, List.length_nil, Nat.zero_add] at hlength
  intro since
  rw [← show later.staged = since from hstaged]
  exact ⟨rfl, hlength, Writer.commit_of_failed rfl slot value, commit_eq slot value later⟩

/-- A writer on a message with no bytes yet. -/
def blank : Writer (Outgoing (Recorded Connection.Scripted)) where
  sink := ⟨{ transport := { inner := ⟨[]⟩ }, limit := 8 }, []⟩

/-- One byte of the next message is not enough for a slot of two, and then a second one is. -/
theorem commit_after_flush_byte_by_byte :
    let message := (blank.reserve .u16).2.sink
    let next := (Sink.step .flush message).state
    let one := (Sink.step (.write [8]) next).state
    let two := (Sink.step (.write [9]) one).state
    message.staged = [0, 0] ∧
      Writer.commit (t := .u16) ⟨0⟩ 513 ⟨one, false⟩ =
        .error (.patchOutOfRange 0 2 1) ⟨one, false⟩ ∧
      Writer.commit (t := .u16) ⟨0⟩ 513 ⟨two, false⟩ =
        .ok () ⟨{ two with staged := [1, 2] }, false⟩ := by
  intro message next one two
  have hflush : Sink.flush message = .ok () next := rfl
  have hone : Sink.Leads next [(.write [8], .ok 1)] one := .cons (.write [8]) (.nil _)
  have htwo : Sink.Leads next [(.write [8], .ok 1), (.write [9], .ok 1)] two :=
    .cons (.write [8]) (.cons (.write [9]) (.nil _))
  obtain ⟨-, -, -, hcommit⟩ := commit_after_flush hflush hone (t := .u16) ⟨0⟩ 513
  obtain ⟨-, -, -, hcommit'⟩ := commit_after_flush hflush htwo (t := .u16) ⟨0⟩ 513
  exact ⟨rfl, hcommit, hcommit'⟩

/-- A slot is reserved and its message sent. A commit still finds two bytes at its offset, those of
the next message, and replaces them. -/
theorem commit_into_next_message :
    let reserved := blank.reserve .u16
    let w := Writer.chain.after [.flush, .append [8, 9]] reserved.2
    w.sink.connection.sends = [⟨[0, 0], true⟩] ∧ w.sink.staged = [8, 9] ∧
      ∃ next, Writer.commit reserved.1 (513 : UInt16) w = .ok () next ∧
        next.sink.staged = [1, 2] :=
  ⟨rfl, rfl, _, rfl, rfl⟩

end Outgoing

end Octet
