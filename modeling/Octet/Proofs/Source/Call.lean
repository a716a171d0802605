import Octet.Proofs.Action
import Octet.Proofs.Client
import Octet.Source.Basic

/-!
# Calls on sources

The operations of a source as data, so that clients can choose among them and their replies can be
recorded.

## Main definitions

* `Source.Call`, `Source.Reply`: the calls and what they bring.
* `Source.step`: a call made on a source.
* `Source.Traced`: a source that keeps a record of its calls.

## Main statements

* `Source.perform_traced`: every call is put on record with what it brings.
-/

namespace Octet

namespace Source

/-- A call that may change a source. -/
inductive Call
  | read (want : Nat)
  | skip (count : Nat)
  | size
  | seek (target : Nat)
  deriving DecidableEq, Repr

/-- What a call brings. -/
inductive Reply
  | delivered (delivery : Delivery)
  | passed (count : Except Error Nat)
  | size (size : Option Nat)
  | sought (outcome : Except Error Unit)

variable {σ : Type} [Source σ]

/-- Makes a call. -/
def perform : Call → σ → Reply × σ
  | .read want, s =>
    let (delivery, t) := Source.read want s
    (.delivered delivery, t)
  | .skip count, s =>
    match Source.skip count s with
    | .ok passed t => (.passed (.ok passed), t)
    | .error e t => (.passed (.error e), t)
  | .size, s =>
    let (size, t) := Source.size s
    (.size size, t)
  | .seek target, s =>
    match Source.seek target s with
    | .ok _ t => (.sought (.ok ()), t)
    | .error e t => (.sought (.error e), t)

/-- Makes a call and records it. -/
def step (call : Call) (s : σ) : Answer Reply (Call × Reply) σ :=
  let (reply, t) := perform call s
  ⟨reply, [(call, reply)], t⟩

variable {s : σ} (post : σ → Prop)

/-- What holds however a skip ends holds after the call. -/
theorem step_skip_of_ends {count : Nat}
    (h : (Source.skip count).Ends s (fun _ t => post t) fun _ t => post t) :
    post (step (.skip count) s).state := by
  simp only [step, perform]
  cases hact : Source.skip count s with
  | ok passed t => exact h.of_ok hact
  | error e t => exact h.of_error hact

theorem step_seek_of_ends {target : Nat}
    (h : (Source.seek target).Ends s (fun _ t => post t) fun _ t => post t) :
    post (step (.seek target) s).state := by
  simp only [step, perform]
  cases hact : Source.seek target s with
  | ok _ t => exact h.of_ok hact
  | error e t => exact h.of_error hact

/-- However a seek ends, it leaves the source where the call does. -/
theorem seek_ends_of_perform {target : Nat} (h : post (perform (.seek target) s).2) :
    (Source.seek target).Ends s (fun _ t => post t) fun _ t => post t := by
  unfold Action.Ends
  simp only [perform] at h
  cases hact : Source.seek target s <;> simpa only [hact] using h

/-! ## Sources that keep a record -/

/-- A source, and the calls that have reached it with what they brought. -/
structure Traced (σ : Type) where
  inner : σ
  trace : List (Call × Reply) := []

/-- The source inside is another one now, and a call is on record. -/
def Traced.record (call : Call) (reply : Reply) (inner : σ) (s : Traced σ) : Traced σ :=
  ⟨inner, s.trace ++ [(call, reply)]⟩

instance : Source (Traced σ) where
  read want s :=
    let (delivery, inner) := Source.read want s.inner
    (delivery, s.record (.read want) (.delivered delivery) inner)
  skip count s :=
    match Source.skip count s.inner with
    | .ok passed inner => .ok passed (s.record (.skip count) (.passed (.ok passed)) inner)
    | .error e inner => .error e (s.record (.skip count) (.passed (.error e)) inner)
  position s := Source.position s.inner
  size s :=
    let (size, inner) := Source.size s.inner
    (size, s.record .size (.size size) inner)
  seek target s :=
    match Source.seek target s.inner with
    | .ok _ inner => .ok () (s.record (.seek target) (.sought (.ok ())) inner)
    | .error e inner => .error e (s.record (.seek target) (.sought (.error e)) inner)

theorem perform_traced (call : Call) (s : Traced σ) :
    perform call s =
      let (reply, inner) := perform call s.inner
      (reply, s.record call reply inner) := by
  cases call with
  | read want | size => rfl
  | skip count =>
    simp only [perform, Source.skip]
    cases Source.skip count s.inner <;> rfl
  | seek target =>
    simp only [perform, Source.seek]
    cases Source.seek target s.inner <;> rfl

end Source

end Octet
