import Octet.Writer

/-!
# Scripts of writer calls

A script is a list of calls on one writer. Calls that reserve give out handles, which are numbered
in the order in which they are obtained, and corrections name the handles that they use.

A script is carried out in two ways: on a writer, and in a plan that knows of no offsets. The plan
lists the pieces of what is written and who corrects which of them to what, and is rendered at the
end.

## Main definitions

* `Script.Call`: the calls.
* `Script.Session`: a writer and the handles obtained from it.
* `Script.Plan`: the pieces and corrections of a script, `Script.Plan.render` its bytes.
-/

namespace Octet

/-- A value of some kind. -/
structure Datum where
  kind : Scalar
  value : kind.Value

def Datum.encode (datum : Datum) : Bytes := datum.kind.encode datum.value

namespace Script

/-- A handle for `count` values in a row. A session places it at an offset, a plan at the number
of a piece. -/
structure Handle where
  kind : Scalar
  /-- The number of values, or none for a single value. -/
  count : Option Nat
  place : Nat

/-- The place of a handle, if there is such a handle. -/
def lookup (handles : List Handle) (handle : Nat) (kind : Scalar) (count : Option Nat) :
    Option Nat :=
  handles[handle]?.bind fun found =>
    if found.kind = kind ∧ found.count = count then some found.place else none

/-- A call on a writer. Handles are given by number, and with the kind of their values. -/
inductive Call
  | append (data : Bytes)
  | write (t : Scalar) (value : t.Value)
  | writeList (t : Scalar) (values : List t.Value)
  | reserve (t : Scalar)
  | reserveArray (t : Scalar) (n : Nat)
  /-- Obtains a handle for one value of an array, unless the index is out of bounds. -/
  | slot (handle : Nat) (t : Scalar) (n index : Nat)
  | commit (handle : Nat) (t : Scalar) (value : t.Value)
  | commitArray (handle : Nat) (t : Scalar) (n : Nat) (values : Vector t.Value n)

def Call.isCommit : Call → Bool
  | .commit .. | .commitArray .. => true
  | _ => false

/-! ## On a writer -/

/-- A writer and the handles obtained from it. -/
structure Session (σ : Type) where
  writer : Writer σ
  handles : List Handle := []

namespace Session

variable {σ : Type}

/-- A writer on a sink, without handles. -/
def start (sink : σ) : Session σ := { writer := { sink } }

variable [Sink σ]

/-- Runs a correction and keeps its outcome. -/
def correct (act : Action (Writer σ) Unit) (s : Session σ) : Except Error Unit × Session σ :=
  match act s.writer with
  | .ok _ writer => (.ok (), { s with writer })
  | .error e writer => (.error e, { s with writer })

/-- Carries a call out and gives its outcome. There is none if a handle was not obtained. -/
def call (s : Session σ) : Call → Option (Except Error Unit × Session σ)
  | .append data => some (.ok (), { s with writer := s.writer.append data })
  | .write t value => some (.ok (), { s with writer := s.writer.write t value })
  | .writeList t values => some (.ok (), { s with writer := s.writer.writeList t values })
  | .reserve t =>
    let (slot, writer) := s.writer.reserve t
    some (.ok (), ⟨writer, s.handles ++ [⟨t, none, slot.offset⟩]⟩)
  | .reserveArray t n =>
    let (slots, writer) := s.writer.reserveArray t n
    some (.ok (), ⟨writer, s.handles ++ [⟨t, some n, slots.offset⟩]⟩)
  | .slot handle t n index => do
    let offset ← lookup s.handles handle t (some n)
    match (⟨offset⟩ : SlotArray t n).slot? index with
    | some slot => return (.ok (), { s with handles := s.handles ++ [⟨t, none, slot.offset⟩] })
    | none => return (.ok (), s)
  | .commit handle t value => do
    let offset ← lookup s.handles handle t none
    return s.correct (Writer.commit (t := t) ⟨offset⟩ value)
  | .commitArray handle t n values => do
    let offset ← lookup s.handles handle t (some n)
    return s.correct (Writer.commitArray (t := t) ⟨offset⟩ values)

/-- Carries a script out and gives the outcomes of its calls. -/
def run (s : Session σ) : List Call → Option (List (Except Error Unit) × Session σ)
  | [] => some ([], s)
  | call :: rest => do
    let (outcome, s) ← s.call call
    let (outcomes, s) ← s.run rest
    return (outcome :: outcomes, s)

end Session

/-! ## In a plan -/

/-- A piece of what a script writes: bytes that are known, or a value that is corrected. -/
inductive Piece
  | fixed (data : Bytes)
  | cell (t : Scalar)

/-- The bytes of a piece in the end, given the values committed to it. -/
def Piece.encode (piece : Piece) (commits : List Datum) : Bytes :=
  match piece with
  | fixed data => data
  | cell t => (commits.getLast?.map Datum.encode).getD (t.encode t.zero)

/-- The pieces and the handles of a script, and the values that it commits to the pieces. -/
structure Plan where
  pieces : List Piece := []
  handles : List Handle := []
  commits : List (Nat × Datum) := []

namespace Plan

/-- The commits of values to consecutive pieces. -/
def commitsFrom (t : Scalar) : Nat → List t.Value → List (Nat × Datum)
  | _, [] => []
  | place, value :: rest => (place, ⟨t, value⟩) :: commitsFrom t (place + 1) rest

/-- Plans a call, unless a handle was not obtained. -/
def call (plan : Plan) : Call → Option Plan
  | .append data => some { plan with pieces := plan.pieces ++ [.fixed data] }
  | .write t value => some { plan with pieces := plan.pieces ++ [.fixed (t.encode value)] }
  | .writeList t values =>
    some { plan with pieces := plan.pieces ++ [.fixed (t.encodeList values)] }
  | .reserve t => some { plan with
      pieces := plan.pieces ++ [.cell t]
      handles := plan.handles ++ [⟨t, none, plan.pieces.length⟩] }
  | .reserveArray t n => some { plan with
      pieces := plan.pieces ++ List.replicate n (.cell t)
      handles := plan.handles ++ [⟨t, some n, plan.pieces.length⟩] }
  | .slot handle t n index => do
    let place ← lookup plan.handles handle t (some n)
    if index < n then
      return { plan with handles := plan.handles ++ [⟨t, none, place + index⟩] }
    else
      return plan
  | .commit handle t value => do
    let place ← lookup plan.handles handle t none
    return { plan with commits := plan.commits ++ commitsFrom t place [value] }
  | .commitArray handle t n values => do
    let place ← lookup plan.handles handle t (some n)
    return { plan with commits := plan.commits ++ commitsFrom t place values.toList }

/-- Plans a script. Only those whose corrections use handles that were obtained before, for values
of the same kind, have a plan. -/
def run (plan : Plan) : List Call → Option Plan
  | [] => some plan
  | call :: rest => do (← plan.call call).run rest

/-- The values committed to a piece, in order. -/
def commitsTo (plan : Plan) (place : Nat) : List Datum :=
  (plan.commits.filter (·.1 = place)).map Prod.snd

/-- The bytes of the pieces, one by one, every value as it was committed last. -/
def encodings (plan : Plan) : List Bytes :=
  plan.pieces.mapIdx fun place piece => piece.encode (plan.commitsTo place)

/-- The bytes that a script leaves in the end. -/
def render (plan : Plan) : Bytes := plan.encodings.flatten

end Plan

end Script

end Octet
