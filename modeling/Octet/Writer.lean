import Octet.Scalar
import Octet.Sink.Basic

/-!
# Writers

Typed values written to a sink in a chain. The first call that fails spoils the writer: what
follows does nothing, and the outcome is asked for once at the end.

A value that is not known yet is written as a zero that holds its place. The slot remembers the
place, and a later commit puts the value there without moving the position.

## Main definitions

* `Slot`, `SlotArray`: the places of values to be committed.
* `Writer`: a sink and whether the chain has failed.
* `Writer.write`, `Writer.writeList`, `Writer.append`: appending.
* `Writer.capture`, `Writer.reserve`, `Writer.reserveArray`: slots.
* `Writer.commit`, `Writer.commitArray`: corrections.
-/

namespace Octet

/-- The place of one value. -/
structure Slot (t : Scalar) where
  offset : Nat
  deriving DecidableEq, Repr

/-- The place of `n` values in a row. -/
structure SlotArray (t : Scalar) (n : Nat) where
  offset : Nat
  deriving DecidableEq, Repr

def Slot.describe {t : Scalar} (slot : Slot t) : String :=
  s!"Backpatch \x7b offset: {slot.offset}, type: \"{t.name}\" \x7d"

namespace SlotArray

variable {t : Scalar} {n : Nat}

/-- The place of one value of the array. -/
def slot? (slots : SlotArray t n) (index : Nat) : Option (Slot t) :=
  if index < n then some ⟨slots.offset + index * t.width⟩ else none

def describe (slots : SlotArray t n) : String :=
  s!"RangePatch \x7b offset: {slots.offset}, len: {n} \x7d"

end SlotArray

/-- A sink at the end of a chain of calls. -/
structure Writer (σ : Type) where
  sink : σ
  /-- Whether a call of the chain has failed. -/
  failed : Bool := false

namespace Writer

variable {σ : Type}

def isOk (w : Writer σ) : Bool := !w.failed

variable [Sink σ]

/-- The offset at which the next byte lands. -/
def position (w : Writer σ) : Nat := Sink.position w.sink

def describe (w : Writer σ) : String :=
  s!"Writer \x7b position: {w.position}, failed: {w.failed} \x7d"

/-! ## Appending -/

/-- Appends bytes in one call of the sink. -/
def append (data : Bytes) (w : Writer σ) : Writer σ :=
  if w.failed then w
  else
    match Sink.write data w.sink with
    | .ok count sink => ⟨sink, count != data.length⟩
    | .error _ sink => ⟨sink, true⟩

/-- Appends one value. -/
def write (t : Scalar) (value : t.Value) (w : Writer σ) : Writer σ :=
  w.append (t.encode value)

/-- Appends several values in one call of the sink, without their count. -/
def writeList (t : Scalar) (values : List t.Value) (w : Writer σ) : Writer σ :=
  w.append (t.encodeList values)

/-! ## Slots -/

/-- The place of the value to be written next. -/
def capture (t : Scalar) (w : Writer σ) : Slot t := ⟨w.position⟩

/-- Holds the place of a value. -/
def reserve (t : Scalar) (w : Writer σ) : Slot t × Writer σ :=
  (w.capture t, w.write t t.zero)

/-- Holds the place of `n` values. -/
def reserveArray (t : Scalar) (n : Nat) (w : Writer σ) : SlotArray t n × Writer σ :=
  (⟨w.position⟩, w.writeList t (List.replicate n t.zero))

/-! ## Corrections -/

/-- Puts a value into its slot. A slot that lies outside the written bytes is refused and leaves
the writer as it was; any other error spoils it. -/
def commit {t : Scalar} (slot : Slot t) (value : t.Value) : Action (Writer σ) Unit := fun w =>
  if w.failed then .error .writerFailed w
  else
    match Sink.overwrite slot.offset (t.encode value) w.sink with
    | .ok count sink =>
      if count = t.width then .ok () ⟨sink, false⟩
      else .error (.writeChain slot.offset) ⟨sink, true⟩
    | .error e sink => .error e ⟨sink, !e.isPatchOutOfRange⟩

/-- Puts values into slots that follow one another, up to the first that is refused. -/
def commitFrom (t : Scalar) (offset : Nat) : List t.Value → Action (Writer σ) Unit
  | [] => pure ()
  | value :: rest => do
    commit ⟨offset⟩ value
    commitFrom t (offset + t.width) rest

/-- Puts a value into every slot of an array. -/
def commitArray {t : Scalar} {n : Nat} (slots : SlotArray t n) (values : Vector t.Value n) :
    Action (Writer σ) Unit :=
  commitFrom t slots.offset values.toList

/-! ## Outcome -/

/-- The outcome of the chain so far. -/
def finish : Action (Writer σ) Unit := fun w =>
  if w.failed then .error (.writeChain w.position) w else .ok () w

/-- Flushes the sink, unless the chain has failed. -/
def flush : Action (Writer σ) Unit := fun w =>
  if w.failed then .error .writerFailed w
  else
    match Sink.flush w.sink with
    | .ok _ sink => .ok () ⟨sink, false⟩
    | .error e sink => .error e ⟨sink, true⟩

end Writer

end Octet
