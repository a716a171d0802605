import Octet.Scalar
import Octet.Source.Basic

/-!
# Readers

Typed values read from a source in a chain. The first short or failing read spoils the reader:
what follows reads nothing and leaves its outputs alone.

## Main definitions

* `Reader`: a source and whether the chain has failed.
* `Reader.fill`: the one read below all the others.
* `Reader.read`, `Reader.read?`, `Reader.readArray`, `Reader.readBytes`, `Reader.readInto`,
  `Reader.skip`.
-/

namespace Octet

/-- A source at the end of a chain of calls. -/
structure Reader (σ : Type) where
  source : σ
  /-- Whether a call of the chain has failed. -/
  failed : Bool := false

/-- The outcome of filling a cleared buffer of `want` bytes. -/
structure Filled where
  want : Nat
  delivery : Delivery
  isComplete : Bool

/-- The buffer afterwards. -/
def Filled.bytes (filled : Filled) : Bytes := filled.delivery.stored filled.want

namespace Reader

variable {σ : Type}

def isOk (r : Reader σ) : Bool := !r.failed

/-- Runs an action of the source, past the chain. -/
def onSource {α : Type} : Action σ α → Action (Reader σ) α :=
  Action.on source fun source r => { r with source }

variable [Source σ]

/-- The offset of the next byte to be read. -/
def position (r : Reader σ) : Nat := Source.position r.source

def describe (r : Reader σ) : String :=
  s!"Reader \x7b position: {r.position}, failed: {r.failed} \x7d"

/-! ## Reading -/

/-- Fills a buffer of `want` bytes in one call of the source. -/
def fill (want : Nat) (r : Reader σ) : Filled × Reader σ :=
  if r.failed then (⟨want, .ofBytes [], false⟩, r)
  else
    let (delivery, source) := Source.read want r.source
    (⟨want, delivery, delivery.isComplete want⟩, ⟨source, !delivery.isComplete want⟩)

/-- Reads one value; `current` stays if the read fails. -/
def read (t : Scalar) (current : t.Value) (r : Reader σ) : t.Value × Reader σ :=
  let (filled, r) := r.fill t.width
  (if filled.isComplete then t.decode filled.bytes else current, r)

/-- Reads one value, or none if the chain has failed. -/
def read? (t : Scalar) (r : Reader σ) : Option t.Value × Reader σ :=
  let (filled, r) := r.fill t.width
  (if filled.isComplete then some (t.decode filled.bytes) else none, r)

/-- Reads several values in one call of the source; all of `current` stays if it fails. -/
def readArray (t : Scalar) {n : Nat} (current : Vector t.Value n) (r : Reader σ) :
    Vector t.Value n × Reader σ :=
  let (filled, r) := r.fill (n * t.width)
  (if filled.isComplete then
    ⟨(t.decodeList n filled.bytes).toArray, by simp⟩
  else current, r)

/-- Reads bytes into a cleared buffer. A short read leaves what did arrive. -/
def readBytes (want : Nat) (r : Reader σ) : Bytes × Reader σ :=
  let (filled, r) := r.fill want
  (filled.bytes, r)

/-- Reads bytes into a buffer with contents of its own. -/
def readInto (buffer : Bytes) (r : Reader σ) : Bytes × Reader σ :=
  let (filled, r) := r.fill buffer.length
  (filled.delivery.storedIn buffer, r)

/-- Passes over bytes. -/
def skipBytes (count : Nat) (r : Reader σ) : Reader σ :=
  if r.failed then r
  else
    match Source.skip count r.source with
    | .ok passed source => ⟨source, passed != count⟩
    | .error _ source => ⟨source, true⟩

/-- Passes over one value. -/
def skip (t : Scalar) (r : Reader σ) : Reader σ := r.skipBytes t.width

/-! ## Outcome -/

/-- The outcome of the chain so far. -/
def finish : Action (Reader σ) Unit := fun r =>
  if r.failed then .error (.readChain r.position) r else .ok () r

end Reader

end Octet
