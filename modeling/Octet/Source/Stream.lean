import Octet.Source.Basic
import Octet.Stream

/-!
# Sources on streams

A source that reads from a stream. It tracks its position on its own, and learns the size by
seeking to the end and back, once that has succeeded never again.

## Main definitions

* `Stream.readUpTo`: reads until enough bytes have arrived or the stream is exhausted.
* `StreamSource`: the source.
-/

namespace Octet

namespace Stream

theorem get_faults {want : Nat} {s next : Stream} {answer : Transfer Bytes}
    (h : s.get want = (answer, next)) : next.faults = s.faults := by
  simp only [get] at h
  split at h <;> cases h <;> rfl

theorem get_transfers {want : Nat} {s next : Stream} {answer : Transfer Bytes}
    (h : s.get want = (answer, next)) : next.transfers = s.transfers + 1 := by
  simp only [get] at h
  split at h <;> cases h <;> rfl

/-- Only an interrupted transfer is to be tried again. -/
theorem get_interrupted {want : Nat} {s next : Stream} {answer : Transfer Bytes}
    (h : s.get want = (answer, next)) :
    s.faults.transfer s.transfers = .interrupted ↔ answer = .interrupted := by
  simp only [get] at h
  split at h <;> cases h <;> simp [*]

/-- Reads until `want` bytes have arrived. An interrupted transfer is tried again; one that
brings nothing ends the read, one that fails does so with an error after what has arrived. -/
def readUpTo (want : Nat) (s : Stream) : Delivery × Stream :=
  if want = 0 then (.ofBytes [], s)
  else
    match _h : s.get want with
    | (.done bytes, next) =>
      if bytes = [] then (.ofBytes [], next)
      else
        let rest := readUpTo (want - bytes.length) next
        (rest.1.after bytes, rest.2)
    | (.interrupted, next) => readUpTo want next
    | (.failed fault, next) => (⟨[], .error (.stream fault)⟩, next)
termination_by s.faults.attempts s.transfers want
decreasing_by
  · have hpos := List.length_pos_iff.mpr ‹bytes ≠ []›
    rw [get_faults _h, get_transfers _h]
    exact Faults.attempts_lt_of_not_interrupted (mt (get_interrupted _h).mp nofun) (by omega)
  · rw [get_faults _h, get_transfers _h,
      Faults.attempts_of_interrupted ((get_interrupted _h).mpr rfl) (by omega)]
    exact Nat.lt_succ_self _

end Stream

/-- A source that reads from a stream. -/
structure StreamSource where
  stream : Stream
  position : Nat
  /-- The size, once it has been found. -/
  known : Option Nat := none

namespace StreamSource

/-- A source on a stream, starting at the stream's cursor. -/
def ofStream (stream : Stream) : Except Error StreamSource :=
  match stream.seek (.here 0) with
  | .ok position stream => .ok { stream, position }
  | .error e _ => .error e

/-- Runs an action of the stream. -/
def onStream {α : Type} : Action Stream α → Action StreamSource α :=
  Action.on stream fun stream source => { source with stream }

def read (want : Nat) (source : StreamSource) : Delivery × StreamSource :=
  let (delivery, stream) := source.stream.readUpTo want
  (delivery, { source with stream, position := source.position + delivery.bytes.length })

/-- Looks for the size at the end of the stream and returns to the position. -/
def probe : Action StreamSource Nat := do
  let size ← onStream (Stream.seek (.stop 0))
  let _ ← onStream (Stream.seek (.start (← get).position))
  modify fun source => { source with known := some size }
  return size

/-- The size, if it is known already or a probe succeeds. -/
def size (source : StreamSource) : Option Nat × StreamSource :=
  match source.known with
  | some size => (some size, source)
  | none =>
    match probe source with
    | .ok size source => (some size, source)
    | .error _ source => (none, source)

/-- Passes over bytes by seeking. Where the size is known, no further than to the end. The
distance is sent to the stream as a signed number of 64 bits. -/
def skip (count : Nat) : Action StreamSource Nat := do
  let size ← modifyGet size
  let position := (← get).position
  let count : Nat :=
    match size with
    | some size => min count (size - position)
    | none => count
  let _ ← onStream (Stream.seek (.here ((count : Int).bmod UInt64.size)))
  modify fun source => { source with position := source.position + count }
  return count

/-- Moves the position. Where the size is known, no further than to the end. -/
def seek (position : Nat) : Action StreamSource Unit := do
  if let some size ← modifyGet size then
    Action.conclude (checkSeek position size)
  let _ ← onStream (Stream.seek (.start position))
  modify fun source => { source with position }

end StreamSource

instance : Source StreamSource where
  read := StreamSource.read
  skip := StreamSource.skip
  position := StreamSource.position
  size := StreamSource.size
  seek := StreamSource.seek

end Octet
