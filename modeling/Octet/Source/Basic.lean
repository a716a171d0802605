import Octet.Action
import Octet.Bytes

/-!
# Sources

Origins of bytes. A source hands out bytes from its position on; handing out fewer than asked is
how it says that it is exhausted. Some sources also know their size and can be sought.

## Main definitions

* `Delivery`: what one read brings.
* `Source`: the operations.
* `Cursor`: the source that walks over a byte string in memory.
-/

namespace Octet

/-- What one read brings: the bytes that arrived, and the count or the error that the source
reports. Bytes may have arrived before an error. -/
structure Delivery where
  bytes : Bytes
  count : Except Error Nat

namespace Delivery

/-- A read that brings exactly these bytes. -/
def ofBytes (bytes : Bytes) : Delivery := ⟨bytes, .ok bytes.length⟩

/-- Whether the source reports that everything asked for is there. -/
def isComplete (want : Nat) (d : Delivery) : Bool :=
  match d.count with
  | .ok count => count == want
  | .error _ => false

/-- A cleared buffer of `want` bytes after the bytes were stored in it. -/
def stored (want : Nat) (d : Delivery) : Bytes :=
  (d.bytes ++ List.replicate (want - d.bytes.length) 0).take want

/-- A buffer after the bytes were stored in it. What they do not reach stays. -/
def storedIn (buffer : Bytes) (d : Delivery) : Bytes :=
  (d.bytes ++ buffer.drop d.bytes.length).take buffer.length

/-- The delivery of two reads in a row, the first of which brought `bytes`. -/
def after (bytes : Bytes) (d : Delivery) : Delivery :=
  ⟨bytes ++ d.bytes, d.count.map (bytes.length + ·)⟩

@[simp] theorem length_stored (want : Nat) (d : Delivery) : (d.stored want).length = want := by
  simp only [stored, List.length_take, List.length_append, List.length_replicate]
  omega

end Delivery

/-- The operations of an origin of bytes. -/
class Source (σ : Type) where
  /-- Asks for a number of bytes. -/
  read : Nat → σ → Delivery × σ
  /-- Passes over bytes and gives the count passed. -/
  skip : Nat → Action σ Nat
  /-- The offset of the next byte to be read. -/
  position : σ → Nat
  /-- The size of the whole, where it is known. -/
  size : σ → Option Nat × σ := fun s => (none, s)
  /-- Moves the position, where the source allows it. -/
  seek : Nat → Action σ Unit := fun _ => throw .unseekable

/-- Refuses a position past the end. -/
def checkSeek (position size : Nat) : Except Error Unit :=
  if position ≤ size then .ok () else .error (.seekOutOfRange position size)

/-- A source that walks over a byte string, never past its end. -/
structure Cursor where
  data : Bytes
  position : Nat := 0
  position_le : position ≤ data.length := by exact Nat.zero_le _

namespace Cursor

/-- The bytes not read yet. -/
def remaining (c : Cursor) : Bytes := c.data.drop c.position

/-- Steps over `count` bytes, or to the end if fewer are left. -/
def advance (count : Nat) (c : Cursor) : Cursor where
  data := c.data
  position := c.position + min count c.remaining.length
  position_le := by
    have := c.position_le
    simp only [remaining, List.length_drop]
    omega

end Cursor

instance : Source Cursor where
  read want c := (.ofBytes (c.remaining.take want), c.advance want)
  skip count c := .ok (min count c.remaining.length) (c.advance count)
  position := Cursor.position
  size c := (some c.data.length, c)
  seek position c :=
    if h : position ≤ c.data.length then .ok () { c with position, position_le := h }
    else .error (.seekOutOfRange position c.data.length) c

end Octet
