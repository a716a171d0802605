import Octet.Connection.Basic
import Octet.Source.Basic

/-!
# Incoming bytes

The bytes that a connection has received are a source. Reading does not release them: a client
that finds a message incomplete drops the source and starts over when more has arrived.

## Main definitions

* `Incoming`: the source.
* `Connection.incoming`, `Incoming.consume`: the start of a session, and its end with release.
-/

namespace Octet

/-- The received bytes of a connection, with a cursor that never passes their end. -/
structure Incoming (τ : Type) where
  connection : Connection τ
  cursor : Nat := 0
  cursor_le : cursor ≤ connection.received.length := by simp

/-- Starts reading at the first byte that has not been released. -/
def Connection.incoming {τ : Type} (connection : Connection τ) : Incoming τ := { connection }

namespace Incoming

variable {τ : Type}

/-- The received bytes after the cursor. -/
def remaining (source : Incoming τ) : Bytes := source.connection.received.drop source.cursor

/-- Steps over `count` bytes, or to the end if fewer are left. -/
def advance (count : Nat) (source : Incoming τ) : Incoming τ where
  connection := source.connection
  cursor := source.cursor + min count source.remaining.length
  cursor_le := by
    have := source.cursor_le
    simp only [remaining, List.length_drop]
    omega

/-- Releases the bytes before the cursor. -/
def consume (source : Incoming τ) : Nat × Connection τ :=
  let c := source.connection
  (source.cursor, { c with
    received := c.received.drop source.cursor
    traffic := c.traffic.consumed source.cursor })

end Incoming

instance {τ : Type} : Source (Incoming τ) where
  read want source := (.ofBytes (source.remaining.take want), source.advance want)
  skip count source := .ok (min count source.remaining.length) (source.advance count)
  position := Incoming.cursor
  size source := (some source.connection.received.length, source)
  seek position source :=
    if h : position ≤ source.connection.received.length then
      .ok () { source with cursor := position, cursor_le := h }
    else .error (.seekOutOfRange position source.connection.received.length) source

end Octet
