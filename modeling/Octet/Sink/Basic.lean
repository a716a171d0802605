import Octet.Action
import Octet.Bytes

/-!
# Sinks

Destinations of bytes. A sink appends, corrects bytes that it holds already, and knows where the
next byte lands.

## Main definitions

* `Sink`: the operations.
* `checkPatch`: the test that every correction passes first.
* `Buffer`: the sink that keeps everything in memory.
-/

namespace Octet

/-- The operations of a destination of bytes. -/
class Sink (σ : Type) where
  /-- Appends bytes and gives the count accepted; less than all of them is a failure. -/
  write : Bytes → Action σ Nat
  /-- Replaces written bytes from an offset on, without moving the position. -/
  overwrite : Nat → Bytes → Action σ Nat
  /-- The offset at which the next byte lands. -/
  position : σ → Nat
  /-- Hands what is staged to whatever lies behind the sink. -/
  flush : Action σ Unit

/-- Refuses a correction that reaches past `stop`, where the written bytes end. -/
def checkPatch (offset width stop : Nat) : Except Error Unit :=
  if offset + width ≤ stop then .ok ()
  else .error (.patchOutOfRange offset width stop)

/-- A sink that keeps its contents in memory. What it holds at first counts as written. -/
structure Buffer where
  content : Bytes := []
  deriving DecidableEq, Repr

instance : Sink Buffer where
  write data := do
    modify fun buffer => { buffer with content := buffer.content ++ data }
    return data.length
  overwrite offset data := do
    Action.conclude (checkPatch offset data.length (← get).content.length)
    modify fun buffer => { buffer with content := buffer.content.overlay offset data }
    return data.length
  position buffer := buffer.content.length
  flush := pure ()

end Octet
