import Octet.Proofs.Sink.Contract

/-!
# The contents of a buffer

A buffer holds its contents, and no call inside them fails.

## Main definitions

* `Buffer.Holds`: what a buffer holds.

## Main statements

* `Buffer.tracked`: the contract of sinks, without a state after a failure.
-/

namespace Octet

namespace Buffer

/-- A buffer holds what it contains. -/
def Holds (buffer : Buffer) (content : Bytes) : Prop := buffer.content = content

theorem tracked : Sink.Tracked Holds fun _ _ => False where
  position h := congrArg List.length h
  write data h := by
    obtain rfl := h
    simp [Sink.write, Holds]
  overwrite data h hle := by
    obtain rfl := h
    simp [Sink.overwrite, checkPatch, hle, Holds]
  flush _ := Action.ends_of_ok rfl trivial

end Buffer

end Octet
