import Octet.Connection.Basic
import Octet.Writer

/-!
# Outgoing messages

A message under construction is a sink. Nothing reaches the transport before a flush, so that the
message can be corrected freely; a flush sends what is staged and starts over at position zero.

## Main definitions

* `Outgoing`: the sink.
* `Connection.outgoing`, `Outgoing.close`: the start and the end of a session.
* `Connection.sendWith`: a message built by a writer and sent only if all went well.
-/

namespace Octet

/-- A message under construction. -/
structure Outgoing (τ : Type) where
  connection : Connection τ
  staged : Bytes

/-- Starts a message. It takes the connection's staged bytes over. -/
def Connection.outgoing {τ : Type} (c : Connection τ) : Outgoing τ :=
  ⟨{ c with staged := [] }, c.staged⟩

namespace Outgoing

variable {τ : Type}

/-- Ends a session. Bytes that are still staged are given up. -/
def close (message : Outgoing τ) : Connection τ :=
  let c := { message.connection with staged := [] }
  if message.staged = [] then c
  else { c with traffic := c.traffic.discarded message.staged.length }

/-- Stages bytes, all of them or, where the limit would be passed, none. -/
def write (data : Bytes) : Action (Outgoing τ) Nat := do
  let message ← get
  let requested := message.staged.length + data.length
  if message.connection.limit < requested then
    throw (.sendOverflow requested message.connection.limit)
  set { message with staged := message.staged ++ data }
  return data.length

/-- Corrects staged bytes. -/
def overwrite (offset : Nat) (data : Bytes) : Action (Outgoing τ) Nat := do
  Action.conclude (checkPatch offset data.length (← get).staged.length)
  modify fun message => { message with staged := message.staged.overlay offset data }
  return data.length

/-- Sends what is staged, if anything is. Bytes that the transport refuses stay staged. -/
def flush [Transport τ] : Action (Outgoing τ) Unit := do
  let staged := (← get).staged
  unless staged = [] do
    Action.on connection (fun connection message => { message with connection })
      (Connection.transmit staged)
    modify fun message => { message with staged := [] }

end Outgoing

instance {τ : Type} [Transport τ] : Sink (Outgoing τ) where
  write := Outgoing.write
  overwrite := Outgoing.overwrite
  position message := message.staged.length
  flush := Outgoing.flush

/-- Builds a message and sends it, unless building fails or spoils the writer. A state `κ` of the
client's goes along. -/
def Connection.sendWith {κ τ : Type} [Transport τ]
    (build : Action (κ × Writer (Outgoing τ)) Unit) : Action (κ × Connection τ) Unit :=
  Action.on (fun (k, c) => (k, Writer.mk c.outgoing false))
    (fun (k, w) _ => (k, w.sink.close)) do
      build
      Action.onSnd Writer.finish
      Action.onSnd Writer.flush

end Octet
