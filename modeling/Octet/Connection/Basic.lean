import Octet.Action
import Octet.Bytes

/-!
# Connections

A transport with a buffer for each direction. Messages are built in memory and sent whole; what
arrives is kept until a reader has used it.

## Main definitions

* `Transport`: the layer below, which takes all of a message or nothing.
* `Traffic`: the counters of a connection.
* `Connection`: transport, buffers and counters.
-/

namespace Octet

/-- The layer below a connection. Sending takes all of the bytes or is refused. -/
class Transport (τ : Type) where
  send : Bytes → Action τ Unit

/-- What has passed through a connection. -/
structure Traffic where
  /-- Messages that the transport took. -/
  messagesSent : Nat := 0
  bytesSent : Nat := 0
  /-- Messages that the transport refused. -/
  sendErrors : Nat := 0
  /-- Messages given up before they were sent. -/
  messagesDiscarded : Nat := 0
  bytesDiscarded : Nat := 0
  bytesReceived : Nat := 0
  /-- Received bytes that were read and released. -/
  bytesConsumed : Nat := 0
  deriving DecidableEq, Repr

namespace Traffic

def sent (count : Nat) (traffic : Traffic) : Traffic :=
  { traffic with
    messagesSent := traffic.messagesSent + 1
    bytesSent := traffic.bytesSent + count }

def refused (traffic : Traffic) : Traffic :=
  { traffic with sendErrors := traffic.sendErrors + 1 }

def discarded (count : Nat) (traffic : Traffic) : Traffic :=
  { traffic with
    messagesDiscarded := traffic.messagesDiscarded + 1
    bytesDiscarded := traffic.bytesDiscarded + count }

def received (count : Nat) (traffic : Traffic) : Traffic :=
  { traffic with bytesReceived := traffic.bytesReceived + count }

def consumed (count : Nat) (traffic : Traffic) : Traffic :=
  { traffic with bytesConsumed := traffic.bytesConsumed + count }

end Traffic

/-- A transport with its buffers. -/
structure Connection (τ : Type) where
  transport : τ
  /-- The most bytes that one message may have. -/
  limit : Nat
  /-- Bytes staged for sending while no message is being built. -/
  staged : Bytes := []
  /-- Bytes received and not released yet. -/
  received : Bytes := []
  traffic : Traffic := {}

namespace Connection

variable {τ : Type}

/-- Takes in bytes that the transport delivers. -/
def receive (data : Bytes) (c : Connection τ) : Connection τ :=
  { c with received := c.received ++ data, traffic := c.traffic.received data.length }

/-- Hands bytes to the transport and counts the outcome. -/
def transmit [Transport τ] (data : Bytes) : Action (Connection τ) Unit := fun c =>
  match Transport.send data c.transport with
  | .ok _ transport => .ok () { c with transport, traffic := c.traffic.sent data.length }
  | .error e transport => .error e { c with transport, traffic := c.traffic.refused }

end Connection

end Octet
