import Mathlib.Algebra.GroupWithZero.Nat
import Octet.Proofs.Connection.Dealing

/-!
# The counters of a connection

Every counter agrees with what happened: with what the transport was asked to send and what it took,
with what was written and given up, with what arrived and was released. The agreement is kept by
each change of a counter, so by every call on a message, and by every dealing with a connection.

## Main definitions

* `Traffic.Balances`: the agreement.
* `Entry.written`, `Entry.abandons`: what a record says was written, and whether bytes were given
  up.

## Main statements

* `Outgoing.Balanced.leads`: the calls on a message keep the agreement.
* `Connection.traffic_balances`: so do all dealings, and every moment of a message in between.
-/

namespace Octet

/-! ## What the records say -/

/-- The count of bytes that a call has written. -/
def Sink.written : Sink.Event → Nat
  | (.write data, .ok _) => data.length
  | _ => 0

/-- The count of bytes that were written in a session. -/
def Entry.written : Entry → Nat
  | .sent trace => (trace.map Sink.written).sum
  | _ => 0

/-- Whether a message was dropped with bytes still staged. -/
def Entry.abandons : Entry → Bool
  | .sent trace => (Ledger.ofEvents trace).staged ≠ []
  | _ => false

/-! ## The counters -/

/-- The counters agree with what was sent, with the count of bytes written and of messages dropped
with bytes staged, and with the counts of the bytes that are staged now and that are pending. -/
structure Traffic.Balances (sends : List Send) (written dropped staged pending : Nat)
    (traffic : Traffic) : Prop where
  received : traffic.bytesReceived = traffic.bytesConsumed + pending
  written : written = traffic.bytesSent + traffic.bytesDiscarded + staged
  bytesSent : traffic.bytesSent = (Send.taken sends).length
  messagesSent : traffic.messagesSent = (sends.filter Send.accepted).length
  attempts : traffic.messagesSent + traffic.sendErrors = sends.length
  dropped : traffic.messagesDiscarded = dropped

namespace Traffic

variable {sends : List Send} {written dropped staged pending : Nat} {traffic : Traffic}

theorem balances_start : Balances [] 0 0 0 0 {} := by
  constructor <;> rfl

theorem Balances.wrote (h : Balances sends written dropped staged pending traffic) (count : Nat) :
    Balances sends (written + count) dropped (staged + count) pending traffic where
  received := h.received
  written := by rw [h.written, Nat.add_assoc]
  bytesSent := h.bytesSent
  messagesSent := h.messagesSent
  attempts := h.attempts
  dropped := h.dropped

theorem Balances.sent {payload : Bytes}
    (h : Balances sends written dropped payload.length pending traffic) :
    Balances (sends ++ [⟨payload, true⟩]) written dropped 0 pending
      (traffic.sent payload.length) := by
  obtain ⟨hreceived, hwritten, hbytes, hmessages, hattempts, hdropped⟩ := h
  constructor <;> simp [Traffic.sent, Send.taken] at * <;> omega

theorem Balances.refused (h : Balances sends written dropped staged pending traffic)
    (payload : Bytes) :
    Balances (sends ++ [⟨payload, false⟩]) written dropped staged pending traffic.refused := by
  obtain ⟨hreceived, hwritten, hbytes, hmessages, hattempts, hdropped⟩ := h
  constructor <;> simp [Traffic.refused, Send.taken] at * <;> omega

theorem Balances.discarded (h : Balances sends written dropped staged pending traffic) :
    Balances sends written (dropped + 1) 0 pending (traffic.discarded staged) := by
  obtain ⟨hreceived, hwritten, hbytes, hmessages, hattempts, hdropped⟩ := h
  constructor <;> simp [Traffic.discarded] at * <;> omega

theorem Balances.arrived (h : Balances sends written dropped staged pending traffic)
    (count : Nat) :
    Balances sends written dropped staged (pending + count) (traffic.received count) := by
  obtain ⟨hreceived, hwritten, hbytes, hmessages, hattempts, hdropped⟩ := h
  constructor <;> simp [Traffic.received] at * <;> omega

theorem Balances.released (h : Balances sends written dropped staged pending traffic)
    {count : Nat} (hle : count ≤ pending) :
    Balances sends written dropped staged (pending - count) (traffic.consumed count) := by
  obtain ⟨hreceived, hwritten, hbytes, hmessages, hattempts, hdropped⟩ := h
  constructor <;> simp [Traffic.consumed] at * <;> omega

end Traffic

/-! ## Messages -/

namespace Outgoing

variable {τ : Type} {written dropped : Nat} {message next : Outgoing (Recorded τ)}

/-- The counters agree while a message is being built. -/
def Balanced (written dropped : Nat) (message : Outgoing (Recorded τ)) : Prop :=
  message.connection.traffic.Balances message.connection.sends written dropped
    message.staged.length message.connection.received.length

/-- Bytes that are still staged at the end are discarded. -/
theorem Balanced.close (h : Balanced written dropped message) :
    message.close.traffic.Balances message.close.sends written
      (dropped + if message.staged = [] then 0 else 1) 0 message.close.received.length := by
  unfold Balanced at h
  by_cases hstaged : message.staged = []
  · simpa [Outgoing.close, hstaged, Connection.sends] using h
  · simpa [Outgoing.close, hstaged, Connection.sends] using h.discarded

variable [Transport τ]

theorem Balanced.perform (h : Balanced written dropped message) (call : Sink.Call) :
    (Sink.perform call).Ends message
      (fun count next => Balanced (written + Sink.written (call, .ok count)) dropped next)
      (fun e next => Balanced (written + Sink.written (call, .error e)) dropped next) := by
  cases call with
  | write data =>
    apply (message.write_ends data).mono
    · rintro _ _ ⟨-, -, rfl⟩
      simpa [Balanced, Sink.written, Connection.sends] using h.wrote data.length
    · rintro _ _ ⟨-, -, rfl⟩
      exact h
  | overwrite offset data =>
    apply (message.overwrite_ends offset data).mono
    · rintro _ _ ⟨-, hle, rfl⟩
      have hlen := Bytes.length_overlay_of_le hle
      simpa [Balanced, Sink.written, Connection.sends, hlen] using h
    · rintro _ _ ⟨-, -, rfl⟩
      exact h
  | flush =>
    rw [Sink.perform, Action.ends_bind, ends_flush]
    split
    next => exact h
    next =>
      simp only [Transport.send]
      cases Transport.send message.staged message.connection.transport.inner with
      | ok _ inner => exact h.sent
      | error e inner => exact h.refused message.staged

theorem Balanced.leads {trace : List Sink.Event} (h : Balanced written dropped message)
    (htrace : Sink.Leads message trace next) :
    Balanced (written + (trace.map Sink.written).sum) dropped next := by
  induction htrace generalizing written with
  | nil message => exact h
  | @cons call message _ _ _ ih =>
    rw [List.map_cons, List.sum_cons, ← Nat.add_assoc]
    apply ih
    exact Sink.step_of_ends
      (fun outcome next => Balanced (written + Sink.written (call, outcome)) dropped next)
      (h.perform call)

end Outgoing

/-! ## Dealings -/

namespace Connection

variable {τ α β : Type} {entries : List Entry} {c : Connection (Recorded τ)}

/-- Between two dealings nothing is staged, and the counters agree with the record. -/
structure Balanced (entries : List Entry) (c : Connection (Recorded τ)) : Prop where
  staged : c.staged = []
  traffic : c.traffic.Balances c.sends (entries.map Entry.written).sum
    (entries.countP Entry.abandons) 0 c.received.length

variable [Transport τ]

/-- A message that is being built adds what was written to it. -/
theorem Balanced.leads (h : Balanced entries c) {trace : List Sink.Event}
    {message : Outgoing (Recorded τ)} (htrace : Sink.Leads c.outgoing trace message) :
    message.Balanced ((entries.map Entry.written).sum + (trace.map Sink.written).sum)
      (entries.countP Entry.abandons) := by
  have hstart : c.outgoing.Balanced (entries.map Entry.written).sum
      (entries.countP Entry.abandons) := by
    simpa [Outgoing.Balanced, outgoing, h.staged, sends] using h.traffic
  exact hstart.leads htrace

theorem Balanced.deal (h : Balanced entries c) (dealing : Dealing (Recorded τ)) :
    Balanced (entries ++ (deal dealing c).events) (Connection.deal dealing c).state := by
  cases dealing with
  | send session =>
    obtain ⟨trace, message, hevents, htrace, hstate⟩ := hold_leads session c
    have hclosed := (h.leads htrace).close
    have hledger := ((accounts_of_staged c h.staged).leads htrace).staged
    refine ⟨?_, ?_⟩
    · simp [Connection.deal, hstate]
    · rw [hledger] at hclosed
      simp only [Connection.deal, hstate, hevents, List.map_cons, List.map_nil, List.map_append,
        List.sum_append, List.sum_singleton, List.countP_append, List.countP_singleton]
      by_cases hstaged : (Ledger.ofEvents trace).staged = []
      · simpa [hstaged, Entry.written, Entry.abandons] using hclosed
      · simpa [hstaged, Entry.written, Entry.abandons] using hclosed
  | receive fragment =>
    refine ⟨h.staged, ?_⟩
    simpa [Connection.deal, receive, sends, Entry.written, Entry.abandons]
      using h.traffic.arrived fragment.length
  | read client =>
    cases hreleased : (client.run Source.step c.incoming).outcome with
    | false => simpa [deal_read_of_not_released hreleased] using h
    | true =>
      have hle := (client.run Source.step c.incoming).state.cursor_le
      rw [Incoming.connection_run] at hle
      refine ⟨?_, ?_⟩
      · simpa [Connection.deal, hreleased, Incoming.consume, Incoming.connection_run]
          using h.staged
      · simpa [Connection.deal, hreleased, Incoming.consume, Incoming.connection_run, sends,
          Entry.written, Entry.abandons] using h.traffic.released hle

/-- Whatever a client of a fresh connection does, and whichever messages the transport refuses, the
counters balance between two dealings, and at every moment of one more message. Received bytes were
consumed or are pending; written bytes were sent or discarded or are staged. The transport took just
the messages and bytes that are counted as sent, and was asked for these and the errors together. A
message counts as discarded if it was dropped with bytes staged, which its calls tell. A session on
the received bytes leaves all of this as it is until it ends. -/
theorem traffic_balances (transport : τ) (limit : Nat)
    (client : Client (Dealing (Recorded τ)) (Except Error Nat) (Connection (Recorded τ)) α) :
    let dealt := client.run deal { transport := ⟨transport, []⟩, limit }
    let c := dealt.state
    let written := (dealt.events.map Entry.written).sum
    let dropped := dealt.events.countP Entry.abandons
    c.traffic.Balances c.sends written dropped 0 c.received.length ∧
      (∀ trace message, Sink.Leads c.outgoing trace message →
        message.staged = (Ledger.ofEvents trace).staged ∧
          message.connection.traffic.Balances message.connection.sends
            (written + (trace.map Sink.written).sum) dropped message.staged.length
            message.connection.received.length) ∧
      ∀ reading : Client Source.Call Source.Reply (Incoming (Recorded τ)) β,
        (reading.run Source.step c.incoming).state.connection = c := by
  intro dealt c written dropped
  have hstart : Balanced [] ({ transport := ⟨transport, []⟩, limit } : Connection (Recorded τ)) :=
    ⟨rfl, Traffic.balances_start⟩
  have hdealt : Balanced dealt.events c :=
    client.run_invariant deal Balanced (fun dealing _ _ h => h.deal dealing) [] hstart
  refine ⟨hdealt.traffic, fun trace message htrace => ⟨?_, hdealt.leads htrace⟩, fun reading => ?_⟩
  · exact ((accounts_of_staged c hdealt.staged).leads htrace).staged
  · exact Incoming.connection_run reading c

end Connection

end Octet
