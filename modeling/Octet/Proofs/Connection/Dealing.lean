import Octet.Proofs.Connection.Session
import Octet.Proofs.Source.Incoming

/-!
# Dealings with a connection

A client of a connection sends messages, has bytes delivered to it, and reads what has arrived. All
that was ever delivered is, in order, what was released so far and then what is still pending.
Nothing but a release takes a byte out, and every read finds its bytes where the whole stream has
them.

## Main definitions

* `Dealing`: what a client may do, `Connection.deal` what it brings.
* `Entry`: the record of it, with `arrivals` and `releases` the bytes that came in and went out.

## Main statements

* `Connection.releases_append_received`: no byte is lost, repeated or moved on the way in.
-/

namespace Octet

/-- What a client does with a connection. -/
inductive Dealing (τ : Type)
  | send (session : Session τ)
  /-- The transport delivers bytes. -/
  | receive (fragment : Bytes)
  /-- A session on the received bytes. In the end the client says whether what it has read is to be
  released; otherwise the source is dropped. -/
  | read (client : Client Source.Call Source.Reply (Incoming τ) Bool)

/-- What is recorded of a dealing. A source that is dropped leaves no entry. -/
inductive Entry
  /-- The calls on a message, from the start of its session to the end. -/
  | sent (trace : List Sink.Event)
  | arrived (fragment : Bytes)
  | released (bytes : Bytes)

/-- All bytes that were delivered, in order. -/
def arrivals (entries : List Entry) : Bytes :=
  entries.flatMap fun
    | .arrived fragment => fragment
    | _ => []

/-- All bytes that were released, in order. -/
def releases (entries : List Entry) : Bytes :=
  entries.flatMap fun
    | .released bytes => bytes
    | _ => []

namespace Outgoing

variable {τ : Type}

@[simp] theorem close_received (message : Outgoing τ) :
    message.close.received = message.connection.received := by
  unfold close
  dsimp only
  split <;> rfl

variable [Transport τ] {message next : Outgoing τ}

/-- No call on a message touches the bytes on their way in. -/
theorem perform_received (message : Outgoing τ) (call : Sink.Call) :
    (Sink.perform call).Ends message
      (fun _ next => next.connection.received = message.connection.received)
      (fun _ next => next.connection.received = message.connection.received) := by
  cases call with
  | write data =>
    apply (message.write_ends data).mono
    · rintro _ _ ⟨-, -, rfl⟩
      rfl
    · rintro _ _ ⟨-, -, rfl⟩
      rfl
  | overwrite offset data =>
    apply (message.overwrite_ends offset data).mono
    · rintro _ _ ⟨-, -, rfl⟩
      rfl
    · rintro _ _ ⟨-, -, rfl⟩
      rfl
  | flush =>
    rw [Sink.perform, Action.ends_bind, ends_flush]
    split
    next => rfl
    next =>
      dsimp only
      cases Transport.send message.staged message.connection.transport <;> rfl

theorem leads_received {trace : List Sink.Event} (h : Sink.Leads message trace next) :
    next.connection.received = message.connection.received := by
  induction h with
  | nil message => rfl
  | @cons call message _ _ _ ih =>
    apply ih.trans
    exact Sink.step_of_ends
      (fun _ (next : Outgoing τ) => next.connection.received = message.connection.received)
      (message.perform_received call)

end Outgoing

namespace Connection

variable {τ α β : Type} [Transport τ]

theorem hold_received (session : Session τ) (c : Connection τ) :
    (hold session c).state.received = c.received := by
  obtain ⟨trace, message, -, htrace, hstate⟩ := hold_leads session c
  rw [hstate, message.close_received, Outgoing.leads_received htrace]
  rfl

/-- Makes one dealing and records it. A release counts the bytes that it lets go, which are the
first of those that were pending. -/
def deal : Dealing τ → Connection τ → Answer (Except Error Nat) Entry (Connection τ)
  | .send session, c =>
    let held := hold session c
    ⟨held.outcome.map fun _ => 0, held.events.map .sent, held.state⟩
  | .receive fragment, c => ⟨.ok fragment.length, [.arrived fragment], c.receive fragment⟩
  | .read client, c =>
    let used := client.run Source.step c.incoming
    if used.outcome then
      let (count, next) := used.state.consume
      ⟨.ok count, [.released (c.received.take count)], next⟩
    else ⟨.ok 0, [], used.state.connection⟩

/-- A source that is dropped has changed nothing. -/
theorem deal_read_of_not_released {client : Client Source.Call Source.Reply (Incoming τ) Bool}
    {c : Connection τ} (h : (client.run Source.step c.incoming).outcome = false) :
    deal (.read client) c = ⟨.ok 0, [], c⟩ := by
  simp only [deal, h, Incoming.connection_run]
  rfl

/-- What was released and what is pending are together what has arrived. -/
def Conserves (entries : List Entry) (c : Connection τ) : Prop :=
  releases entries ++ c.received = arrivals entries

theorem Conserves.deal {entries : List Entry} {c : Connection τ} (h : Conserves entries c)
    (dealing : Dealing τ) :
    Conserves (entries ++ (deal dealing c).events) (Connection.deal dealing c).state := by
  unfold Conserves releases arrivals at *
  rw [List.flatMap_append, List.flatMap_append]
  cases dealing with
  | send session =>
    obtain ⟨trace, message, hevents, -, -⟩ := hold_leads session c
    simpa [Connection.deal, hevents, hold_received] using h
  | receive fragment =>
    simp [Connection.deal, receive, ← h]
  | read client =>
    cases hreleased : (client.run Source.step c.incoming).outcome with
    | false => simpa [deal_read_of_not_released hreleased] using h
    | true =>
      simp [Connection.deal, hreleased, Incoming.consume, Incoming.connection_run, ← h]

/-- Whatever a client of a fresh connection does, and however its sendings and readings are mixed
with deliveries: the bytes released so far and then those pending are just the bytes that have
arrived, in order. A source that is dropped changes nothing. At every moment of one more session,
which may have read, skipped, asked for the size and sought as it liked, a read brings the bytes of
the whole stream from the place on that lies as far behind the last release as the cursor says, as
many as were asked for and have arrived. -/
theorem releases_append_received (transport : τ) (limit : Nat)
    (client : Client (Dealing τ) (Except Error Nat) (Connection τ) α) :
    let dealt := client.run deal { transport, limit }
    let c := dealt.state
    releases dealt.events ++ c.received = arrivals dealt.events ∧
      (∀ reading : Client Source.Call Source.Reply (Incoming τ) Bool,
        (reading.run Source.step c.incoming).outcome = false →
          deal (.read reading) c = ⟨.ok 0, [], c⟩) ∧
      ∀ (reading : Client Source.Call Source.Reply (Incoming τ) β) (want : Nat),
        let source := (reading.run Source.step c.incoming).state
        (Source.read want source).1 = .ofBytes
          (((arrivals dealt.events).drop
            ((releases dealt.events).length + Source.position source)).take want) := by
  intro dealt c
  have hdealt : Conserves dealt.events c :=
    client.run_invariant deal Conserves (fun dealing _ _ h => h.deal dealing) []
      (show Conserves [] { transport, limit } from rfl)
  refine ⟨hdealt, fun reading => deal_read_of_not_released, fun reading want => ?_⟩
  obtain ⟨p, hstands⟩ := (Incoming.walks c).run (Incoming.stands_incoming c) reading
  intro source
  rw [((Incoming.walks c).read want hstands).1, (Incoming.walks c).position hstands, ← hdealt,
    List.drop_length_add_append]

/-- A message that is found incomplete is read again when the rest of it has arrived. -/
example :
    ((Client.call (.receive [1, 0]) fun _ _ =>
        .call (.read (.call (.read 4) fun _ _ => .done false)) fun _ _ =>
          .call (.receive [0, 0, 9]) fun _ _ =>
            .call (.read (.call (.read 4) fun _ _ => .done true)) fun _ _ => .done ()).run deal
      ({ transport := {}, limit := 0 } : Connection Scripted)).state.received = [9] := by
  decide

end Connection

end Octet
