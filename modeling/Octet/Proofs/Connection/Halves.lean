import Octet.Proofs.Connection.Dealing
import Octet.Proofs.Frame

/-!
# The two halves of a connection

What goes out of a connection and what comes in have nothing to do with each other. An errand
concerns one half, and its client sees that half alone. Whichever errands concern the other half,
they might as well not have been done.

## Main definitions

* `Outbound`, `Inbound`: the two halves.
* `Errand`: what a client does with one half, `Connection.attend` what it brings.
* `Report`: all that the client of an errand learns.

## Main statements

* `Connection.attend_withInbound`, `Connection.attend_withOutbound`: no errand notices what becomes
  of the other half.
* `Connection.halves_apart`: the errands on either half may be left out.
-/

namespace Octet

/-! ## Halves -/

/-- What a connection knows of the bytes on their way out. -/
structure Outbound (τ : Type) where
  transport : τ
  limit : Nat
  staged : Bytes
  messagesSent : Nat
  bytesSent : Nat
  sendErrors : Nat
  messagesDiscarded : Nat
  bytesDiscarded : Nat

/-- What a connection knows of the bytes on their way in. -/
structure Inbound where
  received : Bytes
  bytesReceived : Nat
  bytesConsumed : Nat

variable {τ α : Type}

namespace Connection

def outbound (c : Connection τ) : Outbound τ where
  transport := c.transport
  limit := c.limit
  staged := c.staged
  messagesSent := c.traffic.messagesSent
  bytesSent := c.traffic.bytesSent
  sendErrors := c.traffic.sendErrors
  messagesDiscarded := c.traffic.messagesDiscarded
  bytesDiscarded := c.traffic.bytesDiscarded

def inbound (c : Connection τ) : Inbound where
  received := c.received
  bytesReceived := c.traffic.bytesReceived
  bytesConsumed := c.traffic.bytesConsumed

/-- A connection is nothing but its halves. -/
def ofHalves (outward : Outbound τ) (inward : Inbound) : Connection τ where
  transport := outward.transport
  limit := outward.limit
  staged := outward.staged
  received := inward.received
  traffic :=
    { messagesSent := outward.messagesSent
      bytesSent := outward.bytesSent
      sendErrors := outward.sendErrors
      messagesDiscarded := outward.messagesDiscarded
      bytesDiscarded := outward.bytesDiscarded
      bytesReceived := inward.bytesReceived
      bytesConsumed := inward.bytesConsumed }

/-- Exchanges what has come in. -/
def withInbound (half : Inbound) (c : Connection τ) : Connection τ := ofHalves c.outbound half

/-- Exchanges what is to go out, and the transport with it. -/
def withOutbound (half : Outbound τ) (c : Connection τ) : Connection τ := ofHalves half c.inbound

@[simp] theorem withInbound_inbound (c : Connection τ) : c.withInbound c.inbound = c := rfl

@[simp] theorem withOutbound_outbound (c : Connection τ) : c.withOutbound c.outbound = c := rfl

end Connection

/-! ## Errands -/

namespace Writer

/-- What a writer on a message shows: the staged bytes, and whether its chain has failed. -/
def shown (w : Writer (Outgoing τ)) : Bytes × Bool := (w.sink.staged, w.failed)

end Writer

namespace Incoming

/-- What a session on received bytes shows: those that are left, and the position. -/
def shown (source : Incoming τ) : Bytes × Nat := (source.remaining, source.cursor)

end Incoming

/-- What a client does with one half of a connection. While it does so it sees the outcomes of its
calls, and what the session shows after each. -/
inductive Errand
  /-- A message is used as a sink and dropped. The client sees the staged bytes. -/
  | sink (client : Client Sink.Call (Except Error Nat) Bytes Unit)
  /-- A message is built by a writer and sent. -/
  | message (build : Client Writer.Call (Except Error Unit) (Bytes × Bool) (Except Error Unit))
  /-- The transport delivers bytes. -/
  | receive (fragment : Bytes)
  /-- A session on the received bytes. In the end the client says whether what it has read is to be
  released. -/
  | read (client : Client Source.Call Source.Reply (Bytes × Nat) Bool)

/-- What a session shows after a call. -/
inductive Glimpse
  | sink (outcome : Except Error Nat) (staged : Bytes)
  | writer (outcome : Except Error Unit) (staged : Bytes) (failed : Bool)
  | source (reply : Source.Reply) (remaining : Bytes) (position : Nat)

/-- What is learnt from an errand: all that its session showed, and how the errand ended. -/
structure Report where
  glimpses : List Glimpse
  outcome : Except Error Nat

namespace Errand

/-- Whether an errand concerns the bytes on their way out. -/
def isOutward : Errand → Bool
  | .sink _ | .message _ => true
  | .receive _ | .read _ => false

/-- The dealing with the connection that an errand is. -/
def dealing : Errand → Dealing τ
  | .sink client => .send (.sink (client.through Outgoing.staged))
  | .message build => .send (.message (build.through Writer.shown))
  | .receive fragment => .receive fragment
  | .read client => .read (client.through Incoming.shown)

/-- What the session of an errand shows, call by call. -/
def glimpses [Transport τ] : Errand → Connection τ → List Glimpse
  | .sink client, c =>
    ((client.through Outgoing.staged).run
      (Client.watch Sink.step fun outcome message => .sink outcome message.staged)
      c.outgoing).events
  | .message build, c =>
    ((build.through Writer.shown).run
      (Client.watch Writer.step fun outcome w => .writer outcome w.sink.staged w.failed)
      c.writer).events
  | .receive _, _ => []
  | .read client, c =>
    ((client.through Incoming.shown).run
      (Client.watch Source.step fun reply source =>
        .source reply source.remaining source.cursor) c.incoming).events

end Errand

/-- Does an errand and puts the report on record. -/
def Connection.attend [Transport τ] (errand : Errand) (c : Connection τ) :
    Answer Report (Errand × Report) (Connection τ) :=
  let dealt := deal errand.dealing c
  let report := ⟨errand.glimpses c, dealt.outcome⟩
  ⟨report, [(errand, report)], dealt.state⟩

/-! ## What comes in is not noticed on the way out -/

namespace Outgoing

/-- Exchanges what has come in behind a message. -/
def withInbound (half : Inbound) (message : Outgoing τ) : Outgoing τ :=
  { message with connection := message.connection.withInbound half }

@[simp] theorem staged_withInbound (half : Inbound) (message : Outgoing τ) :
    (message.withInbound half).staged = message.staged := rfl

@[simp] theorem close_withInbound (half : Inbound) (message : Outgoing τ) :
    (message.withInbound half).close = message.close.withInbound half := by
  unfold close withInbound
  by_cases hstaged : message.staged = []
  · simp only [hstaged, if_true]
    rfl
  · simp only [hstaged, if_false]
    rfl

variable [Transport τ]

theorem ignores_inbound (half : Inbound) : Sink.Ignores (withInbound half (τ := τ)) where
  position _ := rfl
  write data := by
    intro message
    rw [write_eq, write_eq]
    by_cases hlt : message.connection.limit < message.staged.length + data.length
    · rw [if_pos hlt]
      exact if_pos hlt
    · rw [if_neg hlt]
      exact if_neg hlt
  overwrite offset data := by
    intro message
    rw [overwrite_eq, overwrite_eq]
    by_cases hle : offset + data.length ≤ message.staged.length
    · rw [if_pos hle]
      exact if_pos hle
    · rw [if_neg hle]
      exact if_neg hle
  flush := by
    intro message
    rw [flush_eq, flush_eq]
    by_cases hstaged : message.staged = []
    · simp only [withInbound, hstaged, if_true]
    · simp only [withInbound, hstaged, if_false, Connection.withInbound, Connection.ofHalves,
        Connection.outbound]
      cases Transport.send message.staged message.connection.transport <;> rfl

end Outgoing

namespace Connection

variable [Transport τ]

/-- Neither is it while a message is built by a writer and sent. -/
theorem hold_message_withInbound (half : Inbound)
    (build : Client Writer.Call (Except Error Unit) (Bytes × Bool) (Except Error Unit))
    (c : Connection τ) :
    let held := hold (.message (build.through Writer.shown)) c
    let held' := hold (.message (build.through Writer.shown)) (c.withInbound half)
    held'.outcome = held.outcome ∧ held'.state = held.state.withInbound half := by
  have hsink := Outgoing.ignores_inbound (τ := τ) half
  have hbuilt : (build.through Writer.shown).run Writer.step (c.withInbound half).writer =
      ((build.through Writer.shown).run Writer.step c.writer).mapState
        (Writer.mapSink (Outgoing.withInbound half)) :=
    Client.run_through (Writer.mapSink (Outgoing.withInbound half)) (fun _ => rfl)
      (Writer.step_mapSink hsink) build c.writer
  simp only [hold, sendWith_eq, hbuilt]
  generalize (build.through Writer.shown).run Writer.step c.writer = built
  obtain ⟨outcome, events, ⟨message, failed⟩⟩ := built
  cases outcome with
  | error e => exact ⟨rfl, Outgoing.close_withInbound half message⟩
  | ok _ =>
    cases failed with
    | true => exact ⟨rfl, Outgoing.close_withInbound half message⟩
    | false =>
      simp only [Answer.mapState, Writer.flush_ignores hsink ⟨message, false⟩]
      cases Writer.flush (⟨message, false⟩ : Writer (Outgoing τ)) with
      | ok _ next => exact ⟨rfl, Outgoing.close_withInbound half next.sink⟩
      | error e next => exact ⟨rfl, Outgoing.close_withInbound half next.sink⟩

/-- What goes unnoticed by the session of an errand and by the dealing that it is goes unnoticed by
the errand. -/
theorem attend_mapState {f : Connection τ → Connection τ} {errand : Errand} {c : Connection τ}
    (hglimpses : errand.glimpses (f c) = errand.glimpses c)
    (houtcome : (deal errand.dealing (f c)).outcome = (deal errand.dealing c).outcome)
    (hstate : (deal errand.dealing (f c)).state = f (deal errand.dealing c).state) :
    attend errand (f c) = (attend errand c).mapState f := by
  simp only [attend, Answer.mapState, hglimpses, houtcome, hstate]

@[simp] theorem attend_withInbound (half : Inbound) (c : Connection τ) {errand : Errand}
    (h : errand.isOutward = true) :
    attend errand (c.withInbound half) = (attend errand c).mapState (withInbound half) := by
  have hsink := Outgoing.ignores_inbound (τ := τ) half
  cases errand with
  | sink client =>
    have hused := Client.run_through (Outgoing.withInbound half)
      (Outgoing.staged_withInbound half) hsink.step client c.outgoing
    apply attend_mapState
    · exact Client.events_watch (Outgoing.withInbound half) (fun _ _ => rfl) (fun _ => rfl)
        hsink.step client c.outgoing
    · rfl
    · exact (congrArg (Outgoing.close ∘ Answer.state) hused).trans
        (Outgoing.close_withInbound half _)
  | message build =>
    obtain ⟨houtcome, hstate⟩ := hold_message_withInbound half build c
    apply attend_mapState
    · exact Client.events_watch (Writer.mapSink (Outgoing.withInbound half)) (fun _ _ => rfl)
        (fun _ => rfl) (Writer.step_mapSink hsink) build c.writer
    · exact congrArg (Except.map fun _ => 0) houtcome
    · exact hstate
  | receive fragment => cases h
  | read client => cases h

/-- An errand on the way out leaves what has come in as it is. -/
theorem inbound_attend (c : Connection τ) {errand : Errand} (h : errand.isOutward = true) :
    (attend errand c).state.inbound = c.inbound := by
  have hsame := congrArg Answer.state (attend_withInbound c.inbound c h)
  rw [withInbound_inbound] at hsame
  rw [hsame]
  rfl

end Connection

/-! ## What goes out is not noticed on the way in -/

namespace Incoming

/-- Exchanges what is to go out behind a session. -/
def withOutbound (half : Outbound τ) (source : Incoming τ) : Incoming τ where
  connection := source.connection.withOutbound half
  cursor := source.cursor
  cursor_le := source.cursor_le

@[simp] theorem shown_withOutbound (half : Outbound τ) (source : Incoming τ) :
    (source.withOutbound half).shown = source.shown := rfl

@[simp] theorem step_withOutbound (half : Outbound τ) (call : Source.Call) (source : Incoming τ) :
    Source.step call (source.withOutbound half) =
      (Source.step call source).mapState (withOutbound half) := by
  cases call with
  | read want | skip count | size => rfl
  | seek target =>
    simp only [Source.step, Source.perform, Source.seek]
    have hreceived : (source.withOutbound half).connection.received =
        source.connection.received := rfl
    by_cases h : target ≤ source.connection.received.length
    · rw [dif_pos h, dif_pos (hreceived ▸ h)]
      rfl
    · rw [dif_neg h, dif_neg (hreceived ▸ h)]
      rfl

end Incoming

namespace Connection

variable [Transport τ]

@[simp] theorem attend_withOutbound (half : Outbound τ) (c : Connection τ) {errand : Errand}
    (h : errand.isOutward = false) :
    attend errand (c.withOutbound half) = (attend errand c).mapState (withOutbound half) := by
  cases errand with
  | sink client => cases h
  | message build => cases h
  | receive fragment => rfl
  | read client =>
    have hused := Client.run_through (Incoming.withOutbound half)
      (Incoming.shown_withOutbound half) (Incoming.step_withOutbound half) client c.incoming
    have hstart : c.incoming.withOutbound half = (c.withOutbound half).incoming := rfl
    rw [hstart] at hused
    apply attend_mapState
    · exact Client.events_watch (Incoming.withOutbound half) (fun _ _ => rfl) (fun _ => rfl)
        (Incoming.step_withOutbound half) client c.incoming
    all_goals
      simp only [Errand.dealing, deal, hused, Answer.mapState]
      cases ((client.through Incoming.shown).run Source.step c.incoming).outcome <;> rfl

/-- An errand on the way in leaves what is to go out as it is. -/
theorem outbound_attend (c : Connection τ) {errand : Errand} (h : errand.isOutward = false) :
    (attend errand c).state.outbound = c.outbound := by
  have hsame := congrArg Answer.state (attend_withOutbound c.outbound c h)
  rw [withOutbound_outbound] at hsame
  rw [hsame]
  rfl

/-! ## The halves apart -/

/-- Whatever a client does with a connection, over any transport, leave out all that it has done
with the bytes on their way in. What remains, done in the same order, brings what it brought, down
to every outcome and position, and the same is sent, staged and counted. Leave out instead what it
has done with the bytes on their way out: the same is read, left over and counted. -/
theorem halves_apart (client : Client Errand Report (Connection (Recorded τ)) α)
    (c : Connection (Recorded τ)) :
    let whole := client.run attend c
    let errands := whole.events.map Prod.fst
    let outward := (Client.inOrder (errands.filter Errand.isOutward)).run attend c
    let inward := (Client.inOrder (errands.filter fun errand => !errand.isOutward)).run attend c
    outward.events = whole.events.filter (fun event => event.1.isOutward) ∧
      outward.state.outbound = whole.state.outbound ∧
      outward.state.sends = whole.state.sends ∧
      inward.events = whole.events.filter (fun event => !event.1.isOutward) ∧
      inward.state.inbound = whole.state.inbound := by
  intro whole errands outward inward
  have houtward : outward = ⟨(), whole.events.filter fun event => event.1.isOutward,
      whole.state.withInbound c.inbound⟩ :=
    Client.run_filter Errand.isOutward (fun _ _ => rfl)
      (fun _ s h => attend_withInbound c.inbound s h)
      (fun _ s h => congrArg (ofHalves · c.inbound) (outbound_attend s h)) client c
  have hinward : inward = ⟨(), whole.events.filter fun event => !event.1.isOutward,
      whole.state.withOutbound c.outbound⟩ :=
    Client.run_filter (fun errand => !errand.isOutward) (fun _ _ => rfl)
      (fun _ s h => attend_withOutbound c.outbound s (by simpa using h))
      (fun _ s h => congrArg (ofHalves c.outbound) (inbound_attend s (by simpa using h))) client c
  rw [houtward, hinward]
  exact ⟨rfl, rfl, rfl, rfl, rfl⟩

end Connection

end Octet
