import Octet.Proofs.Connection.Ledger
import Octet.Proofs.Writer.Call

/-!
# Sessions of a connection

A client of a connection holds one session after another. In a session it either uses a message as a
sink and drops it, or has a message built by a writer and sent. Every session starts with nothing
staged and has a ledger of its own, so that what the transport is asked to send is found in the
ledgers of the sessions, one after another.

## Main definitions

* `Session`: the sessions, `Connection.hold` what one of them brings.
* `Connection.Accounts`: what a connection has sent is what the ledgers of its sessions say.

## Main statements

* `Connection.sendWith_eq`: how a message that is built by a writer ends.
* `Connection.sends_of_sessions`: the accounts are right after every run of sessions, and every
  message of the next session agrees with its ledger.
* `Connection.sends_of_failed_build`: a message that fails sends what it was made to flush itself.
-/

namespace Octet

namespace Writer

variable {σ : Type} [Sink σ]

/-- A client of a writer that ends with an outcome. -/
abbrev Builder (σ : Type) := Client Call (Except Error Unit) (Writer σ) (Except Error Unit)

namespace Builder

/-- Serves the client. -/
def act {κ : Type} (build : Builder σ) : Action (κ × Writer σ) Unit := fun (k, w) =>
  let built := build.run step w
  match built.outcome with
  | .ok _ => .ok () (k, built.state)
  | .error e => .error e (k, built.state)

/-- The calls of the sink that a message comes to, with the flush at its end. -/
def reached (build : Builder σ) (w : Writer σ) : List Sink.Event :=
  let built := build.run step w
  built.events ++
    match built.outcome with
    | .ok _ => Call.flush.reached built.state
    | .error _ => []

end Builder

end Writer

/-- What a client does with a connection in one session. -/
inductive Session (τ : Type)
  /-- A message is used as a sink and dropped. -/
  | sink (client : Client Sink.Call (Except Error Nat) (Outgoing τ) Unit)
  /-- A message is built by a writer and sent. -/
  | message (build : Writer.Builder (Outgoing τ))

namespace Connection

variable {τ α : Type}

/-- The writer that a message is built with. -/
def writer (c : Connection τ) : Writer (Outgoing τ) := ⟨c.outgoing, false⟩

/-- Nothing is staged, and what was sent is what the ledgers of the sessions say. -/
structure Accounts (before : List Send) (limit : Nat) (traces : List (List Sink.Event))
    (c : Connection (Recorded τ)) : Prop where
  staged : c.staged = []
  sends : c.sends = before ++ traces.flatMap fun trace => (Ledger.ofEvents trace).sends
  sound : ∀ trace ∈ traces, (Ledger.ofEvents trace).Sound limit
  limit : c.limit = limit

variable {before : List Send} {limit : Nat} {traces : List (List Sink.Event)}
  {c : Connection (Recorded τ)} {trace : List Sink.Event} {message : Outgoing (Recorded τ)}

/-- A session starts with nothing staged, whatever the sessions before it did. -/
theorem Accounts.outgoing (h : Accounts before limit traces c) :
    Ledger.Keeps c.sends limit c.outgoing {} := by
  rw [← h.limit]
  exact Ledger.keeps_of_staged (show c.outgoing.staged = [] from h.staged)

/-- The accounts may be opened whenever nothing is staged. -/
theorem accounts_of_staged (c : Connection (Recorded τ)) (hstaged : c.staged = []) :
    Accounts c.sends c.limit [] c where
  staged := hstaged
  sends := (List.append_nil _).symm
  sound _ hmem := absurd hmem List.not_mem_nil
  limit := rfl

variable [Transport τ]

/-- Holds a session and records the calls on its message. -/
def hold : Session τ → Connection τ → Answer (Except Error Unit) (List Sink.Event) (Connection τ)
  | .sink client, c =>
    let used := client.run Sink.step c.outgoing
    ⟨.ok (), [used.events], used.state.close⟩
  | .message build, c =>
    match sendWith (κ := Unit) build.act ((), c) with
    | .ok _ (_, next) => ⟨.ok (), [build.reached c.writer], next⟩
    | .error e (_, next) => ⟨.error e, [build.reached c.writer], next⟩

/-! ## One session -/

/-- A message is sent by a flush after building it. Where building fails, or spoils the writer,
there is no such flush. -/
theorem sendWith_eq {κ : Type} (build : Writer.Builder (Outgoing τ)) (k : κ) (c : Connection τ) :
    let built := build.run Writer.step c.writer
    sendWith build.act (k, c) =
      match built.outcome with
      | .error e => .error e (k, built.state.sink.close)
      | .ok _ =>
        if built.state.failed then
          .error (.writeChain built.state.position) (k, built.state.sink.close)
        else
          match Writer.flush built.state with
          | .ok _ flushed => .ok () (k, flushed.sink.close)
          | .error e flushed => .error e (k, flushed.sink.close) := by
  intro built
  have hwriter : Writer.mk c.outgoing false = c.writer := rfl
  cases houtcome : built.outcome with
  | error e =>
    have hact : build.act (k, c.writer) = .error e (k, built.state) := by
      simp only [Writer.Builder.act, show build.run Writer.step c.writer = built from rfl, houtcome]
    simp only [sendWith, Action.on, hwriter, bind, EStateM.bind, hact]
  | ok _ =>
    have hact : build.act (k, c.writer) = .ok () (k, built.state) := by
      simp only [Writer.Builder.act, show build.run Writer.step c.writer = built from rfl, houtcome]
    simp only [sendWith, Action.on, hwriter, bind, EStateM.bind, hact, Action.onSnd, Writer.finish]
    cases built.state.failed with
    | true => rfl
    | false =>
      simp only [Bool.false_eq_true, if_false]
      cases Writer.flush built.state <;> rfl

/-- A message that is built by a writer is used as a sink, from its start to its end. -/
theorem sendWith_leads {κ : Type} (build : Writer.Builder (Outgoing τ)) (k : κ) (c : Connection τ) :
    (sendWith build.act).Ends (k, c)
      (fun _ next => ∃ message, Sink.Leads c.outgoing (build.reached c.writer) message ∧
        next = (k, message.close))
      (fun _ next => ∃ message, Sink.Leads c.outgoing (build.reached c.writer) message ∧
        next = (k, message.close)) := by
  have hbuilt : Sink.Leads c.outgoing _ _ := Writer.leads_run build c.writer
  unfold Action.Ends
  simp only [sendWith_eq, Writer.Builder.reached]
  generalize build.run Writer.step c.writer = built at hbuilt ⊢
  cases built.outcome with
  | error e => exact ⟨_, by simpa using hbuilt, rfl⟩
  | ok _ =>
    have hflush := Writer.leads_flush built.state
    cases hfailed : built.state.failed with
    | true => exact ⟨_, hbuilt.trans (Writer.leads_reach_of_failed hfailed _), rfl⟩
    | false =>
      cases hact : Writer.flush built.state with
      | ok _ flushed => exact ⟨_, hbuilt.trans (hflush.of_ok hact), rfl⟩
      | error e flushed => exact ⟨_, hbuilt.trans (hflush.of_error hact), rfl⟩

theorem hold_leads (session : Session τ) (c : Connection τ) :
    ∃ trace message, (hold session c).events = [trace] ∧ Sink.Leads c.outgoing trace message ∧
      (hold session c).state = message.close := by
  cases session with
  | sink client => exact ⟨_, _, rfl, Sink.leads_run client c.outgoing, rfl⟩
  | message build =>
    have hsend := sendWith_leads build () c
    simp only [hold]
    cases hact : sendWith build.act ((), c) with
    | ok _ next =>
      obtain ⟨message, htrace, rfl⟩ := hsend.of_ok hact
      exact ⟨_, message, rfl, htrace, rfl⟩
    | error e next =>
      obtain ⟨message, htrace, rfl⟩ := hsend.of_error hact
      exact ⟨_, message, rfl, htrace, rfl⟩

/-! ## Runs of sessions -/

theorem Accounts.leads (h : Accounts before limit traces c)
    (htrace : Sink.Leads c.outgoing trace message) :
    Ledger.Keeps c.sends limit message (Ledger.ofEvents trace) :=
  h.outgoing.leads htrace

/-- What a session has not sent is given up when it ends. -/
theorem Accounts.close (h : Accounts before limit traces c)
    (htrace : Sink.Leads c.outgoing trace message) :
    Accounts before limit (traces ++ [trace]) message.close := by
  have hkeeps := h.leads htrace
  refine ⟨message.close_staged, ?_, ?_, message.close_limit.trans hkeeps.limit⟩
  · simp [hkeeps.sends, h.sends, List.flatMap_append]
  · refine List.forall_mem_append.mpr ⟨h.sound, fun last hlast => ?_⟩
    obtain rfl := List.mem_singleton.mp hlast
    exact hkeeps.sound

theorem Accounts.hold (h : Accounts before limit traces c) (session : Session (Recorded τ)) :
    Accounts before limit (traces ++ (hold session c).events)
      (Connection.hold session c).state := by
  obtain ⟨trace, message, hevents, htrace, hstate⟩ := hold_leads session c
  rw [hevents, hstate]
  exact h.close htrace

theorem Accounts.run (h : Accounts before limit traces c)
    (client : Client (Session (Recorded τ)) (Except Error Unit) (Connection (Recorded τ)) α) :
    Accounts before limit (traces ++ (client.run Connection.hold c).events)
      (client.run Connection.hold c).state :=
  client.run_invariant Connection.hold (Accounts before limit)
    (fun session _ _ hs => hs.hold session) traces h

/-- Whatever a client does in its sessions, on any transport, the transport is asked to send what
the ledgers of the sessions say, one session after another. No payload is empty or beyond the limit,
and every byte written in a session was taken once, in a payload of that session, or given up at its
end. At every moment of one more session its message has staged and sent what the ledger of its
calls says, and a flush would hand over just what is staged. -/
theorem sends_of_sessions (transport : Recorded τ) (limit : Nat) (received : Bytes)
    (traffic : Traffic)
    (client : Client (Session (Recorded τ)) (Except Error Unit) (Connection (Recorded τ)) α) :
    let held := client.run hold { transport, limit, received, traffic }
    Accounts transport.sends limit held.events held.state ∧
      ∀ trace message, Sink.Leads held.state.outgoing trace message →
        Ledger.Keeps held.state.sends limit message (Ledger.ofEvents trace) ∧
          (Sink.flush : Action (Outgoing (Recorded τ)) Unit).Ends message
            (fun _ next => next.staged = [] ∧
              next.connection.sends = message.connection.sends ++
                if message.staged = [] then [] else [⟨message.staged, true⟩])
            (fun _ next => message.staged ≠ [] ∧ next.staged = message.staged ∧
              next.connection.sends = message.connection.sends ++ [⟨message.staged, false⟩]) := by
  intro held
  have hheld : Accounts transport.sends limit held.events held.state :=
    (accounts_of_staged { transport, limit, received, traffic } rfl).run client
  refine ⟨hheld, fun trace message htrace => ⟨hheld.leads htrace, ?_⟩⟩
  apply message.flush_ends.mono
  · intro _ next ⟨hstaged, _, hsends⟩
    exact ⟨hstaged, hsends⟩
  · intro _ next ⟨hne, hstaged, _, hsends⟩
    exact ⟨hne, hstaged, hsends⟩

/-- A transport that answers from a list, and takes everything once the list is used up. -/
structure Scripted where
  answers : List Bool := []

instance : Transport Scripted where
  send _ transport :=
    match transport.answers with
    | [] => .ok () transport
    | true :: rest => .ok () ⟨rest⟩
    | false :: rest => .error (.transport "refused") ⟨rest⟩

/-- A refused flush is tried again, behind a correction; what is written after it is given up. -/
example :
    ((Client.call (.sink (.call (.write [1, 2]) fun _ _ => .call .flush fun _ _ =>
        .call (.overwrite 1 [3]) fun _ _ => .call .flush fun _ _ => .call (.write [4]) fun _ _ =>
          .done ())) fun _ _ => .done ()).run hold
      ({ transport := ⟨⟨[false]⟩, []⟩, limit := 2 } : Connection (Recorded Scripted))).state.sends =
      [⟨[1, 2], false⟩, ⟨[1, 3], true⟩] := by
  decide

/-- Where building a message fails or spoils the writer, the client is told so. The transport was
asked to send only what the message was made to flush while it was built, and what it had staged at
the end is in no later message. -/
theorem sends_of_failed_build (transport : Recorded τ) (limit : Nat) (received : Bytes)
    (traffic : Traffic)
    (client : Client (Session (Recorded τ)) (Except Error Unit) (Connection (Recorded τ)) α)
    (build : Writer.Builder (Outgoing (Recorded τ))) :
    let c := (client.run hold { transport, limit, received, traffic }).state
    let built := build.run Writer.step c.writer
    (∃ e, built.outcome = .error e) ∨ built.state.failed = true →
      ∃ e next, sendWith build.act ((), c) = .error e ((), next) ∧
        (match built.outcome with
          | .error e' => e = e'
          | .ok _ => e = .writeChain built.state.position) ∧
        next.staged = [] ∧
        next.sends = c.sends ++ (Ledger.ofEvents built.events).sends ∧
        ((∀ event ∈ built.events, event.1 ≠ .flush) → next.sends = c.sends) ∧
        ∀ later : Client (Session (Recorded τ)) (Except Error Unit) (Connection (Recorded τ)) α,
          (later.run hold next).state.sends =
            next.sends ++ (later.run hold next).events.flatMap fun trace =>
              (Ledger.ofEvents trace).sends := by
  intro c built hfails
  have hc : Accounts transport.sends limit _ c :=
    (accounts_of_staged { transport, limit, received, traffic } rfl).run client
  have htrace : Sink.Leads c.outgoing built.events built.state.sink :=
    Writer.leads_run build c.writer
  have hsends : built.state.sink.close.sends =
      c.sends ++ (Ledger.ofEvents built.events).sends :=
    (Outgoing.close_sends _).trans (hc.leads htrace).sends
  have hsend := sendWith_eq build () c
  rw [show build.run Writer.step c.writer = built from rfl] at hsend
  suffices herror : ∃ e, sendWith build.act ((), c) = .error e ((), built.state.sink.close) ∧
      match built.outcome with
      | .error e' => e = e'
      | .ok _ => e = .writeChain built.state.position by
    obtain ⟨e, hsend, he⟩ := herror
    refine ⟨e, _, hsend, he, Outgoing.close_staged _, hsends, fun hflush => ?_, fun later => ?_⟩
    · rw [hsends, Ledger.sends_ofEvents hflush, List.append_nil]
    · exact ((accounts_of_staged _ (Outgoing.close_staged _)).run later).sends
  cases houtcome : built.outcome with
  | error e => exact ⟨e, by rw [hsend, houtcome], rfl⟩
  | ok _ =>
    have hfailed : built.state.failed = true :=
      hfails.resolve_left fun ⟨e, he⟩ => nomatch houtcome.symm.trans he
    exact ⟨_, by rw [hsend, houtcome]; exact if_pos hfailed, rfl⟩

/-- A flush is refused while a message is built, which spoils the writer. The message ends with an
error, and the transport has not been asked again. -/
theorem sends_of_spoiled_build :
    let c : Connection (Recorded Scripted) := { transport := ⟨⟨[false]⟩, []⟩, limit := 8 }
    let build : Writer.Builder (Outgoing (Recorded Scripted)) :=
      .call (.write .u8 1) fun _ _ => .call .flush fun _ _ => .done (.ok ())
    (build.run Writer.step c.writer).state.failed = true ∧
      ∃ e next, sendWith build.act ((), c) = .error e ((), next) ∧ next.staged = [] ∧
        next.sends = [⟨[1], false⟩] := by
  intro c build
  have hfailed : (build.run Writer.step c.writer).state.failed = true := by decide
  let client : Client (Session (Recorded Scripted)) (Except Error Unit)
    (Connection (Recorded Scripted)) Unit := .done ()
  obtain ⟨e, next, hsend, -, hstaged, hsends, -⟩ :=
    sends_of_failed_build c.transport 8 [] {} client build (.inr hfailed)
  exact ⟨hfailed, e, next, hsend, hstaged, hsends.trans (by decide)⟩

/-- A message that is given up after a flush has reached the transport. -/
theorem taken_before_given_up :
    let c : Connection (Recorded Scripted) := { transport := ⟨{}, []⟩, limit := 8 }
    let build : Writer.Builder (Outgoing (Recorded Scripted)) :=
      .call (.write .u8 1) fun _ _ => .call .flush fun _ _ =>
        .done (.error (.header (.refused "abort")))
    ∃ next, sendWith build.act ((), c) = .error (.header (.refused "abort")) ((), next) ∧
      next.sends = [⟨[1], true⟩] := by
  intro c build
  exact ⟨_, rfl, by decide⟩

end Connection

end Octet
