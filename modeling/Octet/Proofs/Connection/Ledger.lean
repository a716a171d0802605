import Octet.Connection.Outgoing
import Octet.Proofs.Bytes
import Octet.Proofs.Sink.Call

/-!
# The ledger of a message

A ledger is kept from the calls on a message and their outcomes alone: what was written and
corrected, what of it is staged, and what was handed to the transport. A message agrees with its
ledger at every moment, and every byte written is in just one place, in a payload that the transport
took or among the staged bytes.

## Main definitions

* `Ledger`: the ledger, `Ledger.enter` the entry of one call.
* `Ledger.Sound`: the books are right.
* `Recorded`: a transport that remembers what it was asked to send.
* `Ledger.Keeps`: a message agrees with a ledger.

## Main statements

* `Outgoing.flush_ends`: what a flush hands over.
* `Ledger.Keeps.step`, `Ledger.Keeps.leads`: every call, and every run of calls, keeps it.
-/

namespace Octet

/-- Bytes handed to a transport, and whether it took them. -/
structure Send where
  payload : Bytes
  accepted : Bool
  deriving DecidableEq, Repr

/-- The bytes that the transport took, in order. -/
def Send.taken (sends : List Send) : Bytes := (sends.filter Send.accepted).flatMap Send.payload

/-- What is known of a message from the outcomes of its calls. -/
structure Ledger where
  /-- All bytes written, as corrected. -/
  tape : Bytes := []
  /-- The bytes written since staged bytes were last taken, as corrected. -/
  staged : Bytes := []
  sends : List Send := []
  deriving DecidableEq, Repr

namespace Ledger

/-- Bytes are written behind all others. -/
def write (data : Bytes) (ledger : Ledger) : Ledger :=
  { ledger with tape := ledger.tape ++ data, staged := ledger.staged ++ data }

/-- Staged bytes are corrected. The offset counts from where they begin. -/
def overwrite (offset : Nat) (data : Bytes) (ledger : Ledger) : Ledger :=
  { ledger with
    tape := ledger.tape.overlay (ledger.tape.length - ledger.staged.length + offset) data
    staged := ledger.staged.overlay offset data }

/-- The transport took what is staged. -/
def taken (ledger : Ledger) : Ledger :=
  { ledger with staged := [], sends := ledger.sends ++ [⟨ledger.staged, true⟩] }

/-- The transport refused what is staged. -/
def refused (ledger : Ledger) : Ledger :=
  { ledger with sends := ledger.sends ++ [⟨ledger.staged, false⟩] }

/-- Enters a call and its outcome. A flush with nothing staged hands over nothing. -/
def enter (ledger : Ledger) : Sink.Event → Ledger
  | (.write data, .ok _) => ledger.write data
  | (.overwrite offset data, .ok _) => ledger.overwrite offset data
  | (.flush, .ok _) => if ledger.staged = [] then ledger else ledger.taken
  | (.flush, .error _) => ledger.refused
  | (_, .error _) => ledger

/-- The ledger of a record of calls. -/
def ofEvents (events : List Sink.Event) : Ledger := events.foldl enter {}

/-- Only a flush hands anything over. -/
theorem sends_enter (ledger : Ledger) {event : Sink.Event} (h : event.1 ≠ .flush) :
    (ledger.enter event).sends = ledger.sends := by
  fun_cases enter ledger event <;> grind [Ledger.write, Ledger.overwrite]

theorem sends_ofEvents {events : List Sink.Event} (h : ∀ event ∈ events, event.1 ≠ .flush) :
    (ofEvents events).sends = [] := by
  suffices hfold : ∀ ledger : Ledger, (events.foldl enter ledger).sends = ledger.sends from
    hfold {}
  induction events with
  | nil => exact fun _ => rfl
  | cons event rest ih =>
    intro ledger
    obtain ⟨hevent, hrest⟩ := List.forall_mem_cons.mp h
    rw [List.foldl_cons, ih hrest, ledger.sends_enter hevent]

/-! ## Sound ledgers -/

/-- No payload is empty or beyond the limit. What the transport took and what is staged are
together all that was written. -/
structure Sound (limit : Nat) (ledger : Ledger) : Prop where
  staged_le : ledger.staged.length ≤ limit
  payload : ∀ send ∈ ledger.sends, send.payload ≠ [] ∧ send.payload.length ≤ limit
  tape : Send.taken ledger.sends ++ ledger.staged = ledger.tape

variable {limit : Nat} {ledger : Ledger}

theorem sound_empty (limit : Nat) : Sound limit {} where
  staged_le := Nat.zero_le limit
  payload _ hsend := absurd hsend List.not_mem_nil
  tape := rfl

theorem Sound.write (h : Sound limit ledger) {data : Bytes}
    (hle : ledger.staged.length + data.length ≤ limit) : Sound limit (ledger.write data) where
  staged_le := by rwa [Ledger.write, List.length_append]
  payload := h.payload
  tape := by rw [Ledger.write, ← h.tape, List.append_assoc]

theorem Sound.overwrite (h : Sound limit ledger) {offset : Nat} {data : Bytes}
    (hle : offset + data.length ≤ ledger.staged.length) :
    Sound limit (ledger.overwrite offset data) where
  staged_le := by
    rw [Ledger.overwrite, Bytes.length_overlay_of_le hle]
    exact h.staged_le
  payload := h.payload
  tape := by
    have htaken : ledger.tape.length - ledger.staged.length =
        (Send.taken ledger.sends).length := by
      rw [← h.tape, List.length_append, Nat.add_sub_cancel]
    rw [Ledger.overwrite, htaken, ← h.tape, Bytes.append_overlay]

theorem Sound.payload_append (h : Sound limit ledger) (hstaged : ledger.staged ≠ [])
    (accepted : Bool) : ∀ send ∈ ledger.sends ++ [⟨ledger.staged, accepted⟩],
      send.payload ≠ [] ∧ send.payload.length ≤ limit := by
  have hle := h.staged_le
  have hpayload := h.payload
  grind

theorem Sound.taken (h : Sound limit ledger) (hstaged : ledger.staged ≠ []) :
    Sound limit ledger.taken where
  staged_le := Nat.zero_le limit
  payload := h.payload_append hstaged true
  tape := by simp [Ledger.taken, Send.taken, ← h.tape]

theorem Sound.refused (h : Sound limit ledger) (hstaged : ledger.staged ≠ []) :
    Sound limit ledger.refused where
  staged_le := h.staged_le
  payload := h.payload_append hstaged false
  tape := by simp [Ledger.refused, Send.taken, ← h.tape]

end Ledger

/-! ## Transports that remember -/

/-- A transport and what it was asked to send so far. -/
structure Recorded (τ : Type) where
  inner : τ
  sends : List Send := []

variable {τ : Type}

instance [Transport τ] : Transport (Recorded τ) where
  send data transport :=
    match Transport.send data transport.inner with
    | .ok _ inner => .ok () ⟨inner, transport.sends ++ [⟨data, true⟩]⟩
    | .error e inner => .error e ⟨inner, transport.sends ++ [⟨data, false⟩]⟩

/-- What a connection has asked its transport to send. -/
def Connection.sends (c : Connection (Recorded τ)) : List Send := c.transport.sends

/-! ## The calls of a message -/

namespace Outgoing

@[simp] theorem close_staged (message : Outgoing τ) : message.close.staged = [] := by
  unfold close
  dsimp only
  split <;> rfl

@[simp] theorem close_limit (message : Outgoing τ) :
    message.close.limit = message.connection.limit := by
  unfold close
  dsimp only
  split <;> rfl

@[simp] theorem close_transport (message : Outgoing τ) :
    message.close.transport = message.connection.transport := by
  unfold close
  dsimp only
  split <;> rfl

@[simp] theorem close_sends (message : Outgoing (Recorded τ)) :
    message.close.sends = message.connection.sends :=
  congrArg Recorded.sends message.close_transport

variable [Transport τ]

theorem write_eq (data : Bytes) (message : Outgoing τ) :
    (Sink.write data : Action (Outgoing τ) Nat) message =
      if message.connection.limit < message.staged.length + data.length then
        .error (.sendOverflow (message.staged.length + data.length) message.connection.limit)
          message
      else .ok data.length { message with staged := message.staged ++ data } := by
  change write data message = _
  have hget : (get : Action (Outgoing τ) (Outgoing τ)) message = .ok message message := rfl
  unfold write
  by_cases hlt : message.connection.limit < message.staged.length + data.length
  · simp only [bind, EStateM.bind, hget, hlt, if_true]
    rfl
  · simp only [bind, EStateM.bind, hget, hlt, if_false]
    rfl

theorem overwrite_eq (offset : Nat) (data : Bytes) (message : Outgoing τ) :
    (Sink.overwrite offset data : Action (Outgoing τ) Nat) message =
      if offset + data.length ≤ message.staged.length then
        .ok data.length { message with staged := message.staged.overlay offset data }
      else .error (.patchOutOfRange offset data.length message.staged.length) message := by
  change overwrite offset data message = _
  have hget : (get : Action (Outgoing τ) (Outgoing τ)) message = .ok message message := rfl
  unfold overwrite checkPatch
  by_cases hle : offset + data.length ≤ message.staged.length
  · simp only [bind, EStateM.bind, hget, hle, if_true]
    rfl
  · simp only [bind, EStateM.bind, hget, hle, if_false]
    rfl

/-- A write stages its bytes, unless that would pass the limit. -/
theorem write_ends (data : Bytes) (message : Outgoing τ) :
    (Sink.write data).Ends message
      (fun count next => count = data.length ∧
        message.staged.length + data.length ≤ message.connection.limit ∧
        next = { message with staged := message.staged ++ data })
      (fun e next =>
        e = .sendOverflow (message.staged.length + data.length) message.connection.limit ∧
        message.connection.limit < message.staged.length + data.length ∧ next = message) := by
  unfold Action.Ends
  rw [write_eq]
  by_cases hlt : message.connection.limit < message.staged.length + data.length
  · rw [if_pos hlt]
    exact ⟨rfl, hlt, rfl⟩
  · rw [if_neg hlt]
    exact ⟨rfl, Nat.not_lt.mp hlt, rfl⟩

/-- A correction inside the staged bytes replaces them in place. -/
theorem overwrite_ends (offset : Nat) (data : Bytes) (message : Outgoing τ) :
    (Sink.overwrite offset data).Ends message
      (fun count next => count = data.length ∧ offset + data.length ≤ message.staged.length ∧
        next = { message with staged := message.staged.overlay offset data })
      (fun e next => e = .patchOutOfRange offset data.length message.staged.length ∧
        message.staged.length < offset + data.length ∧ next = message) := by
  unfold Action.Ends
  rw [overwrite_eq]
  by_cases hle : offset + data.length ≤ message.staged.length
  · rw [if_pos hle]
    exact ⟨rfl, hle, rfl⟩
  · rw [if_neg hle]
    exact ⟨rfl, Nat.not_le.mp hle, rfl⟩

/-- What a flush does to a message: nothing if nothing is staged, and otherwise what the transport
makes of all that is. -/
theorem flush_eq (message : Outgoing τ) :
    (Sink.flush : Action (Outgoing τ) Unit) message =
      if message.staged = [] then .ok () message
      else
        let c := message.connection
        match Transport.send message.staged c.transport with
        | .ok _ transport =>
          .ok () ⟨{ c with transport, traffic := c.traffic.sent message.staged.length }, []⟩
        | .error e transport =>
          .error e ⟨{ c with transport, traffic := c.traffic.refused }, message.staged⟩ := by
  change flush message = _
  have hget : (get : Action (Outgoing τ) (Outgoing τ)) message = .ok message message := rfl
  by_cases hstaged : message.staged = []
  · simp only [flush, bind, EStateM.bind, hget, hstaged, if_true]
    rfl
  · simp only [flush, bind, EStateM.bind, hget, hstaged, if_false, Action.on, Connection.transmit]
    cases Transport.send message.staged message.connection.transport <;> rfl

theorem ends_flush (message : Outgoing τ) {post : Unit → Outgoing τ → Prop}
    {fail : Error → Outgoing τ → Prop} :
    (Sink.flush : Action (Outgoing τ) Unit).Ends message post fail ↔
      if message.staged = [] then post () message
      else
        let c := message.connection
        match Transport.send message.staged c.transport with
        | .ok _ transport =>
          post () ⟨{ c with transport, traffic := c.traffic.sent message.staged.length }, []⟩
        | .error e transport =>
          fail e ⟨{ c with transport, traffic := c.traffic.refused }, message.staged⟩ := by
  rw [Action.Ends, flush_eq]
  by_cases hstaged : message.staged = []
  · simp only [hstaged, if_true]
  · simp only [hstaged, if_false]
    cases Transport.send message.staged message.connection.transport <;> rfl

/-- A flush hands over just what is staged, and nothing if nothing is. What is taken is cleared, and
what is refused is kept. -/
theorem flush_ends (message : Outgoing (Recorded τ)) :
    (Sink.flush : Action (Outgoing (Recorded τ)) Unit).Ends message
      (fun _ next => next.staged = [] ∧ next.connection.limit = message.connection.limit ∧
        next.connection.sends = message.connection.sends ++
          if message.staged = [] then [] else [⟨message.staged, true⟩])
      (fun _ next => message.staged ≠ [] ∧ next.staged = message.staged ∧
        next.connection.limit = message.connection.limit ∧
        next.connection.sends = message.connection.sends ++ [⟨message.staged, false⟩]) := by
  rw [ends_flush]
  split
  next hstaged => simp [hstaged]
  next hstaged =>
    simp only [Transport.send]
    cases Transport.send message.staged message.connection.transport.inner with
    | ok _ inner | error _ inner => simp [hstaged, Connection.sends]

end Outgoing

/-! ## Messages and their ledgers -/

namespace Ledger

/-- The message has staged what the ledger says and, after what was sent `before`, has sent what the
ledger says. -/
structure Keeps (before : List Send) (limit : Nat) (message : Outgoing (Recorded τ))
    (ledger : Ledger) : Prop where
  staged : message.staged = ledger.staged
  sends : message.connection.sends = before ++ ledger.sends
  sound : ledger.Sound limit
  limit : message.connection.limit = limit

/-- The books may be opened whenever nothing is staged. -/
theorem keeps_of_staged {message : Outgoing (Recorded τ)} (hstaged : message.staged = []) :
    Keeps message.connection.sends message.connection.limit message {} where
  staged := hstaged
  sends := (List.append_nil _).symm
  sound := sound_empty _
  limit := rfl

variable [Transport τ] {before : List Send} {limit : Nat} {ledger : Ledger}
  {message next : Outgoing (Recorded τ)}

theorem Keeps.perform (h : Keeps before limit message ledger) (call : Sink.Call) :
    (Sink.perform call).Ends message
      (fun count next => Keeps before limit next (ledger.enter (call, .ok count)))
      (fun e next => Keeps before limit next (ledger.enter (call, .error e))) := by
  obtain ⟨hstaged, hsends, hsound, hlimit⟩ := h
  cases call with
  | write data =>
    apply (message.write_ends data).mono
    · rintro _ _ ⟨-, hle, rfl⟩
      rw [hstaged, hlimit] at hle
      exact ⟨congrArg (· ++ data) hstaged, hsends, hsound.write hle, hlimit⟩
    · rintro _ _ ⟨-, -, rfl⟩
      exact ⟨hstaged, hsends, hsound, hlimit⟩
  | overwrite offset data =>
    apply (message.overwrite_ends offset data).mono
    · rintro _ _ ⟨-, hle, rfl⟩
      rw [hstaged] at hle
      exact ⟨congrArg (·.overlay offset data) hstaged, hsends, hsound.overwrite hle, hlimit⟩
    · rintro _ _ ⟨-, -, rfl⟩
      exact ⟨hstaged, hsends, hsound, hlimit⟩
  | flush =>
    rw [Sink.perform]
    apply message.flush_ends.bind
    · intro _ next ⟨hnext, hlimit', hsends'⟩
      rw [Action.ends_pure, enter]
      rw [hsends, hstaged, List.append_assoc] at hsends'
      by_cases hempty : ledger.staged = []
      · rw [if_pos hempty] at hsends' ⊢
        rw [List.append_nil] at hsends'
        exact ⟨hnext.trans hempty.symm, hsends', hsound, hlimit'.trans hlimit⟩
      · rw [if_neg hempty] at hsends' ⊢
        exact ⟨hnext, hsends', hsound.taken hempty, hlimit'.trans hlimit⟩
    · intro _ next ⟨hne, hnext, hlimit', hsends'⟩
      rw [hsends, hstaged, List.append_assoc] at hsends'
      exact ⟨hnext.trans hstaged, hsends', hsound.refused (hstaged ▸ hne), hlimit'.trans hlimit⟩

theorem Keeps.step (h : Keeps before limit message ledger) (call : Sink.Call) :
    Keeps before limit (Sink.step call message).state
      (ledger.enter (call, (Sink.step call message).outcome)) :=
  Sink.step_of_ends (fun outcome next => Keeps before limit next (ledger.enter (call, outcome)))
    (h.perform call)

theorem Keeps.leads {trace : List Sink.Event} (h : Keeps before limit message ledger)
    (htrace : Sink.Leads message trace next) :
    Keeps before limit next (trace.foldl enter ledger) := by
  induction htrace generalizing ledger with
  | nil message => exact h
  | cons call _ ih => exact ih (h.step call)

end Ledger

end Octet
