import Octet.Proofs.Source.Incoming

/-!
# Messages off the bytes that arrive

A client that is delivered bytes in fragments does not know where in them a message ends. After
every delivery it reads messages one after another, releasing each, until it finds one incomplete;
then it drops the source and waits. If every message is found as soon as all of its bytes are there,
and not before, then the client obtains the same messages whatever the fragments are.

## Main definitions

* `Intake`: how one message is read, `Intake.attempt` one attempt at it.
* `Intake.ofAction`: the client that runs an action and takes a refusal for an incomplete message.
* `Intake.drain`, `Intake.serve`: attempts until one fails, after one delivery and after each of
  many.
* `Intake.Frames`, `Intake.Lacks`: the bytes of a message, and bytes without one.

## Main statements

* `Intake.serve_frames`: at any moment the messages that have arrived whole have been found.
* `Intake.serve_eq`: all messages are found, however their bytes were cut.
-/

namespace Octet

variable {τ α : Type}

/-- Lets go of the first bytes that are pending. -/
def Connection.release (count : Nat) (c : Connection τ) : Connection τ :=
  { c with received := c.received.drop count, traffic := c.traffic.consumed count }

theorem Incoming.consume_eq (source : Incoming τ) :
    source.consume = (source.cursor, source.connection.release source.cursor) := rfl

/-- A session that has read something releases it. -/
theorem Incoming.Stands.length_consume_lt {c : Connection τ} {source : Incoming τ} {count : Nat}
    (h : Incoming.Stands c source count) (hpos : 0 < count) :
    source.consume.2.received.length < c.received.length := by
  have hle := (Incoming.walks c).le h
  obtain ⟨hconnection, hcursor⟩ := h
  rw [Incoming.consume_eq, hconnection, hcursor, Connection.release, List.length_drop]
  omega

/-- How a client reads one message off the bytes that have arrived. A message that is found is never
released without a byte. -/
structure Intake (τ α : Type) where
  /-- The message, or none if it is incomplete. -/
  read : Reader (Incoming τ) → Option α × Reader (Incoming τ)
  advances : ∀ {c : Connection τ} {x : α} {r : Reader (Incoming τ)},
    read ⟨c.incoming, false⟩ = (some x, r) →
      r.source.consume.2.received.length < c.received.length

namespace Intake

variable {intake : Intake τ α} {c next : Connection τ} {x : α}

/-- Reads one message and releases it. If it is incomplete, the source is dropped. -/
def attempt (intake : Intake τ α) (c : Connection τ) : Option α × Connection τ :=
  match intake.read ⟨c.incoming, false⟩ with
  | (some x, r) => (some x, r.source.consume.2)
  | (none, r) => (none, r.source.connection)

theorem attempt_advances (h : intake.attempt c = (some x, next)) :
    next.received.length < c.received.length := by
  unfold attempt at h
  split at h
  next x' r hread =>
    obtain ⟨-, rfl⟩ := Prod.mk.inj h
    exact intake.advances hread
  next => cases h

/-- A message was found and the cursor is behind it. -/
theorem attempt_eq_some {r : Reader (Incoming τ)} {count : Nat}
    (hread : intake.read ⟨c.incoming, false⟩ = (some x, r))
    (hstands : Incoming.Stands c r.source count) :
    intake.attempt c = (some x, c.release count) := by
  obtain ⟨hconnection, hcursor⟩ := hstands
  rw [attempt, hread]
  simp only [Incoming.consume_eq, hconnection, hcursor]

/-- An attempt that fails leaves no trace. -/
theorem attempt_eq_none {r : Reader (Incoming τ)}
    (hread : intake.read ⟨c.incoming, false⟩ = (none, r))
    (hinside : r.Inside (Incoming.Stands c)) : intake.attempt c = (none, c) := by
  obtain ⟨_, hconnection, -⟩ := hinside
  rw [attempt, hread]
  simp only [hconnection]

/-- The client that runs an action. What the action refuses is incomplete. -/
def ofAction (act : Action (Reader (Incoming τ)) α)
    (hadvances : ∀ c : Connection τ, act.Ends ⟨c.incoming, false⟩
      (fun _ r => ∃ count, 0 < count ∧ Incoming.Stands c r.source count) (fun _ _ => True)) :
    Intake τ α where
  read r :=
    match act r with
    | .ok x next => (some x, next)
    | .error _ next => (none, next)
  advances {c x r} hread := by
    split at hread
    next hact =>
      cases hread
      obtain ⟨count, hpos, hstands⟩ := (hadvances c).of_ok hact
      exact hstands.length_consume_lt hpos
    next => cases hread

section

variable {act : Action (Reader (Incoming τ)) α}
  {hadvances : ∀ c : Connection τ, act.Ends ⟨c.incoming, false⟩
    (fun _ r => ∃ count, 0 < count ∧ Incoming.Stands c r.source count) (fun _ _ => True)}

theorem attempt_ofAction_of_ok {count : Nat}
    (h : act.Ends ⟨c.incoming, false⟩ (fun y r => y = x ∧ Incoming.Stands c r.source count)
      (fun _ _ => False)) : (ofAction act hadvances).attempt c = (some x, c.release count) := by
  obtain ⟨_, r, hact, rfl, hstands⟩ := h.exists_ok fun _ _ hno => hno
  exact attempt_eq_some (by simp only [ofAction, hact]) hstands

theorem attempt_ofAction_of_error
    (h : act.Ends ⟨c.incoming, false⟩ (fun _ _ => False)
      (fun _ r => r.Inside (Incoming.Stands c))) :
    (ofAction act hadvances).attempt c = (none, c) := by
  cases hact : act ⟨c.incoming, false⟩ with
  | ok x r => exact (h.of_ok hact).elim
  | error e r => exact attempt_eq_none (by simp only [ofAction, hact]) (h.of_error hact)

end

/-- Repeats the attempt until it fails. -/
def drain (intake : Intake τ α) (c : Connection τ) : List α × Connection τ :=
  match _h : intake.attempt c with
  | (none, next) => ([], next)
  | (some x, next) =>
    let (xs, last) := intake.drain next
    (x :: xs, last)
termination_by c.received.length
decreasing_by exact attempt_advances _h

theorem drain_of_none (h : intake.attempt c = (none, next)) : intake.drain c = ([], next) := by
  rw [drain]
  split <;> simp_all

theorem drain_of_some (h : intake.attempt c = (some x, next)) :
    intake.drain c = (x :: (intake.drain next).1, (intake.drain next).2) := by
  rw [drain]
  split <;> simp_all

/-- Has fragments delivered one after another, and drains what has arrived after each. -/
def serve (intake : Intake τ α) : List Bytes → Connection τ → List α × Connection τ
  | [], c => ([], c)
  | fragment :: rest, c =>
    let (xs, next) := intake.drain (c.receive fragment)
    let (ys, last) := intake.serve rest next
    (xs ++ ys, last)

theorem serve_cons (intake : Intake τ α) (fragment : Bytes) (rest : List Bytes)
    (c : Connection τ) :
    let drained := intake.drain (c.receive fragment)
    intake.serve (fragment :: rest) c =
      (drained.1 ++ (intake.serve rest drained.2).1, (intake.serve rest drained.2).2) := rfl

/-- The bytes of a message. Once they are all there it is found, whatever follows, and just they are
released. From a part of them nothing is found. -/
structure Frames (intake : Intake τ α) (x : α) (message : Bytes) : Prop where
  whole : ∀ {c : Connection τ} {rest : Bytes}, c.received = message ++ rest →
    intake.attempt c = (some x, c.release message.length)
  part : ∀ {c : Connection τ} {missing : Bytes}, message = c.received ++ missing →
    missing ≠ [] → intake.attempt c = (none, c)

/-- No message is found in the bytes, nor in a first part of them. -/
def Lacks (intake : Intake τ α) (tail : Bytes) : Prop :=
  ∀ {c : Connection τ}, c.received <+: tail → intake.attempt c = (none, c)

variable {messages : List (α × Bytes)} {tail future : Bytes} {fragments : List Bytes}

/-- Of the messages whose bytes have `arrived`, or are to come, just these were `found`, all that
have arrived whole. Their bytes were released, and there is no other message to be found yet. -/
structure Found (intake : Intake τ α) (arrived future : Bytes) (found rest : List (α × Bytes))
    (tail : Bytes) (c : Connection τ) : Prop where
  arrived : arrived = found.flatMap Prod.snd ++ c.received
  ahead : c.received ++ future = rest.flatMap Prod.snd ++ tail
  waits : intake.attempt c = (none, c)

theorem Found.cons {arrived : Bytes} {found rest : List (α × Bytes)} (m : α × Bytes)
    (h : intake.Found arrived future found rest tail c) :
    intake.Found (m.2 ++ arrived) future (m :: found) rest tail c where
  arrived := by simp [h.arrived]
  ahead := h.ahead
  waits := h.waits

/-- While a client waits, a part of the next message is missing. -/
theorem Found.length_lt {arrived : Bytes} {found rest : List (α × Bytes)} {m : α × Bytes}
    (h : intake.Found arrived future found (m :: rest) tail c)
    (hframes : intake.Frames m.1 m.2) : c.received.length < m.2.length := by
  apply Nat.lt_of_not_le
  intro hle
  have hahead := h.ahead
  rw [List.flatMap_cons, List.append_assoc] at hahead
  obtain ⟨behind, hbehind⟩ : m.2 <+: c.received :=
    List.prefix_of_prefix_length_le ⟨_, hahead.symm⟩ (List.prefix_append ..) hle
  have hfound := hframes.whole hbehind.symm
  rw [h.waits] at hfound
  cases hfound

/-- When everything has arrived, all messages have been found. -/
theorem Found.rest_eq_nil {arrived : Bytes} {found rest : List (α × Bytes)}
    (h : intake.Found arrived [] found rest tail c)
    (hframes : ∀ m ∈ rest, intake.Frames m.1 m.2) : rest = [] := by
  cases rest with
  | nil => rfl
  | cons m rest =>
    have hlt := h.length_lt (hframes m List.mem_cons_self)
    have hlen := congrArg List.length h.ahead
    grind

theorem drain_frames (hframes : ∀ m ∈ messages, intake.Frames m.1 m.2) (hlacks : intake.Lacks tail)
    (h : c.received ++ future = messages.flatMap Prod.snd ++ tail) :
    ∃ found rest, messages = found ++ rest ∧
      intake.drain c =
        (found.map Prod.fst, c.release (found.flatMap Prod.snd).length) ∧
      intake.Found c.received future found rest tail (intake.drain c).2 := by
  induction messages generalizing c with
  | nil =>
    have hnone := hlacks (c := c) ⟨future, h⟩
    rw [drain_of_none hnone]
    exact ⟨[], [], rfl, rfl, rfl, h, hnone⟩
  | cons m messages ih =>
    obtain ⟨hm, hrest⟩ := List.forall_mem_cons.mp hframes
    rw [List.flatMap_cons, List.append_assoc] at h
    by_cases hwhole : m.2 <+: c.received
    · obtain ⟨after, hc⟩ := hwhole
      have hafter : (c.release m.2.length).received = after := by
        rw [Connection.release, ← hc, List.drop_left]
      rw [← hc, List.append_assoc, List.append_cancel_left_eq, ← hafter] at h
      obtain ⟨found, rest, rfl, hdrain, hfound⟩ := ih hrest h
      rw [drain_of_some (hm.whole hc.symm)]
      refine ⟨m :: found, rest, rfl, ?_, ?_⟩
      · rw [hdrain]
        simp [Connection.release, Traffic.consumed, Nat.add_assoc]
      · have := hfound.cons m
        rwa [hafter, hc] at this
    · -- A part of the first message is missing.
      obtain ⟨missing, hmissing⟩ : c.received <+: m.2 :=
        (List.prefix_or_prefix_of_prefix ⟨future, h⟩ ⟨_, rfl⟩).resolve_right hwhole
      have hnone := hm.part hmissing.symm (by
        rintro rfl
        rw [List.append_nil] at hmissing
        exact hwhole ⟨[], by simp [hmissing]⟩)
      rw [drain_of_none hnone]
      refine ⟨[], m :: messages, rfl, rfl, rfl, ?_, hnone⟩
      simp [h]

/-- At any moment the messages found are the first ones, just those whose bytes have all arrived.
The bytes of the others are pending as far as they have come. -/
theorem serve_frames (hframes : ∀ m ∈ messages, intake.Frames m.1 m.2) (hlacks : intake.Lacks tail)
    (hwaits : intake.attempt c = (none, c))
    (h : c.received ++ fragments.flatten ++ future = messages.flatMap Prod.snd ++ tail) :
    ∃ found rest, messages = found ++ rest ∧
      (intake.serve fragments c).1 = found.map Prod.fst ∧
      (intake.serve fragments c).2.traffic.bytesConsumed =
        c.traffic.bytesConsumed + (found.flatMap Prod.snd).length ∧
      intake.Found (c.received ++ fragments.flatten) future found rest tail
        (intake.serve fragments c).2 := by
  induction fragments generalizing c messages with
  | nil =>
    refine ⟨[], messages, rfl, rfl, rfl, ?_, ?_, hwaits⟩
    · simp [serve]
    · simpa [serve] using h
  | cons fragment fragments ih =>
    have hreceive : (c.receive fragment).received = c.received ++ fragment := rfl
    have hall : (c.receive fragment).received ++ (fragments.flatten ++ future) =
        messages.flatMap Prod.snd ++ tail := by
      simpa [hreceive] using h
    obtain ⟨found, rest, rfl, hdrain, hfound⟩ := drain_frames hframes hlacks hall
    obtain ⟨hfirst, hlater⟩ := List.forall_mem_append.mp hframes
    have hahead := hfound.ahead
    rw [← List.append_assoc] at hahead
    obtain ⟨more, rest, rfl, hvalues, hconsumed, hmore⟩ := ih hlater hfound.waits hahead
    refine ⟨found ++ more, rest, by simp, ?_, ?_, ?_, hmore.ahead, hmore.waits⟩
    · rw [serve_cons, hvalues, hdrain, List.map_append]
    · rw [serve_cons, hconsumed, hdrain, List.flatMap_append, List.length_append]
      simp [Connection.release, Connection.receive, Traffic.consumed, Traffic.received,
        Nat.add_assoc]
    · have harrived := hfound.arrived
      rw [hreceive] at harrived
      rw [List.flatten_cons, ← List.append_assoc, harrived, List.append_assoc, hmore.arrived,
        List.flatMap_append, List.append_assoc]
      rfl

/-- However the bytes of messages are cut, all of the messages are found, and just what follows them
is pending in the end. -/
theorem serve_eq (hframes : ∀ m ∈ messages, intake.Frames m.1 m.2) (hlacks : intake.Lacks tail)
    (hwaits : intake.attempt c = (none, c))
    (h : c.received ++ fragments.flatten = messages.flatMap Prod.snd ++ tail) :
    (intake.serve fragments c).1 = messages.map Prod.fst ∧
      (intake.serve fragments c).2.received = tail ∧
      (intake.serve fragments c).2.traffic.bytesConsumed =
        c.traffic.bytesConsumed + (messages.flatMap Prod.snd).length := by
  rw [← List.append_nil (c.received ++ _)] at h
  obtain ⟨found, rest, rfl, hvalues, hconsumed, hfound⟩ := serve_frames hframes hlacks hwaits h
  obtain rfl := hfound.rest_eq_nil (List.forall_mem_append.mp hframes).2
  rw [List.append_nil]
  refine ⟨hvalues, ?_, hconsumed⟩
  simpa using hfound.ahead

end Intake

end Octet
