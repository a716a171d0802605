import Mathlib.Data.List.Forall2
import Octet.Proofs.Connection.Intake
import Octet.Proofs.Reader.Call

/-!
# Messages of a fixed shape

A message whose fields are read by one row of calls takes the same count of bytes each time. A
client that reads such messages off a connection obtains all of them, whatever fragments their bytes
arrive in.

## Main definitions

* `Shape`: a row of calls that takes bytes, `Shape.intake` the client of messages of this shape.

## Main statements

* `Shape.attempt_of_le`, `Shape.attempt_of_lt`: an attempt succeeds just if enough bytes are
  pending.
* `Shape.serve_eq_decode`: fragmentation does not matter.
-/

namespace Octet

/-- The shape of a message: the calls that read its fields. Together they take at least a byte. -/
structure Shape where
  calls : List Reader.Call
  width_pos : 0 < Reader.width calls

namespace Shape

variable {τ : Type} {shape : Shape} {c : Connection τ}

/-- The count of bytes of a message. -/
def width (shape : Shape) : Nat := Reader.width shape.calls

/-- What the bytes of a message say. -/
def decode (shape : Shape) (message : Bytes) : List Reader.Reply :=
  Reader.decodeAll shape.calls message

/-- Bytes that a writer makes for the fields of a message. -/
def Encodes (shape : Shape) (fields : List Reader.Reply) (message : Bytes) : Prop :=
  Reader.Encodes shape.calls fields message

/-- Reads the fields with one reader. They count if the chain is unbroken at the end. -/
def read (shape : Shape) (r : Reader (Incoming τ)) :
    Option (List Reader.Reply) × Reader (Incoming τ) :=
  let (replies, r) := Reader.performAll shape.calls r
  (if r.isOk then some replies else none, r)

theorem read_of_le (h : shape.width ≤ c.received.length) :
    ∃ r, shape.read ⟨c.incoming, false⟩ = (some (shape.decode c.received), r) ∧
      Incoming.Stands c r.source shape.width := by
  have hle : 0 + Reader.width shape.calls ≤ c.received.length := by
    rwa [Nat.zero_add]
  obtain ⟨hreplies, hfailed, hstands⟩ :=
    (Incoming.stands_reader c).performAll (Incoming.walks c) hle
  rw [Nat.zero_add] at hstands
  refine ⟨_, ?_, hstands⟩
  simp [read, decode, Reader.isOk, hreplies, hfailed]

theorem read_of_lt (h : c.received.length < shape.width) :
    ∃ r, shape.read ⟨c.incoming, false⟩ = (none, r) ∧ r.Inside (Incoming.Stands c) := by
  have hstart := Incoming.stands_reader c
  have hreached := Reader.Reached.performAll (Incoming.walks c) (fun _ => hstart.2) shape.calls
  refine ⟨_, ?_, hstart.inside.performAll (Incoming.walks c) shape.calls⟩
  cases hfailed : (Reader.performAll shape.calls (⟨c.incoming, false⟩ : Reader _)).2.failed with
  | true => simp [read, Reader.isOk, hfailed]
  | false =>
    have hle := (Incoming.walks c).le (hreached hfailed)
    rw [width] at h
    omega

/-- The client that reads messages of a shape. -/
def intake (shape : Shape) : Intake τ (List Reader.Reply) where
  read := shape.read
  advances {c x r} hread := by
    rcases Nat.lt_or_ge c.received.length shape.width with hlt | hle
    · obtain ⟨r', hnone, -⟩ := read_of_lt hlt
      rw [hnone] at hread
      cases hread
    · obtain ⟨r', hsome, hstands⟩ := read_of_le hle
      rw [hsome] at hread
      cases hread
      exact hstands.length_consume_lt shape.width_pos

theorem attempt_of_le (h : shape.width ≤ c.received.length) :
    shape.intake.attempt c = (some (shape.decode c.received), c.release shape.width) := by
  obtain ⟨r, hread, hstands⟩ := read_of_le h
  exact Intake.attempt_eq_some hread hstands

theorem attempt_of_lt (h : c.received.length < shape.width) :
    shape.intake.attempt c = (none, c) := by
  obtain ⟨r, hread, hinside⟩ := read_of_lt h
  exact Intake.attempt_eq_none hread hinside

theorem frames {message : Bytes} (h : message.length = shape.width) :
    (shape.intake : Intake τ _).Frames (shape.decode message) message where
  whole {c rest} hc := by
    have hle : shape.width ≤ c.received.length := by grind
    rw [attempt_of_le hle, hc, h, decode, Reader.decodeAll_append (Nat.le_of_eq h.symm), decode]
  part {c missing} hc hne := by
    have hpos := List.length_pos_iff.mpr hne
    apply attempt_of_lt
    grind

theorem lacks {tail : Bytes} (h : tail.length < shape.width) :
    (shape.intake : Intake τ _).Lacks tail := fun hc =>
  attempt_of_lt (Nat.lt_of_le_of_lt hc.length_le h)

/-- Messages that were made by a writer say what was written. -/
theorem map_decode_eq {values : List (List Reader.Reply)} {messages : List Bytes}
    (h : List.Forall₂ shape.Encodes values messages) : messages.map shape.decode = values := by
  induction h with
  | nil => rfl
  | cons hfirst _ ih => rw [List.map_cons, ih, decode, Reader.Encodes.decodeAll_eq hfirst]

/-- A client has a stream delivered in fragments: whole messages of a shape, and at the end a part
of one more. Wherever the stream is cut, the client obtains what the messages say, in order, and the
part is what is pending in the end. If the messages were made by a writer, it obtains the values
that were written. -/
theorem serve_eq_decode (shape : Shape) {messages : List Bytes}
    (hmessages : ∀ message ∈ messages, message.length = shape.width) {tail : Bytes}
    (htail : tail.length < shape.width) {fragments : List Bytes}
    (hcut : fragments.flatten = messages.flatten ++ tail) {c : Connection τ}
    (hc : c.received = []) :
    let served := shape.intake.serve fragments c
    served.1 = messages.map shape.decode ∧
      (∀ values, List.Forall₂ shape.Encodes values messages → served.1 = values) ∧
      served.2.received = tail ∧
      served.2.traffic.bytesConsumed =
        c.traffic.bytesConsumed + messages.length * shape.width := by
  intro served
  let framed := messages.map fun message => (shape.decode message, message)
  have hbytes : framed.flatMap Prod.snd = messages.flatten := by
    simp [framed, List.flatMap_map]
  have hframes : ∀ m ∈ framed, (shape.intake : Intake τ _).Frames m.1 m.2 := by
    intro m hm
    obtain ⟨message, hmessage, rfl⟩ := List.mem_map.mp hm
    exact frames (hmessages message hmessage)
  have hwaits : shape.intake.attempt c = (none, c) := by
    apply attempt_of_lt
    rw [hc]
    exact shape.width_pos
  have hstream : c.received ++ fragments.flatten = framed.flatMap Prod.snd ++ tail := by
    simp [hc, hcut, hbytes]
  obtain ⟨hvalues, hpending, hconsumed⟩ := Intake.serve_eq hframes (lacks htail) hwaits hstream
  have hdecoded : served.1 = messages.map shape.decode := by
    rw [hvalues, List.map_map]
    rfl
  have hwidth : messages.flatten.length = messages.length * shape.width := by
    rw [List.length_flatten, List.map_congr_left hmessages, List.map_const', List.sum_replicate_nat]
  refine ⟨hdecoded, fun values hencoded => ?_, hpending, ?_⟩
  · rw [hdecoded, map_decode_eq hencoded]
  · rw [hconsumed, hbytes, hwidth]

/-- Two messages of a number, a byte that does not matter and two bytes. They are cut inside both
numbers, and one delivery is empty. -/
theorem serve_eq_decode_in_fragments :
    let shape : Shape := ⟨[.read .u16 0, .skip .u8, .readBytes 2], by decide⟩
    let served := shape.intake.serve [[1], [0, 9], [], [7, 8, 2], [0, 0, 5, 6, 3]]
      ({ transport := (), limit := 0 } : Connection Unit)
    served.1 = [[.value .u16 1, .passed, .bytes [7, 8]], [.value .u16 2, .passed, .bytes [5, 6]]] ∧
      served.2.received = [3] ∧ served.2.traffic.bytesConsumed = 10 := by
  intro shape served
  have hencodes (n : UInt16) (skipped a b : UInt8) :
      shape.Encodes [.value .u16 n, .passed, .bytes [a, b]]
        (Scalar.u16.encode n ++ ([skipped] ++ ([a, b] ++ []))) :=
    .cons (.read .u16 0 n) (.cons (.skip .u8 rfl) (.cons (.readBytes [a, b]) .nil))
  have hvalues := List.Forall₂.cons (hencodes 1 9 7 8) (.cons (hencodes 2 0 5 6) .nil)
  have hmessages : ∀ message ∈ ([[1, 0, 9, 7, 8], [2, 0, 0, 5, 6]] : List Bytes),
      message.length = shape.width := by decide
  have htail : ([3] : Bytes).length < shape.width := by decide
  have hcut : ([[1], [0, 9], [], [7, 8, 2], [0, 0, 5, 6, 3]] : List Bytes).flatten =
      [[1, 0, 9, 7, 8], [2, 0, 0, 5, 6]].flatten ++ [3] := rfl
  have hc : ({ transport := (), limit := 0 } : Connection Unit).received = [] := rfl
  obtain ⟨-, hserved, hpending, hconsumed⟩ := shape.serve_eq_decode hmessages htail hcut hc
  exact ⟨hserved _ hvalues, hpending, hconsumed⟩

end Shape

end Octet
