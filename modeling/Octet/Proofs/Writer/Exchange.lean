import Octet.Proofs.Connection.Session
import Octet.Proofs.Sink.Exact

/-!
# Sinks in place of one another

Whatever sink a writer has, as long as the contents fit it builds the same bytes. A client that goes
by what its calls bring, and by what the writer says of itself after each of them, cannot tell one
sink from another, nor from the bare bytes.

## Main definitions

* `Building.Call`, `Building.Reply`: the calls that build, and what they bring.
* `Building.observe`: a call made on a writer, with a look at the writer afterwards.
* `Building.build`: the same call made on nothing but bytes.

## Main statements

* `Building.observe_eq`: a writer on an exact sink is seen to build.
* `Building.run_eq_build`: so are writers on a buffer, a harmless stream and a message.
-/

namespace Octet

namespace Building

/-- A call of a client that builds. Slots may come from anywhere. -/
inductive Call
  | append (data : Bytes)
  | write (t : Scalar) (value : t.Value)
  | writeList (t : Scalar) (values : List t.Value)
  | capture (t : Scalar)
  | reserve (t : Scalar)
  | reserveArray (t : Scalar) (n : Nat)
  | slot {t : Scalar} {n : Nat} (slots : SlotArray t n) (index : Nat)
  | commit {t : Scalar} (slot : Slot t) (value : t.Value)
  | commitArray {t : Scalar} {n : Nat} (slots : SlotArray t n) (values : Vector t.Value n)

/-- What a call brings. -/
inductive Reply
  | written
  | slot (t : Scalar) (slot : Option (Slot t))
  | slots (t : Scalar) (n : Nat) (slots : SlotArray t n)
  | corrected (outcome : Except Error Unit)

/-- What a call brings, and what the writer says of itself afterwards. -/
structure View where
  reply : Reply
  isOk : Bool
  position : Nat

/-! ## On a writer -/

section

variable {σ : Type} [Sink σ]

/-- Makes a correction. -/
def correct (act : Action (Writer σ) Unit) (w : Writer σ) : Reply × Writer σ :=
  match act w with
  | .ok _ next => (.corrected (.ok ()), next)
  | .error e next => (.corrected (.error e), next)

/-- Makes a call. -/
def perform : Call → Writer σ → Reply × Writer σ
  | .append data, w => (.written, w.append data)
  | .write t value, w => (.written, w.write t value)
  | .writeList t values, w => (.written, w.writeList t values)
  | .capture t, w => (.slot t (w.capture t), w)
  | .reserve t, w =>
    let (slot, w) := w.reserve t
    (.slot t slot, w)
  | .reserveArray t n, w =>
    let (slots, w) := w.reserveArray t n
    (.slots t n slots, w)
  | .slot (t := t) slots index, w => (.slot t (slots.slot? index), w)
  | .commit slot value, w => correct (Writer.commit slot value) w
  | .commitArray slots values, w => correct (Writer.commitArray slots values) w

/-- Makes a call and looks at the writer. -/
def observe (call : Call) (w : Writer σ) : Answer View (Call × View) (Writer σ) :=
  let (reply, next) := perform call w
  let view := ⟨reply, next.isOk, next.position⟩
  ⟨view, [(call, view)], next⟩

end

/-! ## On bytes -/

/-- Corrects bytes, unless the place lies outside them. -/
def patch (offset : Nat) (data content : Bytes) : Except Error Unit × Bytes :=
  if offset + data.length ≤ content.length then (.ok (), content.overlay offset data)
  else (.error (.patchOutOfRange offset data.length content.length), content)

/-- Corrects values that follow one another, up to the first that lies outside. -/
def patchFrom (t : Scalar) (offset : Nat) : List t.Value → Bytes → Except Error Unit × Bytes
  | [], content => (.ok (), content)
  | value :: rest, content =>
    match patch offset (t.encode value) content with
    | (.ok _, next) => patchFrom t (offset + t.width) rest next
    | (.error e, next) => (.error e, next)

/-- What a call brings, and what it makes of the bytes. -/
def make : Call → Bytes → Reply × Bytes
  | .append data, content => (.written, content ++ data)
  | .write t value, content => (.written, content ++ t.encode value)
  | .writeList t values, content => (.written, content ++ t.encodeList values)
  | .capture t, content => (.slot t (some ⟨content.length⟩), content)
  | .reserve t, content => (.slot t (some ⟨content.length⟩), content ++ t.encode t.zero)
  | .reserveArray t n, content =>
    (.slots t n ⟨content.length⟩, content ++ t.encodeList (List.replicate n t.zero))
  | .slot (t := t) slots index, content => (.slot t (slots.slot? index), content)
  | .commit (t := t) slot value, content =>
    let (outcome, content) := patch slot.offset (t.encode value) content
    (.corrected outcome, content)
  | .commitArray (t := t) slots values, content =>
    let (outcome, content) := patchFrom t slots.offset values.toList content
    (.corrected outcome, content)

/-- Makes a call on bytes. Nothing fails for good, and the position is at the end. -/
def build (call : Call) (content : Bytes) : Answer View (Call × View) Bytes :=
  let (reply, content) := make call content
  let view := ⟨reply, true, content.length⟩
  ⟨view, [(call, view)], content⟩

variable {offset : Nat} {data content : Bytes} {t : Scalar}

@[simp] theorem patch_of_le (h : offset + data.length ≤ content.length) :
    patch offset data content = (.ok (), content.overlay offset data) :=
  if_pos h

@[simp] theorem patch_of_lt (h : content.length < offset + data.length) :
    patch offset data content =
      (.error (.patchOutOfRange offset data.length content.length), content) :=
  if_neg (Nat.not_le.mpr h)

@[simp, grind =] theorem length_patch (offset : Nat) (data content : Bytes) :
    (patch offset data content).2.length = content.length := by
  rcases Nat.lt_or_ge content.length (offset + data.length) with hlt | hle
  · rw [patch_of_lt hlt]
  · rw [patch_of_le hle]
    exact Bytes.length_overlay_of_le hle

@[simp, grind =] theorem length_patchFrom (t : Scalar) (offset : Nat) (values : List t.Value)
    (content : Bytes) :
    (patchFrom t offset values content).2.length = content.length := by
  induction values generalizing offset content with
  | nil => rfl
  | cons value rest ih =>
    have hlen := length_patch offset (t.encode value) content
    rw [patchFrom]
    split
    next heq =>
      rw [heq] at hlen
      exact (ih _ _).trans hlen
    next heq =>
      rw [heq] at hlen
      exact hlen

/-- What is built never gets shorter. -/
theorem length_le_length_build (call : Call) (content : Bytes) :
    content.length ≤ (build call content).state.length := by
  cases call with
  | capture t | slot slots index => exact Nat.le_refl _
  | commit slot value => exact Nat.le_of_eq (length_patch ..).symm
  | commitArray slots values => exact Nat.le_of_eq (length_patchFrom ..).symm
  | _ =>
    simp only [build, make, List.length_append]
    omega

/-! ## The two compared -/

section

variable {σ : Type} {holds : σ → Bytes → Prop} {room : Nat} {w : Writer σ}

/-- A correction ended as one of bytes did, and left the same bytes. -/
def Corrected (holds : σ → Bytes → Prop) (patched : Except Error Unit × Bytes)
    (outcome : Except Error Unit) (w : Writer σ) : Prop :=
  outcome = patched.1 ∧ w.Holds holds patched.2

theorem correct_eq {act : Action (Writer σ) Unit} {patched : Except Error Unit × Bytes}
    (h : act.Ends w (fun _ => Corrected holds patched (.ok ()))
      (fun e => Corrected holds patched (.error e))) :
    (correct act w).1 = .corrected patched.1 ∧ (correct act w).2.Holds holds patched.2 := by
  unfold correct
  cases hact : act w with
  | ok _ next =>
    obtain ⟨houtcome, hnext⟩ := h.of_ok hact
    exact ⟨congrArg Reply.corrected houtcome, hnext⟩
  | error e next =>
    obtain ⟨houtcome, hnext⟩ := h.of_error hact
    exact ⟨congrArg Reply.corrected houtcome, hnext⟩

variable [Sink σ]

theorem holds_append (hsink : Sink.Exact room holds) (h : w.Holds holds content)
    (hle : (content ++ data).length ≤ room) : (w.append data).Holds holds (content ++ data) := by
  obtain ⟨hw, hs⟩ := h
  obtain ⟨next, hwrite, hnext⟩ := hsink.write data hs hle
  simp only [Writer.append, hw, hwrite]
  exact ⟨bne_self_eq_false .., hnext⟩

theorem commit_ends (hsink : Sink.Exact room holds) (h : w.Holds holds content)
    (hle : content.length ≤ room) (slot : Slot t) (value : t.Value) :
    (Writer.commit slot value).Ends w
      (fun _ => Corrected holds (patch slot.offset (t.encode value) content) (.ok ()))
      (fun e => Corrected holds (patch slot.offset (t.encode value) content) (.error e)) := by
  obtain ⟨hw, hs⟩ := h
  unfold Action.Ends Writer.commit
  rcases Nat.lt_or_ge content.length (slot.offset + (t.encode value).length) with hlt | hinside
  · rw [patch_of_lt hlt]
    simp only [hw, hsink.refuse _ hs hlt]
    exact ⟨rfl, rfl, hs⟩
  · obtain ⟨next, hover, hnext⟩ := hsink.overwrite _ hs hle hinside
    rw [patch_of_le hinside]
    simp only [hw, hover, Scalar.length_encode]
    exact ⟨rfl, rfl, hnext⟩

theorem commitFrom_ends (hsink : Sink.Exact room holds) (h : w.Holds holds content)
    (hle : content.length ≤ room) (t : Scalar) (offset : Nat) (values : List t.Value) :
    (Writer.commitFrom t offset values).Ends w
      (fun _ => Corrected holds (patchFrom t offset values content) (.ok ()))
      (fun e => Corrected holds (patchFrom t offset values content) (.error e)) := by
  induction values generalizing w content offset with
  | nil => exact Action.ends_pure.mpr ⟨rfl, h⟩
  | cons value rest ih =>
    have hcommit := commit_ends hsink h hle ⟨offset⟩ value
    have hlen := length_patch offset (t.encode value) content
    rw [Writer.commitFrom, Action.ends_bind, patchFrom]
    rcases hpatch : patch offset (t.encode value) content with ⟨outcome, patched⟩
    simp only [hpatch] at hcommit hlen
    apply hcommit.mono
    · rintro _ next ⟨rfl, hnext⟩
      -- A correction keeps the length, so that there is still room for the bytes.
      exact ih hnext (hlen ▸ hle) _
    · rintro e next ⟨rfl, hnext⟩
      exact ⟨rfl, hnext⟩

theorem perform_eq (hsink : Sink.Exact room holds) (h : w.Holds holds content) (call : Call)
    (hle : (make call content).2.length ≤ room) :
    (perform call w).1 = (make call content).1 ∧
      (perform call w).2.Holds holds (make call content).2 := by
  have hposition : w.position = content.length := hsink.position h.2
  have hcontent : content.length ≤ room := Nat.le_trans (length_le_length_build call content) hle
  cases call with
  | append data | write t value | writeList t values => exact ⟨rfl, holds_append hsink h hle⟩
  | capture t => exact ⟨congrArg (fun n => Reply.slot t (some ⟨n⟩)) hposition, h⟩
  | reserve t =>
    exact ⟨congrArg (fun n => Reply.slot t (some ⟨n⟩)) hposition, holds_append hsink h hle⟩
  | reserveArray t n =>
    exact ⟨congrArg (fun offset => Reply.slots t n ⟨offset⟩) hposition, holds_append hsink h hle⟩
  | slot slots index => exact ⟨rfl, h⟩
  | commit slot value => exact correct_eq (commit_ends hsink h hcontent slot value)
  | commitArray slots values => exact correct_eq (commitFrom_ends hsink h hcontent _ _ _)

/-- A call on a writer is seen to do what it does to bytes, as long as they fit. -/
theorem observe_eq (hsink : Sink.Exact room holds) (h : w.Holds holds content) (call : Call)
    (hle : (build call content).state.length ≤ room) :
    (observe call w).seen = (build call content).seen ∧
      (observe call w).state.Holds holds (build call content).state := by
  obtain ⟨hreply, hnext⟩ := perform_eq hsink h call hle
  have hposition : (perform call w).2.position = _ := hsink.position hnext.2
  refine ⟨?_, hnext⟩
  simp only [observe, build, Answer.seen, Writer.isOk, hreply, hnext.1, hposition, Bool.not_false]

theorem run_eq (hsink : Sink.Exact room holds) (h : w.Holds holds content) {α : Type}
    (client : Client Call View Unit α)
    (hle : (client.blind.run build content).state.length ≤ room) :
    (client.blind.run observe w).seen = (client.blind.run build content).seen ∧
      (client.blind.run observe w).state.Holds holds (client.blind.run build content).state :=
  Client.seen_run_blind (fun content (w : Writer σ) => w.Holds holds content)
    (fun content => content.length ≤ room)
    (fun call content hle => Nat.le_trans (length_le_length_build call content) hle)
    (fun call _ _ h hle => observe_eq hsink h call hle) client h hle

end

/-- However a client builds, writers on a buffer that holds `front`, on a stream that contains it
with the cursor at the end, and on a message that has staged it are seen to do what the calls do to
the bytes alone, and leave the same bytes in the end. Transfers of the stream may be cut short and
interrupted, and its offsets have 64 bits. What is built must not pass the limit of the message. -/
theorem run_eq_build {τ α : Type} [Transport τ] (front : Bytes)
    (client : Client Call View Unit α) :
    let built := client.blind.run build front
    (client.blind.run observe ({ sink := ⟨front⟩ } : Writer Buffer)).mapState (·.sink.content) =
        built ∧
      (∀ stream : Stream, stream.content = front → stream.cursor = front.length →
        stream.faults.Harmless → built.state.length < UInt64.size →
        ∃ sink, StreamSink.ofStream stream = .ok sink ∧
          (client.blind.run observe ({ sink } : Writer StreamSink)).mapState
            (·.sink.stream.content) = built) ∧
      ∀ message : Outgoing τ, message.staged = front →
        built.state.length ≤ message.connection.limit →
        (client.blind.run observe ({ sink := message } : Writer (Outgoing τ))).mapState (·.sink) =
          built.mapState (Outgoing.mk message.connection) := by
  intro built
  refine ⟨?_, ?_, ?_⟩
  · have hstart : ({ sink := ⟨front⟩ } : Writer Buffer).Holds Buffer.Holds front := ⟨rfl, rfl⟩
    obtain ⟨hseen, hlast⟩ := run_eq Buffer.exact hstart client (Nat.le_refl _)
    exact Answer.mapState_eq hseen hlast.2
  · rintro stream rfl hcursor hf hlt
    have hfront : stream.content.length ≤ built.state.length :=
      client.blind.run_invariant build (fun _ content => stream.content.length ≤ content.length)
        (fun call _ content hle => Nat.le_trans hle (length_le_length_build call content)) []
        (Nat.le_refl _)
    obtain ⟨sink, hsink⟩ :=
      StreamSink.exists_ofStream hf (hcursor ▸ Nat.lt_of_le_of_lt hfront hlt)
    have hstart : ({ sink } : Writer StreamSink).Holds (StreamSink.Holds stream.faults)
        stream.content := ⟨rfl, StreamSink.holds_of_ofStream hcursor hsink⟩
    obtain ⟨hseen, hlast⟩ := run_eq (StreamSink.exact hf hlt) hstart client (Nat.le_refl _)
    exact ⟨sink, hsink, Answer.mapState_eq hseen hlast.2.1⟩
  · rintro message rfl hle
    have hstart : ({ sink := message } : Writer (Outgoing τ)).Holds
        (Outgoing.Holds message.connection) message.staged := ⟨rfl, rfl⟩
    obtain ⟨hseen, hlast⟩ := run_eq (Outgoing.exact message.connection) hstart client hle
    exact Answer.mapState_eq hseen hlast.2

/-- The stream takes one byte at a time, or is interrupted, and the message reaches its limit. The
client corrects at a place where nothing has been written yet, goes on, and corrects what it
reserved. -/
theorem run_eq_build_byte_by_byte :
    let client : Client Call View Unit Unit :=
      .call (.reserve .u16) fun view _ =>
        match view.reply with
        | .slot .u16 (some slot) =>
          .call (.capture .u32) fun view _ =>
            match view.reply with
            | .slot .u32 (some late) =>
              .call (.commit late 1) fun _ _ => .call (.append [8]) fun _ _ =>
                .call (.commit slot 513) fun _ _ => .done ()
            | _ => .done ()
        | _ => .done ()
    let stream : Stream :=
      { content := [7, 7], cursor := 2, faults := .scheduled [0, 3] [] "" (some 1) }
    let message : Outgoing Connection.Scripted := ⟨{ transport := ⟨[]⟩, limit := 5 }, [7, 7]⟩
    let built : Answer Unit (Call × View) Bytes :=
      ⟨(), [(.reserve .u16, ⟨.slot .u16 (some ⟨2⟩), true, 4⟩),
        (.capture .u32, ⟨.slot .u32 (some ⟨4⟩), true, 4⟩),
        (.commit (t := .u32) ⟨4⟩ 1, ⟨.corrected (.error (.patchOutOfRange 4 4 4)), true, 4⟩),
        (.append [8], ⟨.written, true, 5⟩),
        (.commit (t := .u16) ⟨2⟩ 513, ⟨.corrected (.ok ()), true, 5⟩)], [7, 7, 1, 2, 8]⟩
    (∃ sink, StreamSink.ofStream stream = .ok sink ∧
      (client.blind.run observe ({ sink } : Writer StreamSink)).mapState
        (·.sink.stream.content) = built) ∧
      (client.blind.run observe (Writer.mk message false)).mapState (·.sink) =
        built.mapState (Outgoing.mk message.connection) := by
  intro client stream message built
  have hf : stream.faults.Harmless := Faults.harmless_scheduled [0, 3] "" (by decide)
  obtain ⟨-, hstream, hmessage⟩ := @run_eq_build Connection.Scripted _ _ [7, 7] client
  have hbuilt : client.blind.run build [7, 7] = built := rfl
  rw [hbuilt] at hstream hmessage
  exact ⟨hstream stream rfl rfl hf (by decide), hmessage message rfl (by decide)⟩

end Building

end Octet
