import Mathlib.Algebra.GroupWithZero.Nat
import Octet.Proofs.Source.Contract

/-!
# Calls on readers

The calls of a reader as data. A row of calls takes as many bytes as the calls are wide together,
and brings what these bytes spell, piece by piece.

## Main definitions

* `Reader.Call`, `Reader.Reply`: the calls and what they bring, `Reader.performAll` a row of them.
* `Reader.Call.decode`, `Reader.decodeAll`: what bytes say, without a reader.
* `Reader.Encodes`: the values of a row of calls, and bytes that were written for them.

## Main statements

* `Reader.Stands.performAll`: where all bytes are there, a row of calls brings what they say.
* `Reader.Reached.performAll`: a row of calls fails unless they all are.
* `Reader.Encodes.decodeAll_eq`: what was written for values spells them.
-/

namespace Octet

namespace Reader

/-- A call of the chain. Of a read that may leave its output alone, the output is known. -/
inductive Call
  | read (t : Scalar) (current : t.Value)
  | read? (t : Scalar)
  | readArray (t : Scalar) {n : Nat} (current : Vector t.Value n)
  | readBytes (want : Nat)
  | skip (t : Scalar)
  | skipBytes (count : Nat)

/-- What a call brings. -/
inductive Reply
  | value (t : Scalar) (value : t.Value)
  | value? (t : Scalar) (value : Option t.Value)
  | values (t : Scalar) (values : List t.Value)
  | bytes (data : Bytes)
  | passed

namespace Call

/-- The count of bytes that a call takes. -/
def width : Call → Nat
  | .read t _ | .read? t | .skip t => t.width
  | .readArray t (n := n) _ => n * t.width
  | .readBytes count | .skipBytes count => count

/-- Whether a call brings something, or only passes over bytes. -/
def isRead : Call → Bool
  | .skip _ | .skipBytes _ => false
  | _ => true

/-- What bytes of the width of a call say. -/
def decode : Call → Bytes → Reply
  | .read t _, data => .value t (t.decode data)
  | .read? t, data => .value? t (some (t.decode data))
  | .readArray t (n := n) _, data => .values t (t.decodeList n data)
  | .readBytes _, data => .bytes data
  | .skip _, _ | .skipBytes _, _ => .passed

/-- Bytes that a writer makes for what a call brings. What is passed over may be anything. -/
inductive Encodes : Call → Reply → Bytes → Prop
  | read (t : Scalar) (current value : t.Value) :
    Encodes (.read t current) (.value t value) (t.encode value)
  | read? (t : Scalar) (value : t.Value) :
    Encodes (.read? t) (.value? t (some value)) (t.encode value)
  | readArray (t : Scalar) {n : Nat} (current values : Vector t.Value n) :
    Encodes (.readArray t current) (.values t values.toList) (t.encodeList values.toList)
  | readBytes (data : Bytes) : Encodes (.readBytes data.length) (.bytes data) data
  | skip (t : Scalar) {data : Bytes} (h : data.length = t.width) : Encodes (.skip t) .passed data
  | skipBytes (data : Bytes) : Encodes (.skipBytes data.length) .passed data

variable {call : Call} {reply : Reply} {data : Bytes}

theorem Encodes.length_eq (h : call.Encodes reply data) : data.length = call.width := by
  cases h <;> simp_all [width]

theorem Encodes.decode_eq (h : call.Encodes reply data) : call.decode data = reply := by
  cases h with
  | readArray t current values =>
    have hvalues := t.decodeList_encodeList values.toList
    rw [Vector.length_toList] at hvalues
    rw [decode, hvalues]
  | _ => simp [decode]

end Call

/-! ## Rows of calls -/

/-- The count of bytes that a row of calls takes. -/
def width (calls : List Call) : Nat := (calls.map Call.width).sum

/-- What bytes say to a row of calls. -/
def decodeAll : List Call → Bytes → List Reply
  | [], _ => []
  | call :: rest, data =>
    call.decode (data.take call.width) :: decodeAll rest (data.drop call.width)

/-- Bytes that a writer makes, one piece after another, for what a row of calls brings. -/
inductive Encodes : List Call → List Reply → Bytes → Prop
  | nil : Encodes [] [] []
  | cons {call : Call} {reply : Reply} {piece data : Bytes} {calls : List Call}
    {replies : List Reply} (first : call.Encodes reply piece) (rest : Encodes calls replies data) :
    Encodes (call :: calls) (reply :: replies) (piece ++ data)

variable {calls : List Call} {replies : List Reply} {data rest : Bytes}

@[simp, grind =] theorem width_cons (call : Call) (calls : List Call) :
    width (call :: calls) = call.width + width calls := by
  simp [width]

theorem Encodes.decodeAll_eq (h : Encodes calls replies data) :
    decodeAll calls data = replies := by
  induction h with
  | nil => rfl
  | cons first _ ih =>
    have hlen := first.length_eq
    rw [decodeAll, List.take_left' hlen, List.drop_left' hlen, first.decode_eq, ih]

/-- Only as many bytes are looked at as the calls take. -/
theorem decodeAll_append (h : width calls ≤ data.length) :
    decodeAll calls (data ++ rest) = decodeAll calls data := by
  induction calls generalizing data with
  | nil => rfl
  | cons call calls ih =>
    rw [width_cons] at h
    have hrest : width calls ≤ (data.drop call.width).length := by grind
    rw [decodeAll, decodeAll, List.take_append_of_le_length (by omega),
      List.drop_append_of_le_length (by omega), ih hrest]

/-! ## Calls made -/

variable {σ : Type} [Source σ] {stands : σ → Nat → Prop} {r : Reader σ} {p : Nat}

/-- Makes a call. -/
def perform : Call → Reader σ → Reply × Reader σ
  | .read t current, r =>
    let (value, r) := r.read t current
    (.value t value, r)
  | .read? t, r =>
    let (value, r) := r.read? t
    (.value? t value, r)
  | .readArray t current, r =>
    let (values, r) := r.readArray t current
    (.values t values.toList, r)
  | .readBytes want, r =>
    let (data, r) := r.readBytes want
    (.bytes data, r)
  | .skip t, r => (.passed, r.skip t)
  | .skipBytes count, r => (.passed, r.skipBytes count)

/-- Makes a row of calls. -/
def performAll : List Call → Reader σ → List Reply × Reader σ
  | [], r => ([], r)
  | call :: rest, r =>
    let (reply, r) := perform call r
    let (replies, r) := performAll rest r
    (reply :: replies, r)

/-- A call that reads fills a buffer, and decodes it if it is full. -/
theorem perform_of_isRead {call : Call} (hcall : call.isRead = true) (r : Reader σ) :
    (Reader.perform call r).2 = (r.fill call.width).2 ∧
      ((r.fill call.width).1.isComplete = true →
        (Reader.perform call r).1 = call.decode (r.fill call.width).1.bytes) := by
  cases call with
  | skip t | skipBytes count => cases hcall
  | readBytes want => exact ⟨rfl, fun _ => rfl⟩
  | read t current | read? t | readArray t current =>
    refine ⟨rfl, fun hcomplete => ?_⟩
    simp only [Reader.perform, read, read?, readArray, Call.width, Call.decode] at hcomplete ⊢
    rw [hcomplete]
    rfl

theorem perform_of_not_isRead {call : Call} (hcall : call.isRead = false) (r : Reader σ) :
    Reader.perform call r = (call.decode [], r.skipBytes call.width) := by
  cases call with
  | skip t | skipBytes count => rfl
  | _ => cases hcall

/-- What is passed over says nothing. -/
theorem decode_of_not_isRead {call : Call} (hcall : call.isRead = false) (data : Bytes) :
    call.decode data = call.decode [] := by
  cases call with
  | skip t | skipBytes count => rfl
  | _ => cases hcall

theorem Stands.perform (hsource : Source.Walks data stands) (h : r.Stands stands p) (call : Call)
    (hle : p + call.width ≤ data.length) :
    (Reader.perform call r).1 = call.decode ((data.drop p).take call.width) ∧
      (Reader.perform call r).2.Stands stands (p + call.width) := by
  cases hcall : call.isRead with
  | true =>
    obtain ⟨hcomplete, hbytes, hnext⟩ := h.fill hsource call.width hle
    obtain ⟨hstate, hreply⟩ := perform_of_isRead hcall r
    rw [hstate, hreply hcomplete, hbytes]
    exact ⟨rfl, hnext⟩
  | false =>
    rw [perform_of_not_isRead hcall]
    exact ⟨(decode_of_not_isRead hcall _).symm, h.skipBytes hsource call.width hle⟩

/-- A call leaves the reader where one read, or one skip, of its width does. -/
theorem perform_snd (call : Call) (r : Reader σ) :
    (Reader.perform call r).2 = (r.fill call.width).2 ∨
      (Reader.perform call r).2 = r.skipBytes call.width := by
  cases hcall : call.isRead with
  | true => exact .inl (perform_of_isRead hcall r).1
  | false => exact .inr (congrArg Prod.snd (perform_of_not_isRead hcall r))

theorem Reached.perform (hsource : Source.Walks data stands) (h : r.Reached stands p)
    (call : Call) : (Reader.perform call r).2.Reached stands (p + call.width) := by
  rcases perform_snd call r with hnext | hnext
  · exact hnext ▸ h.fill hsource call.width
  · exact hnext ▸ h.skipBytes hsource call.width

theorem Inside.perform (hsource : Source.Walks data stands) (h : r.Inside stands) (call : Call) :
    (Reader.perform call r).2.Inside stands := by
  rcases perform_snd call r with hnext | hnext
  · exact hnext ▸ h.fill hsource call.width
  · exact hnext ▸ h.skipBytes hsource call.width

theorem Stands.performAll (hsource : Source.Walks data stands) (h : r.Stands stands p)
    (hle : p + width calls ≤ data.length) :
    (Reader.performAll calls r).1 = decodeAll calls (data.drop p) ∧
      (Reader.performAll calls r).2.Stands stands (p + width calls) := by
  induction calls generalizing r p with
  | nil => exact ⟨rfl, h⟩
  | cons call calls ih =>
    rw [width_cons] at hle ⊢
    obtain ⟨hreply, hnext⟩ := h.perform hsource call (by omega)
    obtain ⟨hreplies, hlast⟩ := ih hnext (by omega)
    rw [Nat.add_assoc] at hlast
    refine ⟨?_, hlast⟩
    rw [Reader.performAll, decodeAll, ← hreply, List.drop_drop, ← hreplies]

/-- A chain that has not failed has read all that was asked for. -/
theorem Reached.performAll (hsource : Source.Walks data stands) (h : r.Reached stands p)
    (calls : List Call) : (Reader.performAll calls r).2.Reached stands (p + width calls) := by
  induction calls generalizing r p with
  | nil => exact h
  | cons call calls ih =>
    rw [width_cons, ← Nat.add_assoc]
    exact ih (h.perform hsource call)

theorem Inside.performAll (hsource : Source.Walks data stands) (h : r.Inside stands)
    (calls : List Call) : (Reader.performAll calls r).2.Inside stands := by
  induction calls generalizing r with
  | nil => exact h
  | cons call calls ih => exact ih (h.perform hsource call)

end Reader

end Octet
