import Octet.Proofs.Action
import Octet.Proofs.Bytes
import Octet.Writer

/-!
# What sinks promise

A sink is described by two relations between its states and byte strings: it *holds* a byte string
while every call has succeeded, and it is *torn* with one after a call that failed. How much is
known of a torn sink depends on the sink: nothing at all, the bytes that got through, or that there
is none.

## Main definitions

* `Sink.Honest`: successful calls do what they report; nothing is said of the others.
* `Sink.Unflushed`, `Sink.Tracked`: a failed call leaves a part of its bytes.
* `Writer.Holds`, `Writer.Streamed`: the same of a writer on the sink.

## Main statements

* `Writer.Streamed.append`: a chain of appends writes all of its bytes, or a part and fails.
* `Writer.commitFrom_ends`: so does a row of corrections, inside the contents.
-/

namespace Octet

variable {σ : Type} {holds torn : σ → Bytes → Prop}

namespace Writer

/-- The chain is unbroken and the sink holds these bytes. -/
def Holds (holds : σ → Bytes → Prop) (w : Writer σ) (content : Bytes) : Prop :=
  w.failed = false ∧ holds w.sink content

/-- After `front`, the chain has written `data`, or it has failed with a first part of it. -/
def Streamed (holds torn : σ → Bytes → Prop) (front data : Bytes) (w : Writer σ) : Prop :=
  Holds holds w (front ++ data) ∨ w.failed = true ∧ ∃ k, torn w.sink (front ++ data.take k)

variable {w : Writer σ} {front content data : Bytes}

theorem Holds.streamed (h : Holds holds w front) : Streamed holds torn front [] w :=
  .inl (by simpa using h)

theorem Streamed.holds_of_not_failed (h : Streamed holds torn front data w)
    (hw : w.failed = false) : Holds holds w (front ++ data) := by
  rcases h with h | ⟨hfailed, _⟩
  · exact h
  · simp [hw] at hfailed

theorem Streamed.torn_of_failed (h : Streamed holds torn front data w) (hw : w.failed = true) :
    ∃ k, torn w.sink (front ++ data.take k) := by
  rcases h with ⟨hunbroken, _⟩ | ⟨_, h⟩
  · simp [hw] at hunbroken
  · exact h

/-- A broken chain has written a first part of whatever was to follow, too. -/
theorem Streamed.extend (h : Streamed holds torn front data w) (hw : w.failed = true)
    (rest : Bytes) : Streamed holds torn front (data ++ rest) w := by
  obtain ⟨k, h⟩ := h.torn_of_failed hw
  refine .inr ⟨hw, min k data.length, ?_⟩
  rwa [List.take_append_of_le_length (Nat.min_le_right ..), ← List.take_eq_take_min]

end Writer

variable [Sink σ]

namespace Sink

/-- Calls that succeed do what they report: the position is the end of the contents, a write
appends its bytes, and a correction inside the contents replaces just the bytes it is laid over. -/
structure Honest (holds : σ → Bytes → Prop) : Prop where
  position : ∀ {s content}, holds s content → Sink.position s = content.length
  write : ∀ {s t content} {data : Bytes}, holds s content →
    Sink.write data s = .ok data.length t → holds t (content ++ data)
  overwrite : ∀ {s t content offset} {data : Bytes}, holds s content →
    offset + data.length ≤ content.length →
    Sink.overwrite offset data s = .ok data.length t → holds t (content.overlay offset data)

/-- As `Honest`, and a write or a correction that fails, or accepts another count than it was given,
has written some of the first of its bytes. -/
structure Unflushed (holds torn : σ → Bytes → Prop) : Prop where
  position : ∀ {s content}, holds s content → Sink.position s = content.length
  write : ∀ {s content} (data : Bytes), holds s content →
    (Sink.write data).Ends s
      (fun count t => if count = data.length then holds t (content ++ data)
        else ∃ k, torn t (content ++ data.take k))
      (fun _ t => ∃ k, torn t (content ++ data.take k))
  overwrite : ∀ {s content offset} (data : Bytes), holds s content →
    offset + data.length ≤ content.length →
    (Sink.overwrite offset data).Ends s
      (fun count t => if count = data.length then holds t (content.overlay offset data)
        else ∃ k, torn t (content.overlay offset (data.take k)))
      (fun _ t => ∃ k, torn t (content.overlay offset (data.take k)))

/-- As `Unflushed`, and a flush that fails leaves all that was held. -/
structure Tracked (holds torn : σ → Bytes → Prop) : Prop extends Unflushed holds torn where
  flush : ∀ {s content}, holds s content →
    (Sink.flush : Action σ Unit).Ends s (fun _ _ => True) (fun _ t => torn t content)

/-- Of an honest sink nothing is known once a call has failed. -/
theorem Honest.tracked (h : Honest holds) : Tracked holds fun _ _ => True where
  position := h.position
  write {s content} data hs := by
    cases hact : Sink.write data s with
    | ok count t =>
      apply Action.ends_of_ok hact
      split
      · next hcount => exact h.write hs (hcount ▸ hact)
      · exact ⟨0, trivial⟩
    | error e t => exact Action.ends_of_error hact ⟨0, trivial⟩
  overwrite {s content offset} data hs hle := by
    cases hact : Sink.overwrite offset data s with
    | ok count t =>
      apply Action.ends_of_ok hact
      split
      · next hcount => exact h.overwrite hs hle (hcount ▸ hact)
      · exact ⟨0, trivial⟩
    | error e t => exact Action.ends_of_error hact ⟨0, trivial⟩
  flush {s content} _ := by
    cases hact : (Sink.flush : Action σ Unit) s with
    | ok x t => exact Action.ends_of_ok hact trivial
    | error e t => exact Action.ends_of_error hact trivial

theorem Tracked.honest (h : Tracked holds torn) : Honest holds where
  position := h.position
  write hs hact := by simpa using (h.write _ hs).of_ok hact
  overwrite hs hle hact := by simpa using (h.overwrite _ hs hle).of_ok hact

end Sink

namespace Writer

variable {w : Writer σ} {front content data : Bytes}

@[simp] theorem append_of_failed (hw : w.failed = true) : w.append data = w := by
  simp [append, hw]

/-- A chain that has not failed after an append had not failed before. -/
theorem failed_of_append (h : (w.append data).failed = false) : w.failed = false := by
  cases hw : w.failed with
  | false => rfl
  | true => rwa [append_of_failed hw, hw] at h

theorem Holds.position (hsink : Sink.Unflushed holds torn) (h : Holds holds w content) :
    w.position = content.length :=
  hsink.position h.2

theorem Holds.append (hsink : Sink.Unflushed holds torn) (h : Holds holds w front) (data : Bytes) :
    Streamed holds torn front data (w.append data) := by
  obtain ⟨hw, hs⟩ := h
  have hwrite := hsink.write data hs
  cases hact : Sink.write data w.sink with
  | ok count t =>
    have hcount := hwrite.of_ok hact
    simp only [Writer.append, hw, hact]
    by_cases heq : count = data.length
    · exact .inl ⟨by simp [heq], by simpa [heq] using hcount⟩
    · exact .inr ⟨by simpa using heq, by simpa [heq] using hcount⟩
  | error e t =>
    simp only [Writer.append, hw, hact]
    exact .inr ⟨rfl, hwrite.of_error hact⟩

theorem Streamed.append (hsink : Sink.Unflushed holds torn) (h : Streamed holds torn front data w)
    (more : Bytes) : Streamed holds torn front (data ++ more) (w.append more) := by
  cases hw : w.failed with
  | true =>
    rw [append_of_failed hw]
    exact h.extend hw more
  | false =>
    rcases (h.holds_of_not_failed hw).append hsink more with ⟨hw, h⟩ | ⟨hw, k, h⟩
    · exact .inl ⟨hw, by simpa using h⟩
    · refine .inr ⟨hw, data.length + k, ?_⟩
      simpa [List.take_append, List.take_of_length_le] using h

theorem Streamed.write (hsink : Sink.Unflushed holds torn) (h : Streamed holds torn front data w)
    (t : Scalar) (value : t.Value) :
    Streamed holds torn front (data ++ t.encode value) (w.write t value) :=
  h.append hsink _

theorem Streamed.writeList (hsink : Sink.Unflushed holds torn)
    (h : Streamed holds torn front data w) (t : Scalar) (values : List t.Value) :
    Streamed holds torn front (data ++ t.encodeList values) (w.writeList t values) :=
  h.append hsink _

theorem commit_ends (hsink : Sink.Unflushed holds torn) (h : Holds holds w content)
    {t : Scalar} (slot : Slot t) (value : t.Value) (hle : slot.offset + t.width ≤ content.length) :
    (commit slot value).Ends w
      (fun _ next => Holds holds next (content.overlay slot.offset (t.encode value)))
      (fun _ next =>
        ∃ k, torn next.sink (content.overlay slot.offset ((t.encode value).take k))) := by
  obtain ⟨hw, hs⟩ := h
  have hoverwrite := hsink.overwrite (t.encode value) hs (by simpa using hle)
  simp only [Action.Ends, commit, hw]
  cases hact : Sink.overwrite slot.offset (t.encode value) w.sink with
  | ok count s =>
    have hcount := hoverwrite.of_ok hact
    by_cases heq : count = t.width
    · simpa [heq, Holds] using hcount
    · simpa [heq] using hcount
  | error e s => exact hoverwrite.of_error hact

/-- Corrections in a row act as one that puts all of the encodings in place. -/
theorem commitFrom_ends (hsink : Sink.Unflushed holds torn) {t : Scalar} (values : List t.Value)
    {offset : Nat} (h : Holds holds w content)
    (hle : offset + (t.encodeList values).length ≤ content.length) :
    (commitFrom t offset values).Ends w
      (fun _ next => Holds holds next (content.overlay offset (t.encodeList values)))
      (fun _ next => ∃ k, torn next.sink
        (content.overlay offset ((t.encodeList values).take k))) := by
  induction values generalizing w content offset with
  | nil =>
    rw [commitFrom, Action.ends_pure]
    simpa [Scalar.encodeList, Bytes.overlay_nil (show offset ≤ content.length by simpa using hle)]
      using h
  | cons value rest ih =>
    have hcons : t.encodeList (value :: rest) = t.encode value ++ t.encodeList rest := by
      simp [Scalar.encodeList]
    have hwidth := t.length_encode value
    rw [hcons, List.length_append] at hle
    have hjoin (more : Bytes) : (content.overlay offset (t.encode value)).overlay
        (offset + t.width) more = content.overlay offset (t.encode value ++ more) := by
      rw [← hwidth]
      exact Bytes.overlay_overlay
    rw [commitFrom, Action.ends_bind, hcons]
    apply (commit_ends hsink h ⟨offset⟩ value (by simpa [hwidth] using by omega)).mono
    · intro _ next hnext
      apply (ih hnext (by grind)).mono
      · intro _ last hlast
        rwa [hjoin] at hlast
      · rintro e last ⟨k, hlast⟩
        refine ⟨t.width + k, ?_⟩
        rwa [← hwidth, List.take_length_add_append, ← hjoin]
    · rintro e next ⟨k, hnext⟩
      refine ⟨min k t.width, ?_⟩
      rwa [← hwidth, List.take_append_of_le_length (Nat.min_le_right ..), ← List.take_eq_take_min]

theorem commitArray_ends (hsink : Sink.Unflushed holds torn) (h : Holds holds w content)
    {t : Scalar} {n : Nat} (slots : SlotArray t n) (values : Vector t.Value n)
    (hle : slots.offset + n * t.width ≤ content.length) :
    (commitArray slots values).Ends w
      (fun _ next => Holds holds next
        (content.overlay slots.offset (t.encodeList values.toList)))
      (fun _ next => ∃ k, torn next.sink
        (content.overlay slots.offset ((t.encodeList values.toList).take k))) :=
  commitFrom_ends hsink values.toList h (by simpa using hle)

@[simp] theorem finish_ends {post : Unit → Writer σ → Prop} {fail : Error → Writer σ → Prop} :
    finish.Ends w post fail ↔
      if w.failed then fail (.writeChain w.position) w else post () w := by
  simp only [Action.Ends, finish]
  cases w.failed <;> simp

/-- A flush at the end of an unbroken chain ends as that of the sink. -/
theorem Holds.flush_ends (h : Holds holds w content) :
    flush.Ends w (fun _ next => Sink.flush w.sink = .ok () next.sink)
      (fun e next => Sink.flush w.sink = .error e next.sink) := by
  simp only [Action.Ends, flush, h.1]
  cases hact : (Sink.flush : Action σ Unit) w.sink <;> rfl

end Writer

end Octet
