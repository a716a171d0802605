import Octet.Proofs.Sink.Buffer
import Octet.Proofs.Sink.Outgoing
import Octet.Proofs.Sink.Stream

/-!
# Sinks that do just what they are asked

A sink with room for so many bytes writes and corrects in full as long as its contents fit, and
refuses a correction that reaches past them without touching anything.

## Main definitions

* `Sink.Exact`: the contract.

## Main statements

* `Buffer.exact`, `StreamSink.exact`, `Outgoing.exact`: a buffer keeps it with any room, a harmless
  stream as far as offsets reach, and a message within its limit.
-/

namespace Octet

section

variable {σ : Type} {holds torn : σ → Bytes → Prop} {room : Nat}

/-- What ends well with all of its bytes, or torn with some of them, ends well if no first part of
them is torn. -/
theorem Action.Ends.exists_ok_of_not_torn {act : Action σ Nat} {s : σ} {data : Bytes}
    (made : Bytes → Bytes)
    (h : act.Ends s
      (fun count t => if count = data.length then holds t (made data)
        else ∃ k, torn t (made (data.take k)))
      (fun _ t => ∃ k, torn t (made (data.take k))))
    (hmade : ∀ k t, ¬ torn t (made (data.take k))) :
    ∃ t, act s = .ok data.length t ∧ holds t (made data) := by
  obtain ⟨count, t, hact, ht⟩ := h.exists_ok fun _ t ⟨k, htorn⟩ => hmade k t htorn
  split at ht
  · next hcount => exact ⟨t, hcount ▸ hact, ht⟩
  · obtain ⟨k, htorn⟩ := ht
    exact absurd htorn (hmade k t)

variable [Sink σ]

/-- Contents of up to `room` bytes are written and corrected without fail. Nothing comes of a
correction outside them. -/
structure Sink.Exact (room : Nat) (holds : σ → Bytes → Prop) : Prop where
  position : ∀ {s content}, holds s content → Sink.position s = content.length
  write : ∀ {s content} (data : Bytes), holds s content → (content ++ data).length ≤ room →
    ∃ t, Sink.write data s = .ok data.length t ∧ holds t (content ++ data)
  overwrite : ∀ {s content offset} (data : Bytes), holds s content → content.length ≤ room →
    offset + data.length ≤ content.length →
    ∃ t, Sink.overwrite offset data s = .ok data.length t ∧ holds t (content.overlay offset data)
  refuse : ∀ {s content offset} (data : Bytes), holds s content →
    content.length < offset + data.length →
    Sink.overwrite offset data s = .error (.patchOutOfRange offset data.length content.length) s

/-- A sink is exact where nothing that fits is torn. -/
theorem Sink.Tracked.exact (h : Sink.Tracked holds torn)
    (hroom : ∀ {s content}, torn s content → room < content.length)
    (hrefuse : ∀ {s content offset} (data : Bytes), holds s content →
      content.length < offset + data.length →
      Sink.overwrite offset data s =
        .error (.patchOutOfRange offset data.length content.length) s) :
    Sink.Exact room holds where
  position := h.position
  write {s content} data hs hle := by
    -- A first part of what was to be written fits as well, so that it cannot be torn.
    refine (h.write data hs).exists_ok_of_not_torn (content ++ ·) fun k t htorn => ?_
    have hlt := hroom htorn
    have hcut := List.length_take_le' k data
    grind
  overwrite {s content offset} data hs hle hinside := by
    refine (h.overwrite data hs hinside).exists_ok_of_not_torn (content.overlay offset)
      fun k t htorn => ?_
    have hlt := hroom htorn
    grind
  refuse := hrefuse

end

theorem checkPatch_of_lt {offset width stop : Nat} (h : stop < offset + width) :
    checkPatch offset width stop = .error (.patchOutOfRange offset width stop) :=
  if_neg (Nat.not_le.mpr h)

variable {room : Nat}

theorem Buffer.exact : Sink.Exact room Buffer.Holds := by
  apply Buffer.tracked.exact False.elim
  rintro buffer _ offset data rfl hlt
  apply Action.Ends.eq_error
  simp [Sink.overwrite, checkPatch_of_lt hlt]

/-- Offsets have 64 bits. -/
theorem StreamSink.exact {faults : Faults} (hf : faults.Harmless) (hroom : room < UInt64.size) :
    Sink.Exact room (StreamSink.Holds faults) := by
  apply (StreamSink.tracked faults).exact fun htorn => Nat.lt_of_lt_of_le hroom (htorn.2 hf)
  rintro sink content offset data ⟨-, -, hposition, -⟩ hlt
  rw [← hposition] at hlt ⊢
  exact StreamSink.overwrite_of_lt hlt

/-- Whatever the transport, as nothing is sent. -/
theorem Outgoing.exact {τ : Type} [Transport τ] (c : Connection τ) :
    Sink.Exact c.limit (Outgoing.Holds c) where
  position := (Outgoing.tracked c).position
  write {_ content} data := by
    rintro rfl hle
    rw [List.length_append] at hle
    obtain ⟨_, t, hact, rfl, -, ht⟩ := (Outgoing.write_ends data ⟨c, content⟩).exists_ok
      fun _ _ h => absurd hle (Nat.not_le.mpr h.2.1)
    exact ⟨t, hact, ht⟩
  overwrite {_ content offset} data := by
    rintro rfl - hle
    obtain ⟨_, t, hact, rfl, -, ht⟩ := (Outgoing.overwrite_ends offset data ⟨c, content⟩).exists_ok
      fun _ _ h => absurd hle (Nat.not_le.mpr h.2.1)
    exact ⟨t, hact, ht⟩
  refuse {_ content offset} data := by
    rintro rfl hlt
    apply Action.Ends.eq_error
    apply (Outgoing.overwrite_ends offset data ⟨c, content⟩).mono
    · grind
    · exact fun _ _ h => ⟨h.1, h.2.2⟩

end Octet
