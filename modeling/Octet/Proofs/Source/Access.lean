import Octet.Proofs.Source.Call
import Octet.Proofs.Source.Sending

/-!
# Access to any part of the data

What lies anywhere in the data can be sought and read, whatever was called before: a source on a
harmless stream stays within reach of its contents even from past the end. Where a record is kept of
the calls, it shows that no read asks for more than there is.

## Main definitions

* `Source.Call.AtMost`: the call asks for no more bytes than that.

## Main statements

* `StreamSource.holds_run`: no client takes a source on a harmless stream off its contents.
* `Source.Locates.traced`: a source that gives access keeps doing so under a record.
-/

namespace Octet

/-! ## Sources on streams -/

namespace StreamSource

variable {α : Type} {faults : Faults} {data : Bytes} {source : StreamSource} {p : Nat}

/-- Once the size is known, the cursor may be sent anywhere. -/
theorem Holds.moved (h : source.Holds faults data p) (hknown : source.known = some data.length)
    {q : Nat} {stream : Stream} (hmoved : source.stream.Moved q stream) (position : Nat) :
    Holds faults data { source with stream, position } position where
  content := hmoved.1.trans h.content
  faults := hmoved.2.2.trans h.faults
  position := rfl
  known := h.known
  fresh hnone := by simp [hknown] at hnone

theorem Holds.read (hdata : data.length < UInt64.size) (h : source.Holds faults data p)
    (want : Nat) : ∃ q, (source.read want).2.Holds faults data q := by
  obtain ⟨hfront, ⟨hcontent, hcursor, hfaults⟩, -⟩ := source.stream.readUpTo_delivers want
  refine ⟨_, hcontent.trans h.content, hfaults.trans h.faults, rfl, h.known, fun hnone => ?_⟩
  obtain ⟨hstart, hlt⟩ := h.fresh hnone
  have hlen := hfront.length_le
  rw [h.content, hstart, List.length_take, List.length_drop] at hlen
  simp only [StreamSource.read, hcursor, hstart, h.position, true_and]
  omega

theorem Holds.skip (hf : faults.Harmless) (hdata : data.length < UInt64.size)
    (h : source.Holds faults data p) (count : Nat) :
    (StreamSource.skip count).Ends source (fun _ next => ∃ q, next.Holds faults data q)
      (fun _ next => ∃ q, next.Holds faults data q) := by
  obtain ⟨-, hsized, hknown, -⟩ := h.size hf hdata
  apply (skip_sends count source).mono
  · rintro _ _ ⟨-, stream, ⟨cursor, hmoved, -⟩, rfl⟩
    exact ⟨_, hsized.moved hknown hmoved _⟩
  · rintro _ _ ⟨stream, hmoved, rfl⟩
    exact ⟨_, hsized.moved hknown hmoved _⟩

theorem Holds.step (hf : faults.Harmless) (hdata : data.length < UInt64.size)
    (h : source.Holds faults data p) (call : Source.Call) :
    ∃ q, (Source.step call source).state.Holds faults data q := by
  cases call with
  | read want => exact h.read hdata want
  | size => exact ⟨p, (h.size hf hdata).2.1⟩
  | skip count =>
    apply Source.step_skip_of_ends fun s => ∃ q, Holds faults data s q
    exact h.skip hf hdata count
  | seek target =>
    apply Source.step_seek_of_ends fun s => ∃ q, Holds faults data s q
    apply (h.seek hf hdata target).mono
    · exact fun _ _ ⟨_, hnext⟩ => ⟨_, hnext.holds hdata⟩
    · exact fun _ _ ⟨_, _, hnext, _⟩ => ⟨_, hnext⟩

theorem holds_of_ofStream {stream : Stream} (h : ofStream stream = .ok source) :
    source.Holds stream.faults stream.content source.position := by
  obtain ⟨hlt, hknown, hcontent, hcursor, hfaults⟩ := moved_of_ofStream h
  exact ⟨hcontent, hfaults, rfl, by simp [hknown], fun _ => ⟨hcursor, hlt⟩⟩

/-- However a client has used a source on a harmless stream, it still holds the contents. -/
theorem holds_run {stream : Stream} (hf : stream.faults.Harmless)
    (hcontent : stream.content.length < UInt64.size) (hopen : ofStream stream = .ok source)
    (client : Client Source.Call Source.Reply StreamSource α) :
    ∃ q, (client.run Source.step source).state.Holds stream.faults stream.content q :=
  client.run_invariant Source.step
    (fun _ s => ∃ q, s.Holds stream.faults stream.content q)
    (fun call _ _ ⟨_, hs⟩ => hs.step hf hcontent call) [] ⟨_, holds_of_ofStream hopen⟩

end StreamSource

/-! ## Records -/

namespace Source

/-- The call asks for at most `bound` bytes, if for any. -/
def Call.AtMost (bound : Nat) : Call → Prop
  | .read want => want ≤ bound
  | _ => True

/-- What is true of a source, and no read on record has asked for more than there is. -/
def Traced.Frugal {σ : Type} (data : Bytes) (stands : σ → Nat → Prop) (s : Traced σ) (p : Nat) :
    Prop :=
  stands s.inner p ∧ ∀ event ∈ s.trace, event.1.AtMost data.length

variable {σ : Type} {data : Bytes} {anywhere inside : σ → Nat → Prop}

theorem Traced.Frugal.record {s : Traced σ} {p q : Nat} (h : s.Frugal data anywhere p) (call : Call)
    (hcall : call.AtMost data.length) (reply : Reply) {inner : σ} {stands : σ → Nat → Prop}
    (hinner : stands inner q) : (s.record call reply inner).Frugal data stands q := by
  refine ⟨hinner, fun event hevent => ?_⟩
  rcases List.mem_append.mp hevent with hevent | hevent
  · exact h.2 event hevent
  · obtain rfl := List.mem_singleton.mp hevent
    exact hcall

/-- A read of what lies inside the data asks for no more than there is. -/
theorem Locates.traced [Source σ] (h : Locates data anywhere inside) :
    Locates data (Traced.Frugal data anywhere) (Traced.Frugal data inside) where
  position hs := h.position hs.1
  weaken hs := ⟨h.weaken hs.1, hs.2⟩
  size hs := ⟨(h.size hs.1).1, hs.record .size trivial _ (h.size hs.1).2⟩
  seek {s p target} hs hle := by
    obtain ⟨inner, hseek, hinner⟩ := h.seek hs.1 hle
    refine ⟨s.record (.seek target) (.sought (.ok ())) inner, ?_, ?_⟩
    · simp only [Source.seek, hseek]
    · exact hs.record (.seek target) trivial _ hinner
  read {s p want} hs hle := by
    obtain ⟨hread, hinner⟩ := h.read hs.1 hle
    have hwant : want ≤ data.length := Nat.le_trans (Nat.le_add_left ..) hle
    exact ⟨hread, hs.record (.read want) hwant _ hinner⟩

end Source

end Octet
