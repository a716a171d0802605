import Octet.Proofs.Sink.Contract
import Octet.Proofs.Sink.Position

/-!
# The contents of a stream sink

A stream sink whose calls have all succeeded holds what the stream contains, with the cursor and
the position at the end. Whatever call fails then, the stream contains a first part of what it was
to write.

## Main definitions

* `StreamSink.Holds`, `StreamSink.Torn`: what a stream sink holds before and after a call failed.

## Main statements

* `StreamSink.tracked`: the two are kept by every call.
-/

namespace Octet

namespace StreamSink

/-- The stream contains these bytes; the cursor and the position are at the end. -/
def Holds (faults : Faults) (sink : StreamSink) (content : Bytes) : Prop :=
  sink.stream.content = content ∧ sink.stream.cursor = content.length ∧
    sink.position = content.length ∧ sink.stream.faults = faults

/-- The stream contains these bytes. On a harmless stream only contents that no offset can measure
make a call fail. -/
def Torn (faults : Faults) (sink : StreamSink) (content : Bytes) : Prop :=
  sink.stream.content = content ∧ (faults.Harmless → UInt64.size ≤ content.length)

variable {faults : Faults} {sink : StreamSink} {content data : Bytes} {offset : Nat}

theorem write_ends (h : sink.Holds faults content) :
    (write data).Ends sink
      (fun count t => count = data.length ∧ t.Holds faults (content ++ data))
      (fun _ t => ∃ k, t.Torn faults (content ++ data.take k)) := by
  obtain ⟨rfl, hcursor, hposition, rfl⟩ := h
  have hend (more : Bytes) : sink.stream.content.overlay sink.stream.cursor more =
      sink.stream.content ++ more := by
    simp [hcursor]
  unfold write onStream
  rw [Action.ends_bind]
  apply Action.ends_on.mpr
  apply (Stream.writeAll_ends data sink.stream (Nat.le_of_eq hcursor)).mono
  · rintro _ stream ⟨hcontent, hcursor', hfaults⟩
    rw [Action.ends_bind, Action.ends_modify, Action.ends_pure]
    refine ⟨rfl, by rw [hcontent, hend], ?_, ?_, hfaults⟩
    · simp [hcursor', hcursor]
    · simp [hposition]
  · rintro _ stream ⟨⟨k, hcontent, _⟩, hf⟩
    exact ⟨k, by rw [hcontent, hend], fun h => absurd h hf⟩

/-- A correction is torn by the seek to its place (nothing is written), by the write (a first part
is), or by the seek back (all is). -/
theorem overwrite_ends (h : sink.Holds faults content)
    (hle : offset + data.length ≤ content.length) :
    (overwrite offset data).Ends sink
      (fun count t => count = data.length ∧ t.Holds faults (content.overlay offset data))
      (fun _ t => ∃ k, t.Torn faults (content.overlay offset (data.take k))) := by
  obtain ⟨rfl, -, hposition, rfl⟩ := h
  have hlen (k : Nat) : (sink.stream.content.overlay offset (data.take k)).length =
      sink.stream.content.length := by
    apply Bytes.length_overlay_of_le
    grind
  rw [← hposition] at hle
  apply (overwrite_stores hle).mono
  · intro _ next ⟨hcount, hnext, hpatched, hcursor⟩
    have hall := hlen data.length
    rw [List.take_length] at hall
    rw [Holds, hall, ← hposition]
    exact ⟨hcount, hpatched.content_eq (by omega), hcursor, hnext, hpatched.2⟩
  · intro _ next ⟨_, _, hf, k, _, hpatched, _⟩
    refine ⟨k, hpatched.content_eq (by omega), fun h => ?_⟩
    rw [hlen, ← hposition]
    exact hf h

theorem flush_ends (h : sink.Holds faults content) :
    (onStream Stream.flush).Ends sink (fun _ t => t.Holds faults content)
      (fun _ t => t.Torn faults content) := by
  obtain ⟨rfl, hcursor, hposition, rfl⟩ := h
  apply Action.ends_on.mpr
  apply Stream.flush_ends.mono
  · rintro _ stream ⟨hcontent, hcursor', hfaults⟩
    exact ⟨hcontent, hcursor'.trans hcursor, hposition, hfaults⟩
  · rintro _ stream ⟨⟨hcontent, -, -⟩, hf⟩
    exact ⟨hcontent, fun h => absurd h hf⟩

theorem tracked (faults : Faults) : Sink.Tracked (Holds faults) (Torn faults) where
  position h := h.2.2.1
  write data h := by
    apply (write_ends h).imp
    rintro count t ⟨rfl, ht⟩
    simpa using ht
  overwrite data h hle := by
    apply (overwrite_ends h hle).imp
    rintro count t ⟨rfl, ht⟩
    simpa using ht
  flush h := (flush_ends h).imp fun _ _ _ => trivial

/-- A sink made of a stream with the cursor at the end holds what the stream contains. -/
theorem holds_of_ofStream {stream : Stream} (hcursor : stream.cursor = stream.content.length)
    (h : ofStream stream = .ok sink) : sink.Holds stream.faults stream.content := by
  obtain ⟨hposition, hcontent, hcursor', hfaults⟩ := moved_of_ofStream h
  have hend := hposition.trans hcursor
  exact ⟨hcontent, hcursor'.trans hend, hend, hfaults⟩

/-- Such a sink can be made of every harmless stream. -/
theorem exists_ofStream {stream : Stream} (hf : stream.faults.Harmless)
    (hlt : stream.cursor < UInt64.size) : ∃ sink, ofStream stream = .ok sink := by
  obtain ⟨next, heq, -⟩ := Stream.exists_seek_here_eq hf hlt
  exact ⟨⟨next, stream.cursor⟩, by simp only [ofStream, heq]⟩

end StreamSink

end Octet
