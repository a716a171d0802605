import Octet.Proofs.Sink.Position

/-!
# Corrections and the size of a stream

A stream sink refuses corrections that reach past its position. As long as the stream contains all
bytes up to there, this keeps them within the contents, whose length stays as it is. But a sink may
have been made past the end of a stream. Until a byte is written, a correction may then reach into
the gap, and add to the contents.

## Main definitions

* `StreamSink.isUnharmed`, `StreamSink.stores`: what a record says of faults and of bytes written.
* `StreamSink.Settled`: the cursor is at the position, and where grounded not past the end.

## Main statements

* `StreamSink.settled_run`: a sink stays settled while nothing but ranges is refused.
* `StreamSink.overwrite_keeps_length`: when corrections keep within the contents, and what the
  others do.
* `StreamSink.overwrite_into_gap`: a correction that adds to the contents.
-/

namespace Octet

namespace StreamSink

variable {α : Type} {stream : Stream} {sink : StreamSink} {grounded more : Prop}

/-- A call was carried out, or was a correction refused for its range. -/
def isUnharmed : Sink.Event → Bool
  | (_, .ok _) => true
  | (.overwrite _ _, .error e) => e.isPatchOutOfRange
  | (_, .error _) => false

/-- A call has written at least one byte. -/
def stores : Sink.Event → Bool
  | (.write data, .ok _) => data ≠ []
  | _ => false

/-- The cursor is at the position. If grounded, the stream contains all bytes up to there. -/
structure Settled (grounded : Prop) (sink : StreamSink) : Prop where
  cursor : sink.stream.cursor = sink.position
  inside : grounded → sink.position ≤ sink.stream.content.length

theorem Settled.imp (h : Settled grounded sink) (himp : more → grounded) : Settled more sink :=
  ⟨h.cursor, fun hmore => h.inside (himp hmore)⟩

theorem settled_of_ofStream (hopen : ofStream stream = .ok sink) :
    Settled (stream.cursor ≤ stream.content.length) sink := by
  obtain ⟨hposition, hcontent, hcursor, -⟩ := moved_of_ofStream hopen
  exact ⟨hcursor, fun hinside => by rwa [hposition, hcontent]⟩

/-! ## One call -/

theorem length_le_of_patched {offset : Nat} {data : Bytes} {next : Stream}
    (h : stream.Patched offset data next) : stream.content.length ≤ next.content.length := by
  rcases h.1 with hcontent | ⟨-, hcontent⟩
  · grind
  · grind

/-- A byte that is written fills any gap before it. -/
theorem Settled.write (h : Settled grounded sink) (data : Bytes) :
    (Sink.write data).Ends sink
      (fun _ next => Settled (grounded ∨ data ≠ []) next) (fun _ _ => True) := by
  apply (write_stores data sink).mono
  · rintro _ next ⟨-, hposition, hcontent, hcursor, -⟩
    refine ⟨by rw [hcursor, hposition, h.cursor], fun hgrounded => ?_⟩
    rcases hcontent with hcontent | ⟨rfl, hcontent⟩
    · rw [hcontent, Bytes.length_overlay, hposition, h.cursor]
      exact Nat.le_max_right ..
    · rw [hcontent, hposition]
      exact h.inside (hgrounded.resolve_right fun hne => hne rfl)
  · exact fun _ _ _ => trivial

theorem Settled.overwrite (h : Settled grounded sink) (offset : Nat) (data : Bytes) :
    (Sink.overwrite offset data).Ends sink (fun _ next => Settled grounded next)
      (fun e next => e.isPatchOutOfRange = true → Settled grounded next) := by
  by_cases hle : offset + data.length ≤ sink.position
  · apply (overwrite_stores hle).mono
    · rintro _ next ⟨-, hposition, hpatched, hcursor⟩
      refine ⟨hcursor.trans hposition.symm, fun hgrounded => ?_⟩
      rw [hposition]
      exact Nat.le_trans (h.inside hgrounded) (length_le_of_patched hpatched)
    · rintro _ next ⟨⟨fault, rfl⟩, -⟩
      simp [Error.isPatchOutOfRange]
  · exact Action.ends_of_error (overwrite_of_lt (Nat.not_le.mp hle)) fun _ => h

theorem Settled.perform (h : Settled grounded sink) (call : Sink.Call) :
    (Sink.perform call).Ends sink
      (fun count next => isUnharmed (call, .ok count) = true →
        Settled (grounded ∨ stores (call, .ok count) = true) next)
      (fun e next => isUnharmed (call, .error e) = true →
        Settled (grounded ∨ stores (call, .error e) = true) next) := by
  cases call with
  | write data =>
    apply (h.write data).mono
    · exact fun _ next hnext _ => hnext.imp (Or.imp_right (by simp [stores]))
    · simp [isUnharmed]
  | overwrite offset data =>
    apply (h.overwrite offset data).mono
    · exact fun _ next hnext _ => hnext.imp (by simp [stores])
    · exact fun e next hnext hunharmed => (hnext hunharmed).imp (by simp [stores])
  | flush =>
    rw [Sink.perform, Action.ends_bind]
    apply Action.ends_on.mpr
    apply Stream.flush_ends.mono
    · rintro _ next ⟨hcontent, hcursor, -⟩ _
      refine ⟨hcursor.trans h.cursor, fun hgrounded => ?_⟩
      exact hcontent ▸ h.inside (hgrounded.resolve_right (by simp [stores]))
    · simp [isUnharmed]

/-! ## Runs -/

theorem settled_run (h : Settled grounded sink)
    (client : Client Sink.Call (Except Error Nat) StreamSink α)
    (hunharmed : (client.run Sink.step sink).events.all isUnharmed = true) :
    Settled (grounded ∨ (client.run Sink.step sink).events.any stores = true)
      (client.run Sink.step sink).state := by
  refine client.run_invariant Sink.step
    (fun seen s => seen.all isUnharmed = true → Settled (grounded ∨ seen.any stores = true) s) ?_ []
    (fun _ => h.imp (by simp)) hunharmed
  intro call seen s hs
  rw [Sink.events_step, List.all_append, List.any_append, Bool.and_eq_true]
  rintro ⟨hseen, hcall⟩
  have hstep := Sink.step_of_ends
    (fun outcome (next : StreamSink) => isUnharmed (call, outcome) = true →
      Settled ((grounded ∨ seen.any stores = true) ∨ stores (call, outcome) = true) next)
    ((hs hseen).perform call)
  exact (hstep (by simpa using hcall)).imp (by simp [or_assoc])

/-- Whatever a client does with a sink on any stream, let no call have been refused but corrections
for their range. If the sink was made inside the contents, or a byte has been written since, the
position is not past the end. Where it is not, corrections that do not keep within the contents are
refused and change nothing, and no correction changes the length of the contents, even if it is
refused halfway. In every state one that succeeds keeps within the position, and makes the contents
as long as to hold it. -/
theorem overwrite_keeps_length (hopen : ofStream stream = .ok sink)
    (client : Client Sink.Call (Except Error Nat) StreamSink α) :
    let ran := client.run Sink.step sink
    let s := ran.state
    let size := s.stream.content.length
    (ran.events.all isUnharmed = true →
      (stream.cursor ≤ stream.content.length ∨ ran.events.any stores = true) →
        s.position ≤ size) ∧
      ∀ offset data,
        (s.position ≤ size →
          (size < offset + data.length → Sink.overwrite offset data s =
            .error (.patchOutOfRange offset data.length s.position) s) ∧
          (Sink.overwrite offset data).Ends s
            (fun _ next => next.stream.content.length = size)
            (fun _ next => next.stream.content.length = size)) ∧
        ∀ count next, Sink.overwrite offset data s = .ok count next →
          offset + data.length ≤ s.position ∧
            (data ≠ [] → next.stream.content.length = max size (offset + data.length)) := by
  intro ran s size
  refine ⟨fun hunharmed => (settled_run (settled_of_ofStream hopen) client hunharmed).inside,
    fun offset data => ⟨fun hinside => ⟨fun hlt => ?_, ?_⟩, fun count next hact => ?_⟩⟩
  · exact overwrite_of_lt (Nat.lt_of_le_of_lt hinside hlt)
  · by_cases hle : offset + data.length ≤ s.position
    · have hpatched (k : Nat) {next : Stream} (h : s.stream.Patched offset (data.take k) next) :
          next.content.length = size := by
        rw [h.content_eq (by omega), Bytes.length_overlay_of_le]
        grind
      apply (overwrite_stores hle).mono
      · rintro _ next ⟨-, -, hnext, -⟩
        exact hpatched data.length (by rwa [List.take_length])
      · rintro _ next ⟨-, -, -, k, -, hnext, -⟩
        exact hpatched k hnext
    · exact Action.ends_of_error (overwrite_of_lt (Nat.not_le.mp hle)) rfl
  · by_cases hle : offset + data.length ≤ s.position
    · obtain ⟨-, -, ⟨hcontent | ⟨hnil, -⟩, -⟩, -⟩ := (overwrite_stores hle).of_ok hact
      · exact ⟨hle, fun _ => by rw [hcontent, Bytes.length_overlay]⟩
      · exact ⟨hle, fun hne => absurd hnil hne⟩
    · rw [overwrite_of_lt (Nat.not_le.mp hle)] at hact
      cases hact

/-- The cursor lies four bytes past the end. -/
def gapped : Stream := { content := [], cursor := 4, faults := .scheduled [] [] "" none }

/-- A byte is written, which fills the gap. -/
theorem overwrite_keeps_length_past_gap :
    ∃ sink : StreamSink, ofStream gapped = .ok sink ∧
      let s := (Client.run Sink.step (.call (.write [5]) fun _ _ => .done ()) sink).state
      s.stream.content = [0, 0, 0, 0, 5] ∧ s.position ≤ s.stream.content.length ∧
        Sink.overwrite 4 [8, 9] s = .error (.patchOutOfRange 4 2 s.position) s ∧
        (Sink.overwrite 1 [9]).Ends s (fun _ next => next.stream.content.length = 5)
          (fun _ next => next.stream.content.length = 5) := by
  let sink : StreamSink := ⟨{ gapped with seeks := 1 }, 4⟩
  let client : Client Sink.Call (Except Error Nat) StreamSink Unit :=
    .call (.write [5]) fun _ _ => .done ()
  have hopen : ofStream gapped = .ok sink := rfl
  obtain ⟨hgrounded, hkeeps⟩ := overwrite_keeps_length hopen client
  have hcontent : (client.run Sink.step sink).state.stream.content = [0, 0, 0, 0, 5] := by
    decide +kernel
  have hinside := hgrounded (by decide +kernel) (.inr (by decide +kernel))
  have hsize := congrArg List.length hcontent
  refine ⟨sink, hopen, hcontent, hinside, ?_, ?_⟩
  · exact ((hkeeps 4 [8, 9]).1 hinside).1 (by rw [hsize]; decide)
  · exact ((hkeeps 1 [9]).1 hinside).2.mono (fun _ _ h => h.trans hsize) fun _ _ h => h.trans hsize

/-- Nothing is written. A byte is put where the stream has none, and there are two of them. -/
theorem overwrite_into_gap :
    ∃ sink : StreamSink, ofStream gapped = .ok sink ∧
      sink.stream.content = [] ∧ ∃ next, Sink.overwrite 1 [9] sink = .ok 1 next ∧
        next.stream.content = [0, 9] := by
  let sink : StreamSink := ⟨{ gapped with seeks := 1 }, 4⟩
  refine ⟨sink, rfl, rfl, ?_⟩
  have hcontent : (match Sink.overwrite 1 [9] sink with
      | .ok _ next => next.stream.content
      | .error _ _ => []) = [0, 9] := by decide +kernel
  split at hcontent
  next count next heq =>
    obtain ⟨rfl, -⟩ := (overwrite_stores (by decide)).of_ok heq
    exact ⟨next, heq, hcontent⟩
  next => cases hcontent

end StreamSink

end Octet
