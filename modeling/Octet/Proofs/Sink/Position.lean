import Octet.Proofs.Sink.Call
import Octet.Proofs.Stream

/-!
# The position of a stream sink

A stream sink keeps a position of its own beside the cursor of its stream. Writes that succeed move
both. A write that is refused halfway moves the cursor alone, and so does a correction whose seek
back is refused; a correction that succeeds brings the cursor back to the position.

## Main definitions

* `StreamSink.isSteady`: whether the outcomes of the calls so far vouch for the cursor.

## Main statements

* `StreamSink.write_stores`, `StreamSink.overwrite_returns`: what one call does to the two places.
* `StreamSink.stores_at_position`: while the sink is steady, writes land at the position.
* `StreamSink.write_after_torn_write`: after a write that was refused halfway they do not.
-/

namespace Octet

namespace StreamSink

variable {α : Type} {stream : Stream} {sink : StreamSink}

/-- A sink starts where the stream's cursor is, which stays there. -/
theorem moved_of_ofStream (h : ofStream stream = .ok sink) :
    sink.position = stream.cursor ∧ stream.Moved sink.position sink.stream := by
  unfold ofStream at h
  split at h <;> cases h
  next position next hseek =>
    obtain ⟨rfl, hmoved⟩ := (Stream.seek_ends stream.leads_here).of_ok hseek
    exact ⟨rfl, hmoved⟩

/-! ## One call -/

theorem write_stores (data : Bytes) (sink : StreamSink) :
    (Sink.write data).Ends sink
      (fun count next => count = data.length ∧ next.position = sink.position + data.length ∧
        sink.stream.Stored data next.stream)
      (fun _ next => next.position = sink.position ∧
        ∃ k < data.length, sink.stream.Stored (data.take k) next.stream) := by
  change (write data).Ends _ _ _
  unfold write onStream
  rw [Action.ends_bind]
  apply Action.ends_on.mpr
  apply (Stream.writeAll_stores data sink.stream).mono
  · intro _ next hstored
    simp [hstored]
  · intro _ next ⟨_, hstored, _⟩
    exact ⟨rfl, hstored⟩

theorem seek_ends (n : Nat) (sink : StreamSink) :
    (onStream (Stream.seek (.start n))).Ends sink
      (fun _ next => next.position = sink.position ∧ sink.stream.Moved n next.stream)
      (fun e next => (∃ fault, e = .stream fault) ∧ next.position = sink.position ∧
        sink.stream.Moved sink.stream.cursor next.stream ∧
        (sink.stream.faults.Harmless → UInt64.size ≤ n)) := by
  have hseek := Stream.seek_ends (sink.stream.leads_start n)
  apply Action.ends_on.mpr
  cases hact : Stream.seek (.start n) sink.stream with
  | ok found next => exact Action.ends_of_ok hact ⟨rfl, (hseek.of_ok hact).2⟩
  | error e next =>
    obtain ⟨hmoved, hf⟩ := hseek.of_error hact
    exact Action.ends_of_error hact ⟨Stream.exists_fault_of_seek hact, rfl, hmoved, hf⟩

theorem overwrite_of_lt {offset : Nat} {data : Bytes}
    (hlt : sink.position < offset + data.length) :
    Sink.overwrite offset data sink =
      .error (.patchOutOfRange offset data.length sink.position) sink := by
  apply Action.Ends.eq_error
  change (overwrite offset data).Ends _ _ _
  unfold overwrite
  simp [checkPatch, if_neg (Nat.not_le.mpr hlt)]

/-- A correction inside the written bytes stores its data and comes back. Where it is refused it has
stored a first part: nothing yet at the seek to its place, and all of it at the seek back. -/
theorem overwrite_stores {offset : Nat} {data : Bytes}
    (hle : offset + data.length ≤ sink.position) :
    (Sink.overwrite offset data).Ends sink
      (fun count next => count = data.length ∧ next.position = sink.position ∧
        sink.stream.Patched offset data next.stream ∧ next.stream.cursor = sink.position)
      (fun e next => (∃ fault, e = .stream fault) ∧ next.position = sink.position ∧
        (sink.stream.faults.Harmless → UInt64.size ≤ sink.position) ∧
        ∃ k ≤ data.length, sink.stream.Patched offset (data.take k) next.stream ∧
          (next.stream.cursor = sink.stream.cursor ∨ next.stream.cursor = sink.position ∨
            next.stream.cursor = offset + k)) := by
  change (overwrite offset data).Ends _ _ _
  unfold overwrite
  rw [Action.ends_bind, Action.ends_get, Action.ends_bind, Action.ends_conclude, checkPatch,
    if_pos hle]
  apply (seek_ends offset sink).bind
  · intro _ there ⟨hposition, hthere⟩
    rw [Action.ends_bind, Action.ends_attempt]
    apply Action.ends_on.mpr
    apply (Stream.writeAll_stores data there.stream).mono
    · intro _ written hstored
      apply (seek_ends sink.position _).bind
      · intro _ next ⟨hnext, hback⟩
        exact ⟨rfl, hnext.trans hposition, hstored.patched hthere hback, hback.2.1⟩
      · intro _ next ⟨hfault, hnext, hback, hf⟩
        refine ⟨hfault, hnext.trans hposition, ?_, data.length, Nat.le_refl _, ?_, .inr (.inr ?_)⟩
        · rwa [← hthere.2.2, ← hstored.2.2]
        · rw [List.take_length]
          exact hstored.patched hthere hback
        · rw [hback.2.1, hstored.2.1, hthere.2.1]
    · intro _ written ⟨hfault, ⟨k, hk, hstored⟩, hf⟩
      rw [hthere.2.2] at hf
      apply (seek_ends sink.position _).bind
      · intro _ next ⟨hnext, hback⟩
        exact ⟨hfault, hnext.trans hposition, fun h => absurd h hf, k, Nat.le_of_lt hk,
          hstored.patched hthere hback, .inr (.inl hback.2.1)⟩
      · intro _ next ⟨hfault', hnext, hback, _⟩
        refine ⟨hfault', hnext.trans hposition, fun h => absurd h hf, k, Nat.le_of_lt hk,
          hstored.patched hthere hback, .inr (.inr ?_)⟩
        rw [hback.2.1, hstored.2.1, hthere.2.1, List.length_take, Nat.min_eq_left (Nat.le_of_lt hk)]
  · intro _ next ⟨hfault, hposition, hmoved, hf⟩
    exact ⟨hfault, hposition, fun h => by have := hf h; omega, 0, Nat.zero_le _, hmoved.patched,
      .inl hmoved.2.1⟩

/-- A correction never moves the position. The cursor comes back to it, unless one of the seeks is
refused. -/
theorem overwrite_returns (offset : Nat) (data : Bytes) (sink : StreamSink) :
    (Sink.overwrite offset data).Ends sink
      (fun count next => count = data.length ∧ next.position = sink.position ∧
        next.stream.cursor = sink.position)
      (fun e next => next.position = sink.position ∧ (e.isPatchOutOfRange = true → next = sink) ∧
        (next.stream.cursor = sink.stream.cursor ∨ next.stream.cursor = sink.position ∨
          ∃ k ≤ data.length, next.stream.cursor = offset + k)) := by
  by_cases hle : offset + data.length ≤ sink.position
  · apply (overwrite_stores hle).mono
    · intro _ next ⟨hcount, hposition, _, hcursor⟩
      exact ⟨hcount, hposition, hcursor⟩
    · rintro _ next ⟨⟨fault, rfl⟩, hposition, _, k, hk, _, hcursor⟩
      exact ⟨hposition, nofun, hcursor.imp_right (Or.imp_right fun h => ⟨k, hk, h⟩)⟩
  · apply Action.ends_of_error (overwrite_of_lt (Nat.not_le.mp hle))
    exact ⟨rfl, fun _ => rfl, .inl rfl⟩

theorem flush_stays (sink : StreamSink) :
    (Sink.flush : Action StreamSink Unit).Ends sink
      (fun _ next => next.position = sink.position ∧ next.stream.cursor = sink.stream.cursor)
      (fun _ next => next.position = sink.position ∧ next.stream.cursor = sink.stream.cursor) := by
  apply Action.ends_on.mpr
  apply Stream.flush_ends.mono
  · intro _ next ⟨_, hcursor, _⟩
    exact ⟨rfl, hcursor⟩
  · intro _ next ⟨⟨_, hcursor, _⟩, _⟩
    exact ⟨rfl, hcursor⟩

/-! ## Runs -/

/-- What the outcome of one more call says of the cursor. A write that is refused may have moved it.
A correction that succeeds has brought it back, and one that is out of range has done nothing. -/
def keepsSteady (steady : Bool) : Sink.Event → Bool
  | (.write _, .ok _) => steady
  | (.write _, .error _) => false
  | (.overwrite _ _, .ok _) => true
  | (.overwrite _ _, .error e) => steady && e.isPatchOutOfRange
  | (.flush, _) => steady

/-- Since the last correction that succeeded, or from the start, no write was refused, and no
correction but for its range. -/
def isSteady (events : List Sink.Event) : Bool := events.foldl keepsSteady true

theorem perform_keepsSteady {steady : Bool} (call : Sink.Call)
    (h : steady = true → sink.stream.cursor = sink.position) :
    (Sink.perform call).Ends sink
      (fun count next => keepsSteady steady (call, .ok count) = true →
        next.stream.cursor = next.position)
      (fun e next => keepsSteady steady (call, .error e) = true →
        next.stream.cursor = next.position) := by
  cases call with
  | write data =>
    apply (write_stores data sink).mono
    · intro _ next ⟨_, hposition, _, hcursor, _⟩ hsteady
      rw [hcursor, hposition, h hsteady]
    · exact fun _ _ _ => nofun
  | overwrite offset data =>
    apply (overwrite_returns offset data sink).mono
    · intro _ next ⟨_, hposition, hcursor⟩ _
      rw [hcursor, hposition]
    · intro e next ⟨_, hrange, _⟩ hsteady
      obtain ⟨hsteady, hout⟩ := Bool.and_eq_true_iff.mp hsteady
      rw [hrange hout, h hsteady]
  | flush =>
    rw [Sink.perform]
    apply (flush_stays sink).bind
    · intro _ next ⟨hposition, hcursor⟩ hsteady
      rw [hcursor, hposition, h hsteady]
    · intro _ next ⟨hposition, hcursor⟩ hsteady
      rw [hcursor, hposition, h hsteady]

theorem cursor_eq_position_run (client : Client Sink.Call (Except Error Nat) StreamSink α)
    (h : sink.stream.cursor = sink.position)
    (hsteady : isSteady (client.run Sink.step sink).events = true) :
    (client.run Sink.step sink).state.stream.cursor =
      (client.run Sink.step sink).state.position := by
  refine client.run_invariant Sink.step
    (fun seen s => isSteady seen = true → s.stream.cursor = s.position) ?_ [] (fun _ => h) hsteady
  intro call seen s hs
  rw [isSteady, Sink.events_step, List.foldl_append]
  exact Sink.step_of_ends
    (fun outcome (next : StreamSink) => keepsSteady (isSteady seen) (call, outcome) = true →
      next.stream.cursor = next.position) (perform_keepsSteady call hs)

theorem cursor_eq_position_of_ofStream (h : ofStream stream = .ok sink) :
    sink.stream.cursor = sink.position :=
  (moved_of_ofStream h).2.2.1

/-- Whatever a client does with a sink on any stream, as long as the sink is steady the cursor is at
the position, and every write that succeeds then stores its bytes there. On any sink, steady or not,
a write that succeeds stores its bytes at the cursor, and one that is refused leaves the position
and moves the cursor by the bytes that got through, which are not all; and a correction that is
refused leaves the cursor where it was, or at the position, or behind the bytes that got through. -/
theorem stores_at_position (hopen : ofStream stream = .ok sink)
    (client : Client Sink.Call (Except Error Nat) StreamSink α) :
    let s := (client.run Sink.step sink).state
    (isSteady (client.run Sink.step sink).events = true →
      s.stream.cursor = s.position ∧
        ∀ data count next, Sink.write data s = .ok count next →
          (next.stream.content.drop s.position).take data.length = data ∧
            next.stream.cursor = next.position) ∧
      (∀ data, (Sink.write data).Ends s
        (fun count next => count = data.length ∧ next.position = s.position + data.length ∧
          s.stream.Stored data next.stream)
        (fun _ next => next.position = s.position ∧
          ∃ k < data.length, s.stream.Stored (data.take k) next.stream)) ∧
      ∀ offset data, (Sink.overwrite offset data).Ends s
        (fun _ next => next.position = s.position ∧ next.stream.cursor = next.position)
        (fun _ next => next.position = s.position ∧
          (next.stream.cursor = s.stream.cursor ∨ next.stream.cursor = next.position ∨
            ∃ k ≤ data.length, next.stream.cursor = offset + k)) := by
  intro s
  refine ⟨fun hsteady => ?_, fun data => write_stores data s, fun offset data => ?_⟩
  · have hcursor : s.stream.cursor = s.position :=
      cursor_eq_position_run client (cursor_eq_position_of_ofStream hopen) hsteady
    refine ⟨hcursor, fun data count next hwrite => ?_⟩
    obtain ⟨-, hposition, hstored⟩ := (write_stores data s).of_ok hwrite
    rw [← hcursor, hposition, ← hcursor]
    exact ⟨hstored.take_drop, hstored.2.1⟩
  · apply (overwrite_returns offset data s).mono
    · intro _ next ⟨_, hposition, hcursor⟩
      exact ⟨hposition, hcursor.trans hposition.symm⟩
    · intro _ next ⟨hposition, _, hcursor⟩
      exact ⟨hposition, hposition.symm ▸ hcursor⟩

/-- Transfers move one byte each, and the third is refused. -/
def halting : Stream := { content := [], faults := .scheduled [] [2] "unplugged" (some 1) }

/-- A write of two bytes is refused after the first. A correction brings the cursor back, and the
next write lands at the position, over the byte that got through. -/
theorem stores_at_position_after_correction :
    ∃ sink : StreamSink, ofStream halting = .ok sink ∧
      let s := (Client.run Sink.step (.call (.write [1]) fun _ _ => .call (.write [2, 3]) fun _ _ =>
        .call (.overwrite 0 [7]) fun _ _ => .done ()) sink).state
      s.stream.content = [7, 2] ∧ s.position = 1 ∧ s.stream.cursor = s.position ∧
        ∃ count next, Sink.write [9] s = .ok count next ∧
          (next.stream.content.drop s.position).take 1 = [9] ∧
          next.stream.cursor = next.position := by
  let sink : StreamSink := ⟨{ halting with seeks := 1 }, 0⟩
  let client : Client Sink.Call (Except Error Nat) StreamSink Unit :=
    .call (.write [1]) fun _ _ => .call (.write [2, 3]) fun _ _ =>
      .call (.overwrite 0 [7]) fun _ _ => .done ()
  have hopen : ofStream halting = .ok sink := rfl
  obtain ⟨hlands, -⟩ := stores_at_position hopen client
  obtain ⟨hcursor, hwrite⟩ := hlands (by decide +kernel)
  refine ⟨sink, hopen, by decide +kernel, by decide +kernel, hcursor, ?_⟩
  have hcontent : (match Sink.write [9] (client.run Sink.step sink).state with
      | .ok _ next => next.stream.content
      | .error _ _ => []) = [7, 9] := by decide +kernel
  split at hcontent
  next count next heq =>
    obtain ⟨hbytes, hnext⟩ := hwrite [9] count next heq
    exact ⟨count, next, heq, hbytes, hnext⟩
  next => cases hcontent

/-- After the refused write the position is 1 and the next write lands behind the byte that got
through, at 2. -/
theorem write_after_torn_write :
    ∃ sink : StreamSink, ofStream halting = .ok sink ∧
      let s := (Client.run Sink.step (.call (.write [1]) fun _ _ => .call (.write [2, 3]) fun _ _ =>
        .done ()) sink).state
      s.position = 1 ∧ ∃ count next, Sink.write [9] s = .ok count next ∧
        next.stream.content = [1, 2, 9] ∧ (next.stream.content.drop s.position).take 1 ≠ [9] := by
  let sink : StreamSink := ⟨{ halting with seeks := 1 }, 0⟩
  let client : Client Sink.Call (Except Error Nat) StreamSink Unit :=
    .call (.write [1]) fun _ _ => .call (.write [2, 3]) fun _ _ => .done ()
  have hposition : (client.run Sink.step sink).state.position = 1 := by decide +kernel
  have hcontent : (match Sink.write [9] (client.run Sink.step sink).state with
      | .ok _ next => next.stream.content
      | .error _ _ => []) = [1, 2, 9] := by decide +kernel
  refine ⟨sink, rfl, hposition, ?_⟩
  split at hcontent
  next count next heq =>
    refine ⟨count, next, heq, hcontent, ?_⟩
    rw [hcontent, hposition]
    decide
  next => cases hcontent

end StreamSink

end Octet
