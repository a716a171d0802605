import Octet.Proofs.Source.Stream

/-!
# Sending a stream to a place

Whatever is refused, a stream source that skips or seeks first asks for the size and then sends its
stream at most once. What it has to be told of the stream is no more than where it stands then.

## Main definitions

* `Stream.Passes`: a stream that was sent on by a count of bytes.

## Main statements

* `StreamSource.skip_sends`, `StreamSource.seek_sends`: all that a skip and a seek can do.
-/

namespace Octet

/-! ## Streams -/

namespace Stream

/-- A seek moves nothing but the cursor, and not even that if it is refused. -/
theorem seek_moves (place : Place) (s : Stream) :
    (seek place).Ends s (fun _ t => ∃ q, s.Moved q t) (fun _ t => s.Moved s.cursor t) := by
  have hmoved (n : Nat) : s.Moved n { s with seeks := s.seeks + 1, cursor := n } := ⟨rfl, rfl, rfl⟩
  simp only [Action.Ends, seek]
  cases s.faults.seek s.seeks with
  | some reason => exact hmoved s.cursor
  | none => grind

/-- The stream `t` is `s` after it was sent on by `passed` bytes. A distance that a signed number of
64 bits does not hold may lead anywhere. -/
def Passes (s : Stream) (passed : Nat) (t : Stream) : Prop :=
  ∃ cursor, s.Moved cursor t ∧
    (passed < UInt64.size / 2 → cursor = s.cursor + passed ∧ cursor < UInt64.size)

end Stream

/-! ## Sources on streams -/

namespace StreamSource

variable {source : StreamSource}

theorem seek_tracks {place : Place} {offset : Nat} (hplace : source.stream.Leads offset place) :
    (onStream (Stream.seek place)).Ends source
      (fun found next => found = offset ∧ offset < UInt64.size ∧
        ∃ stream, source.stream.Moved offset stream ∧ next = { source with stream })
      (fun _ next => (∃ stream, source.stream.Moved source.stream.cursor stream ∧
          next = { source with stream }) ∧
        (source.stream.faults.seek source.stream.seeks ≠ none ∨
          (source.stream.faults.endless = true ∧ ∃ n, place = .stop n) ∨
          UInt64.size ≤ offset)) := by
  have hseek := Stream.seek_ends hplace
  apply Action.ends_on.mpr
  cases hact : Stream.seek place source.stream with
  | ok found next =>
    obtain ⟨rfl, hmoved⟩ := hseek.of_ok hact
    exact Action.ends_of_ok hact ⟨rfl, Stream.lt_of_seek_eq_ok hact, next, hmoved, rfl⟩
  | error e next =>
    exact Action.ends_of_error hact
      ⟨⟨next, (hseek.of_error hact).1, rfl⟩, Stream.seek_eq_error hplace hact⟩

/-- The stream is sent on as far as it can be told. -/
theorem seek_passes (source : StreamSource) (passed : Nat) :
    (onStream (Stream.seek (.here ((passed : Int).bmod UInt64.size)))).Ends source
      (fun _ next => ∃ stream, source.stream.Passes passed stream ∧ next = { source with stream })
      (fun _ next => ∃ stream, source.stream.Moved source.stream.cursor stream ∧
        next = { source with stream }) := by
  by_cases hshort : passed < UInt64.size / 2
  · have hcount : (passed : Int).bmod UInt64.size = passed :=
      Int.bmod_eq_of_le (by omega) (by omega)
    have hhere : source.stream.Leads (source.stream.cursor + passed) (.here passed) := by
      simp [Stream.Leads]
    rw [hcount]
    apply (seek_tracks hhere).mono
    · rintro _ _ ⟨-, hlt, stream, hmoved, rfl⟩
      exact ⟨stream, ⟨_, hmoved, fun _ => ⟨rfl, hlt⟩⟩, rfl⟩
    · exact fun _ _ hnext => hnext.1
  · apply Action.ends_on.mpr
    apply (Stream.seek_moves _ source.stream).mono
    · rintro _ stream ⟨_, hmoved⟩
      exact ⟨stream, ⟨_, hmoved, fun hlt => absurd hlt hshort⟩, rfl⟩
    · exact fun _ stream hmoved => ⟨stream, hmoved, rfl⟩

/-- A skip asks for the size, by which it cuts the count, and sends the stream on. -/
theorem skip_sends (count : Nat) (source : StreamSource) :
    (StreamSource.skip count).Ends source
      (fun passed next =>
        passed = (source.size.1.elim count fun size =>
          min count (size - source.size.2.position)) ∧
        ∃ stream, source.size.2.stream.Passes passed stream ∧
          next = { source.size.2 with stream, position := source.size.2.position + passed })
      (fun _ next => ∃ stream, source.size.2.stream.Moved source.size.2.stream.cursor stream ∧
        next = { source.size.2 with stream }) := by
  rw [StreamSource.skip, Action.ends_bind, Action.ends_modifyGet, Action.ends_bind,
    Action.ends_get]
  generalize source.size = found
  obtain ⟨size, sized⟩ := found
  apply (seek_passes sized _).bind
  · rintro _ _ ⟨stream, hpasses, rfl⟩
    rw [Action.ends_bind, Action.ends_modify, Action.ends_pure]
    cases size with
    | none => exact ⟨rfl, stream, hpasses, rfl⟩
    | some size => exact ⟨rfl, stream, hpasses, rfl⟩
  · exact fun _ _ hnext => hnext

/-- A seek asks for the size, by which it may be refused, and sends the stream there. -/
theorem seek_sends (target : Nat) (source : StreamSource) :
    (StreamSource.seek target).Ends source
      (fun _ next => target < UInt64.size ∧ ∃ stream, source.size.2.stream.Moved target stream ∧
        next = { source.size.2 with stream, position := target })
      (fun _ next => next = source.size.2 ∨
        ∃ stream, source.size.2.stream.Moved source.size.2.stream.cursor stream ∧
          next = { source.size.2 with stream }) := by
  rw [StreamSource.seek, Action.ends_bind, Action.ends_modifyGet]
  generalize source.size = found
  obtain ⟨size, sized⟩ := found
  have hsend : Action.Ends (do
      let _ ← onStream (Stream.seek (.start target))
      modify fun source => { source with position := target }) sized
      (fun _ next => target < UInt64.size ∧ ∃ stream, sized.stream.Moved target stream ∧
        next = { sized with stream, position := target })
      (fun _ next => next = sized ∨ ∃ stream, sized.stream.Moved sized.stream.cursor stream ∧
        next = { sized with stream }) := by
    apply (seek_tracks (sized.stream.leads_start target)).bind
    · rintro _ _ ⟨-, hlt, stream, hmoved, rfl⟩
      exact ⟨hlt, stream, hmoved, rfl⟩
    · exact fun _ _ hnext => .inr hnext.1
  cases size with
  | none => exact hsend
  | some size =>
    dsimp only
    rw [Action.ends_bind, Action.ends_conclude]
    cases checkSeek target size with
    | ok _ => exact hsend
    | error e => exact .inl rfl

end StreamSource

end Octet
