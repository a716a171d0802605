import Octet.Proofs.Source.Call
import Octet.Proofs.Source.Sending

/-!
# The position of a stream source

A stream source keeps a position of its own beside the cursor of its stream. The two move together,
but for the probe for the size, which goes to the end and may be refused the way back. The source
then stays stranded, its cursor at the end or behind, until a seek to its position or another place
succeeds. What a stranded source delivers is nothing, which is not wrong but says that it is
exhausted.

## Main definitions

* `StreamSource.Stranded`: a probe has not come back.
* `StreamSource.Tracks`: the cursor is at the position, or the source is stranded.
* `StreamSource.Strands`: a probe made now would not come back.

## Main statements

* `StreamSource.tracks_run`: every run of calls keeps track.
* `StreamSource.reads_at_position`: bytes come from the position, and the cursor is there unless a
  seek was refused.
* `StreamSource.reads_nothing_after_probe`: after a probe that did not come back, a source with
  bytes ahead says that it is exhausted.
-/

namespace Octet

namespace StreamSource

variable {α : Type} {faults : Faults} {data : Bytes} {stream : Stream} {source : StreamSource}

/-- A probe for the size has gone to the end, and its way back was refused. -/
structure Stranded (faults : Faults) (data : Bytes) (source : StreamSource) : Prop where
  known : source.known = none
  le_cursor : data.length ≤ source.stream.cursor
  endless : faults.endless = false
  refused : ∃ n, faults.seek n ≠ none

/-- The source is on a stream that contains `data`. Its cursor is at the position unless the source
is stranded, and no further than offsets can say. -/
structure Tracks (faults : Faults) (data : Bytes) (source : StreamSource) : Prop where
  content : source.stream.content = data
  schedule : source.stream.faults = faults
  cursor_lt : data.length < UInt64.size → source.stream.cursor < UInt64.size
  place : source.stream.cursor = source.position ∨ Stranded faults data source

/-! ## Moves -/

theorem onStream_eq_ok {act : Action Stream α} {result : α} {next : StreamSource}
    (h : onStream act source = .ok result next) : act source.stream = .ok result next.stream := by
  unfold onStream Action.on at h
  split at h <;> cases h
  assumption

/-- Moving on does not help a stranded source. -/
theorem Stranded.moved (h : Stranded faults data source) {position : Nat}
    (hle : source.stream.cursor ≤ stream.cursor) :
    Stranded faults data { source with stream, position } where
  known := h.known
  le_cursor := Nat.le_trans h.le_cursor hle
  endless := h.endless
  refused := h.refused

theorem Tracks.moved (h : Tracks faults data source) {cursor position : Nat}
    (hmoved : source.stream.Moved cursor stream)
    (hlt : data.length < UInt64.size → cursor < UInt64.size)
    (hplace : cursor = position ∨ Stranded faults data { source with stream, position }) :
    Tracks faults data { source with stream, position } where
  content := hmoved.1.trans h.content
  schedule := hmoved.2.2.trans h.schedule
  cursor_lt hdata := hmoved.2.1.symm ▸ hlt hdata
  place := hplace.imp_left hmoved.2.1.trans

theorem Tracks.unmoved (h : Tracks faults data source)
    (hmoved : source.stream.Moved source.stream.cursor stream) :
    Tracks faults data { source with stream } :=
  h.moved hmoved h.cursor_lt
    (h.place.imp_right fun hstranded => hstranded.moved (Nat.le_of_eq hmoved.2.1.symm))

/-- The cursor and the position are sent to the same place. -/
theorem Tracks.sent (h : Tracks faults data source) {target : Nat} (hlt : target < UInt64.size)
    (hmoved : source.stream.Moved target stream) :
    Tracks faults data { source with stream, position := target } :=
  h.moved hmoved (fun _ => hlt) (.inl rfl)

/-- The cursor and the position move on by the same count. -/
theorem Tracks.advanced (h : Tracks faults data source) {count : Nat}
    (hlt : data.length < UInt64.size → source.stream.cursor + count < UInt64.size)
    (hmoved : source.stream.Moved (source.stream.cursor + count) stream) :
    Tracks faults data { source with stream, position := source.position + count } := by
  refine h.moved hmoved hlt (h.place.imp (congrArg (· + count)) fun hstranded => ?_)
  apply hstranded.moved
  rw [hmoved.2.1]
  exact Nat.le_add_right ..

/-! ## The probe for the size -/

/-- A probe made now would reach the end and be refused the way back. -/
def Strands (source : StreamSource) : Prop :=
  source.known = none ∧ ∃ found there e back,
    onStream (Stream.seek (.stop 0)) source = .ok found there ∧
      onStream (Stream.seek (.start source.position)) there = .error e back

/-- A probe that succeeds brings the cursor to the position, wherever it was before. One that is
refused leaves it alone, or strands it at the end. -/
theorem Tracks.probe (h : Tracks faults data source) (hknown : source.known = none) :
    (probe).Ends source
      (fun _ next => Tracks faults data next ∧ next.position = source.position ∧
        next.stream.cursor = source.position ∧ ¬ source.Strands)
      (fun _ next => Tracks faults data next ∧ next.position = source.position ∧
        (next.stream.cursor = source.stream.cursor ∧ ¬ source.Strands ∨
          next.stream.cursor = data.length ∧ source.Strands)) := by
  have hstop : source.stream.Leads data.length (.stop 0) := by simp [Stream.Leads, h.content]
  rw [StreamSource.probe, Action.ends_bind]
  cases hto : onStream (Stream.seek (.stop 0)) source with
  | error e next =>
    obtain ⟨⟨stream, hmoved, rfl⟩, -⟩ := (seek_tracks hstop).of_error hto
    refine Action.ends_of_error hto ⟨h.unmoved hmoved, rfl, .inl ⟨hmoved.2.1, ?_⟩⟩
    rintro ⟨-, _, _, _, _, hthere, -⟩
    rw [hto] at hthere
    cases hthere
  | ok found there =>
    obtain ⟨rfl, hlt, stream, hmoved, rfl⟩ := (seek_tracks hstop).of_ok hto
    apply Action.ends_of_ok hto
    have hstart := Stream.leads_start stream source.position
    rw [Action.ends_bind, Action.ends_get, Action.ends_bind]
    cases hback : onStream (Stream.seek (.start source.position)) { source with stream } with
    | ok found back =>
      obtain ⟨rfl, hposition, stream', hmoved', rfl⟩ := (seek_tracks hstart).of_ok hback
      apply Action.ends_of_ok hback
      rw [Action.ends_bind, Action.ends_modify, Action.ends_pure]
      have hsent := h.sent hposition (hmoved.trans hmoved')
      refine ⟨⟨hsent.content, hsent.schedule, hsent.cursor_lt, .inl hmoved'.2.1⟩, rfl,
        hmoved'.2.1, ?_⟩
      rintro ⟨-, _, _, _, _, hthere, hrefused⟩
      cases hto.symm.trans hthere
      cases hback.symm.trans hrefused
    | error e back =>
      obtain ⟨⟨stream', hmoved', rfl⟩, hrefused⟩ := (seek_tracks hstart).of_error hback
      have hcursor : stream'.cursor = data.length := hmoved'.2.1.trans hmoved.2.1
      have hendless : faults.endless = false :=
        h.schedule ▸ Stream.endless_of_seek_eq_ok (onStream_eq_ok hto)
      -- The position is within the offsets, so that only the schedule refuses the way back.
      have hschedule : ∃ n, faults.seek n ≠ none := by
        rcases hrefused with hrefused | ⟨-, _, hplace⟩ | hlarge
        · exact ⟨_, (hmoved.2.2.trans h.schedule) ▸ hrefused⟩
        · cases hplace
        · rcases h.place with hplace | hstranded
          · have := h.cursor_lt hlt
            omega
          · exact hstranded.refused
      have hstranded : Stranded faults data { source with stream := stream' } :=
        ⟨hknown, Nat.le_of_eq hcursor.symm, hendless, hschedule⟩
      refine Action.ends_of_error hback ⟨?_, rfl, .inr ⟨hcursor, hknown, _, _, _, _, hto, hback⟩⟩
      exact h.moved (hmoved.trans hmoved') (fun _ => hmoved.2.1.symm ▸ hlt) (.inr hstranded)

theorem Tracks.size (h : Tracks faults data source) :
    Tracks faults data source.size.2 ∧ source.size.2.position = source.position ∧
      (source.stream.cursor = source.position → source.position ≠ data.length →
        (source.size.2.stream.cursor = source.position ↔ ¬ source.Strands)) := by
  rw [StreamSource.size]
  cases hknown : source.known with
  | some size =>
    refine ⟨h, rfl, fun hcursor _ => iff_of_true hcursor ?_⟩
    rintro ⟨hnone, -⟩
    rw [hknown] at hnone
    cases hnone
  | none =>
    have hprobe := h.probe hknown
    dsimp only
    cases hact : StreamSource.probe source with
    | ok size next =>
      obtain ⟨hnext, hposition, hcursor, hback⟩ := hprobe.of_ok hact
      exact ⟨hnext, hposition, fun _ _ => iff_of_true hcursor hback⟩
    | error e next =>
      obtain ⟨hnext, hposition, hcursor⟩ := hprobe.of_error hact
      refine ⟨hnext, hposition, fun hsource hne => ?_⟩
      rcases hcursor with ⟨hcursor, hback⟩ | ⟨hcursor, hstrands⟩
      · exact iff_of_true (hcursor.trans hsource) hback
      · exact iff_of_false (fun heq => hne (heq.symm.trans hcursor)) (not_not_intro hstrands)

/-! ## The other calls -/

/-- What lies ahead of the cursor lies ahead of the position, for ahead of a stranded cursor lies
nothing. -/
theorem Tracks.ahead (h : Tracks faults data source) :
    data.drop source.stream.cursor <+: data.drop source.position := by
  rcases h.place with hplace | hstranded
  · exact hplace ▸ List.prefix_rfl
  · rw [List.drop_of_length_le hstranded.le_cursor]
    exact List.nil_prefix

theorem Tracks.read (h : Tracks faults data source) (want : Nat) :
    (source.read want).1.bytes <+: data.drop source.position ∧
      (source.read want).2.position = source.position + (source.read want).1.bytes.length ∧
      Tracks faults data (source.read want).2 ∧
      ∀ count, (source.read want).1.count = .ok count →
        count = (source.read want).1.bytes.length ∧
          (source.stream.cursor = source.position → faults.Productive → count < want →
            data.length ≤ (source.read want).2.position) := by
  obtain ⟨hfront, hmoved, hcount⟩ := source.stream.readUpTo_delivers want
  rw [h.content] at hfront hcount
  simp only [StreamSource.read]
  generalize source.stream.readUpTo want = result at hfront hmoved hcount
  obtain ⟨⟨bytes, outcome⟩, stream⟩ := result
  dsimp only at hfront hmoved hcount ⊢
  have hahead := hfront.trans (List.take_prefix want _)
  have hlength := hahead.length_le
  rw [List.length_drop] at hlength
  refine ⟨hahead.trans h.ahead, trivial, h.advanced ?_ hmoved, ?_⟩
  · intro hlt
    have := h.cursor_lt hlt
    omega
  · rintro count rfl
    obtain ⟨rfl, hall⟩ := hcount
    refine ⟨rfl, fun hplace hproductive hshort => ?_⟩
    have hbytes := congrArg List.length (hall (h.schedule ▸ hproductive))
    grind

/-- However the count is cut, it stays within the signed numbers that a stream is sent. -/
theorem Tracks.skip (h : Tracks faults data source) {count : Nat}
    (hshort : count < UInt64.size / 2) :
    (StreamSource.skip count).Ends source (fun _ next => Tracks faults data next)
      (fun _ next => Tracks faults data next) := by
  have hsized := h.size.1
  apply (skip_sends count source).mono
  · rintro passed _ ⟨hpassed, stream, ⟨cursor, hmoved, hsigned⟩, rfl⟩
    have hle : passed ≤ count := by
      rw [hpassed]
      cases source.size.1 with
      | none => exact Nat.le_refl count
      | some size => exact Nat.min_le_left ..
    obtain ⟨rfl, hlt⟩ := hsigned (by omega)
    exact hsized.advanced (fun _ => hlt) hmoved
  · rintro _ _ ⟨stream, hmoved, rfl⟩
    exact hsized.unmoved hmoved

theorem Tracks.seek (h : Tracks faults data source) (target : Nat) :
    (StreamSource.seek target).Ends source (fun _ next => Tracks faults data next)
      (fun _ next => Tracks faults data next) := by
  have hsized := h.size.1
  apply (seek_sends target source).mono
  · rintro _ _ ⟨hlt, stream, hmoved, rfl⟩
    exact hsized.sent hlt hmoved
  · rintro _ _ (rfl | ⟨stream, hmoved, rfl⟩)
    · exact hsized
    · exact hsized.unmoved hmoved

/-! ## Runs -/

/-- The stream is sent the distance as it is. -/
def Short : Source.Call → Prop
  | .skip count => count < UInt64.size / 2
  | _ => True

theorem Tracks.step (h : Tracks faults data source) (call : Source.Call) (hshort : Short call) :
    Tracks faults data (Source.step call source).state := by
  cases call with
  | read want => exact (h.read want).2.2.1
  | size => exact h.size.1
  | skip count => exact Source.step_skip_of_ends (Tracks faults data) (h.skip hshort)
  | seek target => exact Source.step_seek_of_ends (Tracks faults data) (h.seek target)

theorem tracks_of_ofStream (h : ofStream stream = .ok source) :
    Tracks stream.faults stream.content source := by
  obtain ⟨hlt, -, hcontent, hcursor, hfaults⟩ := moved_of_ofStream h
  exact ⟨hcontent, hfaults, fun _ => hcursor.symm ▸ hlt, .inl hcursor⟩

theorem tracks_run (h : Tracks faults data source)
    (client : Client Source.Call Source.Reply StreamSource α)
    (hshort : ∀ event ∈ (client.run Source.step source).events, Short event.1) :
    Tracks faults data (client.run Source.step source).state := by
  refine client.run_invariant Source.step
    (fun seen s => (∀ event ∈ seen, Short event.1) → Tracks faults data s) ?_ []
    (fun _ => h) hshort
  intro call seen s hs hseen
  obtain ⟨hbefore, hcall⟩ := List.forall_mem_append.mp hseen
  exact (hs hbefore).step call (hcall _ (List.mem_singleton_self _))

/-- Whatever a client does with a source on any stream, the cursor is at the position, or a seek was
refused and a probe for the size has left the cursor at the end or behind. Every read then brings
bytes from the position on and moves the position behind them. One that says that the source is
exhausted is right about it while the cursor is at the position; and it stays there when the size is
asked for, unless the probe strands it. -/
theorem reads_at_position (hopen : ofStream stream = .ok source)
    (client : Client Source.Call Source.Reply StreamSource α)
    (hshort : ∀ event ∈ (client.run Source.step source).events, Short event.1) :
    let s := (client.run Source.step source).state
    Tracks stream.faults stream.content s ∧
      (∀ want, (s.read want).1.bytes <+: stream.content.drop s.position ∧
        (s.read want).2.position = s.position + (s.read want).1.bytes.length ∧
        ∀ count, (s.read want).1.count = .ok count →
          count = (s.read want).1.bytes.length ∧
            (s.stream.cursor = s.position → stream.faults.Productive → count < want →
              stream.content.length ≤ (s.read want).2.position)) ∧
      s.size.2.position = s.position ∧
      (s.stream.cursor = s.position → s.position ≠ stream.content.length →
        (s.size.2.stream.cursor = s.position ↔ ¬ s.Strands)) := by
  intro s
  have hs : Tracks stream.faults stream.content s :=
    tracks_run (tracks_of_ofStream hopen) client hshort
  refine ⟨hs, fun want => ?_, hs.size.2⟩
  obtain ⟨hbytes, hposition, -, hcount⟩ := hs.read want
  exact ⟨hbytes, hposition, hcount⟩

/-- Seeks succeed but for the third. -/
def sticking : Stream where
  content := [1, 2, 3, 4, 5]
  faults := { Faults.scheduled [] [] "" none with
    seek := fun n => if n = 2 then some "unplugged" else none }

/-- A probe after two bytes does not come back. The next one does, and the bytes ahead are read. -/
theorem reads_at_position_after_second_probe :
    ∃ source : StreamSource, ofStream sticking = .ok source ∧
      let s := (Client.run Source.step (.call (.read 2) fun _ _ => .call .size fun _ _ =>
        .call .size fun _ _ => .done ()) source).state
      s.position = 2 ∧ s.stream.cursor = 2 ∧ (s.read 2).1.bytes = [3, 4] ∧
        (s.read 2).1.bytes <+: sticking.content.drop s.position ∧
        (s.size.2.stream.cursor = s.position ↔ ¬ s.Strands) := by
  let source : StreamSource := ⟨{ sticking with seeks := 1 }, 0, none⟩
  let client : Client Source.Call Source.Reply StreamSource Unit :=
    .call (.read 2) fun _ _ => .call .size fun _ _ => .call .size fun _ _ => .done ()
  have hopen : ofStream sticking = .ok source := rfl
  have hposition : (client.run Source.step source).state.position = 2 := by decide +kernel
  have hcursor : (client.run Source.step source).state.stream.cursor = 2 := by decide +kernel
  have hshort : ∀ event ∈ (client.run Source.step source).events, Short event.1 := by
    intro event hevent
    simp only [client, Client.run, Source.step, List.mem_append, List.mem_singleton,
      List.not_mem_nil, or_false] at hevent
    rcases hevent with rfl | rfl | rfl <;> exact trivial
  obtain ⟨-, hread, -, hsize⟩ := reads_at_position hopen client hshort
  refine ⟨source, hopen, hposition, hcursor, by decide +kernel, (hread 2).1, ?_⟩
  exact hsize (hcursor.trans hposition.symm) (hposition.symm ▸ by decide)

/-- After the probe that did not come back, a source with three bytes ahead says that it is
exhausted. -/
theorem reads_nothing_after_probe :
    ∃ source : StreamSource, ofStream sticking = .ok source ∧
      let s := (Client.run Source.step (.call (.read 2) fun _ _ => .call .size fun _ _ =>
        .done ()) source).state
      s.position = 2 ∧ s.stream.cursor = 5 ∧
        (s.read 2).1.bytes = [] ∧ (s.read 2).1.count.toOption = some 0 ∧
        (s.read 2).2.position < sticking.content.length := by
  refine ⟨⟨{ sticking with seeks := 1 }, 0, none⟩, rfl, ?_⟩
  intro s
  exact ⟨by decide +kernel, by decide +kernel, by decide +kernel, by decide +kernel,
    by decide +kernel⟩

end StreamSource

end Octet
