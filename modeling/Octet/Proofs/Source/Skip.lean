import Octet.Proofs.Source.Position
import Octet.Proofs.Source.Access
import Octet.Reader

/-!
# How far a stream source skips

A source that finds out the size of its stream never skips past the end. Where the size is not to be
had at the moment of a skip, nothing holds the skip back: the stream takes a place behind its end as
well, and the source says that all was skipped.

## Main definitions

* `StreamSource.Reaches`: the cursor is no further back than the position or the end.

## Main statements

* `StreamSource.reaches_run`: so it stays, whatever is called and whatever is refused.
* `StreamSource.skips_inside`: what a skip passes over, and when a reader does not notice an end.
* `StreamSource.skip_past_unknown_end`: a skip past the end of a stream that cannot be measured.
-/

namespace Octet

namespace StreamSource

variable {α : Type} {data : Bytes} {stream : Stream} {source : StreamSource}

/-- The source is on a stream that contains `data`, and if it knows a size, that is the right one.
Its cursor is no further back than its position or the end, whichever comes first. Nothing is said
of positions that a signed number of 64 bits does not hold. -/
structure Reaches (data : Bytes) (source : StreamSource) : Prop where
  content : source.stream.content = data
  known : ∀ size ∈ source.known, size = data.length
  reach : source.position < UInt64.size / 2 → min source.position data.length ≤ source.stream.cursor

theorem Reaches.moved (h : Reaches data source) {cursor position : Nat}
    (hmoved : source.stream.Moved cursor stream)
    (hreach : position < UInt64.size / 2 → min position data.length ≤ cursor) :
    Reaches data { source with stream, position } where
  content := hmoved.1.trans h.content
  known := h.known
  reach hlt := hmoved.2.1.symm ▸ hreach hlt

theorem reaches_of_ofStream (h : ofStream stream = .ok source) : Reaches stream.content source := by
  obtain ⟨-, hknown, hcontent, hcursor, -⟩ := moved_of_ofStream h
  exact ⟨hcontent, by simp [hknown], fun _ => hcursor.symm ▸ Nat.min_le_left ..⟩

/-! ## The size -/

theorem Reaches.probe (h : Reaches data source) :
    (probe).Ends source
      (fun size next => size = data.length ∧ Reaches data next ∧ next.position = source.position)
      (fun _ next => Reaches data next ∧ next.position = source.position) := by
  have hstop : source.stream.Leads data.length (.stop 0) := by simp [Stream.Leads, h.content]
  rw [StreamSource.probe]
  apply (seek_tracks hstop).bind
  · rintro _ _ ⟨rfl, -, there, hthere, rfl⟩
    have hreached : Reaches data { source with stream := there } :=
      h.moved hthere fun _ => Nat.min_le_right ..
    rw [Action.ends_bind, Action.ends_get]
    apply (seek_tracks (there.leads_start source.position)).bind
    · rintro _ _ ⟨-, -, back, hback, rfl⟩
      rw [Action.ends_bind, Action.ends_modify, Action.ends_pure]
      have hreturned := hreached.moved hback fun _ => Nat.min_le_left ..
      exact ⟨rfl, ⟨hreturned.content, by simp, hreturned.reach⟩, rfl⟩
    · rintro _ _ ⟨⟨back, hback, rfl⟩, -⟩
      exact ⟨hreached.moved hback hreached.reach, rfl⟩
  · rintro _ _ ⟨⟨next, hnext, rfl⟩, -⟩
    exact ⟨h.moved hnext h.reach, rfl⟩

/-- The size that a source gives is the right one. -/
theorem Reaches.size (h : Reaches data source) :
    (∀ size ∈ source.size.1, size = data.length) ∧ Reaches data source.size.2 ∧
      source.size.2.position = source.position := by
  have hprobe := h.probe
  have hright := h.known
  rw [StreamSource.size]
  cases hknown : source.known with
  | some size =>
    rw [hknown] at hright
    exact ⟨hright, h, rfl⟩
  | none =>
    dsimp only
    cases hact : StreamSource.probe source with
    | ok size next =>
      obtain ⟨rfl, hnext⟩ := hprobe.of_ok hact
      exact ⟨by simp, hnext⟩
    | error e next => exact ⟨by simp, hprobe.of_error hact⟩

/-! ## The other calls -/

/-- A read brings nothing from behind the end. -/
theorem Reaches.read (h : Reaches data source) (want : Nat) :
    Reaches data (source.read want).2 ∧
      (source.position < UInt64.size / 2 →
        (source.read want).1.bytes.length ≤ data.length - source.position) ∧
      ∀ count, (source.read want).1.count = .ok count →
        count = (source.read want).1.bytes.length := by
  obtain ⟨hfront, hmoved, hcount⟩ := source.stream.readUpTo_delivers want
  have hreach := h.reach
  rw [h.content] at hfront
  simp only [StreamSource.read]
  generalize source.stream.readUpTo want = result at hfront hmoved hcount
  obtain ⟨⟨bytes, outcome⟩, stream⟩ := result
  dsimp only at hfront hmoved hcount ⊢
  have hlength := hfront.length_le
  rw [List.length_take, List.length_drop] at hlength
  refine ⟨h.moved hmoved fun hlt => ?_, fun hlt => ?_, ?_⟩
  · have := hreach (by omega)
    omega
  · have := hreach hlt
    omega
  · rintro count rfl
    exact hcount.1

/-- A read that is to bring more than there is left is not complete. -/
theorem Reaches.not_isComplete (h : Reaches data source) {want : Nat}
    (hlt : source.position < UInt64.size / 2) (hshort : data.length - source.position < want) :
    (source.read want).1.isComplete want = false := by
  obtain ⟨-, hlength, hcount⟩ := h.read want
  unfold Delivery.isComplete
  cases houtcome : (source.read want).1.count with
  | error e => rfl
  | ok count =>
    have heq := hcount count houtcome
    exact beq_eq_false_iff_ne.mpr (by omega)

/-- A skip that succeeds is cut to what is left if the size is to be had, and not otherwise. -/
theorem Reaches.skip (h : Reaches data source) (count : Nat) :
    (StreamSource.skip count).Ends source
      (fun passed next => Reaches data next ∧ next.position = source.position + passed ∧
        passed = if source.size.1 = none then count
          else min count (data.length - source.position))
      (fun _ next => Reaches data next ∧ next.position = source.position) := by
  obtain ⟨hsize, hsized, hposition⟩ := h.size
  apply (skip_sends count source).mono
  · rintro passed _ ⟨hpassed, stream, ⟨cursor, hmoved, hsigned⟩, rfl⟩
    refine ⟨hsized.moved hmoved fun hlt => ?_, congrArg (· + passed) hposition, ?_⟩
    · obtain ⟨rfl, -⟩ := hsigned (by omega)
      have := hsized.reach (by omega)
      omega
    · rw [hpassed, hposition]
      cases hfound : source.size.1 with
      | none => rfl
      | some size =>
        obtain rfl := hsize size hfound
        rfl
  · rintro _ _ ⟨stream, hmoved, rfl⟩
    exact ⟨hsized.moved hmoved hsized.reach, hposition⟩

theorem Reaches.seek (h : Reaches data source) (target : Nat) :
    (StreamSource.seek target).Ends source (fun _ next => Reaches data next)
      (fun _ next => Reaches data next) := by
  obtain ⟨-, hsized, -⟩ := h.size
  apply (seek_sends target source).mono
  · rintro _ _ ⟨-, stream, hmoved, rfl⟩
    exact hsized.moved hmoved fun _ => Nat.min_le_left ..
  · rintro _ _ (rfl | ⟨stream, hmoved, rfl⟩)
    · exact hsized
    · exact hsized.moved hmoved hsized.reach

/-! ## Runs -/

theorem Reaches.step (h : Reaches data source) (call : Source.Call) :
    Reaches data (Source.step call source).state := by
  cases call with
  | read want => exact (h.read want).1
  | size => exact h.size.2.1
  | skip count =>
    apply Source.step_skip_of_ends (Reaches data)
    exact (h.skip count).mono (fun _ _ hnext => hnext.1) fun _ _ hnext => hnext.1
  | seek target => exact Source.step_seek_of_ends (Reaches data) (h.seek target)

theorem reaches_run (h : Reaches data source)
    (client : Client Source.Call Source.Reply StreamSource α) :
    Reaches data (client.run Source.step source).state :=
  client.run_invariant Source.step (fun _ s => Reaches data s) (fun call _ _ h => h.step call) [] h

/-- Whatever a client has done with a source on any stream, a skip is made from inside the contents.
If the size is to be had at this moment, the skip passes over what is left at most, and over less
than it was asked for only up to the end. If not, it passes over all that it was asked for, or is
refused. So a reader that is to pass over more than is left fails, as it would by reading as much,
but for one case: the size is not to be had, and the stream takes the skip. -/
theorem skips_inside (hopen : ofStream stream = .ok source)
    (client : Client Source.Call Source.Reply StreamSource α) :
    let s := (client.run Source.step source).state
    let left := stream.content.length - s.position
    ∀ count, s.position ≤ stream.content.length → s.position + count < UInt64.size / 2 →
      (∀ passed next, StreamSource.skip count s = .ok passed next →
        next.position = s.position + passed ∧
          (s.size.1 ≠ none →
            passed ≤ left ∧ (passed < count → next.position = stream.content.length)) ∧
          (s.size.1 = none → passed = count)) ∧
        (left < count →
          ((Reader.mk s false).readBytes count).2.failed = true ∧
            (((Reader.mk s false).skipBytes count).failed = false ↔
              s.size.1 = none ∧ ∃ next, StreamSource.skip count s = .ok count next)) := by
  intro s left count hinside hlt
  have hs : Reaches stream.content s := reaches_run (reaches_of_ofStream hopen) client
  have hskip := hs.skip count
  refine ⟨fun passed next hact => ?_, fun hleft => ⟨?_, ?_⟩⟩
  · obtain ⟨-, hposition, hpassed⟩ := hskip.of_ok hact
    refine ⟨hposition, fun hsize => ?_, fun hsize => ?_⟩
    · grind
    · rwa [if_pos hsize] at hpassed
  · have hshort := hs.not_isComplete (by omega) hleft
    simp only [Reader.readBytes, Reader.fill, Source.read, hshort, Bool.false_eq_true, if_false,
      Bool.not_false]
  · simp only [Reader.skipBytes, Source.skip, Bool.false_eq_true, if_false]
    cases hact : StreamSource.skip count s with
    | error e next => simp
    | ok passed next =>
      obtain ⟨-, -, hpassed⟩ := hskip.of_ok hact
      rw [bne_eq_false_iff_eq]
      constructor
      · rintro rfl
        refine ⟨Decidable.byContradiction fun hsize => ?_, next, rfl⟩
        grind
      · rintro ⟨-, _, heq⟩
        cases heq
        rfl

/-- The second seek is refused. -/
def balking : Stream where
  content := [1, 2, 3, 4, 5]
  faults := { Faults.scheduled [] [] "" none with
    seek := fun n => if n = 1 then some "unplugged" else none }

/-- The first skip is made without the size, the second with it. -/
theorem skips_inside_once_measured :
    ∃ source : StreamSource, ofStream balking = .ok source ∧
      let s := (Client.run Source.step (.call (.skip 1) fun _ _ => .done ()) source).state
      s.position = 1 ∧ s.size.1 = some 5 ∧
        (∃ next, StreamSource.skip 10 s = .ok 4 next ∧ next.position = 5) ∧
        ((Reader.mk s false).skipBytes 10).failed = true ∧
        ((Reader.mk s false).readBytes 10).2.failed = true := by
  let source : StreamSource := ⟨{ balking with seeks := 1 }, 0, none⟩
  let client : Client Source.Call Source.Reply StreamSource Unit :=
    .call (.skip 1) fun _ _ => .done ()
  have hopen : ofStream balking = .ok source := rfl
  have hsize : (client.run Source.step source).state.size.1 = some 5 := by decide +kernel
  obtain ⟨hskip, hreader⟩ := skips_inside hopen client 10 (by decide +kernel) (by decide +kernel)
  obtain ⟨hread, hnotice⟩ := hreader (by decide +kernel)
  have hten : ((StreamSource.skip 10).outcome (client.run Source.step source).state).1.toOption =
      some 4 := by decide +kernel
  refine ⟨source, hopen, by decide +kernel, hsize, ?_, ?_, hread⟩
  · unfold Action.outcome at hten
    cases hact : StreamSource.skip 10 (client.run Source.step source).state with
    | error e next =>
      rw [hact] at hten
      cases hten
    | ok passed next =>
      rw [hact] at hten
      obtain rfl := Option.some.inj hten
      exact ⟨next, rfl, ((hskip _ _ hact).2.1 (by rw [hsize]; simp)).2 (by decide)⟩
  · refine eq_true_of_ne_false fun hfailed => ?_
    obtain ⟨hnone, -⟩ := hnotice.mp hfailed
    rw [hsize] at hnone
    cases hnone

/-- A stream that cannot be measured. -/
def unmeasured : Stream where
  content := [1, 2, 3]
  faults := { Faults.scheduled [] [] "" none with endless := true }

/-- Three bytes are left, and ten are passed over. A reader does not notice, where it would notice
by reading. -/
theorem skip_past_unknown_end :
    ∃ source : StreamSource, ofStream unmeasured = .ok source ∧
      unmeasured.content.length - source.position = 3 ∧
      (∃ next, StreamSource.skip 10 source = .ok 10 next ∧ next.position = 10) ∧
      ((Reader.mk source false).skipBytes 10).failed = false ∧
      ((Reader.mk source false).readBytes 10).2.failed = true := by
  refine ⟨⟨{ unmeasured with seeks := 1 }, 0, none⟩, rfl, rfl, ⟨_, rfl, rfl⟩, ?_, ?_⟩
  · decide +kernel
  · decide +kernel

end StreamSource

end Octet
