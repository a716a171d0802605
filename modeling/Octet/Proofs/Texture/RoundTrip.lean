import Octet.Proofs.Sink.Buffer
import Octet.Proofs.Sink.Stream
import Octet.Proofs.Source.Stream
import Octet.Proofs.Texture.Load
import Octet.Proofs.Texture.Save

/-!
# Textures that are saved and loaded again

## Main definitions

* `readTexture`: what a client reads of a texture behind other bytes.
* `levelOf`: what there is to be read of a level.
* `Recovers`: a reader finds a header and payloads, in whatever order it asks for them.

## Main statements

* `recovers_of_save`: a texture that fits is saved, and found again.
-/

namespace Octet.Texture

variable {σ : Type}

/-- The payload of a level, unless it is empty or missing. -/
def levelOf (payloads : List Bytes) (level : Nat) : Except Error Bytes :=
  let payload := payloads[level]?.getD []
  if payload = [] then .error (.header (.emptyLevel level)) else .ok payload

/-- Skips what stands in front of a texture, loads its header and reads levels. -/
def readTexture [Source σ] (front : Nat) (levels : List Nat) :
    Action (Reader σ) (Header × List (Except Error Bytes)) := do
  modify (·.skipBytes front)
  let header ← load
  let outcomes ← readLevels header levels
  return (header, outcomes)

/-- Behind `front` bytes the reader finds just this header and these payloads. -/
def Recovers [Source σ] (front : Nat) (header : Header) (payloads : List Bytes) (r : Reader σ) :
    Prop :=
  ∀ levels, (readTexture front levels).Ends r
    (fun found next => found = (header, levels.map (levelOf payloads)) ∧ next.isOk)
    (fun _ _ => False)

variable {front : Bytes} {header : Header} {payloads : List Bytes}

/-- The slots of a whole file lead to the payloads. -/
theorem Fits.payloadIn_eq (hfits : Fits front.length payloads) (header : Header) (level : Nat) :
    (header.describing front.length payloads).payloadIn
      (front ++ encodeTexture front.length header payloads) level = levelOf payloads level := by
  have hslot := hfits.level?_describing header level
  rw [Header.payloadIn, levelOf]
  cases hlevel : (header.describing front.length payloads).level? level with
  | none =>
    simp only [hlevel] at hslot
    simp only [hslot, if_true]
  | some extent =>
    simp only [hlevel] at hslot
    obtain ⟨payload, hpayload, hne, hoffset, hlength⟩ := hslot
    obtain ⟨before, after, hflatten, hbefore⟩ := exists_flatten_eq hpayload
    simp only [Extent.stop, hoffset, hlength, hbefore, hpayload, Option.getD_some, hne, if_false]
    rw [encodeTexture, Header.drop_append_encode, hflatten, List.drop_left, List.take_left, if_pos]
    grind

/-- A reader on a source that walks over a whole file recovers what was saved. -/
theorem recovers_of_walks [Source σ] {stands : σ → Nat → Prop} {r : Reader σ}
    (hversion : header.version = Version.v1_0.raw) (hfits : Fits front.length payloads)
    (hsource : Source.Walks (front ++ encodeTexture front.length header payloads) stands)
    (h : r.Stands stands 0) :
    Recovers front.length (header.describing front.length payloads) payloads r := by
  intro levels
  have hskip := h.skipBytes hsource front.length (by simp)
  have hahead : (r.skipBytes front.length).Ahead
      (front ++ encodeTexture front.length header payloads) stands (0 + front.length)
      ((header.describing front.length payloads).encode ++ payloads.flatten) :=
    ⟨hskip, by rw [Nat.zero_add, List.drop_left, encodeTexture]⟩
  rw [readTexture, Action.ends_bind, Action.ends_modify]
  apply (load_ends hsource _ hahead).bind
  · rintro _ next ⟨rfl, hnext⟩
    refine (readLevels_ends hsource hnext.1 _ levels).bind ?_ fun _ _ h => h
    rintro _ last ⟨rfl, q, hlast⟩
    rw [Action.ends_pure]
    refine ⟨?_, by simp [Reader.isOk, hlast.1]⟩
    rw [funext fun level => hfits.payloadIn_eq header level]
  · rw [Header.describing_version]
    exact fun _ _ hno => hno hversion

/-- A file with levels is within the reach of seeking, so only one without could be too long. -/
theorem Fits.length_encodeTexture_lt (hfits : Fits front.length payloads) (header : Header)
    (hfront : payloads = [] → front.length + headerSize < UInt64.size / 2) :
    front.length + (encodeTexture front.length header payloads).length < UInt64.size / 2 := by
  rw [length_encodeTexture]
  by_cases hne : payloads = []
  · simpa [hne] using hfront hne
  · have := hfits.length_lt hne
    grind

/-- A texture of a known version that fits behind what a sink holds is saved, to a buffer as well
as to a harmless stream, and makes the same file. From that file, in memory or in a harmless
stream, the header comes back as the save left it and every level with a payload comes back whole,
in any order and as often as it is asked for; the others are refused and do no harm. Only a file
without levels has to be told to stay within the reach of seeking. -/
theorem recovers_of_save (hversion : header.version = Version.v1_0.raw)
    (hfits : Fits front.length payloads) :
    let saved := header.describing front.length payloads
    let file := front ++ encodeTexture front.length header payloads
    save payloads (header, (⟨front⟩ : Buffer)) = .ok () (saved, ⟨file⟩) ∧
      Recovers front.length saved payloads (⟨{ data := file }, false⟩ : Reader Cursor) ∧
      ((payloads = [] → front.length + headerSize < UInt64.size / 2) →
        ∀ stream : Stream, stream.faults.Harmless →
        (stream.content = front → stream.cursor = front.length → ∃ sink sink',
          StreamSink.ofStream stream = .ok sink ∧
            save payloads (header, sink) = .ok () (saved, sink') ∧
            sink'.stream.content = file) ∧
        (stream.content = file → stream.cursor = 0 → ∃ source,
          StreamSource.ofStream stream = .ok source ∧
            Recovers front.length saved payloads (⟨source, false⟩ : Reader StreamSource))) := by
  intro saved file
  refine ⟨?_, ?_, fun hfront stream hf => ⟨?_, ?_⟩⟩
  · obtain ⟨⟨_⟩, hsave, rfl⟩ := exists_save_eq_encodeTexture Buffer.tracked
      (show Buffer.Holds ⟨front⟩ front from rfl) header hfits (fun _ _ h => h.elim) (by
        rintro _ _ _ h ⟨⟩
        exact h)
    exact hsave
  · exact recovers_of_walks hversion hfits (Cursor.walks file) ⟨rfl, rfl, rfl⟩
  · rintro rfl hcursor
    have hlt := hfits.length_encodeTexture_lt header hfront
    rw [length_encodeTexture] at hlt
    obtain ⟨sink, hopen⟩ := StreamSink.exists_ofStream hf (by omega)
    have hholds := StreamSink.holds_of_ofStream hcursor hopen
    obtain ⟨sink', hsave, hholds'⟩ := exists_save_eq_encodeTexture
      (StreamSink.tracked stream.faults) hholds header hfits
      (fun _ _ h => by
        have := h.2 hf
        omega)
      (fun _ _ _ h hflush => (StreamSink.flush_ends h).of_ok hflush)
    exact ⟨sink, sink', hopen, hsave, hholds'.1⟩
  · intro hcontent hcursor
    have hlt := hfits.length_encodeTexture_lt header hfront
    rw [← List.length_append] at hlt
    obtain ⟨source, hopen, hstands⟩ :=
      StreamSource.exists_ofStream hf (by omega) (by rw [hcontent]; exact hlt)
    rw [hcontent, hcursor] at hstands
    exact ⟨source, hopen,
      recovers_of_walks hversion hfits (StreamSource.walks hf hlt) ⟨rfl, hstands⟩⟩

/-- An empty payload between two others, behind a byte that was there before. -/
theorem recovers_of_save_three_levels :
    let header : Header := { compression := .dxt5, hasMips := true, width := 2, height := 4 }
    let saved := header.describing 1 [[1, 2, 3], [], [9]]
    ∃ file, save [[1, 2, 3], [], [9]] (header, (⟨[7]⟩ : Buffer)) = .ok () (saved, ⟨file⟩) ∧
      (readTexture 1 [2, 1, 0, 2]).Ends (⟨{ data := file }, false⟩ : Reader Cursor)
        (fun found next => next.isOk ∧ found =
          (saved, [.ok [9], .error (.header (.emptyLevel 1)), .ok [1, 2, 3], .ok [9]]))
        (fun _ _ => False) := by
  intro header saved
  have hfits : Fits ([7] : Bytes).length [[1, 2, 3], [], [9]] := by decide
  obtain ⟨hsave, hrecovers, -⟩ :=
    recovers_of_save (show header.version = Version.v1_0.raw from rfl) hfits
  -- The bytes of the file do not matter; left in place, they would be computed.
  generalize ([7] : Bytes) ++ encodeTexture _ header _ = file at hsave hrecovers
  have hread := hrecovers [2, 1, 0, 2]
  have hlevels : [2, 1, 0, 2].map (levelOf [[1, 2, 3], [], [9]]) =
      [.ok [9], .error (.header (.emptyLevel 1)), .ok [1, 2, 3], .ok [9]] := by
    simp [levelOf]
  rw [hlevels, List.length_singleton] at hread
  exact ⟨file, hsave, hread.imp fun _ _ h => h.symm⟩

end Octet.Texture
