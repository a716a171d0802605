import Octet.Proofs.Texture.Save
import Octet.Proofs.Writer.Behind

/-!
# Drafts of headers

Between the start of a header and its finish, a client may build whatever it likes with handles of
its own. The header and the client do not get in each other's way: the slots are the only bytes that
the finish touches, and they lie in front of everything that the client has a handle for.

## Main statements

* `Draft.finish_run_start`: the header, with the slots as finished, then what the client built.
-/

namespace Octet.Texture

open Building

variable {α : Type} {front : Bytes} {w : Writer Buffer}

/-- A buffer takes any header. -/
@[simp] theorem Draft.start_eq_ok (front : Bytes) (header : Header) :
    Draft.start header (Writer.mk (⟨front⟩ : Buffer) false) =
      .ok ⟨⟨front.length + 14⟩, ⟨front.length + 78⟩⟩
        (Writer.mk ⟨front ++ header.cleared.encode⟩ false) := by
  have hfront : (Writer.mk (⟨front⟩ : Buffer) false).Holds Buffer.Holds front := ⟨rfl, rfl⟩
  obtain ⟨draft, ⟨⟨content⟩, failed⟩, hstart, ⟨rfl, hcontent⟩, rfl⟩ :=
    (Draft.start_ends Buffer.tracked.toUnflushed hfront header).exists_ok
      fun _ _ ⟨hfailed, hstreamed⟩ => (hstreamed.torn_of_failed hfailed).elim fun _ h => h
  obtain rfl : content = _ := hcontent
  exact hstart

/-- Whatever was built behind a header, the slots are put in their places. -/
theorem Draft.finish_eq_ok (header last : Header) (body : Bytes)
    (h : w.Holds Buffer.Holds (front ++ header.cleared.encode ++ body)) :
    Draft.finish ⟨⟨front.length + 14⟩, ⟨front.length + 78⟩⟩ last w =
      .ok () (Writer.mk ⟨front ++ (header.encodeFields ++ last.encodeSlots ++ body)⟩ false) := by
  have hroom : front.length + headerSize ≤ (front ++ header.cleared.encode ++ body).length := by
    simp only [List.length_append, Header.length_encode]
    omega
  obtain ⟨_, ⟨⟨content⟩, failed⟩, hfinish, rfl, hcontent⟩ :=
    (Draft.finish_ends Buffer.tracked.toUnflushed h hroom last).exists_ok fun _ _ ⟨_, h⟩ => h
  obtain rfl : content = _ := hcontent
  rw [hfinish, List.append_assoc front, overlay_slots _ _ _ (by simp),
    List.drop_of_length_le (by simp), List.append_nil]

/-- A header is started on a buffer, a client builds with handles that it obtains from then on, and
the header is finished. None of this fails. The header reads as it was started, with the slots as it
was finished. Behind it stands what the client's calls alone build behind anything of its length. -/
theorem Draft.finish_run_start (front : Bytes) (first : Header)
    (client : Client Call View Unit α) :
    ∃ draft opened, Draft.start first (Writer.mk (⟨front⟩ : Buffer) false) = .ok draft opened ∧
      let between := client.blind.run observe opened
      (Obtained [] between.events → ∃ body : Bytes,
        (∀ other : Bytes, other.length = front.length + headerSize →
          (client.blind.run observe (Writer.mk (⟨other⟩ : Buffer) false)).mapState
            (·.sink.content) = ⟨between.outcome, between.events, other ++ body⟩) ∧
        ∀ last : Header, draft.finish last between.state = .ok () (Writer.mk
          ⟨front ++ (first.encodeFields ++ Scalar.u32.encodeList last.offsets.toList ++
            Scalar.u32.encodeList last.lengths.toList ++ body)⟩ false)) := by
  refine ⟨_, _, Draft.start_eq_ok front first, ?_⟩
  intro between hobtained
  have hopened : (Writer.mk (⟨front ++ first.cleared.encode⟩ : Buffer) false).Holds Buffer.Holds
      (front ++ first.cleared.encode) := ⟨rfl, rfl⟩
  have hlength : (front ++ first.cleared.encode).length = front.length + headerSize := by simp
  -- Seen from the bytes, the client starts with no handle, right behind the header.
  obtain ⟨hseen, hbetween⟩ := run_eq Buffer.exact hopened client (Nat.le_refl _)
  obtain ⟨houtcome, hevents⟩ := Prod.mk.inj hseen
  rw [hevents, ← List.append_nil (front ++ first.cleared.encode)] at hobtained
  obtain ⟨alone, halone⟩ := run_behind client (by simp) hlength hobtained
  have hbuilt := halone _ hlength
  rw [List.append_nil] at hbuilt
  rw [hbuilt] at houtcome hevents hbetween
  refine ⟨alone.state, fun other hother => ?_, fun last => ?_⟩
  · have hother' := halone other hother
    rw [List.append_nil] at hother'
    have hholds : (Writer.mk (⟨other⟩ : Buffer) false).Holds Buffer.Holds other := ⟨rfl, rfl⟩
    obtain ⟨hseen, hlast⟩ := run_eq Buffer.exact hholds client (Nat.le_refl _)
    rw [hother'] at hseen hlast
    rw [houtcome, hevents]
    exact Answer.mapState_eq hseen hlast.2
  · have hfinish := Draft.finish_eq_ok first last alone.state hbetween
    rw [hfinish, Header.encodeSlots_eq]
    simp only [List.append_assoc]

/-- The client reserves a number, goes on behind it and corrects it. The slots of the first header
are stale, and the last header has other fields as well. -/
theorem Draft.finish_run_start_correcting :
    let client : Client Call View Unit Unit :=
      .call (.reserve .u16) fun view _ =>
        match view.reply with
        | .slot .u16 (some slot) =>
          .call (.append [8]) fun _ _ => .call (.commit slot 513) fun _ _ => .done ()
        | _ => .done ()
    let first : Header := { version := 0x0300, levels := Vector.replicate levelLimit ⟨5, 6⟩ }
    let last : Header := { width := 3, levels := Vector.replicate levelLimit ⟨513, 2⟩ }
    ∃ draft opened, Draft.start first (Writer.mk (⟨[7]⟩ : Buffer) false) = .ok draft opened ∧
      Obtained [] (client.blind.run observe opened).events ∧
      draft.finish last (client.blind.run observe opened).state = .ok () (Writer.mk
        ⟨[7] ++ (first.encodeFields ++ Scalar.u32.encodeList last.offsets.toList ++
          Scalar.u32.encodeList last.lengths.toList ++ [1, 2, 8])⟩ false) := by
  intro client first last
  obtain ⟨draft, opened, hstart, hrun⟩ := Draft.finish_run_start [7] first client
  obtain ⟨rfl, rfl⟩ := EStateM.Result.ok.inj (hstart.symm.trans (Draft.start_eq_ok [7] first))
  have hobtained (front : Bytes) :
      Obtained [] (client.blind.run observe (Writer.mk (⟨front⟩ : Buffer) false)).events :=
    ⟨by simp [Call.handle?], by simp [Call.handle?], by simp [Call.handle?, Reply.handle?],
      trivial⟩
  obtain ⟨body, halone, hfinish⟩ := hrun (hobtained _)
  have hother : (client.blind.run observe
      (Writer.mk (⟨List.replicate 143 0⟩ : Buffer) false)).state.sink.content =
        List.replicate 143 0 ++ [1, 2, 8] := by decide +kernel
  have hlength : (List.replicate 143 (0 : UInt8)).length = 1 + headerSize :=
    List.length_replicate.trans (by decide)
  have hbody := congrArg Answer.state (halone _ hlength)
  simp only [Answer.mapState, hother] at hbody
  obtain rfl : [1, 2, 8] = body := List.append_cancel_left hbody
  exact ⟨_, _, hstart, hobtained _, hfinish last⟩

end Octet.Texture
