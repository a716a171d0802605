import Octet.Proofs.Sink.Buffer
import Octet.Proofs.Texture.Layout
import Octet.Texture.Save

/-!
# What saving a texture leaves in a sink

## Main definitions

* `Partial`: what a sink can contain when a texture was saved in part.

## Main statements

* `save_ends`: saving writes the file of two passes, or a part of it.
* `save_ends_unflushed`: a flush is asked for once the file is complete, and not before.
-/

namespace Octet.Texture

variable {σ : Type} {holds torn : σ → Bytes → Prop} {w : Writer σ} {front opened : Bytes}

theorem Header.encode_cleared (header : Header) : header.cleared.encode =
    header.encodeFields ++ Scalar.u32.encodeList (List.replicate levelLimit Scalar.u32.zero) ++
      Scalar.u32.encodeList (List.replicate levelLimit Scalar.u32.zero) := by
  have hslots : header.cleared.encodeSlots =
      Scalar.u32.encodeList (List.replicate levelLimit Scalar.u32.zero) ++
        Scalar.u32.encodeList (List.replicate levelLimit Scalar.u32.zero) := by
    have hzero : Scalar.u32.zero = 0 := by decide
    simp [encodeSlots_eq, cleared, offsets, lengths, hzero]
  rw [encode, hslots, List.append_assoc]
  rfl

/-- The payloads were appended behind `front` and an open header, unless the chain has failed
before; if not, they fit and the header says where they lie. -/
def Laid (holds torn : σ → Bytes → Prop) (front opened : Bytes) (base : Header)
    (payloads : List Bytes) (state : Header × Writer σ) : Prop :=
  state.2.Streamed holds torn front (opened ++ payloads.flatten) ∧
    (state.2.failed = false →
      Fits front.length payloads ∧ state.1 = base.describing front.length payloads)

/-- A first part of the file was written, by a chain that failed or because the payloads do not
fit. -/
def Cut (holds torn : σ → Bytes → Prop) (front opened : Bytes) (payloads : List Bytes)
    (sink : σ) : Prop :=
  ∃ k, torn sink (front ++ (opened ++ payloads.flatten).take k) ∨
    holds sink (front ++ (opened ++ payloads.flatten).take k) ∧ ¬ Fits front.length payloads

theorem Cut.append {payloads rest : List Bytes} {sink : σ}
    (h : Cut holds torn front opened payloads sink) :
    Cut holds torn front opened (payloads ++ rest) sink := by
  obtain ⟨k, h⟩ := h
  refine ⟨min k (opened ++ payloads.flatten).length, ?_⟩
  rw [List.flatten_append, ← List.append_assoc,
    List.take_append_of_le_length (Nat.min_le_right ..), ← List.take_eq_take_min]
  exact h.imp id fun ⟨hholds, hfits⟩ => ⟨hholds, fun hall => hfits hall.of_append⟩

variable {base : Header} {payloads : List Bytes} {state : Header × Writer σ}

/-- What a sink that held `front` can contain when saving a texture has been refused: a first part
of the file with all slots open, or all of it with a first part of the slots committed. -/
inductive Partial (front : Bytes) (header : Header) (payloads : List Bytes) : Bytes → Prop
  | streamed (k : Nat) : Partial front header payloads
      (front ++ (header.cleared.encode ++ payloads.flatten).take k)
  | committed (hfits : Fits front.length payloads) (k : Nat) : Partial front header payloads
      ((front ++ (header.cleared.encode ++ payloads.flatten)).overlay (front.length + 14)
        ((header.describing front.length payloads).encodeSlots.take k))

theorem Cut.exists_partial {header : Header} {sink : σ}
    (h : Cut holds torn front header.cleared.encode payloads sink) :
    ∃ content, Partial front header payloads content ∧
      (torn sink content ∨ holds sink content ∧ ¬ Fits front.length payloads) := by
  obtain ⟨k, h⟩ := h
  exact ⟨_, .streamed k, h⟩

variable [Sink σ]

/-! ## The open header -/

theorem Preamble.write_ends (hsink : Sink.Unflushed holds torn) (h : w.Holds holds front)
    (preamble : Preamble) :
    preamble.write.Ends w
      (fun _ next => next.Holds holds (front ++
        (Scalar.u32.encode preamble.signature ++ Scalar.u32.encode preamble.version)))
      (fun _ next => next.failed = true ∧ next.Streamed holds torn front
        (Scalar.u32.encode preamble.signature ++ Scalar.u32.encode preamble.version)) := by
  have hstreamed := (h.streamed.write hsink .u32 preamble.signature).write hsink .u32
    preamble.version
  rw [List.nil_append] at hstreamed
  rw [Preamble.write, Action.ends_bind, Action.ends_modify, Action.ends_bind, Action.ends_modify,
    Writer.finish_ends]
  split
  next hfailed => exact ⟨hfailed, hstreamed⟩
  next hfailed => exact hstreamed.holds_of_not_failed (by simpa using hfailed)

theorem Draft.start_ends (hsink : Sink.Unflushed holds torn) (h : w.Holds holds front)
    (header : Header) :
    (Draft.start header).Ends w
      (fun draft next => next.Holds holds (front ++ header.cleared.encode) ∧
        draft = ⟨⟨front.length + 14⟩, ⟨front.length + 78⟩⟩)
      (fun _ next => next.failed = true ∧
        next.Streamed holds torn front header.cleared.encode) := by
  rw [Draft.start]
  apply (Preamble.write_ends hsink h _).bind
  · intro _ next hnext
    have hpreamble : next.Streamed holds torn front _ := .inl hnext
    have hfields := (((hpreamble.write hsink .u8 header.compression.code).write hsink .bool
      header.hasMips).write hsink .u16 header.width).write hsink .u16 header.height
    rw [← header.encodeFields_eq] at hfields
    simp only [Action.ends_bind, Action.ends_modify, Action.ends_modifyGet, Writer.reserveArray,
      Writer.finish_ends, Action.ends_pure]
    generalize (((next.write .u8 header.compression.code).write .bool header.hasMips).write .u16
      header.width).write .u16 header.height = fields at hfields ⊢
    have hoffsets := hfields.writeList hsink .u32 (List.replicate levelLimit Scalar.u32.zero)
    have hlengths := hoffsets.writeList hsink .u32 (List.replicate levelLimit Scalar.u32.zero)
    rw [← Header.encode_cleared] at hlengths
    split
    next hfailed => exact ⟨hfailed, hlengths⟩
    next hok =>
      have hlast := eq_false_of_ne_true hok
      have hmiddle := Writer.failed_of_append hlast
      have hfirst := Writer.failed_of_append hmiddle
      refine ⟨hlengths.holds_of_not_failed hlast, ?_⟩
      rw [(hfields.holds_of_not_failed hfirst).position hsink,
        (hoffsets.holds_of_not_failed hmiddle).position hsink]
      simp [Scalar.width, levelLimit]
  · rintro _ next ⟨hfailed, hnext⟩
    refine ⟨hfailed, ?_⟩
    rw [Header.encode_cleared, Header.encodeFields_eq]
    simpa only [List.append_assoc] using hnext.extend hfailed _

/-! ## The payloads -/

/-- While the chain is unbroken, the position is the offset of the next level. -/
theorem Laid.position (hsink : Sink.Unflushed holds torn) (hopened : opened.length = headerSize)
    (h : Laid holds torn front opened base payloads state) (hw : state.2.failed = false) :
    state.2.position = levelOffset front.length payloads payloads.length := by
  simp [(h.1.holds_of_not_failed hw).position hsink, hopened, Nat.add_assoc]

/-- A level is only refused if the payloads with it do not fit. -/
theorem Laid.cut (hsink : Sink.Unflushed holds torn) (hopened : opened.length = headerSize)
    (h : Laid holds torn front opened base payloads state) {payload : Bytes}
    (hno : ¬ (state.2.position < UInt32.size ∧ payload.length < UInt32.size)) :
    Cut holds torn front opened (payloads ++ [payload]) state.2.sink := by
  cases hw : state.2.failed with
  | true =>
    obtain ⟨k, htorn⟩ := h.1.torn_of_failed hw
    exact Cut.append ⟨k, .inl htorn⟩
  | false =>
    refine ⟨(opened ++ payloads.flatten).length, .inr ⟨?_, fun hfits => hno ?_⟩⟩
    · rw [List.flatten_append, ← List.append_assoc, List.take_left]
      exact (h.1.holds_of_not_failed hw).2
    · rw [h.position hsink hopened hw]
      exact (fits_append_singleton.mp hfits).2.2

theorem appendLevel_ends (hsink : Sink.Unflushed holds torn) (hopened : opened.length = headerSize)
    (h : Laid holds torn front opened base payloads state) (hcount : payloads.length < levelLimit)
    (payload : Bytes) :
    (appendLevel payloads.length payload).Ends state
      (fun _ next => Laid holds torn front opened base (payloads ++ [payload]) next)
      (fun _ next => Cut holds torn front opened (payloads ++ [payload]) next.2.sink) := by
  have hflatten : opened ++ (payloads ++ [payload]).flatten =
      opened ++ payloads.flatten ++ payload := by simp
  rw [appendLevel, Action.ends_bind, Action.ends_get]
  dsimp only
  split
  next hoffset =>
    split
    next hlength =>
      refine ⟨hflatten ▸ h.1.append hsink payload, fun hnext => ?_⟩
      have hw := Writer.failed_of_append hnext
      have hposition := h.position hsink hopened hw
      obtain ⟨hfits, hheader⟩ := h.2 hw
      rw [hposition] at hoffset
      refine ⟨fits_append_singleton.mpr ⟨hfits, hcount, hoffset, hlength⟩, ?_⟩
      simp only [hheader, hposition, Header.describing, extents_append]
    next hlength => exact h.cut hsink hopened fun h => hlength h.2
  next hoffset => exact h.cut hsink hopened fun h => hoffset h.1

/-- The next level to be appended is the one after all payloads so far. -/
theorem appendLevels_ends (hsink : Sink.Unflushed holds torn) (hopened : opened.length = headerSize)
    (h : Laid holds torn front opened base payloads state) (rest : List Bytes)
    (hcount : payloads.length + rest.length ≤ levelLimit) :
    (appendLevels payloads.length rest).Ends state
      (fun _ next => Laid holds torn front opened base (payloads ++ rest) next)
      (fun _ next => Cut holds torn front opened (payloads ++ rest) next.2.sink) := by
  induction rest generalizing payloads state with
  | nil => simpa [appendLevels] using h
  | cons payload rest ih =>
    rw [List.length_cons] at hcount
    have hsplit : payloads ++ payload :: rest = (payloads ++ [payload]) ++ rest := by simp
    rw [appendLevels, Action.ends_bind, hsplit]
    apply (appendLevel_ends hsink hopened h (by omega) payload).mono
    · intro _ next hnext
      have := ih hnext (by grind)
      simpa using this
    · exact fun _ _ h => h.append

/-! ## The commits -/

/-- The offsets are committed before the lengths, which follow them in the file: what a torn commit
leaves is a first part of all slots. -/
theorem Draft.finish_ends (hsink : Sink.Unflushed holds torn) {content : Bytes} {start : Nat}
    (h : w.Holds holds content) (hle : start + headerSize ≤ content.length) (header : Header) :
    (Draft.finish ⟨⟨start + 14⟩, ⟨start + 78⟩⟩ header).Ends w
      (fun _ next => next.Holds holds (content.overlay (start + 14) header.encodeSlots))
      (fun _ next => ∃ k, torn next.sink
        (content.overlay (start + 14) (header.encodeSlots.take k))) := by
  have hoffsets : (Scalar.u32.encodeList header.offsets.toList).length = 64 := by
    rw [Scalar.length_encodeList, Vector.length_toList]
    rfl
  have hjoin (more : Bytes) : (content.overlay (start + 14)
      (Scalar.u32.encodeList header.offsets.toList)).overlay (start + 78) more =
      content.overlay (start + 14) (Scalar.u32.encodeList header.offsets.toList ++ more) := by
    rw [← Bytes.overlay_overlay, hoffsets]
  have hroom : start + 14 + levelLimit * Scalar.u32.width ≤ content.length := by
    simp only [headerSize, levelLimit, Scalar.width] at *
    omega
  rw [Draft.finish, Action.ends_bind, Header.encodeSlots_eq]
  apply (Writer.commitArray_ends (t := .u32) hsink h ⟨start + 14⟩ header.offsets hroom).mono
  · intro _ middle hmiddle
    apply (Writer.commitArray_ends (t := .u32) hsink hmiddle ⟨start + 78⟩ header.lengths _).bind
    · intro _ next hnext
      rw [Writer.finish_ends, if_neg (by simp [hnext.1])]
      rwa [← hjoin]
    · rintro _ next ⟨k, hnext⟩
      refine ⟨64 + k, ?_⟩
      rwa [← hoffsets, List.take_length_add_append, ← hjoin]
    · rw [Bytes.length_overlay]
      simp only [headerSize, levelLimit, Scalar.width] at *
      omega
  · rintro _ next ⟨k, hnext⟩
    refine ⟨min k 64, ?_⟩
    rwa [← hoffsets, List.take_append_of_le_length (Nat.min_le_right ..),
      ← List.take_eq_take_min]

/-! ## The whole file -/

/-- A first part of the slots laid over those of an open header. -/
theorem overlay_slots (front : Bytes) (header : Header) (rest : Bytes) {slots : Bytes}
    (h : slots.length ≤ 128) :
    (front ++ (header.cleared.encode ++ rest)).overlay (front.length + 14) slots =
      front ++ (header.encodeFields ++ (slots ++ header.cleared.encodeSlots.drop slots.length) ++
        rest) := by
  have hsplit : front ++ (header.cleared.encode ++ rest) =
      (front ++ header.encodeFields) ++ header.cleared.encodeSlots.take slots.length ++
        (header.cleared.encodeSlots.drop slots.length ++ rest) := by
    rw [List.append_assoc, ← List.append_assoc (List.take ..), List.take_append_drop]
    simp [Header.encode, Header.cleared, Header.encodeFields]
  have hlen : front.length + 14 = (front ++ header.encodeFields).length := by simp
  rw [hsplit, hlen, Bytes.overlay_append]
  · simp only [List.append_assoc]
  · grind

/-- All slots committed leave nothing of what held their places. -/
theorem overlay_all_slots (front : Bytes) (header : Header) (rest : Bytes) :
    (front ++ (header.cleared.encode ++ rest)).overlay (front.length + 14) header.encodeSlots =
      front ++ (header.encode ++ rest) := by
  rw [overlay_slots _ _ _ (by simp), List.drop_of_length_le (by simp), List.append_nil,
    Header.encode]

/-- They make the file of two passes. -/
theorem overlay_encodeSlots (front : Bytes) (header : Header) (payloads : List Bytes) :
    (front ++ (header.cleared.encode ++ payloads.flatten)).overlay (front.length + 14)
        (header.describing front.length payloads).encodeSlots =
      front ++ encodeTexture front.length header payloads := by
  have hcleared : header.cleared = (header.describing front.length payloads).cleared := by
    simp only [Header.cleared, Header.describing]
  rw [hcleared, overlay_all_slots, encodeTexture]

/-- A save that is refused has not come to its flush, or it is the flush that is refused. -/
theorem saveThrough_ends (hsink : Sink.Unflushed holds torn) (h : w.Holds holds front)
    (header : Header) (payloads : List Bytes) :
    (saveThrough payloads).Ends (header, w)
      (fun _ next => Fits front.length payloads ∧
        next.1 = header.describing front.length payloads ∧
        ∃ full, holds full (front ++ encodeTexture front.length header payloads) ∧
          Sink.flush full = .ok () next.2.sink)
      (fun e next => (∃ content, Partial front header payloads content ∧
          (torn next.2.sink content ∨ holds next.2.sink content ∧
            ¬ Fits front.length payloads)) ∨
        Fits front.length payloads ∧
          ∃ full, holds full (front ++ encodeTexture front.length header payloads) ∧
            Sink.flush full = .error e next.2.sink) := by
  rw [saveThrough]
  dsimp only
  split
  next hcount =>
    refine .inl ⟨_, .streamed 0, .inr ⟨by simpa using h.2, fun hfits => ?_⟩⟩
    exact Nat.not_lt.mpr hfits.1 hcount
  next hcount =>
    rw [Action.ends_bind, Action.ends_get, Action.ends_bind, Action.ends_onSnd]
    apply (Draft.start_ends hsink h header).mono
    · rintro draft opened ⟨hopened, rfl⟩
      have hlaid : Laid holds torn front header.cleared.encode header [] (header.cleared, opened) :=
        ⟨.inl (by simpa using hopened), fun _ => ⟨fits_nil _, by
          rw [Header.cleared, Header.describing, extents_nil]⟩⟩
      rw [Action.ends_bind, Action.ends_modify]
      apply (appendLevels_ends hsink header.cleared.length_encode hlaid payloads
        (by simpa using hcount)).bind
      · rintro _ ⟨described, written⟩ ⟨hstreamed, hdescribed⟩
        rw [List.nil_append] at hstreamed hdescribed
        rw [Action.ends_bind, Action.ends_onSnd, Writer.finish_ends]
        split
        next hfailed =>
          obtain ⟨k, htorn⟩ := hstreamed.torn_of_failed hfailed
          exact .inl ⟨_, .streamed k, .inl htorn⟩
        next hok =>
          have hwritten := eq_false_of_ne_true hok
          obtain ⟨hfits, rfl⟩ := hdescribed hwritten
          have hholds := hstreamed.holds_of_not_failed hwritten
          rw [Action.ends_bind, Action.ends_get, Action.ends_bind, Action.ends_onSnd]
          apply (Draft.finish_ends hsink hholds (by simp) _).mono
          · intro _ committed hcommitted
            rw [overlay_encodeSlots] at hcommitted
            rw [Action.ends_onSnd]
            apply hcommitted.flush_ends.mono
            · exact fun _ _ hflush => ⟨hfits, rfl, _, hcommitted.2, hflush⟩
            · exact fun _ _ hflush => .inr ⟨hfits, _, hcommitted.2, hflush⟩
          · rintro _ _ ⟨k, htorn⟩
            exact .inl ⟨_, .committed hfits k, .inl htorn⟩
      · exact fun _ _ hcut => .inl hcut.exists_partial
    · rintro _ _ ⟨hfailed, hstreamed⟩
      obtain ⟨k, htorn⟩ := (hstreamed.extend hfailed payloads.flatten).torn_of_failed hfailed
      exact .inl ⟨_, .streamed k, .inl htorn⟩

/-- Nothing is asked of a flush. -/
theorem save_ends_unflushed (hsink : Sink.Unflushed holds torn) {sink : σ} (h : holds sink front)
    (header : Header) (payloads : List Bytes) :
    (save payloads).Ends (header, sink)
      (fun _ next => Fits front.length payloads ∧
        next.1 = header.describing front.length payloads ∧
        ∃ full, holds full (front ++ encodeTexture front.length header payloads) ∧
          Sink.flush full = .ok () next.2)
      (fun e next => (∃ content, Partial front header payloads content ∧
          (torn next.2 content ∨ holds next.2 content ∧ ¬ Fits front.length payloads)) ∨
        Fits front.length payloads ∧
          ∃ full, holds full (front ++ encodeTexture front.length header payloads) ∧
            Sink.flush full = .error e next.2) :=
  Action.ends_on.mpr (saveThrough_ends hsink (w := ⟨sink, false⟩) ⟨rfl, h⟩ header payloads)

/-- A refusal of the last flush leaves the file complete. -/
theorem save_ends (hsink : Sink.Tracked holds torn) {sink : σ} (h : holds sink front)
    (header : Header) (payloads : List Bytes) :
    (save payloads).Ends (header, sink)
      (fun _ next => Fits front.length payloads ∧
        next.1 = header.describing front.length payloads ∧
        ∃ full, holds full (front ++ encodeTexture front.length header payloads) ∧
          Sink.flush full = .ok () next.2)
      (fun _ next => ∃ content, Partial front header payloads content ∧
        (torn next.2 content ∨ holds next.2 content ∧ ¬ Fits front.length payloads)) := by
  apply (save_ends_unflushed hsink.toUnflushed h header payloads).mono fun _ _ hsaved => hsaved
  rintro e next (hpart | ⟨hfits, full, hfull, hflush⟩)
  · exact hpart
  · refine ⟨_, .committed hfits 128, .inl ?_⟩
    rw [List.take_of_length_le (by simp), overlay_encodeSlots]
    exact (hsink.flush hfull).of_error hflush

theorem Partial.length_le {header : Header} {content : Bytes}
    (h : Partial front header payloads content) :
    content.length ≤ front.length + headerSize + payloads.flatten.length := by
  cases h with
  | streamed k =>
    grind
  | committed _ k =>
    rw [Bytes.length_overlay, List.length_take, List.length_append, List.length_append,
      Header.length_encode, Header.length_encodeSlots, headerSize]
    omega

/-- A save succeeds if the payloads fit and no call can fail before that much is written. -/
theorem exists_save_eq_ok (hsink : Sink.Tracked holds torn) {sink : σ} (h : holds sink front)
    (header : Header) (hfits : Fits front.length payloads)
    (htorn : ∀ s content, torn s content →
      front.length + headerSize + payloads.flatten.length < content.length) :
    ∃ next, save payloads (header, sink) = .ok () next := by
  have hfail {content : Bytes} {s : σ} (hpart : Partial front header payloads content)
      (hs : torn s content ∨ holds s content ∧ ¬ Fits front.length payloads) : False := by
    rcases hs with hs | ⟨-, hno⟩
    · exact Nat.not_lt.mpr hpart.length_le (htorn s content hs)
    · exact hno hfits
  obtain ⟨_, next, hnext, -⟩ := (save_ends hsink h header payloads).exists_ok
    fun _ _ ⟨_, hpart, hs⟩ => hfail hpart hs
  exact ⟨next, hnext⟩

/-- If moreover no flush that succeeds changes what a sink holds, the file is in the sink. -/
theorem exists_save_eq_encodeTexture (hsink : Sink.Tracked holds torn) {sink : σ}
    (h : holds sink front) (header : Header) (hfits : Fits front.length payloads)
    (htorn : ∀ s content, torn s content →
      front.length + headerSize + payloads.flatten.length < content.length)
    (hflush : ∀ s t content, holds s content → Sink.flush s = .ok () t → holds t content) :
    ∃ sink', save payloads (header, sink) =
        .ok () (header.describing front.length payloads, sink') ∧
      holds sink' (front ++ encodeTexture front.length header payloads) := by
  obtain ⟨⟨header', sink'⟩, hsave⟩ := exists_save_eq_ok hsink h header hfits htorn
  obtain ⟨-, rfl, full, hfull, hflushed⟩ := (save_ends hsink h header payloads).of_ok hsave
  exact ⟨sink', hsave, hflush _ _ _ hfull hflushed⟩

/-- On every honest sink a save that succeeds has written the file of two passes: the slots say
exactly where the payloads lie, the slots after them are empty, and all other fields are the
caller's. That file is what the last flush finds, so it is also what the sink holds afterwards
unless flushing takes bytes away. -/
theorem save_eq_encodeTexture {sink sink' : σ} {header header' : Header}
    (hsink : Sink.Honest holds) (h : holds sink front)
    (hsave : save payloads (header, sink) = .ok () (header', sink')) :
    payloads.length ≤ levelLimit ∧ header' = header.describing front.length payloads ∧
      header'.Locates front.length payloads ∧
      (∃ full, holds full (front ++ encodeTexture front.length header payloads) ∧
        Sink.flush full = .ok () sink') ∧
      ((∀ s t content, holds s content → Sink.flush s = .ok () t → holds t content) →
        holds sink' (front ++ encodeTexture front.length header payloads)) := by
  obtain ⟨hfits, hheader, full, hfull, hflush⟩ :=
    (save_ends hsink.tracked h header payloads).of_ok hsave
  refine ⟨hfits.1, hheader, ?_, ⟨full, hfull, hflush⟩, fun hkeeps => hkeeps _ _ _ hfull hflush⟩
  rw [show header' = _ from hheader]
  exact hfits.locates header

/-- A header of an unknown version with stale slots, and an empty payload between two others,
behind a byte that was there before. -/
theorem save_eq_encodeTexture_three_levels :
    let header : Header := { version := 0x0300, levels := Vector.replicate levelLimit ⟨5, 6⟩ }
    ∃ header' buffer',
      save [[1, 2, 3], [], [9]] (header, (⟨[7]⟩ : Buffer)) = .ok () (header', buffer') ∧
        header' = header.describing 1 [[1, 2, 3], [], [9]] ∧
        buffer'.content = [7] ++ encodeTexture 1 header [[1, 2, 3], [], [9]] := by
  intro header
  obtain ⟨⟨header', buffer'⟩, hsave⟩ := exists_save_eq_ok Buffer.tracked
    (show Buffer.Holds ⟨[7]⟩ [7] from rfl) header
    (show Fits 1 [[1, 2, 3], [], [9]] by decide) (fun _ _ h => h.elim)
  obtain ⟨-, hheader, -, -, hkeeps⟩ := save_eq_encodeTexture Buffer.tracked.honest rfl hsave
  refine ⟨header', buffer', hsave, hheader, hkeeps ?_⟩
  rintro _ _ _ h ⟨⟩
  exact h

end Octet.Texture
