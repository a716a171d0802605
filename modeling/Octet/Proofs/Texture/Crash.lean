import Octet.Proofs.Sink.Stream
import Octet.Proofs.Texture.Load
import Octet.Proofs.Texture.Save

/-!
# Textures that were saved in part

Whatever call fails while a texture is saved to a stream, what the stream contains is safe to load.
The payloads are written before any slot is committed and the offsets before the lengths. A slot
whose length is torn is preceded by an exact offset, and the first bytes of a little-endian length
spell a length that is no larger.

## Main definitions

* `Header.torn`: a header of whose slots only the first bytes were committed.
* `Header.Within`: the slots in use describe first parts of the payloads.

## Main statements

* `Partial.exists_header`: if there is a whole header at all, its slots are within the payloads.
* `readLevels_of_save`: every level reads as empty or as a first part of its payload.
-/

namespace Octet.Texture

/-! ## Torn slots -/

/-- The header whose slots contain the first `k` bytes of those of `header`, and zeros. -/
def Header.torn (k : Nat) (header : Header) : Header :=
  { header with
    levels := header.levels.mapIdx fun level extent =>
      ⟨UInt32.ofNat (extent.offset.toNat % 256 ^ (k - 4 * level)),
        UInt32.ofNat (extent.length.toNat % 256 ^ (k - 4 * (level + levelLimit)))⟩ }

theorem toNat_torn (n : UInt32) (k : Nat) :
    (UInt32.ofNat (n.toNat % 256 ^ k)).toNat = n.toNat % 256 ^ k :=
  UInt32.toNat_ofNat_of_lt' (Nat.lt_of_le_of_lt (Nat.mod_le ..) n.toNat_lt)

theorem encode_torn (n : UInt32) (k : Nat) :
    Scalar.u32.encode (UInt32.ofNat (n.toNat % 256 ^ k)) =
      (Scalar.u32.encode n).take k ++ List.replicate (4 - k) 0 := by
  rw [Scalar.encode, Scalar.toBits, toNat_torn]
  exact Bytes.ofNat_mod ..

theorem encodeList_torn (values : List UInt32) (k : Nat) :
    Scalar.u32.encodeList (values.mapIdx fun i n =>
        UInt32.ofNat (n.toNat % 256 ^ (k - 4 * i))) =
      (Scalar.u32.encodeList values).take k ++ List.replicate (4 * values.length - k) 0 := by
  induction values generalizing k with
  | nil => simp [Scalar.encodeList]
  | cons n rest ih =>
    have hlen := Scalar.u32.length_encode n
    have hshift (i : Nat) : k - 4 * (i + 1) = k - 4 - 4 * i := by omega
    have hcons (m : UInt32) (ms : List UInt32) : Scalar.u32.encodeList (m :: ms) =
        Scalar.u32.encode m ++ Scalar.u32.encodeList ms := rfl
    rw [List.mapIdx_cons, hcons, hcons, List.take_append, hlen]
    simp only [hshift, ih, Nat.mul_zero, Nat.sub_zero, encode_torn, Scalar.width,
      List.length_cons]
    rcases Nat.le_total k 4 with hle | hge
    · have hzero : k - 4 = 0 := by omega
      have hcount : 4 * (rest.length + 1) - k = (4 - k) + 4 * rest.length := by omega
      simp [hzero, hcount]
    · have hzero : 4 - k = 0 := by omega
      have hcount : 4 * (rest.length + 1) - k = 4 * rest.length - (k - 4) := by omega
      simp [hzero, hcount]

theorem Header.encodeSlots_torn (header : Header) (k : Nat) : (header.torn k).encodeSlots =
    header.encodeSlots.take k ++ List.replicate (128 - k) 0 := by
  have hslots : (header.torn k).offsets.toList ++ (header.torn k).lengths.toList =
      (header.offsets.toList ++ header.lengths.toList).mapIdx fun i n =>
        UInt32.ofNat (n.toNat % 256 ^ (k - 4 * i)) := by
    rw [List.mapIdx_append]
    congr 1
    · apply List.ext_getElem <;> simp [offsets, torn]
    · apply List.ext_getElem <;> simp [lengths, torn, offsets]
  have hlen : (header.offsets.toList ++ header.lengths.toList).length = 32 := by
    rw [List.length_append, Vector.length_toList, Vector.length_toList]
    rfl
  have htorn := encodeList_torn (header.offsets.toList ++ header.lengths.toList) k
  rw [← hslots, hlen] at htorn
  exact htorn

@[simp] theorem Header.torn_zero (header : Header) : header.torn 0 = header.cleared := by
  rw [torn, cleared]
  congr 1
  ext level h
  simp [Nat.mod_one]

@[simp] theorem Header.encodeSlots_cleared (header : Header) :
    header.cleared.encodeSlots = List.replicate 128 0 := by
  rw [← torn_zero, encodeSlots_torn, List.take_zero, List.nil_append]

/-- A first part of the slots laid over the open ones makes them torn. -/
theorem overlay_take_encodeSlots (front : Bytes) (header : Header) (payloads : List Bytes)
    (k : Nat) :
    (front ++ (header.cleared.encode ++ payloads.flatten)).overlay (front.length + 14)
        ((header.describing front.length payloads).encodeSlots.take k) =
      front ++ (((header.describing front.length payloads).torn k).encode ++
        payloads.flatten) := by
  have hlen : ((header.describing front.length payloads).encodeSlots.take k).length =
      min k 128 := by
    simp
  have hle := Nat.le_trans (Nat.le_of_eq hlen) (Nat.min_le_right k 128)
  have hzeros : header.cleared.encodeSlots.drop (min k 128) = List.replicate (128 - k) 0 := by
    rw [Header.encodeSlots_cleared, List.drop_replicate]
    congr 1
    omega
  have hfields : ((header.describing front.length payloads).torn k).encodeFields =
      header.encodeFields := by
    rw [← header.encodeFields_describing front.length payloads]
    simp only [Header.encodeFields, Header.torn]
  rw [overlay_slots front header payloads.flatten hle, hlen, hzeros, ← Header.encodeSlots_torn,
    Header.encode, hfields]

/-! ## Slots within the payloads -/

variable {front size level j : Nat} {header : Header} {payloads : List Bytes} {content : Bytes}

/-- Every slot in use starts where the payload of its level does, and describes neither more than
that payload nor more than there is in a file. -/
def Header.Within (header : Header) (front : Nat) (payloads : List Bytes) (size : Nat) : Prop :=
  ∀ level extent, header.level? level = some extent → extent.stop ≤ size ∧
    ∃ payload, payloads[level]? = some payload ∧
      extent.offset.toNat = levelOffset front payloads level ∧
      extent.length.toNat ≤ payload.length

theorem Header.cleared_within (header : Header) : header.cleared.Within front payloads size := by
  intro level extent h
  obtain ⟨hlevel, rfl, hlength⟩ := level?_eq_some.mp h
  simp [cleared] at hlength

/-- A slot that is in use after a torn commit has an exact offset. -/
theorem Fits.torn_within (hfits : Fits front payloads) (header : Header) (k : Nat)
    (hsize : front + headerSize + payloads.flatten.length ≤ size) :
    ((header.describing front payloads).torn k).Within front payloads size := by
  intro level extent h
  obtain ⟨hlevel, rfl, hlength⟩ := Header.level?_eq_some.mp h
  have hlocates := hfits.locates header level hlevel
  simp only [Header.torn, Vector.getElem_mapIdx] at hlength ⊢
  generalize (header.describing front payloads).levels[level] = extent at hlocates hlength ⊢
  have hk : 4 * (level + levelLimit) < k := by
    apply Nat.lt_of_not_le
    intro hle
    simp [Nat.sub_eq_zero_of_le hle, Nat.mod_one] at hlength
  have hoffset : extent.offset.toNat % 256 ^ (k - 4 * level) = extent.offset.toNat := by
    have hpow : 256 ^ 4 ≤ 256 ^ (k - 4 * level) :=
      Nat.pow_le_pow_right (by decide) (by unfold levelLimit at hk; omega)
    exact Nat.mod_eq_of_lt (Nat.lt_of_lt_of_le extent.offset.toNat_lt hpow)
  have hle := Nat.mod_le extent.length.toNat (256 ^ (k - 4 * (level + levelLimit)))
  split at hlocates
  next payload hpayload =>
    obtain ⟨hstart, hlen⟩ := hlocates
    obtain ⟨before, after, hflatten, hbefore⟩ := exists_flatten_eq hpayload
    have hroom := congrArg List.length hflatten
    rw [List.length_append, List.length_append] at hroom
    simp only [Extent.stop, toNat_torn]
    rw [hoffset]
    refine ⟨?_, payload, hpayload, hstart, hlen ▸ hle⟩
    grind
  next =>
    obtain rfl : extent = {} := hlocates
    simp at hlength

/-- Where a slot in use points, a file has a first part of the payload. -/
theorem Header.Within.payloadIn {front content : Bytes} {found : Header}
    (h : found.Within front.length payloads content.length)
    (hcontent : content = front ++ (found.encode ++ payloads.flatten.take j)) (level : Nat) :
    found.payloadIn content level = .error (.header (.emptyLevel level)) ∨
      ∃ payload bytes, payloads[level]? = some payload ∧
        found.payloadIn content level = .ok bytes ∧ bytes <+: payload := by
  rw [Header.payloadIn]
  cases hlevel : found.level? level with
  | none => exact .inl rfl
  | some extent =>
    obtain ⟨hstop, payload, hpayload, hoffset, hlength⟩ := h level extent hlevel
    refine .inr ⟨payload, _, hpayload, if_pos hstop, ?_⟩
    obtain ⟨before, after, hflatten, hbefore⟩ := exists_flatten_eq hpayload
    have hdrop : content.drop extent.offset.toNat =
        (payload ++ after).take (j - before.length) := by
      rw [hcontent, hoffset, hbefore, Header.drop_append_encode, hflatten, List.drop_take,
        List.drop_left]
    rw [hdrop, List.take_take, List.take_append_of_le_length (by omega)]
    exact List.take_prefix ..

/-! ## Saving in part -/

/-- What a sink contains after a texture was saved in part is too short for a header, or it is a
header whose slots are within the payloads, and a first part of these. -/
theorem Partial.exists_header {front : Bytes} (h : Partial front header payloads content)
    (hlen : front.length + headerSize ≤ content.length) :
    ∃ (found : Header) (j : Nat), content = front ++ (found.encode ++ payloads.flatten.take j) ∧
      found.Within front.length payloads content.length := by
  cases h with
  | streamed k =>
    rw [List.length_append, List.length_take, List.length_append, Header.length_encode] at hlen
    refine ⟨header.cleared, k - headerSize, ?_, header.cleared_within⟩
    rw [List.take_append, Header.length_encode, List.take_of_length_le (by grind)]
  | committed hfits k =>
    refine ⟨(header.describing front.length payloads).torn k, payloads.flatten.length, ?_, ?_⟩
    · rw [overlay_take_encodeSlots, List.take_length]
    · apply hfits.torn_within
      grind

variable {stream : Stream} {sink sink' : StreamSink} {header' loaded : Header}
  {result : Except Error Unit}

/-- Whatever the result, a save through a stream leaves the file or a part of it. -/
theorem partial_of_save (hcursor : stream.cursor = stream.content.length)
    (hopen : StreamSink.ofStream stream = .ok sink)
    (hsave : (save payloads).attempt (header, sink) = .ok result (header', sink')) :
    Partial stream.content header payloads sink'.stream.content := by
  have hends : (save payloads).attempt.Ends (header, sink)
      (fun _ next => Partial stream.content header payloads next.2.stream.content)
      (fun _ _ => True) := by
    rw [Action.ends_attempt]
    apply (save_ends (StreamSink.tracked stream.faults)
      (StreamSink.holds_of_ofStream hcursor hopen) header payloads).mono
    · rintro _ ⟨_, next⟩ ⟨hfits, -, full, hfull, hflush⟩
      have hcontent := ((StreamSink.flush_ends hfull).of_ok hflush).1
      rw [hcontent, ← overlay_encodeSlots]
      have hpart : Partial stream.content header payloads _ := .committed hfits 128
      rwa [List.take_of_length_le (by simp)] at hpart
    · rintro _ ⟨_, next⟩ ⟨content, hpart, ⟨rfl, -⟩ | ⟨⟨rfl, -⟩, -⟩⟩
      · exact hpart
      · exact hpart
  exact hends.of_ok hsave

/-- Whatever becomes of a save to an empty stream, and however its calls were cut short, interrupted
or refused: if a header can be loaded from what the stream then contains, its slots in use lie
within the payloads and the file, and levels read in any order are each empty or a first part of
the payload that was given for the level. -/
theorem readLevels_of_save {σ : Type} [Source σ] {stands : σ → Nat → Prop} {r r' : Reader σ}
    (hcontent : stream.content = []) (hcursor : stream.cursor = 0)
    (hopen : StreamSink.ofStream stream = .ok sink)
    (hsave : (save payloads).attempt (header, sink) = .ok result (header', sink'))
    (hsource : Source.Walks sink'.stream.content stands) (hr : r.Stands stands 0)
    (hload : load r = .ok loaded r') :
    loaded.Within 0 payloads sink'.stream.content.length ∧
      (∀ levels, (readLevels loaded levels).Ends r'
        (fun outcomes next => next.isOk ∧
          outcomes = levels.map (loaded.payloadIn sink'.stream.content))
        (fun _ _ => False)) ∧
      ∀ level, loaded.payloadIn sink'.stream.content level =
          .error (.header (.emptyLevel level)) ∨
        ∃ payload bytes, payloads[level]? = some payload ∧
          loaded.payloadIn sink'.stream.content level = .ok bytes ∧ bytes <+: payload := by
  have hpart := partial_of_save (by rw [hcursor, hcontent]; rfl) hopen hsave
  rw [hcontent] at hpart
  have hlen := (load_ends_of_stands hsource hr).of_ok hload
  obtain ⟨found, j, hfound, hwithin⟩ := hpart.exists_header (by simpa using hlen)
  have hahead : r.Ahead sink'.stream.content stands 0
      (found.encode ++ payloads.flatten.take j) := ⟨hr, hfound⟩
  obtain ⟨rfl, hnext⟩ := (load_ends hsource found hahead).of_ok hload
  refine ⟨hwithin, fun levels => ?_, hwithin.payloadIn hfound⟩
  apply (readLevels_ends hsource hnext.1 loaded levels).imp
  rintro _ next ⟨rfl, q, hlast⟩
  exact ⟨by simp [Reader.isOk, hlast.1], rfl⟩

/-- One interruption, and a failure after the first byte of the length of the only payload. -/
def tearing : Faults where
  transfer
    | 3 => .interrupted
    | 26 => .upTo (some 1)
    | 27 => .fails "unplugged"
    | _ => .upTo none
  settled n := max n 4
  le_settled n := Nat.le_max_left ..
  transfer_settled n := by
    split
    · omega
    all_goals simp

/-- Of a length of 300 bytes, the first byte alone says 44. -/
theorem readLevels_of_save_torn_length :
    ∃ (sink sink' : StreamSink) (e : Error) (header' loaded : Header) (r' : Reader Cursor),
      StreamSink.ofStream { content := [], faults := tearing } = .ok sink ∧
      (save [List.replicate 300 7]).attempt ({}, sink) = .ok (.error e) (header', sink') ∧
      load (⟨{ data := sink'.stream.content }, false⟩ : Reader Cursor) = .ok loaded r' ∧
      (readLevels loaded [1, 0]).Ends r'
        (fun outcomes next => next.isOk ∧
          outcomes = [.error (.header (.emptyLevel 1)), .ok (List.replicate 44 7)])
        (fun _ _ => False) := by
  let sink : StreamSink := ⟨{ content := [], seeks := 1, faults := tearing }, 0⟩
  let found : Header := { levels := (Vector.replicate levelLimit {}).set 0 ⟨142, 44⟩ }
  let file := found.encode ++ List.replicate 300 7
  have hopen : StreamSink.ofStream { content := [], faults := tearing } = .ok sink := rfl
  have hleft : (match (save [List.replicate 300 7]).attempt (({} : Header), sink) with
      | .ok (.error _) (_, sink') => sink'.stream.content
      | _ => []) = file := by decide +kernel
  split at hleft
  next e header' sink' hsave =>
    have hwalks := Cursor.walks sink'.stream.content
    have hstands : (⟨{ data := sink'.stream.content }, false⟩ : Reader Cursor).Stands
        (Cursor.Stands sink'.stream.content) 0 := ⟨rfl, rfl, rfl⟩
    obtain ⟨loaded, r', hload, rfl, -⟩ :=
      (load_ends hwalks found ⟨hstands, hleft⟩).exists_ok fun _ _ h => h rfl
    obtain ⟨-, hlevels, -⟩ := readLevels_of_save rfl rfl hopen hsave hwalks hstands hload
    refine ⟨sink, sink', e, header', found, r', hopen, hsave, hload, ?_⟩
    apply (hlevels [1, 0]).imp
    rintro _ next ⟨hok, rfl⟩
    refine ⟨hok, ?_⟩
    have hfirst : found.level? 0 = some ⟨142, 44⟩ := by decide +kernel
    have hsecond : found.level? 1 = none := by decide +kernel
    have hbytes : (file.drop 142).take 44 = List.replicate 44 7 := by decide +kernel
    have hstop : 186 ≤ file.length := by decide +kernel
    rw [hleft]
    simp [Header.payloadIn, hfirst, hsecond, Extent.stop, hbytes, hstop]
  next => exact absurd hleft (by decide +kernel)

end Octet.Texture
