import Octet.Proofs.Texture.RoundTrip

/-!
# Whole images

An image is a header with payloads for its levels. A client that reads a file from the start, first
the header and then each level in use, reads all of the file and nothing more: it stands at the end
afterwards. From a first part of the file it does not get that far.

## Main definitions

* `Image`: the image, `Image.file` its file and `Image.found` what there is to be found in that.
* `Image.read`: how an image is read.

## Main statements

* `Image.read_ends`: what becomes of reading any first part of a file, or of a longer stream.
-/

namespace Octet.Texture

/-- A header with payloads for its levels. -/
structure Image where
  header : Header
  payloads : List Bytes
  deriving DecidableEq, Repr

namespace Image

/-- All levels have slots that they fit in. -/
def Fits (image : Image) : Prop := Texture.Fits 0 image.payloads

instance (image : Image) : Decidable image.Fits := inferInstanceAs (Decidable (Texture.Fits 0 _))

/-- The header as saving the image leaves it. -/
def described (image : Image) : Header := image.header.describing 0 image.payloads

def file (image : Image) : Bytes := encodeTexture 0 image.header image.payloads

/-- The header that describes the file, and the payloads that are not empty. -/
def found (image : Image) : Image := ⟨image.described, image.payloads.filter (· ≠ [])⟩

@[simp, grind =] theorem length_file (image : Image) :
    image.file.length = headerSize + image.payloads.flatten.length :=
  length_encodeTexture ..

end Image

theorem take_drop_succ (payloads : List Bytes) (level count : Nat) :
    (payloads.drop level).take (count + 1) =
      payloads[level]?.toList ++ (payloads.drop (level + 1)).take count := by
  rw [List.drop_eq_getElem?_toList_append]
  cases hpayload : payloads[level]? with
  | none =>
    have hle := List.getElem?_eq_none_iff.mp hpayload
    rw [List.drop_of_length_le (Nat.le_succ_of_le hle)]
    simp
  | some payload => simp

variable {σ : Type} [Source σ]

/-- Reads the payloads of those levels whose slots are in use. -/
def readUsed (header : Header) : List Nat → Action (Reader σ) (List Bytes)
  | [] => pure []
  | level :: rest =>
    match header.level? level with
    | none => readUsed header rest
    | some _ => do
      let payload ← readLevel header level
      let payloads ← readUsed header rest
      return payload :: payloads

/-- Reads a header and all of its levels that are in use, in order. The first refusal ends it. -/
def Image.read : Action (Reader σ) Image := do
  let header ← load
  let payloads ← readUsed header (List.range levelLimit)
  return ⟨header, payloads⟩

variable {data rest : Bytes} {stands : σ → Nat → Prop} {r : Reader σ} {p : Nat}
  {payloads : List Bytes}

/-! ## Reading any bytes -/

theorem readUsed_ends_inside (hsource : Source.Walks data stands) (h : r.Stands stands p)
    (hp : 0 < p) (header : Header) (levels : List Nat) :
    (readUsed header levels).Ends r (fun _ next => ∃ q, 0 < q ∧ next.Stands stands q)
      (fun _ next => next.Inside stands) := by
  induction levels generalizing r p with
  | nil => exact ⟨p, hp, h⟩
  | cons level rest ih =>
    rw [readUsed]
    split
    next => exact ih h hp
    next =>
      apply (readLevel_ends hsource h header level).bind
      · rintro payload next ⟨-, extent, hslot, hnext⟩
        rw [Action.ends_bind]
        exact ih hnext (Header.stop_pos hslot)
      · exact fun _ _ h => h.2.inside

/-- Whatever the bytes are, an image is not read without a byte. -/
theorem Image.read_ends_inside (hsource : Source.Walks data stands) (h : r.Stands stands 0) :
    Image.read.Ends r (fun _ next => ∃ q, 0 < q ∧ next.Stands stands q)
      (fun _ next => next.Inside stands) := by
  rw [Image.read]
  refine (load_ends_inside hsource h).bind ?_ fun _ _ h => h
  intro header next hnext
  rw [Action.ends_bind]
  exact readUsed_ends_inside hsource hnext (by decide) header _

/-! ## Reading a file -/

section

variable (hsource : Source.Walks data stands) (hfits : Fits 0 payloads) (header : Header)
  (hpart : data <+: encodeTexture 0 header payloads ++ rest)

include hsource hfits hpart

/-- A level that is in use is read just if its payload has arrived whole. -/
theorem readLevel_ends_of_part (h : r.Stands stands p) {level : Nat} {payload : Bytes}
    (hpayload : payloads[level]? = some payload) (hne : payload ≠ []) :
    (readLevel (header.describing 0 payloads) level).Ends r
      (fun found next => found = payload ∧
        next.Stands stands (levelOffset 0 payloads (level + 1)))
      (fun _ next => data.length < levelOffset 0 payloads (level + 1) ∧
        next.Inside stands) := by
  have hslot := hfits.level?_describing header level
  cases hlevel : (header.describing 0 payloads).level? level with
  | none =>
    simp only [hlevel, hpayload, Option.getD_some] at hslot
    exact absurd hslot hne
  | some extent =>
    simp only [hlevel, hpayload, Option.some.injEq] at hslot
    obtain ⟨_, rfl, -, hoffset, hlength⟩ := hslot
    have hstop : extent.stop = levelOffset 0 payloads (level + 1) := by
      rw [Extent.stop, hoffset, hlength, levelOffset_succ, hpayload, Option.getD_some]
    apply (readLevel_ends hsource h _ level).mono
    · rintro found next ⟨hfound, _, hextent, hnext⟩
      obtain rfl := Option.some.inj (hlevel.symm.trans hextent)
      refine ⟨?_, hstop ▸ hnext⟩
      have hwhole := (show Fits ([] : Bytes).length payloads from hfits).payloadIn_eq header level
      simp only [levelOf, hpayload, Option.getD_some, if_neg hne, List.length_nil,
        List.nil_append] at hwhole
      have hstream := Header.payloadIn_of_part (List.prefix_append _ rest) hwhole
      rw [Header.payloadIn_of_part hpart hfound] at hstream
      exact Except.ok.inj hstream
    · rintro e next ⟨he, hnext⟩
      refine ⟨?_, hnext.inside⟩
      apply Nat.lt_of_not_le
      intro hle
      simp only [Header.payloadIn, hlevel, hstop, if_pos hle] at he
      cases he

/-- From where the payload of a level lies, all payloads of some more levels are read, or not all of
these have arrived. -/
theorem readUsed_ends_of_part {level : Nat} (count : Nat)
    (h : r.Stands stands (levelOffset 0 payloads level)) :
    (readUsed (header.describing 0 payloads) (List.range' level count)).Ends r
      (fun found next => found = ((payloads.drop level).take count).filter (· ≠ []) ∧
        next.Stands stands (levelOffset 0 payloads (level + count)))
      (fun _ next => data.length < levelOffset 0 payloads (level + count) ∧
        next.Inside stands) := by
  -- Used or not, behind a level the reader stands where the payload of the next one lies.
  induction count generalizing level r with
  | zero => exact ⟨by simp, h⟩
  | succ count ih =>
    have hslot := hfits.level?_describing header level
    have hcount : level + (count + 1) = level + 1 + count := by omega
    rw [List.range'_succ, readUsed, hcount, take_drop_succ, List.filter_append]
    cases hlevel : (header.describing 0 payloads).level? level with
    | none =>
      simp only [hlevel] at hslot
      have hnext : levelOffset 0 payloads (level + 1) = levelOffset 0 payloads level := by
        rw [levelOffset_succ, hslot]
        rfl
      have hnone : payloads[level]?.toList.filter (· ≠ []) = [] := by
        cases hpayload : payloads[level]? <;> simp_all
      rw [hnone, List.nil_append]
      exact ih (hnext ▸ h)
    | some extent =>
      simp only [hlevel] at hslot
      obtain ⟨payload, hpayload, hne, -⟩ := hslot
      have hsome : payloads[level]?.toList.filter (· ≠ []) = [payload] := by
        simp [hpayload, hne]
      rw [hsome]
      apply (readLevel_ends_of_part hsource hfits header hpart h hpayload hne).bind
      · rintro _ next ⟨rfl, hnext⟩
        refine (ih hnext).bind ?_ fun _ _ h => h
        rintro _ last ⟨rfl, hlast⟩
        exact ⟨rfl, hlast⟩
      · rintro _ next ⟨hlt, hinside⟩
        exact ⟨Nat.lt_of_lt_of_le hlt (levelOffset_le_add ..), hinside⟩

end

/-- A file is read whole, whatever follows it. If not all of it has arrived, reading is refused. -/
theorem Image.read_ends {image : Image} (hsource : Source.Walks data stands)
    (hversion : image.header.version = Version.v1_0.raw) (hfits : image.Fits)
    (hpart : data <+: image.file ++ rest) (h : r.Stands stands 0) :
    Image.read.Ends r
      (fun found next => found = image.found ∧ next.Stands stands image.file.length)
      (fun _ next => data.length < image.file.length ∧ next.Inside stands) := by
  have hlen := image.length_file
  rw [Image.read, Action.ends_bind]
  rcases Nat.lt_or_ge data.length headerSize with hlt | hge
  · apply (load_ends_inside hsource h).mono
    · intro _ next hnext
      have hle := hsource.le hnext.2
      omega
    · intro _ next hinside
      exact ⟨by omega, hinside⟩
  · obtain ⟨behind, hdata⟩ : image.described.encode <+: data := by
      apply List.prefix_of_prefix_length_le _ hpart (by simpa using hge)
      rw [file, encodeTexture, List.append_assoc]
      exact List.prefix_append ..
    have hahead : r.Ahead data stands 0 (image.described.encode ++ behind) := ⟨h, hdata.symm⟩
    have hcount : image.payloads.length ≤ levelLimit := hfits.1
    have hstop : levelOffset 0 image.payloads levelLimit = image.file.length := by
      rw [levelOffset, List.take_of_length_le hcount, hlen, List.length_flatten, Nat.zero_add]
    apply (load_ends hsource image.described hahead).mono
    · rintro _ next ⟨rfl, hnext⟩
      have hstart : next.Stands stands (levelOffset 0 image.payloads 0) := by
        simpa [levelOffset] using hnext.1
      rw [Action.ends_bind, List.range_eq_range']
      -- In place of the count, reading that many levels would be computed.
      generalize levelLimit = count at hcount hstop ⊢
      apply (readUsed_ends_of_part hsource hfits image.header hpart count hstart).mono
      · rintro _ last ⟨rfl, hlast⟩
        rw [Action.ends_pure, found, described, List.drop_zero, List.take_of_length_le hcount]
        rw [Nat.zero_add, hstop] at hlast
        exact ⟨rfl, hlast⟩
      · rintro _ last ⟨hlt, hinside⟩
        rw [Nat.zero_add, hstop] at hlt
        exact ⟨hlt, hinside⟩
    · rw [described, Header.describing_version]
      exact fun _ _ hno => absurd hversion hno

end Octet.Texture
