import Mathlib.Algebra.GroupWithZero.Nat
import Octet.Scalar
import Octet.Texture.Header

/-!
# The layout of texture files

A texture file as two passes would write it: the first lays the payloads out one after another
behind the header, the second writes the header with their places and then the payloads.

## Main definitions

* `Header.encode`: the header of a file, byte for byte.
* `extents`, `Header.describing`: the first pass.
* `encodeTexture`: both passes.
* `Fits`: every level has a slot, and every offset and length fits in 32 bits.

## Main statements

* `extents_append`: one more payload fills the next slot and leaves the others.
-/

namespace Octet.Texture

/-- The number of bytes in front of the payloads. -/
def headerSize : Nat := 142

namespace Header

/-- The signature `HTEX`, the version and the fields of fixed value. -/
def encodeFields (header : Header) : Bytes :=
  [0x48, 0x54, 0x45, 0x58] ++ Bytes.ofNat 4 header.version.toNat ++ [header.compression.code] ++
    [header.hasMips.toUInt8] ++ Bytes.ofNat 2 header.width.toNat ++
    Bytes.ofNat 2 header.height.toNat

/-- The offsets of all slots, then their lengths. -/
def encodeSlots (header : Header) : Bytes :=
  (header.offsets.toList ++ header.lengths.toList).flatMap fun n => Bytes.ofNat 4 n.toNat

def encode (header : Header) : Bytes := header.encodeFields ++ header.encodeSlots

/-- The header with all slots empty. -/
def cleared (header : Header) : Header :=
  { header with levels := Vector.replicate levelLimit {} }

@[simp, grind =] theorem length_encodeFields (header : Header) :
    header.encodeFields.length = 14 := by
  simp [encodeFields]

theorem encodeSlots_eq (header : Header) : header.encodeSlots =
    Scalar.u32.encodeList header.offsets.toList ++ Scalar.u32.encodeList header.lengths.toList :=
  List.flatMap_append

@[simp, grind =] theorem length_encodeSlots (header : Header) :
    header.encodeSlots.length = 128 := by
  rw [encodeSlots_eq, List.length_append, Scalar.length_encodeList, Scalar.length_encodeList,
    Vector.length_toList, Vector.length_toList]
  rfl

@[simp, grind =] theorem length_encode (header : Header) : header.encode.length = headerSize := by
  simp [encode, headerSize]

/-- What lies behind a header. -/
theorem drop_append_encode (front : Bytes) (header : Header) (rest : Bytes) (count : Nat) :
    (front ++ (header.encode ++ rest)).drop (front.length + headerSize + count) =
      rest.drop count := by
  rw [Nat.add_assoc, List.drop_length_add_append, ← header.length_encode,
    List.drop_length_add_append]

/-- A slot counts if it exists and its length is not zero. -/
theorem level?_eq_some {header : Header} {level : Nat} {extent : Extent} :
    header.level? level = some extent ↔
      ∃ h : level < levelLimit, header.levels[level] = extent ∧ extent.length ≠ 0 := by
  rw [level?, Option.filter_eq_some_iff, Vector.getElem?_eq_some_iff]
  simp

/-- A slot in use does not end where a file begins. -/
theorem stop_pos {header : Header} {level : Nat} {extent : Extent}
    (h : header.level? level = some extent) : 0 < extent.stop := by
  obtain ⟨-, -, hlength⟩ := level?_eq_some.mp h
  have hpos : extent.length.toNat ≠ 0 := fun hzero => hlength (UInt32.toNat_inj.mp hzero)
  unfold Extent.stop
  omega

theorem length_eq_zero_of_level?_eq_none {header : Header} {level : Nat}
    (h : header.level? level = none) (hlevel : level < levelLimit) :
    header.levels[level].length = 0 := by
  apply Decidable.byContradiction
  intro hne
  rw [level?_eq_some.mpr ⟨hlevel, rfl, hne⟩] at h
  cases h

/-- The fields one after another, as a writer is given them. -/
theorem encodeFields_eq (header : Header) : header.encodeFields =
    Scalar.u32.encode signature ++ Scalar.u32.encode header.version ++
      Scalar.u8.encode header.compression.code ++ Scalar.bool.encode header.hasMips ++
      Scalar.u16.encode header.width ++ Scalar.u16.encode header.height := by
  have hcode : Scalar.u8.encode header.compression.code = [header.compression.code] := by
    cases header.compression <;> rfl
  have hflag : Scalar.bool.encode header.hasMips = [header.hasMips.toUInt8] := by
    cases header.hasMips <;> rfl
  rw [hcode, hflag]
  rfl

end Header

/-! ## The first pass -/

/-- Where the payload of a level starts in a file behind `front` other bytes. -/
def levelOffset (front : Nat) (payloads : List Bytes) (level : Nat) : Nat :=
  front + headerSize + ((payloads.take level).map List.length).sum

/-- The slots of a file behind `front` other bytes. -/
def extents (front : Nat) (payloads : List Bytes) : Vector Extent levelLimit :=
  Vector.ofFn fun level =>
    match payloads[level.val]? with
    | some payload =>
      ⟨UInt32.ofNat (levelOffset front payloads level), UInt32.ofNat payload.length⟩
    | none => {}

/-- The header with the slots of a file behind `front` other bytes. -/
def Header.describing (front : Nat) (payloads : List Bytes) (header : Header) : Header :=
  { header with levels := extents front payloads }

@[simp] theorem Header.describing_version (front : Nat) (payloads : List Bytes) (header : Header) :
    (header.describing front payloads).version = header.version := by
  simp only [describing]

@[simp] theorem Header.encodeFields_describing (front : Nat) (payloads : List Bytes)
    (header : Header) :
    (header.describing front payloads).encodeFields = header.encodeFields := by
  simp only [encodeFields, describing]

/-- Every payload has a slot, and its offset and its length fit into it. -/
def Fits (front : Nat) (payloads : List Bytes) : Prop :=
  payloads.length ≤ levelLimit ∧ ∀ level payload, payloads[level]? = some payload →
    levelOffset front payloads level < UInt32.size ∧ payload.length < UInt32.size

instance (front : Nat) (payloads : List Bytes) : Decidable (Fits front payloads) :=
  decidable_of_iff (payloads.length ≤ levelLimit ∧ ∀ level (h : level < payloads.length),
      levelOffset front payloads level < UInt32.size ∧ payloads[level].length < UInt32.size) <|
    and_congr_right fun _ => by simp [List.getElem?_eq_some_iff]

@[simp] theorem extents_nil (front : Nat) : extents front [] = Vector.replicate levelLimit {} := by
  ext i hi
  simp [extents]

theorem levelOffset_append_left {front level : Nat} {payloads rest : List Bytes}
    (h : level ≤ payloads.length) :
    levelOffset front (payloads ++ rest) level = levelOffset front payloads level := by
  rw [levelOffset, List.take_append_of_le_length h, levelOffset]

@[simp, grind =] theorem levelOffset_length (front : Nat) (payloads : List Bytes) :
    levelOffset front payloads payloads.length = front + headerSize + payloads.flatten.length := by
  rw [levelOffset, List.take_length, List.length_flatten]

theorem levelOffset_succ (front : Nat) (payloads : List Bytes) (level : Nat) :
    levelOffset front payloads (level + 1) =
      levelOffset front payloads level + (payloads[level]?.getD []).length := by
  rw [levelOffset, levelOffset, List.take_add_one, List.map_append, List.sum_append,
    ← Nat.add_assoc]
  cases payloads[level]? <;> simp

theorem levelOffset_le_add (front : Nat) (payloads : List Bytes) (level count : Nat) :
    levelOffset front payloads level ≤ levelOffset front payloads (level + count) := by
  induction count with
  | zero => exact Nat.le_refl _
  | succ count ih =>
    rw [← Nat.add_assoc, levelOffset_succ]
    omega

/-- The payload of a level lies between those of the levels before and after it. -/
theorem exists_flatten_eq {payloads : List Bytes} {level : Nat} {payload : Bytes}
    (h : payloads[level]? = some payload) : ∃ before after,
      payloads.flatten = before ++ (payload ++ after) ∧
        ∀ front, levelOffset front payloads level = front + headerSize + before.length := by
  obtain ⟨hlevel, rfl⟩ := List.getElem?_eq_some_iff.mp h
  refine ⟨(payloads.take level).flatten, (payloads.drop (level + 1)).flatten, ?_, fun front => ?_⟩
  · rw [← List.flatten_cons, ← List.drop_eq_getElem_cons hlevel, ← List.flatten_append,
      List.take_append_drop]
  · rw [levelOffset, List.length_flatten]

theorem extents_append (front : Nat) (payloads : List Bytes) (payload : Bytes) :
    extents front (payloads ++ [payload]) =
      (extents front payloads).setIfInBounds payloads.length
        ⟨UInt32.ofNat (levelOffset front payloads payloads.length),
          UInt32.ofNat payload.length⟩ := by
  apply Vector.ext
  intro i hi
  rw [Vector.getElem_setIfInBounds]
  simp only [extents, Vector.getElem_ofFn]
  rcases Nat.lt_trichotomy i payloads.length with hlt | rfl | hgt
  · rw [if_neg (by omega), List.getElem?_append_left hlt,
      levelOffset_append_left (Nat.le_of_lt hlt)]
  · simp [levelOffset_append_left]
  · rw [if_neg (by omega), List.getElem?_eq_none (by grind),
      List.getElem?_eq_none (by omega)]

@[simp] theorem fits_nil (front : Nat) : Fits front [] := ⟨by simp, by simp⟩

theorem Fits.of_append {front : Nat} {payloads rest : List Bytes}
    (h : Fits front (payloads ++ rest)) : Fits front payloads := by
  obtain ⟨hcount, hlevel⟩ := h
  refine ⟨by rw [List.length_append] at hcount; omega, fun level payload hpayload => ?_⟩
  obtain ⟨hlt, -⟩ := List.getElem?_eq_some_iff.mp hpayload
  have := hlevel level payload (by rwa [List.getElem?_append_left hlt])
  rwa [levelOffset_append_left (Nat.le_of_lt hlt)] at this

@[simp] theorem fits_append_singleton {front : Nat} {payloads : List Bytes} {payload : Bytes} :
    Fits front (payloads ++ [payload]) ↔ Fits front payloads ∧ payloads.length < levelLimit ∧
      levelOffset front payloads payloads.length < UInt32.size ∧
      payload.length < UInt32.size := by
  have hlen : (payloads ++ [payload]).length = payloads.length + 1 := by simp
  constructor
  · intro h
    have hlast := h.2 payloads.length payload (by simp)
    rw [levelOffset_append_left (Nat.le_refl _)] at hlast
    have hcount : payloads.length + 1 ≤ levelLimit := hlen ▸ h.1
    exact ⟨h.of_append, hcount, hlast⟩
  · rintro ⟨hfits, hcount, hoffset, hlength⟩
    refine ⟨hlen ▸ Nat.succ_le_of_lt hcount, fun level found hfound => ?_⟩
    rcases Nat.lt_or_ge level payloads.length with hlt | hge
    · rw [List.getElem?_append_left hlt] at hfound
      rw [levelOffset_append_left (Nat.le_of_lt hlt)]
      exact hfits.2 level found hfound
    · obtain ⟨hlt, rfl⟩ := List.getElem?_eq_some_iff.mp hfound
      obtain rfl : level = payloads.length := by
        grind
      rw [levelOffset_append_left (Nat.le_refl _)]
      exact ⟨hoffset, by simpa using hlength⟩

/-- A file whose payloads fit is smaller than twice what 32 bits can count. -/
theorem Fits.length_lt {front : Nat} {payloads : List Bytes} (h : Fits front payloads)
    (hne : payloads ≠ []) : front + headerSize + payloads.flatten.length < 2 * UInt32.size := by
  rcases List.eq_nil_or_concat payloads with rfl | ⟨init, last, rfl⟩
  · exact absurd rfl hne
  · rw [List.concat_eq_append] at h ⊢
    obtain ⟨-, -, hoffset, hlength⟩ := fits_append_singleton.mp h
    rw [levelOffset_length] at hoffset
    grind

/-- The slots say exactly where the payloads lie, and those after the last payload are empty. -/
def Header.Locates (header : Header) (front : Nat) (payloads : List Bytes) : Prop :=
  ∀ level (h : level < levelLimit),
    match payloads[level]? with
    | some payload => header.levels[level].offset.toNat = levelOffset front payloads level ∧
        header.levels[level].length.toNat = payload.length
    | none => header.levels[level] = {}

theorem Fits.locates {front : Nat} {payloads : List Bytes} (h : Fits front payloads)
    (header : Header) : (header.describing front payloads).Locates front payloads := by
  intro level hlevel
  simp only [Header.describing, extents, Vector.getElem_ofFn]
  split
  next payload hpayload =>
    obtain ⟨hoffset, hlength⟩ := h.2 level payload hpayload
    exact ⟨UInt32.toNat_ofNat_of_lt hoffset, UInt32.toNat_ofNat_of_lt hlength⟩
  next => rfl

/-- A slot is in use just if its level has a payload that is not empty. -/
theorem Fits.level?_describing {front : Nat} {payloads : List Bytes} (h : Fits front payloads)
    (header : Header) (level : Nat) :
    match (header.describing front payloads).level? level with
    | none => payloads[level]?.getD [] = []
    | some extent => ∃ payload, payloads[level]? = some payload ∧ payload ≠ [] ∧
        extent.offset.toNat = levelOffset front payloads level ∧
        extent.length.toNat = payload.length := by
  have hlocates := h.locates header level
  cases hslot : (header.describing front payloads).level? level with
  | none =>
    cases hpayload : payloads[level]? with
    | none => rfl
    | some payload =>
      have hlevel : level < levelLimit :=
        Nat.lt_of_lt_of_le (List.getElem?_eq_some_iff.mp hpayload).1 h.1
      simp only [hpayload] at hlocates
      obtain ⟨-, hlength⟩ := hlocates hlevel
      rw [Header.length_eq_zero_of_level?_eq_none hslot hlevel, UInt32.toNat_zero] at hlength
      exact List.length_eq_zero_iff.mp hlength.symm
  | some extent =>
    obtain ⟨hlevel, rfl, hlength⟩ := Header.level?_eq_some.mp hslot
    have hlocated := hlocates hlevel
    split at hlocated
    next payload hpayload =>
      refine ⟨payload, hpayload, ?_, hlocated⟩
      rintro rfl
      exact hlength (UInt32.toNat_inj.mp hlocated.2)
    next => simp [hlocated] at hlength

/-! ## Both passes -/

/-- A texture file behind `front` other bytes. -/
def encodeTexture (front : Nat) (header : Header) (payloads : List Bytes) : Bytes :=
  (header.describing front payloads).encode ++ payloads.flatten

@[simp, grind =] theorem length_encodeTexture (front : Nat) (header : Header)
    (payloads : List Bytes) :
    (encodeTexture front header payloads).length = headerSize + payloads.flatten.length := by
  simp [encodeTexture]

end Octet.Texture
