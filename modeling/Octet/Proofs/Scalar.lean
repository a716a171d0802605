import Octet.Proofs.Bytes
import Octet.Scalar

/-!
# Scalars decoded

## Main definitions

* `Scalar.canonical`: bytes as they are written again once they were read.
* `Scalar.decodeAt`: the value at an offset.

## Main statements

* `Scalar.decode_encode`: decoding what was encoded gives the value back.
* `Scalar.decodeList_encodeList`: so it does for several values in a row.
* `Scalar.encode_decode`, `Scalar.encodeList_decodeList`: encoding what was decoded gives the bytes
  back, up to the bytes of flags.
-/

namespace Octet

namespace Scalar

theorem toBits_lt (t : Scalar) (value : t.Value) : t.toBits value < 256 ^ t.width := by
  cases t <;> simp only [toBits, width]
  case u8 => exact value.toNat_lt
  case i8 => exact value.toUInt8.toNat_lt
  case u16 => exact value.toNat_lt
  case i16 => exact value.toUInt16.toNat_lt
  case u32 => exact value.toNat_lt
  case i32 => exact value.toUInt32.toNat_lt
  case u64 => exact value.toNat_lt
  case i64 => exact value.toUInt64.toNat_lt
  case f32 => exact value.bits.toNat_lt
  case f64 => exact value.bits.toNat_lt
  case bool => cases value <;> decide

@[simp, grind =] theorem ofBits_toBits (t : Scalar) (value : t.Value) :
    t.ofBits (t.toBits value) = value := by
  cases t
  case bool => cases value <;> rfl
  all_goals simp [toBits, ofBits]

@[simp, grind =] theorem decode_encode (t : Scalar) (value : t.Value) :
    t.decode (t.encode value) = value := by
  simp [decode, encode, Nat.mod_eq_of_lt (t.toBits_lt value)]

@[simp, grind =] theorem decodeList_encodeList (t : Scalar) (values : List t.Value) :
    t.decodeList values.length (t.encodeList values) = values := by
  induction values with
  | nil => rfl
  | cons v rest ih =>
    have hlen := t.length_encode v
    simp only [encodeList, List.flatMap_cons, List.length_cons, decodeList] at *
    simp [List.take_left' hlen, List.drop_left' hlen, ih]

/-! ## Decoded and encoded again -/

/-- Flags have more patterns than values; every other kind has as many of the one as of the
other. -/
theorem toBits_ofBits {t : Scalar} (ht : t ≠ .bool) {n : Nat} (h : n < 256 ^ t.width) :
    t.toBits (t.ofBits n) = n := by
  cases t
  case bool => exact absurd rfl ht
  all_goals
    simp only [width] at h
    simp only [toBits, ofBits, UInt8.toUInt8_toInt8, UInt16.toUInt16_toInt16,
      UInt32.toUInt32_toInt32, UInt64.toUInt64_toInt64, UInt8.toNat_ofNat', UInt16.toNat_ofNat',
      UInt32.toNat_ofNat', UInt64.toNat_ofNat']
    omega

/-- Bytes as they are written again: every byte of a flag but zero becomes one. -/
def canonical (t : Scalar) (bytes : Bytes) : Bytes :=
  match t with
  | bool => bytes.map fun b => if b = 0 then 0 else 1
  | _ => bytes

theorem canonical_of_ne {t : Scalar} (ht : t ≠ .bool) (bytes : Bytes) :
    t.canonical bytes = bytes := by
  cases t
  case bool => exact absurd rfl ht
  all_goals rfl

@[simp, grind =] theorem canonical_append (t : Scalar) (front back : Bytes) :
    t.canonical (front ++ back) = t.canonical front ++ t.canonical back := by
  cases t
  case bool => exact List.map_append
  all_goals rfl

theorem decode_flag (b : UInt8) : decode bool [b] = (b != 0) := by
  have hzero : b.toNat = 0 ↔ b = 0 := UInt8.toNat_inj (b := 0)
  simp [decode, ofBits, Bytes.toNat, bne, BEq.beq, hzero]

theorem encode_decode (t : Scalar) {bytes : Bytes} (h : bytes.length = t.width) :
    t.encode (t.decode bytes) = t.canonical bytes := by
  by_cases ht : t = bool
  · subst ht
    obtain ⟨b, rfl⟩ := List.length_eq_one_iff.mp h
    rw [decode_flag]
    by_cases hb : b = 0
    · rw [hb]
      rfl
    · simp only [canonical, List.map_singleton, if_neg hb, bne_iff_ne.mpr hb]
      rfl
  · have hlt : bytes.toNat < 256 ^ t.width := h ▸ bytes.toNat_lt
    rw [encode, decode, toBits_ofBits ht hlt, ← h, Bytes.ofNat_toNat, canonical_of_ne ht]

theorem encodeList_decodeList (t : Scalar) {count : Nat} {bytes : Bytes}
    (h : bytes.length = count * t.width) :
    t.encodeList (t.decodeList count bytes) = t.canonical bytes := by
  induction count generalizing bytes with
  | zero =>
    rw [Nat.zero_mul] at h
    rw [List.length_eq_zero_iff.mp h]
    cases t <;> rfl
  | succ count ih =>
    rw [Nat.succ_mul] at h
    have hfirst : (bytes.take t.width).length = t.width := by grind
    have hrest : (bytes.drop t.width).length = count * t.width := by grind
    have hlist := ih hrest
    simp only [encodeList, decodeList, List.flatMap_cons] at hlist ⊢
    rw [encode_decode t hfirst, hlist, ← canonical_append, List.take_append_drop]

/-! ## Values at offsets -/

/-- The value that the bytes from an offset on spell. -/
def decodeAt (t : Scalar) (offset : Nat) (bytes : Bytes) : t.Value :=
  t.decode ((bytes.drop offset).take t.width)

variable {t : Scalar} {offset count i : Nat} {bytes : Bytes}

@[simp, grind =] theorem decodeAt_drop (start : Nat) :
    t.decodeAt offset (bytes.drop start) = t.decodeAt (start + offset) bytes := by
  rw [decodeAt, List.drop_drop, decodeAt]

/-- Bytes behind a value do not matter to it. -/
@[simp, grind =] theorem decodeAt_take (h : offset + t.width ≤ count) :
    t.decodeAt offset (bytes.take count) = t.decodeAt offset bytes := by
  have hwidth : min t.width (count - offset) = t.width := by omega
  rw [decodeAt, List.drop_take, List.take_take, hwidth, decodeAt]

@[simp, grind =] theorem decodeAt_append_left {front : Bytes} (h : offset + t.width ≤ front.length)
    (back : Bytes) : t.decodeAt offset (front ++ back) = t.decodeAt offset front := by
  rw [← decodeAt_take h, List.take_left]

@[simp] theorem decodeAt_append_right (front back : Bytes) :
    t.decodeAt (front.length + offset) (front ++ back) = t.decodeAt offset back := by
  rw [← decodeAt_drop, List.drop_left]

theorem getElem?_decodeList (hi : i < count) :
    (t.decodeList count bytes)[i]? = some (t.decodeAt (i * t.width) bytes) := by
  induction count generalizing i bytes with
  | zero => omega
  | succ count ih =>
    cases i with
    | zero => simp [decodeList, decodeAt]
    | succ i =>
      have hoffset : t.width + i * t.width = (i + 1) * t.width := by grind
      rw [decodeList, List.getElem?_cons_succ, ih (by omega), decodeAt_drop, hoffset]

/-- Bytes behind the values do not matter to them. -/
@[simp, grind =] theorem decodeList_take (t : Scalar) (count : Nat) (bytes : Bytes) :
    t.decodeList count (bytes.take (count * t.width)) = t.decodeList count bytes := by
  induction count generalizing bytes with
  | zero => rfl
  | succ count ih =>
    have hfirst : min t.width ((count + 1) * t.width) = t.width :=
      Nat.min_eq_left (Nat.le_mul_of_pos_left _ (Nat.succ_pos count))
    have hrest : (count + 1) * t.width - t.width = count * t.width := by grind
    rw [decodeList, decodeList, List.take_take, hfirst, List.drop_take, hrest, ih]

/-- The values of an array have a fixed distance from one another. -/
theorem getElem_eq_decodeAt {start : Nat} {values : Vector t.Value count}
    (h : values.toList = t.decodeList count ((bytes.drop start).take (count * t.width)))
    (hi : i < count) : values[i] = t.decodeAt (start + i * t.width) bytes := by
  have hvalue : values.toList[i]? = some (t.decodeAt (start + i * t.width) bytes) := by
    simp [h, getElem?_decodeList hi]
  simpa [hi] using hvalue

/-- The same, as all values of the array. -/
theorem toList_ofFn_decodeAt (t : Scalar) (start count : Nat) (bytes : Bytes) :
    (Vector.ofFn fun i : Fin count => t.decodeAt (start + i * t.width) bytes).toList =
      t.decodeList count ((bytes.drop start).take (count * t.width)) := by
  let values : Vector t.Value count :=
    ⟨(t.decodeList count ((bytes.drop start).take (count * t.width))).toArray, by simp⟩
  have hvalues : values =
      Vector.ofFn fun i : Fin count => t.decodeAt (start + i * t.width) bytes := by
    apply Vector.ext
    intro i hi
    rw [getElem_eq_decodeAt (show values.toList = _ from rfl) hi, Vector.getElem_ofFn]
  rw [← hvalues]
  rfl

/-- A value is written again as the bytes that it was read from. -/
theorem encode_decodeAt (t : Scalar) {offset : Nat} {bytes : Bytes}
    (h : offset + t.width ≤ bytes.length) :
    t.encode (t.decodeAt offset bytes) = t.canonical ((bytes.drop offset).take t.width) := by
  apply encode_decode
  grind

/-- A flag is set by any byte but zero. -/
theorem decodeAt_bool : bool.decodeAt offset bytes = (u8.decodeAt offset bytes != 0) := by
  simp only [decodeAt, width]
  cases bytes.drop offset with
  | nil => rfl
  | cons b rest =>
    rw [List.take_one, List.head?_cons, Option.toList_some, decode_flag]
    simp [decode, ofBits, Bytes.toNat]

end Scalar

end Octet
