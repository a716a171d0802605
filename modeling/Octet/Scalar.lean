import Octet.Bytes

/-!
# Scalars

The fixed-width values that travel between memory and bytes. Every scalar is written in
little-endian order.

## Main definitions

* `Scalar`: the eleven kinds of scalar, `Scalar.Value` the values of a kind.
* `Scalar.encode`, `Scalar.decode`: a value as `Scalar.width` bytes, and back.
-/

namespace Octet

/-- A single-precision number, given by its bit pattern. -/
structure Binary32 where
  bits : UInt32
  deriving DecidableEq, Repr

/-- A double-precision number, given by its bit pattern. -/
structure Binary64 where
  bits : UInt64
  deriving DecidableEq, Repr

/-- The kinds of fixed-width values. -/
inductive Scalar
  | u8 | i8 | u16 | i16 | u32 | i32 | u64 | i64 | f32 | f64 | bool
  deriving DecidableEq, Repr

namespace Scalar

/-- The values of a kind. Floating-point numbers are their bit patterns, so that every pattern
is a value of its own. -/
@[reducible] def Value : Scalar → Type
  | u8 => UInt8
  | i8 => Int8
  | u16 => UInt16
  | i16 => Int16
  | u32 => UInt32
  | i32 => Int32
  | u64 => UInt64
  | i64 => Int64
  | f32 => Binary32
  | f64 => Binary64
  | bool => Bool

/-- The number of bytes of an encoded value. -/
def width : Scalar → Nat
  | u8 | i8 | bool => 1
  | u16 | i16 => 2
  | u32 | i32 | f32 => 4
  | u64 | i64 | f64 => 8

/-- The width of the widest kind. -/
def maxWidth : Nat := 8

def name : Scalar → String
  | u8 => "u8"
  | i8 => "i8"
  | u16 => "u16"
  | i16 => "i16"
  | u32 => "u32"
  | i32 => "i32"
  | u64 => "u64"
  | i64 => "i64"
  | f32 => "f32"
  | f64 => "f64"
  | bool => "bool"

/-- The bit pattern of a value, as a number below `256 ^ width`. -/
def toBits : (t : Scalar) → t.Value → Nat
  | u8, v => v.toNat
  | i8, v => v.toUInt8.toNat
  | u16, v => v.toNat
  | i16, v => v.toUInt16.toNat
  | u32, v => v.toNat
  | i32, v => v.toUInt32.toNat
  | u64, v => v.toNat
  | i64, v => v.toUInt64.toNat
  | f32, v => v.bits.toNat
  | f64, v => v.bits.toNat
  | bool, v => v.toNat

/-- The value of a bit pattern. Every pattern but zero is true. -/
def ofBits : (t : Scalar) → Nat → t.Value
  | u8, n => UInt8.ofNat n
  | i8, n => (UInt8.ofNat n).toInt8
  | u16, n => UInt16.ofNat n
  | i16, n => (UInt16.ofNat n).toInt16
  | u32, n => UInt32.ofNat n
  | i32, n => (UInt32.ofNat n).toInt32
  | u64, n => UInt64.ofNat n
  | i64, n => (UInt64.ofNat n).toInt64
  | f32, n => ⟨UInt32.ofNat n⟩
  | f64, n => ⟨UInt64.ofNat n⟩
  | bool, n => n != 0

/-- The value that stands in a slot until a better one is known. -/
def zero (t : Scalar) : t.Value := t.ofBits 0

/-- The little-endian bytes of a value. -/
def encode (t : Scalar) (value : t.Value) : Bytes :=
  Bytes.ofNat t.width (t.toBits value)

/-- The value that little-endian bytes spell. -/
def decode (t : Scalar) (bytes : Bytes) : t.Value :=
  t.ofBits bytes.toNat

/-- The encodings of several values, one after another. -/
def encodeList (t : Scalar) (values : List t.Value) : Bytes :=
  values.flatMap t.encode

/-- The first `count` values that a byte string spells. -/
def decodeList (t : Scalar) : Nat → Bytes → List t.Value
  | 0, _ => []
  | count + 1, bytes =>
    t.decode (bytes.take t.width) :: t.decodeList count (bytes.drop t.width)

theorem width_pos (t : Scalar) : 0 < t.width := by cases t <;> decide

theorem width_le_maxWidth (t : Scalar) : t.width ≤ maxWidth := by cases t <;> decide

@[simp, grind =] theorem length_encode (t : Scalar) (value : t.Value) :
    (t.encode value).length = t.width := by
  simp [encode]

@[simp, grind =] theorem length_encodeList (t : Scalar) (values : List t.Value) :
    (t.encodeList values).length = values.length * t.width := by
  induction values with
  | nil => simp [encodeList]
  | cons v rest ih =>
    simp only [encodeList, List.flatMap_cons, List.length_append, length_encode,
      List.length_cons] at *
    grind

@[simp, grind =] theorem length_decodeList (t : Scalar) (count : Nat) (bytes : Bytes) :
    (t.decodeList count bytes).length = count := by
  induction count generalizing bytes with
  | zero => rfl
  | succ count ih => simp [decodeList, ih]

end Scalar

end Octet
