/-!
# Byte strings

The contents of buffers, streams and messages, numbers in little-endian order, and the
replacement of a stretch of bytes in place.

## Main definitions

* `Bytes.ofNat`, `Bytes.toNat`: a number as a fixed count of bytes, and back.
* `Bytes.overlay`: a byte string with another one laid over it.

## Main statements

* `Bytes.overlay_eq_append`: laying bytes over the very end appends them.
-/

namespace Octet

/-- A finite string of bytes. -/
abbrev Bytes := List UInt8

namespace Bytes

/-! ## Little-endian numbers -/

/-- The `width` low bytes of a number, least significant first. -/
def ofNat : Nat → Nat → Bytes
  | 0, _ => []
  | width + 1, n => UInt8.ofNat n :: ofNat width (n / 256)

/-- The number that a byte string spells, least significant byte first. -/
def toNat : Bytes → Nat
  | [] => 0
  | b :: rest => b.toNat + 256 * toNat rest

@[simp, grind =] theorem length_ofNat (width n : Nat) : (ofNat width n).length = width := by
  induction width generalizing n with
  | zero => rfl
  | succ width ih => simp [ofNat, ih]

/-! ## Replacement in place -/

/-- `content` with `data` laid over the bytes from `offset` on. Where `content` stops short of
`offset`, zeros fill the gap. -/
def overlay (content : Bytes) (offset : Nat) (data : Bytes) : Bytes :=
  content.take offset ++ List.replicate (offset - content.length) 0 ++ data ++
    content.drop (offset + data.length)

@[grind =] theorem length_overlay (content : Bytes) (offset : Nat) (data : Bytes) :
    (content.overlay offset data).length = max content.length (offset + data.length) := by
  simp only [overlay, List.length_append, List.length_take, List.length_replicate,
    List.length_drop]
  omega

@[simp] theorem overlay_eq_append (content data : Bytes) :
    content.overlay content.length data = content ++ data := by
  simp [overlay]

end Bytes

end Octet
