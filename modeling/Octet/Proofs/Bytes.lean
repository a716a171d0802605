import Mathlib.Algebra.Group.Int.Defs
import Mathlib.Algebra.Group.Nat.Defs
import Octet.Bytes

/-!
# Numbers and pieces of byte strings

Little-endian numbers and their first bytes; bytes laid over the contents in one piece or in pieces
that follow one another, and over one part of a whole.

## Main statements

* `Bytes.toNat_ofNat`, `Bytes.ofNat_toNat`: the two codes are inverse up to the width.
* `Bytes.ofNat_mod`: the first bytes of a number, followed by zeros, are those of a remainder.
* `Bytes.take_drop_overlay`, `Bytes.getElem?_overlay`: the bytes stand where they were laid, and the
  others are as they were.
* `Bytes.overlay_append`: the bytes of one part of a whole are replaced by as many others.
* `Bytes.overlay_overlay`: two pieces laid over adjoining stretches act as one.
-/

namespace Octet

namespace Bytes

/-! ## Little-endian numbers -/

@[simp, grind =] theorem toNat_ofNat (width n : Nat) : toNat (ofNat width n) = n % 256 ^ width := by
  induction width generalizing n with
  | zero => simp [ofNat, toNat, Nat.mod_one]
  | succ width ih =>
    rw [ofNat, toNat, ih, Nat.pow_succ, Nat.mul_comm (256 ^ width), Nat.mod_mul]
    simp

@[simp, grind =] theorem ofNat_toNat (bytes : Bytes) :
    ofNat bytes.length (toNat bytes) = bytes := by
  induction bytes with
  | nil => rfl
  | cons b rest ih =>
    have hb := b.toNat_lt
    have hdiv : (b.toNat + 256 * toNat rest) / 256 = toNat rest := by omega
    have hlow : UInt8.ofNat (b.toNat + 256 * toNat rest) = b := by
      apply UInt8.toNat_inj.mp
      simp only [UInt8.toNat_ofNat']
      omega
    simp [ofNat, toNat, hdiv, hlow, ih]

theorem toNat_lt (bytes : Bytes) : toNat bytes < 256 ^ bytes.length := by
  induction bytes with
  | nil => simp [toNat]
  | cons b rest ih =>
    have hb := b.toNat_lt
    rw [toNat, List.length_cons, Nat.pow_succ]
    omega

theorem ofNat_mod (width k n : Nat) :
    ofNat width (n % 256 ^ k) = (ofNat width n).take k ++ List.replicate (width - k) 0 := by
  induction width generalizing k n with
  | zero => simp [ofNat]
  | succ width ih =>
    cases k with
    | zero =>
      have hrest := ih 0 0
      simp only [Nat.zero_mod, List.take_zero, List.nil_append, Nat.sub_zero] at hrest
      simp [ofNat, Nat.mod_one, hrest, List.replicate_succ]
    | succ k =>
      have hlow : UInt8.ofNat (n % 256 ^ (k + 1)) = UInt8.ofNat n := by
        apply UInt8.toNat_inj.mp
        simp only [UInt8.toNat_ofNat']
        exact Nat.mod_mod_of_dvd n (Nat.pow_dvd_pow 256 (Nat.le_add_left 1 k))
      have hhigh : n % 256 ^ (k + 1) / 256 = n / 256 % 256 ^ k := by
        rw [Nat.pow_succ, Nat.mul_comm, Nat.mod_mul_right_div_self]
      rw [ofNat, ofNat, hlow, hhigh, ih, List.take_succ_cons, Nat.add_sub_add_right]
      rfl

/-! ## Replacement in place -/

variable {content data : Bytes} {offset : Nat}

theorem overlay_of_le (h : offset ≤ content.length) :
    content.overlay offset data =
      content.take offset ++ data ++ content.drop (offset + data.length) := by
  have hgap : offset - content.length = 0 := by omega
  simp [overlay, hgap]

@[simp] theorem length_overlay_of_le (h : offset + data.length ≤ content.length) :
    (content.overlay offset data).length = content.length := by
  grind

@[simp] theorem overlay_nil (h : offset ≤ content.length) :
    content.overlay offset [] = content := by
  rw [overlay_of_le h]
  simp

theorem overlay_append (front old back : Bytes) {new : Bytes} (h : new.length = old.length) :
    (front ++ old ++ back).overlay front.length new = front ++ new ++ back := by
  rw [overlay_of_le (by simp), h]
  congr 1
  · simp
  · rw [← List.length_append, List.drop_left]

/-- One of several pieces in a row is replaced. -/
theorem overlay_flatten (front : Bytes) {pieces : List Bytes} {i : Nat} {old new : Bytes}
    (hold : pieces[i]? = some old) (hlen : new.length = old.length) :
    (front ++ pieces.flatten).overlay (front.length + (pieces.take i).flatten.length) new =
      front ++ (pieces.set i new).flatten := by
  obtain ⟨hi, rfl⟩ := List.getElem?_eq_some_iff.mp hold
  have hpieces : pieces.flatten =
      (pieces.take i).flatten ++ (pieces[i] ++ (pieces.drop (i + 1)).flatten) := by
    rw [← List.flatten_cons, ← List.drop_eq_getElem_cons hi, ← List.flatten_append,
      List.take_append_drop]
  have hsplit : front ++ pieces.flatten =
      (front ++ (pieces.take i).flatten) ++ pieces[i] ++ (pieces.drop (i + 1)).flatten := by
    simp only [hpieces, List.append_assoc]
  rw [hsplit, ← List.length_append, overlay_append _ _ _ hlen, List.set_eq_take_append_cons_drop,
    if_pos hi]
  simp

/-- What stands before bytes that were laid over the contents, a gap having been filled. -/
@[simp] theorem length_overlay_front (content : Bytes) (offset : Nat) :
    (content.take offset ++ List.replicate (offset - content.length) 0).length = offset := by
  grind

/-- The bytes stand where they were laid. -/
@[simp] theorem take_drop_overlay (content : Bytes) (offset : Nat) (data : Bytes) :
    ((content.overlay offset data).drop offset).take data.length = data := by
  rw [overlay, List.append_assoc _ data, List.drop_left' (length_overlay_front content offset),
    List.take_left]

/-- No other byte changes. -/
theorem getElem?_overlay (h : offset + data.length ≤ content.length) {i : Nat}
    (hi : i < offset ∨ offset + data.length ≤ i) :
    (content.overlay offset data)[i]? = content[i]? := by
  rw [overlay_of_le (by omega)]
  rcases hi with hi | hi
  · grind
  · rw [List.getElem?_append_right (by grind),
      List.getElem?_drop]
    congr 1
    grind

@[simp] theorem overlay_overlay {first second : Bytes} :
    (content.overlay offset first).overlay (offset + first.length) second =
      content.overlay offset (first ++ second) := by
  have hlen : offset + first.length ≤ (content.overlay offset first).length := by grind
  have htake : (content.overlay offset first).take (offset + first.length) =
      content.take offset ++ List.replicate (offset - content.length) 0 ++ first := by
    rw [overlay, List.take_left' (by grind)]
  have hdrop : (content.overlay offset first).drop (offset + first.length + second.length) =
      content.drop (offset + (first ++ second).length) := by
    rw [← List.drop_drop, overlay, List.drop_left' (by grind),
      List.drop_drop, List.length_append, Nat.add_assoc]
  rw [overlay_of_le hlen, htake, hdrop, overlay, List.append_assoc _ first]

/-- What stands in front of the contents shifts the offset. -/
@[simp] theorem append_overlay (front content : Bytes) (offset : Nat) (data : Bytes) :
    (front ++ content).overlay (front.length + offset) data =
      front ++ content.overlay offset data := by
  have hgap : front.length + offset - (front.length + content.length) =
      offset - content.length := by omega
  simp only [overlay, List.length_append, hgap, List.take_length_add_append, Nat.add_assoc,
    List.drop_length_add_append, List.append_assoc]

end Bytes

end Octet
