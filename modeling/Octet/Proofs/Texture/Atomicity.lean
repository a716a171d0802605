import Octet.Proofs.Reader.Row
import Octet.Proofs.Texture.Verdict

/-!
# Headers are loaded whole or not at all

A preamble or a header that is loaded in place of another one replaces it all at once, after the
last thing that can go wrong. What it replaces it by comes from the bytes that were read, except for
the version of a header, which the preamble has said before.

## Main definitions

* `Preamble.widths`, `Header.widths`: the reads of a preamble and of a header.

## Main statements

* `Preamble.read_ends_of_row`, `Header.read_ends_of_row`: what becomes of them on any source.
* `load_in_place`: a record is replaced by what was read, or stays as it was.
-/

namespace Octet.Texture

variable {σ : Type} [Source σ]

/-- The widths of the reads of a preamble. -/
def Preamble.widths : List Nat := [4, 4]

/-- The widths of the reads of a header: four fields and two arrays. -/
def Header.widths : List Nat := [1, 1, 2, 2, 64, 64]

/-- A preamble comes from eight bytes, unless these run out or their first half is not the
signature. -/
theorem Preamble.read_ends_of_row (current : Preamble) (r : Reader σ) :
    (Preamble.read current).Ends r
      (fun found next => ∃ image, r.Gathers widths image next ∧
        Scalar.u32.decodeAt 0 image = Texture.signature ∧
        found = ⟨Texture.signature, Scalar.u32.decodeAt 4 image⟩)
      (fun e next => r.Breaks widths e next ∨
        ∃ word, r.Gathers [4] word next ∧ Scalar.u32.decodeAt 0 word ≠ Texture.signature ∧
          e = .signature Texture.signature (Scalar.u32.decodeAt 0 word)) := by
  simp only [Preamble.read, Action.ends_bind, Action.ends_modifyGet, Reader.finish_ends]
  have hsignature := Reader.read_gathers_or_breaks .u32 0 r
  generalize r.read .u32 0 = first at hsignature
  obtain ⟨found, next⟩ := first
  dsimp only at hsignature ⊢
  split at hsignature
  next hfailed =>
    rw [if_pos hfailed]
    exact .inl (hsignature.append [4])
  next hok =>
    obtain ⟨word, hword, rfl⟩ := hsignature
    rw [if_neg hok]
    split
    next hfound =>
      simp only [Action.ends_bind, Action.ends_modifyGet, Reader.finish_ends]
      have hversion := Reader.read_gathers_or_breaks .u32 current.version next
      generalize next.read .u32 current.version = second at hversion
      obtain ⟨version, last⟩ := second
      dsimp only at hversion ⊢
      split at hversion
      next hfailed =>
        rw [if_pos hfailed]
        exact .inl (hword.breaks hversion)
      next hok =>
        obtain ⟨rest, hrest, rfl⟩ := hversion
        have hlen : word.length = 4 := hword.length_eq
        have hleft : Scalar.u32.decodeAt 0 (word ++ rest) = Scalar.u32.decodeAt 0 word :=
          Scalar.decodeAt_append_left (Nat.le_of_eq hlen.symm) rest
        have hright : Scalar.u32.decodeAt 4 (word ++ rest) = Scalar.u32.decodeAt 0 rest := by
          rw [← hlen, ← Nat.add_zero word.length]
          exact Scalar.decodeAt_append_right word rest
        rw [if_neg hok]
        refine ⟨word ++ rest, hword.append hrest, hleft.trans hfound, ?_⟩
        rw [hfound, hright]
    next hfound => exact .inr ⟨word, hword, hfound, rfl⟩

/-- The chain of reads that brings the fields of a header. -/
def Header.calls : List Reader.Call :=
  [.read .u8 0, .read .bool false, .read .u16 0, .read .u16 0,
    .readArray .u32 (Vector.replicate levelLimit 0),
    .readArray .u32 (Vector.replicate levelLimit 0)]

/-- A header comes from 134 bytes and the version that is known already, unless the bytes run out or
the first of them stands for no compression. -/
theorem Header.read_ends_of_row (current : Header) (r : Reader σ) :
    (Header.read current).Ends r
      (fun found next => ∃ image, r.Gathers widths image next ∧
        ¬ 3 < Scalar.u8.decodeAt 0 image ∧ found = .ofFields current.version image)
      (fun e next => r.Breaks widths e next ∨
        ∃ image, r.Gathers widths image next ∧ 3 < Scalar.u8.decodeAt 0 image ∧
          e = .header (.unknownCompression (Scalar.u8.decodeAt 0 image))) := by
  have hreads := Reader.performAll_gathers_or_breaks calls r
    (by simp [calls, Reader.Call.isRead])
  simp only [calls, Reader.performAll, Reader.perform] at hreads
  simp only [Header.read, Action.ends_bind, Action.ends_modifyGet, Reader.finish_ends]
  split at hreads
  next hfailed =>
    rw [if_pos hfailed]
    exact .inl hreads
  next hok =>
    obtain ⟨image, himage, hreplies⟩ := hreads
    simp only [Reader.decodeAll, Reader.Call.decode, Reader.Call.width, Scalar.width,
      List.drop_drop, List.cons.injEq, Reader.Reply.value.injEq, Reader.Reply.values.injEq,
      heq_eq_eq, true_and, and_true] at hreplies
    obtain ⟨hcode, hflag, hwidth, hheight, hoffsets, hlengths⟩ := hreplies
    replace hcode : _ = Scalar.u8.decodeAt 0 image := hcode
    rw [if_neg hok, hcode]
    by_cases hlt : 3 < Scalar.u8.decodeAt 0 image
    · rw [Compression.ofCode?_of_lt hlt]
      exact .inr ⟨image, himage, hlt, rfl⟩
    · rw [(Compression.ofCode?_of_not_lt hlt).1]
      refine ⟨image, himage, hlt, ?_⟩
      rw [Header.ofFields_eq hoffsets hlengths, hflag, hwidth, hheight]
      rfl

/-- On any source, from any state of the reader, and in place of any record: either loading is
refused and the record is the one that was there, or all of its bytes were read one after another on
an unbroken chain, and the record is what they say. Of what was there before, only the version of a
header stays. Loading is refused where a read brings too little, and else for the signature or the
compression. -/
theorem load_in_place (preamble : Preamble) (header : Header) (r : Reader σ) :
    Preamble.load.Ends (preamble, r)
        (fun _ (found, next) => ∃ image, image.length = 8 ∧ r.Gathers Preamble.widths image next ∧
          Scalar.u32.decodeAt 0 image = signature ∧
          found = ⟨signature, Scalar.u32.decodeAt 4 image⟩)
        (fun e (found, next) => found = preamble ∧
          (r.Breaks Preamble.widths e next ∨
            ∃ word, r.Gathers [4] word next ∧ Scalar.u32.decodeAt 0 word ≠ signature ∧
              e = .signature signature (Scalar.u32.decodeAt 0 word))) ∧
      Header.load.Ends (header, r)
        (fun _ (found, next) => ∃ image, image.length = 134 ∧ r.Gathers Header.widths image next ∧
          ¬ 3 < Scalar.u8.decodeAt 0 image ∧ found = .ofFields header.version image)
        (fun e (found, next) => found = header ∧
          (r.Breaks Header.widths e next ∨
            ∃ image, r.Gathers Header.widths image next ∧ 3 < Scalar.u8.decodeAt 0 image ∧
              e = .header (.unknownCompression (Scalar.u8.decodeAt 0 image)))) := by
  constructor
  · apply Action.ends_replace.mpr
    apply (Preamble.read_ends_of_row preamble r).mono
    · exact fun found next ⟨image, himage, h⟩ => ⟨image, himage.length_eq, himage, h⟩
    · exact fun e next h => ⟨rfl, h⟩
  · apply Action.ends_replace.mpr
    apply (Header.read_ends_of_row header r).mono
    · exact fun found next ⟨image, himage, h⟩ => ⟨image, himage.length_eq, himage, h⟩
    · exact fun e next h => ⟨rfl, h⟩

end Octet.Texture
