import Octet.Proofs.Texture.Layout

/-!
# What a description says

The description of a header is made of words, each with a label before it and a mark behind it. No
word contains the first character of its mark, so that the words can be read back.

## Main definitions

* `Text.Ends`: a mark that cannot be missed behind a word.
* `Header.describeSlot`, `describeExtent`: the line of a slot, and that of a level.

## Main statements

* `Text.Ends.unique`: a word is told apart from what follows its mark.
* `Header.describe_inj`: headers with the same description differ in nothing but their versions.
-/

namespace Octet

/-! ## Words -/

namespace Text

variable {mark word word' rest rest' : String}

/-- The first character of a mark does not occur in the word before it. -/
def Ends (mark word : String) : Prop := ∃ c, mark.toList.head? = some c ∧ c ∉ word.toList

/-- A word is told apart from what follows its mark. -/
theorem Ends.unique (hword : Ends mark word) (hword' : Ends mark word')
    (h : word ++ (mark ++ rest) = word' ++ (mark ++ rest')) : word = word' ∧ rest = rest' := by
  obtain ⟨c, hmark, hc⟩ := hword
  obtain ⟨c', hmark', hc'⟩ := hword'
  obtain rfl := Option.some.inj (hmark.symm.trans hmark')
  obtain ⟨more, hmore⟩ := List.head?_eq_some_iff.mp hmark
  have hchars := congrArg String.toList h
  simp only [String.toList_append, hmore, List.cons_append] at hchars
  -- The longer one of two words would contain the mark behind the shorter one.
  obtain rfl : word = word' := by
    rw [← String.toList_inj]
    rcases List.append_eq_append_iff.mp hchars with
      ⟨_ | ⟨d, between⟩, hword, hrest⟩ | ⟨_ | ⟨d, between⟩, hword, hrest⟩
    · simpa using hword.symm
    · obtain rfl := (List.cons.inj hrest).1
      simp [hword] at hc'
    · simpa using hword
    · obtain rfl := (List.cons.inj hrest).1
      simp [hword] at hc
  rw [String.append_right_inj, String.append_right_inj] at h
  exact ⟨rfl, h⟩

/-- Any mark but a digit ends a number. -/
theorem ends_number {c : Char} (hmark : mark.toList.head? = some c) (hc : c.isDigit = false)
    (n : Nat) : Ends mark (toString n) := by
  refine ⟨c, hmark, fun hmem => ?_⟩
  rw [Nat.toString_eq_repr, Nat.toList_repr] at hmem
  have hdigit := Nat.isDigit_of_mem_toDigits (by decide) (by decide) hmem
  rw [hc] at hdigit
  cases hdigit

theorem ends_flag (flag : Bool) : Ends "\n" (toString flag) :=
  ⟨'\n', rfl, by cases flag <;> decide⟩

theorem flag_inj {flag flag' : Bool} (h : toString flag = toString flag') : flag = flag' := by
  revert h
  cases flag <;> cases flag' <;> decide

/-- No two numbers are written alike. -/
theorem number_inj {m n : Nat} (h : toString m = toString n) : m = n := by
  rw [Nat.toString_eq_repr, Nat.toString_eq_repr] at h
  have hdigits := congrArg String.toList h
  rw [Nat.toList_repr, Nat.toList_repr] at hdigits
  have hvalue := congrArg (Nat.ofDigitChars 10 · 0) hdigits
  simpa only [Nat.ofDigitChars_ten_toDigits] using hvalue

theorem number_unique {c : Char} (hmark : mark.toList.head? = some c) (hc : c.isDigit = false)
    {m n : Nat} (h : toString m ++ (mark ++ rest) = toString n ++ (mark ++ rest')) :
    m = n ∧ rest = rest' := by
  obtain ⟨hnumber, hrest⟩ := (ends_number hmark hc m).unique (ends_number hmark hc n) h
  exact ⟨number_inj hnumber, hrest⟩

end Text

namespace Texture

open Text

variable {rest rest' : String}

/-! ## Headers -/

/-- The numbers of an extent are all there is to it. -/
theorem Extent.ext_toNat {extent extent' : Extent}
    (hoffset : extent.offset.toNat = extent'.offset.toNat)
    (hlength : extent.length.toNat = extent'.length.toNat) : extent = extent' := by
  obtain ⟨offset, length⟩ := extent
  obtain ⟨offset', length'⟩ := extent'
  obtain rfl := UInt32.toNat_inj.mp hoffset
  obtain rfl := UInt32.toNat_inj.mp hlength
  rfl

theorem Compression.name_inj {c c' : Compression} (h : c.name = c'.name) : c = c' := by
  revert h
  cases c <;> cases c' <;> decide

theorem Compression.ends_name (c : Compression) : Ends "\n" c.name :=
  ⟨'\n', rfl, by cases c <;> decide⟩

namespace Header

/-- The line of a slot. -/
def describeSlot (slot : Extent × Nat) : String :=
  s!"\t#{slot.2}:\tOffset {slot.1.offset};\tLength: {slot.1.length}\n"

theorem describe_eq (header : Header) : header.describe =
    s!"Size: {header.width}x{header.height}\n" ++ s!"Has mip maps: {header.hasMips}\n" ++
      s!"Compression: {header.compression.name}\n" ++ "Mip map infos:\n" ++
      String.join (header.levels.toList.zipIdx.map describeSlot) := rfl

theorem describeSlot_unique {extent extent' : Extent} {index : Nat}
    (h : describeSlot (extent, index) ++ rest = describeSlot (extent', index) ++ rest') :
    extent = extent' ∧ rest = rest' := by
  simp only [describeSlot, String.append_assoc, String.append_right_inj] at h
  obtain ⟨hoffset, h⟩ := number_unique (c := ';') rfl rfl h
  obtain ⟨hlength, hrest⟩ := number_unique (c := '\n') rfl rfl h
  exact ⟨Extent.ext_toNat hoffset hlength, hrest⟩

theorem describeSlots_unique {slots slots' : List Extent} (hlen : slots.length = slots'.length)
    {index : Nat} (h : String.join ((slots.zipIdx index).map describeSlot) =
      String.join ((slots'.zipIdx index).map describeSlot)) : slots = slots' := by
  induction slots generalizing slots' index with
  | nil => exact (List.length_eq_zero_iff.mp hlen.symm).symm
  | cons extent slots ih =>
    obtain ⟨extent', slots', rfl⟩ := List.exists_cons_of_length_eq_add_one hlen.symm
    simp only [List.zipIdx_cons, List.map_cons, String.join_cons] at h
    obtain ⟨rfl, hrest⟩ := describeSlot_unique h
    rw [ih (Nat.succ.inj hlen) hrest]

/-- Headers have the same description just if they differ in nothing but their versions. -/
theorem describe_inj {header header' : Header} :
    header.describe = header'.describe ↔ { header with version := header'.version } = header' := by
  constructor
  · intro h
    simp only [describe_eq, String.append_assoc, String.append_right_inj] at h
    obtain ⟨hwidth, h⟩ := number_unique (c := 'x') rfl rfl h
    obtain ⟨hheight, h⟩ := number_unique (c := '\n') rfl rfl h
    rw [String.append_right_inj] at h
    obtain ⟨hflag, h⟩ := (ends_flag _).unique (ends_flag _) h
    rw [String.append_right_inj] at h
    obtain ⟨hname, h⟩ := (Compression.ends_name _).unique (Compression.ends_name _) h
    rw [String.append_right_inj] at h
    have hlevels := describeSlots_unique (by simp) h
    obtain ⟨version, compression, hasMips, width, height, levels⟩ := header
    obtain ⟨version', compression', hasMips', width', height', levels'⟩ := header'
    obtain rfl := UInt16.toNat_inj.mp hwidth
    obtain rfl := UInt16.toNat_inj.mp hheight
    obtain rfl := flag_inj hflag
    obtain rfl := Compression.name_inj hname
    obtain rfl := Vector.toList_inj.mp hlevels
    rfl
  · intro h
    rw [← h]
    rfl

end Header

/-! ## Levels -/

/-- Where a mip level lies, in words. -/
def describeExtent (level : Nat) (extent : Extent) : String :=
  s!"Mip #{level}: {extent.length} bytes at offset {extent.offset}\n"

theorem describeExtent_inj {level level' : Nat} {extent extent' : Extent} :
    describeExtent level extent = describeExtent level' extent' ↔
      level = level' ∧ extent = extent' := by
  constructor
  · intro h
    simp only [describeExtent, String.append_assoc, String.append_right_inj] at h
    obtain ⟨hlevel, h⟩ := number_unique (c := ':') rfl rfl h
    obtain ⟨hlength, h⟩ := number_unique (c := ' ') rfl rfl h
    have hoffset := number_inj ((String.append_left_inj _).mp h)
    exact ⟨hlevel, Extent.ext_toNat hoffset hlength⟩
  · rintro ⟨rfl, rfl⟩
    rfl

end Texture

end Octet
