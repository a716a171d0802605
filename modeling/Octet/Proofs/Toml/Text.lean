import Octet.Toml.Text

/-!
# Strings are read as they were written

Every string comes back from its written form, whichever of the four forms that is. Only a quote
right behind it could be taken for a part of it.

## Main definitions

* `Written`: the ways in which a character stands between double quotes.
* `TripleQuoted`: how a reader takes the quotes of a text that three quotes close.
* `Unquoted`: a text that no quote begins.

## Main statements

* `basic_escapeAll`, `literal_append`, `multilineBasic_escapeAll`, `multilineLiteral_append`: the
  four forms.
* `string_printString`: every string.
-/

namespace Octet.Toml

variable {c : Char} {s rest w : List Char} {multiline : Bool}

@[simp]
theorem push?_some (c : Char) (s rest : List Char) :
    push? (some c) (some (s, rest)) = some (c :: s, rest) := rfl

/-! ## Characters between double quotes -/

/-- The ways in which a character stands between double quotes. -/
inductive Written (multiline : Bool) (c : Char) : List Char → Prop
  | lineFeed (hmultiline : multiline = true) (hc : c = '\n') : Written multiline c ['\n']
  | plain (hplain : isPlain c = true) (hc : c ≠ '\\') : Written multiline c [c]
  | letter {a : Char} (ha : escaped? a = some c) : Written multiline c ['\\', a]
  | number {digits : List Char} (hlen : digits.length = 4) (hdigits : numbered? digits = some c) :
    Written multiline c ('\\' :: 'u' :: digits)

theorem toNat_lt_of_not_isPlain (h : isPlain c = false) : c.toNat < 128 := by
  simp only [isPlain, Bool.or_eq_false_iff, decide_eq_false_iff_not, Char.not_lt] at h
  have hle : c.toNat ≤ '\x7f'.toNat := h.2
  grind

theorem isPlain_of_isControl (h : isControl c = false) (hc : c ≠ '\n') : isPlain c = true := by
  simpa [isControl, hc] using h

/-- The number of a control character is read back. -/
theorem escapeDigits_spec (h : isPlain c = false) :
    (escapeDigits c).length = 4 ∧ numbered? (escapeDigits c) = some c := by
  have hall : ∀ n < 128, (escapeDigits (Char.ofNat n)).length = 4 ∧
      numbered? (escapeDigits (Char.ofNat n)) = some (Char.ofNat n) := by decide +kernel
  simpa only [Char.ofNat_toNat] using hall c.toNat (toNat_lt_of_not_isPlain h)

theorem written_escape (multiline : Bool) (c : Char) :
    Written multiline c (escape multiline c) := by
  unfold escape
  split
  next hc =>
    subst hc
    cases multiline
    · exact .letter rfl
    · exact .lineFeed rfl rfl
  iterate 4
    split
    next hc => exact .letter (congrArg some hc.symm)
  split
  next hc => exact .letter (congrArg some hc.symm)
  next hc =>
    split
    next hplain => exact .plain hplain hc
    next hplain =>
      obtain ⟨hlen, hdigits⟩ := escapeDigits_spec (Bool.eq_false_iff.mpr hplain)
      exact .number hlen hdigits

/-- Only a double quote is written with one in front, and only a line feed as one. -/
theorem Written.exists_cons (h : Written multiline c w) :
    ∃ first more, w = first :: more ∧ (c ≠ '"' → first ≠ '"') ∧
      (c ≠ '\n' → isPlain first = true) := by
  cases h with
  | lineFeed hmultiline hc => exact ⟨_, _, rfl, fun _ => by decide, fun hne => absurd hc hne⟩
  | plain hplain => exact ⟨_, _, rfl, id, fun _ => hplain⟩
  | letter => exact ⟨_, _, rfl, fun _ => by decide, fun _ => rfl⟩
  | number => exact ⟨_, _, rfl, fun _ => by decide, fun _ => rfl⟩

/-- The first character of a text that is not empty. A quote stands there only if one may. -/
theorem exists_escapeAll_eq_cons (multiline : Bool) (run : Nat) (c : Char) (s : List Char) :
    ∃ first more, escapeAll multiline run (c :: s) = first :: more ∧
      ((c = '"' → (multiline && run < 2) = false) → first ≠ '"') ∧
      (c ≠ '\n' → isPlain first = true) := by
  rw [escapeAll]
  split
  next hc =>
    split
    next hrun =>
      exact ⟨_, _, rfl, fun h => absurd (hrun.symm.trans (h hc)) (by decide), fun _ => rfl⟩
    next => exact ⟨_, _, rfl, fun _ => by decide, fun _ => rfl⟩
  next hc =>
    obtain ⟨first, more, hw, hquote, hplain⟩ := (written_escape multiline c).exists_cons
    exact ⟨first, _, by rw [hw, List.cons_append], fun _ => hquote hc, hplain⟩

theorem newline?_dropSpaces_of_escaped? {a : Char} (ha : escaped? a = some c) :
    newline? (dropSpaces (a :: rest)) = none := by
  unfold escaped? at ha
  split at ha <;> first | rfl | cases ha

/-! ## Between double quotes -/

theorem basic_written (h : Written false c w) (hc : c ≠ '"') :
    basic (w ++ rest) = push? c (basic rest) := by
  cases h with
  | lineFeed hmultiline => cases hmultiline
  | plain hplain hbackslash =>
    rw [List.singleton_append, basic]
    · rw [if_pos hplain]
    all_goals simp [hc, hbackslash]
  | @letter a ha =>
    have hu : a ≠ 'u' := by rintro rfl; cases ha
    have hU : a ≠ 'U' := by rintro rfl; cases ha
    simp only [List.cons_append, List.nil_append]
    rw [basic, ha]
    · simp [hu]
    · simp [hU]
  | @number digits hlen hdigits =>
    match digits, hlen with
    | [d₁, d₂, d₃, d₄], _ =>
      simp only [List.cons_append, List.nil_append]
      rw [basic, hdigits]

@[simp] theorem basic_escapeAll (run : Nat) (s rest : List Char) :
    basic (escapeAll false run s ++ '"' :: rest) = some (s, rest) := by
  induction s generalizing run with
  | nil => rfl
  | cons c s ih =>
    rw [escapeAll]
    split
    next hc =>
      subst hc
      simp [basic, escaped?, ih]
    next hc =>
      simp [basic_written (written_escape false c) hc, ih]

/-! ## Between single quotes -/

theorem literal_append (hplain : ∀ c ∈ s, isPlain c = true) (hquote : '\'' ∉ s)
    (rest : List Char) : literal (s ++ '\'' :: rest) = some (s, rest) := by
  induction s with
  | nil => rfl
  | cons c s ih =>
    rw [List.forall_mem_cons] at hplain
    rw [List.mem_cons, not_or] at hquote
    rw [List.cons_append, literal]
    · simp [if_pos hplain.1, ih hplain.2 hquote.2]
    · exact fun hc => hquote.1 hc.symm

/-! ## Between three quotes -/

/-- How a reader takes the quotes of a text that three quotes close. Up to two quotes in front of
these are a part of the text, and so is any quote that no two others follow. -/
structure TripleQuoted (q : Char) (read : Parser (List Char)) : Prop where
  three {rest : List Char} (h : ∀ more, rest ≠ q :: more) :
    read (q :: q :: q :: rest) = some ([], rest)
  four {rest : List Char} (h : ∀ more, rest ≠ q :: more) :
    read (q :: q :: q :: q :: rest) = some ([q], rest)
  five {rest : List Char} : read (q :: q :: q :: q :: q :: rest) = some ([q, q], rest)
  part {rest : List Char} (h : ∀ more, rest ≠ q :: q :: more) :
    read (q :: rest) = push? q (read rest)

/-- A quote in front of a written text is read along with it, unless two more follow in the midst
of the text. -/
theorem TripleQuoted.quote {q : Char} {read : Parser (List Char)} (h : TripleQuoted q read)
    (hrest : ∀ more, rest ≠ q :: more) (hread : read (w ++ q :: q :: q :: rest) = some (s, rest))
    (hw : w = [] ∨ w = [q] ∨ ∀ rest more, w ++ rest ≠ q :: q :: more) :
    read (q :: (w ++ q :: q :: q :: rest)) = some (q :: s, rest) := by
  rcases hw with rfl | rfl | hw
  · have hs := hread.symm.trans (h.three hrest)
    simp only [Option.some.injEq, Prod.mk.injEq, and_true] at hs
    rw [hs]
    exact h.four hrest
  · have hs := hread.symm.trans (h.four hrest)
    simp only [Option.some.injEq, Prod.mk.injEq, and_true] at hs
    rw [hs]
    exact h.five
  · simp [h.part (hw _), hread]

theorem tripleQuoted_multilineBasic : TripleQuoted '"' (multilineBasic false) where
  three h := by
    rw [multilineBasic]
    · exact fun more => h _
    · exact h
  four h := by
    rw [multilineBasic]
    exact h
  five := rfl
  part h := by
    rw [multilineBasic]
    · rfl
    all_goals simp_all

theorem tripleQuoted_multilineLiteral : TripleQuoted '\'' multilineLiteral where
  three h := by
    rw [multilineLiteral]
    · exact fun more => h _
    · exact h
  four h := by
    rw [multilineLiteral]
    exact h
  five := rfl
  part h := by
    rw [multilineLiteral]
    · rfl
    all_goals simp_all

/-! ## Between three double quotes -/

theorem multilineBasic_written (h : Written true c w) (hc : c ≠ '"') :
    multilineBasic false (w ++ rest) = push? c (multilineBasic false rest) := by
  cases h with
  | lineFeed hmultiline hc =>
    subst hc
    rfl
  | plain hplain hbackslash =>
    have hlf : c ≠ '\n' := by rintro rfl; cases hplain
    have hcr : c ≠ '\r' := by rintro rfl; cases hplain
    rw [List.singleton_append, multilineBasic]
    · simp [hplain]
    all_goals simp [hc, hbackslash, hlf, hcr]
  | @letter a ha =>
    have hu : a ≠ 'u' := by rintro rfl; cases ha
    have hU : a ≠ 'U' := by rintro rfl; cases ha
    simp only [List.cons_append, List.nil_append]
    rw [multilineBasic, newline?_dropSpaces_of_escaped? ha, ha]
    · rfl
    · simp [hu]
    · simp [hU]
  | @number digits hlen hdigits =>
    match digits, hlen with
    | [d₁, d₂, d₃, d₄], _ =>
      simp only [List.cons_append, List.nil_append]
      rw [multilineBasic, hdigits]

/-- After a quote two more stand only at the end of a text. -/
theorem escapeAll_quotes (run : Nat) (s : List Char) :
    escapeAll true (run + 1) s = [] ∨ escapeAll true (run + 1) s = ['"'] ∨
      ∀ rest more, escapeAll true (run + 1) s ++ rest ≠ '"' :: '"' :: more := by
  match s with
  | [] => exact .inl rfl
  | c :: s =>
    by_cases hc : c = '"' ∧ run = 0
    · obtain ⟨rfl, rfl⟩ := hc
      match s with
      | [] => exact .inr (.inl rfl)
      | d :: s =>
        -- The second of two quotes is not escaped, but what comes behind it would be.
        refine .inr (.inr fun rest more heq => ?_)
        obtain ⟨first, after, hw, hfirst, -⟩ := exists_escapeAll_eq_cons true 2 d s
        rw [show escapeAll true (0 + 1) ('"' :: d :: s) = '"' :: escapeAll true 2 (d :: s) from rfl,
          hw] at heq
        exact hfirst (fun _ => rfl) (List.cons.inj (List.cons.inj heq).2).1
    · have hrun (h : c = '"') : (true && run + 1 < 2) = false := by grind
      refine .inr (.inr fun rest more heq => ?_)
      obtain ⟨first, after, hw, hfirst, -⟩ := exists_escapeAll_eq_cons true (run + 1) c s
      rw [hw] at heq
      exact hfirst hrun (List.cons.inj heq).1

theorem multilineBasic_escapeAll (run : Nat) (s : List Char)
    (hrest : ∀ more, rest ≠ '"' :: more) :
    multilineBasic false (escapeAll true run s ++ '"' :: '"' :: '"' :: rest) = some (s, rest) := by
  induction s generalizing run with
  | nil => exact tripleQuoted_multilineBasic.three hrest
  | cons c s ih =>
    rw [escapeAll]
    split
    next hc =>
      subst hc
      split
      next =>
        exact tripleQuoted_multilineBasic.quote hrest (ih (run + 1)) (escapeAll_quotes run s)
      next => simp [multilineBasic, escaped?, ih, newline?, dropSpaces, isSpace]
    next hc =>
      simp [multilineBasic_written (written_escape true c) hc, ih]

/-! ## Between three single quotes -/

/-- After a quote two more stand only at the end of a text without three in a row. -/
theorem quotes_of_hasTriple {q : Char} (h : hasTriple q (q :: s) = false) :
    s = [] ∨ s = [q] ∨ ∀ rest more, s ++ rest ≠ q :: q :: more := by
  match s with
  | [] => exact .inl rfl
  | [c] => grind
  | c :: d :: s => grind [hasTriple]

theorem hasTriple_tail (h : hasTriple c s = false) : hasTriple c s.tail = false := by
  match s with
  | [] | [_] | [_, _] => rfl
  | x :: y :: z :: s => grind [hasTriple]

theorem multilineLiteral_append (hcontrol : ∀ c ∈ s, isControl c = false)
    (htriple : hasTriple '\'' s = false) (hrest : ∀ more, rest ≠ '\'' :: more) :
    multilineLiteral (s ++ '\'' :: '\'' :: '\'' :: rest) = some (s, rest) := by
  induction s with
  | nil => exact tripleQuoted_multilineLiteral.three hrest
  | cons c s ih =>
    rw [List.forall_mem_cons] at hcontrol
    have ih := ih hcontrol.2 (hasTriple_tail htriple)
    rw [List.cons_append]
    by_cases hquote : c = '\''
    · subst hquote
      exact tripleQuoted_multilineLiteral.quote hrest ih (quotes_of_hasTriple htriple)
    by_cases hlf : c = '\n'
    · subst hlf
      simp [multilineLiteral, ih]
    · have hplain := isPlain_of_isControl hcontrol.1 hlf
      have hcr : c ≠ '\r' := by rintro rfl; cases hplain
      rw [multilineLiteral, if_pos hplain, ih, push?_some]
      all_goals simp [hquote, hlf, hcr]

/-! ## All forms -/

/-- What a text is like that is written in some form. Any text can be escaped. -/
def Form.Suits : Form → List Char → Prop
  | literal, s => s ≠ [] ∧ (∀ c ∈ s, isPlain c = true) ∧ '\'' ∉ s
  | multilineLiteral, s => (∀ c ∈ s, isControl c = false) ∧ hasTriple '\'' s = false
  | basic, _ | multilineBasic, _ => True

theorem suits_formOf (s : List Char) : (formOf s).Suits s := by
  simp only [formOf]
  split
  next => trivial
  next hbasic =>
    split
    next hliteral =>
      simp only [Bool.and_eq_true, Bool.not_eq_true', List.any_eq_false, List.contains_eq_mem,
        decide_eq_false_iff_not] at hliteral
      obtain ⟨⟨hcontrol, hquote⟩, hlf⟩ := hliteral
      refine ⟨?_, fun c hc => ?_, hquote⟩
      · rintro rfl
        exact hbasic rfl
      · have hne : c ≠ '\n' := fun h => hlf (h ▸ hc)
        exact isPlain_of_isControl (Bool.eq_false_iff.mpr (hcontrol c hc)) hne
    next =>
      split
      next => trivial
      split
      next hliteral =>
        simp only [Bool.and_eq_true, Bool.not_eq_true', List.any_eq_false] at hliteral
        exact ⟨fun c hc => Bool.eq_false_iff.mpr (hliteral.1 c hc), hliteral.2⟩
      next => split <;> trivial

/-- A text that no quote begins. -/
structure Unquoted (rest : List Char) : Prop where
  double : ∀ more, rest ≠ '"' :: more
  single : ∀ more, rest ≠ '\'' :: more

theorem string_basic (s : List Char) (hrest : Unquoted rest) :
    string ('"' :: (escapeAll false 0 s ++ '"' :: rest)) = some (String.ofList s, rest) := by
  have hne (more : List Char) : escapeAll false 0 s ++ '"' :: rest ≠ '"' :: '"' :: more := by
    intro heq
    cases s with
    | nil => exact hrest.double more (List.cons.inj heq).2
    | cons c s =>
      obtain ⟨first, after, hw, hfirst, -⟩ := exists_escapeAll_eq_cons false 0 c s
      rw [hw] at heq
      exact hfirst (fun _ => rfl) (List.cons.inj heq).1
  rw [string, word, basic_escapeAll]
  · rfl
  · simpa using hne
  · simp

theorem string_literal (hs : s ≠ []) (hplain : ∀ c ∈ s, isPlain c = true) (hquote : '\'' ∉ s)
    (rest : List Char) :
    string ('\'' :: (s ++ '\'' :: rest)) = some (String.ofList s, rest) := by
  have hne (more : List Char) : s ++ '\'' :: rest ≠ '\'' :: '\'' :: more := by
    intro heq
    cases s with
    | nil => exact hs rfl
    | cons c s => exact hquote ((List.cons.inj heq).1 ▸ List.mem_cons_self)
  rw [string, word, literal_append hplain hquote]
  · rfl
  · simp
  · simpa using hne

theorem newline?_of_isPlain (h : isPlain c = true) : newline? (c :: rest) = none := by
  have hlf : c ≠ '\n' := by rintro rfl; cases h
  have hcr : c ≠ '\r' := by rintro rfl; cases h
  rw [newline?]
  all_goals simp [hlf, hcr]

/-- The line end behind the opening quotes is all that is dropped there. -/
theorem dropFirstLineEnd_start {s body : List Char} (h : '\n' ∉ s → newline? body = none) :
    dropFirstLineEnd ((if s.contains '\n' then ['\n'] else []) ++ body) = body := by
  by_cases hlf : '\n' ∈ s
  · rw [if_pos (List.contains_iff_mem.mpr hlf)]
    rfl
  · rw [if_neg (mt List.contains_iff_mem.mp hlf), List.nil_append, dropFirstLineEnd, h hlf,
      Option.getD_none]

theorem string_multilineBasic (s : List Char) (hrest : Unquoted rest) :
    string ('"' :: '"' :: '"' :: ((if s.contains '\n' then ['\n'] else []) ++
      (escapeAll true 0 s ++ '"' :: '"' :: '"' :: rest))) = some (String.ofList s, rest) := by
  rw [string, dropFirstLineEnd_start, multilineBasic_escapeAll 0 s hrest.double]
  · rfl
  intro hlf
  cases s with
  | nil => rfl
  | cons c s =>
    obtain ⟨first, more, hw, -, hplain⟩ := exists_escapeAll_eq_cons true 0 c s
    rw [hw]
    exact newline?_of_isPlain (hplain fun hc => hlf (hc ▸ List.mem_cons_self))

theorem string_multilineLiteral (hcontrol : ∀ c ∈ s, isControl c = false)
    (htriple : hasTriple '\'' s = false) (hrest : Unquoted rest) :
    string ('\'' :: '\'' :: '\'' :: ((if s.contains '\n' then ['\n'] else []) ++
      (s ++ '\'' :: '\'' :: '\'' :: rest))) = some (String.ofList s, rest) := by
  rw [string, dropFirstLineEnd_start, multilineLiteral_append hcontrol htriple hrest.single]
  · rfl
  intro hlf
  cases s with
  | nil => rfl
  | cons c s =>
    have hne : c ≠ '\n' := fun hc => hlf (hc ▸ List.mem_cons_self)
    exact newline?_of_isPlain (isPlain_of_isControl (hcontrol c List.mem_cons_self) hne)

/-- A written string begins with a quote. -/
theorem exists_printString_eq_cons (text : String) :
    ∃ c more, printString text = c :: more ∧ (c = '"' ∨ c = '\'') := by
  simp only [printString]
  split
  · exact ⟨_, _, rfl, .inl rfl⟩
  · exact ⟨_, _, rfl, .inr rfl⟩
  · exact ⟨_, _, rfl, .inl rfl⟩
  · exact ⟨_, _, rfl, .inr rfl⟩

/-- Every string is read as it was written. -/
@[simp] theorem string_printString (text : String) (hrest : Unquoted rest) :
    string (printString text ++ rest) = some (text, rest) := by
  have htext : String.ofList text.toList = text := String.ofList_toList
  have hform := suits_formOf text.toList
  simp only [printString]
  split
  next => simpa [htext] using string_basic text.toList hrest
  next heq =>
    rw [heq] at hform
    obtain ⟨hne, hplain, hquote⟩ := hform
    simpa [htext] using string_literal hne hplain hquote rest
  next => simpa [htext] using string_multilineBasic text.toList hrest
  next heq =>
    rw [heq] at hform
    simpa [htext] using string_multilineLiteral hform.1 hform.2 hrest

end Octet.Toml
