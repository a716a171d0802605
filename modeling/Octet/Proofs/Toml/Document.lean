import Octet.Proofs.Toml.Number
import Octet.Proofs.Toml.Text
import Octet.Toml.Print

/-!
# Files are read as they were written

A document is read as the tables that were written, as long as no key comes twice and all numbers
fit.

## Main definitions

* `Opens`: the characters with which a written key begins.
* `Reads`: what the lines of a text make of a draft.

## Main statements

* `line_entry`, `line_header`: what one line makes of a draft.
* `parse_printDocument`: whole files.
-/

namespace Octet.Toml

variable {c : Char} {d d' d₁ : Draft} {key header : String} {s rest : List Char}

theorem dropSpaces_of_not_isSpace (hc : isSpace c = false) (rest : List Char) :
    dropSpaces (c :: rest) = c :: rest :=
  List.dropWhile_cons_of_neg (by simp [hc])

/-! ## Atoms -/

namespace Atom

variable {v : Atom}

/-- A value begins with no space, no bracket and no brace. -/
theorem exists_print_eq_cons (v : Atom) :
    ∃ c more, v.print = c :: more ∧ isSpace c = false ∧ c ≠ '[' ∧ c ≠ '\x7b' := by
  cases v with
  | string text =>
    obtain ⟨c, more, htext, hc⟩ := exists_printString_eq_cons text
    exact ⟨c, more, htext, by rcases hc with rfl | rfl <;> decide⟩
  | number n =>
    cases hdigits : Nat.toDigits 10 n with
    | nil => exact absurd hdigits Nat.toDigits_ne_nil
    | cons c digits =>
      have hc := isDigit_toDigits n c (hdigits ▸ List.mem_cons_self)
      have hne {a : Char} (ha : a.isDigit = false) : c ≠ a := by
        rintro rfl
        rw [hc] at ha
        cases ha
      have hspace : isSpace c = false := by
        simp [isSpace, hne (show ' '.isDigit = false from rfl),
          hne (show '\t'.isDigit = false from rfl)]
      exact ⟨c, digits, hdigits, hspace, hne rfl, hne rfl⟩
  | boolean b => cases b <;> exact ⟨_, _, rfl, by decide⟩

theorem atom_print (hfits : v.fits = true) (rest : List Char) :
    atom (v.print ++ '\n' :: rest) = some (v.value, '\n' :: rest) := by
  cases v with
  | string text =>
    have hrest : Unquoted ('\n' :: rest) := ⟨by simp, by simp⟩
    have hread := string_printString text hrest
    obtain ⟨c, more, htext, hc⟩ := exists_printString_eq_cons text
    rw [htext, List.cons_append] at hread
    rw [print, htext, List.cons_append]
    rcases hc with rfl | rfl
    · rw [atom, hread]
      rfl
    · rw [atom, hread]
      rfl
  | number n => exact atom_toDigits (of_decide_eq_true hfits) rest
  | boolean b => cases b <;> rfl

/-- Behind the equals sign a value is read as it was written. -/
theorem assigned_print (hfits : v.fits = true) (depth : Nat) (rest : List Char) :
    assigned (Toml.value depth) ('=' :: ' ' :: (v.print ++ '\n' :: rest)) =
      .ok (v.value, '\n' :: rest) := by
  have hatom := atom_print hfits rest
  obtain ⟨c, more, hprint, hspace, hbracket, hbrace⟩ := v.exists_print_eq_cons
  rw [hprint] at hatom ⊢
  have hdrop : dropSpaces (' ' :: (c :: more ++ '\n' :: rest)) = c :: more ++ '\n' :: rest :=
    dropSpaces_of_not_isSpace hspace _
  rw [assigned, hdrop, Toml.value, hatom]
  · rfl
  all_goals simp [hbracket, hbrace]

end Atom

/-! ## Keys -/

/-- The characters with which a written key begins. -/
def Opens (c : Char) : Prop := isBare c = true ∨ c = '"'

instance : DecidablePred Opens := fun _ => inferInstanceAs (Decidable (_ ∨ _))

theorem Opens.ne {a : Char} (hc : Opens c) (ha : ¬ Opens a) : c ≠ a := by
  rintro rfl
  exact ha hc

theorem Opens.isSpace (hc : Opens c) : isSpace c = false := by
  have hspace : c ≠ ' ' := hc.ne (by decide)
  have htab : c ≠ '\t' := hc.ne (by decide)
  simp [Toml.isSpace, hspace, htab]

theorem exists_printPart_eq_cons (key : String) :
    ∃ c more, printPart key = c :: more ∧ Opens c := by
  simp only [printPart]
  split
  next hbare =>
    cases hchars : key.toList with
    | nil => simp [hchars] at hbare
    | cons c more => exact ⟨c, more, rfl, .inl (by simp_all)⟩
  next => exact ⟨_, _, rfl, .inr rfl⟩

theorem keyPart_printPart (key : String) (hc : isBare c = false) (rest : List Char) :
    keyPart (printPart key ++ c :: rest) = some (key, c :: rest) := by
  have hstop : ¬ isBare c = true := by simp [hc]
  simp only [printPart]
  split
  next hplain =>
    simp only [Bool.and_eq_true, Bool.not_eq_true', List.isEmpty_eq_false_iff,
      List.all_eq_true] at hplain
    obtain ⟨hne, hbare⟩ := hplain
    have htake : (key.toList ++ c :: rest).takeWhile isBare = key.toList := by
      rw [List.takeWhile_append_of_pos hbare, List.takeWhile_cons_of_neg hstop, List.append_nil]
    have hdrop : (key.toList ++ c :: rest).dropWhile isBare = c :: rest := by
      rw [List.dropWhile_append_of_pos hbare, List.dropWhile_cons_of_neg hstop]
    rw [keyPart, htake, hdrop]
    split
    next hnil => exact absurd hnil hne
    next => rw [String.ofList_toList]
  next =>
    have hread : word ('"' :: (escapeAll false 0 key.toList ++ '"' :: c :: rest)) =
        some (key, c :: rest) := by
      simp [word, asString]
    simpa [keyPart, isBare] using hread

/-- A key is read as one part if no dot follows. -/
theorem key?_printPart (key : String) (hc : isBare c = false)
    (hdot : ∀ more, dropSpaces (c :: rest) ≠ '.' :: more) :
    key? (printPart key ++ c :: rest) = .ok (some (([], key), dropSpaces (c :: rest))) := by
  obtain ⟨first, more, hchars, hfirst⟩ := exists_printPart_eq_cons key
  have hstart : dropSpaces (printPart key ++ c :: rest) = printPart key ++ c :: rest := by
    rw [hchars]
    exact dropSpaces_of_not_isSpace hfirst.isSpace _
  have hbegins : beginsKey (printPart key ++ c :: rest) = true := by
    rw [hchars]
    rcases hfirst with hfirst | rfl
    · simp [beginsKey, hfirst]
    · rfl
  -- The line is not empty, so that there is fuel for one part.
  obtain ⟨fuel, hfuel⟩ : ∃ fuel,
      ((printPart key ++ c :: rest).takeWhile (· ≠ '\n')).length = fuel + 1 := by
    have hlf : first ≠ '\n' := hfirst.ne (by decide)
    rw [hchars, List.cons_append, List.takeWhile_cons_of_pos (by simp [hlf])]
    exact ⟨_, rfl⟩
  have hparts : keyParts (fuel + 1) (printPart key ++ c :: rest) =
      some ([key], dropSpaces (c :: rest)) := by
    simp only [keyParts, hstart, keyPart_printPart key hc, bind, Option.bind]
  rw [key?, hstart, if_pos hbegins, hfuel, hparts]
  rfl

/-! ## Drafts -/

theorem insert_new {value : Value} (hnew : key ∉ d.entries.map Prod.fst) :
    d.insert [] key value = .ok { d with entries := d.entries ++ [(key, value)] } := by
  have hany : d.entries.any (·.1 = key) = false := by grind
  simp [Draft.insert, Table.insert, hany, bind, Except.bind]

theorem alter_new {table : Table} {value : Value} {change : Option Value → Except Clash Value}
    (hnew : key ∉ table.map Prod.fst) (hchange : change none = .ok value) :
    Table.alter key change table = .ok (table ++ [(key, value)]) := by
  induction table with
  | nil => simp [Table.alter, hchange, bind, Except.bind]
  | cons entry table ih =>
    obtain ⟨k, v⟩ := entry
    rw [List.map_cons, List.mem_cons, not_or] at hnew
    simp [Table.alter, ih hnew.2, Ne.symm hnew.1, bind, Except.bind]

theorem start_new {root : Table} (hroot : d.close = .ok root)
    (hnew : header ∉ root.map Prod.fst) : d.start [] header = .ok ⟨root, .table [] header, []⟩ := by
  have hlookup : root.lookup header = none := by grind
  simp [Draft.start, hroot, Table.within, Table.find?, hlookup, bind, Except.bind]

theorem close_table {root : Table} (hnew : header ∉ root.map Prod.fst) (entries : Table) :
    (Draft.mk root (.table [] header) entries).close =
      .ok (root ++ [(header, .table .header entries)]) :=
  alter_new hnew rfl

/-! ## Lines -/

@[simp] theorem lineEnd?_newline (rest : List Char) : lineEnd? ('\n' :: rest) = some rest := rfl

theorem append_ne_bracket (key : String) (rest more : List Char) :
    printPart key ++ rest ≠ '[' :: more := by
  obtain ⟨c, after, hchars, hc⟩ := exists_printPart_eq_cons key
  rw [hchars]
  exact fun heq => hc.ne (by decide) (List.cons.inj heq).1

/-- A line with a new key adds its entry. -/
theorem line_entry {v : Atom} (hfits : v.fits = true) (hnew : key ∉ d.entries.map Prod.fst)
    (rest : List Char) :
    line d (printEntry (key, v) ++ rest) =
      .ok ({ d with entries := d.entries ++ [(key, v.value)] }, rest) := by
  have htext : printEntry (key, v) ++ rest =
      printPart key ++ ' ' :: '=' :: ' ' :: (v.print ++ '\n' :: rest) := by
    simp [printEntry]
  have hread : key? (printPart key ++ ' ' :: '=' :: ' ' :: (v.print ++ '\n' :: rest)) =
      .ok (some (([], key), '=' :: ' ' :: (v.print ++ '\n' :: rest))) :=
    key?_printPart key rfl (by simp [dropSpaces, isSpace])
  have hinsert : (d.insert [] key v.value).mapError Flaw.clash =
      .ok { d with entries := d.entries ++ [(key, v.value)] } := by
    rw [insert_new hnew]
    rfl
  rw [htext]
  unfold line
  split
  next heq => exact absurd heq (append_ne_bracket key _ _)
  next heq => exact absurd heq (append_ne_bracket key _ _)
  next =>
    simp [Toml.key, hread, expect, bind, Except.bind, Atom.assigned_print hfits, hinsert]

/-- A header starts its section. -/
theorem line_header (hstart : d.start [] header = .ok d') (rest : List Char) :
    line d ('[' :: (printPart header ++ ']' :: '\n' :: rest)) = .ok (d', rest) := by
  have hread : key? (printPart header ++ ']' :: '\n' :: rest) =
      .ok (some (([], header), ']' :: '\n' :: rest)) :=
    key?_printPart header rfl (by simp [dropSpaces, isSpace])
  unfold line
  split
  next heq => exact absurd (List.cons.inj heq).2 (append_ne_bracket header _ _)
  next heq =>
    obtain ⟨-, rfl⟩ := List.cons.inj heq
    have hclash : (d.start [] header).mapError Flaw.clash = .ok d' := by
      rw [hstart]
      rfl
    simp [Toml.key, hread, expect, bind, Except.bind, headerEnd?, hclash]
  next hne => exact absurd rfl (hne _)

/-- From the draft `d` on, the lines of a text lead to the draft `d'`. -/
def Reads (d : Draft) (s : List Char) (d' : Draft) : Prop :=
  ∀ fuel, s.length < fuel → lines fuel d s = .ok d'

theorem reads_nil (d : Draft) : Reads d [] d := by
  intro fuel hfuel
  obtain ⟨fuel, rfl⟩ := Nat.exists_eq_add_of_lt hfuel
  rfl

/-- An empty line does not count. -/
theorem Reads.blank (h : Reads d s d') : Reads d ('\n' :: s) d' := by
  intro fuel hfuel
  have hread := h fuel (Nat.lt_of_succ_lt hfuel)
  cases fuel with
  | zero => cases hfuel
  | succ fuel => exact hread

/-- A line that is not blank is read as one step. -/
theorem Reads.line {l : List Char} (hl : l ≠ []) (hblank : dropBlank (l ++ rest) = l ++ rest)
    (hline : Toml.line d (l ++ rest) = .ok (d₁, rest)) (h : Reads d₁ rest d') :
    Reads d (l ++ rest) d' := by
  intro fuel hfuel
  have hlen : 0 < l.length := List.length_pos_iff.mpr hl
  rw [List.length_append] at hfuel
  cases fuel with
  | zero => cases hfuel
  | succ fuel =>
    rw [lines, hblank]
    split
    next hnil => exact absurd (List.append_eq_nil_iff.mp hnil).1 hl
    next =>
      simp only [hline, bind, Except.bind]
      exact h fuel (by omega)

theorem Opens.dropBlank (hc : Opens c) (rest : List Char) : dropBlank (c :: rest) = c :: rest := by
  have hlf : c ≠ '\n' := hc.ne (by decide)
  have hcr : c ≠ '\r' := hc.ne (by decide)
  have hmark : c ≠ '#' := hc.ne (by decide)
  rw [Toml.dropBlank, skipBlank]
  · simp [hc.isSpace, hmark]
  all_goals simp [hlf, hcr]

/-! ## Sections -/

/-- Entries are added in the order in which they are written. -/
theorem Reads.entries {entries : Section} (hfits : ∀ entry ∈ entries, entry.2.fits = true)
    (hdistinct : (d.entries.map Prod.fst ++ entries.map Prod.fst).Nodup)
    (h : Reads { d with
      entries := d.entries ++ entries.map fun entry => (entry.1, entry.2.value) } rest d') :
    Reads d (entries.flatMap printEntry ++ rest) d' := by
  induction entries generalizing d with
  | nil => simpa using h
  | cons entry entries ih =>
    obtain ⟨key, v⟩ := entry
    rw [List.forall_mem_cons] at hfits
    have hnew : key ∉ d.entries.map Prod.fst := fun hmem =>
      (List.nodup_append.mp hdistinct).2.2 key hmem key List.mem_cons_self rfl
    rw [List.flatMap_cons, List.append_assoc]
    refine Reads.line ?_ ?_ (line_entry hfits.1 hnew _) (ih hfits.2 ?_ ?_)
    · simp [printEntry]
    · obtain ⟨c, more, hchars, hc⟩ := exists_printPart_eq_cons key
      rw [printEntry, hchars]
      exact hc.dropBlank _
    · simpa using hdistinct
    · simpa using h

theorem Reads.section {entries : Section} {root : Table}
    (hkeys : (entries.map Prod.fst).Nodup) (hfits : ∀ entry ∈ entries, entry.2.fits = true)
    (hroot : d.close = .ok root) (hnew : header ∉ root.map Prod.fst)
    (h : Reads ⟨root, .table [] header, entries.map fun entry => (entry.1, entry.2.value)⟩
      rest d') :
    Reads d (printSection header entries ++ rest) d' := by
  have hentries : Reads ⟨root, .table [] header, []⟩ (entries.flatMap printEntry ++ rest) d' :=
    Reads.entries hfits (by simpa using hkeys) h
  have hprint : printSection header entries ++ rest =
      ('[' :: (printPart header ++ [']', '\n'])) ++ (entries.flatMap printEntry ++ rest) := by
    simp [printSection]
  rw [hprint]
  refine hentries.line (by simp) rfl ?_
  simpa using line_header (start_new hroot hnew) (entries.flatMap printEntry ++ rest)

/-! ## Documents -/

/-- Sections are added in the order in which they are written. -/
theorem exists_reads_printDocument {doc : Document} {root : Table}
    (hkeys : ∀ block ∈ doc, (block.2.map Prod.fst).Nodup)
    (hfits : ∀ block ∈ doc, ∀ entry ∈ block.2, entry.2.fits = true) (hroot : d.close = .ok root)
    (hdistinct : (root.map Prod.fst ++ doc.map Prod.fst).Nodup) :
    ∃ d', Reads d (printDocument doc) d' ∧
      d'.close = .ok (root ++ doc.map fun block => (block.1, Section.value block.2)) := by
  induction doc generalizing d root with
  | nil => exact ⟨d, reads_nil d, by simpa using hroot⟩
  | cons block doc ih =>
    obtain ⟨header, entries⟩ := block
    rw [List.forall_mem_cons] at hkeys hfits
    have hnew : header ∉ root.map Prod.fst := fun hmem =>
      (List.nodup_append.mp hdistinct).2.2 header hmem header List.mem_cons_self rfl
    obtain ⟨d', hreads, hclose⟩ := ih hkeys.2 hfits.2
      (close_table hnew (entries.map fun entry => (entry.1, entry.2.value)))
      (by simpa using hdistinct)
    refine ⟨d', ?_, by simpa [Section.value, tableOf] using hclose⟩
    cases doc with
    | nil =>
      simpa [printDocument] using Reads.section hkeys.1 hfits.1 hroot hnew hreads
    | cons block doc => exact Reads.section hkeys.1 hfits.1 hroot hnew hreads.blank

/-- A document whose integers fit is read as it was written. -/
theorem parse_printDocument {doc : Document} (hdistinct : doc.Distinct) (hfits : doc.fits = true) :
    parse (String.ofList (printDocument doc)) =
      .ok (doc.map fun block => (block.1, Section.value block.2)) := by
  have hfits : ∀ block ∈ doc, ∀ entry ∈ block.2, entry.2.fits = true := by
    simpa only [Document.fits, List.all_eq_true] using hfits
  obtain ⟨d', hreads, hclose⟩ := exists_reads_printDocument hdistinct.keys hfits
    (show Draft.close {} = .ok [] from rfl) hdistinct.headers
  have hlines := hreads ((printDocument doc).length + 1) (Nat.lt_succ_self _)
  have hmark (more : List Char) : printDocument doc ≠ '\ufeff' :: more := by
    match doc with
    | [] => simp [printDocument]
    | [block] => simp [printDocument, printSection]
    | block :: block' :: doc => simp [printDocument, printSection]
  rw [parse, String.toList_ofList]
  split
  next heq => exact absurd heq (hmark _)
  next =>
    simp only [hlines, bind, Except.bind, hclose]
    rfl

end Octet.Toml
