import Mathlib.Data.List.Forall2
import Octet.Proofs.Toml.Document
import Octet.Settings.Toml

/-!
# What settings rely on

A library for settings writes every value in one form and reads it back from there, makes codecs of
records that keep to their declarations, and reads documents as they were printed.

## Main definitions

* `Library.Lawful`: what settings rely on in a library.

## Main statements

* `Library.lawful_toml`: the library at work keeps to it.
-/

namespace Octet

open Toml

variable {ε δ α : Type}

/-! ## Laws -/

/-- A codec that writes values in one form and reads them from there, if they fit. -/
structure Toml.Codec.Follows (codec : Codec ε Atom α) (form : α → Atom) : Prop where
  write (a : α) : codec.write a = form a
  read {a : α} (hfits : (form a).fits = true) : codec.read (form a).value = .ok a

/-- What settings rely on in a library. -/
structure Library.Lawful (lib : Library ε) : Prop where
  size : lib.size.Follows .number
  text : lib.text.Follows .string
  truth : lib.truth.Follows .boolean
  /-- Records are written field by field, in order and by key. -/
  write_record {δ α : Type} (s : Schema ε δ α) (a : α) : (lib.record s).write a = s.write a
  /-- A table is read field by field, by key. What is none of the fields does not matter. -/
  read_record {δ α : Type} {s : Schema ε δ α} {a : α} {origin : Origin} {entries : Table}
    {missing : Field ε δ α → ε} (hfields : (s.fields.map Field.key).Nodup)
    (hentries : (entries.map Prod.fst).Nodup) (hfill : s.fill missing entries = .ok a) :
    (lib.record s).read (.table origin entries) = .ok a
  /-- What is printed is read as it was written. -/
  print_of_fits {doc : Document} (hdistinct : doc.Distinct) (hfits : doc.fits = true) :
    ∃ text, lib.print doc = .ok text ∧ lib.parse text = .ok doc.value
  /-- Integers that do not fit are not printed. -/
  print_of_not_fits {doc : Document} (hfits : doc.fits = false) :
    ∃ fault, lib.print doc = .error fault
  /-- Each level is known by its name. -/
  level_name (level : Level) : lib.level? level.name = some level

/-! ## Reading records -/

namespace Toml

theorem exists_of_bind_eq_ok {β : Type} {x : Except ε α} {f : α → Except ε β} {b : β}
    (h : (x >>= f) = .ok b) : ∃ a, x = .ok a ∧ f a = .ok b := by
  cases x with
  | error fault => cases h
  | ok a => exact ⟨a, rfl, h⟩

theorem forM_eq_ok {xs : List α} {act : α → Except ε Unit} (h : ∀ x ∈ xs, act x = .ok ()) :
    xs.forM act = .ok () := by
  induction xs with
  | nil => rfl
  | cons x xs ih =>
    rw [List.forall_mem_cons] at h
    rw [List.forM, h.1]
    exact ih h.2

variable {s : Schema ε δ α} {field : Field ε δ α} {fields : List (Field ε δ α)} {entries : Table}
  {missing : Field ε δ α → ε} {a b : α}

theorem Field.exists_read_of_fill {fault : ε} {value : Value}
    (h : field.fill fault (some value) a = .ok b) : ∃ change, field.read value = .ok change := by
  cases hread : field.read value with
  | ok change => exact ⟨change, rfl⟩
  | error fault => simp [fill, hread, Except.map] at h

/-- What is reported of a field that is missing does not matter where none is. -/
theorem Field.fill_congr {fault : ε} {value? : Option Value}
    (h : field.fill fault value? a = .ok b) (fault' : ε) : field.fill fault' value? a = .ok b := by
  cases value? with
  | some value => exact h
  | none =>
    simp only [fill] at h ⊢
    split at h
    next hdefault => rw [if_pos hdefault, h]
    next => cases h

/-- Where a record is read, so is each field that is found. -/
theorem exists_read_of_mem
    (h : fields.foldlM (fun a field =>
      field.fill (missing field) (entries.lookup field.key) a) a = .ok b)
    (hfield : field ∈ fields) {value : Value} (hvalue : entries.lookup field.key = some value) :
    ∃ change, field.read value = .ok change := by
  induction fields generalizing a with
  | nil => cases hfield
  | cons first fields ih =>
    rw [List.foldlM_cons] at h
    obtain ⟨a', hfirst, hrest⟩ := exists_of_bind_eq_ok h
    rcases List.mem_cons.mp hfield with rfl | hfield
    · exact Field.exists_read_of_fill (hvalue ▸ hfirst)
    · exact ih hrest hfield

theorem foldlM_fill_congr
    (h : fields.foldlM (fun a field =>
      field.fill (missing field) (entries.lookup field.key) a) a = .ok b)
    (missing' : Field ε δ α → ε) :
    fields.foldlM (fun a field =>
      field.fill (missing' field) (entries.lookup field.key) a) a = .ok b := by
  induction fields generalizing a with
  | nil => exact h
  | cons first fields ih =>
    rw [List.foldlM_cons] at h ⊢
    obtain ⟨a', hfirst, hrest⟩ := exists_of_bind_eq_ok h
    rw [Field.fill_congr hfirst]
    exact ih hrest

theorem lookup_of_mem {entry : String × Value} (hentries : (entries.map Prod.fst).Nodup)
    (hentry : entry ∈ entries) : entries.lookup entry.1 = some entry.2 := by
  induction entries with
  | nil => cases hentry
  | cons first entries ih =>
    obtain ⟨key, value⟩ := first
    rw [List.map_cons, List.nodup_cons] at hentries
    rcases List.mem_cons.mp hentry with rfl | hmem
    · simp
    · have hkey : entry.1 ∈ entries.map Prod.fst := List.mem_map_of_mem hmem
      have hne : (entry.1 == key) = false := by grind
      rw [List.lookup_cons, hne]
      exact ih hentries.2 hmem

/-- A field is read as it was written if its value is. -/
theorem Codec.read_field {β : Type} {codec : Codec ε δ β} {form : δ → Value} (key : String)
    {get : α → β} {set : β → α → α} (h : codec.read (form (codec.write (get a))) = .ok (get a)) :
    (codec.field key get set).read (form ((codec.field key get set).write a)) =
      .ok (set (get a)) := by
  simp [Codec.field, h, Except.map]

theorem Codec.Follows.read_field {β : Type} {codec : Codec ε Atom β} {form : β → Atom}
    {key : String} {get : α → β} {set : β → α → α} (h : codec.Follows form)
    (hfits : (form (get a)).fits = true) :
    (codec.field key get set).read ((codec.field key get set).write a).value =
      .ok (set (get a)) :=
  Codec.read_field key ((h.write (get a)).symm ▸ h.read hfits)

/-- From the values of all its fields a record is made by all the changes that they bring. -/
theorem Schema.fill_write {form : δ → Value} {changes : List (α → α)}
    (hfields : (s.fields.map Field.key).Nodup)
    (hread : List.Forall₂ (fun field change => field.read (form (field.write a)) = .ok change)
      s.fields changes) :
    s.fill missing ((s.write a).map fun entry => (entry.1, form entry.2)) =
      .ok (changes.foldl (fun b change => change b) s.base) := by
  have hlookup : ∀ field ∈ s.fields,
      ((s.write a).map fun entry => (entry.1, form entry.2)).lookup field.key =
        some (form (field.write a)) := by
    intro field hfield
    have hentry : (field.key, form (field.write a)) ∈
        (s.write a).map fun entry => (entry.1, form entry.2) := by
      simpa [Schema.write] using ⟨field, hfield, rfl, rfl⟩
    exact lookup_of_mem (by simpa [Schema.write, Function.comp_def] using hfields) hentry
  unfold Schema.fill
  generalize (s.write a).map (fun entry => (entry.1, form entry.2)) = entries at hlookup
  generalize s.fields = fields, s.base = start at hread hlookup
  induction hread generalizing start with
  | nil => rfl
  | @cons field change fields changes hfirst _ ih =>
    rw [List.forall_mem_cons] at hlookup
    rw [List.foldlM_cons, hlookup.1, Field.fill, hfirst]
    exact ih (change start) hlookup.2

end Toml

/-! ## The library at work -/

namespace Toml

variable {s : Schema Defect δ α} {entries : Table} {a : α}

theorem tryEntry_eq_ok {fields : List (Field Defect δ α)} {entry : String × Value}
    (h : ∀ field ∈ fields, field.key = entry.1 → ∃ change, field.read entry.2 = .ok change) :
    tryEntry fields entry = .ok () := by
  unfold tryEntry
  split
  next field hfind =>
    have hkey : field.key = entry.1 := by simpa using List.find?_some hfind
    obtain ⟨change, hread⟩ := h field (List.mem_of_find?_eq_some hfind) hkey
    rw [hread]
    rfl
  next => rfl

theorem ofEntries_of_fill {missing : Field Defect δ α → Defect}
    (hentries : (entries.map Prod.fst).Nodup) (hfill : s.fill missing entries = .ok a) :
    ofEntries s entries = .ok a := by
  have htry : ∀ entry ∈ entries, tryEntry s.fields entry = .ok () := by
    refine fun entry hentry => tryEntry_eq_ok fun field hfield hkey => ?_
    exact exists_read_of_mem hfill hfield (hkey ▸ lookup_of_mem hentries hentry)
  rw [ofEntries, forM_eq_ok htry]
  exact foldlM_fill_congr hfill _

end Toml

theorem Level.ofText?_name (level : Level) : Level.ofText? level.name = some level := by
  cases level <;> decide +kernel

/-- The library at work keeps to what settings rely on. -/
theorem Library.lawful_toml : Library.toml.Lawful where
  size := ⟨fun _ => rfl, fun _ => by simp [toml, Atom.value, readSize]⟩
  text := ⟨fun _ => rfl, fun _ => rfl⟩
  truth := ⟨fun _ => rfl, fun _ => rfl⟩
  write_record _ _ := rfl
  read_record _ hentries hfill := ofEntries_of_fill hentries hfill
  print_of_fits hdistinct hfits := by
    refine ⟨_, if_pos hfits, ?_⟩
    simp only [toml, parse_printDocument hdistinct hfits]
    rfl
  print_of_not_fits hfits := ⟨_, if_neg (Bool.eq_false_iff.mp hfits)⟩
  level_name := Level.ofText?_name

end Octet
