import Octet.Toml.Value

/-!
# Records in settings files

How a record goes into a settings file and comes out of it, field by field.

## Main definitions

* `Atom`, `Section`, `Document`: what is written.
* `Codec`, `Field`, `Schema`: how a type is written and read, a field of a record, and a record as
  it is declared.
* `Schema.fill`: the record that values make.
-/

namespace Octet.Toml

/-! ## What is written -/

/-- A value of one of the types that settings have. -/
inductive Atom
  | string (text : String)
  | number (n : Nat)
  | boolean (b : Bool)

/-- The entries under one header, in the order in which they are written. -/
abbrev Section := List (String × Atom)

/-- Sections with their headers. -/
abbrev Document := List (String × Section)

/-- A written atom as it is read. -/
def Atom.value : Atom → Value
  | string text => .string text
  | number n => .integer n
  | boolean b => .boolean b

/-- The table that is read where entries were written, each of which is read as `form` says. -/
def tableOf {δ : Type} (form : δ → Value) (entries : List (String × δ)) : Value :=
  .table .header (entries.map fun entry => (entry.1, form entry.2))

def Section.value : Section → Value := tableOf Atom.value

/-- A written document as it is read. -/
def Document.value : Document → Value := tableOf Section.value

/-- Integers have 64 bits, one of which is for the sign. -/
def Atom.fits : Atom → Bool
  | number n => n < 1 <<< 63
  | string _ | boolean _ => true

/-- All integers have 64 bits with a sign. -/
def Document.fits (doc : Document) : Bool :=
  doc.all fun block => block.2.all fun entry => entry.2.fits

/-- No header comes twice, and no key under one header. -/
structure Document.Distinct (doc : Document) : Prop where
  headers : (doc.map Prod.fst).Nodup
  keys : ∀ block ∈ doc, (block.2.map Prod.fst).Nodup

/-! ## Records -/

/-- How values of a type are written, as a `δ`, and read. -/
structure Codec (ε δ α : Type) where
  write : α → δ
  read : Value → Except ε α

/-- A field of a record. What is read for it changes the record. -/
structure Field (ε δ α : Type) where
  key : String
  /-- Whether the record may do without the field, and keeps what it has instead. -/
  hasDefault : Bool
  write : α → δ
  read : Value → Except ε (α → α)

/-- A record as it is declared. -/
structure Schema (ε δ α : Type) where
  name : String
  /-- The record from which reading starts. -/
  base : α
  fields : List (Field ε δ α)

variable {ε δ α β : Type}

/-- A field that must not be missing, by its key, its codec and access to it. -/
def Codec.field (codec : Codec ε δ β) (key : String) (get : α → β) (set : β → α → α) :
    Field ε δ α where
  key
  hasDefault := false
  write a := codec.write (get a)
  read value := (codec.read value).map set

/-- The same field with a default. -/
def Field.orDefault (field : Field ε δ α) : Field ε δ α := { field with hasDefault := true }

/-- Reads a field into a record from a value, if one is found. -/
def Field.fill (field : Field ε δ α) (missing : ε) (value? : Option Value) (a : α) : Except ε α :=
  match value? with
  | some value => (field.read value).map fun change => change a
  | none => if field.hasDefault then .ok a else .error missing

/-- The record that the entries of a table make, read field by field. -/
def Schema.fill (s : Schema ε δ α) (missing : Field ε δ α → ε) (entries : Table) : Except ε α :=
  s.fields.foldlM (fun a field => field.fill (missing field) (entries.lookup field.key) a) s.base

/-- A record as it is written, field by field. -/
def Schema.write (s : Schema ε δ α) (a : α) : List (String × δ) :=
  s.fields.map fun field => (field.key, field.write a)

end Octet.Toml
