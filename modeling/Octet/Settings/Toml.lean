import Octet.Settings.Library
import Octet.Toml.Defect
import Octet.Toml.Document
import Octet.Toml.Print

/-!
# The library at work

A library as settings need it, from the readers and the printer of this project. The first entry
that does not fit is reported. An array can stand for a record, with its fields in order. Keys that
are not known do not matter.

## Main definitions

* `Toml.readRecord`: reads a record by its declaration.
* `Level.ofText?`: all spellings of a level.
* `Library.toml`: the library.
-/

namespace Octet

open Toml

/-! ## Levels -/

namespace Level

def all : List Level := [trace, debug, info, warn, error]

/-- The number of a level, counted from the most urgent. -/
def rank : Level → Nat
  | error => 1
  | warn => 2
  | info => 3
  | debug => 4
  | trace => 5

/-- Reads a level: its name in any mixture of cases, or its number. -/
def ofText? (text : String) : Option Level :=
  match Text.size? text with
  | some n => all.find? (·.rank = n)
  | none => all.find? (·.name = text.toLower)

end Level

/-! ## Values -/

namespace Toml

def readSize : Value → Except Defect Nat
  | .integer n => if 0 ≤ n then .ok n.toNat else .error (.negative n)
  | value => .error (.invalidType value.found .size)

def readText : Value → Except Defect String
  | .string text => .ok text
  | value => .error (.invalidType value.found .text)

def readTruth : Value → Except Defect Bool
  | .boolean b => .ok b
  | value => .error (.invalidType value.found .truth)

/-! ## Records -/

variable {δ α : Type}

/-- Tries an entry on the field with its key, if there is one. -/
def tryEntry (fields : List (Field Defect δ α)) (entry : String × Value) : Except Defect Unit :=
  match fields.find? (·.key = entry.1) with
  | some field => (field.read entry.2).map fun _ => ()
  | none => .ok ()

/-- Reads a record from entries. They are tried in the order in which they are written before it
is said what is missing. -/
def ofEntries (s : Schema Defect δ α) (entries : Table) : Except Defect α := do
  entries.forM (tryEntry s.fields)
  s.fill (.missing ·.key) entries

/-- Reads a record from an array of its fields in order. -/
def ofItems (s : Schema Defect δ α) (items : List Value) : Except Defect α :=
  s.fields.zipIdx.foldlM (fun a (field, i) =>
    field.fill (.tooShort i (.record s.name) s.fields.length) items[i]? a) s.base

def readRecord (s : Schema Defect δ α) (value : Value) : Except Defect α :=
  match value.entries?, value.items? with
  | some entries, _ => ofEntries s entries
  | none, some items => ofItems s items
  | none, none => .error (.invalidType value.found (.record s.name))

end Toml

/-! ## The library -/

namespace Library

def toml : Library Defect where
  custom := .custom
  message := Defect.message
  size := ⟨.number, readSize⟩
  text := ⟨.string, readText⟩
  truth := ⟨.boolean, readTruth⟩
  record s := ⟨s.write, readRecord s⟩
  print doc := if doc.fits then .ok (String.ofList (printDocument doc)) else .error .tooLarge
  parse text :=
    match Toml.parse text with
    | .ok entries => .ok (.table .header entries)
    | .error flaw => .error (.malformed flaw)
  level? := Level.ofText?

end Library

end Octet
