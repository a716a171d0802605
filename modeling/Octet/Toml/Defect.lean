import Octet.Decimal
import Octet.Text.Quoted
import Octet.Toml.Flaw

/-!
# Defects of settings files

The reasons for which a text is no settings file, or not the one that was expected, and for which a
document has no text, with their wording in one line.

## Main definitions

* `Expected`, `Defect`.
-/

namespace Octet.Toml

/-- What a settings file should hold at some place. -/
inductive Expected
  | size
  | text
  | truth
  | record (name : String)
  deriving DecidableEq, Repr

def Expected.message : Expected → String
  | size => "usize"
  | text => "a string"
  | truth => "a boolean"
  | record name => "struct " ++ name

/-- A value of a settings file as a message shows it. -/
def Found.message : Found → String
  | string text => "string " ++ Text.quote text
  | integer n => s!"integer `{n}`"
  | float x => s!"floating point `{x.text}`"
  | boolean b => s!"boolean `{b}`"
  | map => "map"
  | sequence => "sequence"

/-- What can be wrong with a settings file or with a document. -/
inductive Defect
  /-- The text is no tree of tables. -/
  | malformed (flaw : Flaw)
  | invalidType (found : Found) (expected : Expected)
  | negative (n : Int)
  /-- An array that stands for a record has too few items. -/
  | tooShort (length : Nat) (expected : Expected) (fields : Nat)
  | missing (field : String)
  /-- A client's own reason. -/
  | custom (text : String)
  /-- An integer does not fit. -/
  | tooLarge
  deriving DecidableEq, Repr

/-- The lines of a text. Each ends with a line feed, which may have a carriage return in front. -/
def textLines (text : String) : List String :=
  (go text.toList).map fun line =>
    String.ofList (if line.getLast? = some '\r' then line.dropLast else line)
where
  go : List Char → List (List Char)
    | [] => [[]]
    | c :: rest =>
      if c = '\n' then [] :: go rest
      else
        match go rest with
        | [] => [[c]]
        | line :: others => (c :: line) :: others

/-- How the messages about single entries begin. -/
def entryMessages : List String :=
  ["missing field", "invalid type", "invalid value", "invalid length", "Invalid log level"]

/-- The first line of a text that begins like a message about an entry. -/
def tellingLine? (text : String) : Option String :=
  (textLines text).find? fun line =>
    entryMessages.any fun opening => opening.toList.isPrefixOf line.toList

/-- What is wrong, in one line. A text that is no tree of tables is called a matter of syntax,
unless the message of a clash has a line that begins like one about an entry. -/
def Defect.message : Defect → String
  | malformed .grammar => "syntax"
  | malformed (.clash clash) => (tellingLine? clash.message).getD "syntax"
  | invalidType found expected =>
    s!"invalid type: {found.message}, expected {expected.message}"
  | negative n => s!"invalid value: integer `{n}`, expected usize"
  | tooShort length expected fields =>
    s!"invalid length {length}, expected {expected.message} with {fields} elements"
  | missing field => s!"missing field `{field}`"
  | custom text => (textLines text).headD ""
  | tooLarge => "out-of-range value for u64 type"

end Octet.Toml
