import Octet.Toml.Key
import Octet.Toml.Value

/-!
# Flaws of a settings file

The reasons for which a text is not a tree of tables. A clash between two places of the text is
told with the keys as they were meant, so that a line end in a key divides the message.

## Main definitions

* `Clash`: why an entry or a header does not go with those before it, and its wording.
* `Flaw`: every reason.
* `Scan`: readers that tell why they fail.
-/

namespace Octet.Toml

/-- Where an entry is added. -/
inductive Place
  /-- Under the header with these keys, or in front of all headers if there are none. -/
  | heading (keys : List String)
  /-- Between braces. -/
  | braces
  deriving DecidableEq, Repr

/-- Why an entry or a header does not go with those before it. -/
inductive Clash
  /-- The key has a value already. -/
  | repeated (key : String) (place : Place)
  /-- The table at this key, or the one in which the key should go, is not made by dots. -/
  | complete (key : String)
  /-- What the header names is there already. -/
  | taken (path : List String) (key : String)
  /-- The keys lead to a value where a table is needed. -/
  | blocked (path : List String) (kind : Kind)
  deriving DecidableEq, Repr

/-- Why a text is no settings file. -/
inductive Flaw
  /-- It does not follow the grammar. -/
  | grammar
  | clash (clash : Clash)
  deriving DecidableEq, Repr

/-- A reader of the first part of a text that tells why it fails. -/
abbrev Scan (α : Type) := List Char → Except Flaw (α × List Char)

/-- A reading that fails has met what the grammar does not allow. -/
def expect {α : Type} : Option α → Except Flaw α
  | some a => .ok a
  | none => .error .grammar

/-- A clash in a table, as seen from the table in which `step` leads to that one. -/
def Clash.under (step : String) : Clash → Clash
  | blocked path kind => blocked (step :: path) kind
  | clash => clash

/-! ## Wording -/

def Kind.name : Kind → String
  | string => "string"
  | integer => "integer"
  | float => "float"
  | boolean => "boolean"
  | moment => "datetime"
  | array => "array"
  | table => "inline table"

/-- Keys with dots between them. -/
def dotted (path : List String) : String := ".".intercalate path

/-- A table by the keys of its header. -/
def whereabouts : List String → String
  | [] => "in document root"
  | path => "in table `" ++ dotted path ++ "`"

def Clash.message : Clash → String
  | repeated key (.heading keys) => "duplicate key `" ++ key ++ "` " ++ whereabouts keys
  | repeated key .braces => "duplicate key `" ++ key ++ "`"
  | complete key => "duplicate key `" ++ key ++ "`"
  | taken path key =>
    "duplicate key `" ++ String.ofList (printPart key) ++ "` " ++ whereabouts path
  | blocked path kind =>
    "dotted key `" ++ dotted path ++ "` attempted to extend non-table type (" ++ kind.name ++ ")"

end Octet.Toml
