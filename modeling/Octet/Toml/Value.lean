import Octet.Scalar

/-!
# Values of a settings file

A settings file is a tree of tables. A table keeps its entries in the order in which they were
written, and remembers how it was made, since that decides what may be added to it later.

## Main definitions

* `Origin`, `Value`, `Table`.
* `Value.entries?`, `Value.items?`: the contents of tables and of arrays.
* `Found`, `Kind`: a value by its type, for messages.
-/

namespace Octet.Toml

/-- How a table was made. -/
inductive Origin
  /-- By a header of its own. -/
  | header
  /-- On the way to a table with a longer header. -/
  | implied
  /-- By dots in a key. -/
  | dotted
  /-- Between braces. -/
  | inline
  deriving DecidableEq, Repr

/-- A value. -/
inductive Value
  | string (text : String)
  | integer (n : Int)
  | float (x : Binary64)
  | boolean (b : Bool)
  /-- A date, a time of day, or both. -/
  | moment
  /-- Values between brackets. -/
  | array (items : List Value)
  | table (origin : Origin) (entries : List (String × Value))
  /-- Tables that share a header in double brackets. -/
  | tables (elements : List (List (String × Value)))

/-- The entries of a table. -/
abbrev Table := List (String × Value)

namespace Value

/-- The entries of a table. A moment is a table without any. -/
def entries? : Value → Option Table
  | table _ entries => some entries
  | moment => some []
  | _ => none

/-- The items of an array of either kind. -/
def items? : Value → Option (List Value)
  | array items => some items
  | tables elements => some (elements.map (table .header))
  | _ => none

end Value

/-- A value by its type. Tables and moments count as maps, arrays of both kinds as sequences. -/
inductive Found
  | string (text : String)
  | integer (n : Int)
  | float (x : Binary64)
  | boolean (b : Bool)
  | map
  | sequence
  deriving DecidableEq, Repr

/-- What a value is found to be. -/
def Value.found : Value → Found
  | string text => .string text
  | integer n => .integer n
  | float x => .float x
  | boolean b => .boolean b
  | moment => .map
  | array _ => .sequence
  | table .. => .map
  | tables _ => .sequence

/-- The types of values that can be written behind an equals sign. -/
inductive Kind
  | string
  | integer
  | float
  | boolean
  | moment
  | array
  | table
  deriving DecidableEq, Repr

/-- The type of a value. A table counts as one between braces. -/
def Value.kind : Value → Kind
  | string _ => .string
  | integer _ => .integer
  | float _ => .float
  | boolean _ => .boolean
  | moment => .moment
  | array _ => .array
  | table .. => .table
  | tables _ => .array

end Octet.Toml
