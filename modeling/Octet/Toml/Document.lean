import Octet.Toml.Moment
import Octet.Toml.Number
import Octet.Toml.Table

/-!
# Reading settings files

Of several flaws the first one counts. The entries between braces are first read, up to where no
further entry follows, and then put together.

## Main definitions

* `key?`, `entries`, `value`: keys, the entries between braces, and values.
* `parse`: reads a whole file.
-/

namespace Octet.Toml

/-- Brackets, braces and dots may not be nested as deep as this. -/
def nestingLimit : Nat := 80

/-! ## Keys -/

/-- Reads a key, as the parts before the last one and the last one. Where none begins there is
none, and one with too many parts does not count. A key has no more parts than its line has
characters. -/
def key? (s : List Char) : Except Flaw (Option ((List String × String) × List Char)) := do
  if beginsKey (dropSpaces s) then
    let (parts, rest) ← expect (keyParts (s.takeWhile (· ≠ '\n')).length s)
    match parts.getLast? with
    | some last =>
      if parts.length < nestingLimit then .ok (some ((parts.dropLast, last), rest)) else .ok none
    | none => .ok none
  else .ok none

/-- Reads a key that has to be there. -/
def key : Scan (List String × String) := fun s => do expect (← key? s)

/-! ## Values -/

/-- Reads the items of an array up to the closing bracket. -/
def items (item : Scan Value) : Nat → Scan (List Value)
  | 0, _ => .error .grammar
  | fuel + 1, s =>
    match dropBlank s with
    | ']' :: rest => .ok ([], rest)
    | s => do
      let (first, s) ← item s
      match dropBlank s with
      | ',' :: rest =>
        let (others, rest) ← items item fuel rest
        .ok (first :: others, rest)
      | ']' :: rest => .ok ([first], rest)
      | _ => .error .grammar

/-- Reads an equals sign and a value. -/
def assigned (item : Scan Value) : Scan Value
  | '=' :: rest => item (dropSpaces rest)
  | _ => .error .grammar

/-- Reads the entries of a table between braces. A comma behind which there is no entry is left. -/
def entries (item : Scan Value) : Nat → Scan (List (List String × String × Value))
  | 0, _ => .error .grammar
  | fuel + 1, s => do
    match ← key? s with
    | none => .ok ([], s)
    | some ((path, key), s) =>
      let (value, s) ← assigned item s
      match dropSpaces s with
      | ',' :: rest =>
        let (others, s) ← entries item fuel rest
        .ok ((path, key, value) :: others, if others.isEmpty then ',' :: rest else s)
      | s => .ok ([(path, key, value)], s)

/-- Puts the entries of a table between braces together. -/
def collect (entries : List (List String × String × Value)) : Except Flaw Table :=
  (entries.foldlM (fun table (path, key, value) => Table.insert .braces path key value table)
    []).mapError .clash

/-- Reads a value that is neither an array nor a table. -/
def atom (s : List Char) : Option (Value × List Char) :=
  match s with
  | '"' :: _ | '\'' :: _ => (string s).map fun (text, rest) => (.string text, rest)
  | 't' :: _ | 'f' :: _ => (boolean s).map fun (b, rest) => (.boolean b, rest)
  | s =>
    match dropMoment? s with
    | some rest => some (.moment, rest)
    | none =>
      match float s with
      | some (x, rest) => some (.float x, rest)
      | none => (integer s).map fun (n, rest) => (.integer n, rest)

/-- Reads a value in which arrays and tables are nested at most `depth` deep. -/
def value (depth : Nat) (s : List Char) : Except Flaw (Value × List Char) :=
  match depth, s with
  | depth + 1, '[' :: rest => do
    let (items, rest) ← items (value depth) rest.length rest
    .ok (.array items, rest)
  | depth + 1, '\x7b' :: rest => do
    let (entries, rest) ← entries (value depth) (rest.length + 1) rest
    let table ← collect entries
    match dropSpaces rest with
    | '\x7d' :: rest => .ok (.table .inline table, rest)
    | _ => .error .grammar
  | 0, '[' :: _ | 0, '\x7b' :: _ => .error .grammar
  | _, s => expect (atom s)

/-! ## Lines -/

/-- The text after the closing brackets of a header, which end its line. -/
def headerEnd? : List Char → List Char → Option (List Char)
  | [], s => lineEnd? s
  | bracket :: brackets, c :: s => if c = bracket then headerEnd? brackets s else none
  | _, [] => none

/-- Reads one line that is not blank: a header or an entry. -/
def line (d : Draft) (s : List Char) : Except Flaw (Draft × List Char) :=
  match s with
  | '[' :: '[' :: rest => do
    let ((path, key), rest) ← key rest
    let rest ← expect (headerEnd? [']', ']'] rest)
    let d ← (d.startElement path key).mapError .clash
    .ok (d, rest)
  | '[' :: rest => do
    let ((path, key), rest) ← key rest
    let rest ← expect (headerEnd? [']'] rest)
    let d ← (d.start path key).mapError .clash
    .ok (d, rest)
  | s => do
    let ((path, key), rest) ← key s
    let (value, rest) ← assigned (value (nestingLimit - 1)) rest
    let rest ← expect (lineEnd? rest)
    let d ← (d.insert path key value).mapError .clash
    .ok (d, rest)

/-- Reads lines to the end of the text. -/
def lines : Nat → Draft → List Char → Except Flaw Draft
  | 0, _, _ => .error .grammar
  | fuel + 1, d, s =>
    match dropBlank s with
    | [] => .ok d
    | s => do
      let (d, rest) ← line d s
      lines fuel d rest

/-- Reads a file. A byte order mark in front does not count. -/
def parse (text : String) : Except Flaw Table := do
  let s :=
    match text.toList with
    | '\ufeff' :: rest => rest
    | s => s
  let d ← lines (s.length + 1) {} s
  d.close.mapError .clash

end Octet.Toml
