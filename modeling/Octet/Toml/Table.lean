import Octet.Toml.Flaw

/-!
# Growing tables

Entries are added under dotted keys and under headers. No key is defined twice, and a table that
is complete is not extended by other means than those that made it.

## Main definitions

* `Table.insert`: adds an entry under a dotted key.
* `Draft`: the tree read so far and the table to which entries are added now.
* `Draft.start`, `Draft.startElement`, `Draft.close`: headers.
-/

namespace Octet.Toml

namespace Table

/-- Changes the value of a key, which may be missing. A new entry goes to the end. -/
def alter (key : String) (change : Option Value → Except Clash Value) :
    Table → Except Clash Table
  | [] => do
    let value ← change none
    .ok [(key, value)]
  | (k, v) :: rest => do
    if k = key then
      let value ← change (some v)
      .ok ((k, value) :: rest)
    else
      let rest ← alter key change rest
      .ok ((k, v) :: rest)

/-- Changes the value that the first of several keys leads to. A clash behind it is told with that
key in front. -/
def step (key : String) (change : Option Value → Except Clash Value) :
    Table → Except Clash Table :=
  alter key fun value => (change value).mapError (Clash.under key)

/-- Changes the last of several tables. -/
def alterLast (change : Table → Except Clash Table) (elements : List Table) :
    Except Clash (List Table) :=
  match elements.getLast? with
  | some last => do
    let last ← change last
    .ok (elements.dropLast ++ [last])
  | none => .ok []

/-- Adds an entry under a dotted key. The tables on the way are made by dots as well; a table
with a header of its own is only entered through the last element of an array. Among the entries
between braces a table between braces is complete, elsewhere it counts as a value. -/
def insert (place : Place) (path : List String) (key : String) (value : Value) :
    Table → Except Clash Table :=
  match path with
  | [] => fun entries =>
    if entries.any (·.1 = key) then .error (.repeated key place)
    else .ok (entries ++ [(key, value)])
  | first :: path => step first fun
    | none => (insert place path key value []).map (.table .dotted)
    | some (.table .dotted entries) => (insert place path key value entries).map (.table .dotted)
    | some (.table .implied entries) =>
      if path = [] then .error (.complete key)
      else (insert place path key value entries).map (.table .implied)
    | some (.table .header _) => .error (.complete first)
    | some (.table .inline _) =>
      if place = .braces then .error (.complete first) else .error (.blocked [] .table)
    | some (.tables elements) =>
      if path = [] then .error (.complete key)
      else (alterLast (insert place path key value) elements).map .tables
    | some value => .error (.blocked [] value.kind)

/-- Changes the table that the first keys of a header lead to. Tables that are missing on the way
are implied. -/
def within (path : List String) (change : Table → Except Clash Table) :
    Table → Except Clash Table :=
  match path with
  | [] => change
  | first :: path => step first fun
    | none => (within path change []).map (.table .implied)
    | some (.table origin entries) =>
      if origin = .inline then .error (.blocked [] .table)
      else (within path change entries).map (.table origin)
    | some (.tables elements) => (alterLast (within path change) elements).map .tables
    | some value => .error (.blocked [] value.kind)

/-- The table that the first keys of a header lead to, if it is there. -/
def find? (path : List String) (entries : Table) : Option Table :=
  match path with
  | [] => some entries
  | first :: path =>
    match entries.lookup first with
    | some (.table _ entries) => find? path entries
    | some (.tables elements) => elements.getLast?.bind (find? path)
    | _ => none

end Table

/-- The header under which entries are collected. -/
inductive Heading
  /-- None yet: entries belong to the root. -/
  | root
  | table (path : List String) (key : String)
  /-- A further table of an array. -/
  | element (path : List String) (key : String)

/-- The keys of a header. -/
def Heading.keys : Heading → List String
  | root => []
  | table path key => path ++ [key]
  | element path key => path ++ [key]

/-- What has been read of a file. The table under the last header is kept apart until the next
header. -/
structure Draft where
  root : Table := []
  heading : Heading := .root
  entries : Table := []

namespace Draft

/-- Adds an entry under the last header. -/
def insert (path : List String) (key : String) (value : Value) (d : Draft) :
    Except Clash Draft := do
  let entries ← d.entries.insert (.heading d.heading.keys) path key value
  .ok { d with entries }

/-- Puts the table under the last header into the tree. -/
def close (d : Draft) : Except Clash Table :=
  match d.heading with
  | .root => .ok d.entries
  | .table path key =>
    Table.within path (Table.alter key fun
      | none => .ok (.table .header d.entries)
      | some _ => .error (.taken path key)) d.root
  | .element path key =>
    Table.within path (Table.alter key fun
      | some (.tables elements) => .ok (.tables (elements ++ [d.entries]))
      | _ => .error (.taken path key)) d.root

/-- Starts the table of a header. One that longer headers have implied is taken over with its
entries and moves to the end. -/
def start (path : List String) (key : String) (d : Draft) : Except Clash Draft := do
  let root ← d.close
  let root ← Table.within path .ok root
  match (Table.find? path root).bind (·.lookup key) with
  | none => .ok ⟨root, .table path key, []⟩
  | some (.table .implied entries) =>
    let root ← Table.within path (fun t => .ok (t.filter (·.1 ≠ key))) root
    .ok ⟨root, .table path key, entries⟩
  | some _ => .error (.taken path key)

/-- Starts a further table of an array. -/
def startElement (path : List String) (key : String) (d : Draft) : Except Clash Draft := do
  let root ← d.close
  let root ← Table.within path (Table.alter key fun
    | none => .ok (.tables [])
    | some (.tables elements) => .ok (.tables elements)
    | some _ => .error (.taken path key)) root
  .ok ⟨root, .element path key, []⟩

end Draft

end Octet.Toml
