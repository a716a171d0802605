import Octet.Toml.Text

/-!
# Keys

A key has one part or several with dots between them. A part that consists of letters, digits,
underscores and hyphens needs no quotes.

## Main definitions

* `beginsKey`, `keyParts`: where a key begins, and its parts.
* `printPart`: writes a part on a single line.
-/

namespace Octet.Toml

def isBare (c : Char) : Bool := c.isAlphanum || c = '_' || c = '-'

/-- Whether a key begins here. -/
def beginsKey : List Char → Bool
  | [] => false
  | c :: _ => isBare c || c = '"' || c = '\''

/-- Reads one part of a key. -/
def keyPart (s : List Char) : Option (String × List Char) :=
  match s.takeWhile isBare with
  | [] => word s
  | name => some (String.ofList name, s.dropWhile isBare)

/-- Reads the parts of a key, between dots and amid spaces. -/
def keyParts : Nat → Parser (List String)
  | 0, _ => none
  | fuel + 1, s => do
    let (part, s) ← keyPart (dropSpaces s)
    match dropSpaces s with
    | '.' :: rest =>
      let (parts, rest) ← keyParts fuel rest
      some (part :: parts, rest)
    | rest => some ([part], rest)

/-- Writes a part of a key, between double quotes if it needs any. -/
def printPart (part : String) : List Char :=
  let s := part.toList
  if !s.isEmpty && s.all isBare then s else '"' :: escapeAll false 0 s ++ ['"']

end Octet.Toml
