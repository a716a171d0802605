import Octet.Toml.Key
import Octet.Toml.Schema

/-!
# Writing settings files

## Main definitions

* `printDocument`: the text of a document.
-/

namespace Octet.Toml

def Atom.print : Atom → List Char
  | string text => printString text
  | number n => Nat.toDigits 10 n
  | boolean b => (toString b).toList

/-- An entry on a line of its own. -/
def printEntry (entry : String × Atom) : List Char :=
  printPart entry.1 ++ " = ".toList ++ entry.2.print ++ ['\n']

def printSection (header : String) (entries : Section) : List Char :=
  '[' :: printPart header ++ "]\n".toList ++ entries.flatMap printEntry

/-- Sections with an empty line between any two. -/
def printDocument : Document → List Char
  | [] => []
  | [(header, entries)] => printSection header entries
  | (header, entries) :: doc => printSection header entries ++ '\n' :: printDocument doc

end Octet.Toml
