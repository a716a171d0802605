/-!
# Blanks, comments and line ends

Readers work on a list of characters. One that can fail gives what it read together with the
characters after it.

## Main definitions

* `Parser`.
* `dropSpaces`, `lineEnd?`, `dropBlank`: between words, at the end of a line, between lines.
-/

namespace Octet.Toml

/-- A reader of the first part of a text. -/
abbrev Parser (α : Type) := List Char → Option (α × List Char)

def isSpace (c : Char) : Bool := c = ' ' || c = '\t'

/-- The characters that may stand in a comment: tabs and all that are no control characters of
ASCII. -/
def isPlain (c : Char) : Bool :=
  c = '\t' || (' ' ≤ c && c ≤ '~') || '\x7f' < c

def dropSpaces (s : List Char) : List Char := s.dropWhile isSpace

/-- The text after a line end. -/
def newline? : List Char → Option (List Char)
  | '\n' :: rest => some rest
  | '\r' :: '\n' :: rest => some rest
  | _ => none

/-- The text after a comment, if one starts here. -/
def dropComment : List Char → List Char
  | '#' :: rest => rest.dropWhile isPlain
  | s => s

/-- The text after the rest of a line that holds nothing more. -/
def lineEnd? (s : List Char) : Option (List Char) :=
  match dropComment (dropSpaces s) with
  | [] => some []
  | s => newline? s

/-- Passes over spaces, line ends and comments. `comment` is set in a comment. -/
def skipBlank (comment : Bool) : List Char → List Char
  | [] => []
  | '\n' :: rest => skipBlank false rest
  | '\r' :: '\n' :: rest => skipBlank false rest
  | c :: rest =>
    if comment then if isPlain c then skipBlank true rest else c :: rest
    else if isSpace c then skipBlank false rest
    else if c = '#' then skipBlank true rest
    else c :: rest

/-- The text after spaces, line ends and comments. -/
def dropBlank : List Char → List Char := skipBlank false

end Octet.Toml
