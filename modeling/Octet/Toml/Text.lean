import Octet.Toml.Blank

/-!
# Strings

A string is written between single or double quotes, or between three of them if it may run over
several lines. Only between double quotes does a backslash start an escape.

## Main definitions

* `string`: reads a string of any of the four forms, `word` one of a single line.
* `printString`: writes a string in the form that needs the fewest escapes.
-/

namespace Octet.Toml

/-! ## Reading -/

/-- The value of a hexadecimal digit. -/
def hexDigit? (c : Char) : Option Nat :=
  if c.isDigit then some (c.toNat - '0'.toNat)
  else if 'a' ≤ c && c ≤ 'f' then some (c.toNat - 'a'.toNat + 10)
  else if 'A' ≤ c && c ≤ 'F' then some (c.toNat - 'A'.toNat + 10)
  else none

/-- The character that hexadecimal digits number, if there is one. -/
def numbered? (digits : List Char) : Option Char := do
  let values ← digits.mapM hexDigit?
  let code := values.foldl (fun n d => 16 * n + d) 0
  if code.isValidChar then some (Char.ofNat code) else none

/-- The character that a letter after a backslash stands for. -/
def escaped? : Char → Option Char
  | 'b' => some '\x08'
  | 't' => some '\t'
  | 'n' => some '\n'
  | 'f' => some '\x0c'
  | 'r' => some '\r'
  | '"' => some '"'
  | '\\' => some '\\'
  | _ => none

/-- Puts a character, if there is one, in front of what was read. -/
def push? (c : Option Char) (read : Option (List Char × List Char)) :
    Option (List Char × List Char) := do
  let c ← c
  let (text, rest) ← read
  some (c :: text, rest)

/-- The rest of a string between double quotes. -/
def basic : Parser (List Char)
  | [] => none
  | '"' :: rest => some ([], rest)
  | '\\' :: 'u' :: a :: b :: c :: d :: rest => push? (numbered? [a, b, c, d]) (basic rest)
  | '\\' :: 'U' :: a :: b :: c :: d :: e :: f :: g :: h :: rest =>
    push? (numbered? [a, b, c, d, e, f, g, h]) (basic rest)
  | '\\' :: c :: rest => push? (escaped? c) (basic rest)
  | c :: rest => if isPlain c then push? c (basic rest) else none

/-- The rest of a string between three double quotes. After a backslash at the end of a line,
`trim` is set and blanks are passed over. A run of quotes ends the string with its last three. -/
def multilineBasic (trim : Bool) : Parser (List Char)
  | [] => none
  | '"' :: '"' :: '"' :: '"' :: '"' :: rest => some (['"', '"'], rest)
  | '"' :: '"' :: '"' :: '"' :: rest => some (['"'], rest)
  | '"' :: '"' :: '"' :: rest => some ([], rest)
  | '\\' :: 'u' :: a :: b :: c :: d :: rest =>
    push? (numbered? [a, b, c, d]) (multilineBasic false rest)
  | '\\' :: 'U' :: a :: b :: c :: d :: e :: f :: g :: h :: rest =>
    push? (numbered? [a, b, c, d, e, f, g, h]) (multilineBasic false rest)
  | '\\' :: c :: rest =>
    if (newline? (dropSpaces (c :: rest))).isSome then multilineBasic true (c :: rest)
    else push? (escaped? c) (multilineBasic false rest)
  | '\n' :: rest =>
    if trim then multilineBasic true rest else push? '\n' (multilineBasic false rest)
  | '\r' :: '\n' :: rest =>
    if trim then multilineBasic true rest else push? '\n' (multilineBasic false rest)
  | c :: rest =>
    if trim && isSpace c then multilineBasic true rest
    else if isPlain c then push? c (multilineBasic false rest)
    else none

/-- The rest of a string between single quotes. -/
def literal : Parser (List Char)
  | [] => none
  | '\'' :: rest => some ([], rest)
  | c :: rest => if isPlain c then push? c (literal rest) else none

/-- The rest of a string between three single quotes. -/
def multilineLiteral : Parser (List Char)
  | [] => none
  | '\'' :: '\'' :: '\'' :: '\'' :: '\'' :: rest => some (['\'', '\''], rest)
  | '\'' :: '\'' :: '\'' :: '\'' :: rest => some (['\''], rest)
  | '\'' :: '\'' :: '\'' :: rest => some ([], rest)
  | '\n' :: rest => push? '\n' (multilineLiteral rest)
  | '\r' :: '\n' :: rest => push? '\n' (multilineLiteral rest)
  | c :: rest => if isPlain c then push? c (multilineLiteral rest) else none

/-- The text after a line end right behind the opening quotes, which does not count. -/
def dropFirstLineEnd (s : List Char) : List Char := (newline? s).getD s

/-- Turns the characters of a reader into a string. -/
def asString (read : Option (List Char × List Char)) : Option (String × List Char) :=
  read.map fun (text, rest) => (String.ofList text, rest)

/-- Reads a string on a single line. -/
def word : Parser String
  | '"' :: rest => asString (basic rest)
  | '\'' :: rest => asString (literal rest)
  | _ => none

/-- Reads a string. -/
def string : Parser String
  | '"' :: '"' :: '"' :: rest => asString (multilineBasic false (dropFirstLineEnd rest))
  | '\'' :: '\'' :: '\'' :: rest => asString (multilineLiteral (dropFirstLineEnd rest))
  | s => word s

/-! ## Writing -/

/-- Whether a character occurs three times in a row. -/
def hasTriple (c : Char) : List Char → Bool
  | x :: y :: z :: rest => (x = c && y = c && z = c) || hasTriple c (y :: z :: rest)
  | _ => false

/-- Whether a character has to be escaped between double quotes and cannot stand between single
ones. -/
def isControl (c : Char) : Bool := !isPlain c && c != '\n'

/-- The four last hexadecimal digits of a character's number, in upper case. -/
def escapeDigits (c : Char) : List Char :=
  let digits := (Nat.toDigits 16 c.toNat).map Char.toUpper
  List.replicate (4 - digits.length) '0' ++ digits

/-- A character other than a double quote, between double quotes. -/
def escape (multiline : Bool) (c : Char) : List Char :=
  if c = '\n' then if multiline then ['\n'] else ['\\', 'n']
  else if c = '\x08' then ['\\', 'b']
  else if c = '\t' then ['\\', 't']
  else if c = '\x0c' then ['\\', 'f']
  else if c = '\r' then ['\\', 'r']
  else if c = '\\' then ['\\', '\\']
  else if isPlain c then [c]
  else '\\' :: 'u' :: escapeDigits c

/-- A text between double quotes, `run` of which stand in front of it. Between three quotes, two
in a row need no escape. -/
def escapeAll (multiline : Bool) (run : Nat) : List Char → List Char
  | [] => []
  | c :: rest =>
    if c = '"' then
      if multiline && run < 2 then '"' :: escapeAll multiline (run + 1) rest
      else '\\' :: '"' :: escapeAll multiline 0 rest
    else escape multiline c ++ escapeAll multiline 0 rest

/-- The forms of a written string. -/
inductive Form
  | basic | literal | multilineBasic | multilineLiteral
  deriving DecidableEq, Repr

/-- The first form in which a text needs no escapes; if there is none, double quotes. -/
def formOf (s : List Char) : Form :=
  let control := s.any isControl
  let multiline := s.contains '\n'
  if !control && !s.contains '\\' && !s.contains '"' && !multiline then .basic
  else if !control && !s.contains '\'' && !multiline then .literal
  else if !control && !s.contains '\\' && !hasTriple '"' s then .multilineBasic
  else if !control && !hasTriple '\'' s then .multilineLiteral
  else if multiline then .multilineBasic
  else .basic

/-- Writes a string. Between three quotes, a text of several lines starts on a line of its
own. -/
def printString (text : String) : List Char :=
  let s := text.toList
  let start := if s.contains '\n' then ['\n'] else []
  match formOf s with
  | .basic => '"' :: escapeAll false 0 s ++ ['"']
  | .literal => '\'' :: s ++ ['\'']
  | .multilineBasic => "\"\"\"".toList ++ start ++ escapeAll true 0 s ++ "\"\"\"".toList
  | .multilineLiteral => "'''".toList ++ start ++ s ++ "'''".toList

end Octet.Toml
