import Octet.Text.Invisible

/-!
# Quoted text

A text between double quotes in which everything shows: quotes, backslashes and line ends are
escaped, and characters that show nothing are given by their number.

## Main definitions

* `quote`.
-/

namespace Octet.Text

/-- A character by its number. -/
def byNumber (c : Char) : String :=
  "\\u\x7b" ++ String.ofList (Nat.toDigits 16 c.toNat) ++ "\x7d"

def quoteChar (c : Char) : String :=
  if c = '\x00' then "\\0"
  else if c = '\t' then "\\t"
  else if c = '\n' then "\\n"
  else if c = '\r' then "\\r"
  else if c = '"' then "\\\""
  else if c = '\\' then "\\\\"
  else if c < ' ' || c = '\x7f' then byNumber c
  else if '\x7f' < c && isInvisible c then byNumber c
  else c.toString

/-- A text between double quotes. -/
def quote (text : String) : String :=
  "\"" ++ String.join (text.toList.map quoteChar) ++ "\""

end Octet.Text
