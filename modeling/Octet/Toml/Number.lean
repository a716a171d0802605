import Octet.Decimal
import Octet.Toml.Text
import Octet.Toml.Value

/-!
# Numbers and truth values

Integers are decimal with an optional sign, or hexadecimal, octal or binary without one, and fit
into 64 bits with a sign. Between two digits there may be one underscore.

## Main definitions

* `digitRun`: reads digits.
* `integer`, `float`, `boolean`.
-/

namespace Octet.Toml

/-- The digits at the start of a text, without the underscores between them. -/
def digitRun (isDigit : Char → Bool) : List Char → List Char × List Char
  | [] => ([], [])
  | '_' :: s => ([], '_' :: s)
  | c :: '_' :: d :: rest =>
    if isDigit c then
      if isDigit d then
        let (digits, rest) := digitRun isDigit (d :: rest)
        (c :: digits, rest)
      else ([c], '_' :: d :: rest)
    else ([], c :: '_' :: d :: rest)
  | c :: rest =>
    if isDigit c then
      let (digits, rest) := digitRun isDigit rest
      (c :: digits, rest)
    else ([], c :: rest)

/-- Reads at least one digit. -/
def digits1 (isDigit : Char → Bool) (s : List Char) : Option (List Char × List Char) :=
  match digitRun isDigit s with
  | ([], _) => none
  | read => some read

/-- Reads a sign, if there is one; true stands for minus. -/
def sign : List Char → Option Bool × List Char
  | '+' :: rest => (some false, rest)
  | '-' :: rest => (some true, rest)
  | s => (none, s)

/-- Reads decimal digits without a leading zero. -/
def decimalDigits : Parser (List Char)
  | '0' :: rest => some (['0'], rest)
  | s => digits1 Char.isDigit s

/-- The number that digits spell to a base. -/
def ofDigits (base : Nat) (digits : List Char) : Nat :=
  digits.foldl (fun n c => base * n + (hexDigit? c).getD 0) 0

/-- Reads digits to a base other than ten. -/
def radixDigits (base : Nat) (s : List Char) : Option (Int × List Char) := do
  let (digits, rest) ← digits1 (fun c => (hexDigit? c).any (· < base)) s
  some (ofDigits base digits, rest)

/-- Reads a decimal integer. -/
def decimalInteger (s : List Char) : Option (Int × List Char) := do
  let (negative, s) := sign s
  let (digits, rest) ← decimalDigits s
  let n : Int := Nat.ofDigitChars 10 digits 0
  some (if negative = some true then -n else n, rest)

/-- Reads an integer. -/
def integer (s : List Char) : Option (Int × List Char) := do
  let (n, rest) ←
    match s with
    | '0' :: 'x' :: rest => radixDigits 16 rest
    | '0' :: 'o' :: rest => radixDigits 8 rest
    | '0' :: 'b' :: rest => radixDigits 2 rest
    | s => decimalInteger s
  if Int64.minValue.toInt ≤ n ∧ n ≤ Int64.maxValue.toInt then some (n, rest) else none

/-- Reads the digits after a point, if there is one. -/
def fraction : Parser (List Char)
  | '.' :: rest => digits1 Char.isDigit rest
  | s => some ([], s)

/-- Reads an exponent, if there is one. -/
def exponent : Parser (Option Int)
  | c :: rest =>
    if c = 'e' || c = 'E' then do
      let (negative, s) := sign rest
      let (digits, rest) ← digits1 Char.isDigit s
      let n : Int := Nat.ofDigitChars 10 digits 0
      some (some (if negative = some true then -n else n), rest)
    else some (none, c :: rest)
  | [] => some (none, [])

/-- Reads a number with a fraction, an exponent or both. One that rounds to positive infinity is
refused. -/
def finiteFloat (negative : Bool) (s : List Char) : Option (Binary64 × List Char) := do
  let (whole, s) ← decimalDigits s
  let (places, s) ← fraction s
  let (power, rest) ← exponent s
  if places = [] ∧ power = none then none
  else
    let digits := Nat.ofDigitChars 10 (whole ++ places) 0
    let x := Binary64.ofDecimal negative digits (power.getD 0 - places.length)
    if x.bits.toNat = Binary64.infinity then none else some (x, rest)

/-- Reads a floating-point number. -/
def float (s : List Char) : Option (Binary64 × List Char) :=
  let (negative, s) := sign s
  let negative := negative = some true
  let signBit := if negative then Binary64.signBit else 0
  match s with
  | 'i' :: 'n' :: 'f' :: rest => some (⟨UInt64.ofNat (Binary64.infinity + signBit)⟩, rest)
  | 'n' :: 'a' :: 'n' :: rest =>
    some (⟨UInt64.ofNat (Binary64.infinity + Binary64.hiddenBit / 2 + signBit)⟩, rest)
  | s => finiteFloat negative s

/-- Reads a truth value. -/
def boolean : Parser Bool
  | 't' :: 'r' :: 'u' :: 'e' :: rest => some (true, rest)
  | 'f' :: 'a' :: 'l' :: 's' :: 'e' :: rest => some (false, rest)
  | _ => none

end Octet.Toml
