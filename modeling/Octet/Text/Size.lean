/-!
# Sizes in text

## Main definitions

* `size?`: reads a size.
-/

namespace Octet.Text

/-- Reads a size of 64 bits: decimal digits, perhaps after a plus sign. -/
def size? (text : String) : Option Nat :=
  let digits :=
    match text.toList with
    | '+' :: digits => digits
    | digits => digits
  if digits ≠ [] ∧ digits.all Char.isDigit then
    let n := Nat.ofDigitChars 10 digits 0
    if n < UInt64.size then some n else none
  else none

end Octet.Text
