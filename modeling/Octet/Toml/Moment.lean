import Octet.Toml.Blank

/-!
# Dates and times

A date, a time of day, or a date with a time and perhaps an offset from universal time. No
setting holds one, so only the text after it is given.

## Main definitions

* `dropMoment?`: the text after a date, a time or both.
-/

namespace Octet.Toml

/-- The number that decimal digits spell, if they are digits. -/
def number? (digits : List Char) : Option Nat :=
  if digits.all Char.isDigit then some (Nat.ofDigitChars 10 digits 0) else none

/-- The number that digits spell, if it lies between two others. -/
def between? (low high : Nat) (digits : List Char) : Option Nat :=
  (number? digits).filter fun n => low ≤ n && n ≤ high

/-- The number of days of a month. -/
def daysIn (year month : Nat) : Nat :=
  if month = 2 then
    if year % 4 = 0 ∧ (year % 100 ≠ 0 ∨ year % 400 = 0) then 29 else 28
  else if month ∈ [4, 6, 9, 11] then 30
  else 31

/-- The text after a date. -/
def dropDate? : List Char → Option (List Char)
  | a :: b :: c :: d :: '-' :: e :: f :: '-' :: g :: h :: rest => do
    let year ← number? [a, b, c, d]
    let month ← between? 1 12 [e, f]
    let _ ← between? 1 (daysIn year month) [g, h]
    some rest
  | _ => none

/-- The text after the fraction of a second, if there is one. -/
def dropFraction : List Char → List Char
  | '.' :: c :: rest => if c.isDigit then rest.dropWhile Char.isDigit else '.' :: c :: rest
  | s => s

/-- The text after a time of day. A minute may have a leap second. -/
def dropTime? : List Char → Option (List Char)
  | a :: b :: ':' :: c :: d :: ':' :: e :: f :: rest => do
    let _ ← between? 0 23 [a, b]
    let _ ← between? 0 59 [c, d]
    let _ ← between? 0 60 [e, f]
    some (dropFraction rest)
  | _ => none

/-- The text after an offset from universal time, if there is one. -/
def dropOffset? : List Char → Option (List Char)
  | [] => some []
  | c :: rest =>
    if c = 'Z' || c = 'z' then some rest
    else if c = '+' || c = '-' then
      match rest with
      | a :: b :: ':' :: d :: e :: rest => do
        let _ ← between? 0 23 [a, b]
        let _ ← between? 0 59 [d, e]
        some rest
      | _ => none
    else some (c :: rest)

/-- The text after the time that belongs to a date, if there is one. -/
def dropTimeOfDate? : List Char → Option (List Char)
  | c :: rest =>
    if c = 'T' || c = 't' || c = ' ' then
      match dropTime? rest with
      | some rest => dropOffset? rest
      | none => some (c :: rest)
    else some (c :: rest)
  | [] => some []

/-- The text after a date, a time or both. -/
def dropMoment? (s : List Char) : Option (List Char) :=
  match dropDate? s with
  | some rest => dropTimeOfDate? rest
  | none => dropTime? s

end Octet.Toml
