import Octet.Scalar

/-!
# Decimal text of double-precision numbers

A decimal is rounded to the nearest double, a tie to the even pattern. A double is written with
the fewest digits that round back to it, in positional notation.

## Main definitions

* `Binary64.ofDecimal`: the double nearest to a decimal.
* `Binary64.text`: the shortest decimal of a double.
-/

namespace Octet

/-- The quotient rounded to the nearest number, a tie to the even one. -/
def roundDiv (num den : Nat) : Nat :=
  let q := num / den
  let twice := 2 * (num % den)
  if twice < den then q
  else if den < twice then q + 1
  else q + q % 2

/-- The fraction `num * base ^ exponent / den`, as numerator and denominator. -/
def scale (base : Nat) (exponent : Int) (num den : Nat) : Nat × Nat :=
  (num * base.pow exponent.toNat, den * base.pow (-exponent).toNat)

namespace Binary64

/-! ## Reading -/

/-- The bit pattern of positive infinity. -/
def infinity : Nat := 0x7ff0000000000000

/-- The bit of a pattern that says that a number is negative. -/
def signBit : Nat := 0x8000000000000000

/-- The leading bit of a mantissa, which a pattern leaves out. -/
def hiddenBit : Nat := 0x10000000000000

/-- The bit pattern nearest to a positive fraction. -/
def ofFraction (num den : Nat) : Nat :=
  let guess : Int := num.log2 - den.log2
  let (scaledNum, scaledDen) := scale 2 (-guess) num den
  let floorLog := if scaledDen ≤ scaledNum then guess else guess - 1
  let exponent := max (floorLog - 52) (-1074)
  let (scaledNum, scaledDen) := scale 2 (-exponent) num den
  min ((exponent + 1074).toNat * hiddenBit + roundDiv scaledNum scaledDen) infinity

/-- The double nearest to `digits * 10 ^ exponent`, with a sign. Decimals far beyond the range of
doubles are settled by their magnitude alone. -/
def ofDecimal (negative : Bool) (digits : Nat) (exponent : Int) : Binary64 :=
  let magnitude : Int := (Nat.toDigits 10 digits).length + exponent
  let pattern :=
    if digits = 0 ∨ magnitude < -400 then 0
    else if 400 < magnitude then infinity
    else
      let (num, den) := scale 10 exponent digits 1
      ofFraction num den
  ⟨UInt64.ofNat (pattern + if negative then signBit else 0)⟩

/-! ## Writing -/

/-- A count of units of a power of ten. -/
structure Decimal where
  digits : Nat
  exponent : Int

/-- The power of ten just below a positive fraction, as an exponent. -/
def floorLog10 (num den : Nat) : Int :=
  if den ≤ num then (Nat.toDigits 10 (num / den)).length - 1
  else
    let places := (Nat.toDigits 10 (den / num)).length
    if den ≤ num * Nat.pow 10 (places - 1) then -((places : Int) - 1) else -(places : Int)

/-- The decimal with the fewest digits that rounds to `mantissa * 2 ^ exponent`; of several, the
nearest. -/
def shortest (mantissa : Nat) (exponent : Int) : Decimal :=
  let (num, den) := scale 2 exponent (4 * mantissa) 4
  let below := if mantissa = hiddenBit ∧ -1074 < exponent then 1 else 2
  let low := (scale 2 exponent (4 * mantissa - below) 4).1
  let high := (scale 2 exponent (4 * mantissa + 2) 4).1
  let top := floorLog10 num den
  /- A candidate is compared with the interval of the numbers that round to the double. The ends
  belong to it if the mantissa is even. -/
  let candidate (count : Nat) : Option Decimal :=
    let unit := top - (count - 1)
    let (unitNum, unitDen) := scale 10 unit 1 1
    let value (digits : Nat) : Nat := digits * unitNum * den
    let hits (digits : Nat) : Bool :=
      if mantissa % 2 = 0 then
        low * unitDen ≤ value digits && value digits ≤ high * unitDen
      else
        low * unitDen < value digits && value digits < high * unitDen
    let floor := num * unitDen / (unitNum * den)
    let near := 2 * (num * unitDen) < value floor + value (floor + 1)
    let best := if near then floor else floor + 1
    let other := if near then floor + 1 else floor
    if hits best then some ⟨best, unit⟩
    else if hits other then some ⟨other, unit⟩
    else none
  ((List.range' 1 17).findSome? candidate).getD ⟨0, 0⟩

/-- A decimal in positional notation, with at least one digit after the point. -/
def Decimal.text (d : Decimal) : String :=
  let digits := Nat.toDigits 10 d.digits
  if 0 ≤ d.exponent then
    String.ofList (digits ++ List.replicate d.exponent.toNat '0') ++ ".0"
  else
    let places := (-d.exponent).toNat
    let digits := List.replicate (places + 1 - digits.length) '0' ++ digits
    let whole := digits.length - places
    let fraction := (digits.drop whole).reverse.dropWhile (· = '0')
    String.ofList (digits.take whole) ++ "." ++
      if fraction = [] then "0" else String.ofList fraction.reverse

/-- The text of a double. -/
def text (x : Binary64) : String :=
  let sign := if x.bits.toNat < signBit then "" else "-"
  let pattern := x.bits.toNat % signBit
  let field : Nat := pattern / hiddenBit
  let fraction : Nat := pattern % hiddenBit
  if infinity < pattern then "NaN"
  else if pattern = infinity then sign ++ "inf"
  else if pattern = 0 then sign ++ "0.0"
  else if field = 0 then sign ++ (shortest fraction (-1074)).text
  else sign ++ (shortest (fraction + hiddenBit) ((field : Int) - 1075)).text

end Binary64

end Octet
