import BoundSql.Numeric.Shortest

/-!
# Reading numbers

Two readings of decimal text as binary64 numbers. `ofDecimal` rounds the decimal once, so the
result is the nearest number. `ofScaled` keeps a significand of sixty-four bits and scales it by
powers of ten in floating point, which may be off by a unit in the last place; JSON texts are
read that way.
-/

namespace BoundSql

/-! ### Digits -/

/-- The value of a decimal digit. -/
def digitValue (c : Char) : Nat := c.toNat - '0'.toNat

/-- The number that a row of digits writes; nothing writes zero. -/
def digitsValue (ds : List Char) : Nat := ds.foldl (fun n c => 10 * n + digitValue c) 0

/-- The value of a hexadecimal digit. -/
def hexValue? (c : Char) : Option Nat :=
  if c.isDigit then some (digitValue c)
  else if 'a' ≤ c ∧ c ≤ 'f' then some (c.toNat - 87)
  else if 'A' ≤ c ∧ c ≤ 'F' then some (c.toNat - 55)
  else none

/-- The leading digits of a text, and the rest. -/
def takeDigits (cs : List Char) : List Char × List Char :=
  (cs.takeWhile Char.isDigit, cs.dropWhile Char.isDigit)

theorem takeDigits_append (cs : List Char) : (takeDigits cs).1 ++ (takeDigits cs).2 = cs :=
  List.takeWhile_append_dropWhile

namespace Binary64

/-! ### Exact reading -/

/--
The number nearest to `digits * 10 ^ exponent`. A decimal of at least `1e310` is infinite and one
below `1e-330` is zero, whatever its digits.
-/
def ofDecimal (negative : Bool) (digits : Nat) (exponent : Int) : Binary64 :=
  let leading := exponent + (Nat.toDigits 10 digits).length
  if digits = 0 ∨ leading < -330 then zero negative
  else if 310 < leading then infinity negative
  else roundRatio negative (digits * Nat.pow 10 exponent.toNat) (Nat.pow 10 (-exponent).toNat)

/-- The sign in front of a number, and the rest. -/
def takeSign : List Char → Bool × List Char
  | '-' :: cs => (true, cs)
  | '+' :: cs => (false, cs)
  | cs => (false, cs)

/-- A fraction after a point, and the rest; without a point there is none. -/
def takeFraction : List Char → List Char × List Char
  | '.' :: cs => takeDigits cs
  | cs => ([], cs)

/-- The exponent that ends a number: nothing, or `e`, a sign and at least one digit. -/
def readExponent : List Char → Option Int
  | [] => some 0
  | c :: cs =>
    if c = 'e' ∨ c = 'E' then
      let (negative, digits) := takeSign cs
      if digits.isEmpty ∨ !digits.all Char.isDigit then none
      else some (if negative then -(digitsValue digits : Int) else digitsValue digits)
    else none

/--
Reads a number: a sign, then `inf`, `infinity` or `nan` in any case, or digits with at most one
point among or around them and an optional exponent.
-/
def read? (text : List Char) : Option Binary64 :=
  let (negative, body) := takeSign text
  let word := body.map Char.toLower
  if word = "inf".toList ∨ word = "infinity".toList then some (infinity negative)
  else if word = "nan".toList then some (if negative then nan.neg else nan)
  else
    let (whole, rest) := takeDigits body
    let (fraction, rest) := takeFraction rest
    if whole.isEmpty ∧ fraction.isEmpty then none
    else (readExponent rest).map fun e =>
      ofDecimal negative (digitsValue (whole ++ fraction)) (e - fraction.length)

/-! ### Stepwise scaling -/

/-- Divides by `1e308` while the exponent is below `-308`, then by the power that remains. -/
def scaleDown (x : Binary64) (places : Nat) : Binary64 :=
  if x.isZero then x
  else if places ≤ 308 then x.div (tenPow places)
  else scaleDown (x.div (tenPow 308)) (places - 308)
termination_by places

/-- `significand * 10 ^ exponent` by one product or quotients; nothing when it is infinite. -/
def ofScaled (negative : Bool) (significand : Nat) (exponent : Int) : Option Binary64 :=
  let x := roundRatio false significand 1
  let scaled :=
    if exponent < 0 then some (scaleDown x exponent.natAbs)
    else if exponent ≤ 308 then
      let product := x.mul (tenPow exponent.natAbs)
      if product.isInfinite then none else some product
    else if x.isZero then some x
    else none
  scaled.map fun y => if negative then y.neg else y

end Binary64

end BoundSql
