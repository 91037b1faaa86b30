/-!
# Binary64 numbers

A binary64 number is its 64 bits: a sign, eleven bits of exponent and fifty-two of fraction.
Arithmetic is exact arithmetic of naturals followed by one rounding, `roundRatio`, which takes
the nearest representable number and, halfway between two, the one with an even significand.
-/

namespace BoundSql

/-- A binary64 number, held as its bits. -/
structure Binary64 where
  bits : UInt64
deriving DecidableEq, Inhabited

namespace Binary64

/-! ### Fields and classes -/

/-- The sign bit. -/
def isNegative (x : Binary64) : Bool := x.bits.toNat / Nat.pow 2 63 == 1

/-- The eleven bits of biased exponent. -/
def exponentField (x : Binary64) : Nat := x.bits.toNat / Nat.pow 2 52 % Nat.pow 2 11

/-- The fifty-two bits of fraction. -/
def fraction (x : Binary64) : Nat := x.bits.toNat % Nat.pow 2 52

/-- The exponent field is not all ones (infinities and NaNs). -/
def isFinite (x : Binary64) : Bool := x.exponentField < 2047

def isNaN (x : Binary64) : Bool := x.exponentField == 2047 && x.fraction != 0

def isInfinite (x : Binary64) : Bool := x.exponentField == 2047 && x.fraction == 0

def isZero (x : Binary64) : Bool := x.exponentField == 0 && x.fraction == 0

/-- Equality of numbers: a NaN differs from everything, and the two zeros are equal. -/
def same (x y : Binary64) : Bool :=
  !x.isNaN && !y.isNaN && (x == y || x.isZero && y.isZero)

/-! ### The number behind the bits -/

/-- The integer significand of a finite number. -/
def significand (x : Binary64) : Nat :=
  if x.exponentField = 0 then x.fraction else Nat.pow 2 52 + x.fraction

/-- The power of two that scales `significand`. -/
def scale (x : Binary64) : Int :=
  if x.exponentField = 0 then -1074 else (x.exponentField : Int) - 1075

/-! ### Building numbers -/

/-- The number with a given sign and a magnitude below `2 ^ 63`. -/
def ofMagnitude (negative : Bool) (magnitude : Nat) : Binary64 :=
  ⟨UInt64.ofNat ((if negative then Nat.pow 2 63 else 0) + magnitude)⟩

def zero (negative : Bool) : Binary64 := ofMagnitude negative 0

def infinity (negative : Bool) : Binary64 := ofMagnitude negative (2047 * Nat.pow 2 52)

def nan : Binary64 := ofMagnitude false (2047 * Nat.pow 2 52 + Nat.pow 2 51)

/-- The same number with the opposite sign. -/
def neg (x : Binary64) : Binary64 :=
  ofMagnitude (!x.isNegative) (x.bits.toNat % Nat.pow 2 63)

/-- The exponent `e` with `2 ^ e ≤ num / den < 2 ^ (e + 1)`, for a positive quotient. -/
def floorLog (num den : Nat) : Int :=
  let e : Int := (num.log2 : Int) - den.log2
  if den * Nat.pow 2 e.toNat ≤ num * Nat.pow 2 (-e).toNat then e else e - 1

/-- The nearest integer to `num / den`; a half goes to the even one. -/
def nearest (num den : Nat) : Nat :=
  let q := num / den
  let twice := 2 * (num % den)
  if twice < den then q
  else if den < twice then q + 1
  else q + q % 2

/--
The binary64 number nearest to `num / den`, infinite from half a unit above the largest finite
one. The unit is `2 ^ u`, where `u` is chosen so that the significand has fifty-three bits, but
never below the least exponent.
-/
def roundRatio (negative : Bool) (num den : Nat) : Binary64 :=
  if num = 0 ∨ den = 0 then zero negative
  else
    let u := max (floorLog num den - 52) (-1074)
    let m := nearest (num * Nat.pow 2 (-u).toNat) (den * Nat.pow 2 u.toNat)
    let magnitude := (u + 1074).toNat * Nat.pow 2 52 + m
    if magnitude < 2047 * Nat.pow 2 52 then ofMagnitude negative magnitude else infinity negative

/-- The number nearest to an integer. -/
def ofInt (n : Int) : Binary64 := roundRatio (n < 0) n.natAbs 1

/-- The rounded product of two finite numbers. -/
def mul (x y : Binary64) : Binary64 :=
  let u := x.scale + y.scale
  roundRatio (x.isNegative != y.isNegative)
    (x.significand * y.significand * Nat.pow 2 u.toNat) (Nat.pow 2 (-u).toNat)

/-- The rounded quotient of two finite numbers, the second of them not zero. -/
def div (x y : Binary64) : Binary64 :=
  let u := x.scale - y.scale
  roundRatio (x.isNegative != y.isNegative)
    (x.significand * Nat.pow 2 u.toNat) (y.significand * Nat.pow 2 (-u).toNat)

/-- The number nearest to ten to a natural power. -/
def tenPow (n : Nat) : Binary64 := roundRatio false (Nat.pow 10 n) 1

end Binary64

end BoundSql
