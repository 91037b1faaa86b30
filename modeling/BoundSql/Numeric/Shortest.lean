import BoundSql.Numeric.Binary64

/-!
# The fewest digits that read back

A finite positive binary64 number stands for the interval of reals that round to it. `shortest`
finds the decimal of fewest digits in that interval, and of those the nearest to the number. The
search compares naturals only.
-/

namespace BoundSql

/-- The number `digits * 10 ^ exponent`. -/
structure Decimal where
  digits : Nat
  exponent : Int
deriving DecidableEq

/-- Where an exact tie between two neighbouring decimals goes. -/
inductive TieRule where
  | up
  | toEven
deriving DecidableEq

namespace Binary64

/-- Compares `a * 10 ^ i` with `n * 2 ^ j`. -/
def compareScaled (a : Nat) (i : Int) (n : Nat) (j : Int) : Ordering :=
  compare (a * Nat.pow 10 i.toNat * Nat.pow 2 (-j).toNat)
    (n * Nat.pow 2 j.toNat * Nat.pow 10 (-i).toNat)

/-- The gap below a power of two is half the gap above it. -/
def narrowBelow (x : Binary64) : Bool := x.fraction == 0 && 1 < x.exponentField

/--
A decimal lies among the reals that round to `x`. The ends are halfway to the neighbours and
belong to the interval when the significand is even.
-/
def readsBack (x : Binary64) (d : Decimal) : Bool :=
  let low := if x.narrowBelow then 4 * x.significand - 1 else 4 * x.significand - 2
  let high := 4 * x.significand + 2
  let closed := x.significand % 2 == 0
  let below := compareScaled d.digits d.exponent low (x.scale - 2)
  let above := compareScaled d.digits d.exponent high (x.scale - 2)
  (below == .gt || closed && below == .eq) && (above == .lt || closed && above == .eq)

/-- The least `k` from `start` on with `x < 10 ^ k`, looking at `fuel` candidates. -/
def decimalScaleFrom (x : Binary64) (start : Int) : Nat → Int
  | 0 => start
  | fuel + 1 =>
    if compareScaled 1 start x.significand x.scale == .gt then start
    else decimalScaleFrom x (start + 1) fuel

/-- The least `k` with `x < 10 ^ k`, for a positive number; `30103 / 100000` bounds `log 2` above. -/
def decimalScale (x : Binary64) : Int :=
  let binary : Int := (x.significand.log2 : Int) + x.scale
  decimalScaleFrom x (binary * 30103 / 100000 - 1) 5

/-- The integer part of `x / 10 ^ grid`. -/
def floorOnGrid (x : Binary64) (grid : Int) : Nat :=
  (x.significand * Nat.pow 2 x.scale.toNat * Nat.pow 10 (-grid).toNat)
    / (Nat.pow 2 (-x.scale).toNat * Nat.pow 10 grid.toNat)

/-- The better of the two neighbours of `x` on a decimal grid, if one reads back. -/
def onGrid (tie : TieRule) (x : Binary64) (grid : Int) : Option Decimal :=
  let low := floorOnGrid x grid
  let below : Decimal := ⟨low, grid⟩
  let above : Decimal := ⟨low + 1, grid⟩
  match x.readsBack below, x.readsBack above with
  | false, false => none
  | true, false => some below
  | false, true => some above
  | true, true =>
    match compareScaled (2 * low + 1) grid (2 * x.significand) x.scale with
    | .gt => some below
    | .lt => some above
    | .eq =>
      match tie with
      | .up => some above
      | .toEven => some (if low % 2 = 0 then below else above)

/-- Moves trailing zeros of the digits into the exponent, at most `fuel` of them. -/
def stripZeros (d : Decimal) : Nat → Decimal
  | 0 => d
  | fuel + 1 =>
    if d.digits ≠ 0 ∧ d.digits % 10 = 0 then stripZeros ⟨d.digits / 10, d.exponent + 1⟩ fuel else d

/-- The first grid of `count` further ones that has a decimal reading back. -/
def searchGrids (tie : TieRule) (x : Binary64) (grid : Int) : Nat → Option Decimal
  | 0 => none
  | count + 1 =>
    match onGrid tie x grid with
    | some d => some d
    | none => searchGrids tie x (grid - 1) count

/-- The exact decimal value, whose digits end where the binary fraction does. -/
def exactDecimal (x : Binary64) : Decimal :=
  ⟨x.significand * Nat.pow 2 x.scale.toNat * Nat.pow 5 (-x.scale).toNat,
    -((-x.scale).toNat : Int)⟩

/--
The decimal of fewest digits that rounds to a positive finite number, the nearest of those.
Seventeen digits always suffice.
-/
def shortest (tie : TieRule) (x : Binary64) : Decimal :=
  let found := searchGrids tie x (x.decimalScale - 1) 17
  stripZeros (found.getD x.exactDecimal) 400

end Binary64

end BoundSql
