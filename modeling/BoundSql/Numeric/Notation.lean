import BoundSql.Numeric.Shortest

/-!
# Writing binary64 numbers

A `NumberFormat` says how the shortest digits of a number are laid out. The two formats of this
library are `NumberFormat.plain`, for reading by people, and `NumberFormat.json`.
-/

namespace BoundSql

/-- How numbers are laid out. -/
structure NumberFormat where
  /-- Least and greatest exponent of the leading digit that are written without an exponent; all
  of them when absent. -/
  positional : Option (Int × Int)
  /-- Whether an integral number without exponent keeps a final `.0`. -/
  pointZero : Bool
  /-- Which of two equally near decimals is written. -/
  tie : TieRule

namespace NumberFormat

/-- No exponent, and no fraction unless there is one. -/
def plain : NumberFormat := ⟨none, false, .up⟩

/-- An exponent below `1e-5` and from `1e16` on; integral numbers keep `.0`. -/
def json : NumberFormat := ⟨some (-5, 15), true, .toEven⟩

/-- Digits with a point before the last `-exponent` of them, or zeros after them. -/
def positionalText (f : NumberFormat) (digits : List Char) (exponent : Int) : List Char :=
  if 0 ≤ exponent then
    digits ++ List.replicate exponent.toNat '0' ++ (if f.pointZero then ['.', '0'] else [])
  else
    let places := (-exponent).toNat
    if places < digits.length then
      digits.take (digits.length - places) ++ '.' :: digits.drop (digits.length - places)
    else '0' :: '.' :: List.replicate (places - digits.length) '0' ++ digits

/-- One digit, the others after a point, and the exponent with its sign. -/
def exponentText (digits : List Char) (leading : Int) : List Char :=
  digits.take 1 ++ (if digits.length ≤ 1 then [] else '.' :: digits.drop 1)
    ++ 'e' :: (if leading < 0 then '-' else '+') :: Nat.toDigits 10 leading.natAbs

/-- The text of a finite number. -/
def finiteText (f : NumberFormat) (x : Binary64) : List Char :=
  let sign := if x.isNegative then ['-'] else []
  if x.isZero then sign ++ f.positionalText ['0'] 0
  else
    let d := x.shortest f.tie
    let digits := Nat.toDigits 10 d.digits
    let leading := d.exponent + digits.length - 1
    let body :=
      match f.positional with
      | none => f.positionalText digits d.exponent
      | some (least, greatest) =>
        if least ≤ leading ∧ leading ≤ greatest then f.positionalText digits d.exponent
        else exponentText digits leading
    sign ++ body

end NumberFormat

namespace Binary64

/-- The number for people: shortest digits, `NaN`, `inf` and `-inf`. -/
def display (x : Binary64) : String :=
  if x.isNaN then "NaN"
  else if x.isInfinite then (if x.isNegative then "-inf" else "inf")
  else String.ofList (NumberFormat.plain.finiteText x)

end Binary64

end BoundSql
