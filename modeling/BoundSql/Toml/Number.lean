import BoundSql.Toml.Basic
import BoundSql.Toml.Gap

/-!
# TOML numbers, dates and times

Digits may have single underscores between them. A date or a time is only checked: its parts have
a fixed number of digits and must lie in their ranges.
-/

namespace BoundSql

namespace Toml

/-! ### Digits -/

/--
The digits of a row with single underscores between them, and what follows. An underscore that
no digit follows is an error. `fuel` bounds the recursion.
-/
def moreDigits (isDigit : Char → Bool) : (fuel : Nat) → List Char →
    Option (List Char × List Char)
  | 0, _ => none
  | _, [] => some ([], [])
  | fuel + 1, c :: cs =>
    if isDigit c then (moreDigits isDigit fuel cs).map fun (ds, rest) => (c :: ds, rest)
    else if c = '_' then
      match cs with
      | d :: rest =>
        if isDigit d then (moreDigits isDigit fuel rest).map fun (ds, rest) => (d :: ds, rest)
        else none
      | [] => none
    else some ([], c :: cs)

/-- A row of at least one digit. -/
def takeRow (isDigit : Char → Bool) (cs : List Char) : Option (List Char × List Char) :=
  match cs with
  | c :: rest =>
    if isDigit c then
      (moreDigits isDigit (rest.length + 1) rest).map fun (ds, rest) => (c :: ds, rest)
    else none
  | [] => none

/-- The whole part of a decimal number: a zero alone, or a row that does not start with zero. -/
def takeWhole (cs : List Char) : Option (List Char × List Char) :=
  match cs with
  | '0' :: rest => some (['0'], rest)
  | cs => takeRow Char.isDigit cs

/-! ### Integers and floats -/

/-- An integer within sixty-four bits. -/
def boundedInt (n : Int) : Option Toml :=
  if Int64.minValue.toInt ≤ n ∧ n ≤ Int64.maxValue.toInt then some (int (Int64.ofInt n)) else none

/-- An integer in a base after its two leading characters. -/
def readBased (base : Nat) (cs : List Char) : Option (Toml × List Char) :=
  let isDigit (c : Char) : Bool := ((hexValue? c).getD base) < base
  match takeRow isDigit cs with
  | none => none
  | some (digits, rest) =>
    let n := digits.foldl (fun n c => base * n + (hexValue? c).getD 0) 0
    (boundedInt n).map fun v => (v, rest)

/-- An exponent part in front, if there is one; `none` in the outer option is an error. -/
def takeExponent (cs : List Char) : Option (Option Int × List Char) :=
  match cs with
  | c :: more =>
    if c = 'e' ∨ c = 'E' then
      let (negative, more) := Binary64.takeSign more
      match takeRow Char.isDigit more with
      | none => none
      | some (digits, rest) =>
        let n : Int := digitsValue digits
        some (some (if negative then -n else n), rest)
    else some (none, cs)
  | [] => some (none, [])

/-- A float of its parts, unless it is above all finite ones. -/
def boundedFloat (negative : Bool) (digits : List Char) (exponent : Int) : Option Toml :=
  let x := Binary64.ofDecimal negative (digitsValue digits) exponent
  if x.isInfinite ∧ !negative then none else some (float x)

/-- A decimal integer or a float after its sign. -/
def readDecimal (negative : Bool) (cs : List Char) : Option (Toml × List Char) :=
  match takeWhole cs with
  | none => none
  | some (whole, '.' :: cs) =>
    match takeRow Char.isDigit cs with
    | none => none
    | some (fraction, cs) =>
      match takeExponent cs with
      | none => none
      | some (exponent, rest) =>
        (boundedFloat negative (whole ++ fraction) (exponent.getD 0 - fraction.length)).map
          fun v => (v, rest)
  | some (whole, cs) =>
    match takeExponent cs with
    | none => none
    | some (some exponent, rest) =>
      (boundedFloat negative whole exponent).map fun v => (v, rest)
    | some (none, rest) =>
      let n : Int := digitsValue whole
      (boundedInt (if negative then -n else n)).map fun v => (v, rest)

/-- A number: a sign, then digits, `inf` or `nan`; or `0x`, `0o` or `0b` and digits. -/
def readNumber (cs : List Char) : Option (Toml × List Char) :=
  match cs with
  | '0' :: 'x' :: cs => readBased 16 cs
  | '0' :: 'o' :: cs => readBased 8 cs
  | '0' :: 'b' :: cs => readBased 2 cs
  | cs =>
    let (negative, body) := Binary64.takeSign cs
    match body with
    | 'i' :: 'n' :: 'f' :: rest => some (float (Binary64.infinity negative), rest)
    | 'n' :: 'a' :: 'n' :: rest =>
      some (float (if negative then Binary64.nan.neg else Binary64.nan), rest)
    | body => readDecimal negative body

/-! ### Dates and times -/

/-- A number of exactly `width` digits between two bounds. -/
def takeFixed (width least greatest : Nat) (cs : List Char) : Option (Nat × List Char) :=
  let digits := (cs.take width).takeWhile Char.isDigit
  let n := digitsValue digits
  if digits.length = width ∧ least ≤ n ∧ n ≤ greatest then some (n, cs.drop width) else none

/-- One given character in front, and what follows it. -/
def dropMark? (mark : Char) (cs : List Char) : Option (List Char) :=
  match cs with
  | c :: rest => if c = mark then some rest else none
  | [] => none

/-- What follows a date `YYYY-MM-DD`. -/
def skipDate? (cs : List Char) : Option (List Char) := do
  let (year, cs) ← takeFixed 4 0 9999 cs
  let cs ← dropMark? '-' cs
  let (month, cs) ← takeFixed 2 1 12 cs
  let cs ← dropMark? '-' cs
  let (_, cs) ← takeFixed 2 1 (daysInMonth year month) cs
  return cs

/-- What follows a fraction of a second, if there is one. -/
def skipFraction (cs : List Char) : List Char :=
  match cs with
  | '.' :: rest =>
    if (rest.takeWhile Char.isDigit).isEmpty then cs else rest.dropWhile Char.isDigit
  | _ => cs

/-- What follows a time `HH:MM:SS` with an optional fraction. -/
def skipTime? (cs : List Char) : Option (List Char) := do
  let (_, cs) ← takeFixed 2 0 23 cs
  let cs ← dropMark? ':' cs
  let (_, cs) ← takeFixed 2 0 59 cs
  let cs ← dropMark? ':' cs
  let (_, cs) ← takeFixed 2 0 60 cs
  return skipFraction cs

/-- What follows the distance `HH:MM` of a zone after its sign. -/
def skipZoneDistance? (cs : List Char) : Option (List Char) := do
  let (_, cs) ← takeFixed 2 0 23 cs
  let cs ← dropMark? ':' cs
  let (_, cs) ← takeFixed 2 0 59 cs
  return cs

/-- What follows a zone, if there is one. -/
def skipZone (cs : List Char) : List Char :=
  match cs with
  | c :: rest =>
    if c = 'Z' ∨ c = 'z' then rest
    else if c = '+' ∨ c = '-' then (skipZoneDistance? rest).getD cs
    else cs
  | [] => []

/-- What follows a time of day and a zone after a date, if there are any. -/
def skipTimeOfDay (cs : List Char) : List Char :=
  match cs with
  | c :: rest =>
    if c = 'T' ∨ c = 't' ∨ c = ' ' then
      match skipTime? rest with
      | some rest => skipZone rest
      | none => cs
    else cs
  | [] => []

/-- Whether a text starts like a date or a time. -/
def startsCalendar (cs : List Char) : Bool :=
  match cs with
  | a :: b :: c :: d :: e :: _ =>
    a.isDigit && b.isDigit && (c == ':' || c.isDigit && d.isDigit && e == '-')
  | a :: b :: c :: _ => a.isDigit && b.isDigit && c == ':'
  | _ => false

/-- A date, a time or both, and what follows. -/
def readCalendar (cs : List Char) : Option (Toml × List Char) :=
  match skipDate? cs with
  | some rest => some (calendar, skipTimeOfDay rest)
  | none => (skipTime? cs).map fun rest => (calendar, rest)

end Toml

end BoundSql
