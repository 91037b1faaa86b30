import BoundSql.Numeric.Reading
import BoundSql.Text.Blank

/-!
# Calendar days

Days of the proleptic Gregorian calendar with years from -262143 to 262142, their text
`YYYY-MM-DD`, and its reader, which lets white space stand before each part.
-/

namespace BoundSql

/-! ### Days -/

def isLeapYear (year : Int) : Bool :=
  year % 4 == 0 && (year % 100 != 0 || year % 400 == 0)

/-- The number of days in a month; no other number is a month. -/
def daysInMonth (year : Int) (month : Nat) : Nat :=
  if month = 2 then (if isLeapYear year then 29 else 28)
  else if month = 4 ∨ month = 6 ∨ month = 9 ∨ month = 11 then 30
  else if 1 ≤ month ∧ month ≤ 12 then 31
  else 0

/-- The three numbers name a day of the calendar. -/
def isCalendarDay (year : Int) (month day : Nat) : Bool :=
  decide (-262143 ≤ year ∧ year ≤ 262142 ∧ 1 ≤ day ∧ day ≤ daysInMonth year month)

/-- A day of the calendar. -/
structure Date where
  year : Int
  month : Nat
  day : Nat
  isDay : isCalendarDay year month day = true
deriving DecidableEq

namespace Date

/-- The day of three numbers, if there is one. -/
def ofParts? (year : Int) (month day : Nat) : Option Date :=
  if h : isCalendarDay year month day = true then some ⟨year, month, day, h⟩ else none

/-! ### Writing -/

/-- A number with zeros in front up to a width. -/
def padded (width n : Nat) : List Char :=
  let digits := Nat.toDigits 10 n
  List.replicate (width - digits.length) '0' ++ digits

/-- Four digits from year 0 to 9999; a sign and at least four digits for any other year. -/
def yearText (year : Int) : List Char :=
  if year < 0 then '-' :: padded 4 year.natAbs
  else if 9999 < year then '+' :: padded 4 year.natAbs
  else padded 4 year.natAbs

/-- The text `YYYY-MM-DD`. -/
def toText (d : Date) : List Char :=
  yearText d.year ++ '-' :: padded 2 d.month ++ '-' :: padded 2 d.day

/-! ### Reading -/

/-- A number of at least one and at most `width` digits after white space. -/
def takeNumber (width : Nat) (cs : List Char) : Option (Nat × List Char) :=
  let s := trimStart cs
  let digits := (s.take width).takeWhile Char.isDigit
  if digits.isEmpty then none else some (digitsValue digits, s.drop digits.length)

/-- A character after white space. -/
def takeMark (mark : Char) (cs : List Char) : Option (List Char) :=
  match trimStart cs with
  | c :: rest => if c = mark then some rest else none
  | [] => none

/-- The digits that follow the sign of a year. -/
def takeSignedYear (cs : List Char) : Option (Nat × List Char) :=
  let (digits, rest) := takeDigits cs
  if digits.isEmpty then none else some (digitsValue digits, rest)

/-- A year after white space: at most four digits, or a sign and any number of them. -/
def takeYear (cs : List Char) : Option (Int × List Char) :=
  match trimStart cs with
  | '-' :: rest => (takeSignedYear rest).map fun (n, rest) => (-(n : Int), rest)
  | '+' :: rest => (takeSignedYear rest).map fun (n, rest) => ((n : Int), rest)
  | s => (takeNumber 4 s).map fun (n, rest) => ((n : Int), rest)

/-- A day in front of a text, and the rest. -/
def take? (cs : List Char) : Option (Date × List Char) := do
  let (year, cs) ← takeYear cs
  let cs ← takeMark '-' cs
  let (month, cs) ← takeNumber 2 cs
  let cs ← takeMark '-' cs
  let (day, cs) ← takeNumber 2 cs
  let date ← ofParts? year month day
  return (date, cs)

/-- Reads a day; white space may end the text. -/
def read? (cs : List Char) : Option Date := do
  let (date, rest) ← take? cs
  if (trimStart rest).isEmpty then return date else none

end Date

end BoundSql
