import BoundSql.Calendar.Date

/-!
# Moments of a day

A moment is a day and a time of it in nanoseconds, without a zone. A second may be the sixtieth
of any minute, which stands for a leap second.
-/

namespace BoundSql

/-- A day with a time of day. -/
structure Moment where
  date : Date
  hour : Fin 24
  minute : Fin 60
  /-- The sixtieth second is a leap second. -/
  second : Fin 61
  nanosecond : Fin 1000000000
deriving DecidableEq

namespace Moment

/-! ### Writing -/

/-- The text `HH:MM:SS`. -/
def clockText (m : Moment) : List Char :=
  Date.padded 2 m.hour.val ++ ':' :: Date.padded 2 m.minute.val
    ++ ':' :: Date.padded 2 m.second.val

/-- Nothing for a whole second, else a point and three, six or nine digits, the fewest exact. -/
def fractionText (nanosecond : Nat) : List Char :=
  if nanosecond = 0 then []
  else if nanosecond % 1000000 = 0 then '.' :: Date.padded 3 (nanosecond / 1000000)
  else if nanosecond % 1000 = 0 then '.' :: Date.padded 6 (nanosecond / 1000)
  else '.' :: Date.padded 9 nanosecond

/-- The text `YYYY-MM-DDTHH:MM:SS` and the fraction. -/
def toText (m : Moment) : List Char :=
  m.date.toText ++ 'T' :: m.clockText ++ fractionText m.nanosecond.val

/-- The text for people: `YYYY-MM-DD HH:MM:SS`, without fraction. -/
def display (m : Moment) : List Char := m.date.toText ++ ' ' :: m.clockText

/-! ### Reading -/

/-- A number below a bound, as an element of it. -/
def below (bound n : Nat) : Option (Fin bound) :=
  if h : n < bound then some ⟨n, h⟩ else none

/-- A fraction of a second, of which nine digits count; without a point it is zero. -/
def takeNanosecond : List Char → Option (Nat × List Char)
  | '.' :: cs =>
    let (digits, rest) := takeDigits cs
    let kept := digits.take 9
    if kept.isEmpty then none
    else some (digitsValue kept * Nat.pow 10 (9 - kept.length), rest)
  | cs => some (0, cs)

/-- Reads a day, `T` and a time; white space may stand before each number and mark and at the end. -/
def read? (cs : List Char) : Option Moment := do
  let (date, cs) ← Date.take? cs
  let cs ← Date.takeMark 'T' cs
  let (hour, cs) ← Date.takeNumber 2 cs
  let cs ← Date.takeMark ':' cs
  let (minute, cs) ← Date.takeNumber 2 cs
  let cs ← Date.takeMark ':' cs
  let (second, cs) ← Date.takeNumber 2 cs
  let (nanosecond, cs) ← takeNanosecond cs
  let hour ← below 24 hour
  let minute ← below 60 minute
  let second ← below 61 second
  let nanosecond ← below 1000000000 nanosecond
  if (trimStart cs).isEmpty then return ⟨date, hour, minute, second, nanosecond⟩ else none

end Moment

end BoundSql
