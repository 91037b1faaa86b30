import BoundSql.Calendar.Moment
import BoundSql.Numeric.Notation

/-!
# Scalars

A scalar is a value that a placeholder stands for. `Scalar.display` writes it for people;
`Scalar.same` is equality as the values themselves compare, so that a NaN differs from itself.
-/

namespace BoundSql

/-- A value that a placeholder stands for. -/
inductive Scalar where
  | null
  | bool (b : Bool)
  | int (n : Int64)
  | float (x : Binary64)
  | date (d : Date)
  | moment (m : Moment)
  | text (s : String)
deriving DecidableEq, Inhabited

namespace Scalar

def isNull : Scalar → Bool
  | null => true
  | _ => false

/-- Equality of values: floats compare as numbers, all else by identity. -/
def same : Scalar → Scalar → Bool
  | null, null => true
  | bool a, bool b => decide (a = b)
  | int a, int b => decide (a = b)
  | float a, float b => a.same b
  | date a, date b => decide (a = b)
  | moment a, moment b => decide (a = b)
  | text a, text b => decide (a = b)
  | _, _ => false

/-- Equality of two values that may be absent. -/
def sameOption : Option Scalar → Option Scalar → Bool
  | none, none => true
  | some v, some w => same v w
  | _, _ => false

/-- Equality of rows of named values. -/
def sameRow : List (String × Scalar) → List (String × Scalar) → Bool
  | [], [] => true
  | (c, v) :: vs, (d, w) :: ws => decide (c = d) && same v w && sameRow vs ws
  | _, _ => false

/-- Text between single quotes, with each single quote inside written twice. -/
def quoted (cs : List Char) : List Char :=
  '\'' :: cs.flatMap (fun c => if c = '\'' then ['\'', '\''] else [c]) ++ ['\'']

/-- The value for people: `NULL`, numbers, and quoted days, moments and texts. -/
def display : Scalar → String
  | null => "NULL"
  | bool b => if b then "true" else "false"
  | int n => toString n.toInt
  | float x => x.display
  | date d => String.ofList (quoted d.toText)
  | moment m => String.ofList (quoted m.display)
  | text s => String.ofList (quoted s.toList)

/-- A text read as a day, else as a moment, else kept. -/
def ofText (s : String) : Scalar :=
  match Date.read? s.toList with
  | some d => date d
  | none =>
    match Moment.read? s.toList with
    | some m => moment m
    | none => text s

/-- An integer within sixty-four bits, or the nearest float. -/
def ofInteger (n : Int) : Scalar :=
  if Int64.minValue.toInt ≤ n ∧ n ≤ Int64.maxValue.toInt then int (Int64.ofInt n)
  else float (Binary64.ofInt n)

end Scalar

end BoundSql
