import BoundSql.Scalar.Basic

/-!
# Literals

How a value is written in a filter or an assignment: `null` in any case, `true`, `false`, an
integer, a number, a text between single quotes, or else the text itself.
-/

namespace BoundSql

namespace Scalar

/-- A signed integer within sixty-four bits. -/
def readInt? (cs : List Char) : Option Int64 :=
  let (negative, digits) := Binary64.takeSign cs
  if digits.isEmpty ∨ !digits.all Char.isDigit then none
  else
    let n : Int := if negative then -(digitsValue digits : Int) else digitsValue digits
    if Int64.minValue.toInt ≤ n ∧ n ≤ Int64.maxValue.toInt then some (Int64.ofInt n) else none

/-- What stands between a single quote at each end. -/
def unquote? : List Char → Option (List Char)
  | '\'' :: cs => if cs.getLast? = some '\'' then some cs.dropLast else none
  | _ => none

/-- The value of a literal whose ends are not white space. -/
def ofTrimmed (cs : List Char) : Scalar :=
  if cs.map Char.toLower = "null".toList then null
  else if cs = "true".toList then bool true
  else if cs = "false".toList then bool false
  else
    match readInt? cs with
    | some n => int n
    | none =>
      match Binary64.read? cs with
      | some x => float x
      | none => text (String.ofList ((unquote? cs).getD cs))

/-- The value of a literal; white space around it does not count. -/
def ofLiteral (s : String) : Scalar := ofTrimmed (trimBlank s.toList)

end Scalar

end BoundSql
