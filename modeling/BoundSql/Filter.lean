import BoundSql.Clause.Condition
import BoundSql.Scalar.Literal
import BoundSql.Schema.Declaration

/-!
# Filters, assignments and order terms

Three short forms: a filter such as `id>=10` or `lastname~Do%`, an assignment such as
`firstname=John`, and an order term such as `id:desc`. What stands after the operator of a
filter or an assignment is a literal.
-/

namespace BoundSql

/-! ### Filters -/

/-- A comparison that a filter can write. -/
inductive Comparison where
  | eq | ne | lt | le | gt | ge | like
deriving DecidableEq

namespace Comparison

def operator : Comparison → Operator
  | eq => .eq
  | ne => .ne
  | lt => .lt
  | le => .le
  | gt => .gt
  | ge => .ge
  | like => .like

/-- The sign of a comparison in a filter. -/
def sign : Comparison → List Char
  | eq => ['=']
  | ne => ['!', '=']
  | lt => ['<']
  | le => ['<', '=']
  | gt => ['>']
  | ge => ['>', '=']
  | like => ['~']

/-- The longest sign in front of a text, and the rest. -/
def take (cs : List Char) : Except (List Char) (Comparison × List Char) :=
  match [ne, le, ge, eq, lt, gt, like].find? fun o => o.sign.isPrefixOf cs with
  | some o => .ok (o, cs.drop o.sign.length)
  | none => .error cs

end Comparison

/-- A condition on a column as a short text gives it. -/
structure Filter where
  column : String
  comparison : Comparison
  value : Scalar

namespace Filter

/-- A column, a sign and a literal, with spacing around the first two. -/
def scan (cs : List Char) : Except (List Char) Filter := do
  let (column, cs) ← takeIdentifier (skipSpacing cs)
  let (comparison, cs) ← Comparison.take (skipSpacing cs)
  return ⟨String.ofList column, comparison, .ofLiteral (String.ofList (skipSpacing cs))⟩

/-- Reads a filter. -/
def parse (text : String) : Except Error Filter := atPosition .filter text (scan text.toList)

/-- The condition on a source, which has to declare the column. -/
def toClause (f : Filter) (s : Source) : Except Error Clause := do
  return (← s.column f.column).compare f.comparison.operator (.value f.value)

end Filter

/-! ### Assignments -/

/-- A column and the value it is set to. -/
structure ValueAssignment where
  column : String
  value : Scalar

namespace ValueAssignment

/-- A column, an equals sign and a literal, with spacing around the first two. -/
def scan (cs : List Char) : Except (List Char) ValueAssignment := do
  let (column, cs) ← takeIdentifier (skipSpacing cs)
  let cs ← expectChar '=' (skipSpacing cs)
  return ⟨String.ofList column, .ofLiteral (String.ofList (skipSpacing cs))⟩

/-- Reads an assignment. -/
def parse (text : String) : Except Error ValueAssignment :=
  atPosition .assignment text (scan text.toList)

end ValueAssignment

/-! ### Order terms -/

/-- The direction of an ordering. -/
inductive Direction where
  | ascending | descending
deriving DecidableEq

/-- A column to order by, with the direction if it is given. -/
structure OrderTerm where
  column : String
  direction : Option Direction

namespace OrderTerm

/-- A direction after a colon, and the rest. -/
def takeDirection? : List Char → Option (Direction × List Char)
  | ':' :: cs =>
    match dropWord? "asc".toList cs with
    | some rest => some (.ascending, rest)
    | none => (dropWord? "desc".toList cs).map fun rest => (.descending, rest)
  | _ => none

/-- A column and an optional direction, with spacing around them. -/
def scan (cs : List Char) : Except (List Char) OrderTerm := do
  let (column, cs) ← takeIdentifier (skipSpacing cs)
  match takeDirection? cs with
  | some (direction, cs) =>
    expectEnd cs
    return ⟨String.ofList column, some direction⟩
  | none =>
    expectEnd cs
    return ⟨String.ofList column, none⟩

/-- Reads an order term. -/
def parse (text : String) : Except Error OrderTerm := atPosition .orderTerm text (scan text.toList)

/-- The term on a source, which has to declare the column. -/
def toClause (o : OrderTerm) (s : Source) : Except Error Clause := do
  let c ← s.column o.column
  match o.direction with
  | some .descending => return c.descending
  | some .ascending => return c.ascending
  | none => return .column c

end OrderTerm

end BoundSql
