import BoundSql.Clause.Basic
import BoundSql.Json.Printer

/-!
# Clauses as JSON

A clause is an object whose first member, `kind`, names the sort of node. Absent parts are
`null`; only the qualifier of a column is left out.
-/

namespace BoundSql

namespace Operator

/-- The name of an operator that has a symbol of its own. -/
def name : Operator → String
  | eq => "Eq"
  | ne => "Ne"
  | within => "In"
  | is => "Is"
  | isNot => "IsNot"
  | lt => "Lt"
  | le => "Le"
  | gt => "Gt"
  | ge => "Ge"
  | like => "Like"
  | notLike => "NotLike"
  | and => "And"
  | or => "Or"
  | not => "Not"
  | asc => "Asc"
  | desc => "Desc"
  | custom _ => "Custom"

def toJson : Operator → Json
  | custom token => .object [("Custom", .string token)]
  | o => .string o.name

end Operator

/-- The document of a value that may be absent. -/
def Json.ofOption (encode : α → Json) : Option α → Json
  | some x => encode x
  | none => .null

def Reference.toJson (r : Reference) : Json :=
  .object [("table", .string r.table), ("column", .string r.column)]

def ColumnOptions.toJson (o : ColumnOptions) : Json :=
  .object
    [("length", .ofOption (fun n : UInt32 => .int n.toNat) o.length),
     ("nullable", .bool o.nullable),
     ("primary_key", .bool o.primaryKey),
     ("auto_increment", .bool o.autoIncrement),
     ("foreign_key", .ofOption Reference.toJson o.reference),
     ("default", .ofOption .ofScalar o.default)]

def Column.toJson (c : Column) : Json :=
  .object [("name", .string c.name), ("sql_type", .string c.type.name),
    ("options", c.options.toJson)]

/-- The members of a table's object. -/
def Table.members (t : Table) : List (String × Json) :=
  [("name", .string t.name), ("columns", .array (t.columns.map Column.toJson))]

def Table.toJson (t : Table) : Json := .object t.members

/-- The members of an alias's object. -/
def Alias.members (a : Alias) : List (String × Json) :=
  [("table", a.table.toJson), ("name", .string a.name)]

/-- A source says by its kind whether it is a table or an alias. -/
def Source.toJson : Source → Json
  | .table t => .object (("kind", .string "Table") :: t.members)
  | .aliased a => .object (("kind", .string "Alias") :: a.members)

/-- The members of a column's object. -/
def ColumnRef.members (c : ColumnRef) : List (String × Json) :=
  [("name", .string c.name), ("table", .ofOption Source.toJson c.source)]
    ++ (match c.qualifier with
        | some q => [("qualifier", .string q)]
        | none => [])

/-- Values of columns, as an array of pairs. -/
def valuesJson : Option (List (String × Scalar)) → Json :=
  .ofOption fun vs => .array (vs.map fun (c, v) => .array [.string c, .ofScalar v])

/-- A count of rows. -/
def countJson : Option UInt64 → Json := .ofOption fun n => .int n.toNat

namespace Clause

/-- An object of a kind. -/
def tagged (kind : String) (members : List (String × Json)) : Json :=
  .object (("kind", .string kind) :: members)

mutual
/-- The document of a clause. -/
def toJson : Clause → Json
  | table t => tagged "Table" t.members
  | named name => tagged "TableClause" [("name", .string name)]
  | aliased a => tagged "Alias" a.members
  | column c => tagged "Column" c.members
  | binary l o r =>
    tagged "Expression" [("left", l.toJson), ("operator", o.toJson), ("right", r.toJson)]
  | unary o c m =>
    tagged "UnaryExpression"
      [("element", c.toJson), ("operator", .ofOption Operator.toJson o),
       ("modifier", .ofOption Operator.toJson m)]
  | junction o cs =>
    tagged "ExpressionList" [("operator", o.toJson), ("expressions", .array (toJsonAll cs))]
  | group c => tagged "Grouping" [("element", c.toJson)]
  | sequence cs separator =>
    tagged "ClauseList" [("clauses", .array (toJsonAll cs)), ("separator", .string separator)]
  | bind key v => tagged "BindParam" [("key", .string key), ("value", .ofScalar v)]
  | null => tagged "Null" []
  | join l r on outer =>
    tagged "Join"
      [("left", l.toJson), ("right", r.toJson), ("on_clause", on.toJson),
       ("is_outer", .bool outer)]
  | select columns froms condition order limit offset distinct =>
    tagged "Select"
      [("columns", .array (toJsonAll columns)), ("froms", .array (toJsonAll froms)),
       ("where_clause", toJsonOption condition), ("order_by_clause", toJsonOrder order),
       ("limit", countJson limit), ("offset", countJson offset), ("distinct", .bool distinct)]
  | insert t values => tagged "Insert" [("table", t.toJson), ("values", valuesJson values)]
  | update t values condition =>
    tagged "Update"
      [("table", t.toJson), ("values", valuesJson values),
       ("where_clause", toJsonOption condition)]
  | delete t condition =>
    tagged "Delete" [("table", t.toJson), ("where_clause", toJsonOption condition)]

def toJsonAll : List Clause → List Json
  | [] => []
  | c :: cs => c.toJson :: toJsonAll cs

def toJsonOption : Option Clause → Json
  | some c => c.toJson
  | none => .null

def toJsonOrder : Option (OrderTerms Clause) → Json
  | some ⟨terms, separator⟩ =>
    .object [("clauses", .array (toJsonAll terms)), ("separator", .string separator)]
  | none => .null
end

/-- The text of a clause's document, one member a line. -/
def toJsonText (c : Clause) : String := c.toJson.pretty

end Clause

end BoundSql
