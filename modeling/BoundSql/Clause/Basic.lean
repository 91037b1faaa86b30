import BoundSql.Schema.Table

/-!
# Clauses

A clause is a node of an SQL statement: a table, a column, a comparison, a statement. Clauses
are plain values; the records `Join`, `Select`, `Insert`, `Update` and `Delete` give names to
the parts of the larger nodes.
-/

namespace BoundSql

/-- The terms of an ORDER BY and what is written between them. -/
structure OrderTerms (α : Type) where
  terms : List α
  separator : String

/-- A node of a statement. -/
inductive Clause where
  | table (t : Table)
  /-- A table of which only the name is known. -/
  | named (name : String)
  | aliased (a : Alias)
  | column (c : ColumnRef)
  /-- `left operator right` -/
  | binary (left : Clause) (operator : Operator) (right : Clause)
  /-- An operand with an optional operator before it and an optional modifier after it. -/
  | unary (operator : Option Operator) (operand : Clause) (modifier : Option Operator)
  /-- Members with a conjunction between them. -/
  | junction (operator : Operator) (members : List Clause)
  /-- A clause in parentheses. -/
  | group (inner : Clause)
  /-- Members with a separator between them. -/
  | sequence (members : List Clause) (separator : String)
  /-- A value to be bound under a name made from the key. -/
  | bind (key : String) (value : Scalar)
  | null
  | join (left right on : Clause) (outer : Bool)
  | select (columns froms : List Clause) (condition : Option Clause)
      (order : Option (OrderTerms Clause)) (limit offset : Option UInt64) (distinct : Bool)
  | insert (table : Table) (values : Option (List (String × Scalar)))
  | update (table : Table) (values : Option (List (String × Scalar))) (condition : Option Clause)
  | delete (table : Table) (condition : Option Clause)

instance : Inhabited Clause := ⟨.null⟩

/-- `left JOIN right ON on`, or the left outer join. -/
structure Join where
  left : Clause
  right : Clause
  on : Clause
  outer : Bool := false

/-- The parts of a SELECT. Without `froms` the owners of the columns are selected from. -/
structure Select where
  columns : List Clause := []
  froms : List Clause := []
  condition : Option Clause := none
  order : Option (OrderTerms Clause) := none
  limit : Option UInt64 := none
  offset : Option UInt64 := none
  distinct : Bool := false

/-- The parts of an INSERT. Without values every column of the table is inserted. -/
structure Insert where
  table : Table
  values : Option (List (String × Scalar)) := none

/-- The parts of an UPDATE. Without values every column of the table is set. -/
structure Update where
  table : Table
  values : Option (List (String × Scalar)) := none
  condition : Option Clause := none

/-- The parts of a DELETE. -/
structure Delete where
  table : Table
  condition : Option Clause := none

def Join.toClause (j : Join) : Clause := .join j.left j.right j.on j.outer

def Select.toClause (s : Select) : Clause :=
  .select s.columns s.froms s.condition s.order s.limit s.offset s.distinct

def Insert.toClause (i : Insert) : Clause := .insert i.table i.values

def Update.toClause (u : Update) : Clause := .update u.table u.values u.condition

def Delete.toClause (d : Delete) : Clause := .delete d.table d.condition

def Source.toClause : Source → Clause
  | .table t => .table t
  | .aliased a => .aliased a

namespace Clause

def join? : Clause → Option Join
  | join left right on outer => some ⟨left, right, on, outer⟩
  | _ => none

def select? : Clause → Option Select
  | select columns froms condition order limit offset distinct =>
    some ⟨columns, froms, condition, order, limit, offset, distinct⟩
  | _ => none

def insert? : Clause → Option Insert
  | insert t values => some ⟨t, values⟩
  | _ => none

def update? : Clause → Option Update
  | update t values condition => some ⟨t, values, condition⟩
  | _ => none

def delete? : Clause → Option Delete
  | delete t condition => some ⟨t, condition⟩
  | _ => none

def column? : Clause → Option ColumnRef
  | column c => some c
  | _ => none

def source? : Clause → Option Source
  | table t => some (.table t)
  | aliased a => some (.aliased a)
  | _ => none

/-- The tag that names the sort of a node. -/
def kind : Clause → String
  | table .. => "Table"
  | named .. => "TableClause"
  | aliased .. => "Alias"
  | column .. => "Column"
  | binary .. => "Expression"
  | unary .. => "UnaryExpression"
  | junction .. => "ExpressionList"
  | group .. => "Grouping"
  | sequence .. => "ClauseList"
  | bind .. => "BindParam"
  | null => "Null"
  | join .. => "Join"
  | select .. => "Select"
  | insert .. => "Insert"
  | update .. => "Update"
  | delete .. => "Delete"

/-- Every tag, in the order of the nodes. -/
def kinds : List String :=
  ["Table", "TableClause", "Alias", "Column", "Expression", "UnaryExpression", "ExpressionList",
   "Grouping", "ClauseList", "BindParam", "Null", "Join", "Select", "Insert", "Update", "Delete"]

theorem kind_mem_kinds (c : Clause) : c.kind ∈ kinds := by
  cases c <;> simp [kind, kinds]

end Clause

end BoundSql
