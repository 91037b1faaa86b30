import BoundSql.CommandLine.Arguments
import BoundSql.Schema.Catalog
import BoundSql.Statement

/-!
# Reports

What the program prints: the tables of a catalog, and a statement as text or as JSON.
-/

namespace BoundSql

namespace Report

/-- A line and its end. -/
def line (s : String) : String := s ++ "\n"

/-- A text with blanks after it up to a width. -/
def padRight (width : Nat) (s : String) : String :=
  s ++ String.ofList (List.replicate (width - s.length) ' ')

/-! ### Tables -/

/-- The type of a column, with its length in parentheses. -/
def typeText (c : Column) : String :=
  match c.options.length with
  | some n => c.type.display ++ "(" ++ toString n.toNat ++ ")"
  | none => c.type.display

/-- What there is to note on a column; that a primary key is not null is not noted. -/
def notes (c : Column) : List String :=
  (if c.options.primaryKey then ["primary key"] else [])
    ++ (if c.options.autoIncrement then ["auto increment"] else [])
    ++ (if !c.options.nullable && !c.options.primaryKey then ["not null"] else [])
    ++ (match c.options.reference with
        | some r => ["-> " ++ r.display]
        | none => [])

def columnLine (c : Column) : String :=
  line ("  " ++ padRight 20 c.name ++ " " ++ padRight 14 (typeText c) ++ " "
    ++ ", ".intercalate (notes c))

def tableLines (t : Table) : String := line t.name ++ String.join (t.columns.map columnLine)

/-- The tables with their columns. -/
def catalog (c : Catalog) : String :=
  if c.tables.isEmpty then line "(no tables)" else String.join (c.tables.map tableLines)

/-! ### Statements -/

def parameterLine (entry : String × Scalar) : String :=
  line ("  :" ++ entry.1 ++ " = " ++ entry.2.display)

/-- The SQL text, and the parameters if there are any. -/
def statementText (s : Statement) : String :=
  line s.sql
    ++ (if s.params.isEmpty then ""
        else line "" ++ line "Params:" ++ String.join (s.params.entries.map parameterLine))

def statement (format : OutputFormat) (s : Statement) : String :=
  match format with
  | .text => statementText s
  | .json => line s.toJson.pretty

end Report

end BoundSql
