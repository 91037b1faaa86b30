import BoundSql.Scalar.Basic

/-!
# Columns

A column has a name, a type and options: a length, whether it may be null, whether it is (part
of) the primary key, whether it counts up by itself, the column it references, and a default.
-/

namespace BoundSql

/-- The declared type of a column. -/
inductive ColumnType where
  | integer | string | text | float | boolean | date | datetime | timestamp
deriving DecidableEq, Inhabited

namespace ColumnType

def all : List ColumnType :=
  [integer, string, text, float, boolean, date, datetime, timestamp]

/-- The name in lower case. -/
def name : ColumnType → String
  | integer => "integer"
  | string => "string"
  | text => "text"
  | float => "float"
  | boolean => "boolean"
  | date => "date"
  | datetime => "datetime"
  | timestamp => "timestamp"

/-- The name in upper case. -/
def display : ColumnType → String
  | integer => "INTEGER"
  | string => "STRING"
  | text => "TEXT"
  | float => "FLOAT"
  | boolean => "BOOLEAN"
  | date => "DATE"
  | datetime => "DATETIME"
  | timestamp => "TIMESTAMP"

/-- The type of a lower-case name. -/
def ofName? (s : String) : Option ColumnType := all.find? fun t => decide (t.name = s)

theorem ofName?_name (t : ColumnType) : ofName? t.name = some t := by
  cases t <;> decide

end ColumnType

/-- A column of a table, as a foreign key names it. -/
structure Reference where
  table : String
  column : String
deriving DecidableEq

/-- The text `table.column`. -/
def Reference.display (r : Reference) : String := r.table ++ "." ++ r.column

/-- What a column declares besides its name and type. -/
structure ColumnOptions where
  length : Option UInt32 := none
  nullable : Bool := true
  primaryKey : Bool := false
  autoIncrement : Bool := false
  reference : Option Reference := none
  default : Option Scalar := none
deriving DecidableEq

/-- Equality of options, with the default compared as a value. -/
def ColumnOptions.same (a b : ColumnOptions) : Bool :=
  decide (a.length = b.length) && decide (a.nullable = b.nullable) &&
    decide (a.primaryKey = b.primaryKey) && decide (a.autoIncrement = b.autoIncrement) &&
    decide (a.reference = b.reference) && Scalar.sameOption a.default b.default

/-- A column as its table declares it. -/
structure Column where
  name : String
  type : ColumnType
  options : ColumnOptions := {}
deriving DecidableEq

namespace Column

/-- Equality of columns, with defaults compared as values. -/
def same (a b : Column) : Bool :=
  decide (a.name = b.name) && decide (a.type = b.type) && a.options.same b.options

def withLength (c : Column) (length : UInt32) : Column :=
  { c with options := { c.options with length := some length } }

def notNull (c : Column) : Column :=
  { c with options := { c.options with nullable := false } }

/-- A primary key is never null. -/
def asPrimaryKey (c : Column) : Column :=
  { c with options := { c.options with primaryKey := true, nullable := false } }

def counting (c : Column) : Column :=
  { c with options := { c.options with autoIncrement := true } }

def referencing (c : Column) (r : Reference) : Column :=
  { c with options := { c.options with reference := some r } }

def withDefault (c : Column) (v : Scalar) : Column :=
  { c with options := { c.options with default := some v } }

end Column

end BoundSql
