import BoundSql.Error
import BoundSql.Text.Identifier

/-!
# Tables, aliases and sources

A table is a name and columns in declared order. `Table.declare` refuses a blank name, an empty
column name and a repeated one; `Alias.declare` refuses a name that is no identifier. A source
is what a query can draw columns from: a table or an alias of one.
-/

namespace BoundSql

/-! ### Tables -/

/-- A table: a name and columns in declared order. -/
structure Table where
  name : String
  columns : List Column
deriving DecidableEq

namespace Table

/-- Equality of tables, with the defaults of columns compared as values. -/
def same (s t : Table) : Bool :=
  decide (s.name = t.name) && s.columns.isEqv t.columns Column.same

def columnNames (t : Table) : List String := t.columns.map Column.name

def column? (t : Table) (name : String) : Option Column :=
  t.columns.find? fun c => decide (c.name = name)

def hasColumn (t : Table) (name : String) : Bool := (t.column? name).isSome

/-- The columns that reference another one, with the reference. -/
def references (t : Table) : List (Column × Reference) :=
  t.columns.filterMap fun c => c.options.reference.map fun r => (c, r)

/-- The names of a list that the table does not declare, in the order of the list. -/
def unknownColumns (t : Table) (names : List String) : List String :=
  names.filter fun n => !t.hasColumn n

/-- The first fault of a column list, given the names already seen. -/
def columnFault (table : String) (seen : List String) : List Column → Option NameFault
  | [] => none
  | c :: cs =>
    if c.name = "" then some (.invalidIdentifier c.name)
    else if c.name ∈ seen then some (.duplicateColumn table c.name)
    else columnFault table (c.name :: seen) cs

/-- A name without any character that is not white space. -/
def isBlankName (name : String) : Bool := name.toList.all isBlank

/-- The table of a name and columns, if the names are in order. -/
def checked (name : String) (columns : List Column) : Except NameFault Table :=
  if isBlankName name then .error (.invalidIdentifier name)
  else
    match columnFault name [] columns with
    | some fault => .error fault
    | none => .ok ⟨name, columns⟩

def declare (name : String) (columns : List Column) : Except Error Table :=
  (checked name columns).mapError .badName

/-- The table's name is not blank, and its columns have names, no two the same. -/
def WellFormed (t : Table) : Prop :=
  isBlankName t.name = false ∧ (∀ c ∈ t.columns, c.name ≠ "") ∧ t.columnNames.Nodup

end Table

/-! ### Aliases -/

/-- A table under another name. -/
structure Alias where
  table : Table
  name : String
deriving DecidableEq

namespace Alias

def same (a b : Alias) : Bool := a.table.same b.table && decide (a.name = b.name)

/-- The alias of a table, if the name is an identifier. -/
def checked (table : Table) (name : String) : Except NameFault Alias :=
  if isIdentifier name then .ok ⟨table, name⟩ else .error (.invalidIdentifier name)

def declare (table : Table) (name : String) : Except Error Alias :=
  (checked table name).mapError .badName

end Alias

/-! ### Sources -/

/-- A table or an alias of one. -/
inductive Source where
  | table (t : Table)
  | aliased (a : Alias)
deriving DecidableEq

namespace Source

def same : Source → Source → Bool
  | table s, table t => s.same t
  | aliased a, aliased b => a.same b
  | _, _ => false

/-- The name that qualifies columns. -/
def name : Source → String
  | table t => t.name
  | aliased a => a.name

/-- The table behind the source. -/
def base : Source → Table
  | table t => t
  | aliased a => a.table

end Source

/-- A column as a clause mentions it, with the source or the bare name that qualifies it. -/
structure ColumnRef where
  name : String
  source : Option Source := none
  /-- Qualifies the column when it has no source. -/
  qualifier : Option String := none
deriving DecidableEq

namespace ColumnRef

def same (c d : ColumnRef) : Bool :=
  decide (c.name = d.name) && decide (c.qualifier = d.qualifier) &&
    match c.source, d.source with
    | some s, some t => s.same t
    | none, none => true
    | _, _ => false

/-- The name that stands before the column, if any. -/
def ownerName (c : ColumnRef) : Option String :=
  match c.source with
  | some s => some s.name
  | none => c.qualifier

end ColumnRef

namespace Source

/-- A declared column, qualified by the source. -/
def column (s : Source) (name : String) : Except Error ColumnRef :=
  if s.base.hasColumn name then .ok { name := name, source := some s }
  else .error (.unknownColumns s.base.name [name])

/-- Every declared column in order, qualified by the source. -/
def columns (s : Source) : List ColumnRef :=
  s.base.columnNames.map fun name => { name := name, source := some s }

end Source

end BoundSql
